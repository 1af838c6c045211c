/-
The configuration of the service, read from environment variables, whose values are bytes. A variable whose value is no
text counts as unset. The address of the database has no default; a number that does not read is refused, the first one
in the order port, cache time, pool size.
-/
import PickupPoint.Bits
import PickupPoint.Text.Utf8
import PickupPoint.Text.Integer

namespace PickupPoint

open Text

structure Config where
  databaseUrl : String
  host : String
  port : Nat
  /-- without an address of a cache server histories are cached in memory -/
  redisUrl : Option String
  cacheTtl : Nat
  dbPoolSize : Nat
  deriving DecidableEq, Repr

inductive ConfigError where
  | missing (key : String)
  | invalid (key : String) (reason : IntegerFault)
  deriving DecidableEq, Repr

def ConfigError.message : ConfigError → String
  | .missing key => key ++ " must be set"
  | .invalid key reason => "invalid " ++ key ++ ": " ++ reason.message

/-- the bytes of each variable that is set -/
abbrev Environment := String → Option (List UInt8)

namespace Config

/-- the value of a variable, if it is text -/
def text? (env : Environment) (key : String) : Option String := (env key).bind fun bytes => intact? (decode bytes)

/-- a number of at most `limit`, or a default -/
def number (env : Environment) (key : String) (limit fallback : Nat) : Except ConfigError Nat :=
  match text? env key with
  | none => .ok fallback
  | some raw => (readNat limit raw).mapError (.invalid key)

def ofEnvironment (env : Environment) : Except ConfigError Config := do
  match text? env "DATABASE_URL" with
  | none => throw (.missing "DATABASE_URL")
  | some databaseUrl =>
    let port ← number env "PORT" (maxOfBits 16) 8080
    let cacheTtl ← number env "CACHE_TTL_SECS" (maxOfBits 64) 300
    let dbPoolSize ← number env "DB_POOL_SIZE" (maxOfBits 32) 10
    return {
      databaseUrl
      host := (text? env "HOST").getD "0.0.0.0"
      port
      redisUrl := (text? env "REDIS_URL").filter (· ≠ "")
      cacheTtl
      dbPoolSize }

end Config
end PickupPoint
