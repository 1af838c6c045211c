/-
The address of a cache server, as a URL: `redis://` (or `rediss://` for an encrypted connection), a user that is not of
interest here, a host, a port and the number of a database. A cache is unavailable when its address does not read and
when nobody answers under it.
-/
import PickupPoint.Cache.Basic
import PickupPoint.Text.Integer
import PickupPoint.Bits

namespace PickupPoint

open Text

structure CacheAddress where
  encrypted : Bool
  host : String
  port : Nat
  database : Nat
  deriving DecidableEq, Repr

namespace CacheAddress

def defaultPort : Nat := 6379

def plainScheme : List Char := "redis://".toList

def encryptedScheme : List Char := "rediss://".toList

/-- whether the connection is encrypted, and what follows the scheme -/
def scheme? (cs : List Char) : Option (Bool × List Char) :=
  if plainScheme.isPrefixOf cs then some (false, cs.drop plainScheme.length)
  else if encryptedScheme.isPrefixOf cs then some (true, cs.drop encryptedScheme.length)
  else none

/-- a number of at most so many bits, or a default if there is no text -/
def number? (bits fallback : Nat) (cs : List Char) : Option Nat :=
  if cs.isEmpty then some fallback else (readNat (maxOfBits bits) (String.ofList cs)).toOption

/-- what stands after the last `@`, where host and port begin -/
def afterUser (cs : List Char) : List Char := (cs.reverse.takeWhile (· ≠ '@')).reverse

def parse? (url : String) : Option CacheAddress := do
  let (encrypted, cs) ← scheme? url.toList
  let authority := afterUser (cs.takeWhile (· ≠ '/'))
  let host := authority.takeWhile (· ≠ ':')
  let port ← number? 16 defaultPort ((authority.dropWhile (· ≠ ':')).drop 1)
  let database ← number? 63 0 ((cs.dropWhile (· ≠ '/')).filter (· ≠ '/'))
  if host.isEmpty then none else return ⟨encrypted, String.ofList host, port, database⟩

/-- the address under a URL, if a server answers there -/
def connect (answers : CacheAddress → Bool) (url : String) : Except CacheFailure CacheAddress :=
  match parse? url with
  | some address => if answers address then .ok address else .error .unavailable
  | none => .error .unavailable

end CacheAddress
end PickupPoint
