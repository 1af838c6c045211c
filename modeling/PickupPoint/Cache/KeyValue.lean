/-
A cache on a server of keys and values. A value is stored for at least one second and at most as many as the server can
count in milliseconds. The server may be told to refuse a command from now on.
-/
import PickupPoint.Cache.Basic

namespace PickupPoint

/-- commands of the server -/
inductive CacheCommand where
  | get
  | set
  | delete
  deriving DecidableEq, Repr

structure ServerEntry where
  key : String
  value : String
  ttl : Nat
  expiresAt : Instant
  deriving DecidableEq, Repr

structure CacheServer where
  entries : List ServerEntry
  refused : List CacheCommand
  deriving DecidableEq, Repr

namespace CacheServer

def empty : CacheServer := ⟨[], []⟩

/-- seconds that the server accepts -/
def maxTtl : Nat := 9223372036854775

def refuse (s : CacheServer) (command : CacheCommand) : CacheServer := { s with refused := command :: s.refused }

def acceptAll (s : CacheServer) : CacheServer := { s with refused := [] }

def erase (s : CacheServer) (key : String) : CacheServer := { s with entries := s.entries.filter (·.key ≠ key) }

/-- the entries whose time has not come -/
def live (s : CacheServer) (now : Instant) : List ServerEntry := s.entries.filter (now < ·.expiresAt)

def get (key : String) (now : Instant) : CacheAccess CacheServer (Option String) := fun s =>
  if CacheCommand.get ∈ s.refused then (.error .unavailable, s)
  else (.ok (((s.live now).find? (·.key = key)).map (·.value)), s)

def set (key value : String) (ttl : Nat) (now : Instant) : CacheAccess CacheServer Unit := fun s =>
  let ttl := max ttl 1
  if CacheCommand.set ∈ s.refused ∨ maxTtl < ttl then (.error .unavailable, s)
  else
    (.ok (), { s with entries := ⟨key, value, ttl, ⟨now.second + ttl, now.nano⟩⟩ :: (s.erase key).entries })

def delete (key : String) : CacheAccess CacheServer Unit := fun s =>
  if CacheCommand.delete ∈ s.refused then (.error .unavailable, s) else (.ok (), s.erase key)

instance : HistoryCache CacheServer where
  get := get
  set := set
  delete key _ := delete key

end CacheServer
end PickupPoint
