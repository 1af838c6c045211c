/-
A cache in memory. An entry is kept until its time has come, and is dropped when it is deleted or when a reader finds it
expired. Setting an entry whose time cannot be counted panics and keeps nothing.
-/
import PickupPoint.Bits
import PickupPoint.Cache.Basic

namespace PickupPoint

structure TimedEntry where
  key : String
  value : String
  expiresAt : Instant
  deriving DecidableEq, Repr

structure TimedCache where
  entries : List TimedEntry
  deriving DecidableEq, Repr

namespace TimedCache

def empty : TimedCache := ⟨[]⟩

def size (c : TimedCache) : Nat := c.entries.length

def isEmpty (c : TimedCache) : Bool := c.entries.isEmpty

def entry? (c : TimedCache) (key : String) : Option TimedEntry := c.entries.find? (·.key = key)

def erase (c : TimedCache) (key : String) : TimedCache := ⟨c.entries.filter (·.key ≠ key)⟩

/-- the last second that an instant can count -/
def lastSecond : Int := maxOfBits 63

def overflowText : String := "overflow when adding duration to instant"

def get (key : String) (now : Instant) : CacheAccess TimedCache (Option String) := fun c =>
  match c.entry? key with
  | some e => if now < e.expiresAt then (.ok (some e.value), c) else (.ok none, c.erase key)
  | none => (.ok none, c)

/-- keeps a value for a span of time -/
def setFor (key value : String) (ttl : Duration) (now : Instant) : CacheAccess TimedCache Unit := fun c =>
  let due := now.plus ttl
  if lastSecond < due.second then (.error (.panic overflowText), c)
  else (.ok (), ⟨⟨key, value, due⟩ :: (c.erase key).entries⟩)

def set (key value : String) (ttl : Nat) : Instant → CacheAccess TimedCache Unit := setFor key value (.ofSeconds ttl)

def delete (key : String) : CacheAccess TimedCache Unit := fun c => (.ok (), c.erase key)

instance : HistoryCache TimedCache where
  get := get
  set := set
  delete key _ := delete key

end TimedCache
end PickupPoint
