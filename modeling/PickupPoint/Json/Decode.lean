/-
Values of other types read from JSON.

A record is read from an object, where an unknown field is skipped unread and a known one may not be repeated, or from
the array of its fields in their order. `Tree.members?` gives the trees of the fields named, each of which is read on
its own; a field left out is for its reader to refuse or to fill in.
-/
import PickupPoint.Json.Print
import PickupPoint.Decimal.Text
import PickupPoint.Time.Text

namespace PickupPoint.Json

open Text

/-- reads a tree whose containers may be nested so many levels deep -/
abbrev Decoder (α : Type) := Nat → Tree → Option α

/-- the values of the fields named, in that order; damaged keys and repeated fields are refused -/
def fieldsNamed? (names : List String) (fields : List (List Rune × Tree)) : Option (List (Option Tree)) := do
  let fields ← fields.mapM fun (key, t) => (intact? key).map (·, t)
  names.mapM fun name =>
    match fields.filter (·.1 == name) with
    | [] => some none
    | [(_, t)] => some (some t)
    | _ => none

/-- the first so many items, what is missing being left out -/
def itemsOf {α : Type} (count : Nat) (items : List α) : List (Option α) := (List.range count).map (items[·]?)

/-- the fields of a record, with the levels left for them -/
def Tree.members? (names : List String) (levels : Nat) (t : Tree) : Option (List (Option Tree) × Nat) :=
  match levels, t with
  | levels + 1, .object fields => (fieldsNamed? names fields).map (·, levels)
  | levels + 1, .array items => if items.length ≤ names.length then some (itemsOf names.length items, levels) else none
  | _, _ => none

/-- the fields of a record, each as a value -/
def Tree.keptMembers? (names : List String) (levels : Nat) (t : Tree) : Option (List (Option Json)) := do
  let (members, levels) ← t.members? names levels
  members.mapM fun
    | some t => (t.keep? levels).map some
    | none => some none

/-- the fields of a record that is a value already -/
def members? (names : List String) : Json → Option (List (Option Json))
  | .object fields => some (names.map fun name => (Json.object fields).get? name)
  | .array items => if items.length ≤ names.length then some (itemsOf names.length items) else none
  | _ => none

namespace Decoder

variable {α : Type}

/-- what is read from a value -/
def leaf (f : Json → Option α) : Decoder α := fun levels t => (t.keep? levels).bind f

def list (d : Decoder α) : Decoder (List α) := fun levels t =>
  match levels, t with
  | levels + 1, .array items => items.mapM (d levels)
  | _, _ => none

/-- One of several names, as a string or as the only key of an object that maps it to null. -/
def name (f : String → Option α) : Decoder α := leaf fun
  | .text s => f s
  | .object [(s, .null)] => f s
  | _ => none

def required (d : Decoder α) (levels : Nat) (member : Option Tree) : Option α := member.bind (d levels)

/-- what a whole text says -/
def run (d : Decoder α) (text : String) : Option α := (Tree.parse? text).bind (d maxLevels)

end Decoder

/-! ## Values -/

/-- a signed integer of 64 bits -/
def signed? : Json → Option Int
  | .integer n => if fitsSigned 64 n then some n else none
  | _ => none

def instant? (v : Json) : Option Instant := v.asText?.bind Instant.parse?

/-- A decimal as text, as an integer or as a double, which stands for its exact value. -/
def decimal? : Json → Option Decimal
  | .text s => (Decimal.parse s).toOption
  | .integer n => some ⟨n, 0⟩
  | .float x => Binary64.exactDecimal? x
  | _ => none

def naturals? : Json → Option (List Nat)
  | .array items => items.mapM natural?
  | _ => none

end PickupPoint.Json
