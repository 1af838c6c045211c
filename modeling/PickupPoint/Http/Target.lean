/-
The target of a request: a path and a query, both percent-encoded.

A path is matched with its escapes decoded, save those of `%`, `/` and `+`, so that an encoded slash parts no segments;
what is left is decoded when a segment is read. A query is a list of pairs, in which a plus stands for a blank.
-/
import PickupPoint.Text.Utf8
import PickupPoint.Json.Token

namespace PickupPoint.Http

open Text

structure Target where
  path : String
  query : String
  deriving DecidableEq, Repr

/-- the byte of an escape -/
def escape? (high low : UInt8) : Option UInt8 := do
  let high ← Json.hexDigit? (Char.ofNat high.toNat)
  let low ← Json.hexDigit? (Char.ofNat low.toNat)
  return (high * 16 + low).toUInt8

def percent : UInt8 := 37

/-- bytes after `skip` bytes of an escape that has been decoded -/
def unescapeAfter (kept : UInt8 → Bool) : Nat → List UInt8 → List UInt8
  | _, [] => []
  | skip + 1, _ :: rest => unescapeAfter kept skip rest
  | 0, b :: rest =>
    let escaped := match rest with
      | high :: low :: _ => if b = percent then escape? high low else none
      | _ => none
    match escaped with
    | some e => if kept e then b :: unescapeAfter kept 0 rest else e :: unescapeAfter kept 2 rest
    | none => b :: unescapeAfter kept 0 rest

/-- decodes the escapes of all bytes but those kept -/
def unescape (kept : UInt8 → Bool) (text : String) : String :=
  lossy (decode (unescapeAfter kept 0 text.toUTF8.toList))

/-- `%`, `/` and `+` -/
def isKeptInPath (b : UInt8) : Bool := b == percent || b == 47 || b == 43

/-- the parts between separators -/
def splitAt (separator : Char) : List Char → List (List Char)
  | [] => [[]]
  | c :: rest =>
    match splitAt separator rest with
    | part :: parts => if c = separator then [] :: part :: parts else (c :: part) :: parts
    | [] => [[c]]

/-- splits at the first separator, if there is one -/
def splitOnce (separator : Char) (cs : List Char) : List Char × List Char :=
  (cs.takeWhile (· ≠ separator), (cs.dropWhile (· ≠ separator)).drop 1)

namespace Target

/-- path and query of a target, without a fragment -/
def ofText (text : String) : Target :=
  let cs := text.toList.takeWhile (· ≠ '#')
  let (path, query) := splitOnce '?' cs
  ⟨String.ofList path, String.ofList query⟩

/-- The segments of a path that starts with a slash, in the form that routes are matched with. -/
def segments? (t : Target) : Option (List String) :=
  match splitAt '/' (unescape isKeptInPath t.path).toList with
  | [] :: parts => some (parts.map String.ofList)
  | _ => none

/-- the text that a segment stands for -/
def segmentText (segment : String) : String := unescape (fun _ => false) segment

/-- the text that a name or value of a query stands for -/
def formText (cs : List Char) : String :=
  unescape (fun _ => false) (String.ofList (cs.map fun c => if c = '+' then ' ' else c))

/-- the pairs of a query -/
def pairs (t : Target) : List (String × String) :=
  ((splitAt '&' t.query.toList).filter (! ·.isEmpty)).map fun part =>
    let (name, value) := splitOnce '=' part
    (formText name, formText value)

end Target
end PickupPoint.Http
