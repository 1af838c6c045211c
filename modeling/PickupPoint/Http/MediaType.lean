/-
Media types, as the header of a request names them: a type, a subtype that may end in a suffix after a plus, and
parameters. A body is JSON if the subtype or the suffix says so, in any case.
-/
namespace PickupPoint.Http

structure MediaType where
  type : String
  subtype : String
  suffix : Option String
  deriving DecidableEq, Repr

namespace MediaType

/-- characters of names and of unquoted values -/
def isTokenChar (c : Char) : Bool :=
  c.isAlphanum || ['!', '#', '$', '%', '&', '\u0027', '*', '+', '-', '.', '^', '_', '\u0060', '|', '~'].contains c

/-- visible characters and the blank -/
def isPrintable (c : Char) : Bool := ' ' ≤ c && c ≤ '~'

/-- What follows a value after its opening quote: at least one character, of which the first may be a quote. -/
def closing? : List Char → Option (List Char)
  | [] => none
  | first :: rest =>
    let isInside := fun c => isPrintable c && c != '"'
    match rest.dropWhile isInside with
    | '"' :: rest => if isPrintable first then some rest else none
    | _ => none

/-- what follows a quoted value: blanks, and a semicolon before a next parameter -/
def afterQuoted? (cs : List Char) : Option (List Char) :=
  match cs.dropWhile (· = ' ') with
  | [] => some []
  | c :: rest => if c = ';' then some rest else none

/-- what follows a parameter and its semicolon, blanks in front of it being skipped -/
def parameter? (cs : List Char) : Option (List Char) :=
  let cs := cs.dropWhile (· = ' ')
  let name := cs.takeWhile isTokenChar
  match cs.dropWhile isTokenChar with
  | [] => if name.isEmpty then some [] else none
  | c :: rest =>
    if c ≠ '=' ∨ name.isEmpty then none
    else
      match rest with
      | '"' :: quoted => (closing? quoted).bind afterQuoted?
      | _ =>
        let value := rest.takeWhile isTokenChar
        match rest.dropWhile isTokenChar with
        | [] => some []
        | c :: rest => if c = ';' ∧ ¬ value.isEmpty then some rest else none

/-- whether the text consists of parameters; each round takes one off -/
def areParameters : Nat → List Char → Bool
  | _, [] => true
  | 0, _ :: _ => false
  | rounds + 1, cs =>
    match parameter? cs with
    | some rest => areParameters rounds rest
    | none => false

/-- the suffix is what stands after the last plus -/
def ofNames (type subtype : List Char) : MediaType :=
  let suffix := (subtype.reverse.takeWhile (· ≠ '+')).reverse
  let before := subtype.take (subtype.length - suffix.length - 1)
  if subtype.contains '+' ∧ ¬ before.isEmpty then
    ⟨String.ofList type, String.ofList before, some (String.ofList suffix)⟩
  else ⟨String.ofList type, String.ofList subtype, none⟩

def parse? (text : String) : Option MediaType :=
  let cs := text.toList
  let type := cs.takeWhile isTokenChar
  match cs.dropWhile isTokenChar with
  | '/' :: rest =>
    let subtype := rest.takeWhile isTokenChar
    match rest.dropWhile isTokenChar with
    | [] => if type.isEmpty then none else some (ofNames type subtype)
    | c :: parameters =>
      if c = ';' ∧ ¬ type.isEmpty ∧ ¬ subtype.isEmpty ∧ areParameters text.length parameters then
        some (ofNames type subtype)
      else none
  | _ => none

def isJson (m : MediaType) : Bool := m.subtype.toLower == "json" || m.suffix.any (·.toLower == "json")

end MediaType
end PickupPoint.Http
