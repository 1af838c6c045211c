/-
JSON text read as far as its grammar goes: numbers keep their spelling, strings may hold damaged runes, and an object
keeps all its fields in order, repeated ones too. What of a tree is kept, and in which form, is for its reader to say.

`ofTokens?` shifts the tokens onto a stack of open containers, so the depth of a text is bounded only by its length.
-/
import PickupPoint.Json.Token

namespace PickupPoint.Json

open Text

inductive Tree where
  | null
  | bool (value : Bool)
  | numeral (n : Numeral)
  | text (runes : List Rune)
  | array (items : List Tree)
  | object (fields : List (List Rune × Tree))

namespace Tree

/-- an open container with what it holds so far, latest first -/
inductive Frame where
  | array (items : List Tree)
  | object (fields : List (List Rune × Tree))
  /-- an object whose last key still waits for its value -/
  | member (fields : List (List Rune × Tree)) (key : List Rune)

/-- what may come next -/
inductive Expected where
  | value
  | firstItem
  | firstKey
  | key
  | colon (key : List Rune)
  | next

inductive Partial where
  | within (stack : List Frame) (expected : Expected)
  | complete (value : Tree)

/-- a value has ended -/
def attach? (v : Tree) : List Frame → Option Partial
  | [] => some (.complete v)
  | .array items :: rest => some (.within (.array (v :: items) :: rest) .next)
  | .member fields key :: rest => some (.within (.object ((key, v) :: fields) :: rest) .next)
  | .object _ :: _ => none

/-- a token where a value may begin -/
def begin? (stack : List Frame) : Token → Option Partial
  | .openBracket => some (.within (.array [] :: stack) .firstItem)
  | .openBrace => some (.within (.object [] :: stack) .firstKey)
  | .null => attach? .null stack
  | .bool b => attach? (.bool b) stack
  | .numeral n => attach? (.numeral n) stack
  | .text rs => attach? (.text rs) stack
  | _ => none

def step (p : Partial) (t : Token) : Option Partial :=
  match p with
  | .complete _ => none
  | .within stack expected =>
    match expected, stack, t with
    | .firstItem, .array items :: rest, .closeBracket => attach? (.array items.reverse) rest
    | .next, .array items :: rest, .closeBracket => attach? (.array items.reverse) rest
    | .next, .array _ :: _, .comma => some (.within stack .value)
    | .firstKey, .object fields :: rest, .closeBrace => attach? (.object fields.reverse) rest
    | .next, .object fields :: rest, .closeBrace => attach? (.object fields.reverse) rest
    | .next, .object _ :: _, .comma => some (.within stack .key)
    | .firstKey, _, .text key => some (.within stack (.colon key))
    | .key, _, .text key => some (.within stack (.colon key))
    | .colon key, .object fields :: rest, .colon => some (.within (.member fields key :: rest) .value)
    | .value, _, _ => begin? stack t
    | .firstItem, _, _ => begin? stack t
    | _, _, _ => none

def ofTokens? (ts : List Token) : Option Tree :=
  match ts.foldlM step (.within [] .value) with
  | some (.complete v) => some v
  | _ => none

def ofRunes? (rs : List Rune) : Option Tree := (Token.ofRunes? rs).bind ofTokens?

/-- the tree of a text -/
def parse? (text : String) : Option Tree := ofRunes? (runes text)

end Tree
end PickupPoint.Json
