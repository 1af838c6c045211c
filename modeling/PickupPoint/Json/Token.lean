/-
The tokens of JSON text.

`ofRunes?` feeds the runes one at a time to a `Lexer`, which holds the tokens so far and the part of a token it stands
in. A string is a list of runes: a damaged byte or a lone surrogate escape is a rune without a character, which is for
the reader of the value to refuse. Numerals and words run as far as their characters go.
-/
import PickupPoint.Text.Utf8
import PickupPoint.Text.Integer

namespace PickupPoint.Json

open Text

/-- a number as written -/
structure Numeral where
  negative : Bool
  whole : List Char
  fraction : List Char
  /-- sign and digits after the exponent mark -/
  exponent : Option (Bool × List Char)
  deriving DecidableEq, Repr

inductive Token where
  | openBrace
  | closeBrace
  | openBracket
  | closeBracket
  | comma
  | colon
  | null
  | bool (value : Bool)
  | numeral (n : Numeral)
  | text (runes : List Rune)
  deriving DecidableEq, Repr

/-! ## Numerals -/

def isDigit (c : Char) : Bool := (digit? c).isSome

def isNumeralChar (c : Char) : Bool := isDigit c || c == '-' || c == '+' || c == '.' || c == 'e' || c == 'E'

/-- the exponent, with what stands after it -/
def exponent? : List Char → Option (Option (Bool × List Char))
  | [] => some none
  | m :: cs =>
    if m = 'e' ∨ m = 'E' then
      let (negative, ds) := match cs with
        | '-' :: ds => (true, ds)
        | '+' :: ds => (false, ds)
        | ds => (false, ds)
      if ds ≠ [] ∧ ds.all isDigit then some (some (negative, ds)) else none
    else none

/-- the point and the digits after it, at least one, with the rest -/
def fraction? : List Char → Option (List Char × List Char)
  | '.' :: cs =>
    let ds := cs.takeWhile isDigit
    if ds.isEmpty then none else some (ds, cs.dropWhile isDigit)
  | cs => some ([], cs)

/-- A minus or none, digits without a needless zero in front, a fraction and an exponent. -/
def Numeral.ofChars? (cs : List Char) : Option Numeral := do
  let (negative, cs) := match cs with
    | '-' :: cs => (true, cs)
    | cs => (false, cs)
  let whole := cs.takeWhile isDigit
  if whole.isEmpty ∨ (1 < whole.length ∧ whole.head? = some '0') then none
  else
    let (fraction, rest) ← fraction? (cs.dropWhile isDigit)
    return ⟨negative, whole, fraction, ← exponent? rest⟩

/-! ## Strings -/

/-- part of a string: a rune, or a sixteen-bit unit that an escape gives -/
inductive Piece where
  | rune (r : Rune)
  | unit (u : Nat)
  deriving DecidableEq, Repr

def isHighSurrogate (u : Nat) : Bool := 0xD800 ≤ u && u < 0xDC00

def isLowSurrogate (u : Nat) : Bool := 0xDC00 ≤ u && u < 0xE000

/-- the character of a unit that stands alone -/
def unitRune (u : Nat) : Rune := if u.isValidChar then some (Char.ofNat u) else none

/-- the character of two surrogates that belong together -/
def pairRune (high low : Nat) : Rune := some (Char.ofNat (0x10000 + (high - 0xD800) * 0x400 + (low - 0xDC00)))

/-- the runes of a string after a high surrogate that waits for its other half, if there is one -/
def joinAfter : Option Nat → List Piece → List Rune
  | none, [] => []
  | some _, [] => [none]
  | none, .rune r :: rest => r :: joinAfter none rest
  | some _, .rune r :: rest => none :: r :: joinAfter none rest
  | none, .unit u :: rest => if isHighSurrogate u then joinAfter (some u) rest else unitRune u :: joinAfter none rest
  | some high, .unit u :: rest =>
    if isLowSurrogate u then pairRune high u :: joinAfter none rest
    else if isHighSurrogate u then none :: joinAfter (some u) rest
    else none :: unitRune u :: joinAfter none rest

def joinPieces (pieces : List Piece) : List Rune := joinAfter none pieces

/-- the character of an escape of one letter -/
def escaped? (c : Char) : Option Char :=
  match c with
  | '"' => some '"'
  | '\\' => some '\\'
  | '/' => some '/'
  | 'b' => some '\x08'
  | 'f' => some '\x0c'
  | 'n' => some '\n'
  | 'r' => some '\r'
  | 't' => some '\t'
  | _ => none

def hexDigit? (c : Char) : Option Nat :=
  if 'a' ≤ c ∧ c ≤ 'f' then some (c.toNat - 'a'.toNat + 10)
  else if 'A' ≤ c ∧ c ≤ 'F' then some (c.toNat - 'A'.toNat + 10)
  else digit? c

/-! ## The lexer -/

/-- the part of a token that has been read; lists are latest first -/
inductive Mode where
  | between
  | word (letters : List Char)
  | numeral (chars : List Char)
  | text (pieces : List Piece)
  | escape (pieces : List Piece)
  | unicode (pieces : List Piece) (count value : Nat)
  deriving DecidableEq, Repr

structure Lexer where
  tokens : List Token
  mode : Mode
  deriving DecidableEq, Repr

namespace Lexer

def empty : Lexer := ⟨[], .between⟩

def emit (l : Lexer) (t : Token) : Lexer := ⟨t :: l.tokens, .between⟩

def isSpace (c : Char) : Bool := c == ' ' || c == '\n' || c == '\t' || c == '\r'

def isLetter (c : Char) : Bool := 'a' ≤ c && c ≤ 'z'

def wordToken? (letters : List Char) : Option Token :=
  match letters with
  | ['n', 'u', 'l', 'l'] => some .null
  | ['t', 'r', 'u', 'e'] => some (.bool true)
  | ['f', 'a', 'l', 's', 'e'] => some (.bool false)
  | _ => none

/-- a character between two tokens -/
def start (l : Lexer) (c : Char) : Option Lexer :=
  match c with
  | '{' => some (l.emit .openBrace)
  | '}' => some (l.emit .closeBrace)
  | '[' => some (l.emit .openBracket)
  | ']' => some (l.emit .closeBracket)
  | ',' => some (l.emit .comma)
  | ':' => some (l.emit .colon)
  | '"' => some ⟨l.tokens, .text []⟩
  | _ =>
    if isSpace c then some ⟨l.tokens, .between⟩
    else if isLetter c then some ⟨l.tokens, .word [c]⟩
    else if c = '-' ∨ isDigit c then some ⟨l.tokens, .numeral [c]⟩
    else none

/-- what a word or numeral amounts to where it ends -/
def close? (l : Lexer) : Option Lexer :=
  match l.mode with
  | .between => some l
  | .word letters => (wordToken? letters.reverse).map l.emit
  | .numeral chars => (Numeral.ofChars? chars.reverse).map fun n => l.emit (.numeral n)
  | _ => none

/-- a character inside a string -/
def feedText (l : Lexer) (pieces : List Piece) (c : Char) : Option Lexer :=
  if c = '"' then some (l.emit (.text (joinPieces pieces.reverse)))
  else if c = '\\' then some ⟨l.tokens, .escape pieces⟩
  else if c < ' ' then none
  else some ⟨l.tokens, .text (.rune (some c) :: pieces)⟩

/-- a character after a backslash -/
def feedEscape (l : Lexer) (pieces : List Piece) (c : Char) : Option Lexer :=
  if c = 'u' then some ⟨l.tokens, .unicode pieces 0 0⟩
  else (escaped? c).map fun e => ⟨l.tokens, .text (.rune (some e) :: pieces)⟩

/-- a hexadecimal digit of an escape, of which there are four -/
def feedUnicode (l : Lexer) (pieces : List Piece) (count value : Nat) (c : Char) : Option Lexer :=
  (hexDigit? c).map fun d =>
    if count = 3 then ⟨l.tokens, .text (.unit (value * 16 + d) :: pieces)⟩
    else ⟨l.tokens, .unicode pieces (count + 1) (value * 16 + d)⟩

def feed (l : Lexer) (r : Rune) : Option Lexer :=
  match l.mode, r with
  | .text pieces, none => some ⟨l.tokens, .text (.rune none :: pieces)⟩
  | _, none => none
  | .text pieces, some c => l.feedText pieces c
  | .escape pieces, some c => l.feedEscape pieces c
  | .unicode pieces count value, some c => l.feedUnicode pieces count value c
  | .word letters, some c =>
    if isLetter c then some ⟨l.tokens, .word (c :: letters)⟩ else l.close?.bind (·.start c)
  | .numeral chars, some c =>
    if isNumeralChar c then some ⟨l.tokens, .numeral (c :: chars)⟩ else l.close?.bind (·.start c)
  | .between, some c => l.start c

end Lexer

def Token.ofRunes? (rs : List Rune) : Option (List Token) := do
  let l ← rs.foldlM Lexer.feed .empty
  return (← l.close?).tokens.reverse

end PickupPoint.Json
