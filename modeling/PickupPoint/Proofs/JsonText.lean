/-
JSON text reads back as what was written.

Every value has a `tree`, and every tree has its `tokens`. The stack of open containers turns the tokens of a tree
into that tree (`ofTokens?_tokens`), and the lexer turns the characters of a value without doubles into the tokens of
its tree (`Plain.legible`). So such a value is read from its own text (`parse?_toText`).
-/
import Mathlib.Data.List.TakeWhile
import PickupPoint.Json.Decode
import PickupPoint.Proofs.Digits
import PickupPoint.Proofs.Utf8

namespace PickupPoint.Json

open Text

/-! ## Trees and their tokens -/

mutual

def Tree.tokens : Tree → List Token
  | .null => [.null]
  | .bool b => [.bool b]
  | .numeral n => [.numeral n]
  | .text rs => [.text rs]
  | .array items => .openBracket :: Tree.itemTokens items ++ [.closeBracket]
  | .object fields => .openBrace :: Tree.fieldTokens fields ++ [.closeBrace]

def Tree.itemTokens : List Tree → List Token
  | [] => []
  | [t] => t.tokens
  | t :: rest => t.tokens ++ .comma :: Tree.itemTokens rest

def Tree.fieldTokens : List (List Rune × Tree) → List Token
  | [] => []
  | [(key, t)] => .text key :: .colon :: t.tokens
  | (key, t) :: rest => .text key :: .colon :: t.tokens ++ .comma :: Tree.fieldTokens rest

end

namespace Tree

theorem tokens_head (t : Tree) : ∃ first rest, t.tokens = first :: rest ∧ first ≠ .closeBracket := by
  cases t <;> exact ⟨_, _, rfl, nofun⟩

theorem itemTokens_head (item : Tree) (items : List Tree) :
    ∃ first rest, itemTokens (item :: items) = first :: rest ∧ first ≠ .closeBracket := by
  obtain ⟨first, rest, ht, hne⟩ := item.tokens_head
  cases items with
  | nil => exact ⟨first, rest, by rw [itemTokens, ht], hne⟩
  | cons next items => exact ⟨first, _, by rw [itemTokens, ht, List.cons_append]; simp, hne⟩

/-- Where an array may end its first item may stand, if it does not. -/
theorem step_firstItem {t : Token} (h : t ≠ .closeBracket) (stack : List Frame) :
    step (.within stack .firstItem) t = step (.within stack .value) t := by
  cases t <;> first | exact absurd rfl h | (rcases stack with _ | ⟨_ | _ | _, _⟩ <;> rfl)

/-- Its tokens are one value, whatever is open. -/
def Whole (t : Tree) : Prop := ∀ stack, t.tokens.foldlM step (.within stack .value) = attach? t stack

/-- the items that are left of an array, and its end -/
theorem steps_items {item : Tree} {items : List Tree} (h : ∀ t ∈ item :: items, t.Whole) (done : List Tree)
    (stack : List Frame) :
    (itemTokens (item :: items) ++ [Token.closeBracket]).foldlM step (.within (.array done :: stack) .value) =
      attach? (.array (done.reverse ++ item :: items)) stack := by
  have first : item.Whole := h item List.mem_cons_self
  induction items generalizing item done with
  | nil => simp [itemTokens, List.foldlM_append, first _, attach?, step]
  | cons next items ih =>
    have next_whole : next.Whole := h next (by simp)
    have rest := ih (fun t ht => h t (List.mem_cons_of_mem item ht)) (item :: done) next_whole
    simpa [itemTokens, List.foldlM_append, first _, attach?, step] using rest

/-- the fields that are left of an object, and its end -/
theorem steps_fields {field : List Rune × Tree} {fields : List (List Rune × Tree)}
    (h : ∀ f ∈ field :: fields, f.2.Whole) (done : List (List Rune × Tree)) (stack : List Frame) :
    (fieldTokens (field :: fields) ++ [Token.closeBrace]).foldlM step (.within (.object done :: stack) .key) =
      attach? (.object (done.reverse ++ field :: fields)) stack := by
  have first : field.2.Whole := h field List.mem_cons_self
  induction fields generalizing field done with
  | nil => simp [fieldTokens, List.foldlM_append, first _, attach?, step]
  | cons next fields ih =>
    have next_whole : next.2.Whole := h next (by simp)
    have rest := ih (fun f hf => h f (List.mem_cons_of_mem field hf)) (field :: done) next_whole
    simpa [fieldTokens, List.foldlM_append, first _, attach?, step] using rest

theorem whole (t : Tree) : t.Whole := by
  intro stack
  match t with
  | .null | .bool _ | .numeral _ | .text _ =>
    rw [tokens, List.foldlM_cons]
    show (attach? _ stack).bind _ = _
    cases attach? _ stack <;> rfl
  | .array [] => simp [tokens, itemTokens, step, begin?]
  | .array (item :: items) =>
    have each : ∀ t ∈ item :: items, t.Whole := fun t _ => t.whole
    have rest := steps_items each [] stack
    obtain ⟨first, others, ht, hne⟩ := itemTokens_head item items
    rw [ht, List.cons_append, List.foldlM_cons] at rest
    rw [tokens, List.cons_append, List.foldlM_cons, ht]
    show List.foldlM step (.within (.array [] :: stack) .firstItem) (first :: others ++ [Token.closeBracket]) = _
    rw [List.cons_append, List.foldlM_cons, step_firstItem hne]
    exact rest
  | .object [] => simp [tokens, fieldTokens, step, begin?]
  | .object (field :: fields) =>
    have each : ∀ f ∈ field :: fields, f.2.Whole := fun f hf => f.2.whole
    have rest := steps_fields each [] stack
    rw [tokens, List.cons_append, List.foldlM_cons]
    cases fields <;> exact rest
termination_by t
decreasing_by
  · decreasing_tactic
  · have smaller := List.sizeOf_lt_of_mem hf
    obtain ⟨key, t⟩ := f
    simp only [Prod.mk.sizeOf_spec, object.sizeOf_spec] at smaller ⊢
    omega

theorem ofTokens?_tokens (t : Tree) : ofTokens? t.tokens = some t := by
  rw [ofTokens?, t.whole]; rfl

end Tree

/-! ## Strings -/

/-- a piece of a string that stands for a character -/
def Piece.Shows (p : Piece) (c : Char) : Prop := p = .rune (some c) ∨ (p = .unit c.toNat ∧ c < ' ')

theorem joinPieces_of_shows {pieces : List Piece} {cs : List Char} (h : List.Forall₂ Piece.Shows pieces cs) :
    joinPieces pieces = cs.map some := by
  unfold joinPieces
  induction h with
  | nil => rfl
  | @cons p c pieces cs hp _ ih =>
    rcases hp with rfl | ⟨rfl, hc⟩
    · simp [joinAfter, ih]
    · have small : c.toNat < 32 := hc
      have alone : isHighSurrogate c.toNat = false := by simp [isHighSurrogate]; omega
      have valid : c.toNat.isValidChar := c.valid
      simp [joinAfter, alone, ih, unitRune, valid]

namespace Lexer

def feeds (l : Lexer) (cs : List Char) : Option Lexer := (cs.map some).foldlM feed l

theorem feeds_append (l : Lexer) (cs cs' : List Char) : l.feeds (cs ++ cs') = (l.feeds cs).bind (·.feeds cs') := by
  simp only [feeds, List.map_append, List.foldlM_append]; rfl

theorem feeds_cons (l : Lexer) (c : Char) (cs : List Char) : l.feeds (c :: cs) = (l.feed (some c)).bind (·.feeds cs) :=
  rfl

theorem hexDigit?_digitChar {d : Nat} (h : d < 16) : hexDigit? (Nat.digitChar d) = some d := by
  have all : ∀ d < 16, hexDigit? (Nat.digitChar d) = some d := by decide
  exact all d h

/-- A character of a string comes to one piece, whichever way it is written. -/
theorem feeds_escapeChar (ts : List Token) (pieces : List Piece) (c : Char) :
    ∃ p, p.Shows c ∧ feeds ⟨ts, .text pieces⟩ (escapeChar c) = some ⟨ts, .text (p :: pieces)⟩ := by
  unfold escapeChar
  split
  case h_8 hquote hslash _ _ _ _ _ =>
    split_ifs with hc
    · have small : c.toNat < 32 := hc
      refine ⟨.unit c.toNat, .inr ⟨rfl, hc⟩, ?_⟩
      have high := hexDigit?_digitChar (d := c.toNat / 16) (by omega)
      have low := hexDigit?_digitChar (d := c.toNat % 16) (by omega)
      have number : ((0 * 16 + 0) * 16 + c.toNat / 16) * 16 + c.toNat % 16 = c.toNat := by omega
      show (((hexDigit? (Nat.digitChar (c.toNat / 16))).map _).bind _) = _
      rw [high]
      show (((hexDigit? (Nat.digitChar (c.toNat % 16))).map _).bind _) = _
      rw [low]
      show some (Lexer.mk ts (.text (.unit (((0 * 16 + 0) * 16 + c.toNat / 16) * 16 + c.toNat % 16) :: pieces))) = _
      rw [number]
    · refine ⟨.rune (some c), .inl rfl, ?_⟩
      show (feedText _ pieces c).bind _ = _
      rw [feedText, if_neg hquote, if_neg hslash, if_neg hc]
      rfl
  all_goals exact ⟨_, .inl rfl, rfl⟩

theorem feeds_flatMap (ts : List Token) (pieces : List Piece) (cs : List Char) :
    ∃ more, List.Forall₂ Piece.Shows more cs ∧
      feeds ⟨ts, .text pieces⟩ (cs.flatMap escapeChar) = some ⟨ts, .text (more.reverse ++ pieces)⟩ := by
  induction cs generalizing pieces with
  | nil => exact ⟨[], .nil, rfl⟩
  | cons c cs ih =>
    obtain ⟨p, hp, first⟩ := feeds_escapeChar ts pieces c
    obtain ⟨more, hmore, rest⟩ := ih (p :: pieces)
    refine ⟨p :: more, .cons hp hmore, ?_⟩
    rw [List.flatMap_cons, feeds_append, first, Option.bind_some, rest]
    simp

theorem feeds_quoted (ts : List Token) (s : String) :
    feeds ⟨ts, .between⟩ (quoted s) = some ⟨.text (runes s) :: ts, .between⟩ := by
  obtain ⟨pieces, shows, inside⟩ := feeds_flatMap ts [] s.toList
  have opened : start ⟨ts, .between⟩ '"' = some ⟨ts, .text []⟩ := rfl
  rw [quoted, List.cons_append, feeds_cons]
  show (start ⟨ts, .between⟩ '"').bind _ = _
  rw [opened, Option.bind_some, feeds_append, inside, Option.bind_some, List.append_nil]
  show some (emit _ (.text (joinPieces pieces.reverse.reverse))) = _
  rw [List.reverse_reverse, joinPieces_of_shows shows]
  rfl

end Lexer

/-! ## Numerals -/

/-- a numeral whose sign has been read -/
def Numeral.afterSign? (negative : Bool) (cs : List Char) : Option Numeral := do
  let whole := cs.takeWhile isDigit
  if whole.isEmpty ∨ (1 < whole.length ∧ whole.head? = some '0') then none
  else
    let (fraction, rest) ← fraction? (cs.dropWhile isDigit)
    return ⟨negative, whole, fraction, ← exponent? rest⟩

theorem Numeral.ofChars?_unsigned {cs : List Char} (h : cs.head? ≠ some '-') :
    Numeral.ofChars? cs = afterSign? false cs := by
  rcases cs with _ | ⟨c, cs⟩
  · rfl
  · have unsigned : c ≠ '-' := fun hc => h (congrArg some hc)
    simp only [ofChars?, afterSign?, List.cons.injEq, unsigned, false_and, imp_self, implies_true]

/-- the numeral of an integer -/
def numeral (n : Int) : Numeral := ⟨n < 0, natDigits n.natAbs, [], none⟩

theorem isDigit_of_mem {n : Nat} {c : Char} (h : c ∈ natDigits n) : isDigit c = true := digit?_of_mem h

theorem afterSign?_natDigits (negative : Bool) (n : Nat) :
    Numeral.afterSign? negative (natDigits n) = some ⟨negative, natDigits n, [], none⟩ := by
  have digits : ∀ c ∈ natDigits n, isDigit c = true := fun c hc => isDigit_of_mem hc
  have wellFormed : ¬ ((natDigits n).isEmpty ∨ (1 < (natDigits n).length ∧ (natDigits n).head? = some '0')) := by
    rintro (h | ⟨h, h0⟩)
    · exact natDigits_ne_nil n (List.isEmpty_iff.1 h)
    · exact natDigits_head h h0
  unfold Numeral.afterSign?
  rw [List.takeWhile_eq_self_iff.2 digits, List.dropWhile_eq_nil_iff.2 digits, if_neg wellFormed]
  rfl

theorem ofChars?_integerChars (n : Int) : Numeral.ofChars? (integerChars n) = some (numeral n) := by
  unfold integerChars numeral
  split_ifs with hn
  · rw [decide_eq_true hn]
    exact afterSign?_natDigits true _
  · have unsigned : (natDigits n.natAbs).head? ≠ some '-' := fun h =>
      absurd (isDigit_of_mem (List.mem_of_mem_head? h)) (by decide)
    rw [Numeral.ofChars?_unsigned unsigned, afterSign?_natDigits, decide_eq_false hn]

theorem integerChars_ne_nil (n : Int) : integerChars n ≠ [] := by
  unfold integerChars
  split_ifs
  · exact List.cons_ne_nil _ _
  · exact natDigits_ne_nil _

theorem mem_integerChars {n : Int} {c : Char} (h : c ∈ integerChars n) : c = '-' ∨ isDigit c := by
  unfold integerChars at h
  split_ifs at h
  · exact (List.mem_cons.1 h).imp_right isDigit_of_mem
  · exact .inr (isDigit_of_mem h)

namespace Lexer

theorem start_numeral (l : Lexer) {c : Char} (h : c = '-' ∨ isDigit c) :
    l.start c = some ⟨l.tokens, .numeral [c]⟩ := by
  have plain : isSpace c = false ∧ isLetter c = false := by
    rcases h with rfl | h
    · exact ⟨rfl, rfl⟩
    · have bounds : '0' ≤ c ∧ c ≤ '9' := by simpa [isDigit, digit?] using h
      constructor
      · simp only [isSpace, Bool.or_eq_false_iff, beq_eq_false_iff_ne]
        refine ⟨⟨⟨?_, ?_⟩, ?_⟩, ?_⟩ <;> rintro rfl <;> exact absurd bounds (by decide)
      · have before : ¬ 'a' ≤ c := fun hc => absurd (Char.le_trans hc bounds.2) (by decide)
        rw [isLetter, decide_eq_false before, Bool.false_and]
  unfold start
  split
  case h_8 => rw [plain.1, plain.2]; simp [h]
  all_goals exact absurd h (by decide)

theorem feeds_numeral (ts : List Token) (pieces cs : List Char) (h : ∀ c ∈ cs, isNumeralChar c = true) :
    feeds ⟨ts, .numeral pieces⟩ cs = some ⟨ts, .numeral (cs.reverse ++ pieces)⟩ := by
  induction cs generalizing pieces with
  | nil => rfl
  | cons c cs ih =>
    have first : feed ⟨ts, .numeral pieces⟩ (some c) = some ⟨ts, .numeral (c :: pieces)⟩ :=
      if_pos (h c List.mem_cons_self)
    rw [feeds_cons, first, Option.bind_some, ih _ fun c' hc' => h c' (List.mem_cons_of_mem c hc')]
    simp

theorem feeds_integerChars (ts : List Token) (n : Int) :
    feeds ⟨ts, .between⟩ (integerChars n) = some ⟨ts, .numeral (integerChars n).reverse⟩ := by
  have marks : ∀ c ∈ integerChars n, c = '-' ∨ isDigit c := fun c hc => mem_integerChars hc
  rcases hi : integerChars n with _ | ⟨c, cs⟩
  · exact absurd hi (integerChars_ne_nil n)
  · rw [hi] at marks
    have numeralChars : ∀ c' ∈ cs, isNumeralChar c' = true := by
      intro c' hc'
      rcases marks c' (List.mem_cons_of_mem c hc') with rfl | h
      · rfl
      · simp [isNumeralChar, h]
    rw [feeds_cons]
    show (start ⟨ts, .between⟩ c).bind _ = _
    rw [start_numeral _ (marks c List.mem_cons_self), Option.bind_some, feeds_numeral _ _ _ numeralChars]
    simp

/-! ## Values -/

/-- Between two tokens, characters come to more of them, the last of which may wait for the next mark to end it. -/
def Reads (ts : List Token) (cs : List Char) (ts' : List Token) : Prop :=
  ∃ l, feeds ⟨ts, .between⟩ cs = some l ∧ l.close? = some ⟨ts', .between⟩

/-- what ends a word or a numeral -/
inductive Mark : Char → Token → Prop
  | comma : Mark ',' .comma
  | colon : Mark ':' .colon
  | closeBracket : Mark ']' .closeBracket
  | closeBrace : Mark '}' .closeBrace

theorem feed_mark {l l' : Lexer} {c : Char} {t : Token} (hm : Mark c t) (h : l.close? = some l') :
    l.feed (some c) = some (l'.emit t) := by
  have starts : l'.start c = some (l'.emit t) := by cases hm <;> rfl
  have letter : isLetter c = false := by cases hm <;> rfl
  have numeralChar : isNumeralChar c = false := by cases hm <;> rfl
  obtain ⟨ts, mode⟩ := l
  cases mode with
  | between => cases h; exact starts
  | word letters => simp [feed, letter, h, starts]
  | numeral chars => simp [feed, numeralChar, h, starts]
  | text | escape | unicode => cases h

variable {ts ts' ts'' : List Token} {cs cs' : List Char}

theorem Reads.nil : Reads ts [] ts := ⟨_, rfl, rfl⟩

/-- a mark after a value, and what follows it -/
theorem Reads.mark (h : Reads ts cs ts') {c : Char} {t : Token} (hm : Mark c t) (rest : Reads (t :: ts') cs' ts'') :
    Reads ts (cs ++ c :: cs') ts'' := by
  obtain ⟨l, hl, closes⟩ := h
  obtain ⟨l', hl', closes'⟩ := rest
  refine ⟨l', ?_, closes'⟩
  rw [feeds_append, hl, Option.bind_some, feeds_cons, feed_mark hm closes, Option.bind_some]
  exact hl'

theorem reads_quoted (ts : List Token) (s : String) : Reads ts (quoted s) (.text (runes s) :: ts) :=
  ⟨_, feeds_quoted ts s, rfl⟩

theorem reads_integerChars (ts : List Token) (n : Int) : Reads ts (integerChars n) (.numeral (numeral n) :: ts) := by
  refine ⟨_, feeds_integerChars ts n, ?_⟩
  show (Numeral.ofChars? (integerChars n).reverse.reverse).map _ = _
  rw [List.reverse_reverse, ofChars?_integerChars]; rfl

end Lexer

mutual

/-- the tree of the text of a value -/
def tree : Json → Tree
  | .null => .null
  | .bool b => .bool b
  | .integer n => .numeral (numeral n)
  | .float x =>
    match (Binary64.toText? x).bind (Numeral.ofChars? ·.toList) with
    | some n => .numeral n
    | none => .null
  | .text s => .text (runes s)
  | .array items => .array (itemTrees items)
  | .object fields => .object (fieldTrees fields)

def itemTrees : List Json → List Tree
  | [] => []
  | v :: rest => v.tree :: itemTrees rest

def fieldTrees : List (String × Json) → List (List Rune × Tree)
  | [] => []
  | (key, v) :: rest => (runes key, v.tree) :: fieldTrees rest

end

/-- a value without doubles -/
inductive Plain : Json → Prop
  | null : Plain .null
  | bool (b : Bool) : Plain (.bool b)
  | integer (n : Int) : Plain (.integer n)
  | text (s : String) : Plain (.text s)
  | array {items : List Json} (h : ∀ v ∈ items, Plain v) : Plain (.array items)
  | object {fields : List (String × Json)} (h : ∀ f ∈ fields, Plain f.2) : Plain (.object fields)

/-- Wherever a value may stand, its characters come to the tokens of its tree. -/
def Legible (v : Json) : Prop := ∀ ts, Lexer.Reads ts v.chars (v.tree.tokens.reverse ++ ts)

open Lexer in
theorem reads_itemChars {items : List Json} (h : ∀ v ∈ items, v.Legible) (ts : List Token) :
    Reads ts (itemChars items) ((Tree.itemTokens (itemTrees items)).reverse ++ ts) := by
  induction items generalizing ts with
  | nil => exact .nil
  | cons v items ih =>
    have first := h v List.mem_cons_self ts
    cases items with
    | nil => exact first
    | cons next items =>
      have rest := first.mark .comma (ih (fun w hw => h w (List.mem_cons_of_mem v hw)) _)
      simpa [itemChars, itemTrees, Tree.itemTokens] using rest

open Lexer in
theorem reads_fieldChars {fields : List (String × Json)} (h : ∀ f ∈ fields, f.2.Legible) (ts : List Token) :
    Reads ts (fieldChars fields) ((Tree.fieldTokens (fieldTrees fields)).reverse ++ ts) := by
  induction fields generalizing ts with
  | nil => exact .nil
  | cons field fields ih =>
    have first := (reads_quoted ts field.1).mark .colon (h field List.mem_cons_self _)
    cases fields with
    | nil => simpa [fieldChars, fieldTrees, Tree.fieldTokens] using first
    | cons next fields =>
      have rest := first.mark .comma (ih (fun f hf => h f (List.mem_cons_of_mem field hf)) _)
      simpa [fieldChars, fieldTrees, Tree.fieldTokens] using rest

theorem Plain.legible {v : Json} (h : Plain v) : v.Legible := by
  intro ts
  induction h generalizing ts with
  | null => exact ⟨_, rfl, rfl⟩
  | bool b => cases b <;> exact ⟨_, rfl, rfl⟩
  | integer n => exact Lexer.reads_integerChars ts n
  | text s => exact Lexer.reads_quoted ts s
  | array _ ih =>
    obtain ⟨l, hl, closes⟩ := (reads_itemChars ih (.openBracket :: ts)).mark .closeBracket .nil
    exact ⟨l, hl, by simpa [tree, Tree.tokens] using closes⟩
  | object _ ih =>
    obtain ⟨l, hl, closes⟩ := (reads_fieldChars ih (.openBrace :: ts)).mark .closeBrace .nil
    exact ⟨l, hl, by simpa [tree, Tree.tokens] using closes⟩

/-- The text of a value without doubles has its tree. -/
theorem parse?_toText {v : Json} (h : Plain v) : Tree.parse? v.toText = some v.tree := by
  obtain ⟨l, hl, closes⟩ := h.legible []
  have tokens : Token.ofRunes? (runes v.toText) = some v.tree.tokens := by
    unfold Token.ofRunes? runes
    rw [toText, String.toList_ofList]
    show (Lexer.feeds .empty v.chars).bind _ = _
    rw [show Lexer.empty = ⟨[], .between⟩ from rfl, hl]
    simp [closes]
  rw [Tree.parse?, Tree.ofRunes?, tokens]
  exact Tree.ofTokens?_tokens v.tree

/-! ## What is kept of a tree -/

/-- an integer of 64 bits, signed or not -/
def Fits (n : Int) : Prop := -(bitLimit 63 : Int) ≤ n ∧ n ≤ maxNatural

instance (n : Int) : Decidable (Fits n) := inferInstanceAs (Decidable (_ ∧ _))

theorem maxNatural_eq : maxNatural = 18446744073709551615 := by decide

theorem bitLimit_63 : bitLimit 63 = 9223372036854775808 := by decide

/-- The numeral of an integer is that integer, if it fits 64 bits, and else a double. -/
theorem value?_numeral (n : Int) :
    (numeral n).value? = if Fits n then some (.integer n) else (numeral n).float?.map .float := by
  obtain ⟨whole, dropped⟩ := wholeDigits_natDigits n.natAbs
  unfold Numeral.value?
  by_cases large : maxNatural < n.natAbs
  · have unfit : ¬ Fits n := by
      rw [Fits, bitLimit_63, maxNatural_eq]; rw [maxNatural_eq] at large; omega
    simp [numeral, dropped large, unfit]
  · have fits : Fits n ↔ (n < 0 → n.natAbs ≤ bitLimit 63) := by
      rw [Fits, bitLimit_63, maxNatural_eq]; rw [maxNatural_eq] at large; omega
    rw [maxNatural_eq] at large
    rw [numeral, whole (by rw [maxNatural_eq]; omega)]
    generalize habs : n.natAbs = k at *
    by_cases hn : n < 0
    · have negated : -(k : Int) = n := by omega
      have positive : 0 < k := by omega
      simp [fits, hn, negated, positive]
    · have same : (k : Int) = n := by omega
      simp [fits, hn, same]

variable {α : Type}

theorem leaf_text (f : Json → Option α) (s : String) (levels : Nat) :
    Decoder.leaf f levels (text s).tree = f (.text s) := by
  show ((intact? (runes s)).map Json.text).bind f = _
  rw [intact?_runes]; rfl

/-- what reads integers and no doubles -/
theorem leaf_integer {f : Json → Option α} (hf : ∀ x, f (.float x) = none) (n : Int) (levels : Nat) :
    Decoder.leaf f levels (integer n).tree = if Fits n then f (.integer n) else none := by
  show (numeral n).value?.bind f = _
  rw [value?_numeral]
  split_ifs
  · rfl
  · rcases (numeral n).float? with _ | x
    · rfl
    · exact hf x

theorem leaf_natural (n : Nat) (levels : Nat) :
    Decoder.leaf natural? levels (integer n).tree = if n ≤ maxNatural then some n else none := by
  have fits : Fits n ↔ n ≤ maxNatural := by rw [Fits]; omega
  rw [leaf_integer (fun _ => rfl)]
  simp only [fits]
  rfl

theorem leaf_signed (n : Int) (levels : Nat) :
    Decoder.leaf signed? levels (integer n).tree = if fitsSigned 64 n then some n else none := by
  have fits : fitsSigned 64 n → Fits n := by
    have limit : bitLimit (64 - 1) = 9223372036854775808 := bitLimit_63
    simp only [fitsSigned, Fits, limit, maxNatural_eq, Bool.and_eq_true, decide_eq_true_eq]
    omega
  rw [leaf_integer (fun _ => rfl)]
  show (if Fits n then if fitsSigned 64 n then some n else none else none) = _
  split_ifs with h₁ h₂ h₂
  · rfl
  · rfl
  · exact absurd (fits h₂) h₁
  · rfl

end PickupPoint.Json
