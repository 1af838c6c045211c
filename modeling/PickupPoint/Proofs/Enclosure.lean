/-
A JSON text inside of another.

What was read before a text does not change how it is read. The lexer only ever looks at the token it stands in
(`feed_after`), and the parser at the containers that the text itself has opened (`step_atop`). So a text that reads on
its own reads as the same tree where it stands as the only item of a list under a key (`ofRunes?_enclosed`).
-/
import PickupPoint.Proofs.JsonText
import PickupPoint.Proofs.Utf8

namespace PickupPoint.Json

open Text

/-! ## Tokens before a text -/

namespace Lexer

variable {l : Lexer} {before : List Token}

/-- the lexer with tokens before those it has read -/
def after (before : List Token) (l : Lexer) : Lexer := ⟨l.tokens ++ before, l.mode⟩

theorem start_after (c : Char) : (l.after before).start c = (l.start c).map (·.after before) := by
  unfold start
  split
  case h_8 => split_ifs <;> rfl
  all_goals rfl

theorem close?_after : (l.after before).close? = l.close?.map (·.after before) := by
  obtain ⟨ts, mode⟩ := l
  cases mode with
  | between | text | escape | unicode => rfl
  | word letters => exact (Option.map_map ..).symm ▸ rfl
  | numeral chars => exact (Option.map_map ..).symm ▸ rfl

/-- A character ends a word or a numeral, and starts what comes next. -/
theorem close_start_after (c : Char) :
    (l.after before).close?.bind (·.start c) = (l.close?.bind (·.start c)).map (·.after before) := by
  rw [close?_after]
  rcases l.close? with _ | l'
  · rfl
  · exact start_after c

theorem feed_after (r : Rune) : (l.after before).feed r = (l.feed r).map (·.after before) := by
  have ends : ∀ c, (l.after before).close?.bind (·.start c) = _ := close_start_after
  obtain ⟨ts, mode⟩ := l
  cases r with
  | none => cases mode <;> rfl
  | some c =>
    cases mode with
    | between => exact start_after c
    | text pieces =>
      show feedText _ pieces c = (feedText _ pieces c).map _
      unfold feedText
      split_ifs <;> rfl
    | escape pieces =>
      show feedEscape _ pieces c = (feedEscape _ pieces c).map _
      unfold feedEscape
      split_ifs
      · rfl
      · rw [Option.map_map]; rfl
    | unicode pieces count value =>
      show feedUnicode _ pieces count value c = (feedUnicode _ pieces count value c).map _
      unfold feedUnicode
      rw [Option.map_map]
      congr 1
      funext d
      by_cases last : count = 3 <;> simp [last, after]
    | word letters =>
      show (if isLetter c then _ else _) = Option.map _ (if isLetter c then _ else _)
      split_ifs
      · rfl
      · exact ends c
    | numeral chars =>
      show (if isNumeralChar c then _ else _) = Option.map _ (if isNumeralChar c then _ else _)
      split_ifs
      · rfl
      · exact ends c

theorem feeds_after (rs : List Rune) :
    rs.foldlM feed (l.after before) = (rs.foldlM feed l).map (·.after before) := by
  induction rs generalizing l with
  | nil => rfl
  | cons r rs ih =>
    rw [List.foldlM_cons, List.foldlM_cons, feed_after]
    rcases l.feed r with _ | l'
    · rfl
    · exact ih

end Lexer

/-! ## Containers around a text -/

namespace Tree

/-- a part of a text where other containers are open around it -/
def Partial.atop? (around : List Frame) : Partial → Option Partial
  | .within stack expected => some (.within (stack ++ around) expected)
  | .complete t => attach? t around

variable {stack : List Frame} {expected : Expected} {around : List Frame} {p : Partial}

theorem attach?_atop {t : Tree} (h : attach? t stack = some p) : attach? t (stack ++ around) = p.atop? around := by
  rcases stack with _ | ⟨frame, stack⟩
  · cases h; rfl
  · cases frame <;> cases h <;> rfl

theorem begin?_atop {t : Token} (h : begin? stack t = some p) : begin? (stack ++ around) t = p.atop? around := by
  cases t with
  | openBracket | openBrace => cases h; rfl
  | null | bool | numeral | text => exact attach?_atop h
  | closeBracket | closeBrace | comma | colon => cases h

/-- What a text does with the containers that it has opened, it does on top of others. -/
theorem step_atop {t : Token} (h : step (.within stack expected) t = some p) :
    step (.within (stack ++ around) expected) t = p.atop? around := by
  cases expected with
  | value => exact begin?_atop h
  | firstItem =>
    by_cases closes : t = .closeBracket
    · subst closes
      rcases stack with _ | ⟨_ | _ | _, stack⟩ <;> first | exact attach?_atop h | cases h
    · rw [step_firstItem closes] at h ⊢
      exact begin?_atop h
  | firstKey | key =>
    -- a key may stand anywhere, so the containers around are told apart as well
    rcases stack with _ | ⟨_ | _ | _, stack⟩ <;> cases t <;> first | exact attach?_atop h | cases h
    all_goals first | rfl | rcases around with _ | ⟨_ | _ | _, around⟩ <;> rfl
  | colon key | next =>
    rcases stack with _ | ⟨_ | _ | _, stack⟩ <;> cases t <;> first | exact attach?_atop h | cases h
    all_goals rfl

/-- As long as the text is not over, only what it has opened itself is looked at. -/
theorem steps_atop {ts : List Token} (h : ts.foldlM step (.within stack expected) = some p) :
    ts.foldlM step (.within (stack ++ around) expected) = p.atop? around := by
  induction ts generalizing stack expected with
  | nil => cases h; rfl
  | cons t ts ih =>
    rw [List.foldlM_cons] at h ⊢
    rcases first : step (.within stack expected) t with _ | q <;> rw [first] at h
    · cases h
    rw [step_atop first]
    cases q with
    | within stack' expected' => exact ih h
    | complete v =>
      cases ts with
      | nil => cases h; exact bind_pure _
      | cons => cases h

/-- Where a text stands as the first item of a list, its tokens come to its tree. -/
theorem steps_firstItem (around : List Frame) {ts : List Token} {t : Tree} (h : ofTokens? ts = some t) :
    ts.foldlM step (.within around .firstItem) = attach? t around := by
  have whole : ts.foldlM step (.within [] .value) = some (.complete t) := by
    unfold ofTokens? at h
    split at h
    · rename_i v run
      rw [run, Option.some.inj h]
    · cases h
  rcases ts with _ | ⟨first, ts⟩
  · cases whole
  have begins : first ≠ .closeBracket := by
    rintro rfl
    cases whole
  have within : (first :: ts).foldlM step (.within around .value) = attach? t around := steps_atop whole
  rw [List.foldlM_cons, step_firstItem begins]
  exact within

end Tree

/-! ## A text in a list under a key -/

/-- the characters before a text that is the only item of a list under a key -/
def openingChars (key : String) : List Char := '{' :: quoted key ++ [':', '[']

/-- the characters after it -/
def closingChars : List Char := [']', '}']

/-- a text as the only item of a list under a key -/
def enclosed (key : String) (rs : List Rune) : List Rune :=
  (openingChars key).map some ++ rs ++ closingChars.map some

def openingTokens (key : String) : List Token := [.openBrace, .text (runes key), .colon, .openBracket]

def closingTokens : List Token := [.closeBracket, .closeBrace]

theorem feeds_opening (key : String) :
    Lexer.feeds .empty (openingChars key) = some (Lexer.empty.after (openingTokens key).reverse) := by
  have quotes := Lexer.feeds_quoted [.openBrace] key
  rw [openingChars, Lexer.feeds_append]
  show (Lexer.feeds ⟨[.openBrace], .between⟩ (quoted key)).bind _ = _
  rw [quotes]
  rfl

theorem feeds_closing {l l' : Lexer} (closed : l.close? = some l') :
    l.feeds closingChars = some ⟨closingTokens.reverse ++ l'.tokens, .between⟩ := by
  have bracket := Lexer.feed_mark .closeBracket closed
  rw [closingChars, Lexer.feeds_cons, bracket]
  rfl

theorem tokens_enclosed (key : String) {rs : List Rune} {ts : List Token} (h : Token.ofRunes? rs = some ts) :
    Token.ofRunes? (enclosed key rs) =
      some (openingTokens key ++ ts ++ closingTokens) := by
  obtain ⟨l, fed, ended⟩ := Option.bind_eq_some_iff.1 h
  obtain ⟨l', closed, ⟨⟩⟩ := Option.bind_eq_some_iff.1 ended
  have inside : rs.foldlM Lexer.feed (Lexer.empty.after (openingTokens key).reverse) =
      some (l.after (openingTokens key).reverse) := by
    rw [Lexer.feeds_after, fed]
    rfl
  have ends : (l.after (openingTokens key).reverse).close? = some (l'.after (openingTokens key).reverse) := by
    rw [Lexer.close?_after, closed]
    rfl
  have whole : (enclosed key rs).foldlM Lexer.feed .empty =
      some ⟨closingTokens.reverse ++ (l'.after (openingTokens key).reverse).tokens, .between⟩ := by
    rw [enclosed, List.foldlM_append, List.foldlM_append]
    calc ((Lexer.feeds .empty (openingChars key)).bind (rs.foldlM Lexer.feed)).bind (·.feeds closingChars)
      _ = (l.after (openingTokens key).reverse).feeds closingChars := by
        rw [feeds_opening, Option.bind_some, inside, Option.bind_some]
      _ = _ := feeds_closing ends
  rw [Token.ofRunes?, whole]
  simp [Lexer.close?, Lexer.after]

theorem Tree.ofTokens?_enclosed (key : String) {ts : List Token} {t : Tree} (h : ofTokens? ts = some t) :
    ofTokens? (openingTokens key ++ ts ++ closingTokens) = some (.object [(runes key, .array [t])]) := by
  have item := steps_firstItem [.array [], .member [] (runes key)] h
  have run : (openingTokens key ++ ts ++ closingTokens).foldlM step (.within [] .value) =
      some (.complete (.object [(runes key, .array [t])])) := by
    rw [List.foldlM_append, List.foldlM_append]
    calc (ts.foldlM step (.within [.array [], .member [] (runes key)] .firstItem)).bind (closingTokens.foldlM step)
      _ = (attach? t [.array [], .member [] (runes key)]).bind (closingTokens.foldlM step) := by rw [item]
      _ = _ := rfl
  rw [ofTokens?, run]

/-- A text that reads on its own reads as the same tree where it is the only item of a list under a key. -/
theorem ofRunes?_enclosed (key : String) {rs : List Rune} {t : Tree} (h : Tree.ofRunes? rs = some t) :
    Tree.ofRunes? (enclosed key rs) = some (.object [(runes key, .array [t])]) := by
  obtain ⟨ts, tokens, parsed⟩ := Option.bind_eq_some_iff.1 h
  rw [Tree.ofRunes?, tokens_enclosed key tokens, Option.bind_some]
  exact Tree.ofTokens?_enclosed key parsed

end PickupPoint.Json
