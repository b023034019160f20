import Phrasebook.Text.Blank
import Phrasebook.Text.DecimalDigit
import Phrasebook.Text.Word

/-! The tokens of a condition. A condition is read in one pass from left to right: blanks only
separate, the longest operator wins, and the words `and`, `or` and `not` are operators. A character
that starts no token stops the reading at its position. -/

namespace Phrasebook.Condition

inductive Comparison
  | identical
  | notIdentical
  | equal
  | notEqual
  | atMost
  | atLeast
  | less
  | greater
  deriving DecidableEq

inductive Connective
  | and
  | or
  deriving DecidableEq

/-- The operators. `bang` negates the operand right behind it, `not` a whole comparison. -/
inductive Operator
  | compare (c : Comparison)
  | connect (c : Connective)
  | bang
  | not
  deriving DecidableEq

def Comparison.symbol : Comparison → String
  | identical => "==="
  | notIdentical => "!=="
  | equal => "=="
  | notEqual => "!="
  | atMost => "<="
  | atLeast => ">="
  | less => "<"
  | greater => ">"

def Connective.symbol : Connective → String
  | and => "&&"
  | or => "||"

def Operator.symbol : Operator → String
  | compare c => c.symbol
  | connect c => c.symbol
  | bang => "!"
  | not => "not"

/-- The operators that are written with signs, no one behind one that it continues. -/
def Operator.signs : List Operator :=
  [.compare .identical, .compare .notIdentical, .compare .equal, .compare .notEqual,
    .compare .atMost, .compare .atLeast, .connect .and, .connect .or, .compare .less,
    .compare .greater, .bang]

/-- What a token is. A number keeps its digits, a field and a quoted text their raw bodies. -/
inductive Lexeme
  | field (body : List Char)
  | number (negative : Bool) (whole : List Char) (fraction : Option (List Char))
  | quoted (mark : Char) (body : List Char)
  | operator (op : Operator)
  | openParen
  | closeParen
  | name (spelling : List Char)
  deriving DecidableEq

/-- The text that a lexeme is read from. -/
def Lexeme.spelling : Lexeme → List Char
  | field body => '\x7b' :: body ++ ['\x7d']
  | number negative whole fraction =>
      (if negative then ['-'] else []) ++ whole ++
        match fraction with
        | none => []
        | some digits => '.' :: digits
  | quoted mark body => mark :: body ++ [mark]
  | operator op => op.symbol.toList
  | openParen => ['(']
  | closeParen => [')']
  | name spelling => spelling

def Lexeme.text (l : Lexeme) : String :=
  String.ofList l.spelling

/-- A lexeme and the number of characters in front of it. -/
structure Token where
  lexeme : Lexeme
  position : Nat
  deriving DecidableEq

/-! ### Reading one lexeme -/

/-- What is left of a text behind a given beginning. -/
def behind? : (start cs : List Char) → Option (List Char)
  | [], cs => some cs
  | _ :: _, [] => none
  | s :: start, c :: cs => if s = c then behind? start cs else none

theorem eq_append_of_behind? {start cs rest : List Char} (h : behind? start cs = some rest) :
    cs = start ++ rest := by
  induction start generalizing cs with
  | nil => exact Option.some.inj h
  | cons s start ih =>
      cases cs with
      | nil => simp [behind?] at h
      | cons c cs =>
          unfold behind? at h
          split at h
          · next hs => rw [hs, List.cons_append, ← ih h]
          · cases h

/-- No brace stands inside a field. -/
def insideField (c : Char) : Bool :=
  c ≠ '\x7b' && c ≠ '\x7d'

/-- A field, read from behind its opening brace. -/
def field? (cs : List Char) : Option (Lexeme × List Char) :=
  match cs.dropWhile insideField with
  | '\x7d' :: rest => some (.field (cs.takeWhile insideField), rest)
  | _ => none

/-- The fraction at the beginning of a text: a point with digits behind it. -/
def fraction? : List Char → Option (List Char × List Char)
  | '.' :: cs =>
      if (cs.takeWhile Text.isDigit).isEmpty then none
      else some (cs.takeWhile Text.isDigit, cs.dropWhile Text.isDigit)
  | _ => none

/-- A number, read from behind its sign. -/
def number? (negative : Bool) (cs : List Char) : Option (Lexeme × List Char) :=
  let whole := cs.takeWhile Text.isDigit
  let rest := cs.dropWhile Text.isDigit
  if whole.isEmpty then none
  else
    match fraction? rest with
    | some (digits, rest) => some (.number negative whole (some digits), rest)
    | none => some (.number negative whole none, rest)

/-- The body of a quoted text and what follows it: a backslash takes the character behind it along,
unless that is a line break. -/
def quotedBody? (mark : Char) : List Char → Option (List Char × List Char)
  | [] => none
  | [c] => if c = mark then some ([], []) else none
  | c :: d :: cs =>
      if c = mark then some ([], d :: cs)
      else if c = '\\' then
        if d = '\n' then none else (quotedBody? mark cs).map fun r => (c :: d :: r.1, r.2)
      else (quotedBody? mark (d :: cs)).map fun r => (c :: r.1, r.2)

/-- The first of the operators that the text begins with. -/
def operator? (cs : List Char) : Option (Lexeme × List Char) :=
  Operator.signs.findSome? fun op => (behind? op.symbol.toList cs).map (.operator op, ·)

/-- The lexeme at the beginning of a text, and the rest. -/
def lexeme? : List Char → Option (Lexeme × List Char)
  | [] => none
  | c :: cs =>
      if c = '\x7b' then field? cs
      else if c = '-' then number? true cs
      else if Text.isDigit c then number? false (c :: cs)
      else if c = '\'' ∨ c = '"' then (quotedBody? c cs).map fun r => (.quoted c r.1, r.2)
      else if c = '(' then some (.openParen, cs)
      else if c = ')' then some (.closeParen, cs)
      else if Text.isNameStart c then
        some (.name (c :: cs.takeWhile Text.isWord), cs.dropWhile Text.isWord)
      else operator? (c :: cs)

/-! ### Nothing is lost -/

theorem spelling_field? {cs rest : List Char} {l : Lexeme} (h : field? cs = some (l, rest)) :
    '\x7b' :: cs = l.spelling ++ rest := by
  unfold field? at h
  split at h
  · next r hr =>
      obtain ⟨rfl, rfl⟩ := Prod.mk.inj (Option.some.inj h)
      have := List.takeWhile_append_dropWhile (p := insideField) (l := cs)
      rw [hr] at this
      simpa [Lexeme.spelling] using this.symm
  · cases h

theorem spelling_fraction? {cs digits rest : List Char} (h : fraction? cs = some (digits, rest)) :
    cs = '.' :: digits ++ rest := by
  unfold fraction? at h
  split at h
  · split at h
    · cases h
    · obtain ⟨rfl, rfl⟩ := Prod.mk.inj (Option.some.inj h)
      simp
  · cases h

theorem spelling_number? {negative : Bool} {cs rest : List Char} {l : Lexeme}
    (h : number? negative cs = some (l, rest)) :
    (if negative then ['-'] else []) ++ cs = l.spelling ++ rest ∧ l.spelling ≠ [] := by
  have htd := List.takeWhile_append_dropWhile (p := Text.isDigit) (l := cs)
  unfold number? at h
  simp only [List.isEmpty_iff] at h
  split at h
  · cases h
  · next hne =>
      split at h
      · next digits r hf =>
          obtain ⟨rfl, rfl⟩ := Prod.mk.inj (Option.some.inj h)
          rw [spelling_fraction? hf] at htd
          simp only [Lexeme.spelling, List.append_assoc, htd]
          simp [hne]
      · obtain ⟨rfl, rfl⟩ := Prod.mk.inj (Option.some.inj h)
        simp [Lexeme.spelling, htd, hne]

theorem spelling_quotedBody? {mark : Char} {cs body rest : List Char}
    (h : quotedBody? mark cs = some (body, rest)) : cs = body ++ mark :: rest := by
  fun_induction quotedBody? mark cs generalizing body with
  | case1 => cases h
  | case2 =>
      obtain ⟨rfl, rfl⟩ := Prod.mk.inj (Option.some.inj h)
      rfl
  | case3 => cases h
  | case4 =>
      obtain ⟨rfl, rfl⟩ := Prod.mk.inj (Option.some.inj h)
      rfl
  | case5 => cases h
  | case6 d cs _ _ ih =>
      obtain ⟨r, hr, he⟩ := Option.map_eq_some_iff.1 h
      obtain ⟨rfl, rfl⟩ := Prod.mk.inj he
      simp [← ih hr]
  | case7 c d cs _ _ ih =>
      obtain ⟨r, hr, he⟩ := Option.map_eq_some_iff.1 h
      obtain ⟨rfl, rfl⟩ := Prod.mk.inj he
      simp [← ih hr]

theorem spelling_operator? {cs rest : List Char} {l : Lexeme} (h : operator? cs = some (l, rest)) :
    cs = l.spelling ++ rest ∧ l.spelling ≠ [] := by
  obtain ⟨op, -, hop⟩ := List.exists_of_findSome?_eq_some h
  obtain ⟨r, hr, he⟩ := Option.map_eq_some_iff.1 hop
  obtain ⟨rfl, rfl⟩ := Prod.mk.inj he
  refine ⟨eq_append_of_behind? hr, ?_⟩
  cases op with
  | compare c => cases c <;> decide
  | connect c => cases c <;> decide
  | bang => decide
  | not => decide

/-- A lexeme is spelled at the beginning of the text it is read from, with at least one
character. -/
theorem spelling_lexeme? {cs rest : List Char} {l : Lexeme} (h : lexeme? cs = some (l, rest)) :
    cs = l.spelling ++ rest ∧ l.spelling ≠ [] := by
  cases cs with
  | nil => simp [lexeme?] at h
  | cons c cs =>
      simp only [lexeme?] at h
      split at h
      · next hc =>
          have hs := spelling_field? h
          rw [hc]
          refine ⟨hs, ?_⟩
          unfold field? at h
          split at h
          · obtain ⟨rfl, -⟩ := Prod.mk.inj (Option.some.inj h)
            simp [Lexeme.spelling]
          · cases h
      split at h
      · next hc =>
          rw [hc]
          exact spelling_number? h
      split at h
      · exact spelling_number? h
      split at h
      · obtain ⟨r, hr, he⟩ := Option.map_eq_some_iff.1 h
        obtain ⟨rfl, rfl⟩ := Prod.mk.inj he
        simp [Lexeme.spelling, spelling_quotedBody? hr]
      split at h
      · next hc =>
          obtain ⟨rfl, rfl⟩ := Prod.mk.inj (Option.some.inj h)
          simp [Lexeme.spelling, hc]
      split at h
      · next hc =>
          obtain ⟨rfl, rfl⟩ := Prod.mk.inj (Option.some.inj h)
          simp [Lexeme.spelling, hc]
      split at h
      · obtain ⟨rfl, rfl⟩ := Prod.mk.inj (Option.some.inj h)
        simp [Lexeme.spelling]
      · exact spelling_operator? h

theorem length_lexeme? {cs rest : List Char} {l : Lexeme} (h : lexeme? cs = some (l, rest)) :
    rest.length < cs.length := by
  obtain ⟨he, hne⟩ := spelling_lexeme? h
  have := List.length_pos_iff.2 hne
  rw [he, List.length_append]
  omega

/-! ### Reading a whole condition -/

/-- The words among the operators. -/
def wordOperator? (spelling : List Char) : Option Operator :=
  if spelling = "and".toList then some (.connect .and)
  else if spelling = "or".toList then some (.connect .or)
  else if spelling = "not".toList then some .not
  else none

/-- A name that is an operator's word is that operator. -/
def Lexeme.resolved : Lexeme → Lexeme
  | name spelling =>
      match wordOperator? spelling with
      | some op => .operator op
      | none => .name spelling
  | l => l

/-- A character that starts no token. -/
structure Unreadable where
  char : Char
  position : Nat
  deriving DecidableEq

/-- The tokens of a text that begins at a position. -/
def tokensFrom (position : Nat) : List Char → Except Unreadable (List Token)
  | [] => .ok []
  | c :: cs =>
      if Text.isBlank c then tokensFrom (position + 1) cs
      else
        match _h : lexeme? (c :: cs) with
        | none => .error ⟨c, position⟩
        | some (l, rest) =>
            (tokensFrom (position + l.spelling.length) rest).map (⟨l.resolved, position⟩ :: ·)
termination_by cs => cs.length
decreasing_by
  · simp
  · exact length_lexeme? _h

def tokens (source : String) : Except Unreadable (List Token) :=
  tokensFrom 0 source.toList

end Phrasebook.Condition
