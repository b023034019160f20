import Phrasebook.Proofs.Condition.Grammar
import Phrasebook.Proofs.Condition.Layout

/-! What single lexemes are read from. A text scans as a row of lexemes whatever stands in front of
it (`Scans`), and a word may be put in front of a text that cannot continue it: the end of the
condition or a closing parenthesis (`Delimited`). Conversely the lexemes read from a text keep what
the reading saw of them: no brace stands in a field (`Lexeme.Braceless`). -/

namespace Phrasebook.Condition

/-! ### Texts and their lexemes -/

/-- The lexemes of a text at any position, none of them an oversized number. -/
def Scans (cs : List Char) (ls : List Lexeme) : Prop :=
  (∀ position, ∃ ts, tokensFrom position cs = .ok ts ∧ ts.map Token.lexeme = ls) ∧
    ∀ l ∈ ls, l.Short

theorem Scans.nil : Scans [] [] := by
  refine ⟨fun position => ⟨[], ?_, rfl⟩, List.forall_mem_nil _⟩
  rw [tokensFrom]

theorem Scans.blank {c : Char} {cs : List Char} {ls : List Lexeme} (hc : Text.isBlank c = true)
    (h : Scans cs ls) : Scans (c :: cs) ls := by
  obtain ⟨hreads, hshort⟩ := h
  refine ⟨fun position => ?_, hshort⟩
  rw [tokensFrom, if_pos hc]
  exact hreads (position + 1)

/-- A lexeme stands in front of the rest of its text, if no blank does. -/
theorem Scans.cons {cs rest : List Char} {l : Lexeme} {ls : List Lexeme}
    (hblank : cs.head?.any Text.isBlank = false) (hl : lexeme? cs = some (l, rest))
    (hsame : l.resolved = l) (hshort : l.Short) (h : Scans rest ls) : Scans cs (l :: ls) := by
  obtain ⟨hreads, hshorts⟩ := h
  refine ⟨fun position => ?_, List.forall_mem_cons.2 ⟨hshort, hshorts⟩⟩
  cases cs with
  | nil => cases hl
  | cons c cs =>
      obtain ⟨ts, hts, hls⟩ := hreads (position + l.spelling.length)
      have hc : ¬ Text.isBlank c = true := by simpa using hblank
      refine ⟨⟨l, position⟩ :: ts, ?_, by rw [List.map_cons, hls]⟩
      rw [tokensFrom_of_lexeme? hc hl, hts, hsame]
      rfl

theorem Scans.lexeme {l : Lexeme} {rest : List Char} {ls : List Lexeme} (hl : l.WellFormed)
    (hends : l.EndsBefore rest) (hsame : l.resolved = l) (hshort : l.Short) (h : Scans rest ls) :
    Scans (l.spelling ++ rest) (l :: ls) := by
  obtain ⟨c, cs, hspelling, hblank⟩ := hl.exists_spelling
  exact .cons (by simp [hspelling, hblank]) (lexeme?_of_wellFormed hl hends) hsame hshort h

/-- Nothing continues a word in front of this text. -/
def Delimited (rest : List Char) : Prop :=
  ∀ c ∈ rest.head?, c = ')'

theorem delimited_nil : Delimited [] := by
  intro c hc
  cases hc

theorem delimited_closed (rest : List Char) : Delimited (')' :: rest) := by
  intro c hc
  exact (Option.some.inj hc).symm

theorem Delimited.separated {rest : List Char} (h : Delimited rest) : Separated rest :=
  fun c hc => .inr (h c hc)

/-! ### Signs -/

theorem scans_open {cs : List Char} {ls : List Lexeme} (h : Scans cs ls) :
    Scans ('(' :: cs) (.openParen :: ls) :=
  .cons rfl rfl rfl trivial h

theorem scans_close {cs : List Char} {ls : List Lexeme} (h : Scans cs ls) :
    Scans (')' :: cs) (.closeParen :: ls) :=
  .cons rfl rfl rfl trivial h

theorem scans_bang {cs : List Char} {ls : List Lexeme} (h : Scans ('(' :: cs) ls) :
    Scans ('!' :: '(' :: cs) (.operator .bang :: ls) :=
  .cons rfl rfl rfl trivial h

theorem scans_compare (op : Comparison) {cs : List Char} {ls : List Lexeme} (h : Scans cs ls) :
    Scans (op.symbol.toList ++ ' ' :: cs) (.operator (.compare op) :: ls) := by
  have hrest : Scans (' ' :: cs) ls := .blank rfl h
  cases op <;> exact .cons rfl rfl rfl trivial hrest

theorem scans_connect (op : Connective) {cs : List Char} {ls : List Lexeme} (h : Scans cs ls) :
    Scans (op.symbol.toList ++ ' ' :: cs) (.operator (.connect op) :: ls) := by
  have hrest : Scans (' ' :: cs) ls := .blank rfl h
  cases op <;> exact .cons rfl rfl rfl trivial hrest

/-! ### Operands -/

theorem scans_field {body rest : List Char} {ls : List Lexeme}
    (hbody : ∀ c ∈ body, insideField c = true) (h : Scans rest ls) :
    Scans ('\x7b' :: body ++ '\x7d' :: rest) (.field body :: ls) := by
  have hscans := h.lexeme (.field hbody) (endsBefore_field body rest) rfl trivial
  rwa [Lexeme.spelling, List.append_assoc] at hscans

theorem Digits.of_ascii {digits : List Char} (hne : digits ≠ [])
    (hdigits : ∀ c ∈ digits, c.isDigit = true) : Digits digits :=
  ⟨hne, fun c hc => Text.isDigit_of_ascii (hdigits c hc)⟩

theorem spelling_whole (negative : Bool) (digits : List Char) :
    (Lexeme.number negative digits none).spelling = (if negative then ['-'] else []) ++ digits := by
  simp [Lexeme.spelling]

theorem lexeme?_of_digits {digits rest : List Char} (hne : digits ≠ [])
    (hdigits : ∀ c ∈ digits, c.isDigit = true) (hrest : Delimited rest) :
    lexeme? (digits ++ rest) = some (.number false digits none, rest) := by
  have hlexeme := lexeme?_of_wellFormed (.number false (.of_ascii hne hdigits) (by simp))
    (hrest.separated.endsBefore (.number false digits none))
  rwa [spelling_whole] at hlexeme

theorem scans_number {negative : Bool} {digits rest : List Char} {ls : List Lexeme}
    (hne : digits ≠ []) (hdigits : ∀ c ∈ digits, c.isDigit = true)
    (hshort : digits.length ≤ Reading.maxDigits) (hrest : Delimited rest) (h : Scans rest ls) :
    Scans ((if negative then ['-'] else []) ++ digits ++ rest)
      (.number negative digits none :: ls) := by
  have hscans := h.lexeme (.number negative (.of_ascii hne hdigits) (by simp))
    (hrest.separated.endsBefore (.number negative digits none)) rfl hshort
  rwa [spelling_whole] at hscans

theorem scans_word {spelling rest : List Char} {ls : List Lexeme}
    (hword : spelling = "null".toList ∨ spelling = "true".toList ∨ spelling = "false".toList)
    (hrest : Delimited rest) (h : Scans rest ls) :
    Scans (spelling ++ rest) (.name spelling :: ls) := by
  have hends := hrest.separated.endsBefore (.name spelling)
  rcases hword with rfl | rfl | rfl <;>
    exact h.lexeme (.name rfl (List.all_eq_true.1 rfl)) hends rfl trivial

/-! ### Quoted texts -/

/-- A text as it stands between single quotes. -/
def escape : List Char → List Char
  | [] => []
  | c :: cs => if c = '\\' ∨ c = '\'' then '\\' :: c :: escape cs else c :: escape cs

theorem unescape_cons {c : Char} (hc : c ≠ '\\') (cs : List Char) :
    unescape (c :: cs) = c :: unescape cs := by
  cases cs with
  | nil => rfl
  | cons d cs => rw [unescape, if_neg hc]

theorem unescape_escape (cs : List Char) : unescape (escape cs) = cs := by
  induction cs with
  | nil => rfl
  | cons c cs ih =>
      unfold escape
      by_cases hc : c = '\\' ∨ c = '\''
      · rw [if_pos hc, unescape, if_pos rfl, ih]
      · rw [if_neg hc, unescape_cons (fun hback => hc (Or.inl hback)), ih]

theorem quotable_escape (cs : List Char) : Quotable '\'' (escape cs) := by
  induction cs with
  | nil => exact .nil
  | cons c cs ih =>
      unfold escape
      by_cases hc : c = '\\' ∨ c = '\''
      · have hbreak : c ≠ '\n' := by
          rintro rfl
          exact absurd hc (by decide)
        rw [if_pos hc]
        exact .escaped hbreak ih
      · rw [if_neg hc]
        exact .plain (fun hquote => hc (Or.inr hquote)) (fun hback => hc (Or.inl hback)) ih

theorem scans_quoted (cs : List Char) {rest : List Char} {ls : List Lexeme} (h : Scans rest ls) :
    Scans ('\'' :: escape cs ++ '\'' :: rest) (.quoted '\'' (escape cs) :: ls) := by
  have hends := endsBefore_quoted '\'' (escape cs) rest
  have hscans := h.lexeme (.quoted (.inl rfl) (quotable_escape cs)) hends rfl trivial
  rwa [Lexeme.spelling, List.append_assoc] at hscans

/-! ### What a reading has seen -/

/-- No brace stands in a field. -/
def Lexeme.Braceless : Lexeme → Prop
  | field body => ∀ c ∈ body, insideField c = true
  | _ => True

theorem Lexeme.WellFormed.braceless {l : Lexeme} (h : l.WellFormed) : l.Braceless := by
  cases h with
  | field hbody => exact hbody
  | _ => trivial

theorem Lexeme.Braceless.resolved {l : Lexeme} (h : l.Braceless) : l.resolved.Braceless := by
  cases l with
  | name spelling =>
      cases hop : wordOperator? spelling <;> simp [Lexeme.resolved, hop, Lexeme.Braceless]
  | _ => exact h

/-- **No brace stands in a field that a reading returns.** -/
theorem braceless_tokensFrom {position : Nat} {cs : List Char} {ts : List Token}
    (h : tokensFrom position cs = .ok ts) : ∀ l ∈ ts.map Token.lexeme, l.Braceless := by
  have hlaid := tokensFrom_eq_ok_iff.1 h
  clear h
  induction hlaid with
  | nil => exact List.forall_mem_nil _
  | blank _ _ ih => exact ih
  | token hl _ _ ih => exact List.forall_mem_cons.2 ⟨hl.braceless.resolved, ih⟩

end Phrasebook.Condition
