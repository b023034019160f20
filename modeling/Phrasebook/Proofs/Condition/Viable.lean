import Phrasebook.Proofs.Condition.Recognition

/-! Viable beginnings of conditions. The parser gets through a row of lexemes just when some
condition begins with it (`viable_iff_readMany`), because whatever was begun can be closed. So a
source that is no condition is malformed, with one exception: a whole number with too many digits is
refused as such where a short number would still be viable (`parse_eq_tooManyDigits_iff`). -/

namespace Phrasebook.Condition

/-- Some condition begins with these lexemes. -/
def Viable (ls : List Lexeme) : Prop :=
  ∃ rest e, DerivesCondition (ls ++ rest) e ∧ ∀ l ∈ ls ++ rest, l.Short

/-! ### Closing what was begun -/

namespace State

/-- The lexemes that close what was begun: an operand if one is due, and the parentheses. -/
def completion (s : State) : List Lexeme :=
  (match s.operand with
    | some _ => []
    | none => [.name "null".toList]) ++ List.replicate s.outer.length .closeParen

/-- Behind an operand, closing parentheses lead to the end. -/
theorem finish_of_behind (outer : List Level) (level : Level) (last : Expr) :
    ∃ s e, readMany ⟨outer, level, some last⟩ (List.replicate outer.length .closeParen) = .ok s ∧
      s.finish = .ok e := by
  induction outer generalizing level last with
  | nil => exact ⟨⟨[], level, some last⟩, level.close last, rfl, rfl⟩
  | cons around outer ih =>
      have hclose : read ⟨around :: outer, level, some last⟩ .closeParen =
          .ok (withOperand outer around (level.close last)) := rfl
      obtain ⟨s, e, hrest, hfinish⟩ := ih
        ⟨around.alternatives, around.conjuncts, around.nots, around.left, 0⟩
        (Expr.negated around.bangs (level.close last))
      exact ⟨s, e, (readMany_cons hclose).trans hrest, hfinish⟩

/-- From every state its completion leads to the end of a condition. -/
theorem finish_of_completion (s : State) :
    ∃ s' e, s.readMany s.completion = .ok s' ∧ s'.finish = .ok e := by
  obtain ⟨outer, level, last⟩ := s
  cases last with
  | some last => exact finish_of_behind outer level last
  | none =>
      have hnull : read ⟨outer, level, none⟩ (.name "null".toList) =
          .ok (withOperand outer level (.literal .null)) :=
        readOperand_of_operand .null trivial outer level
      obtain ⟨s', e, hrest, hfinish⟩ := finish_of_behind outer
        ⟨level.alternatives, level.conjuncts, level.nots, level.left, 0⟩
        (Expr.negated level.bangs (.literal .null))
      exact ⟨s', e, (readMany_cons hnull).trans hrest, hfinish⟩

theorem exists_readMany_of_append {s s' : State} {ls ms : List Lexeme}
    (h : s.readMany (ls ++ ms) = .ok s') :
    ∃ next, s.readMany ls = .ok next ∧ next.readMany ms = .ok s' := by
  induction ls generalizing s with
  | nil => exact ⟨s, rfl, h⟩
  | cons l ls ih =>
      obtain ⟨mid, hl, hrest⟩ := exists_read_of_readMany h
      obtain ⟨next, hls, hms⟩ := ih hrest
      exact ⟨next, (readMany_cons hl).trans hls, hms⟩

end State

/-- Behind what the parser has got through, the completion of its state makes a condition. -/
theorem derives_completion {ls : List Lexeme} {s : State} (h : State.start.readMany ls = .ok s) :
    ∃ e, DerivesCondition (ls ++ s.completion) e ∧ ∀ l ∈ ls ++ s.completion, l.Short := by
  obtain ⟨s', e, hrest, hfinish⟩ := s.finish_of_completion
  exact ⟨e, readMany_start_iff.1 ⟨s', (State.readMany_append _ h).trans hrest, hfinish⟩⟩

/-- **The parser gets through a row of lexemes just when a condition begins with it.** -/
theorem viable_iff_readMany {ls : List Lexeme} :
    Viable ls ↔ ∃ s, State.start.readMany ls = .ok s := by
  constructor
  · rintro ⟨rest, e, hderives, hshort⟩
    obtain ⟨s, hs, -⟩ := readMany_start_iff.2 ⟨hderives, hshort⟩
    obtain ⟨next, hnext, -⟩ := State.exists_readMany_of_append hs
    exact ⟨next, hnext⟩
  · rintro ⟨s, hs⟩
    obtain ⟨e, hderives, hshort⟩ := derives_completion hs
    exact ⟨s.completion, e, hderives, hshort⟩

/-! ### Oversized numbers -/

/-- A short number of the same sign, which stands for an oversized one. -/
def zero (negative : Bool) : Lexeme :=
  .number negative ['0'] none

theorem read_oversized (outer : List Level) (level : Level) (negative : Bool) {whole : List Char}
    (hlong : Reading.maxDigits < whole.length) :
    State.read ⟨outer, level, none⟩ (.number negative whole none) =
      .error (.tooManyDigits whole.length) := by
  simp [State.read, State.readOperand, operand, numberValue, hlong, Except.map]

/-- A number is refused for its digits where a short one would be read. -/
theorem read_eq_tooManyDigits_iff {s : State} {l : Lexeme} {count : Nat} :
    s.read l = .error (.tooManyDigits count) ↔ ∃ negative whole, l = .number negative whole none ∧
      Reading.maxDigits < whole.length ∧ whole.length = count ∧
        ∃ next, s.read (zero negative) = .ok next := by
  obtain ⟨outer, level, last⟩ := s
  constructor
  · intro h
    have hlong := not_short_of_read h
    cases l with
    | number negative whole fraction =>
        cases fraction with
        | some digits => exact absurd trivial hlong
        | none =>
            have hlong : Reading.maxDigits < whole.length := Nat.lt_of_not_le hlong
            cases last with
            | some e => cases outer <;> cases h
            | none =>
                rw [read_oversized outer level negative hlong, Except.error.injEq,
                  Refusal.tooManyDigits.injEq] at h
                exact ⟨negative, whole, rfl, hlong, h, _, rfl⟩
    | _ => exact absurd trivial hlong
  · rintro ⟨negative, whole, rfl, hlong, rfl, next, hnext⟩
    cases last with
    | some e => cases outer <;> cases hnext
    | none => exact read_oversized outer level negative hlong

/-- A row of tokens is refused at its first token that cannot be read. -/
theorem readAll_eq_error_iff {s : State} {ts : List Token} {r : Refusal} {position : Nat} :
    readAll s ts = .error (r, position) ↔ ∃ front t back mid, ts = front ++ t :: back ∧
      s.readMany (front.map Token.lexeme) = .ok mid ∧ mid.read t.lexeme = .error r ∧
        t.position = position := by
  induction ts generalizing s with
  | nil => simp [readAll]
  | cons t ts ih =>
      rw [readAll]
      cases ht : s.read t.lexeme with
      | error x =>
          simp only [Except.error.injEq, Prod.mk.injEq]
          constructor
          · rintro ⟨rfl, rfl⟩
            exact ⟨[], t, ts, s, rfl, rfl, ht, rfl⟩
          · rintro ⟨front, t', back, mid, hsplit, hmid, hread, hposition⟩
            cases front with
            | nil =>
                cases hsplit
                cases hmid
                rw [ht, Except.error.injEq] at hread
                exact ⟨hread, hposition⟩
            | cons first front =>
                cases hsplit
                obtain ⟨next, hnext, -⟩ := State.exists_read_of_readMany hmid
                rw [ht] at hnext
                cases hnext
      | ok next =>
          simp only [ih]
          constructor
          · rintro ⟨front, t', back, mid, rfl, hmid, hread, hposition⟩
            exact ⟨t :: front, t', back, mid, rfl, (State.readMany_cons ht).trans hmid, hread,
              hposition⟩
          · rintro ⟨front, t', back, mid, hsplit, hmid, hread, hposition⟩
            cases front with
            | nil =>
                cases hsplit
                cases hmid
                rw [ht] at hread
                cases hread
            | cons first front =>
                cases hsplit
                rw [List.map_cons, State.readMany_cons ht] at hmid
                exact ⟨front, t', back, mid, rfl, hmid, hread, hposition⟩

/-! ### What becomes of a source -/

/-- A source is a condition with this tree. -/
def Reads (source : String) (e : Expr) : Prop :=
  ∃ ts, tokens source = .ok ts ∧ DerivesCondition (ts.map Token.lexeme) e ∧
    ∀ l ∈ ts.map Token.lexeme, l.Short

/-- A source has a whole number of this many digits, too many to be read, where a short number would
be viable. -/
def Oversized (source : String) (count : Nat) : Prop :=
  ∃ front negative whole position back,
    tokens source = .ok (front ++ ⟨.number negative whole none, position⟩ :: back) ∧
      Reading.maxDigits < whole.length ∧ whole.length = count ∧
        Viable (front.map Token.lexeme ++ [zero negative])

theorem parse_eq_ok_iff_reads {source : String} {e : Expr} :
    parse source = .ok e ↔ Reads source e := by
  rw [parse_eq_ok_iff]
  simp only [parseTokens_eq_ok_iff, Reads]

theorem parseTokens_eq_tooManyDigits_iff {ts : List Token} {stop count position : Nat} :
    parseTokens ts stop = .error (.tooManyDigits count, position) ↔
      readAll .start ts = .error (.tooManyDigits count, position) := by
  unfold parseTokens
  cases ts with
  | nil => simp [readAll]
  | cons t ts =>
      rw [List.isEmpty_cons, if_neg Bool.false_ne_true]
      cases hread : readAll .start (t :: ts) with
      | error refused => simp
      | ok s =>
          refine iff_of_false (fun h => ?_) (fun h => ?_)
          · cases hfinish : s.finish with
            | error reason =>
                simp only [hfinish] at h
                cases h
            | ok e =>
                simp only [hfinish] at h
                cases h
          · cases h

/-- **What a source is refused for besides its syntax.** -/
theorem parse_eq_tooManyDigits_iff {source : String} {count : Nat} :
    parse source = .error (.tooManyDigits count) ↔ Oversized source count := by
  have hparse : parse source = .error (.tooManyDigits count) ↔ ∃ ts position,
      tokens source = .ok ts ∧ readAll .start ts = .error (.tooManyDigits count, position) := by
    have htokenize : ∀ ts, tokenize source = .ok ts ↔ tokens source = .ok ts := fun _ =>
      mapError_eq_ok_iff
    have hread : ∀ ts position, readAll .start ts = .error (.tooManyDigits count, position) ↔
        parseTokens ts source.length = .error (.tooManyDigits count, position) := fun _ _ =>
      parseTokens_eq_tooManyDigits_iff.symm
    simp only [← htokenize, hread]
    unfold parse
    cases tokenize source with
    | error u => simp
    | ok ts =>
        cases hparse : parseTokens ts source.length with
        | ok e => simp [hparse]
        | error refused =>
            obtain ⟨refusal, position⟩ := refused
            cases refusal <;> simp [hparse]
  rw [hparse]
  constructor
  · rintro ⟨ts, position, hts, hread⟩
    obtain ⟨front, ⟨l, place⟩, back, mid, rfl, hmid, hl, -⟩ := readAll_eq_error_iff.1 hread
    obtain ⟨negative, whole, rfl, hlong, hcount, next, hnext⟩ := read_eq_tooManyDigits_iff.1 hl
    refine ⟨front, negative, whole, place, back, hts, hlong, hcount,
      viable_iff_readMany.2 ⟨next, ?_⟩⟩
    rw [State.readMany_append _ hmid, State.readMany_cons hnext, State.readMany]
  · rintro ⟨front, negative, whole, place, back, hts, hlong, hcount, hviable⟩
    obtain ⟨s, hs⟩ := viable_iff_readMany.1 hviable
    obtain ⟨mid, hmid, hzero⟩ := State.exists_readMany_of_append hs
    obtain ⟨next, hnext, -⟩ := State.exists_read_of_readMany hzero
    exact ⟨_, place, hts, readAll_eq_error_iff.2 ⟨front, _, back, mid, rfl, hmid,
      read_eq_tooManyDigits_iff.2 ⟨negative, whole, rfl, hlong, hcount, next, hnext⟩, rfl⟩⟩

end Phrasebook.Condition
