import Phrasebook.Proofs.Condition.Completeness

/-! The parser recognizes the grammar. A token list has a tree just when it is a condition without
an oversized number (`parseTokens_eq_ok_iff`), and such a number is all that can make the parser
fail without a syntax error (`exists_not_short_of_parseTokens`). -/

namespace Phrasebook.Condition

/-! ### Oversized numbers -/

theorem not_short_of_operand {l : Lexeme} {count : Nat}
    (h : operand l = .error (.tooManyDigits count)) : ¬ l.Short := by
  cases l with
  | number negative whole fraction =>
      cases fraction with
      | some digits => cases h
      | none =>
          intro hshort
          have hlong : ¬ Reading.maxDigits < whole.length := Nat.not_lt.2 hshort
          simp [operand, numberValue, hlong, Except.map] at h
  | field body =>
      unfold operand at h
      by_cases hblank : (Text.trim body).isEmpty <;> simp [hblank] at h
  | name spelling =>
      unfold operand at h
      cases hvalue : namedValue? (String.ofList spelling) <;> simp [hvalue] at h
  | _ => cases h

/-- Only an oversized number is refused for its digits. -/
theorem not_short_of_read {s : State} {l : Lexeme} {count : Nat}
    (h : s.read l = .error (.tooManyDigits count)) : ¬ l.Short := by
  obtain ⟨outer, level, last⟩ := s
  cases last with
  | none =>
      simp only [State.read] at h
      unfold State.readOperand at h
      split at h
      · cases h
      · split at h <;> cases h
      · cases h
      · cases hoperand : operand l with
        | ok e =>
            rw [hoperand] at h
            cases h
        | error r =>
            rw [hoperand] at h
            cases h
            exact not_short_of_operand hoperand
  | some e =>
      simp only [State.read] at h
      unfold State.readOperator at h
      split at h
      · split at h <;> cases h
      · cases h
      · split at h <;> cases h

theorem exists_not_short_of_readAll {s : State} {ts : List Token} {count position : Nat}
    (h : readAll s ts = .error (.tooManyDigits count, position)) :
    ∃ t ∈ ts, ¬ t.lexeme.Short := by
  induction ts generalizing s with
  | nil => cases h
  | cons t ts ih =>
      unfold readAll at h
      cases ht : s.read t.lexeme with
      | ok next =>
          rw [ht] at h
          obtain ⟨t', ht', hlong⟩ := ih h
          exact ⟨t', List.mem_cons_of_mem _ ht', hlong⟩
      | error r =>
          rw [ht] at h
          obtain ⟨rfl, rfl⟩ := Prod.mk.inj (Except.error.inj h)
          exact ⟨t, List.mem_cons_self, not_short_of_read ht⟩

/-! ### The parser and the grammar -/

theorem finish_of_behindWhole {s : State} {e : Expr} (h : s.BehindWhole [] e) :
    s.finish = .ok e := by
  obtain ⟨level, last, rfl, rfl⟩ := h
  rfl

/-- Reading from the start ends with a tree just behind the conditions. -/
theorem readMany_start_iff {ls : List Lexeme} {e : Expr} :
    (∃ s, State.start.readMany ls = .ok s ∧ s.finish = .ok e) ↔
      DerivesCondition ls e ∧ ∀ l ∈ ls, l.Short := by
  constructor
  · rintro ⟨s, hs, hfinish⟩
    exact ⟨derives_of_finish (spelled_readMany State.spelled_start hs) hfinish,
      short_of_readMany hs⟩
  · rintro ⟨h, hshort⟩
    obtain ⟨s, hs, hwhole⟩ := h.read hshort []
    exact ⟨s, hs, finish_of_behindWhole hwhole⟩

theorem mapError_eq_ok_iff {ε ε' α : Type} {f : ε → ε'} {x : Except ε α} {a : α} :
    x.mapError f = .ok a ↔ x = .ok a := by
  cases x with
  | ok a' =>
      constructor <;> intro h <;> cases h <;> rfl
  | error r =>
      constructor <;> intro h <;> cases h

theorem parseTokens_eq_ok_iff {ts : List Token} {stop : Nat} {e : Expr} :
    parseTokens ts stop = .ok e ↔
      DerivesCondition (ts.map Token.lexeme) e ∧ ∀ l ∈ ts.map Token.lexeme, l.Short := by
  rw [← readMany_start_iff]
  unfold parseTokens
  cases ts with
  | nil =>
      constructor
      · intro h
        cases h
      · rintro ⟨s, hs, hfinish⟩
        cases hs
        cases hfinish
  | cons t ts =>
      rw [List.isEmpty_cons, if_neg Bool.false_ne_true]
      cases hread : readAll .start (t :: ts) with
      | ok s =>
          rw [State.readAll_eq_ok_iff] at hread
          show s.finish.mapError _ = .ok e ↔ _
          rw [mapError_eq_ok_iff, hread]
          simp
      | error refused =>
          constructor
          · intro h
            cases h
          · rintro ⟨s, hs, -⟩
            rw [← State.readAll_eq_ok_iff, hread] at hs
            cases hs

/-- A condition is read in two passes. -/
theorem parse_eq_ok_iff {source : String} {e : Expr} :
    parse source = .ok e ↔ ∃ ts, tokens source = .ok ts ∧ parseTokens ts source.length = .ok e := by
  have htokenize : ∀ ts, tokenize source = .ok ts ↔ tokens source = .ok ts := fun _ =>
    mapError_eq_ok_iff
  simp only [← htokenize]
  unfold parse
  cases tokenize source with
  | error u => simp
  | ok ts =>
      cases hparse : parseTokens ts source.length with
      | ok e' => simp [hparse]
      | error refused =>
          obtain ⟨refusal, position⟩ := refused
          cases refusal <;> simp [hparse]

/-- A parse that fails for the digits of a number has met an oversized one. -/
theorem exists_not_short_of_parseTokens {ts : List Token} {stop count position : Nat}
    (h : parseTokens ts stop = .error (.tooManyDigits count, position)) :
    ∃ t ∈ ts, ¬ t.lexeme.Short := by
  unfold parseTokens at h
  split at h
  · cases h
  · split at h
    · next refused hread =>
        cases h
        exact exists_not_short_of_readAll hread
    · next s hread =>
        cases hfinish : s.finish <;> rw [hfinish] at h <;> cases h

/-- **The parser accepts exactly the grammar.** Of tokens without oversized numbers it returns a
tree just when the grammar derives them with that tree, there is no second tree, and all other token
lists are refused with a syntax error. -/
theorem parseTokens_iff_derives (ts : List Token) (stop : Nat)
    (hshort : ∀ t ∈ ts, t.lexeme.Short) :
    (∀ e, parseTokens ts stop = .ok e ↔ DerivesCondition (ts.map Token.lexeme) e) ∧
      (∀ e e', DerivesCondition (ts.map Token.lexeme) e →
        DerivesCondition (ts.map Token.lexeme) e' → e = e') ∧
      ((∀ e, ¬ DerivesCondition (ts.map Token.lexeme) e) →
        ∃ r position, parseTokens ts stop = .error (.reason r, position)) := by
  have haccepts : ∀ e, parseTokens ts stop = .ok e ↔ DerivesCondition (ts.map Token.lexeme) e := by
    intro e
    rw [parseTokens_eq_ok_iff, and_iff_left (List.forall_mem_map.2 hshort)]
  refine ⟨haccepts, ?_, ?_⟩
  · intro e e' he he'
    have heq := (haccepts e).2 he
    rw [(haccepts e').2 he'] at heq
    exact (Except.ok.inj heq).symm
  · intro hnone
    cases hparse : parseTokens ts stop with
    | ok e => exact absurd ((haccepts e).1 hparse) (hnone e)
    | error refused =>
        obtain ⟨refusal, position⟩ := refused
        cases refusal with
        | reason r => exact ⟨r, position, rfl⟩
        | tooManyDigits count =>
            obtain ⟨t, ht, hlong⟩ := exists_not_short_of_parseTokens hparse
            exact absurd (hshort t ht) hlong

/-- The tokens of `not !{a} == 1 && ('x' < {b})`. -/
def mixedTokens : List Token :=
  [⟨.operator .not, 0⟩, ⟨.operator .bang, 4⟩, ⟨.field ['a'], 5⟩, ⟨.operator (.compare .equal), 9⟩,
    ⟨.number false ['1'] none, 12⟩, ⟨.operator (.connect .and), 14⟩, ⟨.openParen, 17⟩,
    ⟨.quoted '\'' ['x'], 18⟩, ⟨.operator (.compare .less), 22⟩, ⟨.field ['b'], 24⟩,
    ⟨.closeParen, 27⟩]

theorem parseTokens_iff_derives_mixed :
    (∀ t ∈ mixedTokens, t.lexeme.Short) ∧
      DerivesCondition (mixedTokens.map Token.lexeme)
        (.chain .and
          [.negation (.comparison .equal (.negation (.field "a")) (.literal (.int 1))),
            .comparison .less (.literal (.text "x")) (.field "b")]) := by
  have hshort : ∀ t ∈ mixedTokens, t.lexeme.Short := by
    simp [mixedTokens, Lexeme.Short, Reading.maxDigits]
  exact ⟨hshort, ((parseTokens_iff_derives mixedTokens 28 hshort).1 _).1 rfl⟩

end Phrasebook.Condition
