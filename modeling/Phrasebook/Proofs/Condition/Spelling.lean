import Phrasebook.Condition.Eval
import Phrasebook.Proofs.Number.Exact

/-! Numbers that are spelled differently. An integer and a floating-point number that is equal to
it are two spellings of one number, and so are the two zeros. The canonical spelling of a number is
the integer that it is, if it is one. All that is ever done with a value depends on its canonical
spelling: the text that it has in a phrase, whether it holds as a condition, and every comparison
with another value (`Comparison.compare_canonical`). -/

namespace Phrasebook

namespace Value

/-- The canonical spelling of a value: a number that is an integer is written as one, and NaN has no
mark. -/
def canonical : Value → Value
  | .real x =>
      match x.toInt? with
      | some n => .int n
      | none => .real (if x.isNaN then .nan 0 else x)
  | v => v

/-- Values that are the same but for the spelling of a number. -/
inductive Respelled : Value → Value → Prop
  | refl (v : Value) : Respelled v v
  | number {v w : Value} (left : v.isNumber = true) (right : w.isNumber = true)
      (same : v.same w = true) : Respelled v w
  | nan (m n : Nat) : Respelled (.real (.nan m)) (.real (.nan n))

/-! ### Canonical numbers -/

section

variable {x y : Binary64} {n : Int}

theorem canonical_eq_int_iff : canonical (.real x) = .int n ↔ x.eqInt n = true := by
  rw [← Binary64.toInt?_eq_some_iff, canonical]
  cases x.toInt? <;> simp

theorem canonical_eq_nan_iff : canonical (.real x) = .real (.nan 0) ↔ x.isNaN = true := by
  cases x with
  | nan mark => exact iff_of_true rfl rfl
  | infinite negative =>
      refine iff_of_false (fun h => ?_) Bool.false_ne_true
      cases h
  | finite negative units fits =>
      refine iff_of_false (fun h => ?_) Bool.false_ne_true
      rw [canonical] at h
      split at h
      · cases h
      · cases h

/-- A floating-point number is an integer or keeps its spelling, unless it is NaN. -/
theorem canonical_real_cases (x : Binary64) :
    (∃ n, x.eqInt n = true ∧ canonical (.real x) = .int n) ∨
      (x.isNaN = false ∧ x.toInt? = none ∧ canonical (.real x) = .real x) ∨ ∃ m, x = .nan m := by
  cases hwhole : x.toInt? with
  | some n =>
      have hequal := Binary64.toInt?_eq_some_iff.1 hwhole
      exact .inl ⟨n, hequal, canonical_eq_int_iff.2 hequal⟩
  | none =>
      rw [canonical, hwhole]
      cases x with
      | nan mark => exact .inr (.inr ⟨mark, rfl⟩)
      | _ => exact .inr (.inl ⟨rfl, rfl, rfl⟩)

/-- Floating-point numbers have one spelling just if they are at one place in the order. -/
theorem canonical_real_eq_iff : canonical (.real x) = canonical (.real y) ↔ x.rank = y.rank := by
  rcases canonical_real_cases x with ⟨n, hn, hx⟩ | ⟨hnumber, hwhole, hx⟩ | ⟨m, rfl⟩
  · rw [hx, eq_comm, canonical_eq_int_iff]
    constructor
    · intro hy
      rw [(Binary64.eqInt_iff.1 hn).2, (Binary64.eqInt_iff.1 hy).2]
    · intro hrank
      rwa [← Binary64.eqInt_congr hrank]
  · constructor
    · intro h
      rcases canonical_real_cases y with ⟨n, -, hy⟩ | ⟨-, -, hy⟩ | ⟨m, rfl⟩
      · rw [hx, hy] at h
        cases h
      · rw [hx, hy] at h
        cases h
        rfl
      · rw [hx] at h
        cases h
        cases hnumber
    · intro hrank
      rw [Binary64.eq_of_rank hrank hnumber hwhole]
  · have hnan : canonical (.real (.nan m)) = .real (.nan 0) := rfl
    rw [hnan, eq_comm, canonical_eq_nan_iff, ← Binary64.rank_eq_none_iff]
    exact eq_comm

end

theorem canonical_of_not_isNumber {v : Value} (h : v.isNumber = false) : v.canonical = v := by
  cases v with
  | real x => cases h
  | _ => rfl

/-- What does not tell numbers apart does not look at their spelling. -/
theorem canonical_congr {α : Type} {f : Value → α} (h : ∀ n x, f (.int n) = f (.real x))
    (v : Value) : f v.canonical = f v := by
  cases v with
  | real x =>
      rcases canonical_real_cases x with ⟨n, -, hx⟩ | ⟨-, -, hx⟩ | ⟨m, rfl⟩
      · rw [hx, h n x]
      · rw [hx]
      · exact (h 0 _).symm.trans (h 0 _)
  | _ => rfl

@[simp]
theorem isNumber_canonical (v : Value) : v.canonical.isNumber = v.isNumber :=
  canonical_congr (fun _ _ => rfl) v

@[simp]
theorem isText_canonical (v : Value) : v.canonical.isText = v.isText :=
  canonical_congr (fun _ _ => rfl) v

@[simp]
theorem isNull_canonical (v : Value) : v.canonical.isNull = v.isNull :=
  canonical_congr (fun _ _ => rfl) v

@[simp]
theorem isNumeric_canonical (v : Value) : v.canonical.isNumeric = v.isNumeric :=
  canonical_congr (fun _ _ => rfl) v

/-! ### What a value is read for -/

/-- Numbers have one text, however they are spelled. -/
@[simp]
theorem shown_canonical (v : Value) : v.canonical.shown = v.shown := by
  cases v with
  | real x =>
      rcases canonical_real_cases x with ⟨n, hn, hx⟩ | ⟨-, -, hx⟩ | ⟨m, rfl⟩
      · rw [hx, shown, Binary64.toInt?_eq_some_iff.2 hn]
        rfl
      · rw [hx]
      · rfl
  | _ => rfl

@[simp]
theorem holds_canonical (v : Value) : v.canonical.holds = v.holds := by
  cases v with
  | real x =>
      rcases canonical_real_cases x with ⟨n, hn, hx⟩ | ⟨-, -, hx⟩ | ⟨m, rfl⟩
      · have hzero : x.isZero = (n == 0) := by
          rw [Binary64.isZero_eq_eqInt_zero, Bool.eq_iff_iff, ← Binary64.toInt?_eq_some_iff,
            Binary64.toInt?_eq_some_iff.2 hn]
          simp
        have hnumber : x.isNaN = false := by
          cases x with
          | nan mark => cases hn
          | _ => rfl
        rw [hx]
        show (!(n == 0)) = (!x.isNaN && !x.isZero)
        rw [hnumber, hzero, Bool.not_false, Bool.true_and]
      · rw [hx]
      · rfl
  | _ => rfl

theorem holds_congr {v w : Value} (h : v.canonical = w.canonical) : v.holds = w.holds := by
  rw [← holds_canonical, h, holds_canonical]

theorem shown_congr {v w : Value} (h : v.canonical = w.canonical) : v.shown = w.shown := by
  rw [← shown_canonical, h, shown_canonical]

/-- Numbers convert to one place in the order, however they are spelled. -/
theorem toNumber_canonical_cases (v : Value) :
    (∃ e, v.toNumber = .error e ∧ v.canonical.toNumber = .error e) ∨
      ∃ x y, v.toNumber = .ok x ∧ v.canonical.toNumber = .ok y ∧ y.rank = x.rank := by
  have hself : v.canonical.toNumber = v.toNumber →
      (∃ e, v.toNumber = .error e ∧ v.canonical.toNumber = .error e) ∨
        ∃ x y, v.toNumber = .ok x ∧ v.canonical.toNumber = .ok y ∧ y.rank = x.rank := by
    intro h
    rw [h]
    cases v.toNumber with
    | error e => exact .inl ⟨e, rfl, rfl⟩
    | ok x => exact .inr ⟨x, x, rfl, rfl, rfl⟩
  cases v with
  | real x =>
      rcases canonical_real_cases x with ⟨n, hn, hx⟩ | ⟨-, -, hx⟩ | ⟨m, rfl⟩
      · obtain ⟨y, hy, hrank⟩ := Binary64.exists_ofInt?_of_eqInt hn
        refine .inr ⟨x, y, rfl, ?_, hrank⟩
        rw [hx, toNumber, hy]
        rfl
      · exact hself (by rw [hx])
      · exact .inr ⟨.nan m, .nan 0, rfl, rfl, rfl⟩
  | _ => exact hself rfl

/-- Numbers are equal if they are one number, and not NaN. -/
theorem same_iff_canonical {v w : Value} (hv : v.isNumber = true) (hw : w.isNumber = true) :
    v.same w = true ↔ v.canonical = w.canonical ∧ v.canonical ≠ .real (.nan 0) := by
  cases v with
  | int n =>
      cases w with
      | int m => simp [same, canonical]
      | real y =>
          rw [same, ← canonical_eq_int_iff, eq_comm]
          exact (and_iff_left nofun).symm
      | _ => cases hw
  | real x =>
      cases w with
      | int m =>
          rw [same, ← canonical_eq_int_iff]
          refine ⟨fun h => ⟨h, ?_⟩, And.left⟩
          rw [h]
          exact nofun
      | real y =>
          rw [same, Binary64.eq_iff, canonical_real_eq_iff, ne_eq, canonical_eq_nan_iff,
            Bool.not_eq_true]
      | _ => cases hw
  | _ => cases hv

theorem Respelled.canonical {v w : Value} (h : Respelled v w) : v.canonical = w.canonical := by
  cases h with
  | refl => rfl
  | number left right same => exact ((same_iff_canonical left right).1 same).1
  | nan m n => rfl

@[simp]
theorem canonical_canonical (v : Value) : v.canonical.canonical = v.canonical := by
  cases v with
  | real x =>
      rcases canonical_real_cases x with ⟨n, -, hx⟩ | ⟨-, -, hx⟩ | ⟨m, rfl⟩
      · rw [hx]
        rfl
      · rw [hx, hx]
      · rfl
  | _ => rfl

/-! ### Comparisons -/

theorem isNumber_congr {v w : Value} (h : v.shape = w.shape) : v.isNumber = w.isNumber := by
  cases v <;> cases w <;> simp [shape, isNumber] at h ⊢

/-- A number and what is no number are not identical. -/
theorem strictEq_of_isNumber_ne {v w : Value} (h : v.isNumber ≠ w.isNumber) :
    v.strictEq w = false := by
  have hboth : ¬ (v.isNumber && w.isNumber) = true := by
    intro hboth
    rw [Bool.and_eq_true] at hboth
    exact h (hboth.1.trans hboth.2.symm)
  have hshape : (v.shape == w.shape) = false :=
    beq_eq_false_iff_ne.2 fun hs => h (isNumber_congr hs)
  rw [strictEq, if_neg hboth, hshape, Bool.false_and]

theorem strictEq_canonical (v w : Value) : v.canonical.strictEq w.canonical = v.strictEq w := by
  by_cases hsort : v.isNumber = w.isNumber
  · cases hv : v.isNumber with
    | false =>
        rw [canonical_of_not_isNumber hv, canonical_of_not_isNumber (hsort ▸ hv)]
    | true =>
        have hw : w.isNumber = true := hsort ▸ hv
        rw [strictEq, strictEq, isNumber_canonical, isNumber_canonical, hv, hw, Bool.and_self,
          if_pos rfl, if_pos rfl, Bool.eq_iff_iff, same_iff_canonical hv hw,
          same_iff_canonical ((isNumber_canonical v).trans hv) ((isNumber_canonical w).trans hw),
          canonical_canonical, canonical_canonical]
  · rw [strictEq_of_isNumber_ne hsort, strictEq_of_isNumber_ne]
    rwa [isNumber_canonical, isNumber_canonical]

end Value

/-- A test of two numbers that looks at their places in the order only. -/
def Binary64.ByRank (test : Binary64 → Binary64 → Bool) : Prop :=
  ∀ x x' y y' : Binary64, x.rank = x'.rank → y.rank = y'.rank → test x y = test x' y'

namespace Binary64.ByRank

theorem eq : ByRank Binary64.eq := by
  intro x x' y y' hx hy
  rw [Binary64.eq, Binary64.eq, hx, hy]

theorem lt : ByRank Binary64.lt := by
  intro x x' y y' hx hy
  rw [Binary64.lt, Binary64.lt, hx, hy]

theorem le : ByRank Binary64.le := by
  intro x x' y y' hx hy
  rw [Binary64.le, Binary64.le, hx, hy]

theorem flip {test : Binary64 → Binary64 → Bool} (h : ByRank test) :
    ByRank fun x y => test y x :=
  fun x x' y y' hx hy => h y y' x x' hy hx

end Binary64.ByRank

namespace Value

variable {test : Binary64 → Binary64 → Bool}

theorem asNumbers_canonical (htest : Binary64.ByRank test) (v w : Value) :
    asNumbers test v.canonical w.canonical = asNumbers test v w := by
  rcases toNumber_canonical_cases v with ⟨e, hv, hv'⟩ | ⟨x, x', hv, hv', hx⟩
  · simp only [asNumbers, hv, hv']
  · rcases toNumber_canonical_cases w with ⟨e, hw, hw'⟩ | ⟨y, y', hw, hw', hy⟩
    · simp only [asNumbers, hv, hv', hw, hw']
    · simp only [asNumbers, hv, hv', hw, hw', htest _ _ _ _ hx hy]

theorem isNumber_of_isText {v : Value} (h : v.isText = true) : v.isNumber = false := by
  cases v with
  | text s => rfl
  | _ => cases h

theorem isNumber_of_not_isNumeric {v : Value} (h : ¬ v.isNumeric = true) : v.isNumber = false := by
  cases v with
  | int n => exact absurd rfl h
  | real x => exact absurd rfl h
  | _ => rfl

theorem looseEq_canonical (v w : Value) : v.canonical.looseEq w.canonical = v.looseEq w := by
  unfold looseEq
  simp only [isNull_canonical, isText_canonical, isNumeric_canonical]
  by_cases hnull : (v.isNull || w.isNull) = true
  · rw [if_pos hnull, if_pos hnull]
  · rw [if_neg hnull, if_neg hnull]
    by_cases htext : (v.isText && w.isText) = true
    · rw [if_pos htext, if_pos htext]
      rw [Bool.and_eq_true] at htext
      rw [canonical_of_not_isNumber (isNumber_of_isText htext.1),
        canonical_of_not_isNumber (isNumber_of_isText htext.2)]
    · rw [if_neg htext, if_neg htext]
      by_cases hnumeric : (v.isNumeric || w.isNumeric) = true
      · rw [if_pos hnumeric, if_pos hnumeric, asNumbers_canonical Binary64.ByRank.eq]
      · rw [if_neg hnumeric, if_neg hnumeric]
        rw [Bool.or_eq_true, not_or] at hnumeric
        rw [canonical_of_not_isNumber (isNumber_of_not_isNumeric hnumeric.1),
          canonical_of_not_isNumber (isNumber_of_not_isNumeric hnumeric.2)]

theorem ordered_of_not_isText {ofTexts : String → String → Bool} {v w : Value}
    (h : ¬ (v.isText && w.isText) = true) : ordered ofTexts test v w = asNumbers test v w := by
  cases v with
  | text s =>
      cases w with
      | text t => exact absurd rfl h
      | _ => rfl
  | _ => rfl

theorem ordered_canonical (ofTexts : String → String → Bool) (htest : Binary64.ByRank test)
    (v w : Value) : ordered ofTexts test v.canonical w.canonical = ordered ofTexts test v w := by
  by_cases htext : (v.isText && w.isText) = true
  · rw [Bool.and_eq_true] at htext
    rw [canonical_of_not_isNumber (isNumber_of_isText htext.1),
      canonical_of_not_isNumber (isNumber_of_isText htext.2)]
  · rw [ordered_of_not_isText htext, ordered_of_not_isText, asNumbers_canonical htest]
    rwa [isText_canonical, isText_canonical]

end Value

namespace Condition

/-- **No comparison tells two spellings of a number apart.** -/
theorem Comparison.compare_canonical (op : Comparison) (v w : Value) :
    op.compare v.canonical w.canonical = op.compare v w := by
  cases op with
  | identical => exact congrArg Except.ok (Value.strictEq_canonical v w)
  | notIdentical => exact congrArg (fun b => Except.ok !b) (Value.strictEq_canonical v w)
  | equal => exact Value.looseEq_canonical v w
  | notEqual => exact congrArg (Except.map (!·)) (Value.looseEq_canonical v w)
  | less => exact Value.ordered_canonical _ Binary64.ByRank.lt v w
  | atMost => exact Value.ordered_canonical _ Binary64.ByRank.le v w
  | greater => exact Value.ordered_canonical _ Binary64.ByRank.lt.flip v w
  | atLeast => exact Value.ordered_canonical _ Binary64.ByRank.le.flip v w

theorem Comparison.compare_congr (op : Comparison) {v v' w w' : Value}
    (hleft : v.canonical = v'.canonical) (hright : w.canonical = w'.canonical) :
    op.compare v w = op.compare v' w' := by
  rw [← op.compare_canonical, hleft, hright, op.compare_canonical]

theorem Connective.decides_congr (op : Connective) {v w : Value}
    (h : v.canonical = w.canonical) : op.decides v = op.decides w := by
  cases op with
  | and => exact congrArg (!·) (Value.holds_congr h)
  | or => exact Value.holds_congr h

end Condition

end Phrasebook
