import Phrasebook.Proofs.Condition.Comparing
import Phrasebook.Proofs.Number.Numeral

/-! Comparisons of integers. Strict equality compares integers as they are. All other comparisons
convert both first, so they compare the rounded integers and have no answer if one is out of range
(`Comparison.compare_int`); equality with the text of an integer compares the rounded integers too,
but no text is too large (`Comparison.compare_toString`). Rounding never reverses two integers, so
the answers are those for the integers themselves just if the two are in range and stay apart when
they are rounded (`Expr.eval_integers`). -/

namespace Phrasebook

namespace Binary64

/-- An integer is in the range of floating-point numbers. -/
def Converts (n : Int) : Prop :=
  n.natAbs + 2 ^ 970 < 2 ^ 1024

instance (n : Int) : Decidable (Converts n) :=
  inferInstanceAs (Decidable (_ < _))

variable {n : Int}

theorem exists_ofInt? (h : Converts n) : ∃ x, ofInt? n = some x :=
  Option.ne_none_iff_exists'.1 fun hnone => Nat.not_le.2 h (ofInt?_eq_none_iff.1 hnone)

theorem ofInt?_eq_none (h : ¬ Converts n) : ofInt? n = none :=
  ofInt?_eq_none_iff.2 (Nat.not_lt.1 h)

end Binary64

open Binary64 (Converts rounded)

namespace Condition.Comparison

variable {op : Comparison} {a b c d : Int}

/-- A comparison depends on the order of two integers alone. -/
theorem direct_congr (hless : a < b ↔ c < d) (hgreater : b < a ↔ d < c) :
    op.Direct a b ↔ op.Direct c d := by
  have hequal : a = b ↔ c = d := by omega
  cases op with
  | identical => exact hequal
  | notIdentical => exact not_congr hequal
  | equal => exact hequal
  | notEqual => exact not_congr hequal
  | less => exact hless
  | atMost => exact not_congr hgreater
  | greater => exact hgreater
  | atLeast => exact not_congr hless

/-- Integers are compared alike in units. -/
theorem direct_scaled : op.Direct (a * Binary64.one) (b * Binary64.one) ↔ op.Direct a b := by
  have hone : (0 : Int) < Binary64.one := Int.natCast_pos.2 Binary64.one_pos
  exact direct_congr (Int.mul_lt_mul_right hone) (Int.mul_lt_mul_right hone)

/-- Integers that stay apart are compared alike when they are rounded. -/
theorem direct_rounded (h : rounded a = rounded b → a = b) :
    op.Direct (rounded a) (rounded b) ↔ op.Direct a b := by
  have hkept : ∀ {c d : Int}, (rounded c = rounded d → c = d) →
      (rounded c < rounded d ↔ c < d) := by
    intro c d hapart
    refine ⟨fun hlt => ?_, fun hlt => ?_⟩
    · exact Int.not_le.1 fun hle => Int.not_le.2 hlt (Binary64.rounded_mono hle)
    · exact Int.lt_iff_le_and_ne.2
        ⟨Binary64.rounded_mono (Int.le_of_lt hlt), fun heq => Int.ne_of_lt hlt (hapart heq)⟩
  exact direct_congr (hkept h) (hkept fun heq => (h heq.symm).symm)

end Condition.Comparison

namespace Value

variable {n : Int}

theorem toNumber_int_eq_error (h : ¬ Converts n) : toNumber (.int n) = .error .tooLarge := by
  rw [toNumber, Binary64.ofInt?_eq_none h]
  rfl

theorem inRange_int_iff : InRange (.int n) ↔ Converts n := by
  rw [InRange, Converts]

theorem scalar_int (h : Converts n) : Scalar (.int n) :=
  ⟨inRange_int_iff.2 h, nofun, nofun⟩

theorem rank_int (h : Converts n) : rank (.int n) = some (rounded n * Binary64.one) := by
  obtain ⟨x, hx⟩ := Binary64.exists_ofInt? h
  rw [rank_of_toNumber (toNumber_int_eq_ok_iff.2 hx), Binary64.rank_of_ofInt? hx]

/-- The text of an integer in range is where the integer is. -/
theorem rank_toString (h : Converts n) :
    rank (.text (toString n)) = some (rounded n * Binary64.one) := by
  obtain ⟨x, hx⟩ := Binary64.exists_ofInt? h
  rw [rank_of_toNumber (toNumber_toString n), Binary64.ofDecimal_of_ofInt? hx,
    Binary64.rank_of_ofInt? hx]

/-- The text of an integer out of range is where no integer is. -/
theorem rank_toString_ne {m : Int} (hm : Converts m) (h : ¬ Converts n) :
    rank (.text (toString n)) ≠ rank (.int m) := by
  obtain ⟨x, hx⟩ := Binary64.exists_ofInt? hm
  rw [rank_of_toNumber (toNumber_toString n), rank_of_toNumber (toNumber_int_eq_ok_iff.2 hx)]
  intro hrank
  have hfinite := Binary64.isFinite_congr hrank
  rw [Binary64.isFinite_of_ofInt? hx,
    Binary64.not_isFinite_of_ofInt? (Binary64.ofInt?_eq_none h)] at hfinite
  exact Bool.false_ne_true hfinite

theorem asNumbers_int_eq_error (test : Binary64 → Binary64 → Bool) {a b : Int}
    (h : ¬ (Converts a ∧ Converts b)) :
    asNumbers test (.int a) (.int b) = .error .tooLarge := by
  refine asNumbers_of_error test ?_
  by_cases ha : Converts a
  · obtain ⟨x, hx⟩ := Binary64.exists_ofInt? ha
    exact .inr ⟨x, toNumber_int_eq_ok_iff.2 hx, toNumber_int_eq_error fun hb => h ⟨ha, hb⟩⟩
  · exact .inl (toNumber_int_eq_error ha)

end Value

namespace Condition

open Value

namespace Comparison

variable {a b : Int}

theorem compare_eq_of_relates {op : Comparison} {x y : Value} {p : Prop} [Decidable p]
    (hx : x.InRange) (hy : y.InRange) (h : op.Relates x y ↔ p) :
    op.compare x y = .ok (decide p) := by
  obtain ⟨answer, hanswer⟩ := op.exists_compare hx hy
  rw [Relates, hanswer, Except.ok.injEq] at h
  rw [hanswer, Except.ok.injEq, Bool.eq_iff_iff, h, decide_eq_true_iff]

theorem compare_int_of_isStrict {op : Comparison} (hop : op.isStrict = true) (a b : Int) :
    op.compare (.int a) (.int b) = .ok (decide (op.Direct a b)) := by
  have hstrict : strictEq (.int a) (.int b) = decide (a = b) := by
    rw [strictEq, if_pos (by rfl), same, Bool.beq_eq_decide_eq]
  cases op with
  | identical =>
      rw [compare, hstrict]
      rfl
  | notIdentical =>
      rw [compare, hstrict, ← decide_not]
      rfl
  | _ => cases hop

/-- Of two integers one of which is out of range, only strict equality is known. -/
theorem compare_int_of_not_converts {op : Comparison} (hop : op.isStrict = false)
    (h : ¬ (Converts a ∧ Converts b)) : op.compare (.int a) (.int b) = .error .tooLarge := by
  have hequal : looseEq (.int a) (.int b) = .error .tooLarge := by
    rw [looseEq_of_isNumeric rfl rfl rfl, asNumbers_int_eq_error _ h]
  have htext : ¬ (isText (.int a) && isText (.int b)) = true := Bool.false_ne_true
  cases op with
  | identical => cases hop
  | notIdentical => cases hop
  | equal => rw [compare, hequal]
  | notEqual => rw [compare, hequal, Except.map]
  | _ => rw [compare, ordered_of_not_isText htext, asNumbers_int_eq_error _ h]

/-- **How integers compare**: strictly as they are, and in all other ways as they are rounded. -/
theorem compare_int (op : Comparison) (a b : Int) : op.compare (.int a) (.int b) =
    if op.isStrict then .ok (decide (op.Direct a b))
    else if Converts a ∧ Converts b then .ok (decide (op.Direct (rounded a) (rounded b)))
    else .error .tooLarge := by
  cases hop : op.isStrict with
  | true => rw [if_pos rfl, compare_int_of_isStrict hop]
  | false =>
      rw [if_neg Bool.false_ne_true]
      by_cases h : Converts a ∧ Converts b
      · obtain ⟨ha, hb⟩ := h
        rw [if_pos ⟨ha, hb⟩]
        refine compare_eq_of_relates (inRange_int_iff.2 ha) (inRange_int_iff.2 hb) ?_
        rw [relates_of_rank (scalar_int ha) (scalar_int hb) Bool.false_ne_true (rank_int ha)
          (rank_int hb) hop, direct_scaled]
      · rw [if_neg h, compare_int_of_not_converts hop h]

/-- **How an integer equals the text of an integer**: both are rounded, and no text is too large. -/
theorem compare_toString (a b : Int) : equal.compare (.int a) (.text (toString b)) =
    if Converts a then .ok (decide (Converts b ∧ rounded a = rounded b)) else .error .tooLarge := by
  by_cases ha : Converts a
  · have htext : Scalar (.text (toString b)) := ⟨trivial, nofun, nofun⟩
    rw [if_pos ha]
    refine compare_eq_of_relates (inRange_int_iff.2 ha) htext.inRange ?_
    by_cases hb : Converts b
    · rw [and_iff_right hb, relates_of_rank (scalar_int ha) htext Bool.false_ne_true (rank_int ha)
        (rank_toString hb) rfl, direct_scaled]
      exact Iff.rfl
    · refine iff_of_false (fun h => ?_) fun h => hb h.1
      have hnull : ¬ (Value.int a = .null ∧ Value.text (toString b) = .null) := fun h => nomatch h.1
      rw [relates_iff_rank (scalar_int ha) htext Bool.false_ne_true hnull rfl (by decide)] at h
      obtain ⟨r, s, hr, hs, hequal⟩ := h
      have hsame : r = s := hequal
      exact rank_toString_ne ha hb (hs.trans (hsame ▸ hr.symm))
  · rw [if_neg ha]
    have hequal : looseEq (.int a) (.text (toString b)) = .error .tooLarge := by
      rw [looseEq_of_isNumeric rfl rfl rfl,
        asNumbers_of_error _ (.inl (toNumber_int_eq_error ha))]
    exact hequal

/-! ### Where the answers are exact -/

/-- All comparisons of two integers are those of the integers themselves just if both are in range
and stay apart when they are rounded. -/
theorem compare_int_exact_iff : (∀ op : Comparison, op.compare (.int a) (.int b) =
    .ok (decide (op.Direct a b))) ↔
      Converts a ∧ Converts b ∧ (rounded a = rounded b → a = b) := by
  constructor
  · intro h
    have hequal : equal.compare (.int a) (.int b) = .ok (decide (a = b)) := h equal
    have hconverting : equal.isStrict = false := rfl
    rw [compare_int, hconverting, if_neg Bool.false_ne_true] at hequal
    by_cases hconverts : Converts a ∧ Converts b
    · rw [if_pos hconverts, Except.ok.injEq, decide_eq_decide] at hequal
      exact ⟨hconverts.1, hconverts.2, hequal.1⟩
    · rw [if_neg hconverts] at hequal
      cases hequal
  · rintro ⟨ha, hb, hapart⟩ op
    rw [compare_int]
    cases op.isStrict with
    | true => rw [if_pos rfl]
    | false =>
        rw [if_neg Bool.false_ne_true, if_pos ⟨ha, hb⟩, Except.ok.injEq, decide_eq_decide,
          direct_rounded hapart]

/-- Equality with the text of an integer is exact just if the first integer is in range and is not
rounded to where the other one is. -/
theorem compare_toString_exact_iff :
    equal.compare (.int a) (.text (toString b)) = .ok (decide (a = b)) ↔
      Converts a ∧ (Converts b → rounded a = rounded b → a = b) := by
  rw [compare_toString]
  by_cases ha : Converts a
  · rw [if_pos ha, Except.ok.injEq, decide_eq_decide, and_iff_right ha]
    constructor
    · exact fun h hb heq => h.1 ⟨hb, heq⟩
    · intro h
      refine ⟨fun heq => h heq.1 heq.2, ?_⟩
      rintro rfl
      exact ⟨ha, rfl⟩
  · rw [if_neg ha]
    exact iff_of_false nofun fun h => ha h.1

end Comparison

namespace Expr

variable {bag : Bag} {left right text : Expr} {a b : Int}

theorem eval_comparison {x y : Value} (op : Comparison) (hleft : left.eval bag = .ok x)
    (hright : right.eval bag = .ok y) :
    (Expr.comparison op left right).eval bag = (op.compare x y).map .bool := by
  simp only [eval, hleft, hright]

theorem map_bool_eq_ok_iff {answer : Except NumberError Bool} {b : Bool} :
    answer.map Value.bool = .ok (.bool b) ↔ answer = .ok b := by
  cases answer <;> simp [Except.map]

/-- **What conditions say of integers**, where fields and literals give them or a text spells one of
them: strict comparisons are exact; all other ones compare the rounded integers, and fail if one is
out of range. So they are all exact for just those integers in range that rounding keeps apart, and
for all of at most 53 binary digits. -/
theorem eval_integers (hleft : left.eval bag = .ok (.int a))
    (hright : right.eval bag = .ok (.int b))
    (htext : text.eval bag = .ok (.text (toString b))) :
    (∀ op : Comparison, (Expr.comparison op left right).eval bag =
      if op.isStrict then .ok (.bool (decide (op.Direct a b)))
      else if Converts a ∧ Converts b then .ok (.bool (decide (op.Direct (rounded a) (rounded b))))
      else .error .tooLarge) ∧
    ((Expr.comparison .equal left text).eval bag =
      if Converts a then .ok (.bool (decide (Converts b ∧ rounded a = rounded b)))
      else .error .tooLarge) ∧
    ((∀ op : Comparison, (Expr.comparison op left right).eval bag =
      .ok (.bool (decide (op.Direct a b)))) ↔
        Converts a ∧ Converts b ∧ (rounded a = rounded b → a = b)) ∧
    ((Expr.comparison .equal left text).eval bag = .ok (.bool (decide (a = b))) ↔
        Converts a ∧ (Converts b → rounded a = rounded b → a = b)) ∧
    (a.natAbs ≤ 2 ^ 53 → b.natAbs ≤ 2 ^ 53 →
      Converts a ∧ Converts b ∧ (rounded a = rounded b → a = b)) := by
  refine ⟨fun op => ?_, ?_, ?_, ?_, fun ha hb => ?_⟩
  · rw [eval_comparison op hleft hright, Comparison.compare_int]
    split
    · rfl
    · split
      · rfl
      · rfl
  · rw [eval_comparison .equal hleft htext, Comparison.compare_toString]
    split
    · rfl
    · rfl
  · rw [← Comparison.compare_int_exact_iff]
    refine forall_congr' fun op => ?_
    rw [eval_comparison op hleft hright, map_bool_eq_ok_iff]
  · rw [← Comparison.compare_toString_exact_iff, eval_comparison .equal hleft htext,
      map_bool_eq_ok_iff]
  · refine ⟨inRange_int_iff.1 (inRange_int ha), inRange_int_iff.1 (inRange_int hb), fun h => ?_⟩
    rwa [Binary64.rounded_of_natAbs_le ha, Binary64.rounded_of_natAbs_le hb] at h

/-- The first two integers that rounding does not keep apart. -/
theorem eval_integers_neighbours :
    (Expr.literal (.int (2 ^ 53 + 1))).eval ∅ = .ok (.int (2 ^ 53 + 1)) ∧
    (Expr.literal (.int (2 ^ 53))).eval ∅ = .ok (.int (2 ^ 53)) ∧
    (Expr.literal (.text (toString (2 ^ 53 : Int)))).eval ∅ =
      .ok (.text (toString (2 ^ 53 : Int))) ∧
    (Expr.comparison .greater (.literal (.int (2 ^ 53 + 1))) (.literal (.int (2 ^ 53)))).eval ∅ =
      .ok (.bool false) := by
  have hleft : (Expr.literal (.int (2 ^ 53 + 1))).eval ∅ = .ok (.int (2 ^ 53 + 1)) := rfl
  have hright : (Expr.literal (.int (2 ^ 53))).eval ∅ = .ok (.int (2 ^ 53)) := rfl
  have htext : (Expr.literal (.text (toString (2 ^ 53 : Int)))).eval ∅ =
      .ok (.text (toString (2 ^ 53 : Int))) := rfl
  have hanswers := eval_integers hleft hright htext
  have hconverting : Comparison.greater.isStrict = false := rfl
  have hrange : Converts (2 ^ 53 + 1) ∧ Converts (2 ^ 53) := by
    decide +kernel
  have hrounded : decide (Comparison.greater.Direct (rounded (2 ^ 53 + 1)) (rounded (2 ^ 53))) =
      false := by
    decide +kernel
  refine ⟨hleft, hright, htext, (hanswers.1 .greater).trans ?_⟩
  rw [hconverting, if_neg Bool.false_ne_true, if_pos hrange, hrounded]

/-- Not all comparisons of two integers in a bag are exact. -/
theorem not_eval_integers_exact : ¬ ∀ (a b : Int) (op : Comparison), op.isStrict = false →
    (Expr.comparison op (.field "a") (.field "b")).eval (.ofList [("a", .int a), ("b", .int b)]) =
      .ok (.bool (decide (op.Direct a b))) := by
  intro h
  have hequal := h (2 ^ 53 + 1) (2 ^ 53) .equal rfl
  have hrounded : Comparison.equal.compare (.int (2 ^ 53 + 1)) (.int (2 ^ 53)) = .ok true := by
    decide +kernel
  rw [eval_comparison .equal rfl rfl, map_bool_eq_ok_iff] at hequal
  have hexact := Except.ok.inj (hrounded.symm.trans hequal)
  exact absurd hexact (by decide)

end Expr

end Condition

end Phrasebook
