import Mathlib.Data.String.Basic
import Phrasebook.Proofs.Condition.Spelling
import Phrasebook.Proofs.Condition.Totality
import Phrasebook.Proofs.Number.Rounding

/-! The laws of the comparisons. Strict equality is equality of canonical spellings
(`Value.strictEq_iff_canonical`). Unless two texts are compared, equality with conversion and the
order look at the places of two values in the order of numbers, where a value without a number has
no place (`Value.looseEq_iff_rank`, `Value.ordered_iff_rank`); two texts are compared as texts.
The laws that hold between the eight comparisons are those of integers, or else of texts
(`Comparison.lawful`). -/

namespace Phrasebook

theorem Binary64.isNaN_ofRatio (negative : Bool) (num den : Nat) :
    (ofRatio negative num den).isNaN = false := by
  unfold ofRatio ofUnits
  split
  · rfl
  · rfl

namespace Value

/-- A value that has no parts, and converts if it is an integer. -/
structure Scalar (v : Value) : Prop where
  inRange : v.InRange
  not_list : v.shape ≠ .list
  not_map : v.shape ≠ .map

/-- The place of a value in the order of numbers, if it has one. -/
def rank (v : Value) : Option Int :=
  match v.toNumber with
  | .error _ => none
  | .ok x => x.rank

variable {v w : Value} {x : Binary64}

theorem rank_of_toNumber (h : v.toNumber = .ok x) : v.rank = x.rank := by
  rw [rank, h]

theorem exists_rank (h : v.toNumber = .ok x) (hnumber : x.isNaN = false) :
    ∃ r, v.rank = some r := by
  rw [rank_of_toNumber h, ← Option.ne_none_iff_exists', ne_eq, Binary64.rank_eq_none_iff, hnumber]
  exact Bool.false_ne_true

theorem toNumber_int_eq_ok_iff {n : Int} :
    toNumber (.int n) = .ok x ↔ Binary64.ofInt? n = some x := by
  rw [toNumber]
  cases Binary64.ofInt? n <;> simp

theorem asNumbers_of_error {e : NumberError} (test : Binary64 → Binary64 → Bool)
    (h : v.toNumber = .error e ∨ ∃ x, v.toNumber = .ok x ∧ w.toNumber = .error e) :
    asNumbers test v w = .error e := by
  rcases h with hv | ⟨x, hv, hw⟩
  · simp only [asNumbers, hv]
  · simp only [asNumbers, hv, hw]

theorem looseEq_of_isNumeric (hnull : (v.isNull || w.isNull) = false)
    (htext : (v.isText && w.isText) = false) (hnumeric : (v.isNumeric || w.isNumeric) = true) :
    v.looseEq w = asNumbers Binary64.eq v w := by
  simp only [looseEq, hnull, htext, hnumeric, if_true, Bool.false_eq_true, if_false]

/-! ### Strict equality -/

/-- What is no number is identical to itself alone. -/
theorem strictEq_iff_eq (hv : v.isNumber = false) (hscalar : v.Scalar) :
    v.strictEq w = true ↔ v = w := by
  cases v with
  | null => cases w <;> simp [strictEq, isNumber, shape, same]
  | bool b => cases w <;> simp [strictEq, isNumber, shape, same]
  | text s => cases w <;> simp [strictEq, isNumber, shape, same]
  | int n => cases hv
  | real x => cases hv
  | list items => exact absurd rfl hscalar.not_list
  | map entries => exact absurd rfl hscalar.not_map

/-- **Values are identical if they are one but for their spelling**, and not NaN. -/
theorem strictEq_iff_canonical (hv : v.Scalar) :
    v.strictEq w = true ↔ v.canonical = w.canonical ∧ v.canonical ≠ .real (.nan 0) := by
  cases hnumber : v.isNumber with
  | true =>
      cases hother : w.isNumber with
      | true =>
          rw [strictEq, hnumber, hother, Bool.and_self, if_pos rfl,
            same_iff_canonical hnumber hother]
      | false =>
          have hne : v.isNumber ≠ w.isNumber := by
            rw [hnumber, hother]
            exact Bool.false_ne_true.symm
          rw [strictEq_of_isNumber_ne hne]
          refine iff_of_false Bool.false_ne_true fun h => hne ?_
          rw [← isNumber_canonical v, h.1, isNumber_canonical]
  | false =>
      rw [strictEq_iff_eq hnumber hv, canonical_of_not_isNumber hnumber]
      constructor
      · rintro rfl
        refine ⟨(canonical_of_not_isNumber hnumber).symm, ?_⟩
        rintro rfl
        cases hnumber
      · rintro ⟨h, -⟩
        have hother : w.isNumber = false := by rw [← isNumber_canonical w, ← h, hnumber]
        rw [h, canonical_of_not_isNumber hother]

theorem strictEq_comm (hv : v.Scalar) (hw : w.Scalar) :
    v.strictEq w = true ↔ w.strictEq v = true := by
  rw [strictEq_iff_canonical hv, strictEq_iff_canonical hw]
  constructor
  · rintro ⟨h, hne⟩
    exact ⟨h.symm, h ▸ hne⟩
  · rintro ⟨h, hne⟩
    exact ⟨h.symm, h ▸ hne⟩

/-! ### Comparisons by place -/

theorem asNumbers_iff_rank {test : Binary64 → Binary64 → Bool} {rel : Int → Int → Prop}
    (htest : ∀ {x y : Binary64},
      test x y = true ↔ ∃ r s, x.rank = some r ∧ y.rank = some s ∧ rel r s) :
    asNumbers test v w = .ok true ↔ ∃ r s, v.rank = some r ∧ w.rank = some s ∧ rel r s := by
  rw [rank, rank, asNumbers]
  cases v.toNumber with
  | error e => simp
  | ok x =>
      cases w.toNumber with
      | error e => simp
      | ok y => simp [htest]

/-- The order of two values that are not both texts is that of their places. -/
theorem ordered_iff_rank {ofTexts : String → String → Bool} {test : Binary64 → Binary64 → Bool}
    {rel : Int → Int → Prop} (htext : ¬ (v.isText && w.isText) = true)
    (htest : ∀ {x y : Binary64},
      test x y = true ↔ ∃ r s, x.rank = some r ∧ y.rank = some s ∧ rel r s) :
    ordered ofTexts test v w = .ok true ↔
      ∃ r s, v.rank = some r ∧ w.rank = some s ∧ rel r s := by
  rw [ordered_of_not_isText htext, asNumbers_iff_rank htest]

theorem isNull_iff : v.isNull = true ↔ v = .null := by
  cases v <;> simp [isNull]

theorem isText_iff : v.isText = true ↔ ∃ s, v = .text s := by
  cases v <;> simp [isText]

/-- Without null and without a text on both sides, one of two scalars is a number or a truth
value. -/
theorem Scalar.isNumeric_or (hv : v.Scalar) (hw : w.Scalar)
    (hnull : ¬ (v.isNull || w.isNull) = true) (htext : ¬ (v.isText && w.isText) = true) :
    (v.isNumeric || w.isNumeric) = true := by
  have hsort : ∀ {u : Value}, u.Scalar → u.isNull = false → u.isText = false →
      u.isNumeric = true := by
    intro u hu hnull htext
    cases u with
    | null => cases hnull
    | text s => cases htext
    | list items => exact absurd rfl hu.not_list
    | map entries => exact absurd rfl hu.not_map
    | _ => rfl
  rw [Bool.or_eq_true, not_or, Bool.not_eq_true, Bool.not_eq_true] at hnull
  rw [Bool.or_eq_true]
  cases hvtext : v.isText with
  | false => exact .inl (hsort hv hnull.1 hvtext)
  | true =>
      rw [hvtext, Bool.true_and, Bool.not_eq_true] at htext
      exact .inr (hsort hw hnull.2 htext)

theorem rank_null : rank .null = none := rfl

/-- Two values that are not both texts are equal if they have one place, or are both null. -/
theorem looseEq_iff_rank (hv : v.Scalar) (hw : w.Scalar)
    (htext : ¬ (v.isText && w.isText) = true) :
    v.looseEq w = .ok true ↔ (v = .null ∧ w = .null) ∨
      ∃ r s, v.rank = some r ∧ w.rank = some s ∧ r = s := by
  rw [looseEq]
  by_cases hnull : (v.isNull || w.isNull) = true
  · have hnone : ¬ ∃ r s, v.rank = some r ∧ w.rank = some s ∧ r = s := by
      rintro ⟨r, s, hr, hs, -⟩
      rcases Bool.or_eq_true_iff.1 hnull with h | h
      · rw [isNull_iff.1 h, rank_null] at hr
        cases hr
      · rw [isNull_iff.1 h, rank_null] at hs
        cases hs
    rw [if_pos hnull, or_iff_left hnone, Except.ok.injEq, Bool.and_eq_true, isNull_iff, isNull_iff]
  · rw [if_neg hnull, if_neg htext, if_pos (hv.isNumeric_or hw hnull htext),
      asNumbers_iff_rank Binary64.eq_iff_rank]
    refine ⟨.inr, Or.rec ?_ id⟩
    rintro ⟨rfl, rfl⟩
    exact absurd rfl hnull

/-- A scalar that is not NaN is null, a text, or at a place in the order of numbers. -/
theorem Scalar.cases (h : v.Scalar) (hnumber : v.canonical ≠ .real (.nan 0)) :
    v = .null ∨ v.isText = true ∨ ∃ r, v.rank = some r := by
  cases v with
  | null => exact .inl rfl
  | text s => exact .inr (.inl rfl)
  | bool b => exact .inr (.inr (exists_rank rfl (Binary64.isNaN_ofRatio _ _ _)))
  | int n =>
      obtain ⟨x, hx⟩ := exists_toNumber h.inRange
      exact .inr (.inr ⟨_, (rank_of_toNumber hx).trans
        (Binary64.rank_of_ofInt? (toNumber_int_eq_ok_iff.1 hx))⟩)
  | real x =>
      refine .inr (.inr (exists_rank rfl (Bool.eq_false_iff.2 fun hnan => hnumber ?_)))
      exact canonical_eq_nan_iff.2 hnan
  | list items => exact absurd rfl h.not_list
  | map entries => exact absurd rfl h.not_map

end Value

namespace Condition

open Value

namespace Comparison

/-- Whether two values compare this way, the comparison having an answer. -/
def Relates (op : Comparison) (x y : Value) : Prop :=
  op.compare x y = .ok true

/-- The comparisons that never convert. -/
def isStrict : Comparison → Bool
  | identical => true
  | notIdentical => true
  | _ => false

/-- Whether two elements of one order compare this way. -/
def Direct {α : Type} [LT α] : Comparison → α → α → Prop
  | identical, a, b => a = b
  | notIdentical, a, b => a ≠ b
  | equal, a, b => a = b
  | notEqual, a, b => a ≠ b
  | less, a, b => a < b
  | atMost, a, b => ¬ b < a
  | greater, a, b => b < a
  | atLeast, a, b => ¬ a < b

instance {α : Type} [LT α] [DecidableEq α] [DecidableLT α] :
    ∀ (op : Comparison) (a b : α), Decidable (op.Direct a b)
  | identical, a, b => inferInstanceAs (Decidable (a = b))
  | notIdentical, a, b => inferInstanceAs (Decidable (a ≠ b))
  | equal, a, b => inferInstanceAs (Decidable (a = b))
  | notEqual, a, b => inferInstanceAs (Decidable (a ≠ b))
  | less, a, b => inferInstanceAs (Decidable (a < b))
  | atMost, a, b => inferInstanceAs (Decidable (¬ b < a))
  | greater, a, b => inferInstanceAs (Decidable (b < a))
  | atLeast, a, b => inferInstanceAs (Decidable (¬ a < b))

/-- How two values are compared with conversion: as elements of one linear order, or as two that are
in no order, or as null on both sides. -/
inductive Compared (x y : Value) : Prop
  | ordered {α : Type} [LinearOrder α] (a b : α)
      (forth : ∀ op : Comparison, op.isStrict = false → (op.Relates x y ↔ op.Direct a b))
      (back : ∀ op : Comparison, op.isStrict = false → (op.Relates y x ↔ op.Direct b a))
  | unordered
      (forth : ∀ op : Comparison, op.isStrict = false → (op.Relates x y ↔ op = notEqual))
      (back : ∀ op : Comparison, op.isStrict = false → (op.Relates y x ↔ op = notEqual))
  | null (left : x = .null) (right : y = .null)

variable {x y z : Value}

theorem relates_text (op : Comparison) (s t : String) :
    op.Relates (.text s) (.text t) ↔ op.Direct s t := by
  cases op <;> simp [Relates, Direct, compare, strictEq, looseEq, ordered, isNumber, shape, same,
    isNull, isText, Except.map]

theorem relates_notIdentical : notIdentical.Relates x y ↔ ¬ identical.Relates x y := by
  simp [Relates, compare]

theorem relates_notEqual (hx : x.Scalar) (hy : y.Scalar) :
    notEqual.Relates x y ↔ ¬ equal.Relates x y := by
  obtain ⟨b, hb⟩ := equal.exists_compare hx.inRange hy.inRange
  have hnot : notEqual.compare x y = .ok !b := congrArg (Except.map (!·)) hb
  rw [Relates, Relates, hnot, hb]
  cases b <;> simp

section

variable {op : Comparison}

/-- Two scalars that are not both texts, and not both null, compare by their places. -/
theorem relates_iff_rank (hx : x.Scalar) (hy : y.Scalar) (htext : ¬ (x.isText && y.isText) = true)
    (hnull : ¬ (x = .null ∧ y = .null)) (hop : op.isStrict = false) (hne : op ≠ notEqual) :
    op.Relates x y ↔ ∃ r s, x.rank = some r ∧ y.rank = some s ∧ op.Direct r s := by
  cases op with
  | identical => cases hop
  | notIdentical => cases hop
  | equal => exact (looseEq_iff_rank hx hy htext).trans (or_iff_right hnull)
  | notEqual => exact absurd rfl hne
  | less => exact ordered_iff_rank htext Binary64.lt_iff_rank
  | atMost =>
      refine ordered_iff_rank htext fun {a b} => Binary64.le_iff_rank.trans ?_
      simp only [Direct, not_lt]
  | greater =>
      refine ordered_iff_rank htext fun {a b} => Binary64.lt_iff_rank.trans ?_
      exact exists_comm.trans (exists_congr fun r => exists_congr fun s => and_left_comm)
  | atLeast =>
      refine ordered_iff_rank htext fun {a b} => Binary64.le_iff_rank.trans ?_
      simp only [Direct, not_lt]
      exact exists_comm.trans (exists_congr fun r => exists_congr fun s => and_left_comm)

theorem relates_of_rank (hx : x.Scalar) (hy : y.Scalar) (htext : ¬ (x.isText && y.isText) = true)
    {r s : Int} (hr : x.rank = some r) (hs : y.rank = some s) (hop : op.isStrict = false) :
    op.Relates x y ↔ op.Direct r s := by
  have hnull : ¬ (x = .null ∧ y = .null) := by
    rintro ⟨rfl, -⟩
    cases hr
  have hplaced : ∀ {op : Comparison}, op.isStrict = false → op ≠ notEqual →
      (op.Relates x y ↔ op.Direct r s) := by
    intro op hop hne
    rw [relates_iff_rank hx hy htext hnull hop hne, hr, hs]
    refine ⟨?_, fun h => ⟨r, s, rfl, rfl, h⟩⟩
    rintro ⟨_, _, ⟨⟩, ⟨⟩, h⟩
    exact h
  by_cases hne : op = notEqual
  · rw [hne, relates_notEqual hx hy, hplaced rfl (by decide)]
    exact Iff.rfl
  · exact hplaced hop hne

theorem relates_of_no_rank (hx : x.Scalar) (hy : y.Scalar)
    (htext : ¬ (x.isText && y.isText) = true) (hnull : ¬ (x = .null ∧ y = .null))
    (hnone : x.rank = none ∨ y.rank = none) (hop : op.isStrict = false) :
    op.Relates x y ↔ op = notEqual := by
  have hunplaced : ∀ {op : Comparison}, op.isStrict = false → op ≠ notEqual → ¬ op.Relates x y := by
    intro op hop hne
    rw [relates_iff_rank hx hy htext hnull hop hne]
    rintro ⟨r, s, hr, hs, -⟩
    rcases hnone with h | h
    · cases hr.symm.trans h
    · cases hs.symm.trans h
  by_cases hne : op = notEqual
  · rw [hne, relates_notEqual hx hy]
    exact iff_of_true (hunplaced rfl (by decide)) rfl
  · exact iff_of_false (hunplaced hop hne) hne

end

/-- **Every two scalars are compared one of these ways.** -/
theorem compared (hx : x.Scalar) (hy : y.Scalar) : Compared x y := by
  by_cases htext : (x.isText && y.isText) = true
  · obtain ⟨hxtext, hytext⟩ := Bool.and_eq_true_iff.1 htext
    obtain ⟨s, rfl⟩ := isText_iff.1 hxtext
    obtain ⟨t, rfl⟩ := isText_iff.1 hytext
    exact .ordered s t (fun op _ => relates_text op s t) (fun op _ => relates_text op t s)
  · have htext' : ¬ (y.isText && x.isText) = true := by rwa [Bool.and_comm]
    by_cases hnull : x = .null ∧ y = .null
    · exact .null hnull.1 hnull.2
    · have hnull' : ¬ (y = .null ∧ x = .null) := fun h => hnull h.symm
      cases hr : x.rank with
      | none =>
          exact .unordered (fun op => relates_of_no_rank hx hy htext hnull (.inl hr))
            (fun op => relates_of_no_rank hy hx htext' hnull' (.inr hr))
      | some r =>
          cases hs : y.rank with
          | none =>
              exact .unordered (fun op => relates_of_no_rank hx hy htext hnull (.inr hs))
                (fun op => relates_of_no_rank hy hx htext' hnull' (.inl hs))
          | some s =>
              exact .ordered r s (fun op => relates_of_rank hx hy htext hr hs)
                (fun op => relates_of_rank hy hx htext' hs hr)

/-! ### The laws -/

namespace Compared

variable (h : Compared x y)

include h

theorem equal_comm : equal.Relates x y ↔ equal.Relates y x := by
  cases h with
  | ordered a b forth back => rw [forth _ rfl, back _ rfl]; exact eq_comm
  | unordered forth back => rw [forth _ rfl, back _ rfl]
  | null hx hy => rw [hx, hy]

theorem less_iff_greater : less.Relates x y ↔ greater.Relates y x := by
  cases h with
  | ordered a b forth back => rw [forth _ rfl, back _ rfl]; exact Iff.rfl
  | unordered forth back => rw [forth _ rfl, back _ rfl]; decide
  | null hx hy => rw [hx, hy]; exact Iff.rfl

theorem atMost_iff_atLeast : atMost.Relates x y ↔ atLeast.Relates y x := by
  cases h with
  | ordered a b forth back => rw [forth _ rfl, back _ rfl]; exact Iff.rfl
  | unordered forth back => rw [forth _ rfl, back _ rfl]; decide
  | null hx hy => rw [hx, hy]; exact Iff.rfl

theorem atMost_and_atLeast_iff :
    atMost.Relates x y ∧ atLeast.Relates x y ↔
      equal.Relates x y ∧ ¬ (x = .null ∧ y = .null) := by
  cases h with
  | ordered a b forth back =>
      have hplaced : ¬ (x = .null ∧ y = .null) := by
        rintro ⟨rfl, rfl⟩
        have hequal : a = b := (forth equal rfl).1 rfl
        have hatMost : atMost.Relates .null .null := (forth atMost rfl).2 hequal.not_gt
        cases hatMost
      rw [forth _ rfl, forth _ rfl, forth _ rfl, and_iff_left hplaced]
      simp only [Direct, not_lt]
      exact le_antisymm_iff.symm
  | unordered forth back =>
      rw [forth _ rfl, forth _ rfl, forth _ rfl]
      simp
  | null hx hy => exact iff_of_false (by rw [hx, hy]; exact nofun) fun h => h.2 ⟨hx, hy⟩

theorem less_iff : less.Relates x y ↔ atMost.Relates x y ∧ ¬ equal.Relates x y := by
  cases h with
  | ordered a b forth back =>
      rw [forth _ rfl, forth _ rfl, forth _ rfl]
      simp only [Direct, not_lt]
      exact lt_iff_le_and_ne
  | unordered forth back =>
      rw [forth _ rfl, forth _ rfl, forth _ rfl]
      decide
  | null hx hy =>
      rw [hx, hy]
      unfold Relates
      decide

end Compared

theorem not_less_self (h : Compared x x) : ¬ less.Relates x x := by
  cases h with
  | ordered a b forth back =>
      intro hless
      exact lt_asymm ((forth _ rfl).1 hless) ((back _ rfl).1 hless)
  | unordered forth back =>
      rw [forth _ rfl]
      decide
  | null hx hy =>
      rw [hx]
      unfold Relates
      decide

theorem relates_identical_comm (hx : x.Scalar) (hy : y.Scalar) :
    identical.Relates x y ↔ identical.Relates y x := by
  simp only [Relates, compare, Except.ok.injEq]
  exact strictEq_comm hx hy

/-- What is not NaN equals itself. -/
theorem relates_equal_self (hx : x.Scalar) (hnumber : x.canonical ≠ .real (.nan 0)) :
    equal.Relates x x := by
  by_cases htext : x.isText = true
  · obtain ⟨s, rfl⟩ := isText_iff.1 htext
    exact (relates_text equal s s).2 rfl
  · rcases hx.cases hnumber with rfl | h | ⟨r, hr⟩
    · rfl
    · exact absurd h htext
    · exact (relates_of_rank hx hx (by rwa [Bool.and_self]) hr hr rfl).2 rfl

theorem relates_equal_of_identical (hx : x.Scalar) (h : identical.Relates x y) :
    equal.Relates x y := by
  obtain ⟨hcanonical, hnumber⟩ := (strictEq_iff_canonical hx).1 (Except.ok.inj h)
  rw [Relates, equal.compare_congr rfl hcanonical.symm]
  exact relates_equal_self hx hnumber

/-- The order is transitive among texts and among all that is no text. -/
theorem relates_less_trans (hxy : x.isText = y.isText) (hyz : y.isText = z.isText)
    (hless : less.Relates x y) (hless' : less.Relates y z) : less.Relates x z := by
  cases hx : x.isText with
  | true =>
      obtain ⟨s, rfl⟩ := isText_iff.1 hx
      obtain ⟨t, rfl⟩ := isText_iff.1 (hxy.symm.trans hx)
      obtain ⟨u, rfl⟩ := isText_iff.1 (hyz.symm.trans (hxy.symm.trans hx))
      rw [relates_text] at hless hless' ⊢
      exact String.lt_trans hless hless'
  | false =>
      have hy : y.isText = false := hxy.symm.trans hx
      have hbyPlace : ∀ {v w : Value}, v.isText = false →
          (less.Relates v w ↔ ∃ r s, v.rank = some r ∧ w.rank = some s ∧ r < s) := by
        intro v w hv
        refine ordered_iff_rank ?_ Binary64.lt_iff_rank
        rw [hv, Bool.false_and]
        exact Bool.false_ne_true
      obtain ⟨r, s, hr, hs, hrs⟩ := (hbyPlace hx).1 hless
      obtain ⟨s', t, hs', ht, hst⟩ := (hbyPlace hy).1 hless'
      obtain rfl : s = s' := Option.some.inj (hs.symm.trans hs')
      exact (hbyPlace hx).2 ⟨r, t, hr, ht, hrs.trans hst⟩

/-- What holds between the comparisons of three values. Every comparison of two of them has an
answer; `Relates` says that the answer is yes. -/
structure Lawful (x y z : Value) : Prop where
  answers : ∀ op : Comparison, ∃ b, op.compare x y = .ok b
  identical_comm : identical.Relates x y ↔ identical.Relates y x
  equal_comm : equal.Relates x y ↔ equal.Relates y x
  equal_of_identical : identical.Relates x y → equal.Relates x y
  less_iff_greater : less.Relates x y ↔ greater.Relates y x
  atMost_iff_atLeast : atMost.Relates x y ↔ atLeast.Relates y x
  atMost_and_atLeast_iff : atMost.Relates x y ∧ atLeast.Relates x y ↔
    equal.Relates x y ∧ ¬ (x = .null ∧ y = .null)
  less_iff : less.Relates x y ↔ atMost.Relates x y ∧ ¬ equal.Relates x y
  not_less_self : ¬ less.Relates x x
  less_trans : x.isText = y.isText → y.isText = z.isText →
    less.Relates x y → less.Relates y z → less.Relates x z
  notIdentical_iff : notIdentical.Relates x y ↔ ¬ identical.Relates x y
  notEqual_iff : notEqual.Relates x y ↔ ¬ equal.Relates x y

/-- **The eight comparisons are consistent** on values without parts. -/
theorem lawful (hx : x.Scalar) (hy : y.Scalar) (z : Value) : Lawful x y z where
  answers op := op.exists_compare hx.inRange hy.inRange
  identical_comm := relates_identical_comm hx hy
  equal_comm := (compared hx hy).equal_comm
  equal_of_identical := relates_equal_of_identical hx
  less_iff_greater := (compared hx hy).less_iff_greater
  atMost_iff_atLeast := (compared hx hy).atMost_iff_atLeast
  atMost_and_atLeast_iff := (compared hx hy).atMost_and_atLeast_iff
  less_iff := (compared hx hy).less_iff
  not_less_self := not_less_self (compared hx hx)
  less_trans := relates_less_trans
  notIdentical_iff := relates_notIdentical
  notEqual_iff := relates_notEqual hx hy

/-- A number and a text that spells it are equal, as only one of them is a text. -/
theorem lawful_spelled : (Value.int 2).Scalar ∧ (Value.text " 2.0").Scalar ∧
    equal.Relates (.int 2) (.text " 2.0") ∧ Lawful (.int 2) (.text " 2.0") (.bool true) := by
  have hint : (Value.int 2).Scalar := ⟨inRange_int (by decide), by decide, by decide⟩
  have htext : (Value.text " 2.0").Scalar := ⟨trivial, by decide, by decide⟩
  exact ⟨hint, htext, by unfold Relates; decide +kernel, lawful hint htext (.bool true)⟩

end Comparison

end Condition

end Phrasebook
