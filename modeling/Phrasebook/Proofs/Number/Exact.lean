import Phrasebook.Proofs.Number.Range

/-! Integers that are floating-point numbers as they stand. A number is equal to an integer just if
it is finite and has the place of that integer in the order (`eqInt_iff`), so equality with integers
depends on its place alone. Rounding leaves such an integer where it is (`exists_ofInt?_of_eqInt`):
all digits that it needs are kept. -/

namespace Phrasebook.Binary64

variable {x y : Binary64} {n : Int}

theorem one_pos : 0 < one := by
  decide +kernel

theorem limit_pos : 0 < limit := by
  decide +kernel

/-! ### Places in the order -/

theorem rank_eq_none_iff : x.rank = none ↔ x.isNaN = true := by
  cases x with
  | nan mark => exact iff_of_true rfl rfl
  | infinite negative => exact iff_of_false nofun nofun
  | finite negative units fits => exact iff_of_false nofun nofun

theorem natAbs_signed (negative : Bool) (units : Nat) :
    (if negative then -(units : Int) else units).natAbs = units := by
  cases negative <;> simp

/-- A sign counts, but not that of zero. -/
theorem signed_inj {negative negative' : Bool} {units units' : Nat} (hunits : units ≠ 0)
    (h : (if negative then -(units : Int) else units) =
      if negative' then -(units' : Int) else units') : negative = negative' ∧ units = units' := by
  cases negative <;> cases negative' <;> simp at h ⊢ <;> omega

/-- No finite number is where the infinities are. -/
theorem isFinite_iff : x.isFinite = true ↔ ∃ r, x.rank = some r ∧ r.natAbs < limit := by
  cases x with
  | nan mark => simp [isFinite, rank]
  | infinite negative =>
      simp only [isFinite, rank, Option.some.injEq, exists_eq_left', natAbs_signed]
      exact iff_of_false nofun (Nat.lt_irrefl limit)
  | finite negative units fits =>
      simp only [isFinite, rank, Option.some.injEq, exists_eq_left', natAbs_signed]
      exact iff_of_true trivial fits.1

theorem isFinite_congr (h : x.rank = y.rank) : x.isFinite = y.isFinite := by
  rw [Bool.eq_iff_iff, isFinite_iff, isFinite_iff, h]

theorem eqInt_iff : x.eqInt n = true ↔ x.isFinite = true ∧ x.rank = some (n * one) := by
  cases x with
  | nan mark => exact iff_of_false nofun fun h => nomatch h.1
  | infinite negative => exact iff_of_false nofun fun h => nomatch h.1
  | finite negative units fits =>
      rw [eqInt, rank, Option.some.injEq, beq_iff_eq]
      exact (and_iff_right rfl).symm

theorem eqInt_congr (h : x.rank = y.rank) : x.eqInt n = y.eqInt n := by
  rw [Bool.eq_iff_iff, eqInt_iff, eqInt_iff, isFinite_congr h, h]

/-- Equal numbers are at one place. -/
theorem eq_iff : x.eq y = true ↔ x.rank = y.rank ∧ x.isNaN = false := by
  rw [← Bool.not_eq_true, ← rank_eq_none_iff, eq]
  cases hx : x.rank with
  | none => simp
  | some a =>
      cases hy : y.rank with
      | none => simp
      | some b => simp

/-! ### The integer that a number is -/

theorem toInt?_eq_some_iff : x.toInt? = some n ↔ x.eqInt n = true := by
  cases x with
  | nan mark => simp [toInt?, eqInt]
  | infinite negative => simp [toInt?, eqInt]
  | finite negative units fits =>
      have hone : (one : Int) ≠ 0 := Int.natCast_ne_zero.2 one_pos.ne'
      have hunits : (one : Int) * (units / one : Nat) + (units % one : Nat) = units := by
        exact_mod_cast Nat.div_add_mod units one
      simp only [toInt?, eqInt, beq_iff_eq]
      by_cases hwhole : units % one = 0
      · rw [hwhole, Nat.cast_zero, add_zero] at hunits
        rw [if_pos hwhole, Option.some.injEq, ← hunits, mul_comm n]
        cases negative with
        | false => exact (mul_right_inj' hone).symm
        | true =>
            rw [if_pos rfl, if_pos rfl, ← mul_neg]
            exact (mul_right_inj' hone).symm
      · rw [if_neg hwhole]
        refine iff_of_false nofun fun h => hwhole (Nat.mod_eq_zero_of_dvd ?_)
        have hdvd : (one : Int) ∣ if negative then -(units : Int) else units :=
          ⟨n, h.trans (mul_comm _ _)⟩
        rw [← Int.natCast_dvd_natCast]
        cases negative with
        | false => exact hdvd
        | true => exact (Int.dvd_neg).1 hdvd

theorem isZero_eq_eqInt_zero : x.isZero = x.eqInt 0 := by
  cases x with
  | nan mark => rfl
  | infinite negative => rfl
  | finite negative units fits =>
      rw [isZero, eqInt, zero_mul, Bool.eq_iff_iff, beq_iff_eq, beq_iff_eq]
      cases negative with
      | false => exact Int.natCast_eq_zero.symm
      | true => exact (Int.neg_eq_zero.trans Int.natCast_eq_zero).symm

/-- Numbers at one place differ at most in the sign of zero, and zero is an integer. -/
theorem eq_of_rank (h : x.rank = y.rank) (hnumber : x.isNaN = false) (hwhole : x.toInt? = none) :
    x = y := by
  have hzero : x.isZero = false := by
    rw [isZero_eq_eqInt_zero, ← Bool.not_eq_true, ← toInt?_eq_some_iff, hwhole]
    exact nofun
  cases x with
  | nan mark => cases hnumber
  | infinite negative =>
      have hfinite := isFinite_congr h
      cases y with
      | nan mark => cases h
      | finite negative' units' fits' => cases hfinite
      | infinite negative' =>
          obtain ⟨rfl, -⟩ := signed_inj limit_pos.ne' (Option.some.inj h)
          rfl
  | finite negative units fits =>
      have hfinite := isFinite_congr h
      cases y with
      | nan mark => cases h
      | infinite negative' => cases hfinite
      | finite negative' units' fits' =>
          have hunits : units ≠ 0 := by simpa [isZero] using hzero
          obtain ⟨rfl, rfl⟩ := signed_inj hunits (Option.some.inj h)
          rfl

/-! ### Rounding -/

theorem roundDiv_of_dvd {num den : Nat} (hden : 0 < den) (h : den ∣ num) :
    roundDiv num den = num / den := by
  rw [roundDiv, Nat.mod_eq_zero_of_dvd h]
  exact if_pos (.inl hden)

/-- A number that can be held is not rounded. -/
theorem nearest_of_fits {units : Nat} (h : Fits units) : nearest units 1 = units := by
  have hpos : 0 < spacing units := by
    rw [spacing_eq]
    exact Nat.two_pow_pos _
  have hdvd : spacing units ∣ units := Nat.dvd_of_mod_eq_zero h.2
  rw [nearest_one, roundDiv_of_dvd hpos hdvd, Nat.div_mul_cancel hdvd]

/-- **An integer that is a floating-point number converts to it**, but for the sign of zero. -/
theorem exists_ofInt?_of_eqInt (h : x.eqInt n = true) :
    ∃ y, ofInt? n = some y ∧ y.rank = x.rank := by
  obtain ⟨hfinite, hrank⟩ := eqInt_iff.1 h
  cases x with
  | nan mark => cases hfinite
  | infinite negative => cases hfinite
  | finite negative units fits =>
      have hsigned : (if negative then -(units : Int) else units) = n * one :=
        Option.some.inj hrank
      have hunits : n.natAbs * one = units := by
        rw [← natAbs_signed negative units, hsigned, Int.natAbs_mul, Int.natAbs_natCast]
      refine ⟨.finite (n < 0) units fits, ?_, ?_⟩
      · rw [ofInt?, ofRatio, hunits, nearest_of_fits fits, ofUnits, dif_pos fits]
        rfl
      · rw [hrank, rank, ← hunits, Nat.cast_mul]
        by_cases hn : n < 0
        · rw [decide_eq_true hn, if_pos rfl, ← neg_mul, Int.ofNat_natAbs_of_nonpos hn.le, neg_neg]
        · rw [decide_eq_false hn, if_neg Bool.false_ne_true, Int.natAbs_of_nonneg (not_lt.1 hn)]

end Phrasebook.Binary64
