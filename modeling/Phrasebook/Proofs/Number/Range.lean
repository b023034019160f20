import Mathlib.Data.Nat.Log
import Mathlib.Tactic.Ring
import Phrasebook.Number.Binary64

/-! The integers that are floating-point numbers after rounding. A rounded number of units is always
a multiple of its own spacing, also when rounding carries it to the next power of two, so it can be
held unless it reaches the limit (`fits_nearest_iff`). It stays below the limit if it is closer to
the greatest finite number than to the limit; halfway between the two it is rounded up, as the
greatest number is odd. That gives the range of the integers that convert (`ofInt?_eq_none_iff`). -/

namespace Phrasebook.Binary64

theorem one_eq : one = 2 ^ 1074 := by
  decide +kernel

theorem limit_eq : limit = 2 ^ 2098 := by
  decide +kernel

theorem spacing_eq (units : Nat) : spacing units = 2 ^ (units.log2 - 52) := rfl

/-! ### Rounded quotients -/

theorem div_le_roundDiv (num den : Nat) : num / den ≤ roundDiv num den := by
  unfold roundDiv
  dsimp only
  split
  · exact Nat.le_refl _
  · exact Nat.le_succ _

theorem roundDiv_le_succ (num den : Nat) : roundDiv num den ≤ num / den + 1 := by
  unfold roundDiv
  dsimp only
  split
  · exact Nat.le_succ _
  · exact Nat.le_refl _

/-- A quotient is rounded to less than an even number just if it is less than half below it. -/
theorem roundDiv_lt_iff {num den m : Nat} (hden : 0 < den) (hm : m % 2 = 0) :
    roundDiv num den < m ↔ 2 * num + den < 2 * (den * m) := by
  have hnum : den * (num / den) + num % den = num := Nat.div_add_mod num den
  have hrem : num % den < den := Nat.mod_lt num hden
  have hupper := roundDiv_le_succ num den
  have hlower := div_le_roundDiv num den
  rcases Nat.lt_trichotomy (num / den + 1) m with hbelow | hnext | habove
  · have hmul : den * (num / den + 2) ≤ den * m := Nat.mul_le_mul_left den hbelow
    rw [Nat.mul_add] at hmul
    omega
  · -- the quotient itself is odd, so that a tie goes up
    have hmul : den * m = den * (num / den) + den := by rw [← hnext, Nat.mul_succ]
    have hodd : ¬ num / den % 2 = 0 := by omega
    unfold roundDiv
    dsimp only
    split
    · omega
    · omega
  · have hmul : den * m ≤ den * (num / den) := Nat.mul_le_mul_left den (Nat.le_of_lt_succ habove)
    omega

/-! ### Whole numbers of units -/

theorem nearest_one (units : Nat) :
    nearest units 1 = roundDiv units (spacing units) * spacing units := by
  rw [nearest, Nat.div_one, Nat.one_mul]

/-- 53 binary digits are kept. -/
theorem div_spacing_lt (units : Nat) : units / spacing units < 2 ^ 53 := by
  apply Nat.div_lt_of_lt_mul
  have hexponent : units.log2 + 1 ≤ units.log2 - 52 + 53 := by omega
  calc units < 2 ^ (units.log2 + 1) := Nat.lt_log2_self
    _ ≤ 2 ^ (units.log2 - 52 + 53) := Nat.pow_le_pow_right (by decide) hexponent
    _ = spacing units * 2 ^ 53 := by rw [spacing_eq, Nat.pow_add]

/-- A number of at most 53 digits and some zeros is a multiple of its own spacing. -/
theorem spacing_dvd {q : Nat} (hq : q ≤ 2 ^ 53) (e : Nat) : spacing (q * 2 ^ e) ∣ q * 2 ^ e := by
  rw [spacing_eq]
  rcases Nat.lt_or_eq_of_le hq with hshort | hpower
  · by_cases hzero : q = 0
    · rw [hzero, Nat.zero_mul]
      exact Nat.dvd_zero _
    · have hne : q * 2 ^ e ≠ 0 := Nat.mul_ne_zero hzero (Nat.two_pow_pos e).ne'
      have hlt : q * 2 ^ e < 2 ^ (53 + e) := by
        rw [Nat.pow_add]
        exact Nat.mul_lt_mul_of_pos_right hshort (Nat.two_pow_pos e)
      have hlog : (q * 2 ^ e).log2 < 53 + e := (Nat.log2_lt hne).2 hlt
      have hexponent : (q * 2 ^ e).log2 - 52 ≤ e := by omega
      exact (Nat.pow_dvd_pow 2 hexponent).mul_left q
  · -- rounding went up to a power of two, where the spacing doubles
    rw [hpower, ← Nat.pow_add, Nat.log2_two_pow]
    have hexponent : 53 + e - 52 ≤ 53 + e := Nat.sub_le _ _
    exact Nat.pow_dvd_pow 2 hexponent

/-- A rounded number can be held unless it is too large. -/
theorem fits_nearest_iff (units : Nat) : Fits (nearest units 1) ↔ nearest units 1 < limit := by
  have hq : roundDiv units (spacing units) ≤ 2 ^ 53 :=
    (roundDiv_le_succ units (spacing units)).trans (div_spacing_lt units)
  have hdvd : nearest units 1 % spacing (nearest units 1) = 0 := by
    rw [nearest_one]
    exact Nat.mod_eq_zero_of_dvd (spacing_dvd hq _)
  exact ⟨And.left, fun h => ⟨h, hdvd⟩⟩

/-- Rounding reaches a power of two from half a spacing below it. -/
theorem nearest_lt_iff {units e : Nat} (he : 0 < e) :
    nearest units 1 < 2 ^ (e + 53) ↔ 2 * units + 2 ^ e < 2 * 2 ^ (e + 53) := by
  have hpos : 0 < 2 ^ e := Nat.two_pow_pos e
  have hsplit : 2 ^ (e + 53) = 2 ^ e * 2 ^ 53 := Nat.pow_add 2 e 53
  rw [nearest_one, spacing_eq]
  rcases Nat.lt_trichotomy units.log2 (e + 52) with hsmall | hlast | hlarge
  · have hunits : units < 2 ^ e * 2 ^ 52 := by
      rw [← Nat.pow_add]
      exact Nat.lt_log2_self.trans_le (Nat.pow_le_pow_right (by decide) hsmall)
    have hq : roundDiv units (2 ^ (units.log2 - 52)) ≤ 2 ^ 53 :=
      (roundDiv_le_succ units _).trans (div_spacing_lt units)
    have hstep : 2 ^ (units.log2 - 52) < 2 ^ e := Nat.pow_lt_pow_right (by decide) (by omega)
    have hnearest : roundDiv units (2 ^ (units.log2 - 52)) * 2 ^ (units.log2 - 52) <
        2 ^ (e + 53) := by
      rw [hsplit, Nat.mul_comm (2 ^ e)]
      exact Nat.mul_lt_mul_of_le_of_lt hq hstep (Nat.two_pow_pos 53)
    refine iff_of_true hnearest ?_
    omega
  · have hexponent : units.log2 - 52 = e := by omega
    rw [hexponent, hsplit, Nat.mul_comm (roundDiv units (2 ^ e)), Nat.mul_lt_mul_left hpos,
      roundDiv_lt_iff hpos (by decide)]
  · have hne : units ≠ 0 := by
      rintro rfl
      rw [Nat.log2_zero] at hlarge
      exact Nat.not_lt_zero _ hlarge
    have hunits : 2 ^ units.log2 ≤ units := Nat.log2_self_le hne
    have hpower : 2 ^ (e + 53) ≤ 2 ^ units.log2 := Nat.pow_le_pow_right (by decide) hlarge
    have hexponent : 52 + (units.log2 - 52) = units.log2 := by omega
    have hlog : 2 ^ 52 * 2 ^ (units.log2 - 52) = 2 ^ units.log2 := by
      rw [← Nat.pow_add, hexponent]
    have hq : 2 ^ 52 ≤ units / 2 ^ (units.log2 - 52) :=
      (Nat.le_div_iff_mul_le (Nat.two_pow_pos _)).2 (hlog.trans_le hunits)
    have hnearest : 2 ^ units.log2 ≤
        roundDiv units (2 ^ (units.log2 - 52)) * 2 ^ (units.log2 - 52) :=
      hlog.symm.trans_le (Nat.mul_le_mul_right _ (hq.trans (div_le_roundDiv _ _)))
    refine iff_of_false (Nat.not_lt.2 (hpower.trans hnearest)) ?_
    omega

/-! ### Integers -/

theorem bounded?_ofUnits_eq_none_iff {negative : Bool} {units : Nat} :
    bounded? (ofUnits negative units) = none ↔ ¬ Fits units := by
  unfold ofUnits
  by_cases hfits : Fits units
  · rw [dif_pos hfits]
    exact iff_of_false nofun (not_not_intro hfits)
  · rw [dif_neg hfits]
    exact iff_of_true rfl hfits

theorem scaled_le_iff (m p r s : Nat) :
    2 * 2 ^ (p + r) ≤ 2 * (m * 2 ^ p) + 2 ^ (p + (s + 1)) ↔ 2 ^ r ≤ m + 2 ^ s := by
  have hleft : 2 * 2 ^ (p + r) = 2 * 2 ^ p * 2 ^ r := by ring
  have hright : 2 * (m * 2 ^ p) + 2 ^ (p + (s + 1)) = 2 * 2 ^ p * (m + 2 ^ s) := by ring
  have hpos : 0 < 2 * 2 ^ p := Nat.mul_pos Nat.two_pos (Nat.two_pow_pos p)
  rw [hleft, hright, Nat.mul_le_mul_left_iff hpos]

/-- **The integers that convert.** An integer is too large for a floating-point number just if it is
at least half a spacing above the greatest finite one. -/
theorem ofInt?_eq_none_iff {n : Int} : ofInt? n = none ↔ 2 ^ 1024 ≤ n.natAbs + 2 ^ 970 := by
  have hlast : 2098 = 2045 + 53 := rfl
  have hpower : 2045 + 53 = 1074 + 1024 := rfl
  have hhalf : 2045 = 1074 + (970 + 1) := rfl
  rw [ofInt?, ofRatio, bounded?_ofUnits_eq_none_iff, fits_nearest_iff, limit_eq, hlast,
    nearest_lt_iff (by decide), Nat.not_lt, one_eq, hpower, hhalf, scaled_le_iff]

end Phrasebook.Binary64
