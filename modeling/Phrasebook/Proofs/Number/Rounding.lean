import Phrasebook.Proofs.Number.Exact

/-! Rounding and order. A greater number is never rounded to a smaller one (`nearest_mono`): between
two powers of two the spacing is the same, and no number is rounded across a power of two. Zeros at
the end of a number do not change how it is rounded (`nearest_mul_two_pow`), so that an integer and
its number of units are rounded alike, and the place of a converted integer in the order is that of
`rounded`. -/

namespace Phrasebook.Binary64

/-! ### The order of numbers -/

section

variable {x y : Binary64}

theorem eq_iff_rank : x.eq y = true ↔ ∃ r s, x.rank = some r ∧ y.rank = some s ∧ r = s := by
  rw [eq]
  cases x.rank with
  | none => simp
  | some r =>
      cases y.rank with
      | none => simp
      | some s =>
          rw [beq_iff_eq]
          refine ⟨fun h => ⟨r, s, rfl, rfl, h⟩, ?_⟩
          rintro ⟨_, _, ⟨⟩, ⟨⟩, h⟩
          exact h

theorem lt_iff_rank : x.lt y = true ↔ ∃ r s, x.rank = some r ∧ y.rank = some s ∧ r < s := by
  rw [lt]
  cases x.rank <;> cases y.rank <;> simp

theorem le_iff_rank : x.le y = true ↔ ∃ r s, x.rank = some r ∧ y.rank = some s ∧ r ≤ s := by
  rw [le]
  cases x.rank <;> cases y.rank <;> simp

end

/-! ### Rounding keeps the order -/

theorem roundDiv_mono {m n : Nat} (h : m ≤ n) (den : Nat) :
    roundDiv m den ≤ roundDiv n den := by
  have hquotient : m / den ≤ n / den := Nat.div_le_div_right h
  have hupper := roundDiv_le_succ m den
  have hlower := div_le_roundDiv n den
  rcases Nat.lt_or_eq_of_le hquotient with hlt | heq
  · omega
  · -- with one quotient, the remainders are in order
    have hm : den * (m / den) + m % den = m := Nat.div_add_mod m den
    have hn : den * (n / den) + n % den = n := Nat.div_add_mod n den
    rw [← heq] at hn
    have hrem : m % den ≤ n % den := by omega
    unfold roundDiv
    dsimp only
    rw [← heq]
    split <;> split <;> omega

theorem spacing_pos (units : Nat) : 0 < spacing units :=
  spacing_eq units ▸ Nat.two_pow_pos _

theorem two_pow_log2_le_nearest {n : Nat} (hn : n ≠ 0) : 2 ^ n.log2 ≤ nearest n 1 := by
  have hdvd : spacing n ∣ 2 ^ n.log2 := spacing_eq n ▸ Nat.pow_dvd_pow 2 (Nat.sub_le _ _)
  have hround : roundDiv (2 ^ n.log2) (spacing n) ≤ roundDiv n (spacing n) :=
    roundDiv_mono (Nat.log2_self_le hn) _
  calc 2 ^ n.log2 = roundDiv (2 ^ n.log2) (spacing n) * spacing n := by
        rw [roundDiv_of_dvd (spacing_pos n) hdvd, Nat.div_mul_cancel hdvd]
    _ ≤ roundDiv n (spacing n) * spacing n := Nat.mul_le_mul_right _ hround
    _ = nearest n 1 := (nearest_one n).symm

theorem nearest_le_two_pow_log2 (n : Nat) : nearest n 1 ≤ 2 ^ (n.log2 + 1) := by
  have hexponent : n.log2 - 52 ≤ n.log2 + 1 := by omega
  have hdvd : spacing n ∣ 2 ^ (n.log2 + 1) := spacing_eq n ▸ Nat.pow_dvd_pow 2 hexponent
  have hround : roundDiv n (spacing n) ≤ roundDiv (2 ^ (n.log2 + 1)) (spacing n) :=
    roundDiv_mono Nat.lt_log2_self.le _
  calc nearest n 1 = roundDiv n (spacing n) * spacing n := nearest_one n
    _ ≤ roundDiv (2 ^ (n.log2 + 1)) (spacing n) * spacing n := Nat.mul_le_mul_right _ hround
    _ = 2 ^ (n.log2 + 1) := by
        rw [roundDiv_of_dvd (spacing_pos n) hdvd, Nat.div_mul_cancel hdvd]

theorem log2_mono {m n : Nat} (h : m ≤ n) : m.log2 ≤ n.log2 := by
  rw [Nat.log2_eq_log_two, Nat.log2_eq_log_two]
  exact Nat.log_mono_right h

/-- **A greater number is not rounded to a smaller one.** -/
theorem nearest_mono {m n : Nat} (h : m ≤ n) : nearest m 1 ≤ nearest n 1 := by
  rcases Nat.lt_or_eq_of_le (log2_mono h) with hlog | hlog
  · have hn : n ≠ 0 := by
      rintro rfl
      rw [Nat.log2_zero] at hlog
      exact Nat.not_lt_zero _ hlog
    calc nearest m 1 ≤ 2 ^ (m.log2 + 1) := nearest_le_two_pow_log2 m
      _ ≤ 2 ^ n.log2 := Nat.pow_le_pow_right Nat.two_pos hlog
      _ ≤ nearest n 1 := two_pow_log2_le_nearest hn
  · have hspacing : spacing m = spacing n := by rw [spacing_eq, spacing_eq, hlog]
    rw [nearest_one, nearest_one, hspacing]
    exact Nat.mul_le_mul_right _ (roundDiv_mono h _)

/-- 53 binary digits are not rounded. -/
theorem nearest_of_le {n : Nat} (h : n ≤ 2 ^ 53) : nearest n 1 = n := by
  have hdvd : spacing n ∣ n := by
    have hdvd := spacing_dvd h 0
    rwa [Nat.pow_zero, Nat.mul_one] at hdvd
  rw [nearest_one, roundDiv_of_dvd (spacing_pos n) hdvd, Nat.div_mul_cancel hdvd]

theorem roundDiv_mul_right (num den : Nat) {k : Nat} (hk : 0 < k) :
    roundDiv (num * k) (den * k) = roundDiv num den := by
  unfold roundDiv
  dsimp only
  rw [Nat.mul_div_mul_right num den hk, Nat.mul_mod_mul_right]
  have hlt : 2 * (num % den * k) < den * k ↔ 2 * (num % den) < den := by
    rw [← Nat.mul_assoc, Nat.mul_lt_mul_right hk]
  have heq : 2 * (num % den * k) = den * k ↔ 2 * (num % den) = den := by
    rw [← Nat.mul_assoc, Nat.mul_left_inj hk.ne']
  simp only [hlt, heq]

theorem log2_mul_two_pow {n : Nat} (hn : n ≠ 0) (e : Nat) : (n * 2 ^ e).log2 = n.log2 + e := by
  induction e with
  | zero => rw [Nat.pow_zero, Nat.mul_one, Nat.add_zero]
  | succ e ih =>
      have hne : n * 2 ^ e ≠ 0 := Nat.mul_ne_zero hn (Nat.two_pow_pos e).ne'
      rw [Nat.pow_succ, ← Nat.mul_assoc, Nat.mul_comm, Nat.log2_two_mul hne, ih, Nat.add_assoc]

/-- Zeros behind a number do not change how it is rounded. -/
theorem nearest_mul_two_pow (n e : Nat) : nearest (n * 2 ^ e) 1 = nearest n 1 * 2 ^ e := by
  by_cases hn : n = 0
  · rw [hn, Nat.zero_mul, nearest_of_le (Nat.zero_le _), Nat.zero_mul]
  · have hlog : (n * 2 ^ e).log2 = n.log2 + e := log2_mul_two_pow hn e
    rcases Nat.lt_or_ge n.log2 52 with hshort | hlong
    · have hpower : 2 ^ (n.log2 + 1) ≤ 2 ^ 53 := Nat.pow_le_pow_right Nat.two_pos (by omega)
      have hdvd : spacing (n * 2 ^ e) ∣ n * 2 ^ e := by
        have hexponent : n.log2 + e - 52 ≤ e := by omega
        rw [spacing_eq, hlog]
        exact (Nat.pow_dvd_pow 2 hexponent).mul_left n
      rw [nearest_of_le (Nat.lt_log2_self.le.trans hpower), nearest_one,
        roundDiv_of_dvd (spacing_pos _) hdvd, Nat.div_mul_cancel hdvd]
    · have hspacing : spacing (n * 2 ^ e) = spacing n * 2 ^ e := by
        have hexponent : n.log2 + e - 52 = n.log2 - 52 + e := by omega
        rw [spacing_eq, spacing_eq, hlog, hexponent, Nat.pow_add]
      rw [nearest_one, nearest_one, hspacing, roundDiv_mul_right _ _ (Nat.two_pow_pos e),
        Nat.mul_assoc]

/-! ### Rounded integers -/

/-- The integer that conversion makes of an integer: the nearest one that has 53 binary digits and
zeros behind them. -/
def rounded (n : Int) : Int :=
  if n < 0 then -(nearest n.natAbs 1 : Nat) else (nearest n.natAbs 1 : Nat)

theorem rounded_of_natAbs_le {n : Int} (h : n.natAbs ≤ 2 ^ 53) : rounded n = n := by
  rw [rounded, nearest_of_le h]
  split <;> omega

theorem rounded_mono {a b : Int} (h : a ≤ b) : rounded a ≤ rounded b := by
  unfold rounded
  split
  · split
    · have hmono : nearest b.natAbs 1 ≤ nearest a.natAbs 1 := nearest_mono (by omega)
      omega
    · omega
  · have hmono : nearest a.natAbs 1 ≤ nearest b.natAbs 1 := nearest_mono (by omega)
    split <;> omega

theorem rank_of_ofInt? {n : Int} {x : Binary64} (h : ofInt? n = some x) :
    x.rank = some (rounded n * one) := by
  have hscaled : nearest (n.natAbs * one) 1 = nearest n.natAbs 1 * one := by
    rw [one_eq, nearest_mul_two_pow]
  rw [ofInt?, ofRatio, hscaled] at h
  unfold ofUnits at h
  split at h
  · cases h
    rw [rank, rounded, Nat.cast_mul]
    by_cases hn : n < 0
    · rw [decide_eq_true hn, if_pos rfl, if_pos hn, neg_mul]
    · rw [decide_eq_false hn, if_neg Bool.false_ne_true, if_neg hn]
  · cases h

end Phrasebook.Binary64
