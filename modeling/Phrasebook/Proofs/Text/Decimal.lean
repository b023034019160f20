import Mathlib.Algebra.Group.Nat.Defs
import Mathlib.Data.List.Induction
import Phrasebook.Text.Blank
import Phrasebook.Text.DecimalDigit

/-! Decimal spellings and their values. The digits with which a natural number is printed are read
as that number, and a number is printed with no more digits than it was read from. An integer is
printed as the digits of its magnitude behind a sign. -/

namespace Phrasebook.Text

/-! ### Single digits -/

theorem digitValue?_lt {c : Char} {d : Nat} (h : digitValue? c = some d) : d < 10 := by
  obtain ⟨first, hfirst, rfl⟩ := Option.map_eq_some_iff.1 h
  have hrange := List.find?_some hfirst
  simp only [Bool.and_eq_true, decide_eq_true_eq] at hrange
  omega

theorem digitValue?_digitChar {d : Nat} (h : d < 10) : digitValue? d.digitChar = some d := by
  have hall : ∀ d : Fin 10, digitValue? (Nat.digitChar d) = some d.val := by decide
  exact hall ⟨d, h⟩

theorem digitValue?_of_isDigit {c : Char} (h : c.isDigit = true) :
    digitValue? c = some (c.toNat - 48) := by
  have hrange : 48 ≤ c.toNat ∧ c.toNat ≤ 57 := Char.isDigit_iff_toNat.1 h
  have hfirst : zeroDigits.find? (fun first => first ≤ c.toNat && c.toNat ≤ first + 9) =
      some 48 := by
    rw [zeroDigits, List.find?_cons_of_pos (by simpa using hrange)]
  rw [digitValue?, hfirst]
  rfl

/-- The digits of ASCII are digits. -/
theorem isDigit_of_ascii {c : Char} (h : c.isDigit = true) : isDigit c = true := by
  rw [isDigit, digitValue?_of_isDigit h]
  rfl

/-- Where the digits of all scripts stand among the characters. -/
theorem range_of_isDigit {c : Char} (h : isDigit c = true) :
    (0x30 ≤ c.toNat ∧ c.toNat ≤ 0x39) ∨ (0x660 ≤ c.toNat ∧ c.toNat ≤ 0x1099) ∨
      (0x17e0 ≤ c.toNat ∧ c.toNat ≤ 0x1c59) ∨ 0xa620 ≤ c.toNat := by
  have hzero : ∀ first ∈ zeroDigits, first = 0x30 ∨ (0x660 ≤ first ∧ first ≤ 0x1090) ∨
      (0x17e0 ≤ first ∧ first ≤ 0x1c50) ∨ 0xa620 ≤ first := by decide
  obtain ⟨d, hd⟩ := Option.isSome_iff_exists.1 h
  obtain ⟨first, hfirst, -⟩ := Option.map_eq_some_iff.1 hd
  have hrange := List.find?_some hfirst
  have hplace := hzero first (List.mem_of_find?_eq_some hfirst)
  simp only [Bool.and_eq_true, decide_eq_true_eq] at hrange
  omega

/-- No digit is a blank. -/
theorem isBlank_of_isDigit {c : Char} (h : isDigit c = true) : isBlank c = false := by
  have hrange := range_of_isDigit h
  unfold isBlank
  simp only [Bool.or_eq_false_iff, Bool.and_eq_false_iff, decide_eq_false_iff_not,
    beq_eq_false_iff_ne]
  omega

/-! ### Runs of digits -/

theorem digitsValue_concat {cs : List Char} {c : Char} {d : Nat} (h : digitValue? c = some d) :
    digitsValue (cs ++ [c]) = 10 * digitsValue cs + d := by
  simp [digitsValue, List.filterMap_append, List.foldl_append, h]

theorem digitsValue_concat_of_none {cs : List Char} {c : Char} (h : digitValue? c = none) :
    digitsValue (cs ++ [c]) = digitsValue cs := by
  simp [digitsValue, List.filterMap_append, h]

/-- A spelling has a value below the power of ten of its length. -/
theorem digitsValue_lt (cs : List Char) : digitsValue cs < 10 ^ cs.length := by
  induction cs using List.reverseRecOn with
  | nil => decide
  | append_singleton cs c ih =>
      rw [List.length_append, List.length_singleton, Nat.pow_succ]
      cases hc : digitValue? c with
      | none =>
          rw [digitsValue_concat_of_none hc]
          omega
      | some d =>
          have hd := digitValue?_lt hc
          rw [digitsValue_concat hc]
          omega

/-- **A printed number is read as that number.** -/
theorem digitsValue_toDigits (n : Nat) : digitsValue (Nat.toDigits 10 n) = n := by
  induction n using Nat.strongRecOn with
  | ind n ih =>
      rcases Nat.lt_or_ge n 10 with h | h
      · rw [Nat.toDigits_of_lt_base h]
        simp [digitsValue, digitValue?_digitChar h]
      · have hvalue : digitValue? (n % 10).digitChar = some (n % 10) :=
          digitValue?_digitChar (Nat.mod_lt n (by omega))
        rw [Nat.toDigits_of_base_le (by omega) h, digitsValue_concat hvalue,
          ih (n / 10) (Nat.div_lt_self (by omega) (by omega))]
        omega

/-- Digits of all scripts and leading zeros only make a spelling longer. -/
theorem length_toDigits_digitsValue_le {cs : List Char} {limit : Nat} (hlimit : 0 < limit)
    (h : cs.length ≤ limit) : (Nat.toDigits 10 (digitsValue cs)).length ≤ limit := by
  rw [Nat.length_toDigits_le_iff (by omega) hlimit]
  exact Nat.lt_of_lt_of_le (digitsValue_lt cs) (Nat.pow_le_pow_right (by omega) h)

/-! ### Integers -/

/-- The characters with which an integer is written. -/
def numeral (n : Int) : List Char :=
  (if n < 0 then ['-'] else []) ++ Nat.toDigits 10 n.natAbs

theorem toList_toString (n : Int) : (toString n).toList = numeral n := by
  rw [Int.toString_eq_repr, Int.repr_eq_if, numeral]
  by_cases hn : n < 0
  · have habs : (-n).toNat = n.natAbs := by omega
    rw [if_neg (Int.not_le.2 hn), if_pos hn, String.toList_append, Nat.toList_repr, habs]
    rfl
  · have habs : n.toNat = n.natAbs := by omega
    rw [if_pos (Int.not_lt.1 hn), if_neg hn, Nat.toList_repr, habs, List.nil_append]

theorem isDigit_of_mem_toDigits {n : Nat} {c : Char} (h : c ∈ Nat.toDigits 10 n) :
    c.isDigit = true :=
  Nat.isDigit_of_mem_toDigits (by omega) (by omega) h

theorem mem_numeral {n : Int} {c : Char} (h : c ∈ numeral n) : c = '-' ∨ c.isDigit = true := by
  rcases List.mem_append.1 h with hsign | hdigit
  · split at hsign
    · exact .inl (List.mem_singleton.1 hsign)
    · cases hsign
  · exact .inr (isDigit_of_mem_toDigits hdigit)

end Phrasebook.Text
