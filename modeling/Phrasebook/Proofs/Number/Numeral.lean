import Mathlib.Data.List.TakeDrop
import Mathlib.Data.List.TakeWhile
import Phrasebook.Proofs.Number.Rounding
import Phrasebook.Proofs.Text.Decimal
import Phrasebook.Value.Compare

/-! The texts of integers. An integer is written as a sign and decimal digits. No floating-point
number is written that way (`Binary64.text_ne_toString`). Read as a real number, the text of an
integer gives the floating-point number that the integer converts to; of an integer that does not
convert, the infinity on its side (`Value.toNumber_toString`). -/

namespace Phrasebook

open Text (numeral toList_toString mem_numeral isDigit_of_mem_toDigits)

namespace Shortest

theorem mem_positional (d : Decimal) : '.' ∈ positional d := by
  unfold positional
  split
  · simp
  · simp

theorem mem_scientific (d : Decimal) : 'e' ∈ scientific d := by
  unfold scientific
  simp

end Shortest

/-- A character that is written in a number only if it is no integer. -/
def Foreign (c : Char) : Prop :=
  c ≠ '-' ∧ c.isDigit = false

instance (c : Char) : Decidable (Foreign c) :=
  inferInstanceAs (Decidable (_ ∧ _))

theorem not_foreign_of_mem_numeral {n : Int} {c : Char} (h : c ∈ numeral n) : ¬ Foreign c := by
  rintro ⟨hsign, hdigit⟩
  rcases mem_numeral h with rfl | hc
  · exact hsign rfl
  · exact Bool.false_ne_true (hdigit.symm.trans hc)

theorem Shortest.exists_foreign_mem_decimalText (d : Decimal) : ∃ c ∈ decimalText d, Foreign c := by
  unfold decimalText
  split
  · exact ⟨'.', mem_positional d, by decide⟩
  · exact ⟨'e', mem_scientific d, by decide⟩

/-- The text of a floating-point number has a point, an exponent or the letters of a word. -/
theorem Binary64.exists_foreign_mem_text (x : Binary64) : ∃ c ∈ x.text.toList, Foreign c := by
  cases x with
  | nan mark => exact ⟨'n', by rw [text]; decide, by decide⟩
  | infinite negative =>
      refine ⟨'i', ?_, by decide⟩
      rw [text]
      cases negative <;> decide
  | finite negative units fits =>
      have hbody : ∃ c ∈ (if units = 0 then "0.0".toList
          else Shortest.decimalText (Shortest.decimal units)), Foreign c := by
        split
        · exact ⟨'.', by decide, by decide⟩
        · exact Shortest.exists_foreign_mem_decimalText _
      obtain ⟨c, hc, hforeign⟩ := hbody
      refine ⟨c, ?_, hforeign⟩
      rw [text, String.toList_ofList]
      by_cases hsign : negative = true
      · rw [if_pos hsign]
        exact List.mem_cons_of_mem _ hc
      · rw [if_neg hsign]
        exact hc

/-- No floating-point number is written like an integer. -/
theorem Binary64.text_ne_toString (x : Binary64) (n : Int) : x.text ≠ toString n := by
  intro h
  obtain ⟨c, hc, hforeign⟩ := x.exists_foreign_mem_text
  rw [h, toList_toString] at hc
  exact not_foreign_of_mem_numeral hc hforeign

namespace Reading

theorem plainDigit_of_isDigit {c : Char} (h : c.isDigit = true) : plainDigit c = c := by
  have hcode : 48 + (c.toNat - 48) = c.toNat := by
    have hrange : 48 ≤ c.toNat ∧ c.toNat ≤ 57 := Char.isDigit_iff_toNat.1 h
    omega
  rw [plainDigit, Text.digitValue?_of_isDigit h]
  dsimp only
  rw [hcode, Char.ofNat_toNat]

theorem plainDigit_of_mem_numeral {n : Int} {c : Char} (h : c ∈ numeral n) : plainDigit c = c := by
  rcases mem_numeral h with rfl | hdigit
  · rfl
  · exact plainDigit_of_isDigit hdigit

theorem map_plainDigit_numeral (n : Int) : (numeral n).map plainDigit = numeral n := by
  have hall : (numeral n).map plainDigit = (numeral n).map id :=
    List.map_congr_left fun c hc => plainDigit_of_mem_numeral hc
  rw [hall, List.map_id]

theorem trim_numeral (n : Int) : Text.trim (numeral n) = numeral n := by
  have hsolid : ∀ c ∈ numeral n, Text.isBlank c = false := by
    intro c hc
    rcases mem_numeral hc with rfl | hdigit
    · rfl
    · exact Text.isBlank_of_isDigit (Text.isDigit_of_ascii hdigit)
  refine Text.trimBy_eq_self_iff.2 ⟨fun c hc => ?_, fun c hc => ?_⟩
  · exact hsolid c (List.mem_of_mem_head? hc)
  · exact hsolid c (List.mem_of_getLast? hc)

theorem sign_numeral (n : Int) : sign (numeral n) = (decide (n < 0), Nat.toDigits 10 n.natAbs) := by
  rw [numeral]
  by_cases hn : n < 0
  · rw [if_pos hn, decide_eq_true hn]
    rfl
  · rw [if_neg hn, decide_eq_false hn, List.nil_append]
    cases hdigits : Nat.toDigits 10 n.natAbs with
    | nil => rfl
    | cons c cs =>
        have hc : c.isDigit = true :=
          isDigit_of_mem_toDigits (n := n.natAbs) (hdigits ▸ List.mem_cons_self)
        have hsign : ∀ mark : Char, mark.isDigit = false → c ≠ mark := by
          rintro _ hmark rfl
          exact Bool.false_ne_true (hmark.symm.trans hc)
        unfold sign
        split
        next hcons => exact absurd (List.cons.inj hcons).1 (hsign '-' (by decide))
        next hcons => exact absurd (List.cons.inj hcons).1 (hsign '+' (by decide))
        next => rfl

theorem dropUnderscores_eq_self {afterDigit : Bool} {cs : List Char} (h : '_' ∉ cs) :
    dropUnderscores afterDigit cs = some cs := by
  fun_induction dropUnderscores afterDigit cs with
  | case1 => rfl
  | case2 afterDigit c cs hc ih => exact absurd List.mem_cons_self h
  | case3 afterDigit c cs hc => exact absurd List.mem_cons_self h
  | case4 => exact absurd List.mem_cons_self h
  | case5 afterDigit c cs hpair hlast ih =>
      rw [ih fun hmem => h (List.mem_cons_of_mem _ hmem)]
      rfl

theorem natValue_toDigits (n : Nat) : natValue (Nat.toDigits 10 n) = n :=
  Nat.ofDigitChars_toDigits (by omega) (by omega)

/-- No word begins with a digit. -/
theorem wordValue?_of_isDigit {negative : Bool} {c : Char} (cs : List Char)
    (h : c.isDigit = true) : wordValue? negative (c :: cs) = none := by
  have hlower : c.toLower = c := by
    have hrange : 48 ≤ c.toNat ∧ c.toNat ≤ 57 := Char.isDigit_iff_toNat.1 h
    unfold Char.toLower
    refine dif_neg ?_
    rintro ⟨hlow, -⟩
    have : 65 ≤ c.toNat := hlow
    omega
  have hword : ∀ word : List Char, word.head?.any Char.isDigit = false →
      (c :: cs).map Char.toLower ≠ word := by
    rintro _ hhead rfl
    rw [List.map_cons, List.head?_cons, hlower, Option.any_some, h] at hhead
    exact Bool.false_ne_true hhead.symm
  rw [wordValue?, if_neg (not_or.2 ⟨hword _ (by decide), hword _ (by decide)⟩),
    if_neg (hword _ (by decide))]

theorem unsignedReal?_toDigits (negative : Bool) (n : Nat) :
    unsignedReal? negative (Nat.toDigits 10 n) = some (.ofDecimal negative n 0) := by
  have hdigits : ∀ c ∈ Nat.toDigits 10 n, c.isDigit = true := fun c hc => isDigit_of_mem_toDigits hc
  have hspan : (Nat.toDigits 10 n).span Char.isDigit = (Nat.toDigits 10 n, []) := by
    rw [List.span_eq_takeWhile_dropWhile, List.takeWhile_eq_self_iff.2 hdigits,
      List.dropWhile_eq_nil_iff.2 hdigits]
  have hsome : (Nat.toDigits 10 n).isEmpty = false :=
    List.isEmpty_eq_false_iff.2 Nat.toDigits_ne_nil
  have hword : wordValue? negative (Nat.toDigits 10 n) = none := by
    cases hcs : Nat.toDigits 10 n with
    | nil => exact absurd hcs Nat.toDigits_ne_nil
    | cons c cs => exact wordValue?_of_isDigit cs (hdigits c (hcs ▸ List.mem_cons_self))
  simp only [unsignedReal?, hword, hspan, fraction, hsome, Bool.false_and, Bool.false_eq_true,
    if_false, List.append_nil, natValue_toDigits, exponent?, Option.map_some, List.length_nil]
  rfl

/-- **An integer in a text is read as a decimal number.** -/
theorem real?_numeral (n : Int) : real? (numeral n) = some (.ofDecimal (n < 0) n.natAbs 0) := by
  have hplain : '_' ∉ numeral n := by
    intro hmem
    rcases mem_numeral hmem with h | h
    · cases h
    · cases h
  simp only [real?, trim_numeral, map_plainDigit_numeral, dropUnderscores_eq_self hplain]
  show unsignedReal? (sign (numeral n)).1 (sign (numeral n)).2 = _
  rw [sign_numeral]
  exact unsignedReal?_toDigits _ _

end Reading

/-! ### Conversion -/

namespace Binary64

theorem ten_pow_le_of_length {n k : Nat} (hk : 0 < k) (h : k < (Nat.repr n).length) :
    10 ^ k ≤ n := by
  have hlength : (Nat.repr n).length = (Nat.toDigits 10 n).length := by
    rw [← String.length_toList, Nat.toList_repr]
  rw [hlength] at h
  exact Nat.not_lt.1 fun hlt => Nat.not_le.2 h ((Nat.length_toDigits_le_iff (by omega) hk).2 hlt)

/-- **The text of an integer is read as the integer converts**, but for an infinity. -/
theorem ofInt?_eq_bounded?_ofDecimal (n : Int) :
    ofInt? n = bounded? (ofDecimal (n < 0) n.natAbs 0) := by
  have hshort : ¬ (0 + ((Nat.repr n.natAbs).length : Int) < -400) := by omega
  rw [ofDecimal]
  by_cases hzero : n.natAbs = 0
  · rw [if_pos (.inl hzero), ofInt?, ofRatio, hzero, Nat.zero_mul, nearest_of_le (Nat.zero_le _)]
  · rw [if_neg (not_or.2 ⟨hzero, hshort⟩)]
    by_cases hlong : 400 < 0 + ((Nat.repr n.natAbs).length : Int)
    · have hlarge : 10 ^ 400 ≤ n.natAbs := ten_pow_le_of_length (by omega) (by omega)
      have hlimit : 2 ^ 1024 ≤ 10 ^ 400 := by decide +kernel
      rw [if_pos hlong, ofInt?_eq_none_iff.2 ((hlimit.trans hlarge).trans (Nat.le_add_right _ _))]
      rfl
    · rw [if_neg hlong, if_pos (Int.le_refl 0)]
      have hpower : n.natAbs * Nat.pow 10 (0 : Int).toNat = n.natAbs := Nat.mul_one _
      rw [hpower, ofInt?]

variable {n : Int} {x : Binary64}

theorem isFinite_of_ofInt? (h : ofInt? n = some x) : x.isFinite = true := by
  rw [ofInt?, ofRatio] at h
  unfold ofUnits at h
  split at h
  · cases h
    rfl
  · cases h

theorem ofDecimal_of_ofInt? (h : ofInt? n = some x) : ofDecimal (n < 0) n.natAbs 0 = x := by
  rw [ofInt?_eq_bounded?_ofDecimal] at h
  unfold bounded? at h
  split at h
  · cases h
  · exact Option.some.inj h

theorem not_isFinite_of_ofInt? (h : ofInt? n = none) :
    (ofDecimal (n < 0) n.natAbs 0).isFinite = false := by
  rw [ofInt?_eq_bounded?_ofDecimal] at h
  unfold bounded? at h
  split at h
  next hinfinite =>
    rw [hinfinite]
    rfl
  next => cases h

end Binary64

/-- A text that spells an integer is that integer as a decimal number. -/
theorem Value.toNumber_toString (n : Int) :
    toNumber (.text (toString n)) = .ok (.ofDecimal (n < 0) n.natAbs 0) := by
  have hsome : (numeral n).isEmpty = false := by
    rw [List.isEmpty_eq_false_iff, numeral]
    exact List.append_ne_nil_of_right_ne_nil _ Nat.toDigits_ne_nil
  rw [toNumber, toList_toString]
  simp only [Reading.trim_numeral, hsome, Reading.real?_numeral]
  rfl

end Phrasebook
