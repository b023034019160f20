import Mathlib.Tactic.SplitIfs
import Phrasebook.Text.Encoding
import Phrasebook.Text.Quoted

/-! Texts that can be encoded. Whatever characters stand for the halves of pairs, they are of
private use: a text without such characters can be encoded (`isEncodable_of_forall_lt`), and no code
point outside private use but half of a pair is read as one of them (`isSurrogate_codePoint_iff`). A
quoted text can always be encoded (`isEncodable_quoted`), since it shows no character of private use
as it is. -/

namespace Phrasebook.Text

/-! ### What may stand in a quoted text -/

theorem toNat_hexDigit_lt : ∀ n < 16, (hexDigit n).toNat < 0x80 := by
  decide

theorem toNat_lt_of_mem_hexDigits {width n : Nat} {c : Char} (h : c ∈ hexDigits width n) :
    c.toNat < 0x80 := by
  induction width generalizing n with
  | zero => cases h
  | succ width ih =>
      rw [hexDigits, List.mem_append, List.mem_singleton] at h
      rcases h with hfront | rfl
      · exact ih hfront
      · exact toNat_hexDigit_lt _ (Nat.mod_lt _ (by decide))

theorem toNat_lt_of_mem_escapeCode {c d : Char} (h : d ∈ escapeCode c) : d.toNat < 0x80 := by
  -- a backslash, the letter of the width, and the digits
  have hmarked : ∀ {letter : Char} {width : Nat}, letter.toNat < 0x80 →
      d ∈ '\\' :: letter :: hexDigits width c.toNat → d.toNat < 0x80 := by
    intro letter width hletter hd
    rw [List.mem_cons, List.mem_cons] at hd
    rcases hd with rfl | rfl | hdigit
    · decide
    · exact hletter
    · exact toNat_lt_of_mem_hexDigits hdigit
  unfold escapeCode at h
  dsimp only at h
  split_ifs at h
  · exact hmarked (by decide) h
  · exact hmarked (by decide) h
  · exact hmarked (by decide) h

/-- Characters of private use are not printable. -/
theorem toNat_lt_of_isPrintable {c : Char} (h : isPrintable c = true) : c.toNat < 0xf0000 := by
  have hranges : ∀ r ∈ printableRanges.toList, r.2 < 0xf0000 := by decide +kernel
  unfold isPrintable at h
  split_ifs at h with hascii
  · omega
  · rw [Array.any_eq_true'] at h
    obtain ⟨r, hr, hin⟩ := h
    have hend := hranges r (Array.mem_toList_iff.2 hr)
    simp only [Bool.and_eq_true, decide_eq_true_eq] at hin
    omega

theorem toNat_lt_of_mem_quotedChar {quote c d : Char} (hquote : quote.toNat < 0x80)
    (h : d ∈ quotedChar quote c) : d.toNat < 0xf0000 := by
  have hbackslash : ∀ {e : Char}, e.toNat < 0x80 → d ∈ ['\\', e] → d.toNat < 0xf0000 := by
    intro e he hd
    simp only [List.mem_cons, List.not_mem_nil, or_false] at hd
    rcases hd with rfl | rfl
    · decide
    · omega
  unfold quotedChar at h
  split_ifs at h with _ _ _ _ _ hprintable
  · exact hbackslash hquote h
  · exact hbackslash (by decide) h
  · exact hbackslash (by decide) h
  · exact hbackslash (by decide) h
  · exact hbackslash (by decide) h
  · rw [List.mem_singleton.1 h]
    exact toNat_lt_of_isPrintable hprintable
  · exact Nat.lt_trans (toNat_lt_of_mem_escapeCode h) (by decide)

/-- **A quoted text holds no characters of private use.** -/
theorem toNat_lt_of_mem_quoted {s : String} {c : Char} (h : c ∈ (quoted s).toList) :
    c.toNat < 0xf0000 := by
  have hmark : (quoteMark s.toList).toNat < 0x80 := by
    unfold quoteMark
    split <;> decide
  rw [quoted, String.toList_ofList, List.cons_append, List.mem_cons, List.mem_append,
    List.mem_singleton, List.mem_flatMap] at h
  rcases h with rfl | ⟨d, -, hd⟩ | rfl
  · omega
  · exact toNat_lt_of_mem_quotedChar hmark hd
  · omega

/-! ### Stand-ins -/

theorem toNat_ofNat_of_isValidChar {n : Nat} (h : n.isValidChar) : (Char.ofNat n).toNat = n := by
  rw [Char.ofNat, dif_pos h]
  rfl

section

variable [Surrogates]

theorem isSurrogate_of_lt {c : Char} (h : c.toNat < 0xf0000) : isSurrogate c = false := by
  have hprivate := Surrogates.isPrivate.1
  rw [isSurrogate, Bool.and_eq_false_iff, decide_eq_false_iff_not]
  exact .inl (by omega)

/-- **Just the halves of pairs are stood in for.** -/
theorem isSurrogate_codePoint_iff {n : Nat} (h : n < 0xf0000) :
    isSurrogate (codePoint n) = true ↔ 0xd800 ≤ n ∧ n < 0xe000 := by
  obtain ⟨hfirst, hlast⟩ := Surrogates.isPrivate
  by_cases hhalf : 0xd800 ≤ n ∧ n < 0xe000
  · have hvalid : (Surrogates.first + (n - 0xd800)).isValidChar := .inr ⟨by omega, by omega⟩
    have hcode : (codePoint n).toNat = Surrogates.first + (n - 0xd800) := by
      rw [codePoint, if_pos hhalf, toNat_ofNat_of_isValidChar hvalid]
    rw [isSurrogate, hcode, iff_true_right hhalf, Bool.and_eq_true, decide_eq_true_eq,
      decide_eq_true_eq]
    omega
  · have hvalid : n.isValidChar := by
      unfold Nat.isValidChar
      omega
    have hcode : (codePoint n).toNat = n := by
      rw [codePoint, if_neg hhalf, toNat_ofNat_of_isValidChar hvalid]
    rw [isSurrogate_of_lt (hcode.symm ▸ h), iff_false_right hhalf]
    exact Bool.false_ne_true

theorem isEncodable_of_forall_lt {s : String} (h : ∀ c ∈ s.toList, c.toNat < 0xf0000) :
    isEncodable s = true := by
  rw [isEncodable, List.all_eq_true]
  intro c hc
  rw [isSurrogate_of_lt (h c hc)]
  rfl

theorem isEncodable_append (s t : String) :
    isEncodable (s ++ t) = (isEncodable s && isEncodable t) := by
  rw [isEncodable, String.toList_append, List.all_append]
  rfl

theorem isEncodable_quoted (s : String) : isEncodable (quoted s) = true :=
  isEncodable_of_forall_lt fun _ hc => toNat_lt_of_mem_quoted hc

end

end Phrasebook.Text
