/-! Blank characters and the trimming of texts. Every name the library reads from an author's text
(a token, a field, a holder, a placeholder) is trimmed here first, so two spellings that differ only
in the blanks around them are one name. -/

namespace Phrasebook.Text

/-- The blank characters: the spaces of Unicode, the line and paragraph breaks, and the four
information separators. -/
def isBlank (c : Char) : Bool :=
  let n := c.toNat
  (0x09 ≤ n && n ≤ 0x0d) || (0x1c ≤ n && n ≤ 0x20) || n == 0x85 || n == 0xa0 || n == 0x1680 ||
    (0x2000 ≤ n && n ≤ 0x200a) || n == 0x2028 || n == 0x2029 || n == 0x202f || n == 0x205f ||
    n == 0x3000

/-- Drop the characters of a class at both ends. -/
def trimBy (p : Char → Bool) (cs : List Char) : List Char :=
  ((cs.dropWhile p).reverse.dropWhile p).reverse

/-- Drop the blanks at both ends. -/
def trim (cs : List Char) : List Char :=
  trimBy isBlank cs

/-! ### What trimming leaves -/

/-- Nothing is dropped from a text that does not begin with a character of the class. -/
theorem dropWhile_eq_self_iff {p : Char → Bool} {cs : List Char} :
    cs.dropWhile p = cs ↔ ∀ c ∈ cs.head?, p c = false := by
  cases cs with
  | nil => simp
  | cons c cs =>
      by_cases hc : p c = true
      · have hne : cs.dropWhile p ≠ c :: cs := fun h => by
          have := (List.dropWhile_sublist p (l := cs)).length_le
          rw [h, List.length_cons] at this
          omega
        simp [hc, hne]
      · simp [hc]

theorem trimBy_eq_self_iff {p : Char → Bool} {cs : List Char} :
    trimBy p cs = cs ↔ (∀ c ∈ cs.head?, p c = false) ∧ ∀ c ∈ cs.getLast?, p c = false := by
  have hlen : ∀ l : List Char, (l.dropWhile p).length ≤ l.length := fun l =>
    (List.dropWhile_sublist p (l := l)).length_le
  constructor
  · intro h
    have hfront : cs.dropWhile p = cs := by
      refine (List.dropWhile_sublist p).eq_of_length_le ?_
      have := congrArg List.length h
      rw [trimBy, List.length_reverse] at this
      have h2 := hlen (cs.dropWhile p).reverse
      rw [List.length_reverse] at h2
      omega
    refine ⟨dropWhile_eq_self_iff.1 hfront, ?_⟩
    rw [trimBy, hfront] at h
    have hback : cs.reverse.dropWhile p = cs.reverse := by
      rw [← List.reverse_eq_iff, h]
    rw [← List.head?_reverse]
    exact dropWhile_eq_self_iff.1 hback
  · rintro ⟨hh, hl⟩
    rw [trimBy, dropWhile_eq_self_iff.2 hh, dropWhile_eq_self_iff.2 (by rwa [List.head?_reverse]),
      List.reverse_reverse]

/-- What dropping leaves does not begin with a character of the class. -/
theorem of_mem_head?_dropWhile {p : Char → Bool} {cs : List Char} {c : Char}
    (h : c ∈ (cs.dropWhile p).head?) : p c = false := by
  have := List.head?_dropWhile_not p cs
  rw [Option.mem_def.1 h] at this
  exact this

theorem trimBy_trimBy (p : Char → Bool) (cs : List Char) :
    trimBy p (trimBy p cs) = trimBy p cs := by
  refine trimBy_eq_self_iff.2 ⟨fun c hc => ?_, fun c hc => ?_⟩
  · have hpre : trimBy p cs <+: cs.dropWhile p := by
      have := List.reverse_prefix.2 (List.dropWhile_suffix p (l := (cs.dropWhile p).reverse))
      rwa [List.reverse_reverse] at this
    obtain ⟨rest, hrest⟩ := hpre
    have hm : c ∈ (cs.dropWhile p).head? := by
      rw [← hrest, List.head?_append, Option.mem_def.1 hc]
      rfl
    exact of_mem_head?_dropWhile hm
  · rw [trimBy, List.getLast?_reverse] at hc
    exact of_mem_head?_dropWhile hc

theorem trim_trim (cs : List Char) : trim (trim cs) = trim cs :=
  trimBy_trimBy isBlank cs

end Phrasebook.Text
