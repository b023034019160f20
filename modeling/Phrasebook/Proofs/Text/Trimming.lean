import Mathlib.Data.List.TakeWhile
import Phrasebook.Text.Blank

/-! What is trimmed away. A text is what trimming leaves of it with blanks in front and behind
(`exists_eq_append_trim`), and blanks around a text that is trimmed are all that is lost
(`trim_padded`). -/

namespace Phrasebook.Text

/-- Nothing but blanks. -/
def AllBlank (cs : List Char) : Prop :=
  ∀ c ∈ cs, isBlank c = true

theorem AllBlank.append {cs ds : List Char} (hcs : AllBlank cs) (hds : AllBlank ds) :
    AllBlank (cs ++ ds) :=
  fun c hc => (List.mem_append.1 hc).elim (hcs c) (hds c)

theorem AllBlank.reverse {cs : List Char} (h : AllBlank cs) : AllBlank cs.reverse :=
  fun c hc => h c (List.mem_reverse.1 hc)

theorem mem_of_mem_trim {cs : List Char} {c : Char} (h : c ∈ trim cs) : c ∈ cs := by
  unfold trim trimBy at h
  rw [List.mem_reverse] at h
  have hback := (List.dropWhile_sublist _).subset h
  rw [List.mem_reverse] at hback
  exact (List.dropWhile_sublist _).subset hback

theorem exists_eq_append_trim (cs : List Char) :
    ∃ before after, AllBlank before ∧ AllBlank after ∧ cs = before ++ trim cs ++ after := by
  have hfront : cs.takeWhile isBlank ++ cs.dropWhile isBlank = cs := List.takeWhile_append_dropWhile
  let rest := (cs.dropWhile isBlank).reverse
  have hback : trim cs ++ (rest.takeWhile isBlank).reverse = cs.dropWhile isBlank := by
    rw [trim, trimBy, ← List.reverse_append, List.takeWhile_append_dropWhile, List.reverse_reverse]
  refine ⟨cs.takeWhile isBlank, (rest.takeWhile isBlank).reverse,
    fun _ => List.mem_takeWhile_imp, AllBlank.reverse fun _ => List.mem_takeWhile_imp, ?_⟩
  rw [List.append_assoc, hback, hfront]

theorem trim_eq_nil_iff {cs : List Char} : trim cs = [] ↔ AllBlank cs := by
  constructor
  · intro h
    obtain ⟨before, after, hbefore, hafter, hcs⟩ := exists_eq_append_trim cs
    rw [h, List.append_nil] at hcs
    exact hcs ▸ hbefore.append hafter
  · intro h
    rw [trim, trimBy, List.dropWhile_eq_nil_iff.2 h]
    rfl

/-- Blanks around a text that is trimmed are trimmed away. -/
theorem trim_padded {before cs after : List Char} (hbefore : AllBlank before)
    (hafter : AllBlank after) (h : trim cs = cs) : trim (before ++ cs ++ after) = cs := by
  cases cs with
  | nil =>
      rw [List.append_nil]
      exact trim_eq_nil_iff.2 (hbefore.append hafter)
  | cons a rest =>
      obtain ⟨hhead, hlast⟩ := trimBy_eq_self_iff.1 h
      have hfront : (before ++ a :: rest ++ after).dropWhile isBlank = a :: rest ++ after := by
        rw [List.append_assoc, List.dropWhile_append_of_pos hbefore]
        exact dropWhile_eq_self_iff.2 hhead
      have hback : (a :: rest ++ after).reverse.dropWhile isBlank = (a :: rest).reverse := by
        rw [List.reverse_append, List.dropWhile_append_of_pos hafter.reverse]
        refine dropWhile_eq_self_iff.2 fun c hc => hlast c ?_
        rwa [List.head?_reverse] at hc
      rw [trim, trimBy, hfront, hback, List.reverse_reverse]

end Phrasebook.Text
