/-! Texts split at a separator. Splitting and joining with the separator undo each other. -/

namespace Phrasebook.Text

/-- The pieces of a text between the occurrences of a separator; there is one more of them than
there are separators. -/
def splitOn (sep : Char) : List Char → List (List Char)
  | [] => [[]]
  | c :: cs =>
      if c = sep then [] :: splitOn sep cs
      else
        match splitOn sep cs with
        | [] => [[c]]
        | piece :: pieces => (c :: piece) :: pieces

theorem splitOn_ne_nil (sep : Char) (cs : List Char) : splitOn sep cs ≠ [] := by
  cases cs with
  | nil => simp [splitOn]
  | cons c cs =>
      rw [splitOn]
      split
      · simp
      · split <;> simp

/-- No piece holds the separator. -/
theorem not_mem_of_mem_splitOn {sep : Char} {cs piece : List Char} (h : piece ∈ splitOn sep cs) :
    sep ∉ piece := by
  induction cs generalizing piece with
  | nil =>
      rw [List.mem_singleton.1 h]
      exact List.not_mem_nil
  | cons c cs ih =>
      rw [splitOn] at h
      split at h
      · rcases List.mem_cons.1 h with rfl | hr
        · exact List.not_mem_nil
        · exact ih hr
      · next hc =>
          split at h
          · next hs => exact absurd hs (splitOn_ne_nil sep cs)
          · next first rest hs =>
              rw [hs] at ih
              rcases List.mem_cons.1 h with rfl | hr
              · rw [List.mem_cons, not_or]
                exact ⟨Ne.symm hc, ih List.mem_cons_self⟩
              · exact ih (List.mem_cons_of_mem _ hr)

/-- The pieces with the separator between them are the text. -/
theorem intercalate_splitOn (sep : Char) (cs : List Char) :
    [sep].intercalate (splitOn sep cs) = cs := by
  induction cs with
  | nil => rfl
  | cons c cs ih =>
      rw [splitOn]
      cases hs : splitOn sep cs with
      | nil => exact absurd hs (splitOn_ne_nil sep cs)
      | cons piece pieces =>
          rw [hs] at ih
          split
          · next hc =>
              rw [List.intercalate_cons_cons, ih, hc]
              rfl
          · cases pieces with
            | nil =>
                rw [List.intercalate_singleton] at ih ⊢
                rw [ih]
            | cons next rest =>
                rw [List.intercalate_cons_cons] at ih ⊢
                rw [← ih]
                rfl

theorem mem_intercalate {α : Type} {sep row : List α} {rows : List (List α)} {x : α}
    (hrow : row ∈ rows) (hx : x ∈ row) : x ∈ sep.intercalate rows := by
  induction rows with
  | nil => cases hrow
  | cons first rest ih =>
      cases rest with
      | nil =>
          rw [List.mem_singleton] at hrow
          rwa [List.intercalate_singleton, ← hrow]
      | cons next rest =>
          rw [List.intercalate_cons_cons, List.mem_append, List.mem_append]
          rcases List.mem_cons.1 hrow with rfl | hrow
          · exact Or.inl (Or.inl hx)
          · exact Or.inr (ih hrow)

/-- All that is in a piece is in the text. -/
theorem mem_of_mem_splitOn {sep c : Char} {cs piece : List Char} (h : piece ∈ splitOn sep cs)
    (hc : c ∈ piece) : c ∈ cs := by
  rw [← intercalate_splitOn sep cs]
  exact mem_intercalate h hc

theorem splitOn_eq_singleton {sep : Char} {cs : List Char} (h : sep ∉ cs) :
    splitOn sep cs = [cs] := by
  induction cs with
  | nil => rfl
  | cons c cs ih =>
      rw [List.mem_cons, not_or] at h
      rw [splitOn, if_neg (Ne.symm h.1), ih h.2]

/-- A separator ends one piece and begins the next. -/
theorem splitOn_append_cons (sep : Char) (cs rest : List Char) :
    splitOn sep (cs ++ sep :: rest) = splitOn sep cs ++ splitOn sep rest := by
  induction cs with
  | nil => simp [splitOn]
  | cons c cs ih =>
      rw [List.cons_append, splitOn, ih, splitOn]
      split
      · rfl
      · cases hs : splitOn sep cs with
        | nil => exact absurd hs (splitOn_ne_nil sep cs)
        | cons piece pieces => rfl

theorem splitOn_append {sep : Char} {piece : List Char} (rest : List Char) (h : sep ∉ piece) :
    splitOn sep (piece ++ sep :: rest) = piece :: splitOn sep rest := by
  rw [splitOn_append_cons, splitOn_eq_singleton h, List.singleton_append]

/-- Pieces without the separator are found again. -/
theorem splitOn_intercalate {sep : Char} {pieces : List (List Char)} (hne : pieces ≠ [])
    (h : ∀ piece ∈ pieces, sep ∉ piece) : splitOn sep ([sep].intercalate pieces) = pieces := by
  induction pieces with
  | nil => exact absurd rfl hne
  | cons piece pieces ih =>
      have hp := h piece List.mem_cons_self
      cases pieces with
      | nil =>
          rw [List.intercalate_singleton]
          exact splitOn_eq_singleton hp
      | cons next rest =>
          rw [List.intercalate_cons_cons, List.append_assoc, List.singleton_append,
            splitOn_append _ hp,
            ih (List.cons_ne_nil _ _) fun p hm => h p (List.mem_cons_of_mem _ hm)]

end Phrasebook.Text
