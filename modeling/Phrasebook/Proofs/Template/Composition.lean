import Phrasebook.Proofs.Influence.Reading
import Phrasebook.Proofs.Template.Decomposition

/-! Filling a template in several passes. What a pass puts in is read again by the next one; but if
none of the values shows an opening brace, no token comes into being and none is lost, because an
opening brace of a literal text is closed by nothing that is put in behind it (`pieces_fill`). So
the tokens of a filled template are those whose names had no value (`tokenNames_fill`), and two
passes come to one pass in which the first bag goes before the second (`fill_fill_overlay`). -/

namespace Phrasebook

namespace Template

variable {bag defaults : Bag}

/-! ### The pieces of a filled template -/

/-- The pieces that stand for a piece once it is filled. -/
def Piece.filled (bag defaults : Bag) : Piece → List Piece
  | .char c => [.char c]
  | .token body =>
      match valueOf bag defaults (tokenName body) with
      | some v => v.shown.toList.map .char
      | none => [.token body]

theorem sourceOf_chars (cs : List Char) : sourceOf (cs.map .char) = cs := by
  rw [sourceOf, List.flatMap_map]
  exact List.flatMap_singleton' cs

theorem sourceOf_filled (piece : Piece) :
    sourceOf (piece.filled bag defaults) = piece.fill bag defaults := by
  cases piece with
  | char c => rfl
  | token body =>
      rw [Piece.filled, Piece.fill]
      cases valueOf bag defaults (tokenName body) with
      | none => exact List.flatMap_singleton _ _
      | some v => exact sourceOf_chars _

/-- No value that is put in for a token shows an opening brace. -/
def Unbraced (bag defaults : Bag) (row : List Piece) : Prop :=
  ∀ body, .token body ∈ row → ∀ v ∈ valueOf bag defaults (tokenName body), '\x7b' ∉ v.shown.toList

/-- An opening brace that is not closed is not closed by what is put in behind it: the tokens are
all behind the line break. -/
theorem unclosed_filled {row : List Piece} (hrow : Legible row) (h : Unclosed (sourceOf row)) :
    Unclosed (sourceOf (row.flatMap (Piece.filled bag defaults))) := by
  induction row with
  | nil => exact h
  | cons piece row ih =>
      cases piece with
      | char c =>
          rw [sourceOf_char, unclosed_cons] at h
          obtain ⟨hclose, hline | hrest⟩ := h
          · exact unclosed_cons.2 ⟨hclose, .inl hline⟩
          · exact unclosed_cons.2 ⟨hclose, .inr (ih hrow.2 hrest)⟩
      | token body =>
          rw [sourceOf_token, unclosed_cons] at h
          obtain ⟨-, hline | hrest⟩ := h
          · exact absurd hline (by decide)
          · exact absurd hrest (not_unclosed_append _ hrow.1)

theorem legible_chars_append {cs : List Char} {row : List Piece} (hcs : '\x7b' ∉ cs)
    (hrow : Legible row) : Legible (cs.map .char ++ row) := by
  induction cs with
  | nil => exact hrow
  | cons c cs ih =>
      rw [List.mem_cons, not_or] at hcs
      exact ⟨fun hc => absurd hc.symm hcs.1, ih hcs.2⟩

theorem legible_filled {row : List Piece} (hrow : Legible row) (h : Unbraced bag defaults row) :
    Legible (row.flatMap (Piece.filled bag defaults)) := by
  induction row with
  | nil => exact hrow
  | cons piece row ih =>
      have hrest := fun hlegible => ih hlegible fun body hbody =>
        h body (List.mem_cons_of_mem _ hbody)
      cases piece with
      | char c => exact ⟨fun hc => unclosed_filled hrow.2 (hrow.1 hc), hrest hrow.2⟩
      | token body =>
          have hvalue := h body List.mem_cons_self
          rw [List.flatMap_cons, Piece.filled]
          cases hv : valueOf bag defaults (tokenName body) with
          | none => exact ⟨hrow.1, hrest hrow.2⟩
          | some v => exact legible_chars_append (hvalue v hv) (hrest hrow.2)

/-- **What a filled template is read into**: each token that has a value is replaced by characters,
and all else is as it was. -/
theorem pieces_fill {template : String} (h : Unbraced bag defaults (pieces template.toList)) :
    pieces (fill template bag defaults).toList =
      (pieces template.toList).flatMap (Piece.filled bag defaults) := by
  refine pieces_eq_iff.2 ⟨?_, legible_filled (legible_pieces _) h⟩
  rw [fill, String.toList_ofList, sourceOf, List.flatMap_assoc]
  exact List.flatMap_congr fun piece _ => sourceOf_filled piece

theorem unbraced_of_tokenNames {template : String}
    (h : ∀ name ∈ tokenNames template, ∀ v ∈ valueOf bag defaults name, '\x7b' ∉ v.shown.toList) :
    Unbraced bag defaults (pieces template.toList) :=
  fun body hbody => h _ (mem_tokenNames.2 ⟨body, hbody, rfl⟩)

/-! ### Names that are left -/

/-- Leaving out names and leaving out repetitions may be done in either order. -/
theorem distinct_filter (p : String → Bool) (names : List String) :
    distinct (names.filter p) = (distinct names).filter p := by
  induction names using List.reverseRecOn with
  | nil => rfl
  | append_singleton names n ih =>
      rw [List.filter_append, distinct_concat]
      by_cases hn : p n = true
      · rw [List.filter_cons_of_pos hn, List.filter_nil, distinct_concat, ih]
        by_cases hmem : n ∈ distinct names
        · rw [if_pos hmem, if_pos (List.mem_filter.2 ⟨hmem, hn⟩)]
        · rw [if_neg hmem, if_neg fun hfilter => hmem (List.mem_filter.1 hfilter).1,
            List.filter_append, List.filter_cons_of_pos hn, List.filter_nil]
      · rw [List.filter_cons_of_neg hn, List.filter_nil, List.append_nil, ih]
        by_cases hmem : n ∈ distinct names
        · rw [if_pos hmem]
        · rw [if_neg hmem, List.filter_append, List.filter_cons_of_neg hn, List.filter_nil,
            List.append_nil]

/-- A filled piece asks for its name if the name had no value. -/
theorem filterMap_name?_filled (piece : Piece) :
    (piece.filled bag defaults).filterMap Piece.name? =
      piece.name?.toList.filter fun name => (valueOf bag defaults name).isNone := by
  cases piece with
  | char c => rfl
  | token body =>
      rw [Piece.filled, Piece.name?, Option.toList_some, List.filter_singleton]
      cases valueOf bag defaults (tokenName body) with
      | none => rfl
      | some v =>
          have hname : ∀ piece ∈ v.shown.toList.map Piece.char, piece.name? = none := by
            intro piece hpiece
            obtain ⟨c, -, rfl⟩ := List.mem_map.1 hpiece
            rfl
          exact List.filterMap_eq_nil_iff.2 hname

theorem names_fill {template : String} (h : Unbraced bag defaults (pieces template.toList)) :
    tokenNames (fill template bag defaults) =
      (tokenNames template).filter fun name => (valueOf bag defaults name).isNone := by
  rw [tokenNames, tokenNames, ← distinct_filter, pieces_fill h]
  refine congrArg distinct ?_
  rw [List.filterMap_flatMap, List.filterMap_eq_flatMap_toList, List.filter_flatMap]
  exact List.flatMap_congr fun piece _ => filterMap_name?_filled piece

theorem fill_of_no_values {template : String}
    (h : ∀ name ∈ tokenNames template, valueOf bag defaults name = none) :
    fill template bag defaults = template := by
  have hpiece : ∀ piece ∈ pieces template.toList, piece.fill bag defaults = piece.source := by
    intro piece hpiece
    cases piece with
    | char c => rfl
    | token body => rw [Piece.fill, h _ (mem_tokenNames.2 ⟨body, hpiece, rfl⟩)]
  rw [fill, List.flatMap_congr hpiece, flatMap_source_pieces, String.ofList_toList]

/-- **The tokens of a filled template** are those of the template whose names have no value, in the
same order, if no value that is put in shows an opening brace. So none is left if all names have
one, and the template is left as it is if none has. -/
theorem tokenNames_fill (template : String) (bag defaults : Bag)
    (h : ∀ name ∈ tokenNames template, ∀ v ∈ valueOf bag defaults name,
      '\x7b' ∉ v.shown.toList) :
    tokenNames (fill template bag defaults) =
        (tokenNames template).filter (fun name => (valueOf bag defaults name).isNone) ∧
      ((∀ name ∈ tokenNames template, valueOf bag defaults name ≠ none) →
        ∀ body, .token body ∉ pieces (fill template bag defaults).toList) ∧
      ((∀ name ∈ tokenNames template, valueOf bag defaults name = none) →
        fill template bag defaults = template) := by
  have hnames := names_fill (unbraced_of_tokenNames h)
  refine ⟨hnames, fun hall body hbody => ?_, fill_of_no_values⟩
  have hname : tokenName body ∈ tokenNames (fill template bag defaults) :=
    mem_tokenNames.2 ⟨body, hbody, rfl⟩
  rw [hnames, List.mem_filter, Option.isNone_iff_eq_none] at hname
  exact hall _ hname.1 hname.2

/-- A place without a value is left, twice in the text and once among the names; a name that shows
a closing brace does no harm. -/
theorem tokenNames_fill_letter :
    let template := "{place}, { place }: Hi {name}, {count}!"
    let bag : Bag := .ofList [("name", .text "Ana\x7d"), ("place", .null)]
    let defaults : Bag := .ofList [("count", .int 3)]
    (∀ name ∈ tokenNames template, ∀ v ∈ valueOf bag defaults name, '\x7b' ∉ v.shown.toList) ∧
      tokenNames template = ["place", "name", "count"] ∧
      tokenNames (fill template bag defaults) = ["place"] := by
  intro template bag defaults
  have hunbraced : ∀ name ∈ tokenNames template, ∀ v ∈ valueOf bag defaults name,
      '\x7b' ∉ v.shown.toList := by decide +kernel
  refine ⟨hunbraced, by decide +kernel, ?_⟩
  rw [(tokenNames_fill template bag defaults hunbraced).1]
  decide +kernel

end Template

/-! ### Two passes -/

/-- The values of one bag, and where it has none what another one has. -/
def Bag.overlay (bag other : Bag) : Bag :=
  other.merge (Bag.dropNulls bag)

theorem Bag.get?_overlay (bag other : Bag) (name : String) :
    (Bag.overlay bag other).get? name =
      (Template.present (bag.get? name)).or (other.get? name) := by
  rw [overlay, OrderedMap.get?_merge, get?_dropNulls]

namespace Template

theorem present_or (x y : Option Value) :
    present ((present x).or y) = (present x).or (present y) := by
  cases x with
  | none => rfl
  | some v => cases v <;> rfl

theorem valueOf_empty_right (bag : Bag) (name : String) :
    valueOf bag .empty name = present (bag.get? name) :=
  Option.or_none

theorem valueOf_empty_left (defaults : Bag) (name : String) :
    valueOf .empty defaults name = present (defaults.get? name) :=
  Option.none_or

/-- Filling the pieces that stand for a filled one is filling it with both passes' values. -/
theorem flatMap_fill_filled {bag' defaults' both fallback : Bag}
    (h : ∀ name, valueOf both fallback name =
      (valueOf bag defaults name).or (valueOf bag' defaults' name)) (piece : Piece) :
    (piece.filled bag defaults).flatMap (Piece.fill bag' defaults') = piece.fill both fallback := by
  cases piece with
  | char c => rfl
  | token body =>
      rw [Piece.filled, Piece.fill, h]
      cases valueOf bag defaults (tokenName body) with
      | none => exact List.flatMap_singleton _ _
      | some v =>
          rw [List.flatMap_map]
          exact List.flatMap_singleton' _

/-- Two passes come to one, with a value for each name that has one in the first pass or else in the
second. -/
theorem fill_fill {template : String} {bag' defaults' both fallback : Bag}
    (hunbraced : Unbraced bag defaults (pieces template.toList))
    (h : ∀ name, valueOf both fallback name =
      (valueOf bag defaults name).or (valueOf bag' defaults' name)) :
    fill (fill template bag defaults) bag' defaults' = fill template both fallback := by
  rw [fill, pieces_fill hunbraced, List.flatMap_assoc, fill]
  exact congrArg String.ofList (List.flatMap_congr fun piece _ => flatMap_fill_filled h piece)

/-- **Progressive rendering composes.** If no value of a bag that is put in for a token shows an
opening brace, a template that is filled from this bag and then from another one is filled from the
first over the second; and filling it with defaults is filling it from the bag and then from the
defaults alone. -/
theorem fill_fill_overlay (template : String) (bag other defaults : Bag)
    (h : ∀ name ∈ tokenNames template, ∀ v ∈ present (bag.get? name),
      '\x7b' ∉ v.shown.toList) :
    fill (fill template bag .empty) other .empty = fill template (Bag.overlay bag other) .empty ∧
      fill template bag defaults = fill (fill template bag .empty) .empty defaults := by
  have hunbraced : Unbraced bag .empty (pieces template.toList) := by
    apply unbraced_of_tokenNames
    simpa only [valueOf_empty_right] using h
  constructor
  · apply fill_fill hunbraced
    intro name
    rw [valueOf_empty_right, valueOf_empty_right, valueOf_empty_right, Bag.get?_overlay, present_or]
  · symm
    apply fill_fill hunbraced
    intro name
    rw [valueOf_empty_right, valueOf_empty_left, valueOf]

/-- A value with a closing brace and a line break in front of a brace that is not closed; the second
bag has a value for the name that the first one leaves, and the defaults for the place. -/
theorem fill_fill_overlay_letter :
    let template := "{greeting}, { name } \x7bfrom\n{place}"
    let bag : Bag := .ofList [("greeting", .text "Hi\x7d\n"), ("name", .null)]
    let other : Bag := .ofList [("greeting", .text "No"), ("name", .int 3)]
    (∀ name ∈ tokenNames template, ∀ v ∈ present (bag.get? name), '\x7b' ∉ v.shown.toList) ∧
      fill (fill template bag .empty) other .empty = "Hi\x7d\n, 3 \x7bfrom\n{place}" ∧
      fill (fill template bag .empty) .empty (.ofList [("place", .text "home")]) =
        "Hi\x7d\n, { name } \x7bfrom\nhome" := by
  intro template bag other
  have hunbraced : ∀ name ∈ tokenNames template, ∀ v ∈ present (bag.get? name),
      '\x7b' ∉ v.shown.toList := by decide +kernel
  have htwice := fill_fill_overlay template bag other (.ofList [("place", .text "home")]) hunbraced
  refine ⟨hunbraced, ?_, ?_⟩
  · rw [htwice.1]
    decide +kernel
  · rw [← htwice.2]
    decide +kernel

end Template

end Phrasebook
