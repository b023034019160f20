import Mathlib.Logic.ExistsUnique
import Phrasebook.Template

/-! The decomposition of a template into literal texts and tokens. The pieces that a template is
read into are the only ones that have it as their source and in which every token stands on one line
and no brace outside of them could begin another (`pieces_eq_iff`). So there is one layout of
literal texts and tokens, and filling a template is writing it with the texts of values in the
places of the tokens (`existsUnique_layout_fill`). -/

namespace Phrasebook.Template

/-! ### Braces -/

/-- What may stand between the braces of a token: neither a closing brace nor a line break. -/
def Inline (body : List Char) : Prop :=
  '\x7d' ∉ body ∧ '\n' ∉ body

/-- Reading on, there is a line break before any closing brace, or no closing brace at all. -/
def Unclosed (cs : List Char) : Prop :=
  '\x7d' ∉ cs ∨ ∃ line rest, cs = line ++ '\n' :: rest ∧ '\x7d' ∉ line

theorem inline_nil : Inline [] :=
  ⟨List.not_mem_nil, List.not_mem_nil⟩

theorem inline_cons {c : Char} {body : List Char} :
    Inline (c :: body) ↔ c ≠ '\x7d' ∧ c ≠ '\n' ∧ Inline body := by
  rw [Inline, Inline, List.mem_cons, List.mem_cons, not_or, not_or]
  constructor
  · rintro ⟨⟨hclose, hclose'⟩, hline, hline'⟩
    exact ⟨Ne.symm hclose, Ne.symm hline, hclose', hline'⟩
  · rintro ⟨hclose, hline, hclose', hline'⟩
    exact ⟨⟨Ne.symm hclose, hclose'⟩, Ne.symm hline, hline'⟩

theorem unclosed_nil : Unclosed [] :=
  .inl List.not_mem_nil

/-- Reading on past one character. -/
theorem unclosed_cons {c : Char} {cs : List Char} :
    Unclosed (c :: cs) ↔ c ≠ '\x7d' ∧ (c = '\n' ∨ Unclosed cs) := by
  constructor
  · rintro (h | ⟨line, rest, heq, hline⟩)
    · rw [List.mem_cons, not_or] at h
      exact ⟨Ne.symm h.1, .inr (.inl h.2)⟩
    · cases line with
      | nil =>
          obtain ⟨rfl, rfl⟩ := List.cons.inj heq
          exact ⟨by decide, .inl rfl⟩
      | cons d line =>
          obtain ⟨rfl, rfl⟩ := List.cons.inj heq
          rw [List.mem_cons, not_or] at hline
          exact ⟨Ne.symm hline.1, .inr (.inr ⟨line, rest, rfl, hline.2⟩)⟩
  · rintro ⟨hc, rfl | h | ⟨line, rest, rfl, hline⟩⟩
    · exact .inr ⟨[], cs, rfl, List.not_mem_nil⟩
    · refine .inl ?_
      rw [List.mem_cons, not_or]
      exact ⟨Ne.symm hc, h⟩
    · refine .inr ⟨c :: line, rest, rfl, ?_⟩
      rw [List.mem_cons, not_or]
      exact ⟨Ne.symm hc, hline⟩

/-- A body is read up to the first closing brace on its line. -/
theorem body?_eq_some_iff {cs body rest : List Char} :
    body? cs = some (body, rest) ↔ cs = body ++ '\x7d' :: rest ∧ Inline body := by
  constructor
  · intro h
    refine ⟨eq_of_body? h, ?_⟩
    induction cs generalizing body with
    | nil => cases h
    | cons c cs ih =>
        unfold body? at h
        split at h
        · cases h
          exact inline_nil
        · split at h
          · cases h
          · next hclose hline =>
              obtain ⟨r, hr, he⟩ := Option.map_eq_some_iff.1 h
              cases he
              exact inline_cons.2 ⟨hclose, hline, ih hr⟩
  · rintro ⟨rfl, h⟩
    induction body with
    | nil => rfl
    | cons c body ih =>
        obtain ⟨hclose, hline, hbody⟩ := inline_cons.1 h
        rw [List.cons_append, body?, if_neg hclose, if_neg hline, ih hbody]
        rfl

theorem body?_eq_none_iff {cs : List Char} : body? cs = none ↔ Unclosed cs := by
  induction cs with
  | nil => exact iff_of_true rfl unclosed_nil
  | cons c cs ih =>
      rw [unclosed_cons, body?]
      by_cases hclose : c = '\x7d'
      · rw [if_pos hclose]
        exact iff_of_false (Option.some_ne_none _) fun h => h.1 hclose
      · by_cases hline : c = '\n'
        · rw [if_neg hclose, if_pos hline]
          exact iff_of_true rfl ⟨hclose, .inl hline⟩
        · rw [if_neg hclose, if_neg hline, Option.map_eq_none_iff, ih]
          exact ⟨fun h => ⟨hclose, .inr h⟩, fun h => h.2.resolve_left hline⟩

/-- The brace of a token is closed. -/
theorem not_unclosed_append {body : List Char} (rest : List Char) (h : Inline body) :
    ¬ Unclosed (body ++ '\x7d' :: rest) := by
  rw [← body?_eq_none_iff, body?_eq_some_iff.2 ⟨rfl, h⟩]
  exact Option.some_ne_none _

/-! ### Rows of pieces -/

/-- The text that some pieces were read from. -/
def sourceOf (row : List Piece) : List Char :=
  row.flatMap Piece.source

/-- Pieces that are read again as they are: tokens stand on one line, and an opening brace that is
no token's is not closed. -/
def Legible : List Piece → Prop
  | [] => True
  | .char c :: row => (c = '\x7b' → Unclosed (sourceOf row)) ∧ Legible row
  | .token body :: row => Inline body ∧ Legible row

@[simp]
theorem sourceOf_nil : sourceOf [] = [] := rfl

@[simp]
theorem sourceOf_char (c : Char) (row : List Piece) :
    sourceOf (.char c :: row) = c :: sourceOf row := rfl

@[simp]
theorem sourceOf_token (body : List Char) (row : List Piece) :
    sourceOf (.token body :: row) = '\x7b' :: (body ++ '\x7d' :: sourceOf row) := by
  rw [sourceOf, List.flatMap_cons, Piece.source, List.append_assoc]
  rfl

theorem pieces_char {c : Char} {cs : List Char} (h : c = '\x7b' → Unclosed cs) :
    pieces (c :: cs) = .char c :: pieces cs := by
  rw [pieces]
  split
  · next hc =>
      have hnone := body?_eq_none_iff.2 (h hc)
      split
      · next hsome =>
          rw [hnone] at hsome
          cases hsome
      · rfl
  · rfl

theorem pieces_token {body : List Char} (rest : List Char) (h : Inline body) :
    pieces ('\x7b' :: (body ++ '\x7d' :: rest)) = .token body :: pieces rest := by
  have hsome : body? (body ++ '\x7d' :: rest) = some (body, rest) := body?_eq_some_iff.2 ⟨rfl, h⟩
  rw [pieces, if_pos rfl]
  split
  · next hfound =>
      rw [hsome] at hfound
      cases hfound
      rfl
  · next hnone =>
      rw [hsome] at hnone
      cases hnone

/-- **What a template is read into**: the legible pieces that it is the source of. -/
theorem pieces_eq_iff {cs : List Char} {row : List Piece} :
    pieces cs = row ↔ sourceOf row = cs ∧ Legible row := by
  constructor
  · rintro rfl
    refine ⟨flatMap_source_pieces cs, ?_⟩
    fun_induction pieces cs with
    | case1 => trivial
    | case2 cs body rest hbody ih => exact ⟨(body?_eq_some_iff.1 hbody).2, ih⟩
    | case3 cs hbody ih =>
        refine ⟨fun _ => ?_, ih⟩
        rw [sourceOf, flatMap_source_pieces]
        exact body?_eq_none_iff.1 hbody
    | case4 c cs hc ih => exact ⟨fun h => absurd h hc, ih⟩
  · rintro ⟨rfl, h⟩
    induction row with
    | nil => rw [sourceOf_nil, pieces]
    | cons piece row ih =>
        cases piece with
        | char c => rw [sourceOf_char, pieces_char h.1, ih h.2]
        | token body => rw [sourceOf_token, pieces_token _ h.1, ih h.2]

theorem legible_pieces (cs : List Char) : Legible (pieces cs) :=
  (pieces_eq_iff.1 rfl).2

/-! ### Layouts -/

/-- Literal texts with tokens between them: the last one, or one with the token behind it and what
comes then. -/
inductive Layout
  | last (literal : List Char)
  | token (literal body : List Char) (rest : Layout)
  deriving DecidableEq

namespace Layout

/-- The text of a layout, with some text in the place of each token. -/
def write (put : List Char → List Char) : Layout → List Char
  | last literal => literal
  | token literal body rest => literal ++ put body ++ rest.write put

/-- The text of a layout as it is. -/
def source (l : Layout) : List Char :=
  l.write fun body => '\x7b' :: body ++ ['\x7d']

/-- No opening brace of a literal text is closed, reading on through what comes behind it. -/
def Loose (literal behind : List Char) : Prop :=
  ∀ cs, '\x7b' :: cs <:+ literal → Unclosed (cs ++ behind)

/-- Tokens stand on one line, and the opening braces of literal texts are not closed. -/
def Proper : Layout → Prop
  | last literal => Loose literal []
  | token literal body rest =>
      Loose literal ('\x7b' :: body ++ '\x7d' :: rest.source) ∧ Inline body ∧ rest.Proper

/-- A layout is a decomposition of a text. -/
structure Splits (l : Layout) (cs : List Char) : Prop where
  whole : l.source = cs
  proper : l.Proper

/-- The pieces of a layout. -/
def pieces : Layout → List Piece
  | last literal => literal.map .char
  | token literal body rest => literal.map .char ++ .token body :: rest.pieces

/-- A layout with one more character in front. -/
def push (c : Char) : Layout → Layout
  | last literal => last (c :: literal)
  | token literal body rest => token (c :: literal) body rest

/-- The layout of some pieces. -/
def ofPieces : List Piece → Layout
  | [] => last []
  | .char c :: row => (ofPieces row).push c
  | .token body :: row => token [] body (ofPieces row)

theorem pieces_push (c : Char) (l : Layout) : (l.push c).pieces = .char c :: l.pieces := by
  cases l <;> rfl

@[simp]
theorem pieces_ofPieces (row : List Piece) : (ofPieces row).pieces = row := by
  induction row with
  | nil => rfl
  | cons piece row ih =>
      cases piece with
      | char c => rw [ofPieces, pieces_push, ih]
      | token body =>
          rw [ofPieces, pieces, ih]
          rfl

@[simp]
theorem ofPieces_pieces (l : Layout) : ofPieces l.pieces = l := by
  have hlast : ∀ literal, ofPieces (literal.map .char) = last literal := fun literal => by
    induction literal with
    | nil => rfl
    | cons c literal ih => rw [List.map_cons, ofPieces, ih, push]
  have htoken : ∀ literal body row, ofPieces (literal.map .char ++ .token body :: row) =
      token literal body (ofPieces row) := fun literal body row => by
    induction literal with
    | nil => rfl
    | cons c literal ih => rw [List.map_cons, List.cons_append, ofPieces, ih, push]
  induction l with
  | last literal => exact hlast literal
  | token literal body rest ih => rw [pieces, htoken, ih]

/-- Replacing the tokens among the pieces is writing the layout with other texts. -/
theorem flatMap_pieces {put : Piece → List Char} (hput : ∀ c, put (.char c) = [c]) (l : Layout) :
    l.pieces.flatMap put = l.write fun body => put (.token body) := by
  have hliteral : ∀ literal : List Char, (literal.map Piece.char).flatMap put = literal :=
    fun literal => by
      rw [List.flatMap_map]
      simp only [hput, List.flatMap_singleton']
  induction l with
  | last literal => exact hliteral literal
  | token literal body rest ih =>
      rw [pieces, List.flatMap_append, List.flatMap_cons, hliteral, ih, write, List.append_assoc]

theorem sourceOf_pieces (l : Layout) : sourceOf l.pieces = l.source :=
  flatMap_pieces (fun _ => rfl) l

theorem loose_cons {c : Char} {literal behind : List Char} : Loose (c :: literal) behind ↔
    (c = '\x7b' → Unclosed (literal ++ behind)) ∧ Loose literal behind := by
  constructor
  · intro h
    refine ⟨?_, fun cs hcs => h cs (hcs.trans (List.suffix_cons c literal))⟩
    rintro rfl
    exact h literal List.suffix_rfl
  · rintro ⟨hfirst, hrest⟩ cs hcs
    rcases List.suffix_cons_iff.1 hcs with heq | hcs
    · obtain ⟨rfl, rfl⟩ := List.cons.inj heq
      exact hfirst rfl
    · exact hrest cs hcs

theorem legible_literal_append {literal : List Char} {row : List Piece} :
    Legible (literal.map .char ++ row) ↔ Loose literal (sourceOf row) ∧ Legible row := by
  induction literal with
  | nil =>
      refine ⟨fun h => ⟨fun cs hcs => ?_, h⟩, fun h => h.2⟩
      cases List.suffix_nil.1 hcs
  | cons c literal ih =>
      have hsource : sourceOf (literal.map .char ++ row) = literal ++ sourceOf row := by
        rw [sourceOf, List.flatMap_append, List.flatMap_map]
        exact congrArg (· ++ _) (List.flatMap_singleton' literal)
      rw [List.map_cons, List.cons_append, Legible, ih, loose_cons, hsource, and_assoc]

theorem legible_pieces_iff (l : Layout) : Legible l.pieces ↔ l.Proper := by
  induction l with
  | last literal =>
      rw [pieces, ← List.append_nil (literal.map _), legible_literal_append]
      exact and_iff_left trivial
  | token literal body rest ih =>
      rw [pieces, legible_literal_append, sourceOf_token, sourceOf_pieces, Legible, ih]
      rfl

/-- A text has no decomposition but the layout of its pieces. -/
theorem splits_iff {l : Layout} {cs : List Char} :
    l.Splits cs ↔ l = ofPieces (Template.pieces cs) := by
  have hpieces : l.Splits cs ↔ Template.pieces cs = l.pieces := by
    rw [pieces_eq_iff, sourceOf_pieces, legible_pieces_iff]
    exact ⟨fun h => ⟨h.whole, h.proper⟩, fun h => ⟨h.1, h.2⟩⟩
  rw [hpieces]
  constructor
  · intro h
    rw [h, ofPieces_pieces]
  · rintro rfl
    rw [pieces_ofPieces]

end Layout

/-- **A template has one decomposition, and is filled in one pass over it.** It splits in exactly
one way into literal texts and tokens, such that tokens stand on one line and no opening brace of a
literal text is closed on its line; and filling it keeps the literal texts and replaces each token
by the text of the value that its name has, or leaves it as it is. -/
theorem existsUnique_layout_fill (template : String) :
    (∃! l : Layout, l.Splits template.toList) ∧
      ∀ (l : Layout) (bag defaults : Bag), l.Splits template.toList →
        fill template bag defaults = String.ofList (l.write fun body =>
          match valueOf bag defaults (tokenName body) with
          | some v => v.shown.toList
          | none => '\x7b' :: body ++ ['\x7d']) := by
  refine ⟨⟨Layout.ofPieces (pieces template.toList), Layout.splits_iff.2 rfl,
    fun l h => Layout.splits_iff.1 h⟩, fun l bag defaults h => ?_⟩
  have hpieces : pieces template.toList = l.pieces := by
    rw [Layout.splits_iff.1 h, Layout.pieces_ofPieces]
  rw [fill, hpieces, Layout.flatMap_pieces (fun _ => rfl)]
  rfl

/-- A token with a brace in its name, a closing brace by itself, a brace whose line ends before it
is closed, and a token with blanks around its name, for which only the defaults have a value. -/
theorem existsUnique_layout_fill_braces :
    let template := "\x7ba\x7bb\x7d\x7d \x7bc\n\x7b d \x7d!"
    let l : Layout :=
      .token [] "a\x7bb".toList (.token "\x7d \x7bc\n".toList " d ".toList (.last ['!']))
    l.Splits template.toList ∧
      fill template (.ofList [("a\x7bb", .text "\x7bd\x7d")]) (.ofList [("d", .int 3)]) =
        "\x7bd\x7d\x7d \x7bc\n3!" := by
  intro template l
  have hsplits : l.Splits template.toList := Layout.splits_iff.2 (by decide +kernel)
  refine ⟨hsplits, ?_⟩
  rw [(existsUnique_layout_fill template).2 l _ _ hsplits]
  decide +kernel

end Phrasebook.Template
