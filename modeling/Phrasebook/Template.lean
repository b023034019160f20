import Phrasebook.Text.Blank
import Phrasebook.Value

/-! Templates: texts with `{name}` tokens. A template is a row of pieces, each a single literal
character or a token; a token runs from a brace to the next closing brace on the same line. Filling
a template replaces each token whose name has a value, in one pass: what a value brings in is never
read again, and a token without a value stays as it was written. -/

namespace Phrasebook

namespace Template

inductive Piece
  | char (c : Char)
  | token (body : List Char)
  deriving DecidableEq

/-- The body of a token and what follows it, read from behind the opening brace. -/
def body? : List Char → Option (List Char × List Char)
  | [] => none
  | c :: cs =>
      if c = '\x7d' then some ([], cs)
      else if c = '\n' then none
      else (body? cs).map fun r => (c :: r.1, r.2)

theorem length_body? {cs body rest : List Char} (h : body? cs = some (body, rest)) :
    rest.length < cs.length := by
  induction cs generalizing body with
  | nil => simp [body?] at h
  | cons c cs ih =>
      unfold body? at h
      split at h
      · obtain ⟨-, rfl⟩ := Prod.mk.inj (Option.some.inj h)
        simp
      · split at h
        · cases h
        · obtain ⟨r, hr, he⟩ := Option.map_eq_some_iff.1 h
          obtain ⟨-, rfl⟩ := Prod.mk.inj he
          have := ih hr
          simp only [List.length_cons]
          omega

/-- The pieces of a template. -/
def pieces : List Char → List Piece
  | [] => []
  | c :: cs =>
      if c = '\x7b' then
        match _h : body? cs with
        | some (body, rest) => .token body :: pieces rest
        | none => .char c :: pieces cs
      else .char c :: pieces cs
termination_by cs => cs.length
decreasing_by
  · have := length_body? _h
    simp only [List.length_cons]
    omega
  · simp
  · simp

/-- The text that a piece was read from. -/
def Piece.source : Piece → List Char
  | .char c => [c]
  | .token body => '\x7b' :: body ++ ['\x7d']

theorem eq_of_body? {cs body rest : List Char} (h : body? cs = some (body, rest)) :
    cs = body ++ '\x7d' :: rest := by
  induction cs generalizing body with
  | nil => cases h
  | cons c cs ih =>
      unfold body? at h
      split at h
      · next hc =>
          obtain ⟨rfl, rfl⟩ := Prod.mk.inj (Option.some.inj h)
          rw [hc]
          rfl
      · split at h
        · cases h
        · obtain ⟨r, hr, he⟩ := Option.map_eq_some_iff.1 h
          obtain ⟨rfl, rfl⟩ := Prod.mk.inj he
          rw [ih hr]
          rfl

/-- The pieces hold the whole template. -/
theorem flatMap_source_pieces (cs : List Char) : (pieces cs).flatMap Piece.source = cs := by
  fun_induction pieces cs with
  | case1 => rfl
  | case2 cs body rest hb ih =>
      rw [List.flatMap_cons, ih, eq_of_body? hb]
      simp [Piece.source]
  | case3 cs hb ih =>
      rw [List.flatMap_cons, ih]
      rfl
  | case4 c cs hc ih =>
      rw [List.flatMap_cons, ih]
      rfl

/-- The name of a token: its body without the blanks around it. -/
def tokenName (body : List Char) : String :=
  String.ofList (Text.trim body)

/-- The name a piece asks for. -/
def Piece.name? : Piece → Option String
  | .char _ => none
  | .token body => some (tokenName body)

/-- Keep the first occurrence of each name. -/
def distinct (names : List String) : List String :=
  names.foldl (fun seen name => if name ∈ seen then seen else seen ++ [name]) []

/-- The names of the tokens of a template, in order, each once. -/
def tokenNames (template : String) : List String :=
  distinct ((pieces template.toList).filterMap Piece.name?)

/-- A value that counts: no value stands for an absent one. -/
def present : Option Value → Option Value
  | some .null => none
  | v => v

/-- The value of a name: the one in the bag, else the one among the defaults. -/
def valueOf (bag defaults : Bag) (name : String) : Option Value :=
  (present (bag.get? name)).or (present (defaults.get? name))

/-- What stands for a piece in the filled template. -/
def Piece.fill (bag defaults : Bag) : Piece → List Char
  | .char c => [c]
  | .token body =>
      match valueOf bag defaults (tokenName body) with
      | some v => v.shown.toList
      | none => (Piece.token body).source

/-- Fill a template from a bag, and from the defaults where the bag has no value. -/
def fill (template : String) (bag defaults : Bag) : String :=
  String.ofList ((pieces template.toList).flatMap (Piece.fill bag defaults))

end Template

end Phrasebook
