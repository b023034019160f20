import Phrasebook.Value

/-! What a check finds wrong with data, and where. A check goes on after an issue and reports all of
them in the order of the data; a misuse, where a field holds something that its reading cannot even
begin with, ends the check at once. -/

namespace Phrasebook

/-- A step of the way to a piece of data. -/
inductive Place
  | key (name : String)
  | index (n : Int)
  deriving DecidableEq

inductive Issue.Cause
  | notMap
  | notText
  | notModel (name : String)
  | notObject
  | missing
  | notInteger
  | notReal
  | notStore
  | notJson
  deriving DecidableEq

/-- Something wrong: the cause, the place, and the data found there, or around it if something is
missing. -/
structure Issue where
  cause : Issue.Cause
  location : List Place
  data : Value

/-- The code of a cause. -/
def Issue.Cause.code : Issue.Cause → String
  | notMap => "dict_type"
  | notText => "string_type"
  | notModel _ => "model_type"
  | notObject => "model_attributes_type"
  | missing => "missing"
  | notInteger => "int_type"
  | notReal => "float_type"
  | notStore => "enum"
  | notJson => "json_invalid"

def Issue.Cause.message : Issue.Cause → String
  | notMap => "Input should be a valid dictionary"
  | notText => "Input should be a valid string"
  | notModel name => "Input should be a valid dictionary or instance of " ++ name
  | notObject => "Input should be a valid dictionary or object to extract fields from"
  | missing => "Field required"
  | notInteger => "Input should be a valid integer"
  | notReal => "Input should be a valid number"
  | notStore => "Input should be 'placeholders' or 'variants'"
  | notJson => "JSON decode error"

/-- An issue inside a larger piece of data. -/
def Issue.under (place : Place) (i : Issue) : Issue :=
  ⟨i.cause, place :: i.location, i.data⟩

/-- A value where names or named texts are expected, of a sort that holds none. -/
inductive Misuse
  | notIterable (shape : Shape)
  | notEntries (shape : Shape)
  deriving DecidableEq

def Misuse.message : Misuse → String
  | notIterable shape => "'" ++ shape.word ++ "' object is not iterable"
  | notEntries shape => "'" ++ shape.word ++ "' object has no attribute 'items'"

/-- Why data was turned down. -/
inductive Rejection
  | issues (l : List Issue)
  | misuse (m : Misuse)

/-- The result of a check. -/
abbrev Checked (α : Type) := Except Rejection α

namespace Checked

variable {α β γ : Type}

def fail (cause : Issue.Cause) (location : List Place) (data : Value) : Checked α :=
  .error (.issues [⟨cause, location, data⟩])

/-- The issues of a check of a part, seen from the whole. -/
def under (place : Place) : Checked α → Checked α
  | .error (.issues l) => .error (.issues (l.map (Issue.under place)))
  | r => r

/-- Two checks, one after the other, with the issues of both. -/
def both (f : α → β → γ) (first : Checked α) (second : Checked β) : Checked γ :=
  match first, second with
  | .ok a, .ok b => .ok (f a b)
  | .error (.misuse m), _ => .error (.misuse m)
  | _, .error (.misuse m) => .error (.misuse m)
  | .error (.issues l), .error (.issues l') => .error (.issues (l ++ l'))
  | .error (.issues l), .ok _ => .error (.issues l)
  | .ok _, .error (.issues l) => .error (.issues l)

end Checked

namespace Value

/-- The place that a key of a map names; a number that 64 bits do not hold is named by its text. -/
def place : Value → Place
  | .text s => .key s
  | .bool b => .index (if b then 1 else 0)
  | .int n =>
      if -9223372036854775808 ≤ n ∧ n ≤ 9223372036854775807 then .index n else .key (toString n)
  | v => .key v.literal

/-- The value of a textual key among the entries of a map. -/
def field? (name : String) : List (Value × Value) → Option Value
  | [] => none
  | (.text k, v) :: rest => if k = name then some v else field? name rest
  | _ :: rest => field? name rest

/-- The first of two keys that is present, with its value. -/
def fieldOr? (name other : String) (entries : List (Value × Value)) : Option (String × Value) :=
  match field? name entries with
  | some v => some (name, v)
  | none => (field? other entries).map (other, ·)

/-- Check the entries of a map: keys are texts, and values pass the check given. -/
def checkEntries {α : Type} (check : Value → Checked α) :
    List (Value × Value) → Checked (List (String × α))
  | [] => .ok []
  | (k, v) :: rest =>
      let key : Checked String :=
        match k with
        | .text s => .ok s
        | _ => Checked.fail .notText [k.place, .key "[key]"] k
      let value := (check v).under k.place
      Checked.both (· :: ·) (Checked.both Prod.mk key value) (checkEntries check rest)

/-- Check that a value is a map with such entries. -/
def checkMap {α : Type} (check : Value → Checked α) : Value → Checked (OrderedMap α)
  | .map entries => (checkEntries check entries).map OrderedMap.ofList
  | v => Checked.fail .notMap [] v

end Value

end Phrasebook
