import Phrasebook.Number.Shortest
import Phrasebook.OrderedMap
import Phrasebook.Text.Quoted

/-! Values: what authors write in a blueprint and what callers pass as parameters. Their three
texts are here: the literal one of listings and messages, the plain one, where a text stands for
itself, and the one that a value has inside a rendered phrase. -/

namespace Phrasebook

inductive Value
  | null
  | bool (b : Bool)
  | int (n : Int)
  | real (x : Binary64)
  | text (s : String)
  | list (items : List Value)
  | map (entries : List (Value × Value))

/-- The sorts of value. -/
inductive Shape
  | null
  | bool
  | int
  | real
  | text
  | list
  | map
  deriving DecidableEq

/-- The word for a sort of value, as messages use it. -/
def Shape.word : Shape → String
  | null => "NoneType"
  | bool => "bool"
  | int => "int"
  | real => "float"
  | text => "str"
  | list => "list"
  | map => "dict"

/-- The parameters of one call, by name. -/
abbrev Bag := OrderedMap Value

namespace Value

instance : Inhabited Value := ⟨.null⟩

def ofBag (bag : Bag) : Value :=
  .map (bag.entries.map fun e => (.text e.1, e.2))

/-! ### Texts -/

mutual

/-- A value as a literal: texts are quoted, lists and maps show their items the same way. -/
def literal : Value → String
  | .null => "None"
  | .bool b => if b then "True" else "False"
  | .int n => toString n
  | .real x => x.text
  | .text s => Text.quoted s
  | .list items => "[" ++ ", ".intercalate (literals items) ++ "]"
  | .map entries => "\x7b" ++ ", ".intercalate (literalPairs entries) ++ "\x7d"

def literals : List Value → List String
  | [] => []
  | v :: vs => v.literal :: literals vs

def literalPairs : List (Value × Value) → List String
  | [] => []
  | (k, v) :: rest => (k.literal ++ ": " ++ v.literal) :: literalPairs rest

end

/-- A value as a text; only a text itself differs from its literal. -/
def plain : Value → String
  | .text s => s
  | v => v.literal

/-- A value the way it appears in a phrase: truth values are in lower case, and a whole number
has no fraction however it is stored. -/
def shown : Value → String
  | .bool b => if b then "true" else "false"
  | .real x =>
      match x.toInt? with
      | some n => toString n
      | none => x.text
  | v => v.plain

/-! ### Emptiness -/

/-- Whether there is nothing in a value: no value at all, false, a zero, or no character or item. -/
def isVoid : Value → Bool
  | .null => true
  | .bool b => !b
  | .int n => n == 0
  | .real x => x.isZero
  | .text s => s.isEmpty
  | .list items => items.isEmpty
  | .map entries => entries.isEmpty

/-! ### Equality -/

/-- Whether two values are NaN with one mark. -/
def sameNaN : Value → Value → Bool
  | .real (.nan m), .real (.nan n) => m == n
  | _, _ => false

mutual

/-- Equality of values: numbers and truth values compare as numbers, lists item by item, and maps
key by key in any order. NaN equals nothing, but inside lists and maps it is the same as a NaN with
its mark. -/
def same : Value → Value → Bool
  | .null, .null => true
  | .text s, .text t => s == t
  | .list xs, .list ys => sameItems xs ys
  | .map xs, .map ys => xs.length == ys.length && sameEntries xs ys
  | .bool b, .bool c => b == c
  | .bool b, .int n => (if b then 1 else 0) == n
  | .int n, .bool b => n == (if b then 1 else 0)
  | .bool b, .real x => x.eqInt (if b then 1 else 0)
  | .real x, .bool b => x.eqInt (if b then 1 else 0)
  | .int n, .int m => n == m
  | .int n, .real x => x.eqInt n
  | .real x, .int n => x.eqInt n
  | .real x, .real y => x.eq y
  | _, _ => false

def sameItems : List Value → List Value → Bool
  | [], [] => true
  | x :: xs, y :: ys => (sameNaN x y || same x y) && sameItems xs ys
  | _, _ => false

/-- Every entry of the first list has an equal one in the second. -/
def sameEntries : List (Value × Value) → List (Value × Value) → Bool
  | [], _ => true
  | (k, v) :: rest, ys =>
      ys.any (fun e => (sameNaN k e.1 || same k e.1) && (sameNaN v e.2 || same v e.2)) &&
        sameEntries rest ys

end

/-- Whether two keys are one. -/
def sameKey (x y : Value) : Bool :=
  sameNaN x y || same x y

/-- Give a key its value where it stands, or at the end. -/
def putEntry (key value : Value) : List (Value × Value) → List (Value × Value)
  | [] => [(key, value)]
  | (k, v) :: rest =>
      if sameKey k key then (k, value) :: rest else (k, v) :: putEntry key value rest

/-- The map that a list of entries writes: a repeated key keeps its first place and takes its last
value. -/
def ofEntries (entries : List (Value × Value)) : Value :=
  .map (entries.foldl (fun acc e => putEntry e.1 e.2 acc) [])

/-- The entries of a map all of whose keys are texts. -/
def named? : List (Value × Value) → Option (List (String × Value))
  | [] => some []
  | (.text k, v) :: rest => (named? rest).map ((k, v) :: ·)
  | _ :: _ => none

/-- The bag that a map with textual keys is. -/
def toBag? : Value → Option Bag
  | .map entries => (named? entries).map OrderedMap.ofList
  | _ => none

def shape : Value → Shape
  | .null => .null
  | .bool _ => .bool
  | .int _ => .int
  | .real _ => .real
  | .text _ => .text
  | .list _ => .list
  | .map _ => .map

end Value

end Phrasebook
