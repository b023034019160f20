import Phrasebook.Node

/-! Blueprints: groups of constants and groups of nodes, as authors deliver them for one language.
The groups only order the source; flattened, a blueprint is a row of definitions. -/

namespace Phrasebook

structure Blueprint where
  static : OrderedMap (OrderedMap Value)
  dynamic : OrderedMap (OrderedMap Node)

namespace Blueprint

def empty : Blueprint :=
  ⟨.empty, .empty⟩

/-- A section under the first of its two names that is present; a missing one is empty. -/
def section? {α : Type} (name other : String) (check : Value → Checked α)
    (entries : List (Value × Value)) : Checked (OrderedMap (OrderedMap α)) :=
  match Value.fieldOr? name other entries with
  | none => .ok .empty
  | some (_, .null) => .ok .empty
  | some (found, v) => (Value.checkMap (Value.checkMap check) v).under (.key found)

/-- Read a blueprint; `otherwise` is what is wrong with a value that should be a blueprint or a node
and is no map. -/
def check (otherwise : String → Issue.Cause) : Value → Checked Blueprint
  | .map entries =>
      Checked.both Blueprint.mk (section? "Static" "static" .ok entries)
        (section? "Dynamic" "dynamic" (Node.check otherwise) entries)
  | v => Checked.fail (otherwise "Blueprint") [] v

/-- Read a blueprint from raw data. -/
def ofValue (v : Value) : Checked Blueprint :=
  check .notModel v

/-! ### Definitions -/

/-- What a key stands for. -/
inductive Definition
  | constant (v : Value)
  | phrase (n : Node)

def flatten {α : Type} (groups : OrderedMap (OrderedMap α)) : List (String × α) :=
  groups.values.flatMap (·.entries)

/-- All definitions in order: the constants of all groups, then the nodes of all groups. -/
def definitions (b : Blueprint) : List (String × Definition) :=
  (flatten b.static).map (fun e => (e.1, .constant e.2)) ++
    (flatten b.dynamic).map (fun e => (e.1, .phrase e.2))

/-- The number of entries in some groups. -/
def groupedSize {α : Type} : List (OrderedMap α) → Nat
  | [] => 0
  | group :: rest => group.size + groupedSize rest

/-- The number of definitions, repeated keys included. -/
def entryCount (b : Blueprint) : Nat :=
  groupedSize b.static.values + groupedSize b.dynamic.values

/-- The map whose reading is the blueprint again. -/
def toValue (b : Blueprint) : Value :=
  .map [(.text "Static", .ofBag (b.static.map .ofBag)),
    (.text "Dynamic", .ofBag (b.dynamic.map fun g => .ofBag (g.map Node.toValue)))]

end Blueprint

end Phrasebook
