import Phrasebook.Issue
import Phrasebook.Text.Blank
import Phrasebook.Text.Split

/-! Nodes: what an author defines a phrase by. Authors may write names as a list, as a text with
commas or as the keys of a map, and variants and conditions with keys and texts of any sort; a node
holds one form of each. -/

namespace Phrasebook

/-- How an entry gets its text: it is a constant, or the filled base text, or the text of a variant,
or the text of a condition that holds. -/
inductive Kind
  | static
  | plain
  | variant
  | conditional
  deriving DecidableEq

namespace Kind

def all : List Kind := [static, plain, variant, conditional]

def word : Kind → String
  | static => "static"
  | plain => "plain"
  | variant => "variant"
  | conditional => "conditional"

def capitals : Kind → String
  | static => "STATIC"
  | plain => "PLAIN"
  | variant => "VARIANT"
  | conditional => "CONDITIONAL"

end Kind

structure Node where
  value : String
  placeholders : List String
  holders : List String
  variants : OrderedMap String
  conditions : OrderedMap String
  desc : Option String

namespace Node

/-- The name of the parameter that selects a variant. -/
def discriminant (n : Node) : Option String :=
  n.placeholders.head?

/-- Variants take precedence over conditions. -/
def kind (n : Node) : Kind :=
  if !n.variants.isEmpty then .variant
  else if !n.conditions.isEmpty then .conditional
  else .plain

/-! ### Reading the fields -/

/-- The base text; anything empty is the empty text. -/
def baseText (v : Value) : String :=
  if v.isVoid then "" else v.plain

/-- The texts that name something, before they are cleaned. -/
def rawNames : Value → Except Misuse (List (List Char))
  | .null => .ok []
  | .text s => .ok (Text.splitOn ',' s.toList)
  | .list items => .ok (items.map fun v => v.plain.toList)
  | .map entries => .ok (entries.map fun e => e.1.plain.toList)
  | v => .error (.notIterable v.shape)

/-- Trim names and drop those that are blank. -/
def cleanNames (raw : List (List Char)) : List String :=
  ((raw.map Text.trim).filter (!·.isEmpty)).map String.ofList

def names (v : Value) : Except Misuse (List String) :=
  (rawNames v).map cleanNames

/-- The text of a variant or of a condition's template. -/
def entryText : Value → String
  | .null => ""
  | v => v.plain

/-- Texts by key; keys that read alike are one. -/
def texts (v : Value) : Except Misuse (OrderedMap String) :=
  if v.isVoid then .ok .empty
  else
    match v with
    | .map entries => .ok (.ofList (entries.map fun e => (e.1.plain, entryText e.2)))
    | _ => .error (.notEntries v.shape)

def description : Value → Checked (Option String)
  | .null => .ok none
  | .text s => .ok (some s)
  | v => Checked.fail .notText [.key "desc"] v

/-- A field that may be left out. -/
def field (entries : List (Value × Value)) (name : String) : Value :=
  (Value.field? name entries).getD .null

/-- Read a node from the entries of a map. A misuse in any field comes before an issue with the
description. -/
def ofEntries (entries : List (Value × Value)) : Checked Node :=
  let holders := ((Value.fieldOr? "holders" "parrotHolders" entries).map Prod.snd).getD .null
  let read : Except Misuse (Option String → Node) := do
    let placeholders ← names (field entries "placeholders")
    let holders ← names holders
    let variants ← texts (field entries "variants")
    let conditions ← texts (field entries "conditions")
    pure fun desc =>
      ⟨baseText (field entries "value"), placeholders, holders, variants, conditions, desc⟩
  match read with
  | .error m => .error (.misuse m)
  | .ok node => (description (field entries "desc")).map node

/-- Read a node; `otherwise` is what is wrong with a value that is no map. -/
def check (otherwise : String → Issue.Cause) : Value → Checked Node
  | .map entries => ofEntries entries
  | v => Checked.fail (otherwise "BlueprintNode") [] v

/-- The map whose reading is the node again. -/
def toValue (n : Node) : Value :=
  .map [(.text "value", .text n.value),
    (.text "placeholders", .list (n.placeholders.map .text)),
    (.text "holders", .list (n.holders.map .text)),
    (.text "variants", .ofBag (n.variants.map .text)),
    (.text "conditions", .ofBag (n.conditions.map .text)),
    (.text "desc", (n.desc.map .text).getD .null)]

end Node

end Phrasebook
