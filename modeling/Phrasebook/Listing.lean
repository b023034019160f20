import Phrasebook.Error

/-! Listings: what a registry tells about its entries. The listing of a whole registry is sorted by
key and counts the entries of each kind. -/

namespace Phrasebook

/-- What is told about an entry. A phrase tells its own key; a variant phrase tells the keys of its
variants, a conditional one the sources of its rules and how many of its conditions were dropped. -/
inductive EntryInfo
  | constant (key : String) (value : Value)
  | phrase (key : String) (node : Node) (sources : List String)

namespace EntryInfo

/-- What is told about the entry of a key. -/
def ofEntry (key : String) : Entry → EntryInfo
  | .constant v => .constant key v
  | .phrase p => .phrase p.key p.node (p.rules.map (·.source))

def key : EntryInfo → String
  | constant key _ => key
  | phrase key _ _ => key

def kind : EntryInfo → Kind
  | constant _ _ => .static
  | phrase _ node _ => node.kind

/-- How many of the conditions of a node have no rule. -/
def dropped (node : Node) (sources : List String) : Nat :=
  node.conditions.size - sources.length

def textList (l : List String) : Value :=
  .list (l.map .text)

/-- The part that depends on the kind of a phrase. -/
def details (node : Node) (sources : List String) : List (Value × Value) :=
  match node.kind with
  | .variant => [(.text "variants", textList node.variants.keys)]
  | .conditional =>
      (.text "conditions", textList sources) ::
        (if dropped node sources = 0 then []
        else [(.text "dropped_conditions", .int (dropped node sources))])
  | _ => []

def toValue : EntryInfo → Value
  | constant key value =>
      .map [(.text "key", .text key), (.text "kind", .text Kind.static.word),
        (.text "value", value)]
  | phrase key node sources =>
      .map ([(.text "key", .text key), (.text "kind", .text node.kind.word),
        (.text "value", .text node.value), (.text "placeholders", textList node.placeholders),
        (.text "holders", textList node.holders)] ++
        (match node.desc with
          | some d => if d.isEmpty then [] else [(.text "desc", .text d)]
          | none => []) ++
        details node sources)

end EntryInfo

namespace Registry

/-- The entry of a key. -/
def entry (r : Registry) (key : String) : Except Error Entry :=
  match r.get? key with
  | some entry => .ok entry
  | none => .error (.unknownEntry key)

/-- What is told about the entry of a key. -/
def describe (r : Registry) (key : String) : Except Error EntryInfo :=
  (r.entry key).map (EntryInfo.ofEntry key)

end Registry

/-- What is told about a registry. -/
structure Listing where
  language : Option String
  entries : List EntryInfo

namespace Listing

/-- The order of keys: that of their code points. -/
def keyLe (a b : String × Entry) : Bool :=
  !decide (b.1 < a.1)

def ofRegistry (r : Registry) : Listing :=
  ⟨r.language, (r.entries.entries.mergeSort keyLe).map fun e => EntryInfo.ofEntry e.1 e.2⟩

/-- Count one more of a kind. -/
def countKind (counts : OrderedMap Nat) (kind : Kind) : OrderedMap Nat :=
  counts.insert kind.word ((counts.get? kind.word).getD 0 + 1)

/-- The number of entries of each kind that occurs, in the order in which the kinds first occur. -/
def kinds (l : Listing) : OrderedMap Nat :=
  (l.entries.map (·.kind)).foldl countKind .empty

def toValue (l : Listing) : Value :=
  .map [(.text "language", (l.language.map .text).getD .null),
    (.text "total_entries", .int l.entries.length),
    (.text "kinds", .ofBag (l.kinds.map fun (n : Nat) => .int n)),
    (.text "entries", .list (l.entries.map EntryInfo.toValue))]

end Listing

end Phrasebook
