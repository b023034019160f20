import Phrasebook.Blueprint
import Phrasebook.Condition.Rule

/-! Registries: what a blueprint becomes for one language. A registry holds one entry for every key;
of several definitions of a key the last one counts, at the place of the first. -/

namespace Phrasebook

/-- A node with its key and with the rules of its conditions, which only a conditional node has. -/
structure Phrase where
  key : String
  node : Node
  rules : List Condition.Rule

/-- One line about a phrase, which goes by its own key unless another one is given. -/
def Phrase.summary (p : Phrase) (key : String := p.key) : String :=
  "EntryResolver(" ++ Text.quoted key ++ ", " ++ p.node.kind.capitals ++ ")"

inductive Entry
  | constant (v : Value)
  | phrase (p : Phrase)

def Entry.kind : Entry → Kind
  | constant _ => .static
  | phrase p => p.node.kind

structure Registry where
  language : Option String
  entries : OrderedMap Entry

namespace Registry

def empty : Registry :=
  ⟨none, .empty⟩

def get? (r : Registry) (key : String) : Option Entry :=
  r.entries.get? key

def size (r : Registry) : Nat :=
  r.entries.size

/-- The keys of one kind, in order. -/
def keysOfKind (r : Registry) (kind : Kind) : List String :=
  (r.entries.entries.filter (·.2.kind = kind)).map Prod.fst

/-- One line about a registry. -/
def summary (r : Registry) : String :=
  "Registry(language=" ++ ((r.language.map Text.quoted).getD "None") ++ ", " ++ toString r.size ++
    " entries)"

/-! ### Building -/

/-- The phrase of a key and a node; only the conditions of a conditional node are read. -/
def phraseOf (key : String) (n : Node) : Except Nat Phrase × Log :=
  match n.kind with
  | .conditional =>
      let (rules, log) := Condition.Rule.readAll key n.conditions.entries
      (rules.map (⟨key, n, ·⟩), log)
  | _ => (.ok ⟨key, n, []⟩, [])

def entryOf (key : String) : Blueprint.Definition → Except Nat Entry × Log
  | .constant v => (.ok (.constant v), [])
  | .phrase n =>
      let (phrase, log) := phraseOf key n
      (phrase.map .phrase, log)

/-- The entries of definitions; an oversized number ends the row. -/
def entriesOf : List (String × Blueprint.Definition) → Except Nat (List (String × Entry)) × Log
  | [] => (.ok [], [])
  | (key, d) :: rest =>
      match entryOf key d with
      | (.error count, log) => (.error count, log)
      | (.ok entry, log) =>
          let (entries, more) := entriesOf rest
          (entries.map ((key, entry) :: ·), log ++ more)

/-- The number of keys of each kind, as a log line shows them. -/
def kindCounts (r : Registry) : String :=
  let counts := Kind.all.map fun k => "'" ++ k.word ++ "': " ++ toString (r.keysOfKind k).length
  "\x7b" ++ ", ".intercalate counts ++ "\x7d"

/-- A language as a log line shows it. -/
def languageMark : Option String → String
  | none => "-"
  | some l => if l.isEmpty then "-" else l

/-- The line about a registry that was built, with the number of overwritten entries. -/
def builtLine (r : Registry) (overwritten : Nat) : LogLine :=
  ⟨.info, .builder,
    "[REGISTRY] Built " ++ toString r.size ++ " entries for language=" ++ languageMark r.language ++
      " " ++ r.kindCounts ++ " (overwritten=" ++ toString overwritten ++ ")"⟩

/-- Build the registry of a blueprint; the error is the count of digits of an oversized number in a
condition. -/
def build (b : Blueprint) (language : Option String) : Except Nat Registry × Log :=
  match entriesOf b.definitions with
  | (.error count, log) => (.error count, log)
  | (.ok entries, log) =>
      let t := OrderedMap.tally entries
      let r : Registry := ⟨language, t.map⟩
      (.ok r, log ++ [r.builtLine t.taken])

end Registry

end Phrasebook
