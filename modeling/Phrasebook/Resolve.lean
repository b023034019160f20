import Phrasebook.Registry
import Phrasebook.Template

/-! Resolution: the text of an entry for a bag. Before a phrase is rendered, each of its holders,
a parameter whose value is the key of another entry, is replaced in the bag by the text of that
entry. Entries reached through holders form a chain; a key that comes again in its own chain is a
cycle, and no chain is longer than the depth limit. The bag is part of the outcome, also of a failed
resolution. -/

namespace Phrasebook

/-- Why following holders was given up, with the chain of keys that led there. -/
inductive HolderError
  | cycle (chain : List String)
  | tooDeep (chain : List String) (limit : Nat)
  deriving DecidableEq

namespace HolderError

def chain : HolderError → List String
  | cycle chain => chain
  | tooDeep chain _ => chain

def message : HolderError → String
  | cycle chain => "Holder cycle: " ++ " -> ".intercalate chain
  | tooDeep chain limit =>
      "Holder chain exceeds depth " ++ toString limit ++ ": " ++ " -> ".intercalate chain

end HolderError

inductive ResolveError
  | holder (e : HolderError)
  | number (e : NumberError)
  deriving DecidableEq

structure Outcome (α : Type) where
  result : Except ResolveError α
  bag : Bag
  log : Log

/-- What a resolution looks things up in: a registry, the defaults for placeholders and for
variants, and whether a variant phrase without placeholders is filled. -/
structure Scope where
  registry : Registry
  placeholders : Bag
  variants : Bag
  fillBareVariants : Bool

namespace Scope

/-! ### Rendering -/

/-- The template of a variant phrase: that of the variant which the discriminant names, else the
base text. -/
def variantTemplate (scope : Scope) (node : Node) (bag : Bag) : String :=
  match node.discriminant with
  | none => node.value
  | some name =>
      match Template.valueOf bag scope.variants name with
      | none => node.value
      | some v => (node.variants.get? v.shown).getD node.value

/-- The text of a phrase whose holders are in place. -/
def render (scope : Scope) (p : Phrase) (bag : Bag) : Except NumberError String :=
  match p.node.kind with
  | .variant =>
      let template := scope.variantTemplate p.node bag
      if !p.node.placeholders.isEmpty || scope.fillBareVariants then
        .ok (Template.fill template bag scope.placeholders)
      else .ok template
  | .conditional =>
      match Condition.Rule.firstSelected bag p.rules with
      | .error e => .error e
      | .ok selected => .ok (Template.fill (selected.getD p.node.value) bag scope.placeholders)
  | _ => .ok (Template.fill p.node.value bag scope.placeholders)

/-! ### Holders -/

/-- The line about a holder that names no entry. -/
def missedLine (key holder reference : String) : LogLine :=
  ⟨.debug, .entries,
    "[HOLDER] " ++ key ++ "." ++ holder ++ " -> unknown entry " ++ Text.quoted reference⟩

/-- Replace the holders of entry `key` one after the other; `follow` resolves the phrases they name.
A holder without a value, or naming no entry, ends up without a value. -/
def substitute (scope : Scope) (follow : String → Phrase → Bag → Outcome String) (key : String) :
    List String → Bag → Outcome Unit
  | [], bag => ⟨.ok (), bag, []⟩
  | holder :: rest, bag =>
      match Template.present (bag.get? holder) with
      | none => substitute scope follow key rest (bag.insert holder .null)
      | some v =>
          match scope.registry.get? v.shown with
          | none =>
              let o := substitute scope follow key rest (bag.insert holder .null)
              ⟨o.result, o.bag, missedLine key holder v.shown :: o.log⟩
          | some (.constant c) => substitute scope follow key rest (bag.insert holder c)
          | some (.phrase p) =>
              let inner := follow v.shown p bag
              match inner.result with
              | .error e => ⟨.error e, inner.bag, inner.log⟩
              | .ok text =>
                  let o := substitute scope follow key rest (inner.bag.insert holder (.text text))
                  ⟨o.result, o.bag, inner.log ++ o.log⟩

/-- Resolve a phrase below a chain of keys that are being resolved, when the chain may grow by
`room` more. -/
def enter (scope : Scope) : (room : Nat) → (chain : List String) → (key : String) → Phrase → Bag →
    Outcome String
  | 0, chain, key, _, bag =>
      if key ∈ chain then ⟨.error (.holder (.cycle (chain ++ [key]))), bag, []⟩
      else ⟨.error (.holder (.tooDeep (chain ++ [key]) chain.length)), bag, []⟩
  | room + 1, chain, key, p, bag =>
      if key ∈ chain then ⟨.error (.holder (.cycle (chain ++ [key]))), bag, []⟩
      else
        let o := substitute scope (enter scope room (chain ++ [key])) key p.node.holders bag
        match o.result with
        | .error e => ⟨.error e, o.bag, o.log⟩
        | .ok () => ⟨(scope.render p o.bag).mapError .number, o.bag, o.log⟩

/-- Resolve an entry at the top of a chain. -/
def resolveEntry (scope : Scope) (limit : Nat) (key : String) (entry : Entry) (bag : Bag) :
    Outcome Value :=
  match entry with
  | .constant v => ⟨.ok v, bag, []⟩
  | .phrase p =>
      let o := scope.enter limit [] key p bag
      ⟨o.result.map .text, o.bag, o.log⟩

end Scope

end Phrasebook
