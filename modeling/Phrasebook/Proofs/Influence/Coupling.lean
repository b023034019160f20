import Phrasebook.Proofs.Holder.Nesting
import Phrasebook.Proofs.Influence.Mention

/-! Coupled resolutions. Two resolutions of one registry, each with a scope and a bag of its own,
run in step as long as their bags stay in a relation that settles what holders stand for and what
phrases are rendered to, and that writing the same value to a holder keeps. Then every holder is
followed in both or in neither and is given the same value in both, at every depth, and the two come
to the same result (`Coupling.enter`, `Engine.resolve_of_coupling`). -/

namespace Phrasebook

namespace Scope

/-- A relation of bags that keeps resolutions in two scopes together. -/
structure Coupling (scope scope' : Scope) (R : Bag → Bag → Prop) : Prop where
  registry : scope.registry = scope'.registry
  target : ∀ {bag bag' : Bag} {holder : String}, R bag bag' → holder ∈ scope.registry.holders →
    scope.registry.target bag holder = scope'.registry.target bag' holder
  insert : ∀ {bag bag' : Bag} {holder : String}, R bag bag' → holder ∈ scope.registry.holders →
    ∀ v, R (bag.insert holder v) (bag'.insert holder v)
  render : ∀ {bag bag' : Bag} {key : String} {p : Phrase}, R bag bag' →
    scope.registry.get? key = some (.phrase p) → scope.render p bag = scope'.render p bag'

/-- Outcomes that agree in all that is returned, with bags in a relation. -/
structure SameOutcome {α : Type} (R : Bag → Bag → Prop) (o o' : Outcome α) : Prop where
  result : o.result = o'.result
  log : o.log = o'.log
  bags : R o.bag o'.bag

theorem SameOutcome.after {α : Type} {R : Bag → Bag → Prop} {o o' : Outcome α}
    (h : SameOutcome R o o') (log : Log) : SameOutcome R (o.after log) (o'.after log) :=
  ⟨h.result, congrArg (log ++ ·) h.log, h.bags⟩

namespace Coupling

variable {scope scope' : Scope} {R : Bag → Bag → Prop} {bag bag' : Bag}

/-- Replacing holders keeps bags together, if resolving the entries they stand for does. -/
theorem substitute (c : Coupling scope scope' R)
    {follow follow' : String → Phrase → Bag → Outcome String}
    (hfollow : ∀ (k : String) (q : Phrase) (bag bag' : Bag),
      scope.registry.get? k = some (.phrase q) → R bag bag' →
      SameOutcome R (follow k q bag) (follow' k q bag'))
    (key : String) {holders : List String} (hholders : holders ⊆ scope.registry.holders)
    (h : R bag bag') :
    SameOutcome R (scope.substitute follow key holders bag)
      (scope'.substitute follow' key holders bag') := by
  induction holders generalizing bag bag' with
  | nil => exact ⟨rfl, rfl, h⟩
  | cons holder rest ih =>
      rw [List.cons_subset] at hholders
      obtain ⟨hholder, hrest⟩ := hholders
      have hwrite : ∀ {b b' : Bag}, R b b' → ∀ v,
          SameOutcome R (scope.substitute follow key rest (b.insert holder v))
            (scope'.substitute follow' key rest (b'.insert holder v)) :=
        fun hb v => ih hrest (c.insert hb hholder v)
      rw [substitute_cons, substitute_cons, ← c.target h hholder]
      cases htarget : scope.registry.target bag holder with
      | absent => exact hwrite h _
      | unknown k => exact (hwrite h _).after _
      | constant v => exact hwrite h _
      | phrase k q =>
          have hinner := hfollow k q bag bag' (Registry.target_eq_phrase_iff.1 htarget).2 h
          cases hresult : (follow k q bag).result with
          | error e =>
              simp only [← hinner.result, hresult]
              exact ⟨rfl, hinner.log, hinner.bags⟩
          | ok text =>
              simp only [← hinner.result, ← hinner.log, hresult]
              exact (hwrite hinner.bags _).after _

theorem rendered (c : Coupling scope scope' R) {key : String} {p : Phrase}
    (hp : scope.registry.get? key = some (.phrase p)) {o o' : Outcome Unit}
    (h : SameOutcome R o o') : SameOutcome R (scope.rendered p o) (scope'.rendered p o') := by
  rw [Scope.rendered, Scope.rendered, ← h.result]
  cases o.result with
  | error e => exact ⟨rfl, h.log, h.bags⟩
  | ok _ => exact ⟨congrArg (Except.mapError _) (c.render h.bags hp), h.log, h.bags⟩

/-- **Resolving a phrase keeps bags together.** -/
theorem enter (c : Coupling scope scope' R) (room : Nat) (chain : List String) {key : String}
    {p : Phrase} (hp : scope.registry.get? key = some (.phrase p)) (h : R bag bag') :
    SameOutcome R (scope.enter room chain key p bag) (scope'.enter room chain key p bag') := by
  induction room generalizing chain key p bag bag' with
  | zero =>
      by_cases hkey : key ∈ chain
      · rw [enter_of_mem 0 p bag hkey, enter_of_mem 0 p bag' hkey]
        exact ⟨rfl, rfl, h⟩
      · rw [enter_zero_of_not_mem p bag hkey, enter_zero_of_not_mem p bag' hkey]
        exact ⟨rfl, rfl, h⟩
  | succ room ih =>
      by_cases hkey : key ∈ chain
      · rw [enter_of_mem _ p bag hkey, enter_of_mem _ p bag' hkey]
        exact ⟨rfl, rfl, h⟩
      · rw [enter_succ_of_not_mem room p bag hkey, enter_succ_of_not_mem room p bag' hkey]
        refine c.rendered hp (c.substitute (fun k q b b' hq hb => ?_) key
          (fun _ hname => Registry.mem_holders hp hname) h)
        exact ih (chain ++ [key]) hq hb

end Coupling

end Scope

namespace Engine

variable {e e' : Engine} {settings settings' : Settings} {R : Bag → Bag → Prop} {bag bag' : Bag}

/-- **Queries on coupled bags come to the same result**, and leave bags that are coupled. -/
theorem resolve_of_coupling
    (c : (e.scope settings e.registry).Coupling (e'.scope settings' e'.registry) R)
    (hlimit : settings.depthLimit = settings'.depthLimit) (key : String) (h : R bag bag') :
    (e.resolve settings key bag).result = (e'.resolve settings' key bag').result ∧
      (e.resolve settings key bag).log = (e'.resolve settings' key bag').log ∧
      R (e.resolve settings key bag).bag (e'.resolve settings' key bag').bag := by
  have hregistry : e.registry = e'.registry := c.registry
  cases hget : e.registry.get? key with
  | none =>
      rw [resolve_of_unknown settings bag hget,
        resolve_of_unknown settings' bag' (hregistry ▸ hget)]
      exact ⟨rfl, rfl, h⟩
  | some entry =>
      cases entry with
      | constant v =>
          rw [resolve_of_constant settings bag hget,
            resolve_of_constant settings' bag' (hregistry ▸ hget)]
          exact ⟨rfl, rfl, h⟩
      | phrase p =>
          rw [resolve_of_phrase settings bag hget,
            resolve_of_phrase settings' bag' (hregistry ▸ hget), ← hlimit]
          have houtcome := c.enter settings.depthLimit [] hget h
          exact ⟨by simp only [houtcome.result], houtcome.log, houtcome.bags⟩

end Engine

end Phrasebook
