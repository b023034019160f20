import Phrasebook.Proofs.Condition.Totality
import Phrasebook.Proofs.Holder.Nesting

/-! What a query can fail for. A resolution writes to its bag texts, constants of the registry and
nulls, so a bag whose integers are in range stays such a bag, at every depth (`regular_enter`). Then
every rendering on the way has a text, and only following the holders can fail, by a cycle or a
chain that is too deep. An entry is unknown only if it is the requested one: a holder that names no
entry ends up without a value (`resolve_taxonomy`). -/

namespace Phrasebook

/-- The integers that a registry brings into resolutions are in range: those of its constants and
those of the literals in its conditions. -/
structure Registry.InRange (r : Registry) : Prop where
  constants : ∀ key v, r.get? key = some (.constant v) → v.InRange
  literals : ∀ key p, r.get? key = some (.phrase p) → ∀ rule ∈ p.rules, rule.expr.InRange

/-- All integers of an engine are in range, also those in its default stores. -/
structure Engine.InRange (e : Engine) : Prop where
  registry : e.registry.InRange
  stores : ∀ name, Bag.InRange (e.stores.store name .engine).values

/-- An outcome with a bag that is in range, and which can only fail for its holders. -/
structure Outcome.Regular {α : Type} (o : Outcome α) : Prop where
  bag : Bag.InRange o.bag
  failure : o.FailsOnly fun x => ∃ e, x = .holder e

namespace Outcome

variable {α β : Type}

theorem Regular.after {o : Outcome α} (h : o.Regular) (log : Log) : (o.after log).Regular :=
  ⟨h.bag, h.failure⟩

/-- Giving up for a holder is regular. -/
theorem regular_of_holder (x : HolderError) {bag : Bag} (hbag : bag.InRange) (log : Log) :
    Regular (⟨.error (.holder x), bag, log⟩ : Outcome α) := by
  refine ⟨hbag, ?_⟩
  rintro y ⟨⟩
  exact ⟨x, rfl⟩

/-- What fails by passing an error on is regular if the error came from a regular outcome. -/
theorem Regular.passed {o : Outcome α} (h : o.Regular) {x : ResolveError}
    (hx : o.result = .error x) : Regular (⟨.error x, o.bag, o.log⟩ : Outcome β) := by
  obtain ⟨y, rfl⟩ := h.failure x hx
  exact regular_of_holder y h.bag o.log

end Outcome

namespace Scope

variable {scope : Scope} {bag : Bag} {p : Phrase}

/-- A phrase always has a text. -/
theorem exists_render (hp : ∀ rule ∈ p.rules, rule.expr.InRange) (hbag : bag.InRange) :
    ∃ text, scope.render p bag = .ok text := by
  unfold render
  cases p.node.kind with
  | variant =>
      by_cases hfilled : (!p.node.placeholders.isEmpty || scope.fillBareVariants) = true
      · exact ⟨_, if_pos hfilled⟩
      · exact ⟨_, if_neg hfilled⟩
  | conditional =>
      obtain ⟨selected, hselected⟩ := Condition.Rule.exists_firstSelected hbag hp
      rw [hselected]
      exact ⟨_, rfl⟩
  | _ => exact ⟨_, rfl⟩

theorem regular_rendered (hp : ∀ rule ∈ p.rules, rule.expr.InRange) {o : Outcome Unit}
    (h : o.Regular) : (scope.rendered p o).Regular := by
  unfold rendered
  cases hresult : o.result with
  | error x => exact h.passed hresult
  | ok done =>
      obtain ⟨text, htext⟩ : ∃ text, scope.render p o.bag = .ok text := exists_render hp h.bag
      refine ⟨h.bag, fun x hx => ?_⟩
      dsimp only at hx
      rw [htext] at hx
      cases hx

/-- Replacing holders keeps the bag in range, if resolving the entries they stand for does. -/
theorem regular_substitute (hregistry : scope.registry.InRange)
    {follow : String → Phrase → Bag → Outcome String}
    (hfollow : ∀ k q bag, scope.registry.get? k = some (.phrase q) → Bag.InRange bag →
      (follow k q bag).Regular)
    (key : String) (holders : List String) (hbag : bag.InRange) :
    (scope.substitute follow key holders bag).Regular := by
  induction holders generalizing bag with
  | nil => exact ⟨hbag, nofun⟩
  | cons holder rest ih =>
      rw [substitute_cons]
      cases htarget : scope.registry.target bag holder with
      | absent => exact ih (hbag.insert holder trivial)
      | unknown k => exact (ih (hbag.insert holder (v := .null) trivial)).after _
      | constant v =>
          obtain ⟨k, hk⟩ := Registry.exists_of_target_eq_constant htarget
          exact ih (hbag.insert holder (hregistry.constants k v hk))
      | phrase k q =>
          have hinner := hfollow k q bag (Registry.target_eq_phrase_iff.1 htarget).2 hbag
          cases hresult : (follow k q bag).result with
          | error x =>
              simp only [hresult]
              exact hinner.passed hresult
          | ok text =>
              simp only [hresult]
              exact (ih (hinner.bag.insert holder (v := .text text) trivial)).after _

/-- **A resolution keeps its bag in range and fails for holders only**, whatever is in progress. -/
theorem regular_enter (hregistry : scope.registry.InRange) (room : Nat) (chain : List String)
    {key : String} (hp : scope.registry.get? key = some (.phrase p)) (hbag : bag.InRange) :
    (scope.enter room chain key p bag).Regular := by
  apply enter_induction (motive := fun key p bag o =>
    scope.registry.get? key = some (.phrase p) → Bag.InRange bag → o.Regular) ?_ ?_ room chain key p
    bag hp hbag
  · intro key p bag x _ hbag
    exact Outcome.regular_of_holder x hbag []
  · intro follow key p bag hfollow hp hbag
    exact regular_rendered (hregistry.literals key p hp)
      (regular_substitute hregistry hfollow key p.node.holders hbag)

end Scope

namespace Engine

variable {e : Engine} {bag : Bag}

/-- A query for a phrase has a text, or else its holders go wrong. -/
theorem resolve_phrase_cases (he : e.InRange) (settings : Settings) {key : String} {p : Phrase}
    (hp : e.registry.get? key = some (.phrase p)) (hbag : bag.InRange) :
    (∃ text, (e.resolve settings key bag).result = .ok (.text text)) ∨
      ∃ x, (e.resolve settings key bag).result = .error (.resolve (.holder x)) := by
  have hregular : ((e.scope settings e.registry).enter settings.depthLimit [] key p bag).Regular :=
    Scope.regular_enter he.registry settings.depthLimit [] hp hbag
  rw [resolve_of_phrase settings bag hp]
  dsimp only
  cases hresult : ((e.scope settings e.registry).enter settings.depthLimit [] key p bag).result with
  | ok text => exact .inl ⟨text, rfl⟩
  | error x =>
      obtain ⟨y, rfl⟩ := hregular.failure x hresult
      exact .inr ⟨y, rfl⟩

/-- A query ends with a value, with an unknown key, or with an error of its resolution. -/
theorem resolve_cases (e : Engine) (settings : Settings) (key : String) (bag : Bag) :
    (∃ v, (e.resolve settings key bag).result = .ok v) ∨
      (e.resolve settings key bag).result = .error (.unknownEntry key) ∨
      ∃ x, (e.resolve settings key bag).result = .error (.resolve x) := by
  cases hget : e.registry.get? key with
  | none => exact .inr (.inl (by rw [resolve_of_unknown settings bag hget]))
  | some entry =>
      have hreply : e.resolve settings key bag = e.resolveIn settings e.registry key entry bag := by
        rw [resolve, hget]
      rw [hreply, resolveIn]
      dsimp only
      cases ((e.scope settings e.registry).resolveEntry settings.depthLimit key entry bag).result with
      | ok v => exact .inl ⟨v, rfl⟩
      | error x => exact .inr (.inr ⟨x, rfl⟩)

/-- While all integers convert to floating-point numbers, no query ends with one that does not. -/
theorem resolve_ne_number (he : e.InRange) (settings : Settings) {key : String}
    (hbag : bag.InRange) {x : NumberError} :
    (e.resolve settings key bag).result ≠ .error (.resolve (.number x)) := by
  intro h
  cases hget : e.registry.get? key with
  | none =>
      rw [resolve_of_unknown settings bag hget] at h
      cases h
  | some entry =>
      cases entry with
      | constant v =>
          rw [resolve_of_constant settings bag hget] at h
          cases h
      | phrase p =>
          rcases resolve_phrase_cases he settings hget hbag with ⟨text, htext⟩ | ⟨y, hy⟩
          · rw [htext] at h
            cases h
          · rw [hy] at h
            cases h

/-- A query for a phrase without holders has a text. -/
theorem exists_text_of_no_holders (he : e.InRange) (settings : Settings) {key : String}
    {p : Phrase} (hp : e.registry.get? key = some (.phrase p)) (hholders : p.node.holders = [])
    (hbag : bag.InRange) : ∃ text, (e.resolve settings key bag).result = .ok (.text text) := by
  obtain ⟨room, hroom⟩ : ∃ room, settings.depthLimit = room + 1 := by
    have hlimit := settings.depthLimit_eq
    exact ⟨settings.depthLimit - 1, by omega⟩
  obtain ⟨text, htext⟩ : ∃ text, (e.scope settings e.registry).render p bag = .ok text :=
    Scope.exists_render (he.registry.literals key p hp) hbag
  refine ⟨text, (resolve_phrase_eq_ok_iff settings bag hp).2 ⟨text, rfl, ?_⟩⟩
  rw [hroom, Scope.enter_succ_of_not_mem room p bag List.not_mem_nil, hholders,
    Scope.substitute_nil, Scope.rendered, htext]
  rfl

/-- **What a query can fail for.** If all integers of an engine and a bag convert to floating-point
numbers, a query ends with an unknown entry just if the requested key has no entry; the constant of
an entry is returned, and for a phrase there is a text or an error about its holders, of which there
are a cycle and a chain that is too deep; and without holders there is always a text. -/
theorem resolve_taxonomy (he : e.InRange) (hbag : bag.InRange) (settings : Settings)
    (key : String) :
    ((∃ name, (e.resolve settings key bag).result = .error (.unknownEntry name)) ↔
      e.registry.get? key = none) ∧
    match e.registry.get? key with
    | none => (e.resolve settings key bag).result = .error (.unknownEntry key)
    | some (.constant v) => (e.resolve settings key bag).result = .ok v
    | some (.phrase p) =>
        ((∃ text, (e.resolve settings key bag).result = .ok (.text text)) ∨
          (∃ chain, (e.resolve settings key bag).result =
            .error (.resolve (.holder (.cycle chain)))) ∨
          ∃ chain limit, (e.resolve settings key bag).result =
            .error (.resolve (.holder (.tooDeep chain limit)))) ∧
        (p.node.holders = [] →
          ∃ text, (e.resolve settings key bag).result = .ok (.text text)) := by
  refine ⟨?_, ?_⟩
  · simp only [resolve_eq_unknownEntry_iff, exists_eq_left]
  · cases hget : e.registry.get? key with
    | none => exact (resolve_eq_unknownEntry_iff settings bag).2 ⟨rfl, hget⟩
    | some entry =>
        cases entry with
        | constant v =>
            dsimp only
            rw [resolve_of_constant settings bag hget]
        | phrase p =>
            refine ⟨?_, fun hholders => exists_text_of_no_holders he settings hget hholders hbag⟩
            rcases resolve_phrase_cases he settings hget hbag with htext | ⟨x, hx⟩
            · exact .inl htext
            · cases x with
              | cycle chain => exact .inr (.inl ⟨chain, hx⟩)
              | tooDeep chain limit => exact .inr (.inr ⟨chain, limit, hx⟩)

/-- A condition that compares a count with a number. -/
def many : Condition.Expr :=
  .comparison .atLeast (.field "count") (.literal (.int 10))

/-- An engine with a number, and with a phrase about the count of an item. -/
def stock : Engine :=
  ⟨.ofOffers none none, .empty "en",
    ⟨none, .ofList [("full", .constant (.int 100)),
      ("level", .phrase ⟨"level", ⟨"Few {item}", [], ["item"], .empty,
        .ofList [("{count} >= 10", "Many {item}")], none⟩,
        [⟨"{count} >= 10", "Many {item}", many⟩]⟩)]⟩⟩

/-- A bag with a count, and with an item that is no entry. -/
def apples : Bag :=
  .ofList [("count", .int 12), ("item", .text "apples")]

theorem inRange_many : many.InRange := by
  intro v hv
  cases hv with
  | left op right h => cases h
  | right op left h =>
      cases h
      exact Value.inRange_int (by decide)

theorem inRange_apples : Bag.InRange apples := by
  intro name v hv
  have hmem : (name, v) ∈ [("count", Value.int 12), ("item", Value.text "apples")] :=
    OrderedMap.get?_eq_some_iff.1 hv
  rcases List.mem_cons.1 hmem with hcount | hitem
  · cases hcount
    exact Value.inRange_int (by decide)
  · cases List.mem_singleton.1 hitem
    trivial

theorem inRange_stock : stock.InRange := by
  have hentries : ∀ key entry, stock.registry.get? key = some entry →
      (key, entry) ∈ stock.registry.entries.entries := fun _ _ h =>
    OrderedMap.get?_eq_some_iff.1 h
  refine ⟨⟨fun key v hv => ?_, fun key p hp rule hrule => ?_⟩, fun name => ?_⟩
  · rcases List.mem_cons.1 (hentries key _ hv) with hfull | hlevel
    · cases hfull
      exact Value.inRange_int (by decide)
    · cases List.mem_singleton.1 hlevel
  · rcases List.mem_cons.1 (hentries key _ hp) with hfull | hlevel
    · cases hfull
    · cases List.mem_singleton.1 hlevel
      cases List.mem_singleton.1 hrule
      exact inRange_many
  · cases name <;> exact nofun

/-- A level is told or its holder goes wrong, however many there are; a number is returned as it
is; and an item of which there is no entry is unknown only if it is asked for itself. -/
theorem resolve_taxonomy_stock :
    stock.InRange ∧ Bag.InRange apples ∧
    (stock.resolve .default "full" apples).result = .ok (.int 100) ∧
    (¬ ∃ name, (stock.resolve .default "level" apples).result = .error (.unknownEntry name)) ∧
    (stock.resolve .default "apples" apples).result = .error (.unknownEntry "apples") := by
  refine ⟨inRange_stock, inRange_apples, ?_, ?_, ?_⟩
  · exact (resolve_taxonomy inRange_stock inRange_apples .default "full").2
  · intro hunknown
    cases (resolve_taxonomy inRange_stock inRange_apples .default "level").1.1 hunknown
  · exact (resolve_taxonomy inRange_stock inRange_apples .default "apples").2

end Engine

end Phrasebook
