import Phrasebook.Proofs.Influence.Coupling

/-! Isolation: what a query can depend on. Two runs on one registry are `Matched` if their bags give
every mentioned name the same value, and their defaults do too, or else the name is no holder and
the bags have a value for it, so that the defaults are not asked. Every step of a resolution keeps
two runs matched, as it writes only holders and writes the same values. So matched runs have the
same result (`resolve_isolated`), and a name that is not mentioned cannot be pulled into a text. -/

namespace Phrasebook

/-! ### Matched runs -/

namespace Scope

/-- The defaults of two scopes give a name the same values. -/
structure SameDefaults (scope scope' : Scope) (name : String) : Prop where
  placeholder : Template.present (scope.placeholders.get? name) =
    Template.present (scope'.placeholders.get? name)
  variant : Template.present (scope.variants.get? name) =
    Template.present (scope'.variants.get? name)

/-- Two runs that differ at most where no phrase looks: in names that are not mentioned, and in the
defaults of names that never lose their values. -/
structure Matched (scope scope' : Scope) (bag bag' : Bag) : Prop where
  registry : scope.registry = scope'.registry
  bare : scope.fillBareVariants = scope'.fillBareVariants
  bags : ∀ name ∈ scope.registry.mentioned, bag.get? name = bag'.get? name
  defaults : ∀ name ∈ scope.registry.mentioned, scope.SameDefaults scope' name ∨
    name ∉ scope.registry.holders ∧ Template.present (bag.get? name) ≠ none

namespace Matched

variable {scope scope' : Scope} {bag bag' : Bag}

theorem alikeAt (h : Matched scope scope' bag bag') {name : String}
    (hname : name ∈ scope.registry.mentioned) : AlikeAt scope scope' bag bag' name := by
  have hget := h.bags name hname
  rcases h.defaults name hname with hsame | ⟨-, hpresent⟩
  · refine ⟨hget, ?_, ?_⟩
    · rw [Template.valueOf, Template.valueOf, hget, hsame.placeholder]
    · rw [Template.valueOf, Template.valueOf, hget, hsame.variant]
  · obtain ⟨v, hv⟩ := Option.ne_none_iff_exists'.1 hpresent
    have hv' : Template.present (bag'.get? name) = some v := hget ▸ hv
    refine ⟨hget, ?_, ?_⟩ <;> rw [Template.valueOf, Template.valueOf, hv, hv'] <;> rfl

theorem reference (h : Matched scope scope' bag bag') {name : String}
    (hname : name ∈ scope.registry.mentioned) :
    Bag.reference bag name = Bag.reference bag' name := by
  rw [Bag.reference, Bag.reference, h.bags name hname]

theorem target (h : Matched scope scope' bag bag') {holder : String}
    (hholder : holder ∈ scope.registry.mentioned) :
    scope.registry.target bag holder = scope'.registry.target bag' holder := by
  rw [Registry.target, Registry.target, h.reference hholder, h.registry]

/-- Writing the same value to a holder keeps two runs matched. -/
theorem insert (h : Matched scope scope' bag bag') {holder : String}
    (hholder : holder ∈ scope.registry.holders) (v : Value) :
    Matched scope scope' (bag.insert holder v) (bag'.insert holder v) := by
  refine ⟨h.registry, h.bare, fun name hname => ?_, fun name hname => ?_⟩
  · rw [OrderedMap.get?_insert, OrderedMap.get?_insert, h.bags name hname]
  · rcases h.defaults name hname with hsame | ⟨hfree, hpresent⟩
    · exact .inl hsame
    · have hne : name ≠ holder := fun heq => hfree (heq ▸ hholder)
      refine .inr ⟨hfree, ?_⟩
      rwa [OrderedMap.get?_insert, if_neg hne]

theorem render (h : Matched scope scope' bag bag') {key : String} {p : Phrase}
    (hp : scope.registry.get? key = some (.phrase p)) :
    scope.render p bag = scope'.render p bag' :=
  render_congr h.bare fun _ hname => h.alikeAt (Registry.mem_mentioned hp hname)

end Matched

/-- Resolution keeps two runs matched. -/
theorem coupling_matched {scope scope' : Scope} (hregistry : scope.registry = scope'.registry) :
    Coupling scope scope' (Matched scope scope') where
  registry := hregistry
  target h hholder := h.target (Registry.mem_mentioned_of_mem_holders hholder)
  insert h hholder v := h.insert hholder v
  render h hp := h.render hp

end Scope

/-! ### Queries -/

namespace Engine

/-- Queries on one registry, in runs that are matched. -/
theorem resolve_of_matched {e e' : Engine} {settings : Settings} {bag bag' : Bag} (key : String)
    (h : (e.scope settings e.registry).Matched (e'.scope settings e'.registry) bag bag') :
    (e.resolve settings key bag).result = (e'.resolve settings key bag').result ∧
      (e.resolve settings key bag).log = (e'.resolve settings key bag').log ∧
      (e.scope settings e.registry).Matched (e'.scope settings e'.registry)
        (e.resolve settings key bag).bag (e'.resolve settings key bag').bag :=
  resolve_of_coupling (Scope.coupling_matched h.registry) rfl key h

/-- Setting one name in a store changes the defaults of no other. -/
theorem sameDefaults_set (e : Engine) (settings : Settings) (store : StoreName)
    {secret name : String} (v : Value) (hne : name ≠ secret) :
    (e.scope settings e.registry).SameDefaults
      ((e.writeStore store .engine (.set secret v)).1.scope settings e.registry) name := by
  have hset : ∀ slot : Slot,
      (slot.write .engine (.set secret v)).inUse.values.get? name =
        slot.inUse.values.get? name := by
    intro slot
    show (slot.inUse.values.insert secret v).get? name = slot.inUse.values.get? name
    rw [OrderedMap.get?_insert, if_neg hne]
  cases store with
  | placeholders => exact ⟨congrArg Template.present (hset e.stores.placeholders).symm, rfl⟩
  | variants => exact ⟨rfl, congrArg Template.present (hset e.stores.variants).symm⟩

/-- **Resolution is isolated.** Two queries on one registry have the same result, a value or an
error, and leave bags that agree on all mentioned names, if the bags agree on them before and the
defaults do too, but for names that are no holder and have a value in the bag. In particular no text
of a parameter pulls in a name that is not mentioned: the result is the same whatever value that
name is given in the bag and among the defaults. -/
theorem resolve_isolated (e : Engine) (settings : Settings) (key : String) (bag : Bag) :
    (∀ (e' : Engine) (bag' : Bag), e.registry = e'.registry →
      (∀ name ∈ e.registry.mentioned, bag.get? name = bag'.get? name) →
      (∀ name ∈ e.registry.mentioned,
        (e.scope settings e.registry).SameDefaults (e'.scope settings e'.registry) name ∨
          name ∉ e.registry.holders ∧ Template.present (bag.get? name) ≠ none) →
      (e.resolve settings key bag).result = (e'.resolve settings key bag').result ∧
        (e.resolve settings key bag).log = (e'.resolve settings key bag').log ∧
        ∀ name ∈ e.registry.mentioned,
          (e.resolve settings key bag).bag.get? name =
            (e'.resolve settings key bag').bag.get? name) ∧
      ∀ (secret : String) (v w : Value) (store : StoreName), secret ∉ e.registry.mentioned →
        ((e.writeStore store .engine (.set secret w)).1.resolve settings key
          (bag.insert secret v)).result = (e.resolve settings key bag).result := by
  constructor
  · intro e' bag' hregistry hbags hdefaults
    obtain ⟨hresult, hlog, hafter⟩ := resolve_of_matched key
      (⟨hregistry, rfl, hbags, hdefaults⟩ :
        (e.scope settings e.registry).Matched (e'.scope settings e'.registry) bag bag')
    exact ⟨hresult, hlog, hafter.bags⟩
  · intro secret v w store hsecret
    have hne : ∀ name ∈ e.registry.mentioned, name ≠ secret := fun name hname heq =>
      hsecret (heq ▸ hname)
    have hmatched : (e.scope settings e.registry).Matched
        ((e.writeStore store .engine (.set secret w)).1.scope settings e.registry) bag
        (bag.insert secret v) := by
      refine ⟨rfl, rfl, fun name hname => ?_, fun name hname => ?_⟩
      · rw [OrderedMap.get?_insert, if_neg (hne name hname)]
      · exact .inl (sameDefaults_set e settings store w (hne name hname))
    exact (resolve_of_matched key hmatched).1.symm

/-- An engine with a greeting that takes in another entry, and defaults for a name and a secret. -/
def badge : Engine :=
  ⟨.ofOffers (some ⟨"placeholders", .ofList [("secret", .text "key"), ("name", .text "Guest")]⟩)
      none,
    .empty "en",
    ⟨none, .ofList [heldPhrase "greeting" ["who"] "Hello {who}",
      heldPhrase "card" [] "{name}"]⟩⟩

/-- The name reads like a token. Neither the parameter of that name nor its default shows, and the
default of the name itself, which the bag has, plays no part. -/
theorem resolve_isolated_badge :
    let bag : Bag := .ofList [("who", .text "card"), ("name", .text "{secret}")]
    let bare : Engine := ⟨.ofOffers none none, .empty "en", badge.registry⟩
    "secret" ∉ badge.registry.mentioned ∧ "name" ∉ badge.registry.holders ∧
      (badge.resolve .default "greeting" bag).result = .ok (.text "Hello {secret}") ∧
      (bare.resolve .default "greeting" (bag.insert "secret" (.text "word"))).result =
        .ok (.text "Hello {secret}") ∧
      ((badge.writeStore .placeholders .engine (.set "secret" .null)).1.resolve .default "greeting"
        (bag.insert "secret" (.int 7))).result = .ok (.text "Hello {secret}") := by
  intro bag bare
  have hmentioned : badge.registry.mentioned = ["who", "who", "name"] := by decide +kernel
  have hfree : "name" ∉ badge.registry.holders := by decide
  have hsecret : "secret" ∉ badge.registry.mentioned := by
    rw [hmentioned]
    decide
  have hresult : (badge.resolve .default "greeting" bag).result = .ok (.text "Hello {secret}") :=
    congrArg (fun t => Except.ok (Value.text t)) (by decide +kernel : Template.fill _ _ _ = _)
  obtain ⟨hsame, hunmentioned⟩ := resolve_isolated badge .default "greeting" bag
  refine ⟨hsecret, hfree, hresult, ?_, ?_⟩
  · refine (hsame bare _ rfl (fun name hname => ?_) fun name hname => ?_).1.symm.trans hresult
    · have hne : name ≠ "secret" := fun heq => hsecret (heq ▸ hname)
      rw [OrderedMap.get?_insert, if_neg hne]
    · rw [hmentioned, List.mem_cons, List.mem_cons, List.mem_singleton] at hname
      rcases hname with rfl | rfl | rfl
      · exact .inl ⟨rfl, rfl⟩
      · exact .inl ⟨rfl, rfl⟩
      · exact .inr ⟨hfree, Option.some_ne_none _⟩
  · exact (hunmentioned "secret" (.int 7) .null .placeholders hsecret).trans hresult

end Engine

end Phrasebook
