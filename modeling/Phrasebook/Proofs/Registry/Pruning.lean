import Phrasebook.Proofs.Engine.Run
import Phrasebook.Proofs.Registry.FirstMatch

/-! Blueprints without dead conditions. A node that lost some pairs that never select anything
(`Node.Pruned`) is another node, and without any pairs left it is of another kind; still its phrase
has the same holders and the same text for every bag (`Node.Pruned.alike`). Registries whose entries
agree in this cannot be told apart by resolving anything, neither that entry nor one that a holder
leads from (`Engine.resolve_of_alike`). -/

namespace Phrasebook

/-! ### Registries that resolve alike -/

/-- Phrases with the same holders and the same text for every bag. -/
structure Phrase.Alike (p q : Phrase) : Prop where
  holders : p.node.holders = q.node.holders
  render : ∀ (scope : Scope) (bag : Bag), scope.render p bag = scope.render q bag

inductive Entry.Alike : Entry → Entry → Prop
  | constant (v : Value) : Alike (.constant v) (.constant v)
  | phrase {p q : Phrase} (h : p.Alike q) : Alike (.phrase p) (.phrase q)

def Registry.Alike (r r' : Registry) : Prop :=
  ∀ key, Option.Rel Entry.Alike (r.get? key) (r'.get? key)

theorem Registry.Alike.cases {r r' : Registry} (h : r.Alike r') (key : String) :
    (r.get? key = none ∧ r'.get? key = none) ∨
    (∃ v, r.get? key = some (.constant v) ∧ r'.get? key = some (.constant v)) ∨
    ∃ p q, p.Alike q ∧ r.get? key = some (.phrase p) ∧ r'.get? key = some (.phrase q) := by
  have hentries := h key
  generalize r.get? key = entry, r'.get? key = entry' at hentries ⊢
  cases hentries with
  | none => exact .inl ⟨rfl, rfl⟩
  | some hentry =>
      cases hentry with
      | constant v => exact .inr (.inl ⟨v, rfl, rfl⟩)
      | phrase hpq => exact .inr (.inr ⟨_, _, hpq, rfl, rfl⟩)

namespace Scope

variable {scope : Scope} {r : Registry}

/-- The same defaults and settings with another registry. -/
def withRegistry (scope : Scope) (r : Registry) : Scope :=
  { scope with registry := r }

theorem render_withRegistry (p : Phrase) (bag : Bag) :
    (scope.withRegistry r).render p bag = scope.render p bag := rfl

/-- Replacing holders comes out the same, if alike phrases that they stand for do. -/
theorem substitute_alike (hr : scope.registry.Alike r)
    {follow follow' : String → Phrase → Bag → Outcome String}
    (hfollow : ∀ (k : String) (p q : Phrase) (bag : Bag), p.Alike q →
      follow k p bag = follow' k q bag)
    (key : String) (holders : List String) (bag : Bag) :
    scope.substitute follow key holders bag =
      (scope.withRegistry r).substitute follow' key holders bag := by
  induction holders generalizing bag with
  | nil => rfl
  | cons holder rest ih =>
      rw [substitute, substitute]
      cases Template.present (bag.get? holder) with
      | none => exact ih _
      | some v =>
          have hregistry : (scope.withRegistry r).registry = r := rfl
          rcases hr.cases v.shown with ⟨hget, hget'⟩ | ⟨c, hget, hget'⟩ | ⟨p, q, hpq, hget, hget'⟩
          · simp only [hregistry, hget, hget', ih]
          · simp only [hregistry, hget, hget', ih]
          · simp only [hregistry, hget, hget', hfollow v.shown p q bag hpq, ih]

/-- **Alike phrases resolve alike on alike registries.** -/
theorem enter_alike (hr : scope.registry.Alike r) (room : Nat) (chain : List String) (key : String)
    {p q : Phrase} (h : p.Alike q) (bag : Bag) :
    scope.enter room chain key p bag = (scope.withRegistry r).enter room chain key q bag := by
  induction room generalizing chain key p q bag with
  | zero =>
      by_cases hkey : key ∈ chain
      · rw [enter_of_mem 0 p bag hkey, enter_of_mem 0 q bag hkey]
      · rw [enter_zero_of_not_mem p bag hkey, enter_zero_of_not_mem q bag hkey]
  | succ room ih =>
      by_cases hkey : key ∈ chain
      · rw [enter_of_mem _ p bag hkey, enter_of_mem _ q bag hkey]
      · have hfollow := substitute_alike hr (fun k p q bag hpq => ih (chain ++ [key]) k hpq bag)
          key p.node.holders bag
        rw [enter_succ_of_not_mem room p bag hkey, enter_succ_of_not_mem room q bag hkey, hfollow,
          h.holders, rendered, rendered]
        simp only [h.render, render_withRegistry]

end Scope

/-- Queries on alike registries come to the same. -/
theorem Engine.resolve_of_alike {e : Engine} {r : Registry} (h : e.registry.Alike r)
    (settings : Settings) (key : String) (bag : Bag) :
    e.resolve settings key bag =
      (⟨e.stores, e.catalog, r⟩ : Engine).resolve settings key bag := by
  let e' : Engine := ⟨e.stores, e.catalog, r⟩
  rcases h.cases key with ⟨hget, hget'⟩ | ⟨v, hget, hget'⟩ | ⟨p, q, hpq, hget, hget'⟩
  · rw [resolve_of_unknown settings bag hget, resolve_of_unknown settings bag (e := e') hget']
  · rw [resolve_of_constant settings bag hget, resolve_of_constant settings bag (e := e') hget']
  · rw [resolve_of_phrase settings bag hget, resolve_of_phrase settings bag (e := e') hget']
    have hscope : e'.scope settings e'.registry =
      (e.scope settings e.registry).withRegistry r := rfl
    rw [hscope, ← Scope.enter_alike h settings.depthLimit [] key hpq bag]

/-! ### Leaving out dead pairs -/

open Condition (Dead PassedOver Reached)
open Condition.Rule (firstSelected_filter)

/-- The entries of a map that are kept, in order. -/
def OrderedMap.filter {α : Type} (keep : String × α → Bool) (m : OrderedMap α) : OrderedMap α :=
  ⟨m.entries.filter keep, m.nodup.sublist (List.filter_sublist.map Prod.fst)⟩

namespace Node

/-- A node with some of its conditions only. -/
def keeping (n : Node) (keep : String × String → Bool) : Node :=
  { n with conditions := n.conditions.filter keep }

/-- The second node lacks some dead pairs of the first. -/
def Pruned (n n' : Node) : Prop :=
  ∃ keep, n' = n.keeping keep ∧ ∀ pair ∈ n.conditions.entries, keep pair = false → Dead pair

theorem kind_eq_conditional_iff {n : Node} :
    n.kind = .conditional ↔ n.variants.isEmpty = true ∧ n.conditions.isEmpty = false := by
  unfold kind
  cases n.variants.isEmpty <;> cases n.conditions.isEmpty <;> simp

theorem kind_of_variants {n : Node} (h : n.variants.isEmpty = false) : n.kind = .variant := by
  rw [kind, h]
  rfl

/-- **Dead pairs leave no trace in a phrase.** -/
theorem Pruned.alike {n n' : Node} (h : n.Pruned n') (key : String) :
    (Phrase.ofNode key n).Alike (Phrase.ofNode key n') := by
  obtain ⟨keep, rfl, hdead⟩ := h
  refine ⟨rfl, fun scope bag => ?_⟩
  cases hvariants : n.variants.isEmpty with
  | true =>
      -- both are given by their conditions, also if the second has none and is plain
      rw [Scope.render_of_no_variants hvariants,
        Scope.render_of_no_variants (n := n.keeping keep) hvariants]
      exact congrArg _ (firstSelected_filter hdead).symm
  | false =>
      have hkind := kind_of_variants hvariants
      have hkind' := kind_of_variants (n := n.keeping keep) hvariants
      simp only [Scope.render, Phrase.ofNode, hkind, hkind']
      rfl

end Node

namespace Blueprint

namespace Definition

inductive Pruned : Definition → Definition → Prop
  | constant (v : Value) : Pruned (.constant v) (.constant v)
  | phrase {n n' : Node} (h : n.Pruned n') : Pruned (.phrase n) (.phrase n')

theorem Pruned.entry {d d' : Definition} (h : d.Pruned d') (key : String) :
    (d.entry key).Alike (d'.entry key) := by
  cases h with
  | constant v => exact .constant v
  | phrase h =>
      rw [entry_phrase, entry_phrase]
      exact .phrase (h.alike key)

theorem mem_conditions_phrase {n : Node} {pair : String × String} :
    pair ∈ (phrase n).conditions ↔ n.variants.isEmpty = true ∧ pair ∈ n.conditions.entries := by
  by_cases hkind : n.kind = .conditional
  · rw [conditions, if_pos hkind]
    exact ⟨fun h => ⟨(Node.kind_eq_conditional_iff.1 hkind).1, h⟩, And.right⟩
  · rw [conditions, if_neg hkind]
    refine iff_of_false List.not_mem_nil fun h => hkind ?_
    refine Node.kind_eq_conditional_iff.2 ⟨h.1, ?_⟩
    rw [OrderedMap.isEmpty, List.isEmpty_eq_false_iff]
    exact List.ne_nil_of_mem h.2

theorem Pruned.conditions_subset {d d' : Definition} (h : d.Pruned d') :
    d'.conditions ⊆ d.conditions := by
  cases h with
  | constant v => exact List.Subset.refl _
  | @phrase n n' h =>
      obtain ⟨keep, rfl, -⟩ := h
      intro pair hpair
      obtain ⟨hvariants, hkept⟩ := mem_conditions_phrase.1 hpair
      exact mem_conditions_phrase.2 ⟨hvariants, (List.mem_filter.1 hkept).1⟩

end Definition

/-- The same definitions in the same order, but the nodes of the second blueprint lack some dead
pairs. -/
def Pruned (b b' : Blueprint) : Prop :=
  List.Forall₂ (fun d d' => d.1 = d'.1 ∧ d.2.Pruned d'.2) b.definitions b'.definitions

theorem conditions_subset_of_pruned {l l' : List (String × Definition)}
    (h : List.Forall₂ (fun d d' => d.1 = d'.1 ∧ d.2.Pruned d'.2) l l') :
    l'.flatMap (·.2.conditions) ⊆ l.flatMap (·.2.conditions) := by
  induction h with
  | nil => exact List.Subset.refl _
  | cons hd _ ih =>
      rw [List.flatMap_cons, List.flatMap_cons]
      exact List.append_subset.2 ⟨List.subset_append_of_subset_left _ hd.2.conditions_subset,
        List.subset_append_of_subset_right _ ih⟩

theorem Pruned.buildable {b b' : Blueprint} (h : b.Pruned b') (hb : b.Buildable) :
    b'.Buildable :=
  fun pair hpair => hb pair (conditions_subset_of_pruned h hpair)

end Blueprint

theorem OrderedMap.lookup_rel {α β : Type} {R : α → β → Prop} {l : List (String × α)}
    {m : List (String × β)} (h : List.Forall₂ (fun e e' => e.1 = e'.1 ∧ R e.2 e'.2) l m)
    (key : String) : Option.Rel R (OrderedMap.lookup key l) (OrderedMap.lookup key m) := by
  induction h with
  | nil => exact .none
  | @cons e e' l m he _ ih =>
      obtain ⟨hkey, hvalue⟩ := he
      rw [lookup, lookup, ← hkey]
      by_cases hk : e.1 = key
      · rw [if_pos hk, if_pos hk]
        exact .some hvalue
      · rw [if_neg hk, if_neg hk]
        exact ih

namespace Registry

/-- **Dead pairs leave no trace in a registry.** -/
theorem alike_ofBlueprint {b b' : Blueprint} (h : b.Pruned b') (language : Option String) :
    (ofBlueprint b language).Alike (ofBlueprint b' language) := by
  intro key
  rw [get?_ofBlueprint, get?_ofBlueprint]
  have hdefinitions : Option.Rel Blueprint.Definition.Pruned (b.definition? key)
      (b'.definition? key) := OrderedMap.lookup_rel (List.forall₂_reverse_iff.2 h) key
  generalize b.definition? key = d, b'.definition? key = d' at hdefinitions ⊢
  cases hdefinitions with
  | none => exact .none
  | some hpruned => exact .some (hpruned.entry key)

end Registry

/-! ### The text of a node -/

namespace Engine

theorem engine_activate_of_buildable (e : Engine) {b : Blueprint} (hb : b.Buildable)
    (language : Option String) :
    (e.activate b language).engine =
      ⟨e.stores, e.catalog, Registry.ofBlueprint b language⟩ := by
  have hbuilt := Registry.build_eq_ok_iff.2 ⟨hb, (rfl : _ = Registry.ofBlueprint b language)⟩
  unfold activate build
  rcases hbuild : Registry.build b language with ⟨built, log⟩
  rw [hbuild] at hbuilt
  cases hbuilt
  rfl

/-- The reply to a query for a phrase. -/
def Reply.ofText (o : Outcome String) : Reply :=
  ⟨(o.result.map .text).mapError .resolve, o.bag, o.log⟩

/-- A query for a phrase replaces its holders first, and then gives its text. -/
theorem resolve_of_holders {e : Engine} {settings : Settings} {key : String} {p : Phrase}
    (hp : e.registry.get? key = some (.phrase p)) (bag : Bag) :
    let scope := e.scope settings e.registry
    e.resolve settings key bag = .ofText (scope.rendered p
      (scope.substitute (scope.enter (settings.depthLimit - 1) [key]) key p.node.holders bag)) := by
  intro scope
  have hroom : settings.depthLimit = settings.depthLimit - 1 + 1 := by
    have hone : 1 ≤ settings.depthLimit := Nat.le_max_left ..
    omega
  have hkey : key ∉ ([] : List String) := List.not_mem_nil
  rw [resolve_of_phrase settings bag hp, hroom, Scope.enter_succ_of_not_mem _ p bag hkey]
  rfl

theorem Reply.ofText_rendered_eq_ok_iff {scope : Scope} {p : Phrase} {bag : Bag} {log : Log}
    {v : Value} : (ofText (scope.rendered p ⟨.ok (), bag, log⟩)).result = .ok v ↔
      ∃ text, scope.render p bag = .ok text ∧ v = .text text := by
  simp only [ofText, Scope.rendered]
  cases scope.render p bag with
  | error number =>
      constructor
      · intro h
        cases h
      · rintro ⟨text, htext, -⟩
        cases htext
  | ok text =>
      constructor
      · rintro ⟨⟩
        exact ⟨text, rfl, rfl⟩
      · rintro ⟨_, ⟨⟩, rfl⟩
        rfl

theorem Reply.ofText_rendered_eq_error_iff {scope : Scope} {p : Phrase} {bag : Bag} {log : Log}
    {x : Error} : (ofText (scope.rendered p ⟨.ok (), bag, log⟩)).result = .error x ↔
      ∃ number, scope.render p bag = .error number ∧ x = .resolve (.number number) := by
  simp only [ofText, Scope.rendered]
  cases scope.render p bag with
  | error number =>
      constructor
      · rintro ⟨⟩
        exact ⟨number, rfl, rfl⟩
      · rintro ⟨_, ⟨⟩, rfl⟩
        rfl
  | ok text =>
      constructor
      · intro h
        cases h
      · rintro ⟨number, hnumber, -⟩
        cases hnumber

/-- What a query for a node comes to, by the outcome of replacing its holders: the template of the
first pair whose source is a condition, whose template is not empty and whose condition holds, and
the base text if there is none. An evaluation that fails was reached before any match. -/
structure FirstMatch (n : Node) (placeholders : Bag) (held : Outcome Unit) (reply : Reply) :
    Prop where
  bag : reply.bag = held.bag
  unheld : ∀ x, held.result = .error x → reply.result = .error (.resolve x)
  text : held.result = .ok () → ∀ v, reply.result = .ok v ↔
    (∃ template expr, Reached held.bag n.conditions.entries template expr ∧
      expr.holds held.bag = .ok true ∧ v = .text (Template.fill template held.bag placeholders)) ∨
    (∀ pair ∈ n.conditions.entries, PassedOver held.bag pair) ∧
      v = .text (Template.fill n.value held.bag placeholders)
  fails : held.result = .ok () → ∀ x, reply.result = .error x ↔
    ∃ template expr number, Reached held.bag n.conditions.entries template expr ∧
      expr.holds held.bag = .error number ∧ x = .resolve (.number number)

theorem firstMatch_rendered (scope : Scope) (key : String) {n : Node}
    (hvariants : n.variants.isEmpty = true) (held : Outcome Unit) :
    FirstMatch n scope.placeholders held (.ofText (scope.rendered (.ofNode key n) held)) := by
  obtain ⟨result, bag, log⟩ := held
  refine ⟨Scope.bag_rendered .., ?_, ?_, ?_⟩
  · rintro x rfl
    rfl
  · rintro rfl v
    simp only [Reply.ofText_rendered_eq_ok_iff, Scope.render_eq_ok_iff hvariants]
    constructor
    · rintro ⟨_, ⟨template, expr, hreached, htrue, rfl⟩ | ⟨hall, rfl⟩, rfl⟩
      · exact .inl ⟨template, expr, hreached, htrue, rfl⟩
      · exact .inr ⟨hall, rfl⟩
    · rintro (⟨template, expr, hreached, htrue, rfl⟩ | ⟨hall, rfl⟩)
      · exact ⟨_, .inl ⟨template, expr, hreached, htrue, rfl⟩, rfl⟩
      · exact ⟨_, .inr ⟨hall, rfl⟩, rfl⟩
  · rintro rfl x
    simp only [Reply.ofText_rendered_eq_error_iff, Scope.render_eq_error_iff hvariants]
    constructor
    · rintro ⟨number, ⟨template, expr, hreached, hfails⟩, rfl⟩
      exact ⟨template, expr, number, hreached, hfails, rfl⟩
    · rintro ⟨template, expr, number, hreached, hfails, rfl⟩
      exact ⟨number, ⟨template, expr, hreached, hfails⟩, rfl⟩

/-- **The first match wins, and dead pairs are inert.** The text of a node without variants is that
of the first match among its conditions, and blueprints that differ in dead pairs alone resolve
everything alike. -/
theorem resolve_first_match (e : Engine) (settings : Settings) {b : Blueprint} (hb : b.Buildable)
    (language : Option String) {key : String} {n : Node}
    (hn : b.definition? key = some (.phrase n)) (hvariants : n.variants.isEmpty = true)
    (bag : Bag) :
    let active := (e.activate b language).engine
    let scope := active.scope settings active.registry
    FirstMatch n scope.placeholders
      (scope.substitute (scope.enter (settings.depthLimit - 1) [key]) key n.holders bag)
      (active.resolve settings key bag) ∧
    ∀ b', b.Pruned b' → ∀ other bag', (e.activate b' language).engine.resolve settings other bag' =
      active.resolve settings other bag' := by
  intro active scope
  have hactive : active = ⟨e.stores, e.catalog, Registry.ofBlueprint b language⟩ :=
    e.engine_activate_of_buildable hb language
  constructor
  · have hphrase : active.registry.get? key = some (.phrase (.ofNode key n)) := by
      rw [hactive]
      refine (Registry.get?_ofBlueprint b language key).trans ?_
      rw [hn, Option.map_some, Blueprint.Definition.entry_phrase]
    rw [resolve_of_holders hphrase bag]
    exact firstMatch_rendered scope key hvariants _
  · intro b' hpruned other bag'
    have halike := Registry.alike_ofBlueprint hpruned language
    rw [hactive, e.engine_activate_of_buildable (hpruned.buildable hb) language]
    exact (resolve_of_alike (e := ⟨e.stores, e.catalog, _⟩) halike settings other bag').symm

/-- A half-written condition and one without a template leave no trace in a greeting. -/
theorem resolve_first_match_greeting :
    let b := Registry.greetingIf [("{age} >", "Dear"), ("{guest}", ""), ("{vip}", "Hi")]
    let pruned := Registry.greetingIf [("{vip}", "Hi")]
    let e := create .default (.ofOffers none none) none
    let bag : Bag := .ofList [("vip", .bool true), ("guest", .bool true)]
    b.Buildable ∧ b.Pruned pruned ∧
      ((e.activate b none).engine.resolve .default "greeting" bag).result = .ok (.text "Hi") ∧
      ((e.activate pruned none).engine.resolve .default "greeting" bag).result =
        .ok (.text "Hi") := by
  intro b pruned e bag
  have hvip : Condition.Reads "{vip}" (.field "vip") :=
    Condition.parse_eq_ok_iff_reads.1 Registry.parse_vip
  have hage : ∀ x, ¬ Condition.Reads "{age} >" x := by
    intro x hx
    have hparse := Condition.parse_eq_ok_iff_reads.2 hx
    rw [Registry.parse_age] at hparse
    cases hparse
  have hb : b.Buildable := Blueprint.findSome?_oversized_eq_none_iff.1 (by decide +kernel)
  have hdead : ∀ pair ∈ [("{age} >", "Dear"), ("{guest}", "")], Dead pair := by
    intro pair hpair
    rw [List.mem_cons, List.mem_singleton] at hpair
    rcases hpair with rfl | rfl
    · exact .inl hage
    · exact .inr rfl
  have hpruned : b.Pruned pruned := by
    refine .cons ⟨rfl, .phrase ⟨fun pair => pair.2 == "Hi", rfl, ?_⟩⟩ .nil
    intro pair hpair hdropped
    have hpair : pair ∈ [("{age} >", "Dear"), ("{guest}", "")] ++ [("{vip}", "Hi")] := hpair
    rcases List.mem_append.1 hpair with hpair | hpair
    · exact hdead pair hpair
    · rw [List.mem_singleton.1 hpair] at hdropped
      cases hdropped
  have hn : b.definition? "greeting" = some (.phrase _) := rfl
  have hmatch := resolve_first_match e .default hb none hn rfl bag
  have hreached : Reached bag [("{age} >", "Dear"), ("{guest}", ""), ("{vip}", "Hi")] "Hi"
      (.field "vip") :=
    ⟨_, "{vip}", [], rfl, fun pair hpair => .inl (hdead pair hpair), hvip, by decide⟩
  have hresult := (hmatch.1.text rfl (.text "Hi")).2 (.inl ⟨"Hi", .field "vip", hreached, rfl,
    congrArg Value.text (by decide +kernel : "Hi" = Template.fill _ _ _)⟩)
  refine ⟨hb, hpruned, hresult, ?_⟩
  rw [hmatch.2 pruned hpruned]
  exact hresult

end Engine

end Phrasebook
