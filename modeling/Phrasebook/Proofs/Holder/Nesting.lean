import Phrasebook.Proofs.Holder.Chain

/-! Nested resolution. The chain of entries in progress and the room that is left in it serve only
to give up: what a resolution computes does not depend on them. So a resolution that returns below
some chain returns the same at the top, where nothing is in progress, and under any higher limit,
and a cycle that is found under some limit is found under any higher one (`nested_as_at_top`). Both
follow from one simulation (`Scope.enter_eq`), in which the errors that are kept decide how far the
two chains may differ. What is said of outcomes alone is shown for all resolutions at once
(`Scope.enter_induction`). -/

namespace Phrasebook

/-- If an outcome is an error, it is of a given sort. -/
def Outcome.FailsOnly {α : Type} (keep : ResolveError → Prop) (o : Outcome α) : Prop :=
  ∀ x, o.result = .error x → keep x

namespace Scope

variable {scope : Scope}

/-! ### Entering a phrase -/

/-- A key of its own chain is a cycle, whatever room is left. -/
theorem enter_of_mem (room : Nat) {chain : List String} {key : String} (p : Phrase) (bag : Bag)
    (h : key ∈ chain) : scope.enter room chain key p bag =
      ⟨.error (.holder (.cycle (chain ++ [key]))), bag, []⟩ := by
  cases room <;> rw [enter, if_pos h]

theorem enter_zero_of_not_mem {chain : List String} {key : String} (p : Phrase) (bag : Bag)
    (h : key ∉ chain) : scope.enter 0 chain key p bag =
      ⟨.error (.holder (.tooDeep (chain ++ [key]) chain.length)), bag, []⟩ := by
  rw [enter, if_neg h]

/-- The text of a phrase after its holders were replaced, well or not. -/
def rendered (scope : Scope) (p : Phrase) (o : Outcome Unit) : Outcome String :=
  match o.result with
  | .error e => ⟨.error e, o.bag, o.log⟩
  | .ok () => ⟨(scope.render p o.bag).mapError .number, o.bag, o.log⟩

theorem enter_succ_of_not_mem (room : Nat) {chain : List String} {key : String} (p : Phrase)
    (bag : Bag) (h : key ∉ chain) : scope.enter (room + 1) chain key p bag =
      scope.rendered p
        (scope.substitute (scope.enter room (chain ++ [key])) key p.node.holders bag) := by
  rw [enter, if_neg h]
  rfl

@[simp]
theorem bag_rendered (p : Phrase) (o : Outcome Unit) : (scope.rendered p o).bag = o.bag := by
  unfold rendered
  cases o.result <;> rfl

/-- What holds of every resolution that gives up at once, and of every phrase if it holds of the
phrases that its holders stand for, holds of all resolutions, whatever is in progress. -/
theorem enter_induction {motive : String → Phrase → Bag → Outcome String → Prop}
    (gaveUp : ∀ key p bag x, motive key p bag ⟨.error (.holder x), bag, []⟩)
    (followed : ∀ follow key p bag, (∀ k q b, motive k q b (follow k q b)) →
      motive key p bag (scope.rendered p (scope.substitute follow key p.node.holders bag)))
    (room : Nat) (chain : List String) (key : String) (p : Phrase) (bag : Bag) :
    motive key p bag (scope.enter room chain key p bag) := by
  induction room generalizing chain key p bag with
  | zero =>
      by_cases hkey : key ∈ chain
      · rw [enter_of_mem 0 p bag hkey]
        exact gaveUp key p bag _
      · rw [enter_zero_of_not_mem p bag hkey]
        exact gaveUp key p bag _
  | succ room ih =>
      by_cases hkey : key ∈ chain
      · rw [enter_of_mem (room + 1) p bag hkey]
        exact gaveUp key p bag _
      · rw [enter_succ_of_not_mem room p bag hkey]
        exact followed _ key p bag fun k q b => ih (chain ++ [key]) k q b

theorem failsOnly_of_rendered {keep : ResolveError → Prop} {p : Phrase} {o : Outcome Unit}
    (h : (scope.rendered p o).FailsOnly keep) : o.FailsOnly keep := by
  intro x hx
  refine h x ?_
  simp only [rendered, hx]

/-! ### The simulation -/

/-- Replacing holders comes out the same, if resolving the entries they stand for does wherever it
returns or fails in a way that is kept. -/
theorem substitute_eq {keep : ResolveError → Prop}
    {follow follow' : String → Phrase → Bag → Outcome String}
    (hfollow : ∀ (k : String) (q : Phrase) (bag : Bag),
      (follow k q bag).FailsOnly keep → follow' k q bag = follow k q bag)
    (key : String) (holders : List String) (bag : Bag)
    (h : (scope.substitute follow key holders bag).FailsOnly keep) :
    scope.substitute follow' key holders bag = scope.substitute follow key holders bag := by
  induction holders generalizing bag with
  | nil => rfl
  | cons holder rest ih =>
      rw [substitute_cons] at h
      rw [substitute_cons, substitute_cons]
      cases htarget : scope.registry.target bag holder with
      | absent =>
          simp only [htarget] at h ⊢
          exact ih _ h
      | unknown k =>
          simp only [htarget] at h ⊢
          rw [ih _ h]
      | constant v =>
          simp only [htarget] at h ⊢
          exact ih _ h
      | phrase k q =>
          simp only [htarget] at h ⊢
          cases hresult : (follow k q bag).result with
          | error e =>
              rw [hfollow k q bag fun x hx => ?_, hresult]
              rw [hresult] at hx
              cases hx
              simp only [hresult] at h
              exact h _ rfl
          | ok text =>
              rw [hfollow k q bag fun x hx => ?_, hresult]
              · simp only [hresult] at h ⊢
                rw [ih _ h]
              · rw [hresult] at hx
                cases hx

/-- **What is computed does not depend on chain and room.** Chains that are too deep are never kept;
where cycles are kept the chains are the same, and else entries may be left out of them. -/
theorem enter_eq (keep : ResolveError → Prop)
    (hdeep : ∀ (chain : List String) (limit : Nat), ¬ keep (.holder (.tooDeep chain limit)))
    {room room' : Nat} (hroom : room ≤ room') {chain chain' : List String} (hsub : chain' ⊆ chain)
    (hcycle : ∀ c, keep (.holder (.cycle c)) → chain' = chain) (key : String) (p : Phrase)
    (bag : Bag) (h : (scope.enter room chain key p bag).FailsOnly keep) :
    scope.enter room' chain' key p bag = scope.enter room chain key p bag := by
  induction room generalizing room' chain chain' key p bag with
  | zero =>
      by_cases hkey : key ∈ chain
      · rw [enter_of_mem 0 p bag hkey] at h ⊢
        rw [hcycle _ (h _ rfl), enter_of_mem room' p bag hkey]
      · rw [enter_zero_of_not_mem p bag hkey] at h
        exact absurd (h _ rfl) (hdeep _ _)
  | succ room ih =>
      by_cases hkey : key ∈ chain
      · rw [enter_of_mem (room + 1) p bag hkey] at h ⊢
        rw [hcycle _ (h _ rfl), enter_of_mem room' p bag hkey]
      · obtain ⟨room', rfl⟩ : ∃ n, room' = n + 1 := ⟨room' - 1, by omega⟩
        have hkey' : key ∉ chain' := fun hmem => hkey (hsub hmem)
        rw [enter_succ_of_not_mem room p bag hkey] at h ⊢
        rw [enter_succ_of_not_mem room' p bag hkey', substitute_eq (fun k q b hb => ?_) key
          p.node.holders bag (failsOnly_of_rendered h)]
        refine ih (Nat.le_of_succ_le_succ hroom) (List.append_subset.2 ⟨?_, ?_⟩) (fun c hc => ?_)
          k q b hb
        · exact fun name hname => List.mem_append_left _ (hsub hname)
        · exact List.subset_append_right _ _
        · rw [hcycle c hc]

/-- A phrase whose text is returned below a chain has it at the top as well. -/
theorem enter_top_of_ok {room limit : Nat} (hlimit : room ≤ limit) {chain : List String}
    {key : String} {p : Phrase} {bag : Bag} {text : String}
    (h : (scope.enter room chain key p bag).result = .ok text) :
    scope.enter limit [] key p bag = scope.enter room chain key p bag := by
  refine enter_eq (fun _ => False) (fun _ _ => id) hlimit (List.nil_subset _)
    (fun _ hc => hc.elim) key p bag fun x hx => ?_
  rw [h] at hx
  cases hx

/-- A cycle is found under any higher limit. -/
theorem enter_of_cycle {room room' : Nat} (hroom : room ≤ room') {chain : List String}
    {key : String} {p : Phrase} {bag : Bag} {c : List String}
    (h : (scope.enter room chain key p bag).result = .error (.holder (.cycle c))) :
    scope.enter room' chain key p bag = scope.enter room chain key p bag := by
  refine enter_eq (· = .holder (.cycle c)) (fun _ _ => nofun) hroom
    (List.Subset.refl _) (fun _ _ => rfl) key p bag fun x hx => ?_
  rw [h] at hx
  exact (Except.error.inj hx).symm

end Scope

namespace Engine

/-- The scope of a query depends on the settings for bare variants only. -/
theorem scope_congr (e : Engine) {settings settings' : Settings} (r : Registry)
    (h : settings.fillBareVariants = settings'.fillBareVariants) :
    e.scope settings r = e.scope settings' r := by
  rw [scope, scope, h]

/-- **A nested resolution is the same as one at the top.** If an entry, entered below any chain of
keys in progress under a limit, returns a text, then a query for it returns this text and leaves the
same bag, under that limit and any higher one. A cycle that ends a query ends it under any higher
limit, with the same chain and bag. -/
theorem nested_as_at_top (e : Engine) (settings settings' : Settings) (key : String) (bag : Bag)
    (hbare : settings.fillBareVariants = settings'.fillBareVariants) :
    (∀ (p : Phrase) (chain : List String) (limit : Nat) (text : String),
      e.registry.get? key = some (.phrase p) → limit ≤ settings'.depthLimit →
      let o := (e.scope settings e.registry).enter (limit - chain.length) chain key p bag
      o.result = .ok text → e.resolve settings' key bag = ⟨.ok (.text text), o.bag, o.log⟩) ∧
    (∀ chain : List String, settings.depthLimit ≤ settings'.depthLimit →
      (e.resolve settings key bag).result = .error (.resolve (.holder (.cycle chain))) →
      e.resolve settings' key bag = e.resolve settings key bag) := by
  constructor
  · intro p chain limit text hp hlimit o ho
    have hroom : limit - chain.length ≤ settings'.depthLimit := by omega
    rw [resolve_of_phrase settings' bag hp, ← e.scope_congr _ hbare, Scope.enter_top_of_ok hroom ho]
    simp only [o] at ho
    simp only [o, ho]
    rfl
  · intro chain hlimit h
    cases hget : e.registry.get? key with
    | none => rw [resolve_of_unknown settings bag hget, resolve_of_unknown settings' bag hget]
    | some entry =>
        cases entry with
        | constant v =>
            rw [resolve_of_constant settings bag hget, resolve_of_constant settings' bag hget]
        | phrase p =>
            have hcycle := (resolve_phrase_eq_error_iff settings bag hget).1 h
            rw [resolve_of_phrase settings bag hget, resolve_of_phrase settings' bag hget,
              ← e.scope_congr _ hbare, Scope.enter_of_cycle hlimit hcycle]

/-- A greeting inside a reason, under a limit of three, that follows one holder and misses another;
and the cycle of a greeting. Both are the same with a limit of forty. -/
theorem nested_as_at_top_knot :
    let wide : Settings := ⟨40, "INFO", "en", false⟩
    let bag : Bag := .ofList [("who", .text "name"), ("why", .text "nothing")]
    let o := (knot.scope .default knot.registry).enter (3 - ["reason"].length) ["reason"] "greeting"
      ⟨"greeting", ⟨"Hello", [], ["who", "why"], .empty, .empty, none⟩, []⟩ bag
    (o.result = .ok "Hello" ∧ o.bag.get? "who" = some (.text "Ana") ∧
      knot.resolve wide "greeting" bag = ⟨.ok (.text "Hello"), o.bag, o.log⟩) ∧
    ((knot.resolve .default "greeting" knotBag).result =
        .error (.resolve (.holder (.cycle ["greeting", "reason", "greeting"]))) ∧
      knot.resolve wide "greeting" knotBag = knot.resolve .default "greeting" knotBag) := by
  intro wide bag o
  have hnested := (nested_as_at_top knot .default wide "greeting" bag rfl).1
  have ho : o.result = .ok "Hello" :=
    congrArg Except.ok (by decide +kernel : Template.fill _ _ _ = _)
  have hwho : o.bag.get? "who" = some (.text "Ana") :=
    congrArg (fun t => some (Value.text t)) (by decide +kernel : Template.fill _ _ _ = _)
  refine ⟨⟨ho, hwho, hnested _ ["reason"] 3 "Hello" rfl (by decide) ho⟩, rfl, ?_⟩
  exact (nested_as_at_top knot .default wide "greeting" knotBag rfl).2 _ (by decide) rfl

end Engine

end Phrasebook
