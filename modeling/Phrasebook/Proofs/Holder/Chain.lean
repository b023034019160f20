import Mathlib.Data.List.Chain
import Mathlib.Data.List.Nodup
import Phrasebook.Engine
import Phrasebook.Proofs.Holder.Walk

/-! Chains of holders. The invariant of a walk is `Sound`: the entries in progress are distinct
phrases of the registry, no more than the limit, and the holder that each of them waits for still
refers to the entry inside it. No step can overwrite such a holder, because an entry that came upon
it would have to follow it back to an entry in progress, which is a cycle. Both errors therefore
report chains that the bag left behind still shows (`holder_error_chain_genuine`), and their lengths
are exact (`chain_bounded`). -/

namespace Phrasebook

/-! ### Genuine chains -/

/-- An entry leads to a key: one of its holders refers to it in the bag. -/
def LeadsTo (r : Registry) (bag : Bag) (key next : String) : Prop :=
  ∃ p holder, r.get? key = some (.phrase p) ∧ holder ∈ p.node.holders ∧
    Bag.reference bag holder = some next

/-- A chain of keys that a registry and a bag bear out, from a given key on: all are keys of
phrases, and each leads to the next. -/
structure Genuine (r : Registry) (bag : Bag) (key : String) (chain : List String) : Prop where
  root : chain.head? = some key
  phrases : ∀ k ∈ chain, ∃ p, r.get? k = some (.phrase p)
  linked : chain.IsChain (LeadsTo r bag)

/-- What an error about holders may report. -/
inductive Fault (r : Registry) (limit : Nat) (key : String) (bag : Bag) : HolderError → Prop
  | cycle (chain : List String) (last : String) (genuine : Genuine r bag key (chain ++ [last]))
      (nodup : chain.Nodup) (bounded : chain.length ≤ limit) (again : last ∈ chain) :
      Fault r limit key bag (.cycle (chain ++ [last]))
  | tooDeep (chain : List String) (genuine : Genuine r bag key chain) (nodup : chain.Nodup)
      (full : chain.length = limit + 1) : Fault r limit key bag (.tooDeep chain limit)

theorem Fault.genuine {r : Registry} {limit : Nat} {key : String} {bag : Bag} {e : HolderError}
    (h : Fault r limit key bag e) : Genuine r bag key e.chain := by
  cases h with
  | cycle chain last genuine => exact genuine
  | tooDeep chain genuine => exact genuine

namespace Walk

variable {r : Registry} {limit : Nat} {key : String} {bag : Bag}

/-! ### The invariant -/

/-- An entry in progress is one of the registry, and what is to be replaced are its holders. -/
structure Registered (r : Registry) (f : Frame) : Prop where
  get : r.get? f.key = some (.phrase f.phrase)
  pending : f.pending ⊆ f.phrase.node.holders

/-- The entries that wait around a key: the holder of each refers to the entry inside it. -/
def Awaited (r : Registry) (bag : Bag) : String → List Waiting → Prop
  | _, [] => True
  | inside, w :: ws =>
      (Registered r w.toFrame ∧ w.holder ∈ w.phrase.node.holders ∧
        Bag.reference bag w.holder = some inside) ∧ Awaited r bag w.key ws

structure Sound (r : Registry) (limit : Nat) (key : String) (inner : Frame) (outer : List Waiting)
    (bag : Bag) : Prop where
  registered : Registered r inner
  awaited : Awaited r bag inner.key outer
  nodup : (chainOf outer ++ [inner.key]).Nodup
  bounded : outer.length < limit
  root : (chainOf outer ++ [inner.key]).head? = some key

/-- The invariant of a walk from a key; at the end, what it says of an error. -/
def Moment.Sound (r : Registry) (limit : Nat) (key : String) : Moment → Prop
  | running inner outer bag _ => Walk.Sound r limit key inner outer bag
  | ended o => ∀ e, o.result = .error (.holder e) → Fault r limit key o.bag e

/-- The entries that wait form a genuine chain with the one inside them. -/
theorem Awaited.genuine {inside : String} {p : Phrase} {ws : List Waiting}
    (h : Awaited r bag inside ws) (hp : r.get? inside = some (.phrase p))
    (hroot : (chainOf ws ++ [inside]).head? = some key) :
    Genuine r bag key (chainOf ws ++ [inside]) := by
  refine ⟨hroot, ?_, ?_⟩
  · clear hroot
    induction ws generalizing inside p with
    | nil =>
        intro k hk
        rw [chainOf_nil, List.nil_append, List.mem_singleton] at hk
        exact ⟨p, hk ▸ hp⟩
    | cons w ws ih =>
        intro k hk
        rw [chainOf_cons, List.mem_append, List.mem_singleton] at hk
        rcases hk with hk | rfl
        · exact ih h.2 h.1.1.get k hk
        · exact ⟨p, hp⟩
  · clear hroot
    induction ws generalizing inside p with
    | nil => exact List.isChain_singleton _
    | cons w ws ih =>
        rw [chainOf_cons]
        refine (ih h.2 h.1.1.get).append (List.isChain_singleton _) fun x hx y hy => ?_
        rw [List.getLast?_concat, Option.mem_some] at hx
        rw [List.head?_cons, Option.mem_some] at hy
        subst hx hy
        exact ⟨w.phrase, w.holder, h.1.1.get, h.1.2⟩

/-- Writing a holder that refers to none of the entries in progress disturbs none of them. -/
theorem Awaited.insert {inside holder : String} {ws : List Waiting} (v : Value)
    (h : Awaited r bag inside ws)
    (hne : ∀ k ∈ chainOf ws ++ [inside], Bag.reference bag holder ≠ some k) :
    Awaited r (bag.insert holder v) inside ws := by
  induction ws generalizing inside with
  | nil => trivial
  | cons w ws ih =>
      obtain ⟨⟨hreg, hmem, href⟩, hrest⟩ := h
      rw [chainOf_cons] at hne
      have hother : w.holder ≠ holder := by
        intro heq
        exact hne inside (by simp) (heq ▸ href)
      refine ⟨⟨hreg, hmem, ?_⟩, ih hrest fun k hk => hne k (List.mem_append_left _ hk)⟩
      rw [Bag.reference_insert_of_ne v hother, href]

/-! ### Every step keeps it -/

/-- Beginning an entry inside others that wait for it. -/
theorem sound_begin {outer : List Waiting} {k : String} {q : Phrase} (log : Log)
    (hq : r.get? k = some (.phrase q)) (hawaited : Awaited r bag k outer)
    (hnodup : (chainOf outer).Nodup) (hbounded : outer.length ≤ limit)
    (hroot : (chainOf outer ++ [k]).head? = some key) :
    (begin limit outer k q bag log).Sound r limit key := by
  have hgenuine := hawaited.genuine hq hroot
  unfold begin
  split
  · next hk =>
      intro e he
      cases he
      exact Fault.cycle _ _ hgenuine hnodup (by rwa [length_chainOf]) hk
  · next hk =>
      have hdistinct : (chainOf outer ++ [k]).Nodup := by
        rw [← List.concat_eq_append]
        exact hnodup.concat hk
      split
      · next hfull =>
          intro e he
          cases he
          refine Fault.tooDeep _ hgenuine hdistinct ?_
          rw [List.length_append, length_chainOf, List.length_singleton]
          omega
      · next hroom =>
          exact ⟨⟨hq, List.Subset.refl _⟩, hawaited, hdistinct, Nat.lt_of_not_le hroom, hroot⟩

/-- Replacing a holder that stands for no phrase. -/
theorem Sound.write {k holder : String} {p : Phrase} {rest : List String} {outer : List Waiting}
    (v : Value) (h : Sound r limit key ⟨k, p, holder :: rest⟩ outer bag)
    (htarget : ∀ next q, r.target bag holder ≠ .phrase next q) :
    Sound r limit key ⟨k, p, rest⟩ outer (bag.insert holder v) := by
  have hphrases := (h.awaited.genuine h.registered.get h.root).phrases
  refine ⟨⟨h.registered.get, fun n hn => h.registered.pending (List.mem_cons_of_mem _ hn)⟩,
    h.awaited.insert v fun next hnext href => ?_, h.nodup, h.bounded, h.root⟩
  obtain ⟨q, hq⟩ := hphrases next hnext
  exact htarget next q (Registry.target_eq_phrase_iff.2 ⟨href, hq⟩)

/-- Handing a text to the entry that waits for it. -/
theorem Sound.resume {inner : Frame} {w : Waiting} {ws : List Waiting} (v : Value)
    (h : Sound r limit key inner (w :: ws) bag) :
    Sound r limit key w.toFrame ws (bag.insert w.holder v) := by
  obtain ⟨-, ⟨⟨hreg, -, href⟩, hrest⟩, hnodup, hbounded, hroot⟩ := h
  rw [chainOf_cons] at hnodup hroot
  refine ⟨hreg, hrest.insert v fun k hk heq => ?_, hnodup.sublist (List.sublist_append_left _ _),
    Nat.lt_of_succ_lt hbounded, ?_⟩
  · -- the holder refers to the entry that is done, which is not among those that are left
    rw [href, Option.some.injEq] at heq
    exact (List.disjoint_of_nodup_append hnodup) hk (by rw [heq]; exact List.mem_singleton_self _)
  · rwa [List.head?_append_of_ne_nil _ (by simp)] at hroot

/-- **A step keeps the invariant.** -/
theorem sound_advance {scope : Scope} {inner : Frame} {outer : List Waiting} (log : Log)
    (h : Sound scope.registry limit key inner outer bag) :
    (advance scope limit outer bag log inner).Sound scope.registry limit key := by
  obtain ⟨k, p, pending⟩ := inner
  cases pending with
  | nil =>
      rw [advance]
      cases scope.render p bag with
      | error e =>
          rw [deliver_of_error rfl]
          intro x hx
          cases hx
      | ok text =>
          cases outer with
          | nil =>
              intro x hx
              cases hx
          | cons w ws => exact h.resume _
  | cons holder rest =>
      rw [advance]
      cases htarget : scope.registry.target bag holder with
      | absent => exact h.write _ (by simp [htarget])
      | unknown k => exact h.write _ (by simp [htarget])
      | constant v => exact h.write _ (by simp [htarget])
      | phrase next q =>
          obtain ⟨href, hq⟩ := Registry.target_eq_phrase_iff.1 htarget
          obtain ⟨⟨hget, hpending⟩, hawaited, hnodup, hbounded, hroot⟩ := h
          have hframe : Registered scope.registry ⟨k, p, rest⟩ :=
            ⟨hget, fun n hn => hpending (List.mem_cons_of_mem _ hn)⟩
          refine sound_begin log hq
            ⟨⟨hframe, hpending List.mem_cons_self, href⟩, hawaited⟩ ?_ ?_ ?_
          · rwa [chainOf_cons]
          · exact hbounded
          · rw [chainOf_cons, List.head?_append, hroot]
            rfl

/-- **A walk keeps the invariant.** -/
theorem sound_of_reaches (scope : Scope) {m m' : Moment} (h : m.Sound scope.registry limit key)
    (hreaches : Reaches scope limit m m') : m'.Sound scope.registry limit key := by
  induction hreaches with
  | refl => exact h
  | tail _ hstep ih =>
      cases hstep with
      | advance inner outer bag log => exact sound_advance log ih

end Walk

/-! ### The chains of a query -/

/-- The keys of the phrases of a registry. -/
def Registry.phraseKeys (r : Registry) : List String :=
  (r.entries.entries.filter fun e => e.2.kind ≠ .static).map Prod.fst

theorem Registry.mem_phraseKeys {r : Registry} {key : String} {p : Phrase}
    (h : r.get? key = some (.phrase p)) : key ∈ r.phraseKeys := by
  refine List.mem_map.2 ⟨(key, .phrase p), List.mem_filter.2 ⟨OrderedMap.mem_of_lookup h, ?_⟩, rfl⟩
  have hkind : p.node.kind ≠ .static := by
    unfold Node.kind
    split
    · decide
    · split <;> decide
  exact decide_eq_true hkind

/-- Distinct keys of phrases are no more than there are phrases. -/
theorem Genuine.length_le {r : Registry} {bag : Bag} {key : String} {chain : List String}
    (h : Genuine r bag key chain) (hnodup : chain.Nodup) : chain.length ≤ r.phraseKeys.length := by
  refine hnodup.length_le_of_subset fun k hk => ?_
  obtain ⟨p, hp⟩ := h.phrases k hk
  exact Registry.mem_phraseKeys hp

namespace Settings

theorem depthLimit_eq (settings : Settings) :
    (settings.depthLimit : Int) = max 1 settings.maxHolderDepth := by
  unfold depthLimit
  omega

end Settings

namespace Engine

variable (e : Engine) (settings : Settings) (key : String) (bag : Bag)

/-- The moments that a query for a phrase goes through. -/
def Passes (m : Walk.Moment) : Prop :=
  ∃ p, e.registry.get? key = some (.phrase p) ∧
    Walk.Reaches (e.scope settings e.registry) settings.depthLimit
      (Walk.begin settings.depthLimit [] key p bag []) m

variable {e settings key bag} in
/-- Every moment of a query is sound. -/
theorem sound_of_passes {m : Walk.Moment} (h : e.Passes settings key bag m) :
    m.Sound e.registry settings.depthLimit key := by
  obtain ⟨p, hp, hreaches⟩ := h
  refine Walk.sound_of_reaches (e.scope settings e.registry) ?_ hreaches
  exact Walk.sound_begin [] hp trivial List.nodup_nil (Nat.zero_le _) rfl

variable {e key} in
/-- A query for a phrase comes to its end, and answers with it. -/
theorem passes_ended {p : Phrase} (hp : e.registry.get? key = some (.phrase p)) :
    ∃ o, e.Passes settings key bag (.ended o) ∧
      e.resolve settings key bag = ⟨(o.result.map .text).mapError .resolve, o.bag, o.log⟩ := by
  refine ⟨(e.scope settings e.registry).enter settings.depthLimit [] key p bag, ⟨p, hp, ?_⟩, ?_⟩
  · exact Walk.reaches_enter settings.depthLimit [] (Nat.zero_add _) key p bag []
  · rw [resolve, hp]
    rfl

variable {e settings key bag} in
/-- What an error of a query about holders reports. -/
theorem fault_of_resolve {x : HolderError}
    (h : (e.resolve settings key bag).result = .error (.resolve (.holder x))) :
    Fault e.registry settings.depthLimit key (e.resolve settings key bag).bag x := by
  cases hget : e.registry.get? key with
  | none =>
      rw [resolve, hget] at h
      cases h
  | some entry =>
      cases entry with
      | constant v =>
          rw [resolve, hget] at h
          cases h
      | phrase p =>
          obtain ⟨o, ho, hresolve⟩ := passes_ended settings bag hget
          rw [hresolve] at h ⊢
          refine sound_of_passes ho x ?_
          cases hresult : o.result with
          | ok text =>
              rw [hresult] at h
              cases h
          | error y =>
              rw [hresult] at h
              cases h
              rfl

/-- A key with a phrase that is given by its holders and its base text. -/
def heldPhrase (key : String) (holders : List String) (text : String) : String × Entry :=
  (key, .phrase ⟨key, ⟨text, [], holders, .empty, .empty, none⟩, []⟩)

/-- An engine with a greeting that takes in a name and a reason, which takes in another entry. -/
def knot : Engine :=
  ⟨.ofOffers none none, .empty "en",
    ⟨none, .ofList [heldPhrase "greeting" ["who", "why"] "Hello",
      heldPhrase "reason" ["back"] "Because", heldPhrase "name" [] "Ana"]⟩⟩

/-- A bag in which the reason leads back to the greeting. -/
def knotBag : Bag :=
  .ofList [("who", .text "name"), ("why", .text "reason"), ("back", .text "greeting")]

/-- **Reported chains of holders are genuine.** A query that ends in an error about holders names a
chain from the requested key on, in which every key has a phrase, and each of them declares a holder
whose value in the bag that is left refers to the next. -/
theorem holder_error_chain_genuine (x : HolderError)
    (h : (e.resolve settings key bag).result = .error (.resolve (.holder x))) :
    Genuine e.registry (e.resolve settings key bag).bag key x.chain :=
  (fault_of_resolve h).genuine

theorem holder_error_chain_genuine_knot :
    (knot.resolve .default "greeting" knotBag).result =
        .error (.resolve (.holder (.cycle ["greeting", "reason", "greeting"]))) ∧
      Genuine knot.registry (knot.resolve .default "greeting" knotBag).bag "greeting"
        ["greeting", "reason", "greeting"] :=
  ⟨rfl, holder_error_chain_genuine knot .default "greeting" knotBag
    (.cycle ["greeting", "reason", "greeting"]) rfl⟩

/-- **Holder recursion is bounded.** At every moment of a query the entries in progress are distinct
and no more than the limit. A cycle closes such a chain with one of its keys; a chain that is too
deep has one key more than the limit, all distinct, so a limit that covers all phrases of the
registry is never exceeded. -/
theorem chain_bounded :
    (settings.depthLimit : Int) = max 1 settings.maxHolderDepth ∧
      (∀ m, e.Passes settings key bag m →
        m.chain.Nodup ∧ m.chain.length ≤ settings.depthLimit) ∧
      (∀ p, e.registry.get? key = some (.phrase p) → ∃ o, e.Passes settings key bag (.ended o) ∧
        e.resolve settings key bag = ⟨(o.result.map .text).mapError .resolve, o.bag, o.log⟩) ∧
      (∀ chain, (e.resolve settings key bag).result = .error (.resolve (.holder (.cycle chain))) →
        chain.dropLast.Nodup ∧ (∃ last ∈ chain.getLast?, last ∈ chain.dropLast) ∧
          chain.length ≤ settings.depthLimit + 1) ∧
      (∀ chain limit,
        (e.resolve settings key bag).result = .error (.resolve (.holder (.tooDeep chain limit))) →
          chain.Nodup ∧ chain.length = settings.depthLimit + 1 ∧ limit = settings.depthLimit) ∧
      (e.registry.phraseKeys.length ≤ settings.depthLimit → ∀ chain limit,
        (e.resolve settings key bag).result ≠
          .error (.resolve (.holder (.tooDeep chain limit)))) := by
  refine ⟨settings.depthLimit_eq, fun m hm => ?_, fun p hp => passes_ended settings bag hp,
    fun chain h => ?_, fun chain limit h => ?_, fun hcount chain limit h => ?_⟩
  · have hsound := sound_of_passes hm
    cases m with
    | running inner outer bag log =>
        refine ⟨hsound.nodup, ?_⟩
        have hbounded := hsound.bounded
        rw [Walk.Moment.chain, List.length_append, Walk.length_chainOf, List.length_singleton]
        omega
    | ended o => exact ⟨List.nodup_nil, Nat.zero_le _⟩
  · generalize hx : HolderError.cycle chain = x at h
    cases fault_of_resolve h with
    | cycle init last genuine nodup bounded again =>
        cases hx
        rw [List.dropLast_concat, List.getLast?_concat, List.length_append, List.length_singleton]
        exact ⟨nodup, ⟨last, rfl, again⟩, by omega⟩
    | tooDeep init genuine nodup full => cases hx
  · cases fault_of_resolve h with
    | tooDeep chain genuine nodup full => exact ⟨nodup, full, rfl⟩
  · cases fault_of_resolve h with
    | tooDeep chain genuine nodup full =>
        have hlength := genuine.length_le nodup
        omega

/-- Two entries in progress, a cycle within the limit, a chain beyond the limit of one, and a limit
that covers all three phrases. -/
theorem chain_bounded_knot :
    (∃ m, knot.Passes .default "greeting" knotBag m ∧ m.chain = ["greeting", "name"] ∧
      m.chain.Nodup) ∧
    ((knot.resolve .default "greeting" knotBag).result =
        .error (.resolve (.holder (.cycle ["greeting", "reason", "greeting"]))) ∧
      ["greeting", "reason"].Nodup) ∧
    ((knot.resolve ⟨0, "INFO", "en", false⟩ "greeting" knotBag).result =
        .error (.resolve (.holder (.tooDeep ["greeting", "name"] 1))) ∧
      ["greeting", "name"].length = 1 + 1) ∧
    (knot.registry.phraseKeys.length ≤ Settings.default.depthLimit ∧
      ∀ chain limit, (knot.resolve .default "greeting" knotBag).result ≠
        .error (.resolve (.holder (.tooDeep chain limit)))) := by
  obtain ⟨-, hmoments, -, hcycle, -, hcover⟩ := chain_bounded knot .default "greeting" knotBag
  obtain ⟨-, -, -, -, hdeep, -⟩ :=
    chain_bounded knot ⟨0, "INFO", "en", false⟩ "greeting" knotBag
  have hcount : knot.registry.phraseKeys.length ≤ Settings.default.depthLimit := by decide
  have hpasses : knot.Passes .default "greeting" knotBag
      (Walk.advance (knot.scope .default knot.registry) Settings.default.depthLimit [] knotBag []
        ⟨"greeting", ⟨"greeting", ⟨"Hello", [], ["who", "why"], .empty, .empty, none⟩, []⟩,
          ["who", "why"]⟩) :=
    ⟨_, rfl, Relation.ReflTransGen.single (Walk.Step.advance _ _ _ _)⟩
  exact ⟨⟨_, hpasses, rfl, (hmoments _ hpasses).1⟩, ⟨rfl, (hcycle _ rfl).1⟩,
    ⟨rfl, (hdeep _ _ rfl).2.1⟩, hcount, hcover hcount⟩

end Engine

end Phrasebook
