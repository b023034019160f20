import Phrasebook.Proofs.Holder.Nesting

/-! Cycles stay. Keys are tangled in a bag if each of them leads to another one of them. Whatever is
resolved with this bag, no name that refers to one of the keys is ever given another value, because
an entry that came upon it would have to follow it first, and none of the keys is ever resolved to a
text (`Scope.retains_enter`). The chain of a cycle is tangled in the bag that the error leaves, so
asking again for any of its keys fails again (`cycle_stays`). -/

namespace Phrasebook

/-- Each of some keys leads to another one of them. -/
def Tangled (r : Registry) (bag : Bag) (keys : List String) : Prop :=
  ∀ key ∈ keys, ∃ next ∈ keys, LeadsTo r bag key next

/-- A name refers to one of some keys. -/
def Bag.RefersInto (bag : Bag) (keys : List String) (name : String) : Prop :=
  ∃ key ∈ keys, Bag.reference bag name = some key

/-- What refers to some keys in one bag has the same value in another. -/
def Bag.Retains (keys : List String) (bag bag' : Bag) : Prop :=
  ∀ name, Bag.RefersInto bag keys name → bag'.get? name = bag.get? name

/-- An outcome that is an error. -/
def Outcome.Fails {α : Type} (o : Outcome α) : Prop :=
  ∃ x, o.result = .error x

namespace Bag.Retains

variable {keys : List String} {left bag : Bag}

theorem insert {name : String} (h : Retains keys left bag) (v : Value)
    (hname : ¬ RefersInto left keys name) : Retains keys left (bag.insert name v) := by
  intro other hother
  have hne : other ≠ name := fun heq => hname (heq ▸ hother)
  rw [OrderedMap.get?_insert, if_neg hne, h other hother]

/-- A name that refers to one of the keys stands for its phrase. -/
theorem target {r : Registry} (h : Retains keys left bag) (htangled : Tangled r left keys)
    {name : String} (hname : RefersInto left keys name) :
    ∃ key ∈ keys, ∃ p, r.target bag name = .phrase key p := by
  obtain ⟨key, hkey, href⟩ := hname
  obtain ⟨next, -, p, -, hp, -⟩ := htangled key hkey
  refine ⟨key, hkey, p, Registry.target_eq_phrase_iff.2 ⟨?_, hp⟩⟩
  rw [Bag.reference, h name ⟨key, hkey, href⟩]
  exact href

end Bag.Retains

namespace Scope

variable {scope : Scope} {keys : List String} {left bag : Bag}

theorem fails_rendered {p : Phrase} {o : Outcome Unit} (h : o.Fails) :
    (scope.rendered p o).Fails := by
  obtain ⟨x, hx⟩ := h
  refine ⟨x, ?_⟩
  simp only [rendered, hx]

/-- Replacing holders comes to no end at one that refers to a tangled key, and changes none of these
holders before it gets there. -/
theorem retains_substitute (htangled : Tangled scope.registry left keys)
    {follow : String → Phrase → Bag → Outcome String}
    (hfollow : ∀ (k : String) (q : Phrase) (bag : Bag), scope.registry.get? k = some (.phrase q) →
      Bag.Retains keys left bag →
        Bag.Retains keys left (follow k q bag).bag ∧ (k ∈ keys → (follow k q bag).Fails))
    (key : String) (holders : List String) (h : Bag.Retains keys left bag) :
    Bag.Retains keys left (scope.substitute follow key holders bag).bag ∧
      ((∃ holder ∈ holders, Bag.RefersInto left keys holder) →
        (scope.substitute follow key holders bag).Fails) := by
  induction holders generalizing bag with
  | nil => exact ⟨h, fun ⟨_, hmem, _⟩ => absurd hmem List.not_mem_nil⟩
  | cons holder rest ih =>
      by_cases hholder : Bag.RefersInto left keys holder
      · -- following the holder fails, so that it is never written
        obtain ⟨k, hk, q, htarget⟩ := h.target htangled hholder
        obtain ⟨hbag, hfails⟩ :=
          hfollow k q bag (Registry.target_eq_phrase_iff.1 htarget).2 h
        obtain ⟨x, hx⟩ := hfails hk
        rw [substitute_cons, htarget]
        simp only [hx]
        exact ⟨hbag, fun _ => ⟨x, rfl⟩⟩
      · have hrest : (∃ name ∈ holder :: rest, Bag.RefersInto left keys name) →
            ∃ name ∈ rest, Bag.RefersInto left keys name := by
          rintro ⟨name, hmem, hname⟩
          rcases List.mem_cons.1 hmem with rfl | hmem
          · exact absurd hname hholder
          · exact ⟨name, hmem, hname⟩
        have hwrite : ∀ {b : Bag} (v : Value), Bag.Retains keys left b →
            Bag.Retains keys left (scope.substitute follow key rest (b.insert holder v)).bag ∧
              ((∃ name ∈ holder :: rest, Bag.RefersInto left keys name) →
                (scope.substitute follow key rest (b.insert holder v)).Fails) := by
          intro b v hb
          obtain ⟨hbag, hfails⟩ := ih (hb.insert v hholder)
          exact ⟨hbag, fun hex => hfails (hrest hex)⟩
        rw [substitute_cons]
        cases htarget : scope.registry.target bag holder with
        | absent => exact hwrite _ h
        | unknown k => exact hwrite _ h
        | constant v => exact hwrite _ h
        | phrase k q =>
            obtain ⟨hbag, -⟩ := hfollow k q bag (Registry.target_eq_phrase_iff.1 htarget).2 h
            cases hresult : (follow k q bag).result with
            | error x =>
                simp only [hresult]
                exact ⟨hbag, fun _ => ⟨x, rfl⟩⟩
            | ok text =>
                simp only [hresult]
                exact hwrite _ hbag

/-- **No tangled key is resolved to a text**, whatever is in progress and however much room is left;
and no resolution changes a name that refers to one of them. -/
theorem retains_enter (htangled : Tangled scope.registry left keys) (room : Nat)
    (chain : List String) {key : String} {p : Phrase}
    (hp : scope.registry.get? key = some (.phrase p)) (h : Bag.Retains keys left bag) :
    Bag.Retains keys left (scope.enter room chain key p bag).bag ∧
      (key ∈ keys → (scope.enter room chain key p bag).Fails) := by
  apply enter_induction (motive := fun key p bag o =>
    scope.registry.get? key = some (.phrase p) → Bag.Retains keys left bag →
      Bag.Retains keys left o.bag ∧ (key ∈ keys → o.Fails)) ?_ ?_ room chain key p bag hp h
  · intro key p bag x _ h
    exact ⟨h, fun _ => ⟨_, rfl⟩⟩
  · intro follow key p bag hfollow hp h
    obtain ⟨hbag, hfails⟩ := retains_substitute htangled hfollow key p.node.holders h
    rw [bag_rendered]
    refine ⟨hbag, fun hmem => fails_rendered (hfails ?_)⟩
    -- the key leads to another one by one of its own holders
    obtain ⟨next, hnext, q, holder, hq, hholder, href⟩ := htangled key hmem
    rw [hp] at hq
    cases hq
    exact ⟨holder, hholder, next, hnext, href⟩

end Scope

/-- All but the last one of a chain have a next one. -/
theorem exists_next_of_isChain {α : Type} {R : α → α → Prop} {init : List α} {last x : α}
    (h : (init ++ [last]).IsChain R) (hx : x ∈ init) : ∃ next ∈ init ++ [last], R x next := by
  obtain ⟨before, behind, rfl⟩ := List.append_of_mem hx
  cases behind with
  | nil =>
      rw [List.append_assoc, List.singleton_append, List.isChain_append_cons_cons] at h
      exact ⟨last, by simp, h.2.1⟩
  | cons next behind =>
      rw [List.append_assoc, List.cons_append, List.cons_append, List.isChain_append_cons_cons] at h
      exact ⟨next, by simp, h.2.1⟩

/-- A chain that comes back to one of its keys is tangled. -/
theorem Genuine.tangled {r : Registry} {bag : Bag} {key last : String} {init : List String}
    (h : Genuine r bag key (init ++ [last])) (again : last ∈ init) :
    Tangled r bag (init ++ [last]) := by
  intro k hk
  apply exists_next_of_isChain h.linked
  rcases List.mem_append.1 hk with hk | hk
  · exact hk
  · rwa [List.mem_singleton.1 hk]

namespace Engine

/-- A query neither changes a name that refers to a tangled key nor returns the text of one. -/
theorem retains_resolve {e : Engine} {left : Bag} {keys : List String}
    (htangled : Tangled e.registry left keys) (settings : Settings) (key : String) {bag : Bag}
    (h : Bag.Retains keys left bag) :
    Bag.Retains keys left (e.resolve settings key bag).bag ∧
      (key ∈ keys → ∃ x, (e.resolve settings key bag).result = .error (.resolve x)) := by
  have hphrase : key ∈ keys → ∃ p, e.registry.get? key = some (.phrase p) := by
    intro hkey
    obtain ⟨-, -, p, -, hp, -⟩ := htangled key hkey
    exact ⟨p, hp⟩
  cases hget : e.registry.get? key with
  | none =>
      rw [resolve_of_unknown settings bag hget]
      rw [hget] at hphrase
      exact ⟨h, fun hkey => absurd (hphrase hkey) nofun⟩
  | some entry =>
      cases entry with
      | constant v =>
          rw [resolve_of_constant settings bag hget]
          rw [hget] at hphrase
          exact ⟨h, fun hkey => absurd (hphrase hkey) nofun⟩
      | phrase p =>
          have hentered :
              let o := (e.scope settings e.registry).enter settings.depthLimit [] key p bag
              Bag.Retains keys left o.bag ∧ (key ∈ keys → o.Fails) :=
            Scope.retains_enter htangled settings.depthLimit [] hget h
          obtain ⟨hbag, hfails⟩ := hentered
          constructor
          · rw [resolve_of_phrase settings bag hget]
            exact hbag
          · intro hkey
            obtain ⟨x, hx⟩ := hfails hkey
            exact ⟨x, (resolve_phrase_eq_error_iff settings bag hget).2 hx⟩

/-- **A cycle is not transient.** After a query that ended in a cycle, a query for any key of the
chain with the bag that was left, under any settings, ends in an error again; and every name whose
value refers to a key of the chain, in particular every holder that leads from one of its keys to
the next, keeps this value. -/
theorem cycle_stays (e : Engine) (settings settings' : Settings) (key : String) (bag : Bag)
    (chain : List String)
    (h : (e.resolve settings key bag).result = .error (.resolve (.holder (.cycle chain)))) :
    let left := (e.resolve settings key bag).bag
    ∀ again ∈ chain,
      (∃ x, (e.resolve settings' again left).result = .error (.resolve x)) ∧
        ∀ name, ∀ next ∈ chain, Bag.reference left name = some next →
          (e.resolve settings' again left).bag.get? name = left.get? name := by
  intro left again hagain
  have htangled : Tangled e.registry left chain := by
    cases fault_of_resolve h with
    | cycle init last genuine nodup bounded hlast => exact genuine.tangled hlast
  obtain ⟨hbag, hfails⟩ := retains_resolve htangled settings' again fun _ _ => rfl
  exact ⟨hfails hagain, fun name next hnext href => hbag name ⟨next, hnext, href⟩⟩

/-- An engine with a greeting that takes in a name, the text of which is the key of a title, and a
reason; the title and the reason take in one entry. -/
def detour : Engine :=
  ⟨.ofOffers none none, .empty "en",
    ⟨none, .ofList [heldPhrase "greeting" ["who", "why"] "Hello",
      heldPhrase "name" [] "title", heldPhrase "title" ["back"] "Dr",
      heldPhrase "reason" ["back"] "Because"]⟩⟩

/-- The first query leaves the key of the title for the name, so that a second one runs into another
cycle; the reason cannot be had either. -/
theorem cycle_stays_detour :
    let bag : Bag :=
      .ofList [("who", .text "name"), ("why", .text "reason"), ("back", .text "greeting")]
    let left := (detour.resolve .default "greeting" bag).bag
    let narrow : Settings := ⟨1, "INFO", "en", false⟩
    (detour.resolve .default "greeting" bag).result =
        .error (.resolve (.holder (.cycle ["greeting", "reason", "greeting"]))) ∧
      (detour.resolve .default "greeting" left).result =
        .error (.resolve (.holder (.cycle ["greeting", "title", "greeting"]))) ∧
      (∃ x, (detour.resolve narrow "reason" left).result = .error (.resolve x)) ∧
      (detour.resolve narrow "reason" left).bag.get? "why" = some (.text "reason") := by
  intro bag left narrow
  have hfirst : (detour.resolve .default "greeting" bag).result =
      .error (.resolve (.holder (.cycle ["greeting", "reason", "greeting"]))) := rfl
  have hleft : left =
      .ofList [("who", .text "title"), ("why", .text "reason"), ("back", .text "greeting")] :=
    OrderedMap.ext (congrArg
      (fun t => [("who", Value.text t), ("why", .text "reason"), ("back", .text "greeting")])
      (by decide +kernel : Template.fill _ _ _ = _))
  obtain ⟨hfails, hnames⟩ :=
    cycle_stays detour .default narrow "greeting" bag _ hfirst "reason" (by decide)
  refine ⟨hfirst, ?_, hfails, hnames "why" "reason" (by decide) rfl⟩
  rw [hleft]
  rfl

end Engine

end Phrasebook
