import Phrasebook.Proofs.Holder.Nesting
import Phrasebook.Proofs.Influence.Mention

/-! Repeated queries. A query replaces the holders of its entry in the bag, and a second query with
that bag takes what was put there for references again, so it may come out differently
(`not_resolve_again`). The text of a phrase is a function of the bag that its resolution leaves.
Hence a second query differs only if it changed the bag in a name that the entry mentions, and it
changes nothing if every holder of the entry is `Settled`: following it once more gives back what it
holds (`resolve_again`). -/

namespace Phrasebook

namespace Scope

variable {scope : Scope}

/-- A phrase that returns has the text that it is rendered to from the bag it leaves. -/
theorem render_of_enter {room : Nat} {chain : List String} {key : String} {p : Phrase} {bag : Bag}
    {text : String} (h : (scope.enter room chain key p bag).result = .ok text) :
    scope.render p (scope.enter room chain key p bag).bag = .ok text := by
  apply enter_induction (motive := fun _ p _ o => o.result = .ok text →
    scope.render p o.bag = .ok text) ?_ ?_ room chain key p bag h
  · intro _ _ _ _ hgaveUp
    cases hgaveUp
  · intro follow key p bag _ hresult
    rw [bag_rendered]
    generalize scope.substitute follow key p.node.holders bag = o at hresult ⊢
    unfold rendered at hresult
    cases hdone : o.result with
    | error x =>
        simp only [hdone] at hresult
        cases hresult
    | ok _ =>
        simp only [hdone] at hresult
        cases hrender : scope.render p o.bag with
        | error x =>
            rw [hrender] at hresult
            cases hresult
        | ok t =>
            rw [hrender] at hresult
            cases hresult
            rfl

/-- Following a holder once more gives back what it holds. -/
def Settled (scope : Scope) (follow : String → Phrase → Bag → Outcome String) (bag : Bag)
    (holder : String) : Prop :=
  match scope.registry.target bag holder with
  | .absent => bag.get? holder = some .null
  | .unknown _ => False
  | .constant v => bag.get? holder = some v
  | .phrase k q => ∃ text log, follow k q bag = ⟨.ok text, bag, log⟩ ∧
      bag.get? holder = some (.text text)

/-- Replacing settled holders leaves the bag as it is. -/
theorem substitute_of_settled (follow : String → Phrase → Bag → Outcome String) (key : String)
    {holders : List String} {bag : Bag} (h : ∀ holder ∈ holders, scope.Settled follow bag holder) :
    ∃ log, scope.substitute follow key holders bag = ⟨.ok (), bag, log⟩ := by
  induction holders with
  | nil => exact ⟨[], rfl⟩
  | cons holder rest ih =>
      have hholder := h holder List.mem_cons_self
      obtain ⟨log, hrest⟩ := ih fun name hname => h name (List.mem_cons_of_mem _ hname)
      unfold Settled at hholder
      rw [substitute_cons]
      cases htarget : scope.registry.target bag holder with
      | absent =>
          simp only [htarget] at hholder ⊢
          exact ⟨log, by rw [OrderedMap.insert_eq_self hholder, hrest]⟩
      | unknown k =>
          simp only [htarget] at hholder
      | constant v =>
          simp only [htarget] at hholder ⊢
          exact ⟨log, by rw [OrderedMap.insert_eq_self hholder, hrest]⟩
      | phrase k q =>
          simp only [htarget] at hholder ⊢
          obtain ⟨text, inner, hfollow, hget⟩ := hholder
          rw [hfollow]
          simp only [OrderedMap.insert_eq_self hget, hrest]
          exact ⟨inner ++ log, rfl⟩

end Scope

namespace Engine

/-- Following a holder of a requested entry once more gives back what it holds. -/
def Settled (e : Engine) (settings : Settings) (key : String) (bag : Bag) (holder : String) :
    Prop :=
  (e.scope settings e.registry).Settled
    ((e.scope settings e.registry).enter (settings.depthLimit - 1) [key]) bag holder

/-- A query for an entry with settled holders renders it from the bag as it is. -/
theorem resolve_of_settled {e : Engine} {settings : Settings} {key : String} {bag : Bag}
    {p : Phrase} {text : String} (hp : e.registry.get? key = some (.phrase p))
    (h : ∀ holder ∈ p.node.holders, e.Settled settings key bag holder)
    (hrender : (e.scope settings e.registry).render p bag = .ok text) :
    (e.resolve settings key bag).result = .ok (.text text) ∧
      (e.resolve settings key bag).bag = bag := by
  have hlimit : settings.depthLimit = settings.depthLimit - 1 + 1 := by
    have := settings.depthLimit_eq
    omega
  obtain ⟨log, hsubstitute⟩ := Scope.substitute_of_settled _ key h
  rw [resolve_of_phrase settings bag hp, hlimit,
    Scope.enter_succ_of_not_mem _ p bag List.not_mem_nil, List.nil_append, hsubstitute]
  simp only [Scope.rendered, hrender]
  exact ⟨rfl, trivial⟩

/-- **When a query may be repeated.** A query returned a value and left a bag. If a second query
with that bag returns, and leaves the names that the entry mentions as they were, it returns the
same value. It does return it, and leaves the same bag, if all holders of the entry are settled in
it. -/
theorem resolve_again (e : Engine) (settings : Settings) (key : String) (bag : Bag) (v : Value)
    (h : (e.resolve settings key bag).result = .ok v) :
    let left := (e.resolve settings key bag).bag
    (∀ w, (e.resolve settings key left).result = .ok w →
      (∀ p, e.registry.get? key = some (.phrase p) → ∀ name ∈ p.mentioned,
        (e.resolve settings key left).bag.get? name = left.get? name) → w = v) ∧
    ((∀ p, e.registry.get? key = some (.phrase p) → ∀ holder ∈ p.node.holders,
        e.Settled settings key left holder) →
      (e.resolve settings key left).result = .ok v ∧ (e.resolve settings key left).bag = left) := by
  intro left
  cases hget : e.registry.get? key with
  | none =>
      rw [resolve_of_unknown settings bag hget] at h
      cases h
  | some entry =>
      cases entry with
      | constant c =>
          rw [resolve_of_constant settings bag hget] at h
          rw [resolve_of_constant settings left hget]
          refine ⟨fun w hw _ => ?_, fun _ => ⟨h, rfl⟩⟩
          exact Except.ok.inj (hw.symm.trans h)
      | phrase p =>
          obtain ⟨text, rfl, hentered⟩ := (resolve_phrase_eq_ok_iff settings bag hget).1 h
          have hleft : left = ((e.scope settings e.registry).enter settings.depthLimit [] key p
              bag).bag := by
            simp only [left, resolve_of_phrase settings bag hget]
          have hrender : (e.scope settings e.registry).render p left = .ok text :=
            hleft ▸ Scope.render_of_enter hentered
          constructor
          · intro w hw hnames
            obtain ⟨again, rfl, hreentered⟩ := (resolve_phrase_eq_ok_iff settings left hget).1 hw
            have hnames := hnames p rfl
            rw [resolve_of_phrase settings left hget] at hnames
            have hrender' := Scope.render_of_enter hreentered
            rw [Scope.render_congr rfl fun name hname => Scope.AlikeAt.of_get (hnames name hname),
              hrender] at hrender'
            rw [Except.ok.inj hrender']
          · exact fun hsettled => resolve_of_settled hget (hsettled p rfl) hrender

/-- An engine with a sentence about an action and a tool; the name of the action in full and the
tool refer to themselves. -/
def workshop : Engine :=
  ⟨.ofOffers none none, .empty "en",
    ⟨none, .ofList [("upload", .constant (.text "Upload")), ("Upload", .constant (.text "Upload")),
      heldPhrase "doing" ["action", "tool", "note"] "Doing {action} with a {tool}",
      heldPhrase "hammer" [] "hammer"]⟩⟩

/-- The first query replaces the action by its name in full, and the tool by its text; what it
leaves is settled, so the sentence may be asked for again. -/
theorem resolve_again_workshop :
    let bag : Bag := .ofList [("action", .text "upload"), ("tool", .text "hammer")]
    let left := (workshop.resolve .default "doing" bag).bag
    let sentence := Value.text "Doing Upload with a hammer"
    (workshop.resolve .default "doing" bag).result = .ok sentence ∧
      left = .ofList [("action", .text "Upload"), ("tool", .text "hammer"), ("note", .null)] ∧
      (workshop.resolve .default "doing" left).result = .ok sentence ∧
      (workshop.resolve .default "doing" left).bag = left := by
  intro bag left sentence
  have hfirst : (workshop.resolve .default "doing" bag).result = .ok sentence :=
    congrArg (fun t => Except.ok (Value.text t)) (by decide +kernel : Template.fill _ _ _ = _)
  have hleft : left =
      .ofList [("action", .text "Upload"), ("tool", .text "hammer"), ("note", .null)] :=
    OrderedMap.ext (congrArg
      (fun t => [("action", Value.text "Upload"), ("tool", Value.text t), ("note", Value.null)])
      (by decide +kernel : Template.fill _ _ _ = _))
  refine ⟨hfirst, hleft, (resolve_again workshop .default "doing" bag sentence hfirst).2 ?_⟩
  intro p hp holder hholder
  cases hp
  show workshop.Settled .default "doing" left holder
  rw [hleft]
  simp only [List.mem_cons, List.not_mem_nil, or_false] at hholder
  rcases hholder with rfl | rfl | rfl
  · exact rfl
  · exact ⟨"hammer", [], congrArg (fun t => (⟨Except.ok t, _, []⟩ : Outcome String))
      (by decide +kernel : Template.fill _ _ _ = _), rfl⟩
  · exact rfl

/-- An engine with a sentence about an action. -/
def errand : Engine :=
  ⟨.ofOffers none none, .empty "en",
    ⟨none, .ofList [("upload", .constant (.text "Upload")),
      heldPhrase "doing" ["action"] "Doing {action}"]⟩⟩

/-- A repeated query need not have the same result: the action is replaced by its text, which is the
key of no entry, so the second query finds no action. -/
theorem not_resolve_again :
    ¬ ∀ (e : Engine) (settings : Settings) (key : String) (bag : Bag) (v : Value),
      (e.resolve settings key bag).result = .ok v →
        (e.resolve settings key (e.resolve settings key bag).bag).result = .ok v := by
  intro h
  let bag : Bag := .ofList [("action", .text "upload")]
  have hfirst : (errand.resolve .default "doing" bag).result = .ok (.text "Doing Upload") :=
    congrArg (fun t => Except.ok (Value.text t)) (by decide +kernel : Template.fill _ _ _ = _)
  have hsecond :
      (errand.resolve .default "doing" (errand.resolve .default "doing" bag).bag).result =
        .ok (.text "Doing {action}") :=
    congrArg (fun t => Except.ok (Value.text t)) (by decide +kernel : Template.fill _ _ _ = _)
  have hrepeated := h errand .default "doing" bag _ hfirst
  rw [hsecond, Except.ok.injEq, Value.text.injEq] at hrepeated
  exact absurd hrepeated (by decide)

end Engine

end Phrasebook
