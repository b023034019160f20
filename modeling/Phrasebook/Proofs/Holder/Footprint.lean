import Phrasebook.Proofs.Holder.Chain

/-! What a resolution leaves behind in its bag. A step of a walk writes at most one name, a holder
of an entry in progress, and gives it nothing, a constant or the text of the entry inside
(`move_advance`). So a resolution changes no name that is not a holder of an entry it enters and
removes none, also when it fails midway; and when it returns, all holders of the requested entry
have been replaced, though perhaps by an inner entry that declares them too
(`resolve_writes_holders`). -/

namespace Phrasebook

/-- A name has a value of a given sort. -/
def Bag.Supplied (given : Value → Prop) (bag : Bag) (name : String) : Prop :=
  ∃ v, bag.get? name = some v ∧ given v

namespace Bag.Supplied

variable {given : Value → Prop} {bag : Bag} {name other : String} {v : Value}

theorem insert_self (hv : given v) : Supplied given (bag.insert name v) name :=
  ⟨v, by rw [OrderedMap.get?_insert, if_pos rfl], hv⟩

theorem insert (h : Supplied given bag name) (hv : given v) :
    Supplied given (bag.insert other v) name := by
  by_cases hname : name = other
  · rw [hname]
    exact insert_self hv
  · obtain ⟨w, hw, hgiven⟩ := h
    exact ⟨w, by rw [OrderedMap.get?_insert, if_neg hname, hw], hgiven⟩

end Bag.Supplied

/-- A name is a holder of one of the entries that were entered. -/
def Registry.Declares (r : Registry) (entered : String → Prop) (name : String) : Prop :=
  ∃ key p, entered key ∧ r.get? key = some (.phrase p) ∧ name ∈ p.node.holders

namespace Walk

/-- The bag as it stands at a moment. -/
def Moment.bag : Moment → Bag
  | running _ _ bag _ => bag
  | ended o => o.bag

variable {scope : Scope} {limit : Nat}

/-! ### What a step can do -/

/-- A step gives up, returns the text of the outermost entry, hands the text of an inner one to the
entry that waits for it, replaces a holder that names no phrase, or begins the phrase that a holder
names. -/
inductive Move (scope : Scope) : Frame → List Waiting → Bag → Moment → Prop
  | giveUp (inner : Frame) (outer : List Waiting) (bag : Bag) (x : ResolveError) (log : Log) :
      Move scope inner outer bag (.ended ⟨.error x, bag, log⟩)
  | finish (key : String) (p : Phrase) (bag : Bag) (log : Log) {text : String}
      (rendered : scope.render p bag = .ok text) :
      Move scope ⟨key, p, []⟩ [] bag (.ended ⟨.ok text, bag, log⟩)
  | resume (key : String) (p : Phrase) (w : Waiting) (outer : List Waiting) (bag : Bag) (log : Log)
      {text : String} (rendered : scope.render p bag = .ok text) :
      Move scope ⟨key, p, []⟩ (w :: outer) bag
        (.running w.toFrame outer (bag.insert w.holder (.text text)) log)
  | write (key : String) (p : Phrase) (holder : String) (rest : List String) (outer : List Waiting)
      (bag : Bag) (log : Log) (v : Value)
      (stored : v = .null ∨ ∃ k, scope.registry.get? k = some (.constant v)) :
      Move scope ⟨key, p, holder :: rest⟩ outer bag
        (.running ⟨key, p, rest⟩ outer (bag.insert holder v) log)
  | descend (key : String) (p : Phrase) (holder : String) (rest : List String)
      (outer : List Waiting) (bag : Bag) (log : Log) (next : String) (q : Phrase) :
      Move scope ⟨key, p, holder :: rest⟩ outer bag
        (.running ⟨next, q, q.node.holders⟩ (⟨⟨key, p, rest⟩, holder⟩ :: outer) bag log)

theorem move_advance (inner : Frame) (outer : List Waiting) (bag : Bag) (log : Log) :
    Move scope inner outer bag (advance scope limit outer bag log inner) := by
  obtain ⟨key, p, pending⟩ := inner
  cases pending with
  | nil =>
      rw [advance]
      cases hrender : scope.render p bag with
      | error x =>
          rw [deliver_of_error rfl]
          exact .giveUp _ _ _ _ _
      | ok text =>
          cases outer with
          | nil => exact .finish key p bag log hrender
          | cons w ws => exact .resume key p w ws bag log hrender
  | cons holder rest =>
      rw [advance]
      cases htarget : scope.registry.target bag holder with
      | absent => exact .write key p holder rest outer bag log _ (.inl rfl)
      | unknown k => exact .write key p holder rest outer bag _ _ (.inl rfl)
      | constant v =>
          exact .write key p holder rest outer bag log v
            (.inr (Registry.exists_of_target_eq_constant htarget))
      | phrase next q =>
          dsimp only
          unfold begin
          split
          · exact .giveUp _ _ _ _ _
          · split
            · exact .giveUp _ _ _ _ _
            · exact .descend key p holder rest outer bag log next q

/-! ### Holders that are done -/

/-- The holders of an entry that are no longer to be replaced have values of a given sort. -/
def Frame.Supplied (given : Value → Prop) (bag : Bag) (f : Frame) : Prop :=
  ∀ holder ∈ f.phrase.node.holders, holder ∈ f.pending ∨ bag.Supplied given holder

/-- The same of an entry that waits, but for the holder that is to take the text. -/
def Waiting.Supplied (given : Value → Prop) (bag : Bag) (w : Waiting) : Prop :=
  ∀ holder ∈ w.phrase.node.holders,
    holder = w.holder ∨ holder ∈ w.pending ∨ bag.Supplied given holder

/-- The holders that are done have values of a given sort; at the end, if there is a text, these are
all holders of the outermost entry. -/
def Moment.Supplied (r : Registry) (given : Value → Prop) (key : String) : Moment → Prop
  | running inner outer bag _ => inner.Supplied given bag ∧ ∀ w ∈ outer, w.Supplied given bag
  | ended o => ∀ text, o.result = .ok text → ∀ p, r.get? key = some (.phrase p) →
      ∀ holder ∈ p.node.holders, o.bag.Supplied given holder

section

variable {given : Value → Prop} {bag : Bag} {v : Value}

theorem Frame.Supplied.insert {f : Frame} (h : f.Supplied given bag) (name : String)
    (hv : given v) : f.Supplied given (bag.insert name v) :=
  fun holder hholder => (h holder hholder).imp_right fun hdone => hdone.insert hv

theorem Waiting.Supplied.insert {w : Waiting} (h : w.Supplied given bag) (name : String)
    (hv : given v) : w.Supplied given (bag.insert name v) :=
  fun holder hholder => (h holder hholder).imp_right (Or.imp_right fun hdone => hdone.insert hv)

/-- The holder that is next has been replaced. -/
theorem Frame.Supplied.replace {key holder : String} {p : Phrase} {rest : List String}
    (h : Frame.Supplied given bag ⟨key, p, holder :: rest⟩) (hv : given v) :
    Frame.Supplied given (bag.insert holder v) ⟨key, p, rest⟩ := by
  intro other hother
  rcases h other hother with hpending | hdone
  · rcases List.mem_cons.1 hpending with rfl | hrest
    · exact .inr (Bag.Supplied.insert_self hv)
    · exact .inl hrest
  · exact .inr (hdone.insert hv)

/-- The holder that is next waits for a text. -/
theorem Frame.Supplied.await {key holder : String} {p : Phrase} {rest : List String}
    (h : Frame.Supplied given bag ⟨key, p, holder :: rest⟩) :
    Waiting.Supplied given bag ⟨⟨key, p, rest⟩, holder⟩ := by
  intro other hother
  rcases h other hother with hpending | hdone
  · exact (List.mem_cons.1 hpending).imp_right .inl
  · exact .inr (.inr hdone)

/-- The entry has taken the text that it waited for. -/
theorem Waiting.Supplied.replace {w : Waiting} (h : w.Supplied given bag) (hv : given v) :
    w.toFrame.Supplied given (bag.insert w.holder v) := by
  intro other hother
  rcases h other hother with rfl | hpending | hdone
  · exact .inr (Bag.Supplied.insert_self hv)
  · exact .inl hpending
  · exact .inr (hdone.insert hv)

end

/-! ### The footprint of a walk -/

/-- What has become of the bag that a walk began with: its names are still the first ones, only
holders of entries that were entered have other values, and the holders that are done have values
of a given sort. -/
structure Footprint (r : Registry) (entered : String → Prop) (given : Value → Prop) (key : String)
    (start : Bag) (m : Moment) : Prop where
  order : start.keys <+: m.bag.keys
  kept : ∀ name, ¬ r.Declares entered name → m.bag.get? name = start.get? name
  supplied : m.Supplied r given key

variable {entered : String → Prop} {given : Value → Prop} {key : String} {start bag : Bag}

theorem Footprint.written {r : Registry} {m m' : Moment} (h : Footprint r entered given key start m)
    {name : String} {v : Value} (hbag : m'.bag = m.bag.insert name v)
    (hname : r.Declares entered name) (hsupplied : m'.Supplied r given key) :
    Footprint r entered given key start m' := by
  refine ⟨?_, fun other hother => ?_, hsupplied⟩
  · rw [hbag]
    exact h.order.trans (OrderedMap.keys_prefix_insert _ _ _)
  · have hne : other ≠ name := fun heq => hother (heq ▸ hname)
    rw [hbag, OrderedMap.get?_insert, if_neg hne, h.kept other hother]

/-- **A step keeps the footprint**, if nulls, constants and the text that it may return are values
of the given sort. -/
theorem Footprint.move {inner : Frame} {outer : List Waiting} {log : Log} {m' : Moment}
    (h : Footprint scope.registry entered given key start (.running inner outer bag log))
    (hmove : Move scope inner outer bag m')
    (hsound : Sound scope.registry limit key inner outer bag)
    (hentered : ∀ k ∈ chainOf outer ++ [inner.key], entered k) (hnull : given .null)
    (hconstant : ∀ k v, scope.registry.get? k = some (.constant v) → given v)
    (htext : ∀ text, inner.pending = [] → scope.render inner.phrase bag = .ok text →
      given (.text text)) :
    Footprint scope.registry entered given key start m' := by
  obtain ⟨hinner, houter⟩ := h.supplied
  have hregistered := hsound.registered
  cases hmove with
  | giveUp _ _ _ x log' => exact ⟨h.order, h.kept, nofun⟩
  | finish k p _ log' rendered =>
      refine ⟨h.order, h.kept, fun text _ q hq holder hholder => ?_⟩
      -- nothing waits any more, so this is the entry that the walk began with
      have hroot : k = key := Option.some.inj hsound.root
      have hget := hregistered.get
      rw [hroot, hq] at hget
      cases hget
      exact (hinner holder hholder).resolve_left List.not_mem_nil
  | resume k p w ws _ log' rendered =>
      obtain ⟨⟨hwaiting, hholder, -⟩, -⟩ := hsound.awaited
      have hgiven := htext _ rfl rendered
      have hdeclared : scope.registry.Declares entered w.holder :=
        ⟨w.key, w.phrase, hentered _ (by simp), hwaiting.get, hholder⟩
      refine h.written rfl hdeclared ⟨(houter w List.mem_cons_self).replace hgiven, ?_⟩
      exact fun w' hw' => (houter w' (List.mem_cons_of_mem _ hw')).insert _ hgiven
  | write k p holder rest _ _ log' v stored =>
      have hgiven : given v := by
        rcases stored with rfl | ⟨c, hc⟩
        · exact hnull
        · exact hconstant c v hc
      have hdeclared : scope.registry.Declares entered holder :=
        ⟨k, p, hentered _ (by simp), hregistered.get, hregistered.pending List.mem_cons_self⟩
      exact h.written rfl hdeclared
        ⟨hinner.replace hgiven, fun w hw => (houter w hw).insert _ hgiven⟩
  | descend k p holder rest _ _ log' next q =>
      refine ⟨h.order, h.kept, fun other hmem => .inl hmem, fun w hw => ?_⟩
      rcases List.mem_cons.1 hw with rfl | hw
      · exact hinner.await
      · exact houter w hw

theorem footprint_begin (r : Registry) (limit : Nat) (p : Phrase) (bag : Bag) :
    Footprint r entered given key bag (begin limit [] key p bag []) := by
  unfold begin
  split
  · exact ⟨List.prefix_rfl, fun _ _ => rfl, nofun⟩
  · split
    · exact ⟨List.prefix_rfl, fun _ _ => rfl, nofun⟩
    · exact ⟨List.prefix_rfl, fun _ _ => rfl, fun _ hmem => .inl hmem, nofun⟩

end Walk

/-! ### The footprint of a query -/

namespace Engine

variable (e : Engine) (settings : Settings) (key : String) (bag : Bag)

/-- An entry is in progress at some moment of a query. -/
def Enters (entered : String) : Prop :=
  ∃ m, e.Passes settings key bag m ∧ entered ∈ m.chain

/-- At some moment of a query the holders of an entry are all replaced, and it is rendered to a
text. -/
def Returns (returned text : String) : Prop :=
  ∃ p outer now log, e.registry.get? returned = some (.phrase p) ∧
    e.Passes settings key bag (.running ⟨returned, p, []⟩ outer now log) ∧
    (e.scope settings e.registry).render p now = .ok text

/-- What a query may give a holder: nothing, a constant of the registry, or the text that an entry
of the registry returns. -/
def Gives (v : Value) : Prop :=
  v = .null ∨ (∃ k, e.registry.get? k = some (.constant v)) ∨
    ∃ k text, v = .text text ∧ e.Returns settings key bag k text

variable {e settings key bag} in
/-- **A query keeps the footprint** at all its moments. -/
theorem footprint_of_passes {m : Walk.Moment} (h : e.Passes settings key bag m) :
    Walk.Footprint e.registry (e.Enters settings key bag) (e.Gives settings key bag) key bag m := by
  obtain ⟨p, hp, hreaches⟩ := h
  induction hreaches with
  | refl => exact Walk.footprint_begin e.registry settings.depthLimit p bag
  | tail hbefore hstep ih =>
      cases hstep with
      | advance inner outer now log =>
          have hpasses : e.Passes settings key bag (.running inner outer now log) :=
            ⟨p, hp, hbefore⟩
          have hsound := sound_of_passes hpasses
          have hfootprint : Walk.Footprint (e.scope settings e.registry).registry
              (e.Enters settings key bag) (e.Gives settings key bag) key bag
              (.running inner outer now log) := ih
          refine hfootprint.move (Walk.move_advance inner outer now log) hsound
            (fun k hk => ⟨_, hpasses, hk⟩) (.inl rfl) (fun k v hv => .inr (.inl ⟨k, hv⟩))
            fun text hpending hrender => ?_
          obtain ⟨k, q, pending⟩ := inner
          cases hpending
          exact .inr (.inr ⟨k, text, rfl, q, outer, now, log, hsound.registered.get, hpasses,
            hrender⟩)

/-- **A resolution touches holders only.** Whether a query returns or fails, a name keeps its value,
or stays without one, unless it is a holder of an entry that was entered; the names of the bag stay
in their order, before all new ones; and when the query returns, every holder of the requested entry
has no value, or a constant of the registry, or the text that an entry returned. -/
theorem resolve_writes_holders (e : Engine) (settings : Settings) (key : String) (bag : Bag) :
    let left := (e.resolve settings key bag).bag
    (∀ name, (∀ k p, e.Enters settings key bag k → e.registry.get? k = some (.phrase p) →
        name ∉ p.node.holders) → left.get? name = bag.get? name) ∧
      bag.keys <+: left.keys ∧
      ∀ p v, e.registry.get? key = some (.phrase p) →
        (e.resolve settings key bag).result = .ok v → ∀ holder ∈ p.node.holders,
          ∃ w, left.get? holder = some w ∧ e.Gives settings key bag w := by
  intro left
  cases hget : e.registry.get? key with
  | none =>
      have hleft : left = bag := congrArg Reply.bag (resolve_of_unknown settings bag hget)
      rw [hleft]
      exact ⟨fun _ _ => rfl, List.prefix_rfl, nofun⟩
  | some entry =>
      cases entry with
      | constant c =>
          have hleft : left = bag := congrArg Reply.bag (resolve_of_constant settings bag hget)
          rw [hleft]
          exact ⟨fun _ _ => rfl, List.prefix_rfl, nofun⟩
      | phrase p =>
          obtain ⟨o, hpasses, hresolve⟩ := passes_ended settings bag hget
          have hfootprint := footprint_of_passes hpasses
          have hleft : left = o.bag := congrArg Reply.bag hresolve
          rw [hleft]
          refine ⟨fun name hname => hfootprint.kept name ?_, hfootprint.order, ?_⟩
          · rintro ⟨k, q, hentered, hq, hholder⟩
            exact hname k q hentered hq hholder
          · intro q v hq hv holder hholder
            cases hq
            rw [hresolve] at hv
            cases hresult : o.result with
            | error x =>
                rw [hresult] at hv
                cases hv
            | ok text => exact hfootprint.supplied text hresult p hget holder hholder

/-- An engine with a constant, a name that takes in a title, and a greeting. -/
def lobby : Engine :=
  ⟨.ofOffers none none, .empty "en",
    ⟨none, .ofList [("upload", .constant (.text "Upload")), heldPhrase "name" ["title"] "Ana",
      heldPhrase "greeting" ["who", "what", "why"] "Hello"]⟩⟩

/-- The greeting takes in a name, which adds its title to the bag, and a constant, and misses the
reason; the count is not touched. -/
theorem resolve_writes_holders_lobby :
    let bag : Bag := .ofList [("count", .int 3), ("why", .text "nothing"), ("who", .text "name"),
      ("what", .text "upload")]
    let left := (lobby.resolve .default "greeting" bag).bag
    (lobby.resolve .default "greeting" bag).result = .ok (.text "Hello") ∧
      left.keys = ["count", "why", "who", "what", "title"] ∧
      left.get? "count" = some (.int 3) ∧ left.get? "who" = some (.text "Ana") ∧
      ∀ holder ∈ ["who", "what", "why"],
        ∃ w, left.get? holder = some w ∧ lobby.Gives .default "greeting" bag w := by
  intro bag left
  have hresult : (lobby.resolve .default "greeting" bag).result = .ok (.text "Hello") :=
    congrArg (fun t => Except.ok (Value.text t)) (by decide +kernel : Template.fill _ _ _ = _)
  have hwho : left.get? "who" = some (.text "Ana") :=
    congrArg (fun t => some (Value.text t)) (by decide +kernel : Template.fill _ _ _ = _)
  obtain ⟨hkept, -, hholders⟩ := resolve_writes_holders lobby .default "greeting" bag
  have hcount : ∀ k p, lobby.Enters .default "greeting" bag k →
      lobby.registry.get? k = some (.phrase p) → "count" ∉ p.node.holders := by
    intro k p _ hp
    have hentry : (k, Entry.phrase p) ∈ lobby.registry.entries.entries :=
      OrderedMap.get?_eq_some_iff.1 hp
    rcases List.mem_cons.1 hentry with hupload | hrest
    · cases hupload
    · rcases List.mem_cons.1 hrest with hname | hgreeting
      · cases hname
        decide
      · cases List.mem_singleton.1 hgreeting
        decide
  exact ⟨hresult, rfl, hkept "count" hcount, hwho, hholders _ _ rfl hresult⟩

end Engine

end Phrasebook
