import Phrasebook.Proofs.Http.Defaults
import Phrasebook.Proofs.Http.Reachability
import Phrasebook.Proofs.Store.History

/-! Stores under operations and requests. A request changes the stores only by the one write that it
asks for, and what it asks for does not depend on the engine (`Http.stores_serve`). So whatever is
done with an engine that was given no stores, in process or by requests, each of its two stores is
what its own history of writes leaves, and neither touches the other (`stores_left_by_history`). -/

namespace Phrasebook

/-- The stores after a write through the engine, if there is one. -/
def Stores.after (s : Stores) : Option (StoreName × Store.Write) → Stores
  | none => s
  | some (name, w) => s.write name .engine w

namespace Http

variable [Text.Surrogates]

/-! ### The write that a request asks for -/

/-- What a body gives a route, if it can be read and passes the check of the route. -/
def Body.passing? {α : Type} (check : Value → Checked α) (body : Body) : Option α :=
  match body.read with
  | .error _ => none
  | .ok v => (checkBody check v).toOption

/-- The write that a request with this method asks of a route, with the store that it goes to. -/
def Route.write? (method : String) (body : Body) : Route → Option (StoreName × Store.Write)
  | .defaults store =>
      (StoreName.ofWord? store).bind fun name =>
        if method = "PUT" then (body.passing? valuesRequest).map fun new => (name, .replace new)
        else if method = "PATCH" then
          (body.passing? valuesRequest).map fun new => (name, .update new)
        else if method = "DELETE" then some (name, .clear)
        else none
  | .default store key =>
      (StoreName.ofWord? store).bind fun name =>
        if method = "PUT" then (body.passing? valueRequest).map fun v => (name, .set key v)
        else if method = "DELETE" then some (name, .delete key)
        else none
  | _ => none

def Request.write? (r : Request) : Option (StoreName × Store.Write) :=
  (Route.ofPath? (decoded r.path.toList)).bind (·.write? (r.method.map Char.toUpper) r.body)

section

variable {e : Engine}

omit [Text.Surrogates] in
/-- A write is done if the store is one of the two. -/
theorem stores_checkStore (store : String) (w : Store.Write) :
    (checked e (checkStore store) (written e · w)).engine.stores =
      e.stores.after ((StoreName.ofWord? store).bind fun name => some (name, w)) := by
  rw [checkStore]
  cases StoreName.ofWord? store <;> rfl

/-- A write with a body is done if the body also passes its check. -/
theorem stores_checkBody {α : Type} (check : Value → Checked α) (write : α → Store.Write)
    (store : String) (body : Body) :
    (match body.read with
      | .error response => (⟨response, e, []⟩ : Exchange)
      | .ok v => checked e (Checked.both Prod.mk (checkStore store) (checkBody check v))
          fun asked => written e asked.1 (write asked.2)).engine.stores =
      e.stores.after ((StoreName.ofWord? store).bind fun name =>
        (body.passing? check).map fun a => (name, write a)) := by
  rw [Body.passing?]
  cases body.read with
  | error response => cases StoreName.ofWord? store <;> rfl
  | ok v =>
      dsimp only
      rw [checkStore]
      cases StoreName.ofWord? store <;> cases checkBody check v with
      | ok a => rfl
      | error x => cases x <;> rfl

omit [Text.Surrogates] in
theorem engine_activated (step : Engine.Step Registry) : (activated step).engine = step.engine := by
  unfold activated
  split <;> rfl

/-- **A route changes the stores only by the write that is asked of it.** -/
theorem stores_answer (settings : Settings) {method : String} {route : Route}
    (h : method ∈ route.methods) (body : Body) :
    (answer settings e method route body).engine.stores =
      e.stores.after (route.write? method body) := by
  cases route with
  | health => rfl
  | activation =>
      refine of_read (P := fun x => x.engine.stores = e.stores) (fun _ => rfl) body fun v =>
        of_checked (P := fun x => x.engine.stores = e.stores) (fun _ => rfl) _ fun r => ?_
      rw [engine_activated]
      exact e.stores_publish _
  | language code =>
      exact of_read (P := fun x => x.engine.stores = e.stores) (fun _ => rfl) body fun v =>
        of_checked (P := fun x => x.engine.stores = e.stores) (fun _ => rfl) _ fun b => rfl
  | languageActivation code =>
      rw [answer, engine_activated]
      exact e.stores_useLanguage _
  | entries => rfl
  | entry key => rfl
  | resolution key =>
      exact congrArg Engine.stores (engine_answer_resolution settings e method key body)
  | defaults store =>
      -- a method that is none of these would be taken for a merge
      simp only [Route.methods, List.mem_cons, List.not_mem_nil, or_false] at h
      rcases h with rfl | rfl | rfl | rfl
      · rw [engine_answer_of_get settings e List.mem_cons_self body]
        cases hstore : StoreName.ofWord? store <;> simp [Route.write?, hstore, Stores.after]
      · exact stores_checkBody valuesRequest .replace store body
      · exact stores_checkBody valuesRequest .update store body
      · exact stores_checkStore store .clear
  | default store key =>
      simp only [Route.methods, List.mem_cons, List.not_mem_nil, or_false] at h
      rcases h with rfl | rfl
      · exact stores_checkBody valueRequest (.set key) store body
      · exact stores_checkStore store (.delete key)

/-- The methods that write are taken by the routes that they write to. -/
theorem Route.write?_of_not_mem {method : String} {route : Route} (h : method ∉ route.methods)
    (body : Body) : route.write? method body = none := by
  cases route with
  | defaults store =>
      simp only [Route.methods, List.mem_cons, List.not_mem_nil, or_false, not_or] at h
      simp [Route.write?, h]
  | default store key =>
      simp only [Route.methods, List.mem_cons, List.not_mem_nil, or_false, not_or] at h
      simp [Route.write?, h]
  | _ => rfl

/-- **A request changes the stores only by the write that it asks for.** -/
theorem stores_serve (settings : Settings) (r : Request) :
    (serve settings e r).engine.stores = e.stores.after r.write? := by
  rw [engine_serve, Http.route, Request.write?]
  cases hroute : Route.ofPath? (decoded r.path.toList) with
  | none => rcases ofSent_of_not_routed hroute with htarget | htarget <;> rw [htarget] <;> rfl
  | some route =>
      have htarget : Target.ofSent r.path = .route route := by
        simp only [Target.ofSent, hroute]
      rw [htarget, Option.bind_some]
      dsimp only
      by_cases htakes : r.method.map Char.toUpper ∈ route.methods
      · rw [if_pos htakes, stores_answer settings htakes]
      · rw [if_neg htakes, Route.write?_of_not_mem htakes]
        rfl

end

/-! ### Requests for defaults -/

/-- A request has this method, in any case of letters, and this path, in any spelling. -/
def Request.Is (r : Request) (method path : String) : Prop :=
  r.method.map Char.toUpper = method ∧ decoded r.path.toList = path.toList

/-- A request asks for a write to a store by its method, its path and what its body holds. -/
inductive Request.Asks (r : Request) (store : StoreName) : Store.Write → Prop
  | replace {values : Bag} (h : r.Is "PUT" ("/api/v1/defaults/" ++ store.word))
      (hbody : r.body.read = .ok (some (object [("values", .ofBag values)]))) :
      Asks r store (.replace values)
  | update {values : Bag} (h : r.Is "PATCH" ("/api/v1/defaults/" ++ store.word))
      (hbody : r.body.read = .ok (some (object [("values", .ofBag values)]))) :
      Asks r store (.update values)
  | clear (h : r.Is "DELETE" ("/api/v1/defaults/" ++ store.word)) : Asks r store .clear
  | set {key : String} {v : Value} (hkey : IsSegment key)
      (h : r.Is "PUT" ("/api/v1/defaults/" ++ store.word ++ "/" ++ key))
      (hbody : r.body.read = .ok (some (object [("value", v)]))) (hv : isSingle v = true) :
      Asks r store (.set key (stored v))
  | delete {key : String} (hkey : IsSegment key)
      (h : r.Is "DELETE" ("/api/v1/defaults/" ++ store.word ++ "/" ++ key)) :
      Asks r store (.delete key)

omit [Text.Surrogates] in
theorem ofWord?_word (store : StoreName) : StoreName.ofWord? store.word = some store := by
  cases store <;> rfl

theorem Body.passing?_values {body : Body} {values : Bag}
    (h : body.read = .ok (some (object [("values", .ofBag values)]))) :
    body.passing? valuesRequest = some values := by
  have hvalues : checkBody valuesRequest (some (object [("values", .ofBag values)])) =
      .ok values := by
    rw [checkBody, valuesRequest, object, List.map_singleton, checkObject, required]
    simp only [Value.field?, if_true, checkBag_ofBag]
    rfl
  rw [passing?, h]
  dsimp only
  rw [hvalues]
  rfl

theorem Body.passing?_value {body : Body} {v : Value}
    (h : body.read = .ok (some (object [("value", v)]))) (hv : isSingle v = true) :
    body.passing? valueRequest = some (stored v) := by
  rw [passing?, h]
  cases v with
  | null => cases hv
  | list items => cases hv
  | map entries => cases hv
  | _ => rfl

/-- A request has the write that it asks for. -/
theorem Request.Asks.write?_eq {r : Request} {store : StoreName} {w : Store.Write}
    (h : r.Asks store w) : r.write? = some (store, w) := by
  cases h with
  | replace h hbody =>
      rw [write?, h.1, h.2, Route.ofPath?_defaults, Option.bind_some, Route.write?, ofWord?_word,
        Body.passing?_values hbody]
      rfl
  | update h hbody =>
      rw [write?, h.1, h.2, Route.ofPath?_defaults, Option.bind_some, Route.write?, ofWord?_word,
        Body.passing?_values hbody]
      rfl
  | clear h =>
      rw [write?, h.1, h.2, Route.ofPath?_defaults, Option.bind_some, Route.write?, ofWord?_word]
      rfl
  | set hkey h hbody hv =>
      rw [write?, h.1, h.2, Route.ofPath?_default store hkey.1 hkey.2, Option.bind_some,
        Route.write?, ofWord?_word, Body.passing?_value hbody hv]
      rfl
  | delete hkey h =>
      rw [write?, h.1, h.2, Route.ofPath?_default store hkey.1 hkey.2, Option.bind_some,
        Route.write?, ofWord?_word]
      rfl

end Http

/-! ### Operations and requests in any order -/

namespace Session

section

variable [Text.Surrogates]

/-- What is done with an engine: an operation in process, or a request that it serves. -/
inductive Event
  | operation (op : Operation)
  | request (r : Http.Request)

/-- The write of an event to the store of this name. -/
def Event.writeTo? (name : StoreName) : Event → Option Store.Write
  | operation op => (op.writeTo? name).map Prod.snd
  | request r => r.write?.bind fun asked => if asked.1 = name then some asked.2 else none

/-- The writes of some events to the store of this name, in order. -/
def historyOf (name : StoreName) (events : List Event) : List Store.Write :=
  events.filterMap (Event.writeTo? name)

def meet (s : Session) : Event → Session
  | .operation op => (s.perform op).session
  | .request r => ⟨(Http.serve s.settings s.engine r).engine, s.settings⟩

/-- The session after some events, operations that fail and requests that are refused included. -/
def course (s : Session) (events : List Event) : Session :=
  events.foldl meet s

omit [Text.Surrogates] in
theorem slot_after (stores : Stores) (asked : Option (StoreName × Store.Write)) (name : StoreName) :
    (stores.after asked).slot name = (stores.slot name).writeAll
      ((asked.bind fun asked => if asked.1 = name then some asked.2 else none).toList.map
        fun w => (.engine, w)) := by
  cases asked with
  | none => rfl
  | some asked =>
      obtain ⟨other, w⟩ := asked
      rw [Stores.after, Option.bind_some]
      by_cases hname : other = name
      · rw [if_pos hname, ← hname]
        exact stores.slot_write_self other .engine w
      · rw [if_neg hname]
        exact stores.slot_write_of_ne hname .engine w

variable {s : Session} {name : StoreName} {inUse : Store}

/-- An event writes to a store what it has for it, and nothing else. -/
theorem slot_meet (h : s.engine.stores.slot name = ⟨inUse, none⟩) (event : Event) :
    (s.meet event).engine.stores.slot name =
      ⟨inUse.writeAll (event.writeTo? name).toList, none⟩ := by
  cases event with
  | operation op =>
      rw [meet, slot_perform, h, Slot.writeAll_of_taken, Event.writeTo?, Option.toList_map]
  | request r =>
      rw [meet, Http.stores_serve, slot_after, h, Slot.writeAll_of_taken, List.map_map,
        Event.writeTo?]
      exact congrArg (fun ws => (⟨inUse.writeAll ws, none⟩ : Slot)) (List.map_id _)

theorem slot_course (h : s.engine.stores.slot name = ⟨inUse, none⟩) (events : List Event) :
    (s.course events).engine.stores.slot name =
      ⟨inUse.writeAll (historyOf name events), none⟩ := by
  induction events generalizing s inUse with
  | nil => exact h
  | cons event rest ih =>
      have hcourse : s.course (event :: rest) = (s.meet event).course rest := rfl
      rw [hcourse, ih (slot_meet h event), historyOf, historyOf, List.filterMap_cons]
      cases event.writeTo? name <;> rfl

/-- An event that writes to one store leaves the other alone. -/
theorem writeTo?_eq_none_of_ne {event : Event} {other : StoreName} {w : Store.Write}
    (h : event.writeTo? other = some w) (hne : other ≠ name) : event.writeTo? name = none := by
  cases event with
  | operation op =>
      rw [Event.writeTo?, Option.map_eq_some_iff] at h
      obtain ⟨way, hop, -⟩ := h
      rw [Event.writeTo?, Option.map_eq_none_iff]
      cases op with
      | writeStore store access w =>
          have hstore : StoreName.ofWord? store = some other := by
            by_contra hstore
            rw [Operation.writeTo?, if_neg hstore] at hop
            cases hop
          rw [Operation.writeTo?, hstore, if_neg fun heq => hne (Option.some.inj heq)]
      | _ => cases hop
  | request r =>
      obtain ⟨asked, hasked, hwrite⟩ := Option.bind_eq_some_iff.1 h
      have hother : asked.1 = other := by
        by_contra hother
        rw [if_neg hother] at hwrite
        cases hwrite
      rw [Event.writeTo?, hasked, Option.bind_some, hother, if_neg hne]

theorem writeTo?_of_asks {r : Http.Request} {w : Store.Write} (h : r.Asks name w) :
    (Event.request r).writeTo? name = some w := by
  rw [Event.writeTo?, h.write?_eq, Option.bind_some, if_pos rfl]

end

/-- A session with a new engine that was given no stores. -/
def started (settings : Settings) (defaultLanguage : Option String) : Session :=
  ⟨.create settings (.ofOffers none none) defaultLanguage, settings⟩

/-- **The two stores of an engine are what their own histories leave.** Both start empty. After any
operations and requests, in any order and those that fail included, each key of a store has what the
last write to that store which affects the key gave it; the keys that are present stand in the order
of the strokes that wrote them first since they were last absent; and a write to one store leaves
the other as it is. The history of a store has the writes that are made to it in process, and those
that requests ask for. -/
theorem stores_left_by_history [Text.Surrogates] (settings : Settings)
    (defaultLanguage : Option String) (name : StoreName) (access : Access) :
    let values := fun events =>
      (((started settings defaultLanguage).course events).engine.stores.store name access).values
    values [] = .empty ∧
    (∀ events, Store.IsLeftBy (values events) (historyOf name events)) ∧
    (∀ events event other w, event.writeTo? other = some w → other ≠ name →
      values (events ++ [event]) = values events) ∧
    (∀ way w, (Event.operation (.writeStore name.word way w)).writeTo? name = some w) ∧
    ∀ r w, r.Asks name w → (Event.request r).writeTo? name = some w := by
  have hstart : (started settings defaultLanguage).engine.stores.slot name =
      ⟨.empty name.word, none⟩ := by
    cases name <;> rfl
  have hstore : ∀ events, ((started settings defaultLanguage).course events).engine.stores.store
      name access = (Store.empty name.word).writeAll (historyOf name events) := by
    intro events
    rw [Stores.store, slot_course hstart]
    cases access <;> rfl
  intro values
  have hvalues : ∀ events,
      values events = ((Store.empty name.word).writeAll (historyOf name events)).values :=
    fun events => congrArg Store.values (hstore events)
  refine ⟨hvalues [], fun events => ?_, fun events event other w hother hne => ?_, fun way w => ?_,
    fun r w => writeTo?_of_asks⟩
  · rw [hvalues]
    exact Store.isLeftBy_writeAll name.word _
  · rw [hvalues, hvalues, historyOf, historyOf, List.filterMap_append,
      List.filterMap_cons_none (writeTo?_eq_none_of_ne hother hne), List.filterMap_nil,
      List.append_nil]
  · rw [Event.writeTo?, Operation.writeTo?, Http.ofWord?_word, if_pos rfl, Option.map_some]

/-- A guest is set and deleted in process, a member is set alone and then merged by requests, and
last the guest is set again. -/
def visit : List Event :=
  [.operation (.writeStore "placeholders" .engine (.set "name" (.text "Guest"))),
    .request (Http.settingMember (.text "Ann")),
    .operation (.writeStore "placeholders" .offered (.delete "name")),
    .request (Http.mergingMember (.text "Ben")),
    .operation (.writeStore "placeholders" .engine (.set "name" (.text "Eve")))]

/-- The member comes before the guest, who was absent in between, and has the value that was merged;
clearing the other store changes nothing. -/
theorem stores_left_by_history_visit :
    let values := fun events =>
      (((started .default none).course events).engine.stores.store .placeholders .engine).values
    let history : List Store.Write := [.set "name" (.text "Guest"), .set "member" (.text "Ann"),
      .delete "name", .update (.ofList [("member", .text "Ben")]), .set "name" (.text "Eve")]
    historyOf .placeholders visit = history ∧
      (values visit).get? "member" = some (.text "Ben") ∧
      (values visit).keys.Pairwise
        (Store.Stroke.Earlier (history.flatMap Store.Write.strokes)) ∧
      values (visit ++ [.operation (.writeStore "variants" .engine .clear)]) = values visit := by
  intro values history
  obtain ⟨-, hleft, hother, -, hrequests⟩ :=
    stores_left_by_history .default none .placeholders .engine
  have hmember : Http.IsSegment "member" := by decide
  have hput : ("PUT" : String).map Char.toUpper = "PUT" := Http.map_toUpper_eq_self (by decide)
  have hpatch : ("PATCH" : String).map Char.toUpper = "PATCH" :=
    Http.map_toUpper_eq_self (by decide)
  have hset : (Event.request (Http.settingMember (.text "Ann"))).writeTo? .placeholders =
      some (.set "member" (Http.stored (.text "Ann"))) :=
    hrequests _ _ (.set hmember ⟨hput, Http.decoded_settingMember _⟩ rfl rfl)
  have hmerge : (Event.request (Http.mergingMember (.text "Ben"))).writeTo? .placeholders =
      some (.update (.ofList [("member", .text "Ben")])) :=
    hrequests _ _ (.update ⟨hpatch, Http.decoded_mergingMember _⟩ rfl)
  have hhistory : historyOf .placeholders visit = history := by
    simp only [historyOf, visit, List.filterMap_cons, hset, hmerge]
    rfl
  have hvisit := hleft visit
  rw [hhistory] at hvisit
  refine ⟨hhistory, (hvisit.get?_eq_iff _ _).2 (.inl ?_), hvisit.keysInOrder.pairwise,
    hother visit _ .variants .clear rfl (by decide)⟩
  let front : List Store.Write :=
    [.set "name" (.text "Guest"), .set "member" (.text "Ann"), .delete "name"]
  exact ⟨front, .update (.ofList [("member", .text "Ben")]), [.set "name" (.text "Eve")], rfl, rfl,
    List.forall_mem_singleton.2 rfl⟩

end Session

end Phrasebook
