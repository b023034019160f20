import Phrasebook.Proofs.Engine.Run

/-! Stores that are offered to an engine. Nothing but the writes to a store changes it, so the store
of a name is after any run what the writes of that name make of it (`slot_run`). An offered store
that holds something becomes the store of the engine: the two ways to it lead to one store. An empty
one is declined, and from then on there are two stores, each with the writes that were made on its
own way (`offered_store_run`). -/

namespace Phrasebook

/-! ### Rows of writes -/

/-- A store after some writes. -/
def Store.writeAll (s : Store) (ws : List Store.Write) : Store :=
  ws.foldl Store.write s

namespace Slot

/-- A slot after some writes on the two ways to it. -/
def writeAll (slot : Slot) (ws : List (Access × Store.Write)) : Slot :=
  ws.foldl (fun slot w => slot.write w.1 w.2) slot

/-- The writes that were made on one way. -/
def through (access : Access) (ws : List (Access × Store.Write)) : List Store.Write :=
  (ws.filter (·.1 = access)).map Prod.snd

/-- Both ways lead to a store that was not declined. -/
theorem writeAll_of_taken (inUse : Store) (ws : List (Access × Store.Write)) :
    writeAll ⟨inUse, none⟩ ws = ⟨inUse.writeAll (ws.map Prod.snd), none⟩ := by
  induction ws generalizing inUse with
  | nil => rfl
  | cons w rest ih =>
      obtain ⟨access, w⟩ := w
      have hwrite : write ⟨inUse, none⟩ access w = ⟨inUse.write w, none⟩ := by
        cases access <;> rfl
      rw [writeAll, List.foldl_cons, hwrite]
      exact ih (inUse.write w)

/-- The ways to a store in use and to a declined one never meet. -/
theorem writeAll_of_declined (inUse declined : Store) (ws : List (Access × Store.Write)) :
    writeAll ⟨inUse, some declined⟩ ws =
      ⟨inUse.writeAll (through .engine ws), some (declined.writeAll (through .offered ws))⟩ := by
  induction ws generalizing inUse declined with
  | nil => rfl
  | cons w rest ih =>
      obtain ⟨access, w⟩ := w
      rw [writeAll, List.foldl_cons]
      cases access with
      | engine => exact ih (inUse.write w) declined
      | offered => exact ih inUse (declined.write w)

end Slot

/-! ### Stores in a run -/

namespace Stores

theorem slot_write_self (s : Stores) (name : StoreName) (access : Access) (w : Store.Write) :
    (s.write name access w).slot name = (s.slot name).write access w := by
  cases name <;> rfl

theorem slot_write_of_ne {name other : StoreName} (h : other ≠ name) (s : Stores)
    (access : Access) (w : Store.Write) : (s.write other access w).slot name = s.slot name := by
  cases name <;> cases other <;> first | rfl | exact absurd rfl h

end Stores

namespace Engine

theorem stores_publish (e : Engine) (built : Except Error Registry × Log) :
    (e.publish built).engine.stores = e.stores := by
  obtain ⟨r, hengine⟩ := e.exists_registry_publish built
  rw [hengine]

theorem stores_useLanguage (e : Engine) (language : Option String) :
    (e.useLanguage language).engine.stores = e.stores := by
  obtain ⟨r, hengine⟩ := e.exists_registry_useLanguage language
  rw [hengine]

theorem stores_addLanguageValue (e : Engine) (language : String) (v : Value) :
    (e.addLanguageValue language v).engine.stores = e.stores := by
  unfold addLanguageValue
  cases Blueprint.ofValue v <;> rfl

end Engine

namespace Session

/-- The way and the write, if an operation writes to the store of this name. -/
def Operation.writeTo? (name : StoreName) : Operation → Option (Access × Store.Write)
  | writeStore store access w =>
      if StoreName.ofWord? store = some name then some (access, w) else none
  | _ => none

/-- The writes of a run to the store of one name. -/
def writesTo (name : StoreName) (ops : List Operation) : List (Access × Store.Write) :=
  ops.filterMap (Operation.writeTo? name)

/-- Of all operations only a write to a store changes it. -/
theorem slot_perform (s : Session) (name : StoreName) (op : Operation) :
    (s.perform op).session.engine.stores.slot name =
      (s.engine.stores.slot name).writeAll (op.writeTo? name).toList := by
  cases op with
  | activate b language => exact congrArg (·.slot name) (s.engine.stores_publish _)
  | activateValue v language => exact congrArg (·.slot name) (s.engine.stores_publish _)
  | useLanguage language => exact congrArg (·.slot name) (s.engine.stores_useLanguage language)
  | addLanguageValue language v =>
      exact congrArg (·.slot name) (s.engine.stores_addLanguageValue language v)
  | writeStore store access w =>
      dsimp only [perform, Operation.writeTo?]
      cases hstore : StoreName.ofWord? store with
      | none =>
          have hnamed : Engine.storeNamed store = .error (.unknownStore store) := by
            rw [Engine.storeNamed, hstore]
          rw [hnamed, if_neg nofun]
          rfl
      | some other =>
          have hnamed : Engine.storeNamed store = .ok other := by
            rw [Engine.storeNamed, hstore]
          rw [hnamed]
          by_cases hname : other = name
          · rw [if_pos (congrArg some hname), hname]
            exact s.engine.stores.slot_write_self name access w
          · rw [if_neg fun h => hname (Option.some.inj h)]
            exact s.engine.stores.slot_write_of_ne hname access w
  | _ => rfl

/-- A store is after a run what the writes to it make of it. -/
theorem slot_run (s : Session) (name : StoreName) (ops : List Operation) :
    (s.run ops).engine.stores.slot name =
      (s.engine.stores.slot name).writeAll (writesTo name ops) := by
  induction ops generalizing s with
  | nil => rfl
  | cons op rest ih =>
      have hrun : s.run (op :: rest) = (s.perform op).session.run rest := rfl
      rw [hrun, ih, slot_perform, writesTo, writesTo, List.filterMap_cons]
      cases op.writeTo? name <;> rfl

end Session

/-! ### Offered stores -/

/-- The one of two that goes with a name. -/
def StoreName.pick {α : Type} (placeholders variants : α) : StoreName → α
  | .placeholders => placeholders
  | .variants => variants

/-- The defaults that a resolution looks up for a name. -/
def Scope.defaults (scope : Scope) (name : StoreName) : Bag :=
  name.pick scope.placeholders scope.variants

theorem Engine.defaults_scope (e : Engine) (settings : Settings) (r : Registry) (name : StoreName) :
    (e.scope settings r).defaults name = (e.stores.store name .engine).values := by
  cases name <;> rfl

namespace Session

/-- A session with an engine that two stores were offered to. -/
def offering (placeholders variants : Store) (catalog : Catalog) (registry : Registry)
    (settings : Settings) : Session :=
  ⟨⟨.ofOffers (some placeholders) (some variants), catalog, registry⟩, settings⟩

variable (placeholders variants : Store) (catalog : Catalog) (registry : Registry)
  (settings : Settings) (name : StoreName)

/-- The stores of a session that two stores were offered to, after some operations. -/
def storesAfter (ops : List Operation) : Stores :=
  ((offering placeholders variants catalog registry settings).run ops).engine.stores

theorem slot_storesAfter (ops : List Operation) :
    (storesAfter placeholders variants catalog registry settings ops).slot name =
      (Slot.ofOffer name (some (name.pick placeholders variants))).writeAll
        (writesTo name ops) := by
  have hstart : .ofOffer name (some (name.pick placeholders variants)) =
      (offering placeholders variants catalog registry settings).engine.stores.slot name := by
    cases name <;> rfl
  rw [hstart]
  exact slot_run _ name ops

variable {placeholders variants name}

/-- A store that holds something is there on both ways. -/
theorem store_of_taken (h : (name.pick placeholders variants).isEmpty = false)
    (ops : List Operation) (access : Access) :
    (storesAfter placeholders variants catalog registry settings ops).store name access =
      (name.pick placeholders variants).writeAll ((writesTo name ops).map Prod.snd) := by
  rw [Stores.store, slot_storesAfter, Slot.ofOffer, h, if_neg Bool.false_ne_true,
    Slot.writeAll_of_taken]
  cases access <;> rfl

/-- In the place of an empty store the engine has its own. -/
theorem store_of_declined (h : (name.pick placeholders variants).isEmpty = true)
    (ops : List Operation) :
    (storesAfter placeholders variants catalog registry settings ops).store name .engine =
        (Store.empty name.word).writeAll (Slot.through .engine (writesTo name ops)) ∧
      (storesAfter placeholders variants catalog registry settings ops).store name .offered =
        (name.pick placeholders variants).writeAll
          (Slot.through .offered (writesTo name ops)) := by
  rw [Stores.store, Stores.store, slot_storesAfter, Slot.ofOffer, h, if_pos rfl,
    Slot.writeAll_of_declined]
  exact ⟨rfl, rfl⟩

/-- What is written through an empty store that was offered does not reach the engine. -/
theorem exists_values_ne (h : (name.pick placeholders variants).isEmpty = true) :
    ∃ ops, ((storesAfter placeholders variants catalog registry settings ops).store name
        .engine).values ≠
      ((storesAfter placeholders variants catalog registry settings ops).store name
        .offered).values := by
  let ops : List Operation := [.writeStore name.word .offered (.set "name" .null)]
  have hwrites : writesTo name ops = [(.offered, .set "name" .null)] := by
    cases name <;> rfl
  obtain ⟨hengine, hoffered⟩ := store_of_declined catalog registry settings h ops
  rw [hwrites] at hengine hoffered
  refine ⟨ops, fun heq => ?_⟩
  rw [hengine, hoffered] at heq
  have hwritten : (((name.pick placeholders variants).values.insert "name" .null).get? "name") =
      some .null := by
    rw [OrderedMap.get?_insert, if_pos rfl]
  have hmissing : ((Store.empty name.word).values.get? "name") = none := rfl
  cases hwritten.symm.trans ((congrArg (·.get? "name") heq).symm.trans hmissing)

/-- **An offered store is the engine's store just if it is not empty when it is offered.** Then it
is after any run the same store on both ways to it, with all writes that were made to its name. An
empty store is declined: the engine starts with an empty store of its own, and each of the two has
the writes that were made on its own way. What resolutions look up is the store of the engine. -/
theorem offered_in_use_iff_nonempty (placeholders variants : Store) (catalog : Catalog)
    (registry : Registry) (settings : Settings) (name : StoreName) :
    let stores := storesAfter placeholders variants catalog registry settings
    let offered := name.pick placeholders variants
    ((∀ ops, ((stores ops).store name .engine).values = ((stores ops).store name .offered).values) ↔
      offered.isEmpty = false) ∧
    (offered.isEmpty = false → ∀ ops access,
      (stores ops).store name access = offered.writeAll ((writesTo name ops).map Prod.snd)) ∧
    (offered.isEmpty = true → ∀ ops,
      (stores ops).store name .engine =
        (Store.empty name.word).writeAll (Slot.through .engine (writesTo name ops)) ∧
      (stores ops).store name .offered =
        offered.writeAll (Slot.through .offered (writesTo name ops))) ∧
    ∀ ops r, let s := (offering placeholders variants catalog registry settings).run ops
      (s.engine.scope s.settings r).defaults name = ((stores ops).store name .engine).values := by
  intro stores offered
  refine ⟨⟨fun hsame => ?_, fun hfull ops => ?_⟩, store_of_taken catalog registry settings,
    store_of_declined catalog registry settings, fun ops r => Engine.defaults_scope _ _ r name⟩
  · rw [Bool.eq_false_iff]
    intro hempty
    obtain ⟨ops, hne⟩ := exists_values_ne catalog registry settings hempty
    exact hne (hsame ops)
  · have hstores := store_of_taken catalog registry settings hfull ops
    exact congrArg Store.values ((hstores .engine).trans (hstores .offered).symm)

/-- A guest list that is offered is kept; an empty store of moods is not. -/
theorem offered_in_use_iff_nonempty_guests :
    let guests : Store := ⟨"placeholders", .ofList [("name", .text "Guest")]⟩
    let stores := storesAfter guests (.empty "moods") (.empty "en") .empty .default
      [.writeStore "placeholders" .offered (.set "name" (.text "Ann")),
        .writeStore "variants" .offered (.set "mood" (.text "calm"))]
    stores.store .placeholders .engine = ⟨"placeholders", .ofList [("name", .text "Ann")]⟩ ∧
      stores.store .variants .engine = .empty "variants" ∧
        stores.store .variants .offered = ⟨"moods", .ofList [("mood", .text "calm")]⟩ := by
  intro guests stores
  obtain ⟨-, hguests, -⟩ := offered_in_use_iff_nonempty guests (.empty "moods") (.empty "en") .empty
    .default .placeholders
  obtain ⟨-, -, hmoods, -⟩ := offered_in_use_iff_nonempty guests (.empty "moods") (.empty "en")
    .empty .default .variants
  obtain ⟨hengine, hoffered⟩ := hmoods rfl
    [.writeStore "placeholders" .offered (.set "name" (.text "Ann")),
      .writeStore "variants" .offered (.set "mood" (.text "calm"))]
  exact ⟨(hguests rfl _ .engine).trans rfl, hengine.trans rfl, hoffered.trans rfl⟩

/-- An empty store that was offered is not the one in use. -/
theorem not_offered_in_use : ¬ ∀ (placeholders variants : Store) (ops : List Operation)
    (name : StoreName),
    let stores := storesAfter placeholders variants (.empty "en") .empty .default ops
    (stores.store name .engine).values = (stores.store name .offered).values := by
  intro h
  have hvalues := h (.empty "placeholders") (.empty "variants")
    [.writeStore "placeholders" .offered (.set "name" (.text "Guest"))] .placeholders
  cases congrArg (·.get? "name") hvalues

end Session

end Phrasebook
