import Phrasebook.Proofs.Engine.Run

/-! The languages of a catalog. Of all operations only registrations and removals change what a
language has, and the last of them counts (`blueprint?_run_iff`). So after any run a request is
served by the language that it names, if that was registered and not removed since, and else by the
default language on the same terms (`serving?_run_iff`); and whatever serves a request is what an
engine publishes for it (`served_by_latest`). -/

namespace Phrasebook

/-! ### Requests that nothing serves -/

namespace Catalog

variable {c : Catalog} {language : Option String}

theorem requested_eq_some_iff {l : String} :
    requested language = some l ↔ language = some l ∧ l ≠ "" := by
  constructor
  · intro h
    obtain rfl := eq_some_of_requested h
    refine ⟨rfl, ?_⟩
    rintro rfl
    cases h
  · rintro ⟨rfl, hne⟩
    rw [requested, if_neg fun hempty => hne (String.isEmpty_iff.1 hempty)]

/-- The language that an error names: the one that was asked for, and else the default one. -/
def blamed (c : Catalog) (language : Option String) : String :=
  (requested language).getD c.defaultLanguage

theorem eq_unknownLanguage_of_resolveLanguage {x : Error}
    (h : (c.resolveLanguage language).1 = .error x) : x = .unknownLanguage (c.blamed language) := by
  unfold resolveLanguage at h
  unfold blamed
  cases hasked : requested language with
  | none =>
      simp only [hasked] at h
      split at h
      · cases h
      · cases h
        rfl
  | some l =>
      simp only [hasked] at h
      split at h
      · cases h
      · split at h
        · cases h
        · cases h
          rfl

/-- The result of resolving a language: the one that serves the request, or an error. -/
theorem result_resolveLanguage (c : Catalog) (language : Option String) :
    (c.resolveLanguage language).1 =
      match c.serving? language with
      | some (code, _) => .ok code
      | none => .error (.unknownLanguage (c.blamed language)) := by
  have hlanguage := c.resolveLanguage_eq_serving? language
  cases hresult : (c.resolveLanguage language).1 with
  | error x =>
      rw [hresult] at hlanguage
      cases hserving : c.serving? language with
      | some served =>
          rw [hserving] at hlanguage
          cases hlanguage
      | none => rw [eq_unknownLanguage_of_resolveLanguage hresult]
  | ok code =>
      rw [hresult] at hlanguage
      cases hserving : c.serving? language with
      | some served =>
          rw [hserving] at hlanguage
          exact congrArg Except.ok (Option.some.inj hlanguage)
      | none =>
          rw [hserving] at hlanguage
          cases hlanguage

/-- The result of asking for a blueprint: that of the language that serves the request, or an
error. -/
theorem result_get (c : Catalog) (language : Option String) :
    (c.get language).1 =
      match c.serving? language with
      | some (_, b) => .ok b
      | none => .error (.unknownLanguage (c.blamed language)) := by
  have hresult := c.result_resolveLanguage language
  rw [get]
  rcases hresolve : c.resolveLanguage language with ⟨result, log⟩
  rw [hresolve] at hresult
  cases hserving : c.serving? language with
  | none =>
      simp only [hserving] at hresult
      cases hresult
      rfl
  | some served =>
      obtain ⟨code, b⟩ := served
      simp only [hserving] at hresult
      cases hresult
      simp only [(serving?_again hserving).1]

end Catalog

namespace Engine

variable {e : Engine} {language : Option String}

theorem useLanguage_of_unknown (h : e.catalog.serving? language = none) :
    (e.useLanguage language).result = .error (.unknownLanguage (e.catalog.blamed language)) ∧
      (e.useLanguage language).engine = e := by
  have hresult := e.catalog.result_resolveLanguage language
  rw [h] at hresult
  rw [useLanguage]
  rcases hresolve : e.catalog.resolveLanguage language with ⟨result, log⟩
  rw [hresolve] at hresult
  cases hresult
  exact ⟨rfl, rfl⟩

end Engine

/-! ### What a language has after a run -/

namespace Session

namespace Operation

/-- An operation registers a blueprint for a language, and does not fail. -/
def Registers (op : Operation) (language : String) (b : Blueprint) : Prop :=
  op = .addLanguage language b ∨
    ∃ v, op = .addLanguageValue language v ∧ Blueprint.ofValue v = .ok b

/-- An operation leaves what a language has. -/
def Spares (op : Operation) (language : String) : Prop :=
  (∀ b, ¬ op.Registers language b) ∧ op ≠ .removeLanguage language

end Operation

/-- The last operations on a language, if there are any, registered this blueprint for it: it was
not registered again since, nor removed. -/
def Registered (ops : List Operation) (language : String) (b : Blueprint) : Prop :=
  ∃ front op back, ops = front ++ op :: back ∧ op.Registers language b ∧
    ∀ later ∈ back, later.Spares language

variable {s : Session} {op : Operation} {ops : List Operation} {language : String} {b : Blueprint}

theorem registered_concat_iff : Registered (ops ++ [op]) language b ↔
    op.Registers language b ∨ (op.Spares language ∧ Registered ops language b) := by
  unfold Registered
  simp only [concat_eq_append_cons_iff]
  constructor
  · rintro ⟨front, last, back, ⟨-, rfl, -⟩ | ⟨between, hops, rfl⟩, hregisters, hback⟩
    · exact .inl hregisters
    · rw [List.forall_mem_append, List.forall_mem_singleton] at hback
      exact .inr ⟨hback.2, front, last, between, hops, hregisters, hback.1⟩
  · rintro (hregisters | ⟨hspares, front, last, between, hops, hregisters, hback⟩)
    · exact ⟨ops, op, [], .inl ⟨rfl, rfl, rfl⟩, hregisters, nofun⟩
    · refine ⟨front, last, between ++ [op], .inr ⟨between, hops, rfl⟩, hregisters, ?_⟩
      rw [List.forall_mem_append, List.forall_mem_singleton]
      exact ⟨hback, hspares⟩

/-- The blueprint of a language in a session, if it has one. -/
def blueprint? (s : Session) (language : String) : Option Blueprint :=
  s.engine.catalog.blueprints.get? language

theorem blueprint?_perform_of_registers (h : op.Registers language b) :
    (s.perform op).session.blueprint? language = some b := by
  rcases h with rfl | ⟨v, rfl, hv⟩
  · exact (OrderedMap.get?_insert _ _ _ _).trans (if_pos rfl)
  · dsimp only [perform, stepped, Engine.addLanguageValue]
    rw [hv]
    exact (OrderedMap.get?_insert _ _ _ _).trans (if_pos rfl)

theorem blueprint?_perform_removeLanguage :
    (s.perform (.removeLanguage language)).session.blueprint? language = none :=
  (OrderedMap.get?_erase _ _ _).trans (if_pos rfl)

theorem blueprint?_perform_of_spares (h : op.Spares language) :
    (s.perform op).session.blueprint? language = s.blueprint? language := by
  cases op with
  | activate b' language' =>
      obtain ⟨r, hengine⟩ := s.engine.exists_registry_publish (Engine.build b' language')
      exact congrArg (·.catalog.blueprints.get? language) hengine
  | activateValue v language' =>
      obtain ⟨r, hengine⟩ := s.engine.exists_registry_publish (Engine.buildValue v language')
      exact congrArg (·.catalog.blueprints.get? language) hengine
  | useLanguage language' =>
      obtain ⟨r, hengine⟩ := s.engine.exists_registry_useLanguage language'
      exact congrArg (·.catalog.blueprints.get? language) hengine
  | addLanguage other b' =>
      have hne : language ≠ other := by
        rintro rfl
        exact h.1 b' (.inl rfl)
      exact (OrderedMap.get?_insert _ _ _ _).trans (if_neg hne)
  | addLanguageValue other v =>
      dsimp only [perform, stepped, Engine.addLanguageValue]
      cases hv : Blueprint.ofValue v with
      | error x => rfl
      | ok b' =>
          have hne : language ≠ other := by
            rintro rfl
            exact h.1 b' (.inr ⟨v, rfl, hv⟩)
          exact (OrderedMap.get?_insert _ _ _ _).trans (if_neg hne)
  | removeLanguage other =>
      have hne : language ≠ other := by
        rintro rfl
        exact h.2 rfl
      exact (OrderedMap.get?_erase _ _ _).trans (if_neg hne)
  | writeStore store access w =>
      dsimp only [perform]
      cases Engine.storeNamed store <;> rfl
  | _ => rfl

/-- **The last operation on a language counts.** -/
theorem blueprint?_perform_eq_some_iff : (s.perform op).session.blueprint? language = some b ↔
    op.Registers language b ∨ (op.Spares language ∧ s.blueprint? language = some b) := by
  by_cases hremoval : op = .removeLanguage language
  · subst hremoval
    rw [blueprint?_perform_removeLanguage]
    refine iff_of_false nofun ?_
    rintro ((h | ⟨v, h, -⟩) | ⟨hspares, -⟩)
    · cases h
    · cases h
    · exact hspares.2 rfl
  · by_cases hregisters : ∃ b', op.Registers language b'
    · obtain ⟨b', hb'⟩ := hregisters
      have hnot : ¬ op.Spares language := fun hspares => hspares.1 b' hb'
      rw [blueprint?_perform_of_registers hb']
      constructor
      · intro heq
        cases heq
        exact .inl hb'
      · rintro (hb | ⟨hspares, -⟩)
        · exact (blueprint?_perform_of_registers hb').symm.trans
            (blueprint?_perform_of_registers (s := s) hb)
        · exact absurd hspares hnot
    · have hnone : ∀ b', ¬ op.Registers language b' := not_exists.1 hregisters
      have hspares : op.Spares language := ⟨hnone, hremoval⟩
      rw [blueprint?_perform_of_spares hspares]
      exact ⟨fun hb => .inr ⟨hspares, hb⟩, fun h => (h.resolve_left (hnone b)).2⟩

theorem blueprint?_run_iff (hstart : s.blueprint? language = none) :
    (s.run ops).blueprint? language = some b ↔ Registered ops language b := by
  induction ops using List.reverseRecOn generalizing b with
  | nil =>
      refine iff_of_false (fun h => ?_) ?_
      · exact Option.some_ne_none b (h.symm.trans hstart)
      · rintro ⟨front, op, back, heq, -⟩
        exact List.append_ne_nil_of_right_ne_nil front (List.cons_ne_nil op back) heq.symm
  | append_singleton ops op ih =>
      have hrun : s.run (ops ++ [op]) = ((s.run ops).perform op).session := List.foldl_append
      rw [hrun, blueprint?_perform_eq_some_iff, registered_concat_iff, ih]

/-- The default language of a catalog stays. -/
theorem defaultLanguage_perform (s : Session) (op : Operation) :
    (s.perform op).session.engine.catalog.defaultLanguage = s.engine.catalog.defaultLanguage := by
  cases op with
  | activate b language =>
      obtain ⟨r, hengine⟩ := s.engine.exists_registry_publish (Engine.build b language)
      exact congrArg (·.catalog.defaultLanguage) hengine
  | activateValue v language =>
      obtain ⟨r, hengine⟩ := s.engine.exists_registry_publish (Engine.buildValue v language)
      exact congrArg (·.catalog.defaultLanguage) hengine
  | useLanguage language =>
      obtain ⟨r, hengine⟩ := s.engine.exists_registry_useLanguage language
      exact congrArg (·.catalog.defaultLanguage) hengine
  | addLanguageValue language v =>
      dsimp only [perform, stepped, Engine.addLanguageValue]
      cases Blueprint.ofValue v <;> rfl
  | writeStore store access w =>
      dsimp only [perform]
      cases Engine.storeNamed store <;> rfl
  | _ => rfl

theorem defaultLanguage_run (s : Session) (ops : List Operation) :
    (s.run ops).engine.catalog.defaultLanguage = s.engine.catalog.defaultLanguage := by
  induction ops generalizing s with
  | nil => rfl
  | cons op rest ih => exact (ih (s.perform op).session).trans (s.defaultLanguage_perform op)

/-! ### What serves a request after a run -/

/-- The language that serves a request after some operations, with its blueprint: the one that is
asked for by a name that is not empty, and else the default language. -/
def Serves (ops : List Operation) (default : String) (language : Option String) (code : String)
    (b : Blueprint) : Prop :=
  (language = some code ∧ code ≠ "" ∧ Registered ops code b) ∨
    (code = default ∧ Registered ops default b ∧
      ∀ l, language = some l → l ≠ "" → ∀ b', ¬ Registered ops l b')

/-- A session whose catalog starts out empty. -/
def withDefault (stores : Stores) (registry : Registry) (settings : Settings) (default : String) :
    Session :=
  ⟨⟨stores, .empty default, registry⟩, settings⟩

section

variable {stores : Stores} {registry : Registry} {settings : Settings} {default : String}
  {language : Option String} {code : String}

theorem serving?_run_iff :
    ((withDefault stores registry settings default).run ops).engine.catalog.serving? language =
      some (code, b) ↔ Serves ops default language code b := by
  have hrun : ∀ l b, ((withDefault stores registry settings default).run
      ops).engine.catalog.blueprints.get? l = some b ↔ Registered ops l b :=
    fun l b => blueprint?_run_iff rfl
  have hdefault := (withDefault stores registry settings default).defaultLanguage_run ops
  generalize ((withDefault stores registry settings default).run ops).engine.catalog = c
    at hrun hdefault
  have hasked : (Catalog.requested language).bind c.blueprintOf? = some (code, b) ↔
      language = some code ∧ code ≠ "" ∧ Registered ops code b := by
    rw [Option.bind_eq_some_iff]
    simp only [Catalog.blueprintOf?_eq_some_iff, Catalog.requested_eq_some_iff, hrun]
    constructor
    · rintro ⟨l, ⟨hl, hne⟩, rfl, hb⟩
      exact ⟨hl, hne, hb⟩
    · rintro ⟨hl, hne, hb⟩
      exact ⟨code, ⟨hl, hne⟩, rfl, hb⟩
  have hunasked : (Catalog.requested language).bind c.blueprintOf? = none ↔
      ∀ l, language = some l → l ≠ "" → ∀ b', ¬ Registered ops l b' := by
    rw [Option.bind_eq_none_iff]
    refine forall_congr' fun l => ?_
    rw [Catalog.requested_eq_some_iff, and_imp, Catalog.blueprintOf?, Option.map_eq_none_iff,
      Option.eq_none_iff_forall_ne_some]
    simp only [ne_eq, hrun]
  rw [Catalog.serving?, Option.or_eq_some_iff, hasked, hunasked, Catalog.blueprintOf?_eq_some_iff,
    hdefault, Serves]
  refine or_congr_right ?_
  constructor
  · rintro ⟨hnone, rfl, hb⟩
    exact ⟨rfl, (hrun _ _).1 hb, hnone⟩
  · rintro ⟨rfl, hb, hnone⟩
    exact ⟨hnone, rfl, (hrun _ _).2 hb⟩

end

/-- **The latest registration serves, and else that of the default language.** After any operations
on an engine whose catalog starts out empty, those that fail included: where the language that is
asked for, or else the default one, was registered and not removed since, it serves the request with
the blueprint of its latest registration, and it serves a request for itself; using the language
publishes the registry of that blueprint under the name of the language that serves, if it can be
built. Where neither was, the error names the language that was asked for, or the default one if
none was, and nothing changes. -/
theorem served_by_latest (stores : Stores) (registry : Registry) (settings : Settings)
    (default : String) (ops : List Operation) (language : Option String) :
    let e := ((withDefault stores registry settings default).run ops).engine
    let used := e.useLanguage language
    (∀ code b, Serves ops default language code b →
      (e.catalog.get language).1 = .ok b ∧
      (e.catalog.resolveLanguage language).1 = .ok code ∧
      (e.catalog.resolveLanguage (some code)).1 = .ok code ∧
      (∀ r, (Registry.build b (some code)).1 = .ok r →
        used.result = .ok r ∧ used.engine = ⟨e.stores, e.catalog, r⟩ ∧
          used.engine.activeLanguage = some code) ∧
      (∀ count, (Registry.build b (some code)).1 = .error count →
        used.result = .error (.oversizedNumber count) ∧ used.engine = e)) ∧
    ((∀ code b, ¬ Serves ops default language code b) →
      let x := Error.unknownLanguage ((Catalog.requested language).getD default)
      (e.catalog.get language).1 = .error x ∧ (e.catalog.resolveLanguage language).1 = .error x ∧
        used.result = .error x ∧ used.engine = e) := by
  intro e used
  constructor
  · intro code b hserves
    have hserving : e.catalog.serving? language = some (code, b) := serving?_run_iff.2 hserves
    have hagain := (Catalog.serving?_again hserving).2
    have hused : used.result = (e.activate b (some code)).result ∧
        used.engine = (e.activate b (some code)).engine := Engine.useLanguage_of_serving hserving
    refine ⟨?_, ?_, ?_, fun r hbuild => ?_, fun count hbuild => ?_⟩
    · rw [Catalog.result_get, hserving]
    · rw [Catalog.result_resolveLanguage, hserving]
    · rw [Catalog.result_resolveLanguage, hagain]
    · have hactivate : (e.activate b (some code)).result = .ok r ∧
          (e.activate b (some code)).engine = ⟨e.stores, e.catalog, r⟩ :=
        Engine.activate_of_ok hbuild
      have hlanguage : r.language = some code := by
        rw [(Registry.build_eq_ok_iff.1 hbuild).2, Registry.ofBlueprint]
      refine ⟨hused.1.trans hactivate.1, hused.2.trans hactivate.2, ?_⟩
      rw [hused.2, hactivate.2]
      exact hlanguage
    · have hactivate : (e.activate b (some code)).result = .error (.oversizedNumber count) ∧
          (e.activate b (some code)).engine = e := Engine.activate_of_error hbuild
      exact ⟨hused.1.trans hactivate.1, hused.2.trans hactivate.2⟩
  · intro hnone x
    have hserving : e.catalog.serving? language = none := by
      rw [Option.eq_none_iff_forall_ne_some]
      rintro ⟨code, b⟩ hsome
      exact hnone code b (serving?_run_iff.1 hsome)
    have hblamed : e.catalog.blamed language = (Catalog.requested language).getD default := by
      rw [Catalog.blamed, defaultLanguage_run]
      rfl
    obtain ⟨hresult, hengine⟩ := Engine.useLanguage_of_unknown hserving
    rw [hblamed] at hresult
    refine ⟨?_, ?_, hresult, hengine⟩
    · rw [Catalog.result_get, hserving, hblamed]
    · rw [Catalog.result_resolveLanguage, hserving, hblamed]

/-- A blueprint with one constant. -/
def sign (text : String) : Blueprint :=
  ⟨.ofList [("signs", .ofList [("welcome", .text text)])], .empty⟩

/-- Two languages are registered, one of them a second time with data that is no blueprint, and the
other one is removed after it was used. -/
def reception : List Operation :=
  [.addLanguage "en" (sign "Hello"), .addLanguage "de" (sign "Hallo"),
    .addLanguageValue "en" (.text "Hi"), .useLanguage (some "de"), .removeLanguage "de"]

/-- The default language serves for the one that was removed; once it is removed too, a request that
names no language is told so. -/
theorem served_by_latest_reception :
    let stores := Stores.ofOffers none none
    let e := ((withDefault stores .empty .default "en").run reception).engine
    let closed := ((withDefault stores .empty .default "en").run
      (reception ++ [.removeLanguage "en"])).engine
    let r : Registry := ⟨some "en", .ofList [("welcome", .constant (.text "Hello"))]⟩
    (Serves reception "en" (some "de") "en" (sign "Hello") ∧
      (e.catalog.get (some "de")).1 = .ok (sign "Hello") ∧
      (e.useLanguage (some "de")).engine = ⟨stores, e.catalog, r⟩) ∧
    ((∀ code b, ¬ Serves (reception ++ [.removeLanguage "en"]) "en" (some "") code b) ∧
      (closed.catalog.get (some "")).1 = .error (.unknownLanguage "en") ∧
      (closed.useLanguage (some "")).engine = closed) := by
  intro stores e closed r
  let start := withDefault stores .empty .default "en"
  have hhello : Registered reception "en" (sign "Hello") :=
    (blueprint?_run_iff (s := start) rfl).1 rfl
  have hremoved : ∀ b, ¬ Registered reception "de" b := fun b hb =>
    Option.some_ne_none b (((blueprint?_run_iff (s := start) rfl).2 hb).symm.trans rfl)
  have hclosed : ∀ b, ¬ Registered (reception ++ [.removeLanguage "en"]) "en" b := fun b hb =>
    Option.some_ne_none b (((blueprint?_run_iff (s := start) rfl).2 hb).symm.trans rfl)
  have hserves : Serves reception "en" (some "de") "en" (sign "Hello") := by
    refine .inr ⟨rfl, hhello, ?_⟩
    rintro l ⟨⟩ -
    exact hremoved
  have hnone : ∀ code b,
      ¬ Serves (reception ++ [.removeLanguage "en"]) "en" (some "") code b := by
    rintro code b (⟨⟨⟩, hne, -⟩ | ⟨-, hb, -⟩)
    · exact hne rfl
    · exact hclosed b hb
  obtain ⟨hget, -, -, hbuilt, -⟩ :=
    (served_by_latest stores .empty .default "en" reception (some "de")).1 "en" _ hserves
  obtain ⟨herror, -, -, hsame⟩ :=
    (served_by_latest stores .empty .default "en" _ (some "")).2 hnone
  exact ⟨⟨hserves, hget, (hbuilt r rfl).2.1⟩, hnone, herror, hsame⟩

end Session

end Phrasebook
