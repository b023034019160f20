import Phrasebook.Engine
import Phrasebook.Proofs.Registry.Building

/-! Runs of an engine. Whatever is done with an engine, every operation either publishes the whole
registry of the blueprint that it asks for, or it leaves the published registry as it is
(`perform_publishes`). So after any run the published registry is that of the last activation that
did not fail (`registry_of_last_activation`), and it does not matter what the catalog, the stores
and earlier blueprints hold. In particular its phrases go by the keys under which they stand
(`keyed_run`). -/

namespace Phrasebook

/-- An engine in use, with the settings that are in force. -/
structure Session where
  engine : Engine
  settings : Settings

namespace Session

/-! ### Operations -/

/-- What can be done with an engine. Blueprints come as such or as raw data that is still to be
read; the builds publish nothing; the store of a write is spelled out. -/
inductive Operation
  | activate (b : Blueprint) (language : Option String)
  | activateValue (v : Value) (language : Option String)
  | useLanguage (language : Option String)
  | addLanguage (language : String) (b : Blueprint)
  | addLanguageValue (language : String) (v : Value)
  | removeLanguage (language : String)
  | writeStore (store : String) (access : Access) (w : Store.Write)
  | build (b : Blueprint) (language : Option String)
  | buildValue (v : Value) (language : Option String)
  | resolve (key : String) (bag : Bag)
  | resolveStatic (key : String) (bag : Bag)
  | resolveDynamic (key : String) (bag : Bag)
  | renderEntry (r : Registry) (key : String) (bag : Bag)
  | reload (env : Environment)

/-- The error of an operation that failed. -/
def failureOf {α : Type} : Except Error α → Option Error
  | .ok _ => none
  | .error x => some x

/-- The session after an operation, and its error if it failed. -/
structure Performed where
  failure : Option Error
  session : Session

/-- A session after a step of its engine. -/
def stepped {α : Type} (s : Session) (step : Engine.Step α) : Performed :=
  ⟨failureOf step.result, ⟨step.engine, s.settings⟩⟩

def perform (s : Session) : Operation → Performed
  | .activate b language => s.stepped (s.engine.activate b language)
  | .activateValue v language => s.stepped (s.engine.activateValue v language)
  | .useLanguage language => s.stepped (s.engine.useLanguage language)
  | .addLanguage language b => ⟨none, ⟨(s.engine.addLanguage language b).1, s.settings⟩⟩
  | .addLanguageValue language v => s.stepped (s.engine.addLanguageValue language v)
  | .removeLanguage language => ⟨none, ⟨s.engine.removeLanguage language, s.settings⟩⟩
  | .writeStore store access w =>
      match Engine.storeNamed store with
      | .error x => ⟨some x, s⟩
      | .ok name => ⟨none, ⟨(s.engine.writeStore name access w).1, s.settings⟩⟩
  | .build b language => ⟨failureOf (Engine.build b language).1, s⟩
  | .buildValue v language => ⟨failureOf (Engine.buildValue v language).1, s⟩
  | .resolve key bag => ⟨failureOf (s.engine.resolve s.settings key bag).result, s⟩
  | .resolveStatic key bag => ⟨failureOf (s.engine.resolveStatic key bag).result, s⟩
  | .resolveDynamic key bag => ⟨failureOf (s.engine.resolveDynamic s.settings key bag).result, s⟩
  | .renderEntry r key bag => ⟨failureOf (s.engine.renderEntry s.settings r key bag).result, s⟩
  | .reload env => ⟨(s.settings.reload env).2, ⟨s.engine, (s.settings.reload env).1⟩⟩

/-- The session after some operations, those that fail included. -/
def run (s : Session) (ops : List Operation) : Session :=
  ops.foldl (fun s op => (s.perform op).session) s

end Session

/-! ### Rows that grow at their end -/

/-- Where a row with one more item can be split: at that item, or where it could be split before. -/
theorem concat_eq_append_cons_iff {α : Type} {l front back : List α} {last x : α} :
    l ++ [last] = front ++ x :: back ↔ (l = front ∧ last = x ∧ back = []) ∨
      ∃ between, l = front ++ x :: between ∧ back = between ++ [last] := by
  constructor
  · intro h
    rcases List.eq_nil_or_concat back with rfl | ⟨between, final, rfl⟩
    · obtain ⟨hl, hlast⟩ := List.append_inj' h rfl
      cases hlast
      exact .inl ⟨hl, rfl, rfl⟩
    · rw [List.concat_eq_append, ← List.cons_append, ← List.append_assoc] at h
      obtain ⟨hl, hlast⟩ := List.append_inj' h rfl
      cases hlast
      exact .inr ⟨between, hl, List.concat_eq_append⟩
  · rintro (⟨rfl, rfl, rfl⟩ | ⟨between, rfl, rfl⟩)
    · rfl
    · simp

/-! ### The language that serves a request -/

namespace Catalog

variable {c : Catalog} {language : Option String} {code : String} {b : Blueprint}

/-- A language with its blueprint, if it has one. -/
def blueprintOf? (c : Catalog) (language : String) : Option (String × Blueprint) :=
  (c.blueprints.get? language).map (language, ·)

/-- The requested language, or else the default language: the first of the two that has a
blueprint. -/
def serving? (c : Catalog) (language : Option String) : Option (String × Blueprint) :=
  ((requested language).bind c.blueprintOf?).or (c.blueprintOf? c.defaultLanguage)

theorem blueprintOf?_eq_some_iff {l : String} :
    c.blueprintOf? l = some (code, b) ↔ l = code ∧ c.blueprints.get? code = some b := by
  rw [blueprintOf?, Option.map_eq_some_iff]
  constructor
  · rintro ⟨b', hb', hpair⟩
    cases hpair
    exact ⟨rfl, hb'⟩
  · rintro ⟨rfl, hb⟩
    exact ⟨b, hb, rfl⟩

theorem exists_blueprintOf?_of_contains {l : String} (h : c.contains l = true) :
    ∃ b, c.blueprintOf? l = some (l, b) := by
  rw [contains, OrderedMap.contains, Option.isSome_iff_exists] at h
  obtain ⟨b, hb⟩ := h
  exact ⟨b, blueprintOf?_eq_some_iff.2 ⟨rfl, hb⟩⟩

theorem blueprintOf?_eq_none_of_not_contains {l : String} (h : ¬ c.contains l = true) :
    c.blueprintOf? l = none := by
  rw [contains, OrderedMap.contains, Option.not_isSome_iff_eq_none] at h
  rw [blueprintOf?, h]
  rfl

/-- Resolving a language finds the one that serves the request. -/
theorem resolveLanguage_eq_serving? (c : Catalog) (language : Option String) :
    (c.resolveLanguage language).1.toOption = (c.serving? language).map Prod.fst := by
  unfold serving? resolveLanguage
  cases requested language with
  | none =>
      by_cases hdefault : c.contains c.defaultLanguage = true
      · obtain ⟨b, hb⟩ := exists_blueprintOf?_of_contains hdefault
        simp [hdefault, hb, Except.toOption]
      · have hb := blueprintOf?_eq_none_of_not_contains hdefault
        simp [hdefault, hb, Except.toOption]
  | some l =>
      by_cases hl : c.contains l = true
      · obtain ⟨b, hb⟩ := exists_blueprintOf?_of_contains hl
        simp [hl, hb, Except.toOption]
      · have hnone := blueprintOf?_eq_none_of_not_contains hl
        by_cases hdefault : c.contains c.defaultLanguage = true
        · obtain ⟨b, hb⟩ := exists_blueprintOf?_of_contains hdefault
          simp [hl, hnone, hdefault, hb, Except.toOption]
        · have hb := blueprintOf?_eq_none_of_not_contains hdefault
          simp [hl, hnone, hdefault, hb, Except.toOption]

theorem eq_some_of_requested {l : String} (h : requested language = some l) :
    language = some l := by
  unfold requested at h
  split at h
  · next l' =>
      split at h
      · cases h
      · exact h
  · cases h

/-- A language that serves a request has its blueprint, and serves a request for itself. -/
theorem serving?_again (h : c.serving? language = some (code, b)) :
    c.blueprints.get? code = some b ∧ c.serving? (some code) = some (code, b) := by
  rw [serving?, Option.or_eq_some_iff] at h
  rcases h with hasked | ⟨-, hdefault⟩
  · obtain ⟨l, hl, hentry⟩ := Option.bind_eq_some_iff.1 hasked
    obtain ⟨rfl, hb⟩ := blueprintOf?_eq_some_iff.1 hentry
    have hlanguage := eq_some_of_requested hl
    rw [← hlanguage, serving?, hl, Option.bind_some, hentry, Option.some_or]
    exact ⟨hb, rfl⟩
  · obtain ⟨rfl, hb⟩ := blueprintOf?_eq_some_iff.1 hdefault
    refine ⟨hb, ?_⟩
    -- the name of the default language may be empty, and then it is not what was asked for
    rw [serving?]
    cases hasked : requested (some c.defaultLanguage) with
    | none => exact hdefault
    | some l =>
        cases eq_some_of_requested hasked
        rw [Option.bind_some, hdefault, Option.some_or]

/-- The blueprint of the language that serves a request. -/
theorem get_eq_serving? (c : Catalog) (language : Option String) :
    (c.get language).1.toOption = (c.serving? language).map Prod.snd := by
  have hlanguage := c.resolveLanguage_eq_serving? language
  unfold get
  rcases hresolve : c.resolveLanguage language with ⟨result, log⟩
  rw [hresolve] at hlanguage
  cases hserving : c.serving? language with
  | none =>
      rw [hserving] at hlanguage
      cases result with
      | ok code => cases hlanguage
      | error x => rfl
  | some served =>
      obtain ⟨code, b⟩ := served
      rw [hserving] at hlanguage
      cases result with
      | ok code' =>
          cases hlanguage
          simp only [(serving?_again hserving).1]
          rfl
      | error x => cases hlanguage

end Catalog

namespace Engine

variable {e : Engine} {language : Option String}

theorem useLanguage_of_serving {code : String} {b : Blueprint}
    (h : e.catalog.serving? language = some (code, b)) :
    (e.useLanguage language).result = (e.activate b (some code)).result ∧
      (e.useLanguage language).engine = (e.activate b (some code)).engine := by
  have hlanguage := e.catalog.resolveLanguage_eq_serving? language
  have hget := e.catalog.get_eq_serving? (some code)
  rw [h] at hlanguage
  rw [(Catalog.serving?_again h).2] at hget
  unfold useLanguage
  rcases hresolve : e.catalog.resolveLanguage language with ⟨result, log⟩
  rw [hresolve] at hlanguage
  cases result with
  | error x => cases hlanguage
  | ok code' =>
      cases hlanguage
      dsimp only
      rcases hfound : e.catalog.get (some code) with ⟨found, more⟩
      rw [hfound] at hget
      cases found with
      | error x => cases hget
      | ok b' =>
          cases hget
          exact ⟨rfl, rfl⟩

theorem useLanguage_of_not_serving (h : e.catalog.serving? language = none) :
    ∃ x, (e.useLanguage language).result = .error x ∧ (e.useLanguage language).engine = e := by
  have hlanguage := e.catalog.resolveLanguage_eq_serving? language
  rw [h] at hlanguage
  unfold useLanguage
  rcases hresolve : e.catalog.resolveLanguage language with ⟨result, log⟩
  rw [hresolve] at hlanguage
  cases result with
  | error x => exact ⟨x, rfl, rfl⟩
  | ok code => cases hlanguage

section

variable {e : Engine} {b : Blueprint} {language : Option String}

theorem activate_of_ok {r : Registry} (h : (Registry.build b language).1 = .ok r) :
    (e.activate b language).result = .ok r ∧
      (e.activate b language).engine = ⟨e.stores, e.catalog, r⟩ := by
  rw [activate, build]
  rcases hbuild : Registry.build b language with ⟨built, log⟩
  rw [hbuild] at h
  cases h
  exact ⟨rfl, rfl⟩

theorem activate_of_error {count : Nat} (h : (Registry.build b language).1 = .error count) :
    (e.activate b language).result = .error (.oversizedNumber count) ∧
      (e.activate b language).engine = e := by
  rw [activate, build]
  rcases hbuild : Registry.build b language with ⟨built, log⟩
  rw [hbuild] at h
  cases h
  exact ⟨rfl, rfl⟩

end

/-- An activation publishes the registry of its blueprint, or fails and changes nothing. -/
theorem activate_cases (e : Engine) (b : Blueprint) (language : Option String) :
    (∃ x, (e.activate b language).result = .error x ∧ (e.activate b language).engine = e) ∨
      ∃ r, (Registry.build b language).1 = .ok r ∧ (e.activate b language).result = .ok r ∧
        (e.activate b language).engine = ⟨e.stores, e.catalog, r⟩ := by
  cases hbuild : (Registry.build b language).1 with
  | error count => exact .inl ⟨_, activate_of_error hbuild⟩
  | ok r => exact .inr ⟨r, rfl, activate_of_ok hbuild⟩

/-- What was built takes the place of the registry, and of nothing else. -/
theorem exists_registry_publish (e : Engine) (built : Except Error Registry × Log) :
    ∃ r, (e.publish built).engine = ⟨e.stores, e.catalog, r⟩ := by
  obtain ⟨result, log⟩ := built
  cases result with
  | error x => exact ⟨e.registry, rfl⟩
  | ok r => exact ⟨r, rfl⟩

theorem exists_registry_useLanguage (e : Engine) (language : Option String) :
    ∃ r, (e.useLanguage language).engine = ⟨e.stores, e.catalog, r⟩ := by
  cases hserving : e.catalog.serving? language with
  | none =>
      obtain ⟨x, -, hsame⟩ := useLanguage_of_not_serving hserving
      exact ⟨e.registry, hsame⟩
  | some served =>
      obtain ⟨code, b⟩ := served
      obtain ⟨-, hengine⟩ := useLanguage_of_serving hserving
      rw [hengine]
      exact e.exists_registry_publish _

end Engine

/-! ### Activations -/

namespace Session

/-- The operations that publish a registry, unless they fail. -/
def Operation.activates : Operation → Bool
  | activate _ _ | activateValue _ _ | useLanguage _ => true
  | _ => false

/-- The blueprint and the language that an operation asks to publish. -/
def request? (s : Session) : Operation → Option (Blueprint × Option String)
  | .activate b language => some (b, language)
  | .activateValue v language => (Blueprint.ofValue v).toOption.map (·, language)
  | .useLanguage language => (s.engine.catalog.serving? language).map fun e => (e.2, some e.1)
  | _ => none

/-- An operation is an activation and does not fail. -/
def Activates (s : Session) (op : Operation) : Prop :=
  op.activates = true ∧ (s.perform op).failure = none

/-- The activations among some operations that did not fail, each with the session that it was
done in. -/
def activations (s : Session) : List Operation → List (Session × Operation)
  | [] => []
  | op :: rest =>
      (if op.activates ∧ (s.perform op).failure.isNone then [(s, op)] else []) ++
        activations (s.perform op).session rest

/-- A registry is the whole build of what an activation asked for; without one it is empty. -/
def Publishes (r : Registry) : Option (Session × Operation) → Prop
  | none => r = .empty
  | some (s, op) => ∃ b language, s.request? op = some (b, language) ∧
      (Registry.build b language).1 = .ok r

variable {s : Session} {op : Operation}

theorem activates_of_stepped {α : Type} {step : Engine.Step α} {a : α}
    (hactivates : op.activates = true) (hperform : s.perform op = s.stepped step)
    (hresult : step.result = .ok a) : s.Activates op := by
  refine ⟨hactivates, ?_⟩
  rw [hperform, stepped, hresult]
  rfl

theorem not_activates_of_stepped {α : Type} {step : Engine.Step α} {x : Error}
    (hperform : s.perform op = s.stepped step) (hresult : step.result = .error x) :
    ¬ s.Activates op := by
  rintro ⟨-, hfailure⟩
  rw [hperform, stepped, hresult] at hfailure
  cases hfailure

/-- An activation of a blueprint publishes its registry or changes nothing. -/
theorem publishes_of_stepped {step : Engine.Step Registry} {b : Blueprint}
    {language : Option String} (hactivates : op.activates = true)
    (hrequest : s.request? op = some (b, language)) (hperform : s.perform op = s.stepped step)
    (hresult : step.result = (s.engine.activate b language).result)
    (hengine : step.engine = (s.engine.activate b language).engine) :
    (¬ s.Activates op ∧ (s.perform op).session.engine.registry = s.engine.registry) ∨
      s.Activates op ∧ Publishes (s.perform op).session.engine.registry (some (s, op)) := by
  have hafter : (s.perform op).session.engine = (s.engine.activate b language).engine := by
    rw [hperform, stepped, hengine]
  rcases s.engine.activate_cases b language with ⟨x, hx, hsame⟩ | ⟨r, hr, hok, hnew⟩
  · exact .inl ⟨not_activates_of_stepped hperform (hresult.trans hx), by rw [hafter, hsame]⟩
  · refine .inr ⟨activates_of_stepped hactivates hperform (hresult.trans hok), b, language,
      hrequest, ?_⟩
    rw [hafter, hnew]
    exact hr

theorem registry_perform_of_not_activates (s : Session) (h : op.activates = false) :
    (s.perform op).session.engine.registry = s.engine.registry := by
  cases op with
  | activate b language => cases h
  | activateValue v language => cases h
  | useLanguage language => cases h
  | addLanguageValue language v =>
      dsimp only [perform, stepped, Engine.addLanguageValue]
      cases Blueprint.ofValue v <;> rfl
  | writeStore store access w =>
      dsimp only [perform]
      cases Engine.storeNamed store <;> rfl
  | _ => rfl

/-- **An operation publishes everything or nothing.** -/
theorem perform_publishes (s : Session) (op : Operation) :
    (¬ s.Activates op ∧ (s.perform op).session.engine.registry = s.engine.registry) ∨
      s.Activates op ∧ Publishes (s.perform op).session.engine.registry (some (s, op)) := by
  cases hactivates : op.activates with
  | false =>
      refine .inl ⟨fun h => ?_, s.registry_perform_of_not_activates hactivates⟩
      rw [h.1] at hactivates
      cases hactivates
  | true =>
      cases op with
      | activate b language => exact publishes_of_stepped rfl rfl rfl rfl rfl
      | activateValue v language =>
          have hperform : s.perform (.activateValue v language) =
              s.stepped (s.engine.activateValue v language) := rfl
          cases hv : Blueprint.ofValue v with
          | error x =>
              have hfails : s.engine.activateValue v language =
                  ⟨.error (.rejected x), s.engine, []⟩ := by
                rw [Engine.activateValue, Engine.buildValue, hv]
                rfl
              refine .inl ⟨not_activates_of_stepped hperform (by rw [hfails]), ?_⟩
              rw [hperform, hfails, stepped]
          | ok b =>
              have hsame : s.engine.activateValue v language = s.engine.activate b language := by
                rw [Engine.activateValue, Engine.buildValue, hv, Engine.activate]
              have hrequest : s.request? (.activateValue v language) = some (b, language) := by
                rw [request?, hv]
                rfl
              exact publishes_of_stepped rfl hrequest hperform (by rw [hsame]) (by rw [hsame])
      | useLanguage language =>
          have hperform : s.perform (.useLanguage language) =
              s.stepped (s.engine.useLanguage language) := rfl
          cases hserving : s.engine.catalog.serving? language with
          | none =>
              obtain ⟨x, hx, hsame⟩ := Engine.useLanguage_of_not_serving hserving
              refine .inl ⟨not_activates_of_stepped hperform hx, ?_⟩
              rw [hperform, stepped, hsame]
          | some served =>
              obtain ⟨code, b⟩ := served
              obtain ⟨hresult, hengine⟩ := Engine.useLanguage_of_serving hserving
              have hrequest : s.request? (.useLanguage language) = some (b, some code) := by
                rw [request?, hserving]
                rfl
              exact publishes_of_stepped rfl hrequest hperform hresult hengine
      | _ => cases hactivates

/-- A run publishes what its last activation asked for, and else leaves what was published. -/
theorem run_publishes {past : List (Session × Operation)}
    (h : Publishes s.engine.registry past.getLast?) (ops : List Operation) :
    Publishes (s.run ops).engine.registry (past ++ s.activations ops).getLast? := by
  induction ops generalizing s past with
  | nil =>
      rw [activations, List.append_nil]
      exact h
  | cons op rest ih =>
      rw [activations, ← List.append_assoc]
      apply ih
      rcases s.perform_publishes op with ⟨hfails, hsame⟩ | ⟨⟨hactivates, hdone⟩, hnew⟩
      · have hnone : ¬ (op.activates ∧ (s.perform op).failure.isNone) := by
          rintro ⟨hactivates, hdone⟩
          exact hfails ⟨hactivates, Option.isNone_iff_eq_none.1 hdone⟩
        rw [if_neg hnone, List.append_nil, hsame]
        exact h
      · rw [if_pos ⟨hactivates, Option.isNone_iff_eq_none.2 hdone⟩, List.getLast?_concat]
        exact hnew

theorem Publishes.keyed {r : Registry} {last : Option (Session × Operation)}
    (h : Publishes r last) : r.Keyed := by
  cases last with
  | none =>
      rw [show r = .empty from h]
      exact Registry.keyed_empty
  | some last =>
      obtain ⟨b, language, -, hbuild⟩ := h
      exact Registry.keyed_of_build hbuild

/-- **In every registry that is published, phrases go by the keys under which they stand.** -/
theorem keyed_run (stores : Stores) (catalog : Catalog) (settings : Settings)
    (ops : List Operation) :
    ((⟨⟨stores, catalog, .empty⟩, settings⟩ : Session).run ops).engine.registry.Keyed := by
  let start : Session := ⟨⟨stores, catalog, .empty⟩, settings⟩
  have hstart : Publishes start.engine.registry ([] : List (Session × Operation)).getLast? := rfl
  exact (run_publishes hstart ops).keyed

/-- **The published registry is the whole build of the last activation.** After any operations on an
engine with nothing published, those that fail included, the published registry is the build of
what the last activation that did not fail asked for, in the session that it was done in; and a
query finds no entry just for the keys that do not occur in its blueprint. -/
theorem registry_of_last_activation (stores : Stores) (catalog : Catalog) (settings : Settings)
    (ops : List Operation) :
    let start : Session := ⟨⟨stores, catalog, .empty⟩, settings⟩
    let s := start.run ops
    match (start.activations ops).getLast? with
    | none => s.engine.registry = .empty ∧ ∀ key bag,
        (s.engine.resolve s.settings key bag).result = .error (.unknownEntry key)
    | some (past, op) => ∃ b language, past.request? op = some (b, language) ∧
        (Registry.build b language).1 = .ok s.engine.registry ∧ ∀ key bag,
          (∃ name, (s.engine.resolve s.settings key bag).result = .error (.unknownEntry name)) ↔
            ¬ b.Defines key := by
  intro start s
  have hstart : Publishes start.engine.registry ([] : List (Session × Operation)).getLast? := rfl
  have hpublishes : Publishes s.engine.registry (start.activations ops).getLast? :=
    run_publishes hstart ops
  cases hlast : (start.activations ops).getLast? with
  | none =>
      have hempty : s.engine.registry = .empty := by rwa [hlast] at hpublishes
      refine ⟨hempty, fun key bag => (Engine.resolve_eq_unknownEntry_iff _ _).2 ⟨rfl, ?_⟩⟩
      rw [hempty]
      rfl
  | some last =>
      obtain ⟨past, op⟩ := last
      rw [hlast] at hpublishes
      obtain ⟨b, language, hrequest, hbuild⟩ := hpublishes
      refine ⟨b, language, hrequest, hbuild, fun key bag => ?_⟩
      have hunknown : s.engine.registry.get? key = none ↔ ¬ b.Defines key := by
        rw [(Registry.build_eq_ok_iff.1 hbuild).2]
        exact Registry.get?_ofBlueprint_eq_none_iff
      simp only [Engine.resolve_eq_unknownEntry_iff, hunknown, exists_eq_left]

end Session

end Phrasebook
