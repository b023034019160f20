import Phrasebook.Catalog
import Phrasebook.Listing
import Phrasebook.Settings
import Phrasebook.Store

/-! The engine: the default stores, the catalog of languages, and the registry that is published.
An activation builds a whole registry before it publishes it, so a failed one changes nothing. -/

namespace Phrasebook

structure Engine where
  stores : Stores
  catalog : Catalog
  registry : Registry

/-- What an operation on an engine gives: its result, the engine afterwards and the log. -/
structure Engine.Step (α : Type) where
  result : Except Error α
  engine : Engine
  log : Log

/-- What a query gives: its result, the bag afterwards and the log. -/
structure Engine.Reply where
  result : Except Error Value
  bag : Bag
  log : Log

namespace Engine

/-- An engine with nothing published. Without a default language of its own its catalog has that of
the settings. -/
def create (settings : Settings) (stores : Stores) (defaultLanguage : Option String) : Engine :=
  ⟨stores, .empty ((Catalog.requested defaultLanguage).getD settings.defaultLanguage), .empty⟩

def activeLanguage (e : Engine) : Option String :=
  e.registry.language

/-- One line about an engine. -/
def summary (e : Engine) : String :=
  "Parrot(language=" ++ ((e.activeLanguage.map Text.quoted).getD "None") ++ ", entries=" ++
    toString e.registry.size ++ ")"

/-! ### Publishing -/

/-- The line about a registry that takes the place of another. -/
def activatedLine (new old : Registry) : LogLine :=
  ⟨.info, .controller,
    "[ACTIVATE] language=" ++ Registry.languageMark new.language ++ " entries=" ++
      toString new.size ++ " (was language=" ++ Registry.languageMark old.language ++ " entries=" ++
      toString old.size ++ ")"⟩

/-- Build the registry of a blueprint. -/
def build (b : Blueprint) (language : Option String) : Except Error Registry × Log :=
  let (built, log) := Registry.build b language
  (built.mapError .oversizedNumber, log)

/-- Build the registry of a blueprint that is still to be read. -/
def buildValue (v : Value) (language : Option String) : Except Error Registry × Log :=
  match Blueprint.ofValue v with
  | .error r => (.error (.rejected r), [])
  | .ok b => build b language

/-- Publish a registry that was built, or else change nothing. -/
def publish (e : Engine) : Except Error Registry × Log → Step Registry
  | (.error x, log) => ⟨.error x, e, log⟩
  | (.ok r, log) => ⟨.ok r, ⟨e.stores, e.catalog, r⟩, log ++ [activatedLine r e.registry]⟩

def activate (e : Engine) (b : Blueprint) (language : Option String) : Step Registry :=
  e.publish (build b language)

/-- Activate a blueprint that is still to be read. -/
def activateValue (e : Engine) (v : Value) (language : Option String) : Step Registry :=
  e.publish (buildValue v language)

/-- Activate the blueprint that serves a language. The catalog is asked twice, for the language and
for the blueprint of that language. -/
def useLanguage (e : Engine) (language : Option String) : Step Registry :=
  match e.catalog.resolveLanguage language with
  | (.error x, log) => ⟨.error x, e, log⟩
  | (.ok code, log) =>
      match e.catalog.get (some code) with
      | (.error x, more) => ⟨.error x, e, log ++ more⟩
      | (.ok b, more) =>
          let step := e.activate b (some code)
          ⟨step.result, step.engine, log ++ more ++ step.log⟩

/-! ### The catalog and the stores -/

def addLanguage (e : Engine) (language : String) (b : Blueprint) : Engine × Log :=
  let (catalog, log) := e.catalog.add language b
  (⟨e.stores, catalog, e.registry⟩, log)

/-- Read a blueprint and add it to the catalog. -/
def addLanguageValue (e : Engine) (language : String) (v : Value) : Step Blueprint :=
  match Blueprint.ofValue v with
  | .error r => ⟨.error (.rejected r), e, []⟩
  | .ok b =>
      let (engine, log) := e.addLanguage language b
      ⟨.ok b, engine, log⟩

def removeLanguage (e : Engine) (language : String) : Engine :=
  ⟨e.stores, e.catalog.remove language, e.registry⟩

/-- The store of a name that is spelled out. -/
def storeNamed (word : String) : Except Error StoreName :=
  match StoreName.ofWord? word with
  | some name => .ok name
  | none => .error (.unknownStore word)

def writeStore (e : Engine) (name : StoreName) (access : Access) (w : Store.Write) : Engine × Log :=
  (⟨e.stores.write name access w, e.catalog, e.registry⟩, e.stores.writeLog name access w)

/-! ### Queries -/

/-- What resolutions on a registry look things up in: the stores are those of the engine. -/
def scope (e : Engine) (settings : Settings) (r : Registry) : Scope :=
  ⟨r, e.stores.placeholders.inUse.values, e.stores.variants.inUse.values,
    settings.fillBareVariants⟩

def resolveIn (e : Engine) (settings : Settings) (r : Registry) (key : String) (entry : Entry)
    (bag : Bag) : Reply :=
  let o := (e.scope settings r).resolveEntry settings.depthLimit key entry bag
  ⟨o.result.mapError .resolve, o.bag, o.log⟩

/-- The constant or the text of an entry of the published registry. -/
def resolve (e : Engine) (settings : Settings) (key : String) (bag : Bag) : Reply :=
  match e.registry.get? key with
  | none => ⟨.error (.unknownEntry key), bag, []⟩
  | some entry => e.resolveIn settings e.registry key entry bag

section

variable {e : Engine} {key : String} (settings : Settings) (bag : Bag)

theorem resolve_of_unknown (h : e.registry.get? key = none) :
    e.resolve settings key bag = ⟨.error (.unknownEntry key), bag, []⟩ := by
  rw [resolve, h]

theorem resolve_of_constant {v : Value} (h : e.registry.get? key = some (.constant v)) :
    e.resolve settings key bag = ⟨.ok v, bag, []⟩ := by
  rw [resolve, h]
  rfl

/-- An entry is unknown only if it is the one that was asked for. -/
theorem resolve_eq_unknownEntry_iff {name : String} :
    (e.resolve settings key bag).result = .error (.unknownEntry name) ↔
      name = key ∧ e.registry.get? key = none := by
  cases hget : e.registry.get? key with
  | none =>
      rw [resolve_of_unknown settings bag hget]
      simp [eq_comm]
  | some entry =>
      rw [resolve, hget]
      dsimp only [resolveIn]
      generalize (e.scope settings e.registry).resolveEntry settings.depthLimit key entry bag = o
      have hknown : ¬ (name = key ∧ some entry = none) := fun h => Option.some_ne_none _ h.2
      cases o.result with
      | error x =>
          refine iff_of_false (fun h => ?_) hknown
          cases h
      | ok v =>
          refine iff_of_false (fun h => ?_) hknown
          cases h

/-- A query for a phrase enters it at the top of a chain. -/
theorem resolve_of_phrase {p : Phrase} (h : e.registry.get? key = some (.phrase p)) :
    e.resolve settings key bag =
      let o := (e.scope settings e.registry).enter settings.depthLimit [] key p bag
      ⟨(o.result.map .text).mapError .resolve, o.bag, o.log⟩ := by
  rw [resolve, h]
  rfl

theorem resolve_phrase_eq_ok_iff {p : Phrase} (h : e.registry.get? key = some (.phrase p))
    {v : Value} : (e.resolve settings key bag).result = .ok v ↔ ∃ text, v = .text text ∧
      ((e.scope settings e.registry).enter settings.depthLimit [] key p bag).result = .ok text := by
  rw [resolve_of_phrase settings bag h]
  dsimp only
  cases ((e.scope settings e.registry).enter settings.depthLimit [] key p bag).result with
  | error x => exact ⟨nofun, nofun⟩
  | ok text =>
      constructor
      · intro hv
        cases hv
        exact ⟨text, rfl, rfl⟩
      · rintro ⟨_, rfl, htext⟩
        cases htext
        rfl

theorem resolve_phrase_eq_error_iff {p : Phrase} (h : e.registry.get? key = some (.phrase p))
    {x : ResolveError} : (e.resolve settings key bag).result = .error (.resolve x) ↔
      ((e.scope settings e.registry).enter settings.depthLimit [] key p bag).result = .error x := by
  rw [resolve_of_phrase settings bag h]
  dsimp only
  cases ((e.scope settings e.registry).enter settings.depthLimit [] key p bag).result with
  | error y =>
      constructor
      · intro hx
        cases hx
        rfl
      · intro hx
        cases hx
        rfl
  | ok text => exact ⟨nofun, nofun⟩

end

/-- The constant of a static entry. -/
def resolveStatic (e : Engine) (key : String) (bag : Bag) : Reply :=
  match e.registry.get? key with
  | none => ⟨.error (.unknownEntry key), bag, []⟩
  | some (.constant v) => ⟨.ok v, bag, []⟩
  | some (.phrase _) => ⟨.error (.wrongKind key .static), bag, []⟩

/-- The text of a dynamic entry. -/
def resolveDynamic (e : Engine) (settings : Settings) (key : String) (bag : Bag) : Reply :=
  match e.registry.get? key with
  | none => ⟨.error (.unknownEntry key), bag, []⟩
  | some (.constant _) => ⟨.error (.wrongKind key .dynamic), bag, []⟩
  | some (.phrase p) => e.resolveIn settings e.registry key (.phrase p) bag

/-- The text of a dynamic entry of any registry, which a constant does not have. -/
def renderEntry (e : Engine) (settings : Settings) (r : Registry) (key : String) (bag : Bag) :
    Reply :=
  match r.get? key with
  | none => ⟨.error (.unknownEntry key), bag, []⟩
  | some (.constant v) => ⟨.error (.notCallable v.shape), bag, []⟩
  | some (.phrase p) => e.resolveIn settings r key (.phrase p) bag

end Engine

end Phrasebook
