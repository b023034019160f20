import Phrasebook.Blueprint
import Phrasebook.Error
import Phrasebook.Log

/-! The catalog: one blueprint for every language, with a default language that serves for those
that have none. -/

namespace Phrasebook

structure Catalog where
  defaultLanguage : String
  blueprints : OrderedMap Blueprint

namespace Catalog

def empty (defaultLanguage : String) : Catalog :=
  ⟨defaultLanguage, .empty⟩

def contains (c : Catalog) (language : String) : Bool :=
  c.blueprints.contains language

/-- The languages in alphabetical order. -/
def languages (c : Catalog) : List String :=
  c.blueprints.keys.mergeSort fun a b => !decide (b < a)

def add (c : Catalog) (language : String) (b : Blueprint) : Catalog × Log :=
  (⟨c.defaultLanguage, c.blueprints.insert language b⟩,
    [⟨.info, .catalog,
      "[CATALOG] Registered language=" ++ language ++ " entries=" ++ toString b.entryCount⟩])

def remove (c : Catalog) (language : String) : Catalog :=
  ⟨c.defaultLanguage, c.blueprints.erase language⟩

/-- A language that was asked for by name; the empty name asks for none. -/
def requested : Option String → Option String
  | some l => if l.isEmpty then none else some l
  | none => none

def fallbackLine (c : Catalog) (language : String) : LogLine :=
  ⟨.debug, .catalog,
    "[CATALOG] No blueprint for " ++ language ++ ", using default " ++ c.defaultLanguage⟩

/-- The language that serves a request. -/
def resolveLanguage (c : Catalog) (language : Option String) : Except Error String × Log :=
  match requested language with
  | some l =>
      if c.contains l then (.ok l, [])
      else if c.contains c.defaultLanguage then (.ok c.defaultLanguage, [c.fallbackLine l])
      else (.error (.unknownLanguage l), [])
  | none =>
      if c.contains c.defaultLanguage then (.ok c.defaultLanguage, [])
      else (.error (.unknownLanguage c.defaultLanguage), [])

/-- The blueprint that serves a request. -/
def get (c : Catalog) (language : Option String) : Except Error Blueprint × Log :=
  match c.resolveLanguage language with
  | (.error e, log) => (.error e, log)
  | (.ok l, log) =>
      match c.blueprints.get? l with
      | some b => (.ok b, log)
      | none => (.error (.unknownLanguage l), log)

end Catalog

end Phrasebook
