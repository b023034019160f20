import Phrasebook.Log
import Phrasebook.Value

/-! Default stores: the values that stand in for parameters a caller leaves out. There is one store
for the tokens of templates and one for the discriminants of variants. -/

namespace Phrasebook

structure Store where
  name : String
  values : Bag

namespace Store

def empty (name : String) : Store :=
  ⟨name, .empty⟩

def isEmpty (s : Store) : Bool :=
  s.values.isEmpty

def size (s : Store) : Nat :=
  s.values.size

/-- One line about a store. -/
def summary (s : Store) : String :=
  "DefaultStore(" ++ Text.quoted s.name ++ ", " ++ toString s.size ++ " keys)"

/-- The ways to write to a store. -/
inductive Write
  | set (key : String) (value : Value)
  | delete (key : String)
  | update (values : Bag)
  | replace (values : Bag)
  | clear

/-- The values after a write. -/
def Write.apply : Write → Bag → Bag
  | set key value, values => values.insert key value
  | delete key, values => values.erase key
  | update new, values => values.merge new
  | replace new, _ => new
  | clear, _ => .empty

def line (message : String) : LogLine :=
  ⟨.debug, .defaults, "[DEFAULTS] " ++ message⟩

/-- What a write to the store of this name logs; single values are not worth a line. -/
def Write.log (name : String) : Write → Log
  | set _ _ => []
  | delete _ => []
  | update new =>
      [line (name ++ " updated keys=" ++ (Value.list (new.keys.map .text)).literal)]
  | replace new => [line (name ++ " replaced (" ++ toString new.size ++ " keys)")]
  | clear => [line (name ++ " cleared")]

def write (s : Store) (w : Write) : Store :=
  ⟨s.name, w.apply s.values⟩

end Store

/-! ### The two stores of an engine -/

inductive StoreName
  | placeholders
  | variants
  deriving DecidableEq

namespace StoreName

def word : StoreName → String
  | placeholders => "placeholders"
  | variants => "variants"

def ofWord? (word : String) : Option StoreName :=
  if word = "placeholders" then some .placeholders
  else if word = "variants" then some .variants
  else none

end StoreName

/-- The place of a store in an engine: the store in use, and beside it one that was offered and
declined. A store is declined if it is empty when it is offered. -/
structure Slot where
  inUse : Store
  declined : Option Store

/-- The two ways to a store: through the engine, or through the store that was offered to it. -/
inductive Access
  | engine
  | offered
  deriving DecidableEq

namespace Slot

/-- The place of this name after a store was offered for it, or none was. -/
def ofOffer (name : StoreName) : Option Store → Slot
  | none => ⟨.empty name.word, none⟩
  | some s => if s.isEmpty then ⟨.empty name.word, some s⟩ else ⟨s, none⟩

def store (slot : Slot) : Access → Store
  | .engine => slot.inUse
  | .offered => slot.declined.getD slot.inUse

def write (slot : Slot) (access : Access) (w : Store.Write) : Slot :=
  match access, slot.declined with
  | .offered, some s => ⟨slot.inUse, some (s.write w)⟩
  | _, declined => ⟨slot.inUse.write w, declined⟩

end Slot

structure Stores where
  placeholders : Slot
  variants : Slot

namespace Stores

def ofOffers (placeholders variants : Option Store) : Stores :=
  ⟨.ofOffer .placeholders placeholders, .ofOffer .variants variants⟩

def slot (s : Stores) : StoreName → Slot
  | .placeholders => s.placeholders
  | .variants => s.variants

def store (s : Stores) (name : StoreName) (access : Access) : Store :=
  (s.slot name).store access

def write (s : Stores) (name : StoreName) (access : Access) (w : Store.Write) : Stores :=
  match name with
  | .placeholders => ⟨s.placeholders.write access w, s.variants⟩
  | .variants => ⟨s.placeholders, s.variants.write access w⟩

/-- What the write logs, under the name of the store that it goes to. -/
def writeLog (s : Stores) (name : StoreName) (access : Access) (w : Store.Write) : Log :=
  w.log (s.store name access).name

end Stores

end Phrasebook
