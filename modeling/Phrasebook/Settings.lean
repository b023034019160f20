import Phrasebook.Error
import Phrasebook.Log

/-! Settings: what the environment decides about an engine and its logger. They are read all at
once; when the depth of holders is not a whole number, the earlier settings stay. -/

namespace Phrasebook

/-- The environment variables, as far as they are set. -/
structure Environment where
  maxHolderDepth : Option String
  logLevel : Option String
  defaultLanguage : Option String
  interpolateBareVariants : Option String

namespace Environment

def unset : Environment :=
  ⟨none, none, none, none⟩

/-- Set or unset a variable by its name; other variables have no effect. -/
def set (env : Environment) (name : String) (value : Option String) : Environment :=
  if name = "PARROT_MAX_HOLDER_DEPTH" then { env with maxHolderDepth := value }
  else if name = "PARROT_LOG_LEVEL" then { env with logLevel := value }
  else if name = "PARROT_DEFAULT_LANGUAGE" then { env with defaultLanguage := value }
  else if name = "PARROT_INTERPOLATE_BARE_VARIANTS" then
    { env with interpolateBareVariants := value }
  else env

end Environment

structure Settings where
  maxHolderDepth : Int
  logLevel : String
  defaultLanguage : String
  fillBareVariants : Bool

namespace Settings

/-- Without environment variables. -/
def default : Settings :=
  ⟨16, "INFO", "en", false⟩

/-- The longest chain of holders; at least the requested entry itself may be resolved. -/
def depthLimit (s : Settings) : Nat :=
  max 1 s.maxHolderDepth.toNat

/-- The words that switch a setting on. -/
def isOn (text : String) : Bool :=
  let word := String.ofList ((Text.trim text.toList).map Char.toLower)
  word = "1" || word = "true" || word = "yes" || word = "on"

def ofEnvironment (env : Environment) : Except Error Settings :=
  match Reading.integer (env.maxHolderDepth.getD "16") with
  | .error e => .error (.badSetting e)
  | .ok depth =>
      .ok ⟨depth, env.logLevel.getD "INFO", env.defaultLanguage.getD "en",
        isOn (env.interpolateBareVariants.getD "false")⟩

/-- Read the settings again. -/
def reload (s : Settings) (env : Environment) : Settings × Option Error :=
  match ofEnvironment env with
  | .ok new => (new, none)
  | .error e => (s, some e)

/-- Set up the logger with the level that is asked for by name, else with that of the settings. -/
def logger (s : Settings) (asked : Option String) : Except Error Logger :=
  let name := match asked with
    | some l => if l.isEmpty then s.logLevel else l
    | none => s.logLevel
  match levelMeaning name with
  | .weight n => .ok (.withLevel n)
  | .format text => .error (.unknownLevel text)
  | .formats text => .error (.notLevel text)

end Settings

end Phrasebook
