/-! Log lines and the logger they pass through. Operations return the lines they wrote; what reaches
the handler is decided by the level the logger has at that moment. -/

namespace Phrasebook

inductive LogLevel
  | debug
  | info
  | warning
  deriving DecidableEq

def LogLevel.name : LogLevel → String
  | debug => "DEBUG"
  | info => "INFO"
  | warning => "WARNING"

/-- The weight of a level; a logger passes the lines that weigh at least as much as itself. -/
def LogLevel.weight : LogLevel → Nat
  | debug => 10
  | info => 20
  | warning => 30

/-- The parts of the library that write log lines. -/
inductive Channel
  | conditions
  | defaults
  | entries
  | builder
  | catalog
  | controller
  | requests
  deriving DecidableEq

def Channel.name : Channel → String
  | conditions => "parrot.resolver.conditions"
  | defaults => "parrot.resolver.defaults"
  | entries => "parrot.resolver.entry"
  | builder => "parrot.resolver.builder"
  | catalog => "parrot.catalog"
  | controller => "parrot.controller"
  | requests => "parrot.api.routes.entries"

structure LogLine where
  level : LogLevel
  channel : Channel
  message : String
  deriving DecidableEq

abbrev Log := List LogLine

/-! ### The logger -/

/-- What a level name stands for: a weight, or a line format or a table of formats, which are no
levels. -/
inductive LevelMeaning
  | weight (n : Nat)
  | format (text : String)
  | formats (text : String)

/-- The capitals of a letter, for the letters whose capitals spell part of a name. -/
def capitals (c : Char) : List Char :=
  if c = 'ı' then ['I']
  else if c = 'ſ' then ['S']
  else if c = 'ﬅ' ∨ c = 'ﬆ' then ['S', 'T']
  else [c.toUpper]

/-- The table of formats in words. -/
def formatTable : String :=
  "\x7b'%': (<class 'logging.PercentStyle'>, '%(levelname)s:%(name)s:%(message)s'), " ++
    "'\x7b': (<class 'logging.StrFormatStyle'>, " ++
    "'\x7blevelname\x7d:\x7bname\x7d:\x7bmessage\x7d'), " ++
    "'$': (<class 'logging.StringTemplateStyle'>, " ++
    "'$\x7blevelname\x7d:$\x7bname\x7d:$\x7bmessage\x7d')\x7d"

/-- The names a level may be given by, in capitals; any other name means the level of
information. -/
def levelMeaning (name : String) : LevelMeaning :=
  match String.ofList (name.toList.flatMap capitals) with
  | "DEBUG" => .weight 10
  | "INFO" => .weight 20
  | "WARN" => .weight 30
  | "WARNING" => .weight 30
  | "ERROR" => .weight 40
  | "CRITICAL" => .weight 50
  | "FATAL" => .weight 50
  | "NOTSET" => .weight 0
  | "BASIC_FORMAT" => .format "%(levelname)s:%(name)s:%(message)s"
  | "_STYLES" => .formats formatTable
  | _ => .weight 20

/-- The logger of the library: its level, and whether its handler is attached. -/
structure Logger where
  level : Nat
  attached : Bool
  deriving DecidableEq

namespace Logger

def name : String := "parrot"

/-- The format of a line and of its date. -/
def lineFormat : String := "[%(asctime)s] %(levelname)-8s [%(name)s:%(lineno)d] %(message)s"

def dateFormat : String := "%Y-%m-%d %H:%M:%S"

/-- Before it is set up the logger passes everything to whoever listens. -/
def start : Logger :=
  ⟨10, false⟩

/-- A logger without a level of its own has the weight of a warning. -/
def threshold (logger : Logger) : Nat :=
  if logger.level = 0 then 30 else logger.level

def passes (logger : Logger) (line : LogLine) : Bool :=
  logger.threshold ≤ line.level.weight

/-- A logger with its handler attached, which passes lines from a weight on. -/
def withLevel (n : Nat) : Logger :=
  ⟨n, true⟩

end Logger

end Phrasebook
