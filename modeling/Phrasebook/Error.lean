import Phrasebook.Condition.Parser
import Phrasebook.Issue
import Phrasebook.Resolve

/-! The errors of the library, each with its message. -/

namespace Phrasebook

/-- A whole number with more digits than may be read. -/
def oversizedMessage (count : Nat) : String :=
  "Exceeds the limit (" ++ toString Reading.maxDigits ++
    " digits) for integer string conversion: value has " ++ toString count ++
    " digits; use sys.set_int_max_str_digits() to increase the limit"

/-- The most characters of a text that a message about a number shows. -/
def shownCharacters : Nat := 200

namespace Reading

def IntegerError.message : IntegerError → String
  | invalid text =>
      "invalid literal for int() with base 10: " ++
        String.ofList ((Text.quoted text).toList.take shownCharacters)
  | tooManyDigits count => oversizedMessage count

end Reading

/-- What a query that asks for one sort of entry expects. -/
inductive ExpectedKind
  | static
  | dynamic
  deriving DecidableEq

def ExpectedKind.word : ExpectedKind → String
  | static => "static"
  | dynamic => "dynamic"

inductive Error
  | unknownEntry (key : String)
  | wrongKind (key : String) (expected : ExpectedKind)
  | notCallable (shape : Shape)
  | resolve (e : ResolveError)
  | malformedCondition (e : Condition.SyntaxError)
  | oversizedNumber (count : Nat)
  | rejected (r : Rejection)
  | unknownLanguage (language : String)
  | unknownStore (name : String)
  | badSetting (e : Reading.IntegerError)
  | unknownLevel (text : String)
  | notLevel (text : String)

/-- The error of a source that gives no tree. -/
def Error.ofParse : Condition.ParseError → Error
  | .malformed e => malformedCondition e
  | .tooManyDigits count => oversizedNumber count

def Error.message : Error → String
  | unknownEntry key => "Unknown entry: " ++ Text.quoted key
  | wrongKind key expected => "Entry " ++ Text.quoted key ++ " is not " ++ expected.word
  | notCallable shape => "'" ++ shape.word ++ "' object is not callable"
  | resolve (.holder e) => e.message
  | resolve (.number e) => e.message
  | malformedCondition e => e.message
  | oversizedNumber count => oversizedMessage count
  | rejected (.issues _) => "Invalid blueprint"
  | rejected (.misuse m) => m.message
  | unknownLanguage language => "No blueprint registered for language " ++ Text.quoted language
  | unknownStore name => Text.quoted name
  | badSetting e => e.message
  | unknownLevel text => "Unknown level: " ++ Text.quoted text
  | notLevel text => "Level not an integer or a valid string: " ++ text

end Phrasebook
