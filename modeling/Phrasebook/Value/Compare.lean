import Phrasebook.Number.Reading
import Phrasebook.Value

/-! How conditions judge and compare values. Strict equality never converts; loose equality and the
order convert to floating-point numbers as soon as one side is a number or a truth value. Only an
integer beyond the range of floating-point numbers has no answer. -/

namespace Phrasebook

/-- An integer is too large to be a floating-point number. -/
inductive NumberError
  | tooLarge
  deriving DecidableEq

def NumberError.message : NumberError → String
  | tooLarge => "int too large to convert to float"

namespace Value

/-- Whether a value holds as a condition: NaN does not, and nothing empty does. -/
def holds : Value → Bool
  | .real x => !x.isNaN && !x.isZero
  | v => !v.isVoid

def isNumber : Value → Bool
  | .int _ => true
  | .real _ => true
  | _ => false

def isText : Value → Bool
  | .text _ => true
  | _ => false

def isNull : Value → Bool
  | .null => true
  | _ => false

/-- Numbers and truth values. -/
def isNumeric : Value → Bool
  | .bool _ => true
  | v => v.isNumber

/-- The value as a number; NaN where it has none. A blank text counts as zero. -/
def toNumber : Value → Except NumberError Binary64
  | .null => .ok (.nan 0)
  | .bool b => .ok (.ofRatio false (if b then 1 else 0) 1)
  | .int n => (Binary64.ofInt? n).elim (.error .tooLarge) .ok
  | .real x => .ok x
  | .text s =>
      let cs := Text.trim s.toList
      .ok (if cs.isEmpty then .ofUnits false 0 else (Reading.real? cs).getD (.nan 0))
  | .list _ => .ok (.nan 0)
  | .map _ => .ok (.nan 0)

/-- Equality without conversion: of numbers by value, of all else within one sort. -/
def strictEq (left right : Value) : Bool :=
  if left.isNumber && right.isNumber then left.same right
  else left.shape == right.shape && left.same right

/-- Compare two values as numbers, the left one converted first. -/
def asNumbers (test : Binary64 → Binary64 → Bool) (left right : Value) :
    Except NumberError Bool :=
  match left.toNumber with
  | .error e => .error e
  | .ok x =>
      match right.toNumber with
      | .error e => .error e
      | .ok y => .ok (test x y)

/-- Equality with conversion: no value equals only no value, texts compare as texts, and beside a
number or a truth value everything is a number. -/
def looseEq (left right : Value) : Except NumberError Bool :=
  if left.isNull || right.isNull then .ok (left.isNull && right.isNull)
  else if left.isText && right.isText then .ok (left.same right)
  else if left.isNumeric || right.isNumeric then asNumbers Binary64.eq left right
  else .ok (left.same right)

/-- The order of two texts, or else of two numbers. -/
def ordered (ofTexts : String → String → Bool) (ofNumbers : Binary64 → Binary64 → Bool) :
    Value → Value → Except NumberError Bool
  | .text s, .text t => .ok (ofTexts s t)
  | left, right => asNumbers ofNumbers left right

end Value

end Phrasebook
