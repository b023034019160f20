import Phrasebook.Number.Binary64
import Phrasebook.Text.Blank
import Phrasebook.Text.DecimalDigit

/-! Numbers read from text. A whole number is an optional sign and digits; a real number may also
have a fraction and an exponent, or be a word for infinity or NaN. Digits may be of any script, and
single underscores may stand between two digits. Blanks around a number do not count. -/

namespace Phrasebook

namespace Reading

/-- The most digits a whole number may be written with. -/
def maxDigits : Nat := 4300

/-- A decimal digit of any script as the ASCII digit of its value; other characters stay. -/
def plainDigit (c : Char) : Char :=
  match Text.digitValue? c with
  | some d => Char.ofNat (48 + d)
  | none => c

/-- The sign in front of a number, and the rest. -/
def sign : List Char → Bool × List Char
  | '-' :: cs => (true, cs)
  | '+' :: cs => (false, cs)
  | cs => (false, cs)

/-- Leave out the underscores of a digit group; none if one does not stand between two digits.
`afterDigit` says whether the character before was a digit. -/
def dropUnderscores : (afterDigit : Bool) → List Char → Option (List Char)
  | _, [] => some []
  | afterDigit, '_' :: c :: cs =>
      if afterDigit && c.isDigit then (dropUnderscores true cs).map (c :: ·) else none
  | _, ['_'] => none
  | _, c :: cs => (dropUnderscores c.isDigit cs).map (c :: ·)

/-- The natural number that ASCII digits spell. -/
def natValue (cs : List Char) : Nat :=
  cs.foldl (fun n c => 10 * n + (c.toNat - 48)) 0

inductive IntegerError
  | invalid (text : String)
  | tooManyDigits (count : Nat)
  deriving DecidableEq

/-- The four information separators, which are blank but not skipped around a whole number. -/
def isSeparator (c : Char) : Bool :=
  0x1c ≤ c.toNat && c.toNat ≤ 0x1f

/-- Read a whole number. A run of digits that is too long is reported before anything behind it. -/
def integer (text : String) : Except IntegerError Int :=
  let cs := Text.trimBy (fun c => Text.isBlank c && !isSeparator c) text.toList
  let (negative, body) := sign (cs.map plainDigit)
  let (group, rest) := body.span fun c => c.isDigit || c == '_'
  match dropUnderscores false group with
  | none => .error (.invalid text)
  | some digits =>
      if maxDigits < digits.length then .error (.tooManyDigits digits.length)
      else if digits.isEmpty || !rest.isEmpty then .error (.invalid text)
      else
        let n : Int := natValue digits
        .ok (if negative then -n else n)

/-- The exponent at the end of a real number: nothing, or `e` and a whole number. -/
def exponent? : List Char → Option Int
  | [] => some 0
  | c :: cs =>
      let digits := (sign cs).2
      if (c == 'e' || c == 'E') && !digits.isEmpty && digits.all Char.isDigit then
        let n : Int := natValue digits
        some (if (sign cs).1 then -n else n)
      else none

/-- The words for numbers that no digits spell. -/
def wordValue? (negative : Bool) (cs : List Char) : Option Binary64 :=
  let word := cs.map Char.toLower
  if word = "inf".toList ∨ word = "infinity".toList then some (.infinite negative)
  else if word = "nan".toList then some (.nan 0)
  else none

/-- The digits after a decimal point, and the rest. -/
def fraction : List Char → List Char × List Char
  | '.' :: cs => cs.span Char.isDigit
  | cs => ([], cs)

/-- Read the part of a real number behind its sign. -/
def unsignedReal? (negative : Bool) (cs : List Char) : Option Binary64 :=
  match wordValue? negative cs with
  | some x => some x
  | none =>
      let (whole, afterWhole) := cs.span Char.isDigit
      let (part, afterPart) := fraction afterWhole
      if whole.isEmpty && part.isEmpty then none
      else
        (exponent? afterPart).map fun e =>
          .ofDecimal negative (natValue (whole ++ part)) (e - part.length)

/-- Read a real number. -/
def real? (text : List Char) : Option Binary64 := do
  let cs ← dropUnderscores false ((Text.trim text).map plainDigit)
  let (negative, rest) := sign cs
  unsignedReal? negative rest

end Reading

end Phrasebook
