import Phrasebook.Number.Reading
import Phrasebook.Text.Encoding
import Phrasebook.Value

/-! JSON texts, as requests bring them. The reader goes through the text once, with the arrays and
objects it is inside of on a stack, and reports the position at which the text stops being JSON.
Beyond the standard it knows the numbers `NaN`, `Infinity` and `-Infinity`. -/

namespace Phrasebook.Json

inductive Error
  | malformed (position : Nat)
  | oversizedNumber
  deriving DecidableEq

variable [Text.Surrogates]

/-! ### Strings -/

def hexValue? (c : Char) : Option Nat :=
  if c.isDigit then some (c.toNat - 48)
  else if 'a' ≤ c ∧ c ≤ 'f' then some (c.toNat - 87)
  else if 'A' ≤ c ∧ c ≤ 'F' then some (c.toNat - 55)
  else none

/-- The number that hexadecimal digits spell. -/
def hexNumber? (cs : List Char) : Option Nat :=
  cs.foldlM (fun n c => (hexValue? c).map (16 * n + ·)) 0

def escaped? (c : Char) : Option Char :=
  if c = '"' ∨ c = '\\' ∨ c = '/' then some c
  else if c = 'b' then some '\x08'
  else if c = 'f' then some '\x0c'
  else if c = 'n' then some '\n'
  else if c = 'r' then some '\r'
  else if c = 't' then some '\t'
  else none

/-- The code units of a string and the position behind it, read from behind the quote at position
`start`; the error is a position. -/
def units (start position : Nat) : List Char → Except Nat (List Nat × Nat)
  | [] => .error start
  | c :: cs =>
      if c = '"' then .ok ([], position + 1)
      else if c = '\\' then
        match cs with
        | [] => .error start
        | 'u' :: h₁ :: h₂ :: h₃ :: h₄ :: next :: rest =>
            match hexNumber? [h₁, h₂, h₃, h₄] with
            | none => .error (position + 1)
            | some n =>
                (units start (position + 6) (next :: rest)).map fun r => (n :: r.1, r.2)
        | e :: rest =>
            if e = 'u' then .error (position + 1)
            else
              match escaped? e with
              | none => .error position
              | some d =>
                  (units start (position + 2) rest).map fun r => (d.toNat :: r.1, r.2)
      else if c.toNat < 0x20 then .error position
      else (units start (position + 1) cs).map fun r => (c.toNat :: r.1, r.2)

def string (start : Nat) (cs : List Char) : Except Error (String × Nat) :=
  match units start (start + 1) cs with
  | .error position => .error (.malformed position)
  | .ok (codes, stop) => .ok (String.ofList (Text.ofUnits codes), stop - start)

/-! ### Numbers -/

/-- The parts of a number, as far as they are there. -/
structure Numeral where
  negative : Bool
  whole : List Char
  fraction : List Char
  exponent : List Char

namespace Numeral

/-- The digits of the whole part: a zero stands alone. -/
def wholeDigits (cs : List Char) : List Char :=
  match cs with
  | '0' :: _ => ['0']
  | _ => cs.takeWhile Char.isDigit

/-- A point with digits behind it. -/
def fractionPart (cs : List Char) : List Char :=
  match cs with
  | '.' :: rest =>
      let digits := rest.takeWhile Char.isDigit
      if digits.isEmpty then [] else '.' :: digits
  | _ => []

/-- The mark of an exponent with its sign and digits. -/
def exponentPart (cs : List Char) : List Char :=
  match cs with
  | c :: rest =>
      if c = 'e' ∨ c = 'E' then
        let signs := rest.takeWhile fun d => d = '+' || d = '-'
        let sign := signs.take 1
        let digits := (rest.drop sign.length).takeWhile Char.isDigit
        if digits.isEmpty then [] else c :: sign ++ digits
      else []
  | [] => []

/-- The longest number at the beginning of a text. -/
def longest (cs : List Char) : Numeral :=
  let negative := cs.head? == some '-'
  let body := if negative then cs.drop 1 else cs
  let whole := wholeDigits body
  let rest := body.drop whole.length
  let fraction := fractionPart rest
  ⟨negative, whole, fraction, exponentPart (rest.drop fraction.length)⟩

def length (n : Numeral) : Nat :=
  (if n.negative then 1 else 0) + n.whole.length + n.fraction.length + n.exponent.length

/-- A number with a fraction or an exponent is a floating-point number. -/
def value (n : Numeral) : Except Error Value :=
  if n.fraction.isEmpty && n.exponent.isEmpty then
    if Reading.maxDigits < n.whole.length then .error .oversizedNumber
    else
      let m : Int := Reading.natValue n.whole
      .ok (.int (if n.negative then -m else m))
  else
    let digits := n.fraction.drop 1
    let e := (Reading.exponent? n.exponent).getD 0
    .ok (.real (.ofDecimal n.negative (Reading.natValue (n.whole ++ digits)) (e - digits.length)))

end Numeral

/-! ### Values -/

/-- What a text begins with, if it is one of the words. -/
def word? (cs : List Char) : Option (Value × Nat) :=
  let words : List (String × Value) :=
    [("null", .null), ("true", .bool true), ("false", .bool false), ("NaN", .real (.nan 0)),
      ("Infinity", .real (.infinite false)), ("-Infinity", .real (.infinite true))]
  (words.find? fun w => w.1.toList.isPrefixOf cs).map fun w => (w.2, w.1.length)

/-- The value that is neither array nor object at the beginning of a text, with its length. -/
def scalar (position : Nat) (cs : List Char) : Except Error (Value × Nat) :=
  match cs with
  | '"' :: rest => (string position rest).map fun r => (.text r.1, r.2)
  | _ =>
      match word? cs with
      | some r => .ok r
      | none =>
          let n := Numeral.longest cs
          if n.whole.isEmpty then .error (.malformed position)
          else n.value.map (·, n.length)

/-- An array or object that is being read: its items or entries so far, the last first, and the
name whose value comes next. -/
inductive Open
  | array (items : List Value)
  | object (entries : List (Value × Value)) (name : String)

/-- What may come next. -/
inductive Expect
  | value (closable : Bool)
  | name (closable : Bool)
  | colon
  | separator
  | stop (v : Value)

/-- Where a complete value leaves the reader. -/
def complete (v : Value) : List Open → Expect × List Open
  | [] => (.stop v, [])
  | .array items :: outer => (.separator, .array (v :: items) :: outer)
  | .object entries name :: outer => (.separator, .object ((.text name, v) :: entries) "" :: outer)

/-- Where the bracket that closes the innermost array or object leaves the reader. -/
def close : List Open → Expect × List Open
  | [] => (.stop .null, [])
  | .array items :: outer => complete (.list items.reverse) outer
  | .object entries _ :: outer => complete (Value.ofEntries entries.reverse) outer

def isSpace (c : Char) : Bool :=
  c = ' ' || c = '\t' || c = '\n' || c = '\r'

/-- Where a character that is no space leaves the reader, and how many further characters it reads
with it. -/
def step (expect : Expect) (stack : List Open) (position : Nat) (c : Char) (cs : List Char) :
    Except Error ((Expect × List Open) × Nat) :=
  let refused := .error (.malformed position)
  match expect with
  | .stop _ => refused
  | .value closable =>
      if c = '[' then .ok ((.value true, .array [] :: stack), 0)
      else if c = '\x7b' then .ok ((.name true, .object [] "" :: stack), 0)
      else if c = ']' && closable then .ok (close stack, 0)
      else (scalar position (c :: cs)).map fun r => (complete r.1 stack, r.2 - 1)
  | .name closable =>
      if c = '"' then
        (string position cs).map fun r =>
          match stack with
          | .object entries _ :: outer => ((.colon, .object entries r.1 :: outer), r.2 - 1)
          | _ => ((.colon, stack), r.2 - 1)
      else if c = '\x7d' && closable then .ok (close stack, 0)
      else refused
  | .colon => if c = ':' then .ok ((.value false, stack), 0) else refused
  | .separator =>
      match stack with
      | .array _ :: _ =>
          if c = ',' then .ok ((.value false, stack), 0)
          else if c = ']' then .ok (close stack, 0)
          else refused
      | .object _ _ :: _ =>
          if c = ',' then .ok ((.name false, stack), 0)
          else if c = '\x7d' then .ok (close stack, 0)
          else refused
      | [] => refused

def run (expect : Expect) (stack : List Open) (position : Nat) : List Char → Except Error Value
  | [] =>
      match expect with
      | .stop v => .ok v
      | _ => .error (.malformed position)
  | c :: cs =>
      if isSpace c then run expect stack (position + 1) cs
      else
        match step expect stack position c cs with
        | .error e => .error e
        | .ok ((next, outer), more) => run next outer (position + 1 + more) (cs.drop more)
termination_by cs => cs.length
decreasing_by
  · simp
  · simp only [List.length_drop, List.length_cons]
    omega

/-- Read a JSON text. -/
def read (text : List Char) : Except Error Value :=
  run (.value false) [] 0 text

end Phrasebook.Json
