import Phrasebook.Condition.Expr
import Phrasebook.Number.Reading
import Phrasebook.Text.Quoted

/-! Trees read from the tokens of a condition, one token at a time. The state of the reading is the
expression begun so far: for every open parenthesis, and for the whole, the operands of its chains
that are complete, the comparison under way, and the negations that wait for their operand. A token
that no expression could go on with is refused at once, so an error always names the first token
from which the condition is past saving, or its end. -/

namespace Phrasebook.Condition

/-! ### Errors -/

inductive Reason
  | unexpectedCharacter (c : Char)
  | empty
  | unexpected (text : String)
  | chainedComparisons
  | endsTooEarly
  | missingParen
  | emptyField
  | unknownName (name : String)
  deriving DecidableEq

def Reason.message : Reason → String
  | unexpectedCharacter c => "unexpected character " ++ Text.quoted (String.ofList [c])
  | empty => "empty condition"
  | unexpected text => "unexpected " ++ Text.quoted text
  | chainedComparisons => "chained comparisons need parentheses"
  | endsTooEarly => "expression ends too early"
  | missingParen => "missing ')'"
  | emptyField => "empty field reference"
  | unknownName name =>
      "unknown name " ++ Text.quoted name ++ " (reference parameters as \x7b" ++ name ++ "\x7d)"

structure SyntaxError where
  source : String
  reason : Reason
  position : Nat
  deriving DecidableEq

def SyntaxError.message (e : SyntaxError) : String :=
  "Invalid condition " ++ Text.quoted e.source ++ " at position " ++ toString e.position ++ ": " ++
    e.reason.message

/-- Why a source gives no tree: it is no condition, or it is one with a whole number of too many
digits. -/
inductive ParseError
  | malformed (e : SyntaxError)
  | tooManyDigits (count : Nat)
  deriving DecidableEq

/-! ### Operands -/

/-- The text that a quoted body stands for. -/
def unescape : List Char → List Char
  | [] => []
  | [c] => [c]
  | c :: d :: cs => if c = '\\' then d :: unescape cs else c :: unescape (d :: cs)

/-- Why a token is refused where it stands. -/
inductive Refusal
  | reason (r : Reason)
  | tooManyDigits (count : Nat)
  deriving DecidableEq

/-- The value of a number token; a point makes it a floating-point number. -/
def numberValue (negative : Bool) (whole : List Char) : Option (List Char) → Except Refusal Value
  | some digits =>
      .ok (.real (.ofDecimal negative (Text.digitsValue (whole ++ digits)) (-digits.length)))
  | none =>
      if Reading.maxDigits < whole.length then .error (.tooManyDigits whole.length)
      else
        let n : Int := Text.digitsValue whole
        .ok (.int (if negative then -n else n))

/-- The values that have a name. -/
def namedValue? (name : String) : Option Value :=
  if name = "true" then some (.bool true)
  else if name = "false" then some (.bool false)
  else if name = "null" ∨ name = "undefined" then some .null
  else none

/-- The operand that a single token is. -/
def operand (l : Lexeme) : Except Refusal Expr :=
  match l with
  | .field body =>
      let name := Text.trim body
      if name.isEmpty then .error (.reason .emptyField) else .ok (.field (String.ofList name))
  | .number negative whole fraction => (numberValue negative whole fraction).map .literal
  | .quoted _ body => .ok (.literal (.text (String.ofList (unescape body))))
  | .name spelling =>
      match namedValue? (String.ofList spelling) with
      | some v => .ok (.literal v)
      | none => .error (.reason (.unknownName (String.ofList spelling)))
  | _ => .error (.reason (.unexpected l.text))

/-! ### The state of a reading -/

/-- An expression begun: complete operands of the `or` chain, complete operands of the `and` chain
at its end, the words `not` before the comparison under way, its left side and operator if it has
got so far, and the signs `!` before the operand that is due. -/
structure Level where
  alternatives : List Expr
  conjuncts : List Expr
  nots : Nat
  left : Option (Expr × Comparison)
  bangs : Nat

namespace Level

/-- Nothing begun yet. -/
def start : Level :=
  ⟨[], [], 0, none, 0⟩

/-- The operand of the `and` chain that ends with an operand. -/
def conjunct (level : Level) (e : Expr) : Expr :=
  Expr.negated level.nots
    (match level.left with
      | none => e
      | some (left, op) => .comparison op left e)

/-- The operand of the `or` chain that ends with an operand. -/
def alternative (level : Level) (e : Expr) : Expr :=
  Expr.join .and (level.conjuncts ++ [level.conjunct e])

/-- The whole expression that ends with an operand. -/
def close (level : Level) (e : Expr) : Expr :=
  Expr.join .or (level.alternatives ++ [level.alternative e])

/-- Go on behind a connective. -/
def continued (level : Level) (e : Expr) : Connective → Level
  | .and => ⟨level.alternatives, level.conjuncts ++ [level.conjunct e], 0, none, 0⟩
  | .or => ⟨level.alternatives ++ [level.alternative e], [], 0, none, 0⟩

end Level

/-- The levels around the open parentheses, the innermost first, the level being read, and the
operand just read, if the next token comes behind one. -/
structure State where
  outer : List Level
  level : Level
  operand : Option Expr

namespace State

def start : State :=
  ⟨[], .start, none⟩

/-- The signs `!` in front of an operand apply to it. -/
def withOperand (outer : List Level) (level : Level) (e : Expr) : State :=
  ⟨outer, ⟨level.alternatives, level.conjuncts, level.nots, level.left, 0⟩,
    some (Expr.negated level.bangs e)⟩

/-- Read a token where an operand is due. -/
def readOperand (outer : List Level) (level : Level) (l : Lexeme) : Except Refusal State :=
  match l with
  | .operator .bang =>
      .ok ⟨outer, ⟨level.alternatives, level.conjuncts, level.nots, level.left, level.bangs + 1⟩,
        none⟩
  | .operator .not =>
      if level.left.isNone && level.bangs == 0 then
        .ok ⟨outer, ⟨level.alternatives, level.conjuncts, level.nots + 1, none, 0⟩, none⟩
      else .error (.reason (.unexpected l.text))
  | .openParen => .ok ⟨level :: outer, .start, none⟩
  | _ => (Condition.operand l).map (withOperand outer level)

/-- Read a token behind an operand. -/
def readOperator (outer : List Level) (level : Level) (e : Expr) (l : Lexeme) :
    Except Refusal State :=
  match l with
  | .operator (.compare op) =>
      if level.left.isNone then
        .ok ⟨outer, ⟨level.alternatives, level.conjuncts, level.nots, some (e, op), 0⟩, none⟩
      else .error (.reason .chainedComparisons)
  | .operator (.connect op) => .ok ⟨outer, level.continued e op, none⟩
  | _ =>
      match outer, l with
      | [], _ => .error (.reason (.unexpected l.text))
      | around :: outer, .closeParen => .ok (withOperand outer around (level.close e))
      | _ :: _, _ => .error (.reason .missingParen)

def read (s : State) (l : Lexeme) : Except Refusal State :=
  match s.operand with
  | none => readOperand s.outer s.level l
  | some e => readOperator s.outer s.level e l

/-- The tree of a condition that ends here. -/
def finish (s : State) : Except Reason Expr :=
  match s.operand, s.outer with
  | none, _ => .error .endsTooEarly
  | some e, [] => .ok (s.level.close e)
  | some _, _ :: _ => .error .missingParen

end State

/-! ### Parsing -/

/-- Read tokens one after the other; a refusal comes with its position. -/
def readAll : State → List Token → Except (Refusal × Nat) State
  | s, [] => .ok s
  | s, t :: ts =>
      match s.read t.lexeme with
      | .ok next => readAll next ts
      | .error r => .error (r, t.position)

/-- The tree of a token list, read in front of position `stop`. -/
def parseTokens (ts : List Token) (stop : Nat) : Except (Refusal × Nat) Expr :=
  if ts.isEmpty then .error (.reason .empty, stop)
  else
    match readAll .start ts with
    | .error e => .error e
    | .ok s => s.finish.mapError fun r => (.reason r, stop)

/-- The tokens of a condition. -/
def tokenize (source : String) : Except SyntaxError (List Token) :=
  (tokens source).mapError fun u => ⟨source, .unexpectedCharacter u.char, u.position⟩

/-- The tree of a condition. -/
def parse (source : String) : Except ParseError Expr :=
  match tokenize source with
  | .error e => .error (.malformed e)
  | .ok ts =>
      match parseTokens ts source.length with
      | .ok e => .ok e
      | .error (.reason r, position) => .error (.malformed ⟨source, r, position⟩)
      | .error (.tooManyDigits count, _) => .error (.tooManyDigits count)

end Phrasebook.Condition
