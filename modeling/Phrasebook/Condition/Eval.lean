import Phrasebook.Condition.Expr
import Phrasebook.Value.Compare

/-! The value of a condition in a bag. A chain stops at the operand that decides it and has that
operand's value; a comparison looks at its left side first. -/

namespace Phrasebook.Condition

/-- Whether an operand decides its chain: a failing one an `and` chain, a holding one an `or`. -/
def Connective.decides : Connective → Value → Bool
  | and, v => !v.holds
  | or, v => v.holds

/-- Whether two values compare this way. Texts are in the order of their code points, and NaN is in
no order. -/
def Comparison.compare : Comparison → Value → Value → Except NumberError Bool
  | identical, x, y => .ok (x.strictEq y)
  | notIdentical, x, y => .ok (!x.strictEq y)
  | equal, x, y => x.looseEq y
  | notEqual, x, y => (x.looseEq y).map (!·)
  | less, x, y => Value.ordered (fun s t => decide (s < t)) Binary64.lt x y
  | atMost, x, y => Value.ordered (fun s t => !decide (t < s)) Binary64.le x y
  | greater, x, y => Value.ordered (fun s t => decide (t < s)) (fun a b => b.lt a) x y
  | atLeast, x, y => Value.ordered (fun s t => !decide (s < t)) (fun a b => b.le a) x y

namespace Expr

mutual

def eval (bag : Bag) : Expr → Except NumberError Value
  | .literal v => .ok v
  | .field name => .ok ((bag.get? name).getD .null)
  | .negation e => (eval bag e).map fun v => .bool !v.holds
  | .chain op es => evalChain bag op es
  | .comparison op left right =>
      match eval bag left with
      | .error e => .error e
      | .ok x =>
          match eval bag right with
          | .error e => .error e
          | .ok y => (op.compare x y).map .bool

/-- The value of a chain: that of the first operand that decides it, else of the last one. -/
def evalChain (bag : Bag) (op : Connective) : List Expr → Except NumberError Value
  | [] => .ok .null
  | e :: es =>
      match eval bag e with
      | .error x => .error x
      | .ok v => if op.decides v || es.isEmpty then .ok v else evalChain bag op es

end

/-- Whether a condition holds in a bag. -/
def holds (bag : Bag) (e : Expr) : Except NumberError Bool :=
  (e.eval bag).map Value.holds

end Expr

end Phrasebook.Condition
