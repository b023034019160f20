import Phrasebook.Condition.Token
import Phrasebook.Value

/-! Conditions as trees. A tree holds what a condition asks for and nothing of how it was written:
parentheses, blanks and the spelling of operators are gone. -/

namespace Phrasebook.Condition

inductive Expr
  | literal (v : Value)
  | field (name : String)
  | negation (operand : Expr)
  | chain (op : Connective) (operands : List Expr)
  | comparison (op : Comparison) (left right : Expr)

namespace Expr

instance : Inhabited Expr := ⟨.literal .null⟩

/-- The chain of some operands; a single operand stands for itself. -/
def join (op : Connective) : List Expr → Expr
  | [e] => e
  | es => .chain op es

/-- An operand behind some negations. -/
def negated : Nat → Expr → Expr
  | 0, e => e
  | n + 1, e => .negation (negated n e)

end Expr

end Phrasebook.Condition
