import Phrasebook.Condition.Eval
import Phrasebook.Condition.Parser
import Phrasebook.Log

/-! Rules: conditions with the templates they select. Rules are read once from the pairs that an
author wrote; a pair whose condition is malformed is dropped with a warning, and one with an
oversized number ends the reading. -/

namespace Phrasebook.Condition

structure Rule where
  source : String
  template : String
  expr : Expr

namespace Rule

/-- The template, if the condition holds. An empty template is never selected, and its condition is
not looked at. -/
def select (r : Rule) (bag : Bag) : Except NumberError (Option String) :=
  if r.template.isEmpty then .ok none
  else (r.expr.holds bag).map fun b => if b then some r.template else none

/-- The template of the first rule that selects one. -/
def firstSelected (bag : Bag) : List Rule → Except NumberError (Option String)
  | [] => .ok none
  | r :: rest =>
      match r.select bag with
      | .error e => .error e
      | .ok (some template) => .ok (some template)
      | .ok none => firstSelected bag rest

/-- The warning about a pair that was dropped. -/
def dropped (entry : String) (e : SyntaxError) : LogLine :=
  ⟨.warning, .conditions,
    "[PREDICATE] Dropped condition for " ++ (if entry.isEmpty then "?" else entry) ++ ": " ++
      e.message⟩

/-- The rules of an entry, in the order of its pairs; the error is the count of digits of an
oversized number. -/
def readAll (entry : String) : List (String × String) → Except Nat (List Rule) × Log
  | [] => (.ok [], [])
  | (source, template) :: rest =>
      match parse source with
      | .ok e =>
          let (rules, log) := readAll entry rest
          (rules.map (⟨source, template, e⟩ :: ·), log)
      | .error (.malformed e) =>
          let (rules, log) := readAll entry rest
          (rules, dropped entry e :: log)
      | .error (.tooManyDigits count) => (.error count, [])

end Rule

end Phrasebook.Condition
