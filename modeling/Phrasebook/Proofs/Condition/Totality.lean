import Phrasebook.Condition.Rule
import Phrasebook.OrderedMap.Lemmas
import Phrasebook.Proofs.Condition.Printing
import Phrasebook.Proofs.Number.Range

/-! Conditions that always have a value. Of all that evaluation does, only the conversion of an
integer to a floating-point number can fail, and only beyond the range of these numbers. So if the
integers of a bag and of the literals of a condition are in range, every comparison of any two sorts
of value has an answer (`Comparison.exists_compare`), every condition has a value, which is in range
again (`Expr.exists_eval`), and rules always come to a selection (`Rule.exists_firstSelected`). -/

namespace Phrasebook

namespace Value

mutual

/-- Every integer in a value, at any depth, converts to a floating-point number. -/
def InRange : Value → Prop
  | .int n => n.natAbs + 2 ^ 970 < 2 ^ 1024
  | .list items => AllInRange items
  | .map entries => EntriesInRange entries
  | _ => True

def AllInRange : List Value → Prop
  | [] => True
  | v :: vs => v.InRange ∧ AllInRange vs

def EntriesInRange : List (Value × Value) → Prop
  | [] => True
  | (k, v) :: rest => k.InRange ∧ v.InRange ∧ EntriesInRange rest

end

/-- The integers up to which floating-point numbers are exact are in range. -/
theorem inRange_int {n : Int} (h : n.natAbs ≤ 2 ^ 53) : InRange (.int n) := by
  rw [InRange]
  have hroom : 2 ^ 53 + 2 ^ 970 < 2 ^ 1024 := by
    decide +kernel
  exact (Nat.add_le_add_right h _).trans_lt hroom

theorem exists_toNumber {v : Value} (h : v.InRange) : ∃ x, v.toNumber = .ok x := by
  cases v with
  | int n =>
      rw [InRange, ← Nat.not_le, ← Binary64.ofInt?_eq_none_iff] at h
      obtain ⟨x, hx⟩ := Option.ne_none_iff_exists'.1 h
      refine ⟨x, ?_⟩
      rw [toNumber, hx]
      rfl
  | _ => exact ⟨_, rfl⟩

variable {left right : Value}

theorem exists_asNumbers (test : Binary64 → Binary64 → Bool) (hleft : left.InRange)
    (hright : right.InRange) : ∃ b, asNumbers test left right = .ok b := by
  obtain ⟨x, hx⟩ := exists_toNumber hleft
  obtain ⟨y, hy⟩ := exists_toNumber hright
  refine ⟨test x y, ?_⟩
  simp only [asNumbers, hx, hy]

theorem exists_looseEq (hleft : left.InRange) (hright : right.InRange) :
    ∃ b, left.looseEq right = .ok b := by
  unfold looseEq
  by_cases hnull : (left.isNull || right.isNull) = true
  · exact ⟨_, if_pos hnull⟩
  · rw [if_neg hnull]
    by_cases htext : (left.isText && right.isText) = true
    · exact ⟨_, if_pos htext⟩
    · rw [if_neg htext]
      by_cases hnumeric : (left.isNumeric || right.isNumeric) = true
      · rw [if_pos hnumeric]
        exact exists_asNumbers Binary64.eq hleft hright
      · exact ⟨_, if_neg hnumeric⟩

theorem exists_ordered (ofTexts : String → String → Bool) (ofNumbers : Binary64 → Binary64 → Bool)
    (hleft : left.InRange) (hright : right.InRange) :
    ∃ b, ordered ofTexts ofNumbers left right = .ok b := by
  unfold ordered
  split
  · exact ⟨_, rfl⟩
  · exact exists_asNumbers ofNumbers hleft hright

end Value

/-- Every integer in a bag is in range. -/
def Bag.InRange (bag : Bag) : Prop :=
  ∀ name v, bag.get? name = some v → v.InRange

theorem Bag.InRange.insert {bag : Bag} (h : bag.InRange) (name : String) {v : Value}
    (hv : v.InRange) : Bag.InRange (bag.insert name v) := by
  intro other w hw
  rw [OrderedMap.get?_insert] at hw
  by_cases hname : other = name
  · rw [if_pos hname, Option.some.injEq] at hw
    exact hw ▸ hv
  · rw [if_neg hname] at hw
    exact h other w hw

namespace Condition

/-- **Any two values compare.** -/
theorem Comparison.exists_compare (op : Comparison) {x y : Value} (hx : x.InRange)
    (hy : y.InRange) : ∃ b, op.compare x y = .ok b := by
  cases op with
  | identical => exact ⟨_, rfl⟩
  | notIdentical => exact ⟨_, rfl⟩
  | equal => exact Value.exists_looseEq hx hy
  | notEqual =>
      obtain ⟨b, hb⟩ := Value.exists_looseEq hx hy
      refine ⟨!b, ?_⟩
      rw [compare, hb]
      rfl
  | less => exact Value.exists_ordered _ _ hx hy
  | atMost => exact Value.exists_ordered _ _ hx hy
  | greater => exact Value.exists_ordered _ _ hx hy
  | atLeast => exact Value.exists_ordered _ _ hx hy

/-! ### Conditions -/

namespace Expr

/-- The literals of a condition are in range. -/
def InRange (e : Expr) : Prop :=
  ∀ v, e.HasLiteral v → v.InRange

mutual

/-- Every condition has a value, and no comparison makes an integer that is out of range. -/
theorem exists_eval {bag : Bag} (hbag : bag.InRange) : ∀ {e : Expr}, e.InRange →
    ∃ v, e.eval bag = .ok v ∧ v.InRange
  | .literal v, h => ⟨v, rfl, h v .literal⟩
  | .field name, _ => by
      refine ⟨(bag.get? name).getD .null, rfl, ?_⟩
      cases hget : bag.get? name with
      | none => trivial
      | some v => exact hbag name v hget
  | .negation e, h => by
      obtain ⟨v, hv, -⟩ := exists_eval hbag (e := e) fun w hw => h w (.negation hw)
      refine ⟨.bool !v.holds, ?_, trivial⟩
      rw [eval, hv]
      rfl
  | .chain op es, h => exists_evalChain hbag op fun e he v hv => h v (.chain op he hv)
  | .comparison op left right, h => by
      obtain ⟨x, hx, hxrange⟩ := exists_eval hbag (e := left) fun v hv => h v (.left op right hv)
      obtain ⟨y, hy, hyrange⟩ := exists_eval hbag (e := right) fun v hv => h v (.right op left hv)
      obtain ⟨b, hb⟩ := op.exists_compare hxrange hyrange
      refine ⟨.bool b, ?_, trivial⟩
      simp only [eval, hx, hy, hb]
      rfl

theorem exists_evalChain {bag : Bag} (hbag : bag.InRange) (op : Connective) : ∀ {es : List Expr},
    (∀ e ∈ es, e.InRange) → ∃ v, evalChain bag op es = .ok v ∧ v.InRange
  | [], _ => ⟨.null, rfl, trivial⟩
  | e :: es, h => by
      obtain ⟨v, hv, hrange⟩ := exists_eval hbag (e := e) (h e List.mem_cons_self)
      have hrest : ∀ e' ∈ es, e'.InRange := fun e' he' => h e' (List.mem_cons_of_mem _ he')
      obtain ⟨w, hw, hwrange⟩ := exists_evalChain hbag op hrest
      simp only [evalChain, hv]
      by_cases hdecides : (op.decides v || es.isEmpty) = true
      · exact ⟨v, if_pos hdecides, hrange⟩
      · exact ⟨w, (if_neg hdecides).trans hw, hwrange⟩

end

end Expr

namespace Rule

variable {bag : Bag}

theorem exists_select (hbag : bag.InRange) {rule : Rule} (h : rule.expr.InRange) :
    ∃ selected, rule.select bag = .ok selected := by
  unfold select
  by_cases hempty : rule.template.isEmpty = true
  · exact ⟨none, if_pos hempty⟩
  · obtain ⟨v, hv, -⟩ := Expr.exists_eval hbag h
    rw [if_neg hempty, Expr.holds, hv]
    exact ⟨_, rfl⟩

/-- **Rules always come to a selection.** -/
theorem exists_firstSelected (hbag : bag.InRange) {rules : List Rule}
    (h : ∀ rule ∈ rules, rule.expr.InRange) :
    ∃ selected, firstSelected bag rules = .ok selected := by
  induction rules with
  | nil => exact ⟨none, rfl⟩
  | cons rule rest ih =>
      obtain ⟨selected, hselected⟩ := exists_select hbag (h rule List.mem_cons_self)
      rw [firstSelected, hselected]
      cases selected with
      | some template => exact ⟨some template, rfl⟩
      | none => exact ih fun r hr => h r (List.mem_cons_of_mem _ hr)

end Rule

end Condition

end Phrasebook
