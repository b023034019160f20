import Phrasebook.Condition.Eval
import Phrasebook.Proofs.Condition.Integers

/-! Chains regrouped and negated. An evaluation is followed operand by operand: a `Visit` is what it
comes to together with the operands that were evaluated for it, in order (`visit`, `result_visit`).
In these terms chains of one connective associate, and a negated chain is the chain of the negated
operands with the other connective, in the value or the error and in the operands that are
evaluated (`visit_regrouped`, `visit_negated`). What is not visited has no influence
(`visit_eq_of_agree`). -/

namespace Phrasebook

@[simp]
theorem Value.holds_bool (b : Bool) : (Value.bool b).holds = b := by
  cases b <;> rfl

namespace Condition

/-- The connective that takes the place of another when all operands are negated. -/
def Connective.dual : Connective → Connective
  | and => or
  | or => and

/-- A negated operand decides the one chain just when the operand decides the other. -/
theorem Connective.decides_dual (op : Connective) (v : Value) :
    op.dual.decides (.bool !v.holds) = op.decides v := by
  cases op with
  | and => simp [dual, decides]
  | or => simp [dual, decides]

/-! ### Evaluations operand by operand -/

/-- An evaluation: what it comes to, and the operands that are evaluated for it, in order. -/
structure Visit where
  result : Except NumberError Value
  operands : List Expr

namespace Visit

/-- An operand that is evaluated as a whole. -/
def whole (bag : Bag) (e : Expr) : Visit :=
  ⟨e.eval bag, [e]⟩

/-- An evaluation behind some operands that were evaluated before. -/
def after (operands : List Expr) (t : Visit) : Visit :=
  ⟨t.result, operands ++ t.operands⟩

/-- Evaluate an operand, and go on to the rest of its chain unless the operand fails or stops it. -/
def next (first : Visit) (stops : Value → Bool) (rest : Visit) : Visit :=
  match first.result with
  | .error _ => first
  | .ok v => if stops v then first else rest.after first.operands

/-- What an evaluation comes to, negated. -/
def negated (t : Visit) : Visit :=
  ⟨t.result.map fun v => .bool !v.holds, t.operands⟩

variable {first rest : Visit} {stops : Value → Bool} {v : Value} {x : NumberError}

theorem next_of_error (h : first.result = .error x) : first.next stops rest = first := by
  rw [next, h]

theorem next_of_stops (h : first.result = .ok v) (hstops : stops v = true) :
    first.next stops rest = first := by
  rw [next, h]
  exact if_pos hstops

theorem next_of_goes_on (h : first.result = .ok v) (hstops : stops v = false) :
    first.next stops rest = rest.after first.operands := by
  rw [next, h]
  exact if_neg (by simp [hstops])

theorem operands_subset_next (first : Visit) (stops : Value → Bool) (rest : Visit) :
    first.operands ⊆ (first.next stops rest).operands := by
  intro operand ho
  unfold next
  split
  · exact ho
  · split
    · exact ho
    · exact List.mem_append_left _ ho

/-- The last operand of a chain stops it, whatever its value. -/
theorem next_last (first : Visit) (decides : Value → Bool) (rest : Visit) :
    first.next (fun v => decides v || true) rest = first := by
  cases h : first.result with
  | error x => exact next_of_error h
  | ok v => exact next_of_stops h (Bool.or_true _)

theorem next_after (operands : List Expr) (first : Visit) (stops : Value → Bool) (rest : Visit) :
    (first.after operands).next stops rest = (first.next stops rest).after operands := by
  cases h : first.result with
  | error x =>
      have hafter : (first.after operands).result = .error x := h
      rw [next_of_error h, next_of_error hafter]
  | ok v =>
      have hafter : (first.after operands).result = .ok v := h
      cases hstops : stops v with
      | true => rw [next_of_stops h hstops, next_of_stops hafter hstops]
      | false =>
          rw [next_of_goes_on h hstops, next_of_goes_on hafter hstops]
          simp only [after, List.append_assoc]

/-- An operand in front of a group is an operand in front of what follows the group, too. -/
theorem next_next (first mid rest : Visit) (decides stops : Value → Bool)
    (hstops : ∀ v, decides v = true → stops v = true) :
    (first.next decides mid).next stops rest = first.next decides (mid.next stops rest) := by
  cases h : first.result with
  | error x => rw [next_of_error h, next_of_error h, next_of_error h]
  | ok v =>
      cases hdecides : decides v with
      | true =>
          rw [next_of_stops h hdecides, next_of_stops h hdecides,
            next_of_stops h (hstops v hdecides)]
      | false => rw [next_of_goes_on h hdecides, next_of_goes_on h hdecides, next_after]

theorem next_negated (first rest : Visit) {stops stops' : Value → Bool}
    (hstops : ∀ v, stops' (.bool !v.holds) = stops v) :
    first.negated.next stops' rest.negated = (first.next stops rest).negated := by
  cases h : first.result with
  | error x =>
      have hnegated : first.negated.result = .error x := by
        rw [negated, h]
        rfl
      rw [next_of_error h, next_of_error hnegated]
  | ok v =>
      have hnegated : first.negated.result = .ok (.bool !v.holds) := by
        rw [negated, h]
        rfl
      cases hv : stops v with
      | true => rw [next_of_stops h hv, next_of_stops hnegated ((hstops v).trans hv)]
      | false =>
          rw [next_of_goes_on h hv, next_of_goes_on hnegated ((hstops v).trans hv)]
          rfl

end Visit

namespace Expr

mutual

/-- Evaluate a condition operand by operand. Negations and chains hand the evaluation on to their
operands; literals, fields, comparisons and a chain of nothing are evaluated as a whole. -/
def visit (bag : Bag) : Expr → Visit
  | .literal v => .whole bag (.literal v)
  | .field name => .whole bag (.field name)
  | .negation e => (visit bag e).negated
  | .chain op [] => .whole bag (.chain op [])
  | .chain op (e :: es) => visitChain bag op (e :: es)
  | .comparison op left right => .whole bag (.comparison op left right)

def visitChain (bag : Bag) (op : Connective) : List Expr → Visit
  | [] => ⟨.ok .null, []⟩
  | e :: es =>
      (visit bag e).next (fun v => op.decides v || es.isEmpty) (visitChain bag op es)

end

theorem whole_eq_of_agree {bag bag' : Bag} {e : Expr}
    (h : ∀ operand ∈ (Visit.whole bag e).operands, operand.eval bag' = operand.eval bag) :
    Visit.whole bag' e = Visit.whole bag e := by
  rw [Visit.whole, Visit.whole, h e List.mem_cons_self]

variable (bag : Bag) (op : Connective)

theorem visit_chain {es : List Expr} (hne : es ≠ []) :
    visit bag (.chain op es) = visitChain bag op es := by
  cases es with
  | nil => exact absurd rfl hne
  | cons e es => rw [visit]

mutual

/-- **Operand by operand an evaluation comes to the same.** -/
theorem result_visit : ∀ e : Expr, (visit bag e).result = e.eval bag
  | .literal v => rfl
  | .field name => rfl
  | .comparison op left right => rfl
  | .negation e => by rw [visit, Visit.negated, result_visit e, eval]
  | .chain op [] => rfl
  | .chain op (e :: es) => by rw [visit, result_visitChain op (e :: es), eval]

theorem result_visitChain (op : Connective) : ∀ es : List Expr,
    (visitChain bag op es).result = evalChain bag op es
  | [] => rfl
  | e :: es => by
      have hfirst := result_visit e
      have hrest := result_visitChain op es
      rw [visitChain, evalChain]
      cases he : e.eval bag with
      | error x => rw [Visit.next_of_error (hfirst.trans he), hfirst, he]
      | ok v =>
          cases hstops : op.decides v || es.isEmpty with
          | true =>
              rw [Visit.next_of_stops (hfirst.trans he) hstops, hfirst, he]
              exact (if_pos hstops).symm
          | false =>
              rw [Visit.next_of_goes_on (hfirst.trans he) hstops]
              exact hrest.trans (if_neg (by simp [hstops])).symm

end

mutual

/-- An evaluation that fails does so at the last operand that it evaluates. -/
theorem getLast?_visit {x : NumberError} : ∀ {e : Expr}, (visit bag e).result = .error x →
    ∃ last, (visit bag e).operands.getLast? = some last ∧ last.eval bag = .error x
  | .literal v, h => ⟨_, rfl, h⟩
  | .field name, h => ⟨_, rfl, h⟩
  | .comparison op left right, h => ⟨_, rfl, h⟩
  | .negation e, h => by
      rw [visit] at h ⊢
      refine getLast?_visit ?_
      rw [Visit.negated] at h
      revert h
      cases (visit bag e).result with
      | error y => exact id
      | ok v => exact nofun
  | .chain op [], h => ⟨_, rfl, h⟩
  | .chain op (e :: es), h => by
      rw [visit] at h ⊢
      exact getLast?_visitChain op h

theorem getLast?_visitChain {x : NumberError} (op : Connective) : ∀ {es : List Expr},
    (visitChain bag op es).result = .error x →
      ∃ last, (visitChain bag op es).operands.getLast? = some last ∧ last.eval bag = .error x
  | [], h => by cases h
  | e :: es, h => by
      rw [visitChain] at h ⊢
      cases he : (visit bag e).result with
      | error y =>
          rw [Visit.next_of_error he] at h ⊢
          exact getLast?_visit h
      | ok v =>
          cases hstops : op.decides v || es.isEmpty with
          | true =>
              rw [Visit.next_of_stops he hstops, he] at h
              cases h
          | false =>
              rw [Visit.next_of_goes_on he hstops] at h ⊢
              have hrest : (visitChain bag op es).result = .error x := h
              obtain ⟨last, hlast, heval⟩ := getLast?_visitChain op hrest
              refine ⟨last, ?_, heval⟩
              rw [Visit.after, List.getLast?_append, hlast, Option.some_or]

end

mutual

/-- **What is not visited has no influence.** In another bag, in which the visited operands have the
same values, the evaluation is the same. -/
theorem visit_eq_of_agree {bag bag' : Bag} : ∀ {e : Expr},
    (∀ operand ∈ (visit bag e).operands, operand.eval bag' = operand.eval bag) →
      visit bag' e = visit bag e
  | .literal v, h => whole_eq_of_agree h
  | .field name, h => whole_eq_of_agree h
  | .comparison op left right, h => whole_eq_of_agree h
  | .negation e, h => by
      rw [visit] at h
      rw [visit, visit, visit_eq_of_agree (e := e) h]
  | .chain op [], h => whole_eq_of_agree h
  | .chain op (e :: es), h => by
      rw [visit] at h
      rw [visit, visit, visitChain_eq_of_agree op h]

theorem visitChain_eq_of_agree {bag bag' : Bag} (op : Connective) : ∀ {es : List Expr},
    (∀ operand ∈ (visitChain bag op es).operands, operand.eval bag' = operand.eval bag) →
      visitChain bag' op es = visitChain bag op es
  | [], h => rfl
  | e :: es, h => by
      rw [visitChain] at h
      have hfirst : visit bag' e = visit bag e :=
        visit_eq_of_agree fun operand ho => h operand (Visit.operands_subset_next _ _ _ ho)
      rw [visitChain, visitChain, hfirst]
      cases he : (visit bag e).result with
      | error y => rw [Visit.next_of_error he, Visit.next_of_error he]
      | ok v =>
          cases hstops : op.decides v || es.isEmpty with
          | true => rw [Visit.next_of_stops he hstops, Visit.next_of_stops he hstops]
          | false =>
              rw [Visit.next_of_goes_on he hstops] at h ⊢
              have hrest : visitChain bag' op es = visitChain bag op es :=
                visitChain_eq_of_agree op fun operand ho =>
                  h operand (List.mem_append_right _ ho)
              rw [Visit.next_of_goes_on he hstops, hrest]

end

/-! ### Chains of one connective -/

/-- What stands in front of two chains does not tell them apart. -/
theorem visitChain_append (xs : List Expr) {rest rest' : List Expr} (hne : rest ≠ [])
    (hne' : rest' ≠ []) (h : visitChain bag op rest = visitChain bag op rest') :
    visitChain bag op (xs ++ rest) = visitChain bag op (xs ++ rest') := by
  induction xs with
  | nil => exact h
  | cons x xs ih =>
      have hmore : (xs ++ rest).isEmpty = (xs ++ rest').isEmpty := by
        have hfull : xs ++ rest ≠ [] := List.append_ne_nil_of_right_ne_nil xs hne
        have hfull' : xs ++ rest' ≠ [] := List.append_ne_nil_of_right_ne_nil xs hne'
        rw [List.isEmpty_eq_false_iff.2 hfull, List.isEmpty_eq_false_iff.2 hfull']
      rw [List.cons_append, List.cons_append, visitChain, visitChain, ih, hmore]

/-- A group at the beginning of a chain may be opened. -/
theorem visitChain_group {ys : List Expr} (hne : ys ≠ []) (zs : List Expr) :
    visitChain bag op (.chain op ys :: zs) = visitChain bag op (ys ++ zs) := by
  rw [visitChain, visit_chain bag op hne]
  induction ys with
  | nil => exact absurd rfl hne
  | cons y ys ih =>
      cases ys with
      | nil =>
          rw [visitChain, List.isEmpty_nil, Visit.next_last, List.singleton_append, visitChain]
      | cons y' ys =>
          rw [List.cons_append, visitChain, Visit.next_next, ih (List.cons_ne_nil _ _)]
          · rw [visitChain]
            rfl
          · intro v hv
            rw [List.isEmpty_cons, Bool.or_false] at hv
            rw [hv, Bool.true_or]

/-- **Grouping does not matter.** -/
theorem visit_regrouped (xs : List Expr) {ys : List Expr} (hne : ys ≠ []) (zs : List Expr) :
    visit bag (.chain op (xs ++ [.chain op ys] ++ zs)) =
      visit bag (.chain op (xs ++ ys ++ zs)) := by
  have hflat : ys ++ zs ≠ [] := List.append_ne_nil_of_left_ne_nil hne zs
  have hgroup := visitChain_append bag op xs (List.cons_ne_nil _ _) hflat
    (visitChain_group bag op hne zs)
  rw [visit_chain bag op (by simp), visit_chain bag op (by simp [hne]), List.append_assoc,
    List.singleton_append, List.append_assoc]
  exact hgroup

/-! ### Negated chains -/

theorem visitChain_negation {es : List Expr} (hne : es ≠ []) :
    visitChain bag op.dual (es.map .negation) = (visitChain bag op es).negated := by
  induction es with
  | nil => exact absurd rfl hne
  | cons e es ih =>
      rw [List.map_cons, visitChain, visitChain, visit]
      cases es with
      | nil => rw [List.map_nil, List.isEmpty_nil, Visit.next_last, Visit.next_last]
      | cons e' es =>
          rw [ih (List.cons_ne_nil _ _)]
          refine Visit.next_negated _ _ fun v => ?_
          rw [op.decides_dual]
          rfl

/-- **A negated chain is the other chain of the negated operands.** -/
theorem visit_negated {es : List Expr} (hne : es ≠ []) :
    visit bag (.negation (.chain op es)) = visit bag (.chain op.dual (es.map .negation)) := by
  rw [visit, visit_chain bag op hne, visit_chain bag op.dual (by simpa using hne),
    visitChain_negation bag op hne]

/-- **Grouping and negation do not change chains.** A group of one connective may be opened in its
chain, and a negated chain is the chain of the negated operands with the other connective: both come
to the same value or error, and evaluate the same operands in the same order. An evaluation fails at
the last operand that it evaluates, and the operands that it does not evaluate have no influence. -/
theorem regrouped_and_negated (bag : Bag) :
    (∀ (op : Connective) (xs ys zs : List Expr), ys ≠ [] →
      (chain op (xs ++ [chain op ys] ++ zs)).eval bag = (chain op (xs ++ ys ++ zs)).eval bag ∧
        visit bag (chain op (xs ++ [chain op ys] ++ zs)) =
          visit bag (chain op (xs ++ ys ++ zs))) ∧
    (∀ (op : Connective) (xs : List Expr), xs ≠ [] →
      (negation (chain op xs)).eval bag = (chain op.dual (xs.map negation)).eval bag ∧
        visit bag (negation (chain op xs)) = visit bag (chain op.dual (xs.map negation))) ∧
    ∀ e, (visit bag e).result = e.eval bag ∧
      (∀ x, e.eval bag = .error x →
        ∃ last, (visit bag e).operands.getLast? = some last ∧ last.eval bag = .error x) ∧
      ∀ bag', (∀ operand ∈ (visit bag e).operands, operand.eval bag' = operand.eval bag) →
        e.eval bag' = e.eval bag := by
  refine ⟨fun op xs ys zs hne => ?_, fun op xs hne => ?_, fun e => ⟨result_visit bag e, ?_, ?_⟩⟩
  · have hvisit := visit_regrouped bag op xs hne zs
    exact ⟨by rw [← result_visit, hvisit, result_visit], hvisit⟩
  · have hvisit := visit_negated bag op hne
    exact ⟨by rw [← result_visit, hvisit, result_visit], hvisit⟩
  · intro x hx
    exact getLast?_visit bag ((result_visit bag e).trans hx)
  · intro bag' h
    rw [← result_visit bag' e, visit_eq_of_agree h, result_visit]

/-- A bag with an amount. -/
def account (amount : Int) : Bag :=
  .ofList [("vip", .bool true), ("amount", .int amount)]

/-- A comparison for which the amount has to be converted. -/
def compared : Expr :=
  .comparison .equal (.field "amount") (.literal (.int 1))

theorem eval_compared {amount : Int} (h : ¬ Binary64.Converts amount) :
    compared.eval (account amount) = .error .tooLarge := by
  have hfield : (field "amount").eval (account amount) = .ok (.int amount) := rfl
  have hcompare : Comparison.compare .equal (.int amount) (.int 1) = .error .tooLarge :=
    Comparison.compare_int_of_not_converts rfl fun hboth => h hboth.1
  rw [compared, eval_comparison .equal hfield rfl, hcompare, Except.map]

/-- The comparison behind a holding operand fails, in a group of its own or not, and the operand
behind it is never evaluated; negated, the other chain fails there too. -/
theorem regrouped_and_negated_account :
    let grouped := chain .and ([field "vip"] ++ [chain .and [compared]] ++ [field "name"])
    grouped.eval (account (2 ^ 1024)) = .error .tooLarge ∧
      (visit (account (2 ^ 1024)) grouped).operands = [field "vip", compared] ∧
      (chain .or ([field "vip", compared].map negation)).eval (account (2 ^ 1024)) =
        .error .tooLarge := by
  intro grouped
  have hfails : compared.eval (account (2 ^ 1024)) = .error .tooLarge :=
    eval_compared (by decide +kernel)
  have hvip : (field "vip").eval (account (2 ^ 1024)) = .ok (.bool true) := rfl
  generalize account (2 ^ 1024) = bag at hfails hvip ⊢
  have hfirst : (visit bag (field "vip")).result = .ok (.bool true) := hvip
  have hsecond : visit bag compared = ⟨.error .tooLarge, [compared]⟩ := by
    rw [compared, visit, Visit.whole, ← compared, hfails]
  have hbehind : ∀ rest, visitChain bag .and (compared :: rest) =
      ⟨.error .tooLarge, [compared]⟩ := by
    intro rest
    rw [visitChain, hsecond, Visit.next_of_error rfl]
  have hchain : ∀ rest, visit bag (chain .and (field "vip" :: compared :: rest)) =
      ⟨.error .tooLarge, [field "vip", compared]⟩ := by
    intro rest
    rw [visit, visitChain, hbehind, Visit.next_of_goes_on hfirst rfl]
    rfl
  obtain ⟨hregroup, hnegate, -⟩ := regrouped_and_negated bag
  have hgroup := hregroup .and [field "vip"] [compared] [field "name"] (List.cons_ne_nil _ _)
  have hdual := hnegate .and [field "vip", compared] (List.cons_ne_nil _ _)
  have hvisit := hgroup.2.trans (hchain [field "name"])
  refine ⟨?_, congrArg Visit.operands hvisit, hdual.1.symm.trans ?_⟩
  · rw [← result_visit, hvisit]
  · rw [← result_visit, visit, hchain []]
    rfl

end Expr

end Condition

end Phrasebook
