import Phrasebook.Proofs.Holder.Nesting
import Phrasebook.Proofs.Registry.Building

/-! The first match. Of the pairs that an author wrote for a node, those whose source is no
condition or whose template is empty select nothing (`Condition.Dead`). Of the others the first one
whose condition holds selects its template, and a condition is evaluated only if all pairs in front
of it are passed over (`Condition.Reached`). That is how the text of a node without variants comes
about (`Scope.render_eq_ok_iff`, `Scope.render_eq_error_iff`), also when no pair is left of it at
all. -/

namespace Phrasebook

namespace Condition

/-- A pair that never selects anything: its source is no condition, or its template is empty. -/
def Dead (pair : String × String) : Prop :=
  (∀ e, ¬ Reads pair.1 e) ∨ pair.2 = ""

/-- A pair that selects nothing for a bag. -/
def PassedOver (bag : Bag) (pair : String × String) : Prop :=
  Dead pair ∨ ∃ e, Reads pair.1 e ∧ e.holds bag = .ok false

/-- All pairs in front of this template are passed over, so that its condition has to decide. -/
def Reached (bag : Bag) (pairs : List (String × String)) (template : String) (e : Expr) : Prop :=
  ∃ front source back, pairs = front ++ (source, template) :: back ∧
    (∀ pair ∈ front, PassedOver bag pair) ∧ Reads source e ∧ template ≠ ""

section

variable {bag : Bag} {pair : String × String} {pairs : List (String × String)}

theorem Reached.cons {template : String} {e : Expr} (hpair : PassedOver bag pair)
    (h : Reached bag pairs template e) : Reached bag (pair :: pairs) template e := by
  obtain ⟨front, source, back, rfl, hfront, he, htemplate⟩ := h
  exact ⟨pair :: front, source, back, rfl, List.forall_mem_cons.2 ⟨hpair, hfront⟩, he, htemplate⟩

theorem dead_or_live (pair : String × String) :
    Dead pair ∨ ∃ e, Reads pair.1 e ∧ pair.2 ≠ "" := by
  by_cases hreads : ∃ e, Reads pair.1 e
  · obtain ⟨e, he⟩ := hreads
    by_cases htemplate : pair.2 = ""
    · exact .inl (.inr htemplate)
    · exact .inr ⟨e, he, htemplate⟩
  · exact .inl (.inl (not_exists.1 hreads))

/-- All pairs are passed over, or the condition of the first that is not has to decide. -/
theorem passedOver_or_reached (bag : Bag) (pairs : List (String × String)) :
    (∀ pair ∈ pairs, PassedOver bag pair) ∨
      ∃ template e, Reached bag pairs template e ∧ e.holds bag ≠ .ok false := by
  induction pairs with
  | nil => exact .inl (List.forall_mem_nil _)
  | cons pair pairs ih =>
      by_cases hpair : PassedOver bag pair
      · rcases ih with hall | ⟨template, e, hreached, hholds⟩
        · exact .inl (List.forall_mem_cons.2 ⟨hpair, hall⟩)
        · exact .inr ⟨template, e, hreached.cons hpair, hholds⟩
      · rcases dead_or_live pair with hdead | ⟨e, he, htemplate⟩
        · exact absurd (.inl hdead) hpair
        · exact .inr ⟨pair.2, e, ⟨[], pair.1, pairs, rfl, List.forall_mem_nil _, he, htemplate⟩,
            fun hfalse => hpair (.inr ⟨e, he, hfalse⟩)⟩

end

namespace Rule

variable {bag : Bag} {pair : String × String} {pairs rest : List (String × String)}

theorem ofPair?_of_reads {e : Expr} (h : Reads pair.1 e) :
    ofPair? pair = some ⟨pair.1, pair.2, e⟩ := by
  rw [ofPair?, parse_eq_ok_iff_reads.2 h]

theorem ofPair?_of_not_reads (h : ∀ e, ¬ Reads pair.1 e) : ofPair? pair = none := by
  rw [ofPair?]
  split
  · next e hparse => exact absurd (parse_eq_ok_iff_reads.1 hparse) (h e)
  · rfl

theorem template_of_ofPair? {rule : Rule} (h : ofPair? pair = some rule) :
    rule.template = pair.2 := by
  rw [ofPair?] at h
  split at h
  · cases h
    rfl
  · cases h

theorem select_of_empty {rule : Rule} (h : rule.template = "") : rule.select bag = .ok none := by
  rw [select, h]
  rfl

theorem select_of_ne_empty {rule : Rule} (h : rule.template ≠ "") :
    rule.select bag =
      (rule.expr.holds bag).map fun b => if b then some rule.template else none := by
  rw [select, if_neg (by simpa using h)]

/-! ### One pair -/

theorem firstSelected_of_dead (h : Dead pair) :
    firstSelected bag ((pair :: rest).filterMap ofPair?) =
      firstSelected bag (rest.filterMap ofPair?) := by
  cases hrule : ofPair? pair with
  | none => rw [List.filterMap_cons_none hrule]
  | some rule =>
      -- a pair with a rule is a condition, so it is dead for its template
      have hempty : rule.template = "" := by
        rw [template_of_ofPair? hrule]
        refine h.resolve_left fun hreads => ?_
        rw [ofPair?_of_not_reads hreads] at hrule
        cases hrule
      rw [List.filterMap_cons_some hrule, firstSelected, select_of_empty hempty]

/-- The condition of a live pair decides about it. -/
theorem firstSelected_of_live {e : Expr} (he : Reads pair.1 e) (htemplate : pair.2 ≠ "") :
    firstSelected bag ((pair :: rest).filterMap ofPair?) =
      match e.holds bag with
      | .error x => .error x
      | .ok true => .ok (some pair.2)
      | .ok false => firstSelected bag (rest.filterMap ofPair?) := by
  rw [List.filterMap_cons_some (ofPair?_of_reads he), firstSelected, select_of_ne_empty htemplate]
  cases e.holds bag with
  | error x => rfl
  | ok b => cases b <;> rfl

theorem firstSelected_of_passedOver (h : PassedOver bag pair) :
    firstSelected bag ((pair :: rest).filterMap ofPair?) =
      firstSelected bag (rest.filterMap ofPair?) := by
  rcases h with hdead | ⟨e, he, hfalse⟩
  · exact firstSelected_of_dead hdead
  · by_cases htemplate : pair.2 = ""
    · exact firstSelected_of_dead (.inr htemplate)
    · rw [firstSelected_of_live he htemplate, hfalse]

/-! ### Rows of pairs -/

/-- Pairs that are passed over are as good as not there. -/
theorem firstSelected_append {front : List (String × String)}
    (h : ∀ pair ∈ front, PassedOver bag pair) (back : List (String × String)) :
    firstSelected bag ((front ++ back).filterMap ofPair?) =
      firstSelected bag (back.filterMap ofPair?) := by
  induction front with
  | nil => rfl
  | cons pair front ih =>
      obtain ⟨hpair, hfront⟩ := List.forall_mem_cons.1 h
      rw [List.cons_append, firstSelected_of_passedOver hpair, ih hfront]

theorem firstSelected_of_all_passedOver (h : ∀ pair ∈ pairs, PassedOver bag pair) :
    firstSelected bag (pairs.filterMap ofPair?) = .ok none := by
  have hnone := firstSelected_append h []
  rwa [List.append_nil] at hnone

theorem firstSelected_of_reached {template : String} {e : Expr} (h : Reached bag pairs template e) :
    (e.holds bag = .ok true → firstSelected bag (pairs.filterMap ofPair?) = .ok (some template)) ∧
      ∀ x, e.holds bag = .error x →
        firstSelected bag (pairs.filterMap ofPair?) = .error x := by
  obtain ⟨front, source, back, rfl, hfront, he, htemplate⟩ := h
  have hlive : Reads (source, template).1 e := he
  rw [firstSelected_append hfront, firstSelected_of_live hlive htemplate]
  constructor
  · intro htrue
    rw [htrue]
  · intro x hx
    rw [hx]

/-- What some pairs come to: nothing if all are passed over, and else what the condition decides
that is reached. -/
theorem firstSelected_cases (bag : Bag) (pairs : List (String × String)) :
    ((∀ pair ∈ pairs, PassedOver bag pair) ∧
      firstSelected bag (pairs.filterMap ofPair?) = .ok none) ∨
    ∃ template e, Reached bag pairs template e ∧
      ((e.holds bag = .ok true ∧
        firstSelected bag (pairs.filterMap ofPair?) = .ok (some template)) ∨
      ∃ x, e.holds bag = .error x ∧ firstSelected bag (pairs.filterMap ofPair?) = .error x) := by
  rcases passedOver_or_reached bag pairs with hall | ⟨template, e, hreached, hholds⟩
  · exact .inl ⟨hall, firstSelected_of_all_passedOver hall⟩
  · refine .inr ⟨template, e, hreached, ?_⟩
    cases hresult : e.holds bag with
    | error x => exact .inr ⟨x, rfl, (firstSelected_of_reached hreached).2 x hresult⟩
    | ok b =>
        cases b with
        | false => exact absurd hresult hholds
        | true => exact .inl ⟨rfl, (firstSelected_of_reached hreached).1 hresult⟩

theorem firstSelected_eq_some_iff {template : String} :
    firstSelected bag (pairs.filterMap ofPair?) = .ok (some template) ↔
      ∃ e, Reached bag pairs template e ∧ e.holds bag = .ok true := by
  constructor
  · intro h
    rcases firstSelected_cases bag pairs with ⟨-, hnone⟩ | ⟨reached, e, hreached, hsome | hfails⟩
    · rw [hnone] at h
      cases h
    · rw [hsome.2] at h
      cases h
      exact ⟨e, hreached, hsome.1⟩
    · obtain ⟨x, -, hx⟩ := hfails
      rw [hx] at h
      cases h
  · rintro ⟨e, hreached, htrue⟩
    exact (firstSelected_of_reached hreached).1 htrue

theorem firstSelected_eq_none_iff :
    firstSelected bag (pairs.filterMap ofPair?) = .ok none ↔
      ∀ pair ∈ pairs, PassedOver bag pair := by
  constructor
  · intro h
    rcases firstSelected_cases bag pairs with ⟨hall, -⟩ | ⟨reached, e, -, hsome | hfails⟩
    · exact hall
    · rw [hsome.2] at h
      cases h
    · obtain ⟨x, -, hx⟩ := hfails
      rw [hx] at h
      cases h
  · exact firstSelected_of_all_passedOver

theorem firstSelected_eq_error_iff {x : NumberError} :
    firstSelected bag (pairs.filterMap ofPair?) = .error x ↔
      ∃ template e, Reached bag pairs template e ∧ e.holds bag = .error x := by
  constructor
  · intro h
    rcases firstSelected_cases bag pairs with ⟨-, hnone⟩ | ⟨reached, e, hreached, hsome | hfails⟩
    · rw [hnone] at h
      cases h
    · rw [hsome.2] at h
      cases h
    · obtain ⟨y, hy, hresult⟩ := hfails
      rw [hresult] at h
      cases h
      exact ⟨reached, e, hreached, hy⟩
  · rintro ⟨template, e, hreached, hx⟩
    exact (firstSelected_of_reached hreached).2 x hx

/-- Dead pairs may be left out. -/
theorem firstSelected_filter {keep : String × String → Bool}
    (h : ∀ pair ∈ pairs, keep pair = false → Dead pair) :
    firstSelected bag ((pairs.filter keep).filterMap ofPair?) =
      firstSelected bag (pairs.filterMap ofPair?) := by
  induction pairs with
  | nil => rfl
  | cons pair pairs ih =>
      obtain ⟨hpair, hpairs⟩ := List.forall_mem_cons.1 h
      cases hkeep : keep pair with
      | false =>
          rw [List.filter_cons_of_neg (by simp [hkeep]), ih hpairs,
            firstSelected_of_dead (hpair hkeep)]
      | true =>
          rw [List.filter_cons_of_pos hkeep]
          cases hrule : ofPair? pair with
          | none => rw [List.filterMap_cons_none hrule, List.filterMap_cons_none hrule, ih hpairs]
          | some rule =>
              rw [List.filterMap_cons_some hrule, List.filterMap_cons_some hrule, firstSelected,
                firstSelected, ih hpairs]

end Rule

end Condition

/-! ### Texts of nodes -/

open Condition (Dead PassedOver Reached)
open Condition.Rule (ofPair? firstSelected firstSelected_eq_some_iff firstSelected_eq_none_iff
  firstSelected_eq_error_iff)

/-- The phrase of a key and a node, with the rules of those of its conditions that are
well-formed. -/
def Phrase.ofNode (key : String) (n : Node) : Phrase :=
  ⟨key, n, (Blueprint.Definition.phrase n).conditions.filterMap ofPair?⟩

theorem Blueprint.Definition.entry_phrase (key : String) (n : Node) :
    (Blueprint.Definition.phrase n).entry key = .phrase (.ofNode key n) := rfl

namespace Scope

variable {scope : Scope} {key : String} {n : Node} {bag : Bag}

/-- Without variants it is the conditions that count, and no conditions select nothing. -/
theorem render_of_no_variants (hvariants : n.variants.isEmpty = true) :
    scope.render (.ofNode key n) bag =
      (firstSelected bag (n.conditions.entries.filterMap ofPair?)).map fun selected =>
        Template.fill (selected.getD n.value) bag scope.placeholders := by
  cases hconditions : n.conditions.entries with
  | nil =>
      have hnone : n.conditions.isEmpty = true := by rw [OrderedMap.isEmpty, hconditions]; rfl
      have hkind : n.kind = .plain := by simp [Node.kind, hvariants, hnone]
      simp only [render, Phrase.ofNode, hkind]
      rfl
  | cons pair pairs =>
      have hsome : n.conditions.isEmpty = false := by rw [OrderedMap.isEmpty, hconditions]; rfl
      have hkind : n.kind = .conditional := by simp [Node.kind, hvariants, hsome]
      simp only [render, Phrase.ofNode, Blueprint.Definition.conditions, hkind, if_true,
        hconditions]
      cases firstSelected bag ((pair :: pairs).filterMap ofPair?) <;> rfl

/-- **The first match wins**, and the base text if there is none. -/
theorem render_eq_ok_iff (hvariants : n.variants.isEmpty = true) {text : String} :
    scope.render (.ofNode key n) bag = .ok text ↔
      (∃ template e, Reached bag n.conditions.entries template e ∧ e.holds bag = .ok true ∧
        text = Template.fill template bag scope.placeholders) ∨
      (∀ pair ∈ n.conditions.entries, PassedOver bag pair) ∧
        text = Template.fill n.value bag scope.placeholders := by
  rw [render_of_no_variants hvariants, ← firstSelected_eq_none_iff]
  constructor
  · intro h
    cases hselected : firstSelected bag (n.conditions.entries.filterMap ofPair?) with
    | error x =>
        rw [hselected] at h
        cases h
    | ok selected =>
        rw [hselected] at h
        cases h
        cases selected with
        | none => exact .inr ⟨rfl, rfl⟩
        | some template =>
            obtain ⟨e, hreached, htrue⟩ := firstSelected_eq_some_iff.1 hselected
            exact .inl ⟨template, e, hreached, htrue, rfl⟩
  · rintro (⟨template, e, hreached, htrue, rfl⟩ | ⟨hnone, rfl⟩)
    · rw [firstSelected_eq_some_iff.2 ⟨e, hreached, htrue⟩]
      rfl
    · rw [hnone]
      rfl

/-- **An evaluation fails only where no earlier pair has matched.** -/
theorem render_eq_error_iff (hvariants : n.variants.isEmpty = true) {x : NumberError} :
    scope.render (.ofNode key n) bag = .error x ↔
      ∃ template e, Reached bag n.conditions.entries template e ∧ e.holds bag = .error x := by
  rw [render_of_no_variants hvariants, ← firstSelected_eq_error_iff]
  cases firstSelected bag (n.conditions.entries.filterMap ofPair?) with
  | error y => simp [Except.map]
  | ok selected => simp [Except.map]

end Scope

end Phrasebook
