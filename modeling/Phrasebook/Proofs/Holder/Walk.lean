import Mathlib.Logic.Relation
import Phrasebook.Proofs.Holder.Target

/-! Walks: a resolution one holder at a time. A moment of a walk is the row of entries in progress
with the bag as it stands; every entry but the innermost waits for the text of the one inside it. A
walk that begins with a phrase ends with the outcome of resolving it (`reaches_enter`), so what
every step of a walk keeps is true throughout every resolution. -/

namespace Phrasebook.Walk

/-- An entry in progress, with the holders that are still to be replaced. -/
structure Frame where
  key : String
  phrase : Phrase
  pending : List String

/-- An entry that waits for the text of the entry inside it, and the holder that takes the text. -/
structure Waiting extends Frame where
  holder : String

/-- A moment of a walk: the entries in progress, those that wait from the inside out, or the end. -/
inductive Moment
  | running (inner : Frame) (outer : List Waiting) (bag : Bag) (log : Log)
  | ended (o : Outcome String)

/-- The keys of the entries that wait, the outermost first. -/
def chainOf (outer : List Waiting) : List String :=
  (outer.map fun w => w.key).reverse

@[simp]
theorem chainOf_nil : chainOf [] = [] := rfl

@[simp]
theorem chainOf_cons (w : Waiting) (outer : List Waiting) :
    chainOf (w :: outer) = chainOf outer ++ [w.key] := by
  rw [chainOf, List.map_cons, List.reverse_cons]
  rfl

@[simp]
theorem length_chainOf (outer : List Waiting) : (chainOf outer).length = outer.length := by
  rw [chainOf, List.length_reverse, List.length_map]

/-- The keys of the entries in progress, the outermost first. -/
def Moment.chain : Moment → List String
  | running inner outer _ _ => chainOf outer ++ [inner.key]
  | ended _ => []

/-! ### Steps -/

/-- Begin an entry inside those that wait, unless it is one of them or they are too many. -/
def begin (limit : Nat) (outer : List Waiting) (key : String) (p : Phrase) (bag : Bag) (log : Log) :
    Moment :=
  if key ∈ chainOf outer then
    .ended ⟨.error (.holder (.cycle (chainOf outer ++ [key]))), bag, log⟩
  else if limit ≤ outer.length then
    .ended ⟨.error (.holder (.tooDeep (chainOf outer ++ [key]) limit)), bag, log⟩
  else .running ⟨key, p, p.node.holders⟩ outer bag log

/-- Hand an outcome to the entry that waits for it; an error ends the whole walk. -/
def deliver (outer : List Waiting) (o : Outcome String) : Moment :=
  match outer, o.result with
  | w :: ws, .ok text => .running w.toFrame ws (o.bag.insert w.holder (.text text)) o.log
  | _, _ => .ended o

theorem deliver_of_error {outer : List Waiting} {o : Outcome String} {e : ResolveError}
    (h : o.result = .error e) : deliver outer o = .ended o := by
  cases outer with
  | nil => rfl
  | cons w ws => simp only [deliver, h]

theorem deliver_of_ok {w : Waiting} {ws : List Waiting} {o : Outcome String} {text : String}
    (h : o.result = .ok text) :
    deliver (w :: ws) o = .running w.toFrame ws (o.bag.insert w.holder (.text text)) o.log := by
  simp only [deliver, h]

variable (scope : Scope) (limit : Nat)

/-- What follows a moment that is not the end: the innermost entry replaces its next holder, or is
rendered. -/
def advance (outer : List Waiting) (bag : Bag) (log : Log) : Frame → Moment
  | ⟨_, p, []⟩ => deliver outer ⟨(scope.render p bag).mapError .number, bag, log⟩
  | ⟨key, p, holder :: rest⟩ =>
      match scope.registry.target bag holder with
      | .absent => .running ⟨key, p, rest⟩ outer (bag.insert holder .null) log
      | .unknown k =>
          .running ⟨key, p, rest⟩ outer (bag.insert holder .null)
            (log ++ [Scope.missedLine key holder k])
      | .constant v => .running ⟨key, p, rest⟩ outer (bag.insert holder v) log
      | .phrase k q => begin limit (⟨⟨key, p, rest⟩, holder⟩ :: outer) k q bag log

inductive Step : Moment → Moment → Prop
  | advance (inner : Frame) (outer : List Waiting) (bag : Bag) (log : Log) :
      Step (.running inner outer bag log) (advance scope limit outer bag log inner)

/-- One moment comes at or after another. -/
abbrev Reaches : Moment → Moment → Prop :=
  Relation.ReflTransGen (Step scope limit)

/-! ### Where a walk ends -/

variable {scope limit}

theorem reaches_of_advance {inner : Frame} {outer : List Waiting} {bag : Bag} {log : Log}
    {m : Moment} (h : Reaches scope limit (advance scope limit outer bag log inner) m) :
    Reaches scope limit (.running inner outer bag log) m :=
  Relation.ReflTransGen.head (Step.advance inner outer bag log) h

/-- The moment when the holders of an entry are done, well or not. -/
def settled (key : String) (p : Phrase) (outer : List Waiting) (o : Outcome Unit) : Moment :=
  match o.result with
  | .ok () => .running ⟨key, p, []⟩ outer o.bag o.log
  | .error e => .ended ⟨.error e, o.bag, o.log⟩

/-- Replacing the holders of an entry is a part of its walk, if resolving the entries they stand for
is. -/
theorem reaches_substitute (follow : String → Phrase → Bag → Outcome String) {key : String}
    {p : Phrase} {outer : List Waiting}
    (hfollow : ∀ (w : Waiting) (k : String) (q : Phrase) (bag : Bag) (log : Log), w.key = key →
      Reaches scope limit (begin limit (w :: outer) k q bag log)
        (deliver (w :: outer) ((follow k q bag).after log)))
    (holders : List String) (bag : Bag) (log : Log) :
    Reaches scope limit (.running ⟨key, p, holders⟩ outer bag log)
      (settled key p outer ((scope.substitute follow key holders bag).after log)) := by
  induction holders generalizing bag log with
  | nil =>
      rw [Scope.substitute_nil, Outcome.after, List.append_nil]
      exact Relation.ReflTransGen.refl
  | cons holder rest ih =>
      apply reaches_of_advance
      rw [Scope.substitute_cons, advance]
      cases scope.registry.target bag holder with
      | absent => exact ih _ _
      | unknown k => simpa only [Outcome.after_after] using ih _ _
      | constant v => exact ih _ _
      | phrase k q =>
          refine (hfollow ⟨⟨key, p, rest⟩, holder⟩ k q bag log rfl).trans ?_
          cases hresult : (follow k q bag).result with
          | error e =>
              rw [deliver_of_error (o := (follow k q bag).after log) hresult]
              simp only [settled, Outcome.after, hresult]
              exact Relation.ReflTransGen.refl
          | ok text =>
              rw [deliver_of_ok (o := (follow k q bag).after log) hresult]
              simp only [hresult, Outcome.after_after]
              exact ih _ _

/-- **A walk ends with the outcome of the resolution.** Begun inside some entries, it comes back to
the innermost of them with that outcome. -/
theorem reaches_enter (room : Nat) (outer : List Waiting) (hlimit : outer.length + room = limit)
    (key : String) (p : Phrase) (bag : Bag) (log : Log) :
    Reaches scope limit (begin limit outer key p bag log)
      (deliver outer ((scope.enter room (chainOf outer) key p bag).after log)) := by
  induction room generalizing outer key p bag log with
  | zero =>
      have hfull : outer.length = limit := hlimit
      unfold begin Scope.enter
      rw [length_chainOf, hfull, if_pos (Nat.le_refl limit)]
      split <;> simp [deliver, Outcome.after, Relation.ReflTransGen.refl]
  | succ room ih =>
      have hroom : ¬ limit ≤ outer.length := by omega
      unfold begin Scope.enter
      by_cases hkey : key ∈ chainOf outer
      · simp [hkey, deliver, Outcome.after, Relation.ReflTransGen.refl]
      · rw [if_neg hkey, if_neg hkey, if_neg hroom]
        refine (reaches_substitute (scope.enter room (chainOf outer ++ [key]))
          (fun w k q bag log hw => ?_) p.node.holders bag log).trans ?_
        · have h := ih (w :: outer) (by rw [List.length_cons]; omega) k q bag log
          rwa [chainOf_cons, hw] at h
        · simp only [settled, Outcome.after]
          cases (scope.substitute (scope.enter room (chainOf outer ++ [key])) key p.node.holders
            bag).result with
          | error e => cases outer <;> exact Relation.ReflTransGen.refl
          | ok _ => exact reaches_of_advance Relation.ReflTransGen.refl

end Phrasebook.Walk
