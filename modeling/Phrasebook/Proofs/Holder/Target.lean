import Phrasebook.OrderedMap.Lemmas
import Phrasebook.Resolve

/-! What a holder stands for. The value of a holder, as a phrase would show it, is the key that the
holder refers to; following it gives nothing, a key of no entry, a constant or a phrase. Replacing
holders is a case distinction on that alone (`substitute_cons`). -/

namespace Phrasebook

/-- The outcome of what comes after some lines were logged. -/
def Outcome.after {α : Type} (log : Log) (o : Outcome α) : Outcome α :=
  ⟨o.result, o.bag, log ++ o.log⟩

@[simp]
theorem Outcome.after_after {α : Type} (log more : Log) (o : Outcome α) :
    (o.after more).after log = o.after (log ++ more) := by
  simp only [Outcome.after, List.append_assoc]

/-- The key that a name refers to in a bag, if it has a value there. -/
def Bag.reference (bag : Bag) (name : String) : Option String :=
  (Template.present (bag.get? name)).map Value.shown

/-- Writing a name changes the reference of no other. -/
theorem Bag.reference_insert_of_ne {bag : Bag} {name other : String} (v : Value)
    (h : other ≠ name) : Bag.reference (bag.insert name v) other = Bag.reference bag other := by
  rw [reference, reference, OrderedMap.get?_insert, if_neg h]

inductive Target
  | absent
  | unknown (key : String)
  | constant (v : Value)
  | phrase (key : String) (p : Phrase)

namespace Registry

/-- What a holder stands for. -/
def target (r : Registry) (bag : Bag) (holder : String) : Target :=
  match Bag.reference bag holder with
  | none => .absent
  | some key =>
      match r.get? key with
      | none => .unknown key
      | some (.constant v) => .constant v
      | some (.phrase p) => .phrase key p

theorem target_eq_phrase_iff {r : Registry} {bag : Bag} {holder key : String} {p : Phrase} :
    r.target bag holder = .phrase key p ↔
      Bag.reference bag holder = some key ∧ r.get? key = some (.phrase p) := by
  constructor
  · intro h
    unfold target at h
    split at h
    · cases h
    · next k hk =>
        split at h
        · cases h
        · cases h
        · next q hq =>
            cases h
            exact ⟨hk, hq⟩
  · rintro ⟨hr, hp⟩
    simp only [target, hr, hp]

theorem exists_of_target_eq_constant {r : Registry} {bag : Bag} {holder : String} {v : Value}
    (h : r.target bag holder = .constant v) : ∃ key, r.get? key = some (.constant v) := by
  unfold target at h
  split at h
  · cases h
  · next k hk =>
      split at h
      · cases h
      · next c hc =>
          cases h
          exact ⟨k, hc⟩
      · cases h

end Registry

namespace Scope

variable (scope : Scope) (follow : String → Phrase → Bag → Outcome String) (key : String)

@[simp]
theorem substitute_nil (bag : Bag) :
    scope.substitute follow key [] bag = ⟨.ok (), bag, []⟩ := rfl

/-- What happens to the first holder of a row is decided by what it stands for. -/
theorem substitute_cons (holder : String) (rest : List String) (bag : Bag) :
    scope.substitute follow key (holder :: rest) bag =
      match scope.registry.target bag holder with
      | .absent => scope.substitute follow key rest (bag.insert holder .null)
      | .unknown k =>
          (scope.substitute follow key rest (bag.insert holder .null)).after
            [missedLine key holder k]
      | .constant v => scope.substitute follow key rest (bag.insert holder v)
      | .phrase k p =>
          match (follow k p bag).result with
          | .error e => ⟨.error e, (follow k p bag).bag, (follow k p bag).log⟩
          | .ok text =>
              (scope.substitute follow key rest
                ((follow k p bag).bag.insert holder (.text text))).after (follow k p bag).log := by
  rw [substitute]
  unfold Registry.target Bag.reference
  cases Template.present (bag.get? holder) with
  | none => rfl
  | some v =>
      simp only [Option.map_some]
      cases scope.registry.get? v.shown with
      | none => rfl
      | some entry => cases entry <;> rfl

end Scope

end Phrasebook
