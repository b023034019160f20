import Phrasebook.Node
import Phrasebook.OrderedMap.Lemmas

/-! Data part by part. A map is read just if all of its entries are, so entries that are written as
their check reads them are read back (`Value.checkMap_written`). A node is read just if each of its
fields is, and it has what they give (`Node.ofEntries_eq_ok_iff`); a field is found by its name,
whatever stands around it (`Value.field?_insert`). -/

namespace Phrasebook

/-! ### Checks that succeed -/

namespace Checked

variable {α β γ : Type}

theorem map_eq_ok_iff {f : α → β} {c : Checked α} {b : β} :
    c.map f = .ok b ↔ ∃ a, c = .ok a ∧ f a = b := by
  cases c with
  | error r => exact ⟨nofun, nofun⟩
  | ok a => simp [Except.map]

theorem under_eq_ok_iff {place : Place} {c : Checked α} {a : α} :
    c.under place = .ok a ↔ c = .ok a := by
  rcases c with (l | m) | a'
  · exact ⟨nofun, nofun⟩
  · exact Iff.rfl
  · exact Iff.rfl

theorem both_eq_ok_iff {f : α → β → γ} {first : Checked α} {second : Checked β} {c : γ} :
    both f first second = .ok c ↔ ∃ a b, first = .ok a ∧ second = .ok b ∧ f a b = c := by
  rcases first with (l | m) | a <;> rcases second with (l' | m') | b <;> simp [both]

end Checked

/-! ### Maps -/

namespace Value

section

variable {α : Type} {check : Value → Checked α} {write : α → Value}

/-- Entries that are written as their check reads them are read back. -/
theorem checkEntries_written {l : List (String × α)}
    (h : ∀ e ∈ l, check (write e.2) = .ok e.2) :
    checkEntries check (l.map fun e => (.text e.1, write e.2)) = .ok l := by
  induction l with
  | nil => rfl
  | cons e rest ih =>
      rw [List.forall_mem_cons] at h
      rw [List.map_cons, checkEntries, h.1, ih h.2]
      rfl

theorem checkMap_written {m : OrderedMap α} (h : ∀ e ∈ m.entries, check (write e.2) = .ok e.2) :
    checkMap check (.map (m.entries.map fun e => (.text e.1, write e.2))) = .ok m := by
  rw [checkMap, checkEntries_written h]
  exact congrArg Except.ok m.ofList_entries

theorem ofBag_map (write : α → Value) (m : OrderedMap α) :
    ofBag (m.map write) = .map (m.entries.map fun e => (.text e.1, write e.2)) := by
  rw [ofBag, OrderedMap.map, List.map_map]
  rfl

theorem exists_of_checkEntries {entries : List (Value × Value)} {l : List (String × α)}
    (h : checkEntries check entries = .ok l) : ∀ e ∈ l, ∃ v, check v = .ok e.2 := by
  induction entries generalizing l with
  | nil =>
      cases h
      exact nofun
  | cons e rest ih =>
      obtain ⟨k, v⟩ := e
      change Checked.both List.cons (Checked.both Prod.mk _ ((check v).under k.place))
        (checkEntries check rest) = .ok l at h
      obtain ⟨first, later, hfirst, hrest, rfl⟩ := Checked.both_eq_ok_iff.1 h
      obtain ⟨_, a, -, hvalue, rfl⟩ := Checked.both_eq_ok_iff.1 hfirst
      exact List.forall_mem_cons.2 ⟨⟨v, Checked.under_eq_ok_iff.1 hvalue⟩, ih hrest⟩

/-- What a map has was read from what it was given. -/
theorem exists_of_checkMap {v : Value} {m : OrderedMap α} (h : checkMap check v = .ok m) :
    ∀ e ∈ m.entries, ∃ w, check w = .ok e.2 := by
  cases v with
  | map entries =>
      rw [checkMap, Checked.map_eq_ok_iff] at h
      obtain ⟨l, hl, rfl⟩ := h
      exact fun e he => exists_of_checkEntries hl e (OrderedMap.mem_of_mem_ofList he)
  | _ => cases h

end

/-! ### Fields -/

theorem field?_append (name : String) (front back : List (Value × Value)) :
    field? name (front ++ back) = (field? name front).or (field? name back) := by
  induction front with
  | nil => rfl
  | cons e rest ih =>
      obtain ⟨k, v⟩ := e
      cases k with
      | text k =>
          rw [List.cons_append, field?, field?]
          by_cases hk : k = name
          · rw [if_pos hk, if_pos hk, Option.some_or]
          · rw [if_neg hk, if_neg hk, ih]
      | _ => exact ih

/-- A new entry has its name, and every other name has what it had. -/
theorem field?_insert {key : String} {front : List (Value × Value)} (h : field? key front = none)
    (name : String) (v : Value) (back : List (Value × Value)) :
    field? name (front ++ (.text key, v) :: back) =
      if name = key then some v else field? name (front ++ back) := by
  rw [field?_append, field?]
  by_cases hname : name = key
  · rw [if_pos hname.symm, if_pos hname, hname, h, Option.none_or]
  · rw [if_neg (Ne.symm hname), if_neg hname, field?_append]

theorem field?_eq_none_of_append {name : String} {front back : List (Value × Value)}
    (h : field? name (front ++ back) = none) : field? name front = none := by
  rw [field?_append, Option.or_eq_none_iff] at h
  exact h.1

end Value

namespace Node

/-- The texts of an author's map, by the keys as they are written. -/
def written (entries : List (Value × Value)) : List (String × String) :=
  entries.map fun e => (e.1.plain, entryText e.2)

theorem texts_map (entries : List (Value × Value)) :
    texts (.map entries) = .ok (.ofList (written entries)) := by
  unfold texts
  cases entries <;> rfl

/-- The field of the holders, under the first of its two names. -/
def holdersField (entries : List (Value × Value)) : Value :=
  ((Value.fieldOr? "holders" "parrotHolders" entries).map Prod.snd).getD .null

/-- **A node is read just if each of its fields is.** -/
theorem ofEntries_eq_ok_iff {entries : List (Value × Value)} {n : Node} :
    ofEntries entries = .ok n ↔
      n.value = baseText (field entries "value") ∧
      names (field entries "placeholders") = .ok n.placeholders ∧
      names (holdersField entries) = .ok n.holders ∧
      texts (field entries "variants") = .ok n.variants ∧
      texts (field entries "conditions") = .ok n.conditions ∧
      description (field entries "desc") = .ok n.desc := by
  obtain ⟨value, placeholders, holders, variants, conditions, desc⟩ := n
  dsimp only [ofEntries, holdersField]
  generalize names (field entries "placeholders") = p
  generalize
    names (((Value.fieldOr? "holders" "parrotHolders" entries).map Prod.snd).getD .null) = h
  generalize texts (field entries "variants") = v
  generalize texts (field entries "conditions") = c
  generalize description (field entries "desc") = d
  cases p with
  | error m => exact ⟨nofun, nofun⟩
  | ok p =>
      cases h with
      | error m => exact ⟨nofun, nofun⟩
      | ok h =>
          cases v with
          | error m => exact ⟨nofun, nofun⟩
          | ok v =>
              cases c with
              | error m => exact ⟨nofun, nofun⟩
              | ok c =>
                  cases d with
                  | error r => exact ⟨nofun, nofun⟩
                  | ok d =>
                      constructor
                      · intro hread
                        cases hread
                        exact ⟨rfl, rfl, rfl, rfl, rfl, rfl⟩
                      · rintro ⟨⟨⟩, ⟨⟩, ⟨⟩, ⟨⟩, ⟨⟩, ⟨⟩⟩
                        rfl

end Node

end Phrasebook
