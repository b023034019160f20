import Phrasebook.Http.Service
import Phrasebook.OrderedMap.Lemmas

/-! Objects that requests bring. The members of a JSON object have names, and of equal names the
last one counts. So every map in the body of a request is a bag, at any depth
(`Body.isJson_of_read`). For a value that is sent as such this follows its structure; for a text it
is an invariant of the reader, which holds of all that is on its stack (`Json.sound_step`). -/

namespace Phrasebook

namespace Value

/-- An entry of a map, from its name and value. -/
def named (e : String × Value) : Value × Value :=
  (.text e.1, e.2)

/-- A value in which every map is a bag. -/
inductive IsJson : Value → Prop
  | null : IsJson .null
  | bool (b : Bool) : IsJson (.bool b)
  | int (n : Int) : IsJson (.int n)
  | real (x : Binary64) : IsJson (.real x)
  | text (s : String) : IsJson (.text s)
  | list {items : List Value} (h : ∀ v ∈ items, IsJson v) : IsJson (.list items)
  | object {bag : Bag} (h : ∀ e ∈ bag.entries, IsJson e.2) : IsJson (.ofBag bag)

/-- An entry that an object may have. -/
def IsMember (e : Value × Value) : Prop :=
  (∃ name, e.1 = .text name) ∧ e.2.IsJson

theorem sameKey_text (s t : String) : sameKey (.text s) (.text t) = (s == t) := by
  rw [sameKey, sameNaN, same, Bool.false_or]
  exact nofun

theorem putEntry_text (key : String) (v : Value) (l : List (String × Value)) :
    putEntry (.text key) v (l.map named) = (OrderedMap.put key v l).map named := by
  induction l with
  | nil => rfl
  | cons e rest ih =>
      obtain ⟨k, w⟩ := e
      rw [List.map_cons, named, putEntry, sameKey_text, ih, OrderedMap.put]
      by_cases hk : k = key
      · rw [if_pos hk, if_pos (beq_iff_eq.2 hk)]
        rfl
      · rw [if_neg hk, if_neg fun h => hk (beq_iff_eq.1 h)]
        rfl

/-- The map that named entries write is a bag. -/
theorem ofEntries_named (l : List (String × Value)) :
    ofEntries (l.map named) = .ofBag (.ofList l) := by
  have hfold : ∀ m : Bag, (l.map named).foldl (fun acc e => putEntry e.1 e.2 acc)
      (m.entries.map named) = (m.insertAll l).entries.map named := by
    induction l with
    | nil => exact fun m => rfl
    | cons e rest ih =>
        intro m
        rw [List.map_cons, List.foldl_cons, named, putEntry_text]
        exact ih (m.insert e.1 e.2)
  exact congrArg Value.map (hfold .empty)

theorem exists_named {entries : List (Value × Value)} (h : ∀ e ∈ entries, IsMember e) :
    ∃ l : List (String × Value), entries = l.map named ∧ ∀ e ∈ l, e.2.IsJson := by
  induction entries with
  | nil => exact ⟨[], rfl, nofun⟩
  | cons e rest ih =>
      rw [List.forall_mem_cons] at h
      obtain ⟨⟨⟨name, hname⟩, hvalue⟩, hrest⟩ := h
      obtain ⟨l, rfl, hl⟩ := ih hrest
      refine ⟨(name, e.2) :: l, ?_, List.forall_mem_cons.2 ⟨hvalue, hl⟩⟩
      rw [List.map_cons, named, ← hname]

theorem isJson_ofEntries {entries : List (Value × Value)} (h : ∀ e ∈ entries, IsMember e) :
    (ofEntries entries).IsJson := by
  obtain ⟨l, rfl, hl⟩ := exists_named h
  rw [ofEntries_named]
  exact .object fun e he => hl e (OrderedMap.mem_of_mem_ofList he)

theorem isJson_map_iff {entries : List (Value × Value)} : IsJson (.map entries) ↔
    ∃ bag : Bag, .map entries = ofBag bag ∧ ∀ e ∈ bag.entries, e.2.IsJson := by
  constructor
  · intro h
    generalize hv : Value.map entries = v at h
    cases h with
    | object hbag => exact ⟨_, rfl, hbag⟩
    | _ => cases hv
  · rintro ⟨bag, hbag, h⟩
    rw [hbag]
    exact .object h

theorem field?_named (name : String) (l : List (String × Value)) :
    field? name (l.map named) = OrderedMap.lookup name l := by
  induction l with
  | nil => rfl
  | cons e rest ih => rw [List.map_cons, named, field?, OrderedMap.lookup, ih]

theorem isJson_of_field? {name : String} {entries : List (Value × Value)} {v : Value}
    (h : IsJson (.map entries)) (hfield : field? name entries = some v) : v.IsJson := by
  obtain ⟨bag, hbag, hvalues⟩ := isJson_map_iff.1 h
  cases hbag
  have hget : bag.get? name = some v := (field?_named name bag.entries).symm.trans hfield
  exact hvalues _ (OrderedMap.get?_eq_some_iff.1 hget)

end Value

/-! ### Values that are sent -/

namespace Http

mutual

theorem isJson_carried (key : Value → String) : ∀ v : Value, (carried key v).IsJson
  | .null => .null
  | .bool b => .bool b
  | .int n => .int n
  | .real (.nan _) => .real _
  | .real (.infinite _) => .real _
  | .real (.finite _ _ _) => .real _
  | .text s => .text s
  | .list items => .list (isJson_carriedItems key items)
  | .map entries => Value.isJson_ofEntries (isMember_carriedEntries key entries)

theorem isJson_carriedItems (key : Value → String) :
    ∀ items : List Value, ∀ v ∈ carriedItems key items, v.IsJson
  | [] => nofun
  | v :: vs => List.forall_mem_cons.2 ⟨isJson_carried key v, isJson_carriedItems key vs⟩

theorem isMember_carriedEntries (key : Value → String) :
    ∀ entries : List (Value × Value), ∀ e ∈ carriedEntries key entries, Value.IsMember e
  | [] => nofun
  | (_, v) :: rest => List.forall_mem_cons.2
      ⟨⟨⟨_, rfl⟩, isJson_carried key v⟩, isMember_carriedEntries key rest⟩

end

end Http

/-! ### Texts that are read -/

namespace Json

/-- What is on the stack of the reader is part of a value in which every map is a bag. -/
def Open.IsJson : Open → Prop
  | array items => ∀ v ∈ items, v.IsJson
  | object entries _ => ∀ e ∈ entries, Value.IsMember e

/-- Where the reader stands, all that it has read is part of such a value. -/
structure Sound (s : Expect × List Open) : Prop where
  done : ∀ v, s.1 = .stop v → v.IsJson
  stack : ∀ o ∈ s.2, o.IsJson

theorem sound_complete {v : Value} (hv : v.IsJson) {stack : List Open}
    (hstack : ∀ o ∈ stack, o.IsJson) : Sound (complete v stack) := by
  cases stack with
  | nil =>
      refine ⟨?_, nofun⟩
      rintro w ⟨⟩
      exact hv
  | cons o outer =>
      rw [List.forall_mem_cons] at hstack
      obtain ⟨ho, houter⟩ := hstack
      cases o with
      | array items =>
          have hmore : (Open.array (v :: items)).IsJson := List.forall_mem_cons.2 ⟨hv, ho⟩
          exact ⟨nofun, List.forall_mem_cons.2 ⟨hmore, houter⟩⟩
      | object entries name =>
          have hmore : (Open.object ((.text name, v) :: entries) "").IsJson :=
            List.forall_mem_cons.2 ⟨⟨⟨name, rfl⟩, hv⟩, ho⟩
          exact ⟨nofun, List.forall_mem_cons.2 ⟨hmore, houter⟩⟩

theorem sound_close {stack : List Open} (hstack : ∀ o ∈ stack, o.IsJson) :
    Sound (close stack) := by
  cases stack with
  | nil =>
      refine ⟨?_, nofun⟩
      rintro w ⟨⟩
      exact .null
  | cons o outer =>
      rw [List.forall_mem_cons] at hstack
      obtain ⟨ho, houter⟩ := hstack
      cases o with
      | array items =>
          exact sound_complete (.list fun v hv => ho v (List.mem_reverse.1 hv)) houter
      | object entries name =>
          exact sound_complete (Value.isJson_ofEntries fun e he => ho e (List.mem_reverse.1 he))
            houter

theorem isJson_of_word? {cs : List Char} {r : Value × Nat} (h : word? cs = some r) :
    r.1.IsJson := by
  obtain ⟨w, hw, rfl⟩ := Option.map_eq_some_iff.1 h
  have hmem := List.mem_of_find?_eq_some hw
  simp only [List.mem_cons, List.not_mem_nil, or_false] at hmem
  rcases hmem with rfl | rfl | rfl | rfl | rfl | rfl
  · exact .null
  · exact .bool true
  · exact .bool false
  · exact .real _
  · exact .real _
  · exact .real _

theorem isJson_of_numeral {n : Numeral} {v : Value} (h : n.value = .ok v) : v.IsJson := by
  rw [Numeral.value] at h
  split at h
  · split at h
    · cases h
    · cases h
      exact .int _
  · cases h
    exact .real _

theorem exists_of_map_eq_ok {α β : Type} {f : α → β} {x : Except Error α} {b : β}
    (h : x.map f = .ok b) : ∃ a, x = .ok a ∧ f a = b := by
  cases x with
  | error e => cases h
  | ok a => exact ⟨a, rfl, Except.ok.inj h⟩

variable [Text.Surrogates]

theorem isJson_of_scalar {position : Nat} {cs : List Char} {r : Value × Nat}
    (h : scalar position cs = .ok r) : r.1.IsJson := by
  unfold scalar at h
  split at h
  · obtain ⟨t, -, rfl⟩ := exists_of_map_eq_ok h
    exact .text _
  · split at h
    · next hword =>
        cases h
        exact isJson_of_word? hword
    · dsimp only at h
      split at h
      · cases h
      · obtain ⟨v, hv, rfl⟩ := exists_of_map_eq_ok h
        exact isJson_of_numeral hv

/-- **A step keeps what was read fine.** -/
theorem sound_step {expect : Expect} {stack : List Open} (hsound : Sound (expect, stack))
    {position : Nat} {c : Char} {cs : List Char} {r : (Expect × List Open) × Nat}
    (h : step expect stack position c cs = .ok r) : Sound r.1 := by
  have hstack : ∀ o ∈ stack, o.IsJson := hsound.stack
  -- an array or object that was just opened is empty
  have hopen : ∀ o : Open, o = .array [] ∨ o = .object [] "" → ∀ o' ∈ o :: stack, o'.IsJson := by
    rintro o (rfl | rfl) <;> exact List.forall_mem_cons.2 ⟨nofun, hstack⟩
  cases expect with
  | stop v => cases h
  | value closable =>
      dsimp only [step] at h
      split at h
      · cases h
        exact ⟨nofun, hopen _ (.inl rfl)⟩
      · split at h
        · cases h
          exact ⟨nofun, hopen _ (.inr rfl)⟩
        · split at h
          · cases h
            exact sound_close hstack
          · obtain ⟨s, hs, rfl⟩ := exists_of_map_eq_ok h
            exact sound_complete (isJson_of_scalar hs) hstack
  | name closable =>
      dsimp only [step] at h
      split at h
      · obtain ⟨s, -, rfl⟩ := exists_of_map_eq_ok h
        split
        · obtain ⟨hentries, houter⟩ := List.forall_mem_cons.1 hstack
          exact ⟨nofun, List.forall_mem_cons.2 ⟨hentries, houter⟩⟩
        · exact ⟨nofun, hstack⟩
      · split at h
        · cases h
          exact sound_close hstack
        · cases h
  | colon =>
      dsimp only [step] at h
      split at h
      · cases h
        exact ⟨nofun, hstack⟩
      · cases h
  | separator =>
      dsimp only [step] at h
      split at h
      · split at h
        · cases h
          exact ⟨nofun, hstack⟩
        · split at h
          · cases h
            exact sound_close hstack
          · cases h
      · split at h
        · cases h
          exact ⟨nofun, hstack⟩
        · split at h
          · cases h
            exact sound_close hstack
          · cases h
      · cases h

/-- **In all that is read, every map is a bag.** -/
theorem isJson_of_run {expect : Expect} {stack : List Open} {position : Nat} {cs : List Char}
    {v : Value} (hsound : Sound (expect, stack)) (h : run expect stack position cs = .ok v) :
    v.IsJson := by
  fun_induction run expect stack position cs with
  | case1 stack position w =>
      cases h
      exact hsound.done v rfl
  | case2 => cases h
  | case3 expect stack position c cs hspace ih => exact ih hsound h
  | case4 => cases h
  | case5 expect stack position c cs hspace next outer more hstep ih =>
      exact ih (sound_step hsound hstep) h

theorem isJson_of_read {text : List Char} {v : Value} (h : read text = .ok v) : v.IsJson := by
  have hstart : Sound (.value false, []) := ⟨nofun, nofun⟩
  exact isJson_of_run hstart h

end Json

namespace Http

/-- **In the body of a request, every map is a bag.** -/
theorem Body.isJson_of_read [Text.Surrogates] {body : Body} {v : Value}
    (h : body.read = .ok (some v)) : v.IsJson := by
  cases body with
  | absent => cases h
  | value w =>
      cases h
      exact isJson_carried requestKey w
  | text s =>
      rw [read] at h
      split at h
      · cases h
      · dsimp only at h
        split at h
        · cases h
        · split at h
          · next hread =>
              cases h
              exact Json.isJson_of_read hread
          · cases h
          · cases h

end Http

end Phrasebook
