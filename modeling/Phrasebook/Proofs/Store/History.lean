import Mathlib.Data.List.Basic
import Phrasebook.Proofs.Engine.Injection

/-! What a history of writes leaves in a store that was empty. Under every key there is what the
last write that affected the key gave it (`get?_writeAll_iff`). The keys stand in the order in which
they came: writing a key that is present leaves it in its place, so its place is that of the first
write since the key was last absent (`Stroke.keysInOrder_drawn`). To tell these places apart within
one write, a write is taken as a row of strokes, one for each key that it puts. -/

namespace Phrasebook

namespace Store

/-! ### The last write to a key -/

namespace Write

/-- What a write does to a key, if it affects the key: give it a value, or make it absent. -/
def effect? (key : String) : Write → Option (Option Value)
  | set name v => if name = key then some (some v) else none
  | delete name => if name = key then some none else none
  | update new => (new.get? key).map some
  | replace new => some (new.get? key)
  | clear => some none

/-- A key that a write does not affect has the value that it had. -/
theorem get?_apply (w : Write) (values : Bag) (key : String) :
    (w.apply values).get? key = (w.effect? key).getD (values.get? key) := by
  cases w with
  | set name v =>
      rw [apply, OrderedMap.get?_insert, effect?]
      by_cases hkey : name = key
      · rw [if_pos hkey.symm, if_pos hkey, Option.getD_some]
      · rw [if_neg (Ne.symm hkey), if_neg hkey, Option.getD_none]
  | delete name =>
      rw [apply, OrderedMap.get?_erase, effect?]
      by_cases hkey : name = key
      · rw [if_pos hkey.symm, if_pos hkey, Option.getD_some]
      · rw [if_neg (Ne.symm hkey), if_neg hkey, Option.getD_none]
  | update new =>
      rw [apply, OrderedMap.get?_merge, effect?]
      cases new.get? key <;> rfl
  | replace new => rfl
  | clear => rfl

end Write

/-- The writes leave a key with this value, or absent: so did the last of them that affects the key,
or it is absent and none affects it. -/
def Leaves (ws : List Write) (key : String) (o : Option Value) : Prop :=
  (∃ front w back, ws = front ++ w :: back ∧ w.effect? key = some o ∧
    ∀ later ∈ back, later.effect? key = none) ∨
  (o = none ∧ ∀ w ∈ ws, w.effect? key = none)

variable {ws : List Write} {w : Write} {key : String} {o : Option Value}

theorem leaves_nil_iff : Leaves [] key o ↔ o = none := by
  constructor
  · rintro (⟨front, w, back, h, -⟩ | ⟨ho, -⟩)
    · simp at h
    · exact ho
  · exact fun ho => .inr ⟨ho, nofun⟩

theorem leaves_concat_iff : Leaves (ws ++ [w]) key o ↔
    w.effect? key = some o ∨ (w.effect? key = none ∧ Leaves ws key o) := by
  unfold Leaves
  simp only [concat_eq_append_cons_iff, List.forall_mem_append, List.forall_mem_singleton]
  constructor
  · rintro (⟨front, w', back, ⟨-, rfl, -⟩ | ⟨between, hws, rfl⟩, heffect, hlater⟩ | ⟨ho, hws, hw⟩)
    · exact .inl heffect
    · rw [List.forall_mem_append, List.forall_mem_singleton] at hlater
      exact .inr ⟨hlater.2, .inl ⟨front, w', between, hws, heffect, hlater.1⟩⟩
    · exact .inr ⟨hw, .inr ⟨ho, hws⟩⟩
  · rintro (heffect | ⟨hw, ⟨front, w', between, hws, heffect, hlater⟩ | ⟨ho, hws⟩⟩)
    · exact .inl ⟨ws, w, [], .inl ⟨rfl, rfl, rfl⟩, heffect, nofun⟩
    · refine .inl ⟨front, w', between ++ [w], .inr ⟨between, hws, rfl⟩, heffect, ?_⟩
      rw [List.forall_mem_append, List.forall_mem_singleton]
      exact ⟨hlater, hw⟩
    · exact .inr ⟨ho, hws, hw⟩

theorem values_writeAll_concat (s : Store) (ws : List Write) (w : Write) :
    (s.writeAll (ws ++ [w])).values = w.apply (s.writeAll ws).values := by
  rw [writeAll, List.foldl_concat]
  rfl

/-- **A key has what the last write that affects it gave it.** -/
theorem get?_writeAll_iff {name : String} :
    ((empty name).writeAll ws).values.get? key = o ↔ Leaves ws key o := by
  induction ws using List.reverseRecOn generalizing o with
  | nil =>
      rw [leaves_nil_iff]
      exact eq_comm
  | append_singleton ws w ih =>
      rw [values_writeAll_concat, w.get?_apply, leaves_concat_iff, ← ih]
      cases w.effect? key with
      | none => simp
      | some o' => simp

/-! ### Strokes -/

/-- What the writes to a store are made up of. -/
inductive Stroke
  | put (key : String) (value : Value)
  | drop (key : String)
  | wipe

/-- The strokes of a write, in order. To replace all values is to wipe them and put the new ones. -/
def Write.strokes : Write → List Stroke
  | set key v => [.put key v]
  | delete key => [.drop key]
  | update new => new.entries.map fun e => .put e.1 e.2
  | replace new => .wipe :: new.entries.map fun e => .put e.1 e.2
  | clear => [.wipe]

namespace Stroke

def apply (values : Bag) : Stroke → Bag
  | put key v => values.insert key v
  | drop key => values.erase key
  | wipe => .empty

/-- The values that strokes leave. -/
def drawn (ss : List Stroke) : Bag :=
  ss.foldl apply .empty

def Writes (key : String) : Stroke → Prop
  | put name _ => name = key
  | _ => False

def Removes (key : String) : Stroke → Prop
  | put _ _ => False
  | drop name => name = key
  | wipe => True

theorem foldl_put (values : Bag) (l : List (String × Value)) :
    (l.map fun e => put e.1 e.2).foldl apply values = values.insertAll l := by
  rw [List.foldl_map]
  rfl

/-- A write is what its strokes come to. -/
theorem foldl_strokes (values : Bag) (w : Write) :
    w.strokes.foldl apply values = w.apply values := by
  cases w with
  | update new => exact foldl_put values new.entries
  | replace new => exact (foldl_put .empty new.entries).trans new.ofList_entries
  | _ => rfl

theorem values_writeAll (name : String) (ws : List Write) :
    ((Store.empty name).writeAll ws).values = drawn (ws.flatMap Write.strokes) := by
  induction ws using List.reverseRecOn with
  | nil => rfl
  | append_singleton ws w ih =>
      rw [values_writeAll_concat, ih, List.flatMap_append, List.flatMap_singleton, drawn, drawn,
        List.foldl_append, foldl_strokes]

/-! ### The place of a key -/

/-- A key is absent after strokes: whenever it was written, it was removed later. -/
def Absent (ss : List Stroke) (key : String) : Prop :=
  ∀ front s back, ss = front ++ s :: back → s.Writes key → ∃ later ∈ back, later.Removes key

/-- A key is there since a stroke: the stroke found it absent and wrote it, and it was not removed
later. -/
def Since (ss : List Stroke) (key : String) (place : Nat) : Prop :=
  ∃ front s back, ss = front ++ s :: back ∧ front.length = place ∧ s.Writes key ∧
    Absent front key ∧ ∀ later ∈ back, ¬ later.Removes key

variable {ss : List Stroke} {s : Stroke} {key : String} {place : Nat}

theorem not_writes_of_removes (h : s.Removes key) : ¬ s.Writes key := by
  cases s with
  | put name v => exact absurd h id
  | _ => exact id

theorem absent_nil (key : String) : Absent [] key := by
  intro front s back h
  simp at h

theorem absent_concat_iff :
    Absent (ss ++ [s]) key ↔ s.Removes key ∨ (¬ s.Writes key ∧ Absent ss key) := by
  unfold Absent
  simp only [concat_eq_append_cons_iff]
  constructor
  · intro h
    by_cases hremoves : s.Removes key
    · exact .inl hremoves
    · refine .inr ⟨fun hwrites => ?_, fun front x between hss hwrites => ?_⟩
      · obtain ⟨later, hlater, -⟩ := h ss s [] (.inl ⟨rfl, rfl, rfl⟩) hwrites
        cases hlater
      · obtain ⟨later, hlater, hlaterRemoves⟩ :=
          h front x (between ++ [s]) (.inr ⟨between, hss, rfl⟩) hwrites
        rcases List.mem_append.1 hlater with hmem | hmem
        · exact ⟨later, hmem, hlaterRemoves⟩
        · exact absurd (List.mem_singleton.1 hmem ▸ hlaterRemoves) hremoves
  · rintro h front x back (⟨-, rfl, rfl⟩ | ⟨between, hss, rfl⟩) hwrites
    · rcases h with hremoves | ⟨hnot, -⟩
      · exact absurd hwrites (not_writes_of_removes hremoves)
      · exact absurd hwrites hnot
    · rcases h with hremoves | ⟨-, habsent⟩
      · exact ⟨s, List.mem_append_right _ (List.mem_singleton_self s), hremoves⟩
      · obtain ⟨later, hlater, hlaterRemoves⟩ := habsent front x between hss hwrites
        exact ⟨later, List.mem_append_left _ hlater, hlaterRemoves⟩

theorem since_concat_iff : Since (ss ++ [s]) key place ↔
    (Since ss key place ∧ ¬ s.Removes key) ∨
      (ss.length = place ∧ s.Writes key ∧ Absent ss key) := by
  unfold Since
  simp only [concat_eq_append_cons_iff]
  constructor
  · rintro ⟨front, x, back, ⟨rfl, rfl, -⟩ | ⟨between, hss, rfl⟩, hplace, hwrites, habsent, hlater⟩
    · exact .inr ⟨hplace, hwrites, habsent⟩
    · rw [List.forall_mem_append, List.forall_mem_singleton] at hlater
      exact .inl ⟨⟨front, x, between, hss, hplace, hwrites, habsent, hlater.1⟩, hlater.2⟩
  · rintro (⟨⟨front, x, between, hss, hplace, hwrites, habsent, hlater⟩, hkeeps⟩ |
      ⟨hplace, hwrites, habsent⟩)
    · refine ⟨front, x, between ++ [s], .inr ⟨between, hss, rfl⟩, hplace, hwrites, habsent, ?_⟩
      rw [List.forall_mem_append, List.forall_mem_singleton]
      exact ⟨hlater, hkeeps⟩
    · exact ⟨ss, s, [], .inl ⟨rfl, rfl, rfl⟩, hplace, hwrites, habsent, nofun⟩

theorem not_absent_of_since (h : Since ss key place) : ¬ Absent ss key := by
  obtain ⟨front, s, back, hss, -, hwrites, -, hlater⟩ := h
  intro habsent
  obtain ⟨later, hmem, hremoves⟩ := habsent front s back hss hwrites
  exact hlater later hmem hremoves

theorem Since.place_lt (h : Since ss key place) : place < ss.length := by
  obtain ⟨front, s, back, rfl, rfl, -⟩ := h
  simp

/-- A key is there since one stroke alone. -/
theorem Since.place_eq {other : Nat} (h : Since ss key place) (h' : Since ss key other) :
    place = other := by
  induction ss using List.reverseRecOn with
  | nil => exact absurd h.place_lt (Nat.not_lt_zero _)
  | append_singleton ss s ih =>
      rcases since_concat_iff.1 h with ⟨hold, -⟩ | ⟨rfl, -, habsent⟩
      · rcases since_concat_iff.1 h' with ⟨hold', -⟩ | ⟨-, -, habsent⟩
        · exact ih hold hold'
        · exact absurd habsent (not_absent_of_since hold)
      · rcases since_concat_iff.1 h' with ⟨hold', -⟩ | ⟨rfl, -, -⟩
        · exact absurd habsent (not_absent_of_since hold')
        · rfl

/-! ### The order of keys -/

theorem mem_keys_apply_iff {values : Bag} :
    key ∈ (apply values s).keys ↔ s.Writes key ∨ (key ∈ values.keys ∧ ¬ s.Removes key) := by
  cases s with
  | put name v =>
      rw [apply, OrderedMap.mem_keys_insert_iff, or_comm, @eq_comm _ key name]
      simp [Writes, Removes]
  | drop name =>
      rw [apply, OrderedMap.keys_erase]
      simp [Writes, Removes, @eq_comm _ name key]
  | wipe => simp [apply, Writes, Removes]

theorem drawn_concat (ss : List Stroke) (s : Stroke) : drawn (ss ++ [s]) = apply (drawn ss) s :=
  List.foldl_concat apply _ _ _

theorem mem_keys_drawn_iff : key ∈ (drawn ss).keys ↔ ¬ Absent ss key := by
  induction ss using List.reverseRecOn with
  | nil => exact iff_of_false List.not_mem_nil fun h => h (absent_nil key)
  | append_singleton ss s ih =>
      -- no stroke both writes and removes the key, so the two descriptions of a step agree
      have hboth := @not_writes_of_removes s key
      rw [drawn_concat, mem_keys_apply_iff, ih, absent_concat_iff]
      tauto

theorem exists_since_iff : (∃ place, Since ss key place) ↔ ¬ Absent ss key := by
  constructor
  · rintro ⟨place, h⟩
    exact not_absent_of_since h
  · intro h
    induction ss using List.reverseRecOn with
    | nil => exact absurd (absent_nil key) h
    | append_singleton ss s ih =>
        rw [absent_concat_iff, not_or, not_and_or, not_not] at h
        obtain ⟨hkeeps, hwrites | hthere⟩ := h
        · by_cases habsent : Absent ss key
          · exact ⟨ss.length, since_concat_iff.2 (.inr ⟨rfl, hwrites, habsent⟩)⟩
          · obtain ⟨place, hplace⟩ := ih habsent
            exact ⟨place, since_concat_iff.2 (.inl ⟨hplace, hkeeps⟩)⟩
        · obtain ⟨place, hplace⟩ := ih hthere
          exact ⟨place, since_concat_iff.2 (.inl ⟨hplace, hkeeps⟩)⟩

/-- Keys that are there before a stroke and after it keep their places. -/
theorem since_of_since_concat (h : Since (ss ++ [s]) key place) (hthere : key ∈ (drawn ss).keys) :
    Since ss key place := by
  rcases since_concat_iff.1 h with ⟨hold, -⟩ | ⟨-, -, habsent⟩
  · exact hold
  · exact absurd habsent (mem_keys_drawn_iff.1 hthere)

/-- One key came before another. -/
def Earlier (ss : List Stroke) (k k' : String) : Prop :=
  ∀ place place', Since ss k place → Since ss k' place' → place < place'

/-- A stroke puts a new key at the end, and no other in another place. -/
theorem pairwise_earlier_apply (h : (drawn ss).keys.Pairwise (Earlier ss)) :
    (apply (drawn ss) s).keys.Pairwise (Earlier (ss ++ [s])) := by
  -- keys that are there have their places from before, so only a new one is to be compared
  have hold : (drawn ss).keys.Pairwise (Earlier (ss ++ [s])) :=
    h.imp_of_mem fun hk hk' hlt place place' hplace hplace' =>
      hlt place place' (since_of_since_concat hplace hk) (since_of_since_concat hplace' hk')
  cases s with
  | put key v =>
      by_cases hthere : key ∈ (drawn ss).keys
      · rwa [apply, OrderedMap.keys_insert_of_mem v hthere]
      · rw [apply, OrderedMap.keys_insert_of_not_mem v hthere, List.pairwise_append]
        refine ⟨hold, List.pairwise_singleton _ _,
          fun k hk k' hk' place place' hplace hplace' => ?_⟩
        rw [List.mem_singleton.1 hk'] at hplace'
        rcases since_concat_iff.1 hplace' with ⟨hearlier, -⟩ | ⟨rfl, -, -⟩
        · exact absurd (mem_keys_drawn_iff.2 (not_absent_of_since hearlier)) hthere
        · exact (since_of_since_concat hplace hk).place_lt
  | drop key =>
      rw [apply, OrderedMap.keys_erase]
      exact hold.filter _
  | wipe => exact .nil

/-- Some keys are those that are there after strokes, each since one of them, in the order in which
they came. -/
structure KeysInOrder (keys : List String) (ss : List Stroke) : Prop where
  existsUnique_since : ∀ key ∈ keys, ∃! place, Since ss key place
  mem_of_since : ∀ key place, Since ss key place → key ∈ keys
  pairwise : keys.Pairwise (Earlier ss)

/-- **The keys stand in the order in which they came.** -/
theorem keysInOrder_drawn (ss : List Stroke) : KeysInOrder (drawn ss).keys ss where
  existsUnique_since key hkey := by
    obtain ⟨place, hplace⟩ := exists_since_iff.2 (mem_keys_drawn_iff.1 hkey)
    exact ⟨place, hplace, fun other hother => hother.place_eq hplace⟩
  mem_of_since key place h := mem_keys_drawn_iff.2 (not_absent_of_since h)
  pairwise := by
    induction ss using List.reverseRecOn with
    | nil => exact .nil
    | append_singleton ss s ih =>
        rw [drawn_concat]
        exact pairwise_earlier_apply ih

end Stroke

/-- Some values are what a history of writes leaves: every key has what the last write that affects
it gave it, and the keys stand in the order in which they came. -/
structure IsLeftBy (values : Bag) (ws : List Write) : Prop where
  get?_eq_iff : ∀ key o, values.get? key = o ↔ Leaves ws key o
  keysInOrder : Stroke.KeysInOrder values.keys (ws.flatMap Write.strokes)

/-- **A store that was empty has what its history leaves.** -/
theorem isLeftBy_writeAll (name : String) (ws : List Write) :
    IsLeftBy ((empty name).writeAll ws).values ws where
  get?_eq_iff _ _ := get?_writeAll_iff
  keysInOrder := by
    rw [Stroke.values_writeAll]
    exact Stroke.keysInOrder_drawn _

end Store

end Phrasebook
