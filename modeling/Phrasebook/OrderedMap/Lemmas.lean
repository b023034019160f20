import Phrasebook.OrderedMap

/-! What the operations on an ordered map do to its two views, the value of every name and the row
of names. A map is determined by the two together. -/

namespace Phrasebook.OrderedMap

universe u v

variable {α : Type u} {β : Type v}

/-! ### Names and values -/

theorem lookup_eq_none_iff {key : String} {l : List (String × α)} :
    lookup key l = none ↔ key ∉ l.map Prod.fst := by
  induction l with
  | nil => simp [lookup]
  | cons e rest ih =>
      obtain ⟨k, v⟩ := e
      by_cases hk : k = key
      · simp [lookup, hk]
      · simp [lookup, hk, ih, Ne.symm hk]

theorem mem_of_lookup {key : String} {value : α} {l : List (String × α)}
    (h : lookup key l = some value) : (key, value) ∈ l := by
  induction l with
  | nil => cases h
  | cons e rest ih =>
      obtain ⟨k, v⟩ := e
      by_cases hk : k = key
      · rw [lookup, if_pos hk] at h
        rw [hk, Option.some.inj h]
        exact List.mem_cons_self
      · rw [lookup, if_neg hk] at h
        exact List.mem_cons_of_mem _ (ih h)

theorem lookup_of_mem {key : String} {value : α} {l : List (String × α)}
    (hn : (l.map Prod.fst).Nodup) (h : (key, value) ∈ l) : lookup key l = some value := by
  induction l with
  | nil => cases h
  | cons e rest ih =>
      obtain ⟨k, v⟩ := e
      rw [List.map_cons, List.nodup_cons] at hn
      rcases List.mem_cons.1 h with he | hr
      · cases he
        rw [lookup, if_pos rfl]
      · have hk : k ≠ key := fun hk => hn.1 (List.mem_map.2 ⟨(key, value), hr, hk.symm⟩)
        rw [lookup, if_neg hk]
        exact ih hn.2 hr

theorem get?_eq_some_iff {m : OrderedMap α} {key : String} {value : α} :
    m.get? key = some value ↔ (key, value) ∈ m.entries :=
  ⟨mem_of_lookup, lookup_of_mem m.nodup⟩

/-- There is one entry of a name. -/
theorem filter_key_eq_singleton {key : String} {value : α} {l : List (String × α)}
    (hn : (l.map Prod.fst).Nodup) (h : (key, value) ∈ l) :
    l.filter (fun e => e.1 = key) = [(key, value)] := by
  induction l with
  | nil => cases h
  | cons e rest ih =>
      rw [List.map_cons, List.nodup_cons] at hn
      obtain ⟨hfirst, hrest⟩ := hn
      rcases List.mem_cons.1 h with rfl | hr
      · have hnone : rest.filter (fun e => e.1 = key) = [] := by
          rw [List.filter_eq_nil_iff]
          intro e he hkey
          exact hfirst (List.mem_map.2 ⟨e, he, of_decide_eq_true hkey⟩)
        rw [List.filter_cons_of_pos (by simp), hnone]
      · have hk : e.1 ≠ key := fun hk => hfirst (hk ▸ List.mem_map_of_mem hr)
        rw [List.filter_cons_of_neg (by simpa using hk), ih hrest hr]

theorem get?_eq_none_iff {m : OrderedMap α} {key : String} :
    m.get? key = none ↔ key ∉ m.keys :=
  lookup_eq_none_iff

theorem contains_iff {m : OrderedMap α} {key : String} : m.contains key = true ↔ key ∈ m.keys := by
  rw [contains, Option.isSome_iff_ne_none, ne_eq, get?_eq_none_iff, Decidable.not_not]

theorem eq_of_lookup_eq {l l' : List (String × α)} (hn : (l.map Prod.fst).Nodup)
    (hk : l.map Prod.fst = l'.map Prod.fst)
    (hv : ∀ key ∈ l.map Prod.fst, lookup key l = lookup key l') : l = l' := by
  induction l generalizing l' with
  | nil => exact (List.map_eq_nil_iff.1 hk.symm).symm
  | cons e rest ih =>
      obtain ⟨k, v⟩ := e
      cases l' with
      | nil => cases hk
      | cons e' rest' =>
          obtain ⟨k', v'⟩ := e'
          rw [List.map_cons, List.map_cons, List.cons.injEq] at hk
          rw [List.map_cons, List.nodup_cons] at hn
          obtain ⟨rfl, hk⟩ := hk
          have hhead := hv k List.mem_cons_self
          rw [lookup, lookup, if_pos rfl, if_pos rfl] at hhead
          rw [Option.some.inj hhead, ih hn.2 hk fun key hm => ?_]
          have hne : k ≠ key := fun h => hn.1 (h ▸ hm)
          have := hv key (List.mem_cons_of_mem _ hm)
          rwa [lookup, lookup, if_neg hne, if_neg hne] at this

theorem eq_of_views {m n : OrderedMap α} (hk : m.keys = n.keys)
    (hv : ∀ key, m.get? key = n.get? key) : m = n :=
  OrderedMap.ext (eq_of_lookup_eq m.nodup hk fun key _ => hv key)

/-! ### The operations -/

@[simp]
theorem get?_empty (key : String) : (empty : OrderedMap α).get? key = none := rfl

@[simp]
theorem keys_empty : (empty : OrderedMap α).keys = [] := rfl

theorem lookup_put (key name : String) (value : α) (l : List (String × α)) :
    lookup name (put key value l) = if name = key then some value else lookup name l := by
  induction l with
  | nil => simp [put, lookup, eq_comm]
  | cons e rest ih =>
      obtain ⟨k, v⟩ := e
      by_cases hk : k = key <;> by_cases hn : k = name
      · simp [put, lookup, hk, ← hn]
      · simp [put, lookup, hk, Ne.symm (hk ▸ hn)]
        simp [hk ▸ hn]
      · have hne : name ≠ key := hn ▸ hk
        simp [put, lookup, hn, hne]
      · simp [put, lookup, hk, hn, ih]

@[simp]
theorem get?_insert (m : OrderedMap α) (key name : String) (value : α) :
    (m.insert key value).get? name = if name = key then some value else m.get? name :=
  lookup_put key name value m.entries

theorem keys_insert_of_mem {m : OrderedMap α} {key : String} (value : α) (h : key ∈ m.keys) :
    (m.insert key value).keys = m.keys :=
  keys_put_mem h

theorem keys_insert_of_not_mem {m : OrderedMap α} {key : String} (value : α) (h : key ∉ m.keys) :
    (m.insert key value).keys = m.keys ++ [key] :=
  keys_put_not_mem h

theorem mem_keys_insert_iff {m : OrderedMap α} {key name : String} {value : α} :
    name ∈ (m.insert key value).keys ↔ name ∈ m.keys ∨ name = key := by
  by_cases hmem : key ∈ m.keys
  · rw [keys_insert_of_mem value hmem]
    refine ⟨.inl, fun h => h.elim id ?_⟩
    rintro rfl
    exact hmem
  · rw [keys_insert_of_not_mem value hmem, List.mem_append, List.mem_singleton]

/-- Writing keeps the names that are there, in their order. -/
theorem keys_prefix_insert (m : OrderedMap α) (key : String) (value : α) :
    m.keys <+: (m.insert key value).keys := by
  by_cases hmem : key ∈ m.keys
  · have hkeys := keys_insert_of_mem value hmem
    exact hkeys ▸ List.prefix_rfl
  · have hkeys := keys_insert_of_not_mem value hmem
    exact hkeys ▸ List.prefix_append _ _

/-- Writing the value that a name has changes nothing. -/
theorem insert_eq_self {m : OrderedMap α} {key : String} {value : α}
    (h : m.get? key = some value) : m.insert key value = m := by
  have hmem : key ∈ m.keys := contains_iff.1 (by rw [contains, h]; rfl)
  refine eq_of_views (keys_insert_of_mem value hmem) fun name => ?_
  rw [get?_insert]
  split
  · next hname => rw [hname, h]
  · rfl

@[simp]
theorem keys_erase (m : OrderedMap α) (key : String) :
    (m.erase key).keys = m.keys.filter (· ≠ key) := by
  rw [keys, keys, List.filter_map]
  rfl

@[simp]
theorem get?_erase (m : OrderedMap α) (key name : String) :
    (m.erase key).get? name = if name = key then none else m.get? name := by
  by_cases hn : name = key
  · rw [if_pos hn, get?_eq_none_iff, keys_erase]
    simp [hn]
  · rw [if_neg hn]
    refine Option.ext fun v => ?_
    rw [get?_eq_some_iff, get?_eq_some_iff, erase]
    simp [hn]

@[simp]
theorem keys_map (f : α → β) (m : OrderedMap α) : (m.map f).keys = m.keys := by
  rw [keys, keys, map, List.map_map]
  rfl

theorem lookup_map (f : String → α → β) (key : String) (l : List (String × α)) :
    lookup key (l.map fun e => (e.1, f e.1 e.2)) = (lookup key l).map (f key) := by
  induction l with
  | nil => rfl
  | cons e rest ih =>
      by_cases hk : e.1 = key
      · simp [lookup, hk]
      · simp [lookup, hk, ih]

@[simp]
theorem get?_map (f : α → β) (m : OrderedMap α) (key : String) :
    (m.map f).get? key = (m.get? key).map f :=
  lookup_map (fun _ => f) key m.entries

@[simp]
theorem size_map (f : α → β) (m : OrderedMap α) : (m.map f).size = m.size :=
  List.length_map _

theorem put_map (f : α → β) (key : String) (value : α) (l : List (String × α)) :
    put key (f value) (l.map fun e => (e.1, f e.2)) =
      (put key value l).map fun e => (e.1, f e.2) := by
  induction l with
  | nil => rfl
  | cons e rest ih =>
      obtain ⟨k, v⟩ := e
      by_cases hk : k = key
      · simp [put, hk]
      · simp [put, hk, ih]

/-- It is the same to change values before they are written. -/
theorem ofList_map (f : α → β) (l : List (String × α)) :
    ofList (l.map fun e => (e.1, f e.2)) = (ofList l).map f := by
  have hfold : ∀ m : OrderedMap α,
      (m.map f).insertAll (l.map fun e => (e.1, f e.2)) = (m.insertAll l).map f := by
    induction l with
    | nil => exact fun m => rfl
    | cons e rest ih =>
        intro m
        have hinsert : (m.map f).insert e.1 (f e.2) = (m.insert e.1 e.2).map f :=
          OrderedMap.ext (put_map f e.1 e.2 m.entries)
        rw [List.map_cons, insertAll, List.foldl_cons, hinsert]
        exact ih (m.insert e.1 e.2)
  exact hfold empty

/-- The last value that a list gives a name counts. -/
theorem get?_insertAll (m : OrderedMap α) (l : List (String × α)) (key : String) :
    (m.insertAll l).get? key = (lookup key l.reverse).or (m.get? key) := by
  have happ : ∀ (a b : List (String × α)),
      lookup key (a ++ b) = (lookup key a).or (lookup key b) := fun a b => by
    induction a with
    | nil => rfl
    | cons e rest ih =>
        by_cases hk : e.1 = key
        · simp [lookup, hk]
        · simp [lookup, hk, ih]
  induction l generalizing m with
  | nil => rfl
  | cons e rest ih =>
      rw [insertAll, List.foldl_cons, ← insertAll, ih, get?_insert, List.reverse_cons, happ]
      cases lookup key rest.reverse with
      | some v => rfl
      | none =>
          by_cases hk : key = e.1
          · simp [lookup, hk]
          · simp [lookup, hk, Ne.symm hk]

theorem mem_of_mem_ofList {l : List (String × α)} {e : String × α} (h : e ∈ (ofList l).entries) :
    e ∈ l := by
  have hget : (ofList l).get? e.1 = some e.2 := get?_eq_some_iff.2 h
  rw [ofList, get?_insertAll, get?_empty, Option.or_none] at hget
  exact List.mem_reverse.1 (mem_of_lookup hget)

/-- A name that a list gives a value first, and no other later, has that value. -/
theorem get?_ofList_cons {key : String} {value : α} {l : List (String × α)}
    (h : key ∉ l.map Prod.fst) : (ofList ((key, value) :: l)).get? key = some value := by
  have hlater : lookup key l.reverse = none := by
    rw [lookup_eq_none_iff, List.map_reverse, List.mem_reverse]
    exact h
  have hfirst : ofList ((key, value) :: l) = (empty.insert key value).insertAll l := rfl
  rw [hfirst, get?_insertAll, hlater, get?_insert, if_pos rfl]
  rfl

theorem ofList_concat (l : List (String × α)) (e : String × α) :
    ofList (l ++ [e]) = (ofList l).insert e.1 e.2 :=
  List.foldl_append

theorem get?_ofList_concat (l : List (String × α)) (key : String) (value : α) :
    (ofList (l ++ [(key, value)])).get? key = some value := by
  rw [ofList_concat, get?_insert, if_pos rfl]

theorem lookup_reverse {key : String} {l : List (String × α)} (hn : (l.map Prod.fst).Nodup) :
    lookup key l.reverse = lookup key l := by
  have hreverse : (l.reverse.map Prod.fst).Nodup := by
    rw [List.map_reverse]
    exact List.pairwise_reverse.2 (hn.imp Ne.symm)
  refine Option.ext fun value => ⟨fun h => ?_, fun h => ?_⟩
  · exact lookup_of_mem hn (List.mem_reverse.1 (mem_of_lookup h))
  · exact lookup_of_mem hreverse (List.mem_reverse.2 (mem_of_lookup h))

/-- Of two maps written over each other the second counts. -/
@[simp]
theorem get?_merge (m n : OrderedMap α) (key : String) :
    (m.merge n).get? key = (n.get? key).or (m.get? key) := by
  rw [merge, get?_insertAll, lookup_reverse n.nodup]
  rfl

theorem put_of_not_mem {key : String} {value : α} {l : List (String × α)}
    (h : key ∉ l.map Prod.fst) : put key value l = l ++ [(key, value)] := by
  induction l with
  | nil => rfl
  | cons e rest ih =>
      obtain ⟨k, v⟩ := e
      rw [List.map_cons, List.mem_cons, not_or] at h
      rw [put, if_neg (Ne.symm h.1), ih h.2, List.cons_append]

/-- New names take their places at the end, in order. -/
theorem entries_insertAll_of_disjoint (m : OrderedMap α) {l : List (String × α)}
    (hn : (l.map Prod.fst).Nodup) (hnew : ∀ name ∈ l.map Prod.fst, name ∉ m.keys) :
    (m.insertAll l).entries = m.entries ++ l := by
  induction l generalizing m with
  | nil => exact (List.append_nil _).symm
  | cons e rest ih =>
      rw [List.map_cons, List.nodup_cons] at hn
      have he : e.1 ∉ m.keys := hnew e.1 List.mem_cons_self
      have hentries : (m.insert e.1 e.2).entries = m.entries ++ [e] := put_of_not_mem he
      have hinsertAll : m.insertAll (e :: rest) = (m.insert e.1 e.2).insertAll rest := rfl
      rw [hinsertAll, ih _ hn.2, hentries, List.append_assoc, List.singleton_append]
      intro name hname
      rw [keys_insert_of_not_mem e.2 he, List.mem_append, List.mem_singleton, not_or]
      exact ⟨hnew name (List.mem_cons_of_mem _ hname), fun heq => hn.1 (heq ▸ hname)⟩

@[simp]
theorem ofList_entries (m : OrderedMap α) : ofList m.entries = m :=
  OrderedMap.ext (entries_insertAll_of_disjoint empty m.nodup fun _ _ => List.not_mem_nil)

/-! ### Entries that find their name taken -/

/-- An entry takes a new place, or it is counted. -/
theorem Tally.size_add_taken_write (t : Tally α) (e : String × α) :
    (t.write e).map.size + (t.write e).taken = t.map.size + t.taken + 1 := by
  have hsize : ∀ m : OrderedMap α, m.size = m.keys.length := fun m =>
    (List.length_map Prod.fst).symm
  rw [hsize, hsize, write]
  by_cases hmem : e.1 ∈ t.map.keys
  · rw [keys_insert_of_mem e.2 hmem, if_pos (contains_iff.2 hmem)]
    exact (Nat.add_assoc _ _ _).symm
  · rw [keys_insert_of_not_mem e.2 hmem, if_neg fun h => hmem (contains_iff.1 h),
      List.length_append, List.length_singleton]
    exact Nat.add_right_comm _ _ _

theorem map_tally (l : List (String × α)) : (tally l).map = ofList l := by
  have hfold : ∀ t : Tally α, (l.foldl Tally.write t).map = t.map.insertAll l := by
    induction l with
    | nil => exact fun t => rfl
    | cons e rest ih => exact fun t => ih (t.write e)
  exact hfold ⟨empty, 0⟩

/-- No entry is lost. -/
theorem size_add_taken_tally (l : List (String × α)) :
    (ofList l).size + (tally l).taken = l.length := by
  have hfold : ∀ t : Tally α, (l.foldl Tally.write t).map.size + (l.foldl Tally.write t).taken =
      t.map.size + t.taken + l.length := by
    induction l with
    | nil => exact fun t => rfl
    | cons e rest ih =>
        intro t
        rw [List.foldl_cons, ih, t.size_add_taken_write, List.length_cons]
        omega
  rw [← map_tally]
  exact (hfold ⟨empty, 0⟩).trans (Nat.zero_add _)

end Phrasebook.OrderedMap
