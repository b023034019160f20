/-! Maps from names to values that remember the order in which their names first came. Bags,
default stores, blueprints, registries and catalogs are all such maps: a name keeps its place when
its value is replaced, and takes a new place at the end after it was erased. -/

namespace Phrasebook

universe u v

structure OrderedMap (α : Type u) where
  entries : List (String × α)
  nodup : (entries.map Prod.fst).Nodup

namespace OrderedMap

variable {α : Type u} {β : Type v}

@[ext]
theorem ext {m n : OrderedMap α} (h : m.entries = n.entries) : m = n := by
  cases m
  cases n
  cases h
  rfl

def empty : OrderedMap α :=
  ⟨[], .nil⟩

instance : EmptyCollection (OrderedMap α) := ⟨empty⟩

instance : Inhabited (OrderedMap α) := ⟨empty⟩

def keys (m : OrderedMap α) : List String :=
  m.entries.map Prod.fst

def values (m : OrderedMap α) : List α :=
  m.entries.map Prod.snd

def size (m : OrderedMap α) : Nat :=
  m.entries.length

def isEmpty (m : OrderedMap α) : Bool :=
  m.entries.isEmpty

/-- The value of the first entry of a name. -/
def lookup (key : String) : List (String × α) → Option α
  | [] => none
  | (k, v) :: rest => if k = key then some v else lookup key rest

def get? (m : OrderedMap α) (key : String) : Option α :=
  lookup key m.entries

def contains (m : OrderedMap α) (key : String) : Bool :=
  (m.get? key).isSome

/-- Give a name its value where it stands, or at the end. -/
def put (key : String) (value : α) : List (String × α) → List (String × α)
  | [] => [(key, value)]
  | (k, v) :: rest => if k = key then (k, value) :: rest else (k, v) :: put key value rest

theorem keys_put_mem {key : String} {value : α} {l : List (String × α)}
    (h : key ∈ l.map Prod.fst) : (put key value l).map Prod.fst = l.map Prod.fst := by
  induction l with
  | nil => simp at h
  | cons e rest ih =>
      obtain ⟨k, v⟩ := e
      by_cases hk : k = key
      · simp [put, hk]
      · have hr : key ∈ rest.map Prod.fst := by
          simpa [Ne.symm hk] using h
        simp [put, hk, ih hr]

theorem keys_put_not_mem {key : String} {value : α} {l : List (String × α)}
    (h : key ∉ l.map Prod.fst) : (put key value l).map Prod.fst = l.map Prod.fst ++ [key] := by
  induction l with
  | nil => rfl
  | cons e rest ih =>
      obtain ⟨k, v⟩ := e
      simp only [List.map_cons, List.mem_cons, not_or] at h
      simp [put, Ne.symm h.1, ih h.2]

theorem nodup_put {key : String} {value : α} {l : List (String × α)}
    (h : (l.map Prod.fst).Nodup) : ((put key value l).map Prod.fst).Nodup := by
  by_cases hm : key ∈ l.map Prod.fst
  · rwa [keys_put_mem hm]
  · rw [keys_put_not_mem hm, List.nodup_append]
    refine ⟨h, by simp, fun a ha b hb => ?_⟩
    rw [List.mem_singleton.1 hb]
    exact fun hab => hm (hab ▸ ha)

def insert (m : OrderedMap α) (key : String) (value : α) : OrderedMap α :=
  ⟨put key value m.entries, nodup_put m.nodup⟩

def erase (m : OrderedMap α) (key : String) : OrderedMap α :=
  ⟨m.entries.filter (·.1 ≠ key),
    m.nodup.sublist ((List.filter_sublist).map Prod.fst)⟩

/-- Write all entries of a list over a map, in order. -/
def insertAll (m : OrderedMap α) (l : List (String × α)) : OrderedMap α :=
  l.foldl (fun acc e => acc.insert e.1 e.2) m

/-- The map that a list of entries writes: a repeated name keeps its first place and takes its last
value. -/
def ofList (l : List (String × α)) : OrderedMap α :=
  empty.insertAll l

/-- Write one map over another. -/
def merge (m n : OrderedMap α) : OrderedMap α :=
  m.insertAll n.entries

/-- Change every value. -/
def map (f : α → β) (m : OrderedMap α) : OrderedMap β :=
  ⟨m.entries.map fun e => (e.1, f e.2), by
    have h : (m.entries.map fun e => (e.1, f e.2)).map Prod.fst = m.entries.map Prod.fst := by
      rw [List.map_map]
      rfl
    rw [h]
    exact m.nodup⟩

/-- A map that entries are written to one after the other, with the number of those that found
their name taken. -/
structure Tally (α : Type u) where
  map : OrderedMap α
  taken : Nat

def Tally.write (t : Tally α) (e : String × α) : Tally α :=
  ⟨t.map.insert e.1 e.2, if t.map.contains e.1 then t.taken + 1 else t.taken⟩

/-- Write all entries of a list to an empty map, in order. -/
def tally (l : List (String × α)) : Tally α :=
  l.foldl Tally.write ⟨empty, 0⟩

end OrderedMap

end Phrasebook
