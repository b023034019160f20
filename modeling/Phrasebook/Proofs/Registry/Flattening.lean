import Mathlib.Data.List.Basic
import Phrasebook.Listing
import Phrasebook.Proofs.Registry.Building

/-! Flattening. The definitions of a blueprint are written into one map in their order, so every key
has its place by its first definition (`pairwise_idxOf_keys_ofList`) and its entry by its last
(`lookup_reverse_of_last`). Counting the definitions that find their key taken, no definition is
lost: each either takes a new place or is counted (`size_ofBlueprint_add_taken`). That is what a
build logs (`build_last_wins`). A phrase is told by its own key, the one that it stands under. -/

namespace Phrasebook

/-! ### Maps that are written entry by entry -/

namespace OrderedMap

universe u

variable {α : Type u}

theorem mem_keys_ofList_iff {l : List (String × α)} {key : String} :
    key ∈ (ofList l).keys ↔ key ∈ l.map Prod.fst := by
  induction l using List.reverseRecOn with
  | nil => exact Iff.rfl
  | append_singleton l e ih =>
      rw [ofList_concat, mem_keys_insert_iff, ih, List.map_append, List.mem_append,
        List.map_singleton, List.mem_singleton]

/-- Names have their places in the order in which they first come. -/
theorem pairwise_idxOf_keys_ofList (l : List (String × α)) :
    (ofList l).keys.Pairwise fun k k' =>
      (l.map Prod.fst).idxOf k < (l.map Prod.fst).idxOf k' := by
  induction l using List.reverseRecOn with
  | nil => exact .nil
  | append_singleton l e ih =>
      have hsame : ∀ k ∈ (ofList l).keys,
          ((l ++ [e]).map Prod.fst).idxOf k = (l.map Prod.fst).idxOf k := by
        intro k hk
        rw [List.map_append, List.idxOf_append_of_mem (mem_keys_ofList_iff.1 hk)]
      have hold : (ofList l).keys.Pairwise fun k k' =>
          ((l ++ [e]).map Prod.fst).idxOf k < ((l ++ [e]).map Prod.fst).idxOf k' := by
        refine ih.imp_of_mem fun hk hk' hlt => ?_
        rw [hsame _ hk, hsame _ hk']
        exact hlt
      rw [ofList_concat]
      by_cases hmem : e.1 ∈ (ofList l).keys
      · rw [keys_insert_of_mem e.2 hmem]
        exact hold
      · rw [keys_insert_of_not_mem e.2 hmem, List.pairwise_append]
        refine ⟨hold, List.pairwise_singleton _ _, fun k hk k' hk' => ?_⟩
        rw [List.mem_singleton.1 hk', hsame k hk, List.map_append, List.map_singleton,
          List.idxOf_append_of_notMem fun h => hmem (mem_keys_ofList_iff.2 h)]
        exact Nat.lt_add_right _ (List.idxOf_lt_length_iff.2 (mem_keys_ofList_iff.1 hk))

/-- The last value that is written under a name counts. -/
theorem lookup_reverse_of_last {front back : List (String × α)} {key : String} {value : α}
    (h : key ∉ back.map Prod.fst) :
    lookup key (front ++ (key, value) :: back).reverse = some value := by
  have hback : lookup key back.reverse = none := by
    rwa [lookup_eq_none_iff, List.map_reverse, List.mem_reverse]
  have hwritten : (ofList (front ++ (key, value) :: back)).get? key = some value := by
    have hsplit : ofList (front ++ (key, value) :: back) =
        ((ofList front).insert key value).insertAll back := List.foldl_append
    rw [hsplit, get?_insertAll, hback, Option.none_or, get?_insert, if_pos rfl]
  rwa [ofList, get?_insertAll, get?_empty, Option.or_none] at hwritten

end OrderedMap

/-! ### Definitions -/

namespace Blueprint

theorem length_flatten {α : Type} (groups : OrderedMap (OrderedMap α)) :
    (flatten groups).length = groupedSize groups.values := by
  unfold flatten
  induction groups.values with
  | nil => rfl
  | cons group rest ih =>
      rw [List.flatMap_cons, List.length_append, ih, groupedSize, OrderedMap.size]

theorem length_entries (b : Blueprint) : b.entries.length = b.entryCount := by
  rw [entries, List.length_map, definitions, List.length_append, List.length_map, List.length_map,
    length_flatten, length_flatten, entryCount]

/-- The keys of a blueprint, repeated ones included: those of all constants come first. -/
theorem keys_definitions (b : Blueprint) : b.definitions.map Prod.fst =
    b.static.values.flatMap (·.keys) ++ b.dynamic.values.flatMap (·.keys) := by
  simp only [definitions, flatten, List.map_append, List.map_map, List.map_flatMap]
  rfl

theorem keys_entries (b : Blueprint) : b.entries.map Prod.fst = b.definitions.map Prod.fst := by
  rw [entries, List.map_map]
  rfl

theorem definition?_of_last {b : Blueprint} {front back : List (String × Definition)}
    {key : String} {d : Definition} (hb : b.definitions = front ++ (key, d) :: back)
    (h : key ∉ back.map Prod.fst) : b.definition? key = some d := by
  rw [definition?, hb]
  exact OrderedMap.lookup_reverse_of_last h

end Blueprint

/-! ### The line about a registry -/

namespace Registry

/-- The size of a registry and the definitions that found their key taken make up all of them. -/
theorem size_ofBlueprint_add_taken (b : Blueprint) (language : Option String) :
    (ofBlueprint b language).size + (OrderedMap.tally b.entries).taken = b.entryCount := by
  rw [size, ofBlueprint, OrderedMap.size_add_taken_tally, b.length_entries]

/-- Every key is of one kind. -/
theorem length_keysOfKind (r : Registry) :
    (r.keysOfKind .static).length + (r.keysOfKind .plain).length +
      (r.keysOfKind .variant).length + (r.keysOfKind .conditional).length = r.size := by
  simp only [keysOfKind, List.length_map, size, OrderedMap.size]
  induction r.entries.entries with
  | nil => rfl
  | cons e rest ih =>
      rw [List.length_cons, ← ih]
      cases hkind : e.2.kind <;> simp [hkind] <;> omega

/-- A line about a registry, with its size, the number of its keys of each kind, and the number of
definitions that found their key taken. -/
def report (language : Option String) (size static plain variant conditional taken : Nat) :
    LogLine :=
  ⟨.info, .builder,
    "[REGISTRY] Built " ++ toString size ++ " entries for language=" ++ languageMark language ++
      " \x7b'static': " ++ toString static ++ ", 'plain': " ++ toString plain ++
      ", 'variant': " ++ toString variant ++ ", 'conditional': " ++ toString conditional ++
      "\x7d (overwritten=" ++ toString taken ++ ")"⟩

theorem builtLine_eq_report (r : Registry) (taken : Nat) :
    r.builtLine taken = report r.language r.size (r.keysOfKind .static).length
      (r.keysOfKind .plain).length (r.keysOfKind .variant).length
      (r.keysOfKind .conditional).length taken := by
  have hstatic : " \x7b'static': " = " " ++ "\x7b" ++ "'" ++ "static" ++ "': " := by decide
  have hplain : ", 'plain': " = ", " ++ "'" ++ "plain" ++ "': " := by decide
  have hvariant : ", 'variant': " = ", " ++ "'" ++ "variant" ++ "': " := by decide
  have hconditional : ", 'conditional': " = ", " ++ "'" ++ "conditional" ++ "': " := by decide
  have htaken : "\x7d (overwritten=" = "\x7d" ++ " (overwritten=" := by decide
  rw [report, hstatic, hplain, hvariant, hconditional, htaken]
  simp [builtLine, kindCounts, Kind.all, Kind.word, String.append_assoc, -String.reduceAppend]

theorem describe_of_get? {r : Registry} {key : String} {e : Entry} (h : r.get? key = some e) :
    r.describe key = .ok (EntryInfo.ofEntry key e) := by
  rw [describe, entry, h]
  rfl

/-- A phrase is described by its own key. -/
theorem describe_of_phrase {r : Registry} {key : String} {p : Phrase}
    (h : r.get? key = some (.phrase p)) :
    r.describe key = .ok (.phrase p.key p.node (p.rules.map (·.source))) :=
  describe_of_get? h

/-- **The last definition of a key counts, and none is lost.** A blueprint has a registry unless a
number in a condition is oversized. Its keys are those that occur in a group, each once, in the
order in which they first occur; each stands for what its last definition says, a constant for its
value and a node for a phrase of that node whose own key is that key, by which it is described; the
last line of the log tells the number of definitions that found their key taken, which makes up the
number of all definitions with the size of the registry, and the numbers of the keys of each kind,
which make up its size. -/
theorem build_last_wins (b : Blueprint) (language : Option String) :
    ((∃ r, (build b language).1 = .ok r) ↔ b.Buildable) ∧
    ∀ r log, build b language = (.ok r, log) →
      let names := b.static.values.flatMap (·.keys) ++ b.dynamic.values.flatMap (·.keys)
      let taken := (OrderedMap.tally b.entries).taken
      let count := fun kind => (r.keysOfKind kind).length
      r.language = language ∧
      (∀ key, key ∈ r.entries.keys ↔ b.Defines key) ∧
      r.entries.keys.Pairwise (fun k k' => names.idxOf k < names.idxOf k') ∧
      (∀ front key d back, b.definitions = front ++ (key, d) :: back → key ∉ back.map Prod.fst →
        match d with
        | .constant v => r.get? key = some (.constant v)
        | .phrase n => ∃ rules, r.get? key = some (.phrase ⟨key, n, rules⟩) ∧
            r.describe key = .ok (.phrase key n (rules.map (·.source)))) ∧
      log.getLast? = some (report language r.size (count .static) (count .plain) (count .variant)
        (count .conditional) taken) ∧
      r.size + taken = b.entryCount ∧
      count .static + count .plain + count .variant + count .conditional = r.size := by
  refine ⟨by simp only [build_eq_ok_iff, exists_and_left, exists_eq, and_true],
    fun r log hbuild => ?_⟩
  intro names taken count
  obtain ⟨hbuildable, rfl⟩ := build_eq_ok_iff.1 (congrArg Prod.fst hbuild)
  have hlog : log = b.warnings ++ [(ofBlueprint b language).builtLine taken] :=
    (congrArg Prod.snd hbuild).symm.trans (log_build hbuildable language)
  have hnames : b.entries.map Prod.fst = names := b.keys_entries.trans b.keys_definitions
  refine ⟨rfl, fun key => ?_, ?_, fun front key d back hb hlast => ?_, ?_, ?_, ?_⟩
  · have hmem : key ∈ (ofBlueprint b language).entries.keys ↔ key ∈ b.entries.map Prod.fst :=
      OrderedMap.mem_keys_ofList_iff
    rw [b.keys_entries, Blueprint.mem_keys_definitions_iff] at hmem
    exact hmem
  · have hplaces := OrderedMap.pairwise_idxOf_keys_ofList b.entries
    rw [hnames] at hplaces
    exact hplaces
  · have hentry : (ofBlueprint b language).get? key = some (d.entry key) := by
      rw [get?_ofBlueprint, Blueprint.definition?_of_last hb hlast, Option.map_some]
    cases d with
    | constant v => exact hentry
    | phrase n => exact ⟨_, hentry, describe_of_phrase hentry⟩
  · rw [hlog, List.getLast?_concat, builtLine_eq_report]
    rfl
  · exact size_ofBlueprint_add_taken b language
  · exact (ofBlueprint b language).length_keysOfKind

/-- Two definitions of an upload and two of saving, the second of which is a node. -/
def controls : Blueprint :=
  ⟨.ofList [("actions", .ofList [("upload", .text "Upload"), ("save", .text "Save")]),
      ("labels", .ofList [("upload", .text "Send")])],
    .ofList [("messages", .ofList [
      ("save", ⟨"Saving \x7bname\x7d", ["name"], [], .empty, .empty, none⟩),
      ("done", ⟨"Done", [], [], .empty, .empty, none⟩)])]⟩

/-- Two of five definitions are overwritten. -/
theorem build_last_wins_controls :
    let saving : Node := ⟨"Saving \x7bname\x7d", ["name"], [], .empty, .empty, none⟩
    ∃ r, build controls (some "en") = (.ok r, [report (some "en") 3 1 2 0 0 2]) ∧
      r.entries.keys = ["upload", "save", "done"] ∧
      r.get? "upload" = some (.constant (.text "Send")) ∧
      r.describe "save" = .ok (.phrase "save" saving []) ∧
      (OrderedMap.tally controls.entries).taken = 2 ∧
      r.size + (OrderedMap.tally controls.entries).taken = controls.entryCount := by
  intro saving
  let r : Registry := ⟨some "en", .ofList [("upload", .constant (.text "Send")),
    ("save", .phrase ⟨"save", saving, []⟩),
    ("done", .phrase ⟨"done", ⟨"Done", [], [], .empty, .empty, none⟩, []⟩)]⟩
  have hbuild : build controls (some "en") = (.ok r, [report (some "en") 3 1 2 0 0 2]) := by
    rfl
  obtain ⟨-, -, -, hentries, -, hsize, -⟩ := (build_last_wins controls (some "en")).2 r _ hbuild
  have hupload : r.get? "upload" = some (.constant (.text "Send")) :=
    hentries [("upload", .constant (.text "Upload")), ("save", .constant (.text "Save"))] "upload"
      (.constant (.text "Send")) _ rfl (by decide)
  obtain ⟨rules, hget, hdescribe⟩ := hentries [("upload", .constant (.text "Upload")),
    ("save", .constant (.text "Save")), ("upload", .constant (.text "Send"))] "save"
      (.phrase saving) _ rfl (by decide)
  cases hget
  exact ⟨r, hbuild, rfl, hupload, hdescribe, rfl, hsize⟩

end Registry

end Phrasebook
