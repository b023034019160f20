import Mathlib.Algebra.Ring.Nat
import Mathlib.Data.List.Forall2
import Phrasebook.Proofs.Blueprint.Fields
import Phrasebook.Proofs.Registry.Flattening

/-! Overviews of a registry. Its listing, the counts in the listing, its keys of each kind and what
is told about one entry are taken from it apart from each other, and they agree. The listing is
sorted by the keys of the registry while a phrase tells its own key, so its items tell the keys that
they are sorted by only where the two are the same (`Listing.keys_ofRegistry`), as a build sees to.
Then the listing has one item for every key, in the order of code points (`Listing.pairwise_keys`),
the counts are those of the keys (`Listing.get?_kinds`), every key is of one kind, and the
conditions of a phrase are listed or counted as dropped (`EntryInfo.accounts_phrase`). All of it
holds of every registry that is built (`Registry.overview_of_build`). -/

namespace Phrasebook

/-! ### The order of keys -/

/-- One text comes before another by their code points. -/
def Precedes (a b : String) : Prop :=
  List.Lex (· < ·) (a.toList.map Char.toNat) (b.toList.map Char.toNat)

theorem lex_toNat_iff {cs ds : List Char} :
    List.Lex (· < ·) (cs.map Char.toNat) (ds.map Char.toNat) ↔ List.Lex (· < ·) cs ds := by
  induction cs generalizing ds with
  | nil => cases ds <;> simp
  | cons c cs ih =>
      cases ds with
      | nil => simp
      | cons d ds =>
          have hlt : c.toNat < d.toNat ↔ c < d := Iff.rfl
          have heq : c.toNat = d.toNat ↔ c = d := Char.toNat_inj
          simp only [List.map_cons, List.cons_lex_cons_iff, ih, hlt, heq]

theorem precedes_iff {a b : String} : Precedes a b ↔ a < b :=
  lex_toNat_iff

namespace EntryInfo

/-- An entry without another key of its own is told about under the key that it is found by. -/
theorem key_ofEntry {key : String} {entry : Entry} (h : ∀ p, entry = .phrase p → p.key = key) :
    (ofEntry key entry).key = key := by
  cases entry with
  | constant v => rfl
  | phrase p => exact h p rfl

theorem kind_ofEntry (key : String) (entry : Entry) : (ofEntry key entry).kind = entry.kind := by
  cases entry <;> rfl

end EntryInfo

namespace Listing

theorem keyLe_iff {a b : String × Entry} : keyLe a b = true ↔ ¬ b.1 < a.1 := by
  rw [keyLe, Bool.not_eq_true', decide_eq_false_iff_not]

theorem keyLe_trans (a b c : String × Entry) (hab : keyLe a b = true) (hbc : keyLe b c = true) :
    keyLe a c = true := by
  rw [keyLe_iff, String.not_lt] at hab hbc ⊢
  exact String.le_trans hab hbc

theorem keyLe_total (a b : String × Entry) : (keyLe a b || keyLe b a) = true := by
  rw [Bool.or_eq_true, keyLe_iff, keyLe_iff, String.not_lt, String.not_lt]
  exact String.le_total a.1 b.1

variable {r : Registry}

/-- An entry that is listed stands in the registry. -/
theorem get?_of_mem_sorted {e : String × Entry} (he : e ∈ r.entries.entries.mergeSort keyLe) :
    r.get? e.1 = some e.2 :=
  OrderedMap.get?_eq_some_iff.2 ((List.mergeSort_perm _ _).mem_iff.1 he)

/-- The items of a listing tell the keys that they are sorted by. -/
theorem keys_ofRegistry (h : r.Keyed) : (ofRegistry r).entries.map EntryInfo.key =
    (r.entries.entries.mergeSort keyLe).map Prod.fst := by
  rw [ofRegistry, List.map_map]
  refine List.map_congr_left fun e he => EntryInfo.key_ofEntry fun p hp => h e.1 p ?_
  rw [get?_of_mem_sorted he, hp]

theorem keys_perm (h : r.Keyed) :
    ((ofRegistry r).entries.map EntryInfo.key).Perm r.entries.keys := by
  rw [keys_ofRegistry h]
  exact (List.mergeSort_perm r.entries.entries keyLe).map Prod.fst

variable (r) in
theorem nodup_sorted : ((r.entries.entries.mergeSort keyLe).map Prod.fst).Nodup :=
  ((List.mergeSort_perm r.entries.entries keyLe).map Prod.fst).nodup_iff.2 r.entries.nodup

/-- The keys of a listing are sorted, and none stands there twice. -/
theorem pairwise_keys (h : r.Keyed) :
    ((ofRegistry r).entries.map EntryInfo.key).Pairwise Precedes := by
  have hsorted : ((r.entries.entries.mergeSort keyLe).map Prod.fst).Pairwise
      fun a b => ¬ b < a := by
    rw [List.pairwise_map]
    exact (List.pairwise_mergeSort keyLe_trans keyLe_total _).imp keyLe_iff.1
  rw [keys_ofRegistry h]
  refine (hsorted.and (nodup_sorted r)).imp ?_
  rintro a b ⟨hle, hne⟩
  have hnot : ¬ b ≤ a := fun hge => hne (String.le_antisymm (String.not_lt.1 hle) hge)
  exact precedes_iff.2 (String.not_le.1 hnot)

variable (r) in
theorem length_entries : (ofRegistry r).entries.length = r.size := by
  rw [ofRegistry, List.length_map, List.length_mergeSort]
  rfl

end Listing

/-! ### The counts -/

theorem OrderedMap.sum_values_insert (m : OrderedMap Nat) (key : String) (n : Nat) :
    (m.insert key n).values.sum + (m.get? key).getD 0 = m.values.sum + n := by
  have hput : ∀ l : List (String × Nat), ((put key n l).map Prod.snd).sum + (lookup key l).getD 0 =
      (l.map Prod.snd).sum + n := by
    intro l
    induction l with
    | nil => simp [put, lookup]
    | cons e rest ih =>
        by_cases hkey : e.1 = key
        · simp only [put, lookup, hkey, if_true, List.map_cons, List.sum_cons, Option.getD_some]
          omega
        · simp only [put, lookup, hkey, if_false, List.map_cons, List.sum_cons]
          omega
  exact hput m.entries

theorem Kind.word_inj {k k' : Kind} : k.word = k'.word ↔ k = k' := by
  cases k <;> cases k' <;> decide

namespace Listing

theorem get?_countKind (counts : OrderedMap Nat) (k kind : Kind) :
    ((countKind counts k).get? kind.word).getD 0 =
      (counts.get? kind.word).getD 0 + if k = kind then 1 else 0 := by
  rw [countKind, OrderedMap.get?_insert]
  by_cases hkind : k = kind
  · rw [hkind, if_pos rfl, if_pos rfl, Option.getD_some]
  · rw [if_neg fun h => hkind (Kind.word_inj.1 h).symm, if_neg hkind, Nat.add_zero]

theorem sum_countKind (counts : OrderedMap Nat) (k : Kind) :
    (countKind counts k).values.sum = counts.values.sum + 1 := by
  have hsum := counts.sum_values_insert k.word ((counts.get? k.word).getD 0 + 1)
  rw [countKind]
  omega

/-- Each kind is counted as often as it occurs. -/
theorem get?_foldl_countKind (ks : List Kind) (counts : OrderedMap Nat) (kind : Kind) :
    ((ks.foldl countKind counts).get? kind.word).getD 0 =
      (counts.get? kind.word).getD 0 + ks.count kind := by
  induction ks generalizing counts with
  | nil => rfl
  | cons k ks ih =>
      rw [List.foldl_cons, ih, get?_countKind, List.count_cons, Nat.add_assoc,
        Nat.add_comm (ks.count kind)]
      simp only [beq_iff_eq]

theorem sum_foldl_countKind (ks : List Kind) (counts : OrderedMap Nat) :
    (ks.foldl countKind counts).values.sum = counts.values.sum + ks.length := by
  induction ks generalizing counts with
  | nil => rfl
  | cons k ks ih =>
      rw [List.foldl_cons, ih, sum_countKind, List.length_cons]
      omega

variable (r : Registry)

theorem count_kind (kind : Kind) :
    ((ofRegistry r).entries.map EntryInfo.kind).count kind = (r.keysOfKind kind).length := by
  have hkinds : (ofRegistry r).entries.map EntryInfo.kind =
      (r.entries.entries.mergeSort keyLe).map fun e => e.2.kind := by
    rw [ofRegistry, List.map_map]
    exact List.map_congr_left fun e _ => EntryInfo.kind_ofEntry e.1 e.2
  have hperm := (List.mergeSort_perm r.entries.entries keyLe).map fun e => e.2.kind
  rw [hkinds, hperm.count_eq, Registry.keysOfKind, List.length_map, List.count, List.countP_map,
    List.countP_eq_length_filter]
  rfl

/-- **The counts of a listing are those of the keys of each kind.** -/
theorem get?_kinds (kind : Kind) :
    ((ofRegistry r).kinds.get? kind.word).getD 0 = (r.keysOfKind kind).length := by
  rw [kinds, get?_foldl_countKind, OrderedMap.get?_empty, count_kind]
  exact Nat.zero_add _

theorem sum_kinds : (ofRegistry r).kinds.values.sum = r.size := by
  rw [kinds, sum_foldl_countKind, List.length_map, length_entries]
  exact Nat.zero_add _

end Listing

/-! ### The keys of each kind -/

namespace Registry

variable (r : Registry)

theorem keysOfKind_sublist (kind : Kind) : (r.keysOfKind kind).Sublist r.entries.keys :=
  List.filter_sublist.map Prod.fst

variable {r}

theorem mem_keysOfKind_iff {kind : Kind} {key : String} :
    key ∈ r.keysOfKind kind ↔ ∃ entry, r.get? key = some entry ∧ entry.kind = kind := by
  simp only [keysOfKind, List.mem_map, List.mem_filter, decide_eq_true_eq, get?,
    OrderedMap.get?_eq_some_iff]
  constructor
  · rintro ⟨⟨k, entry⟩, ⟨hmem, hkind⟩, rfl⟩
    exact ⟨entry, hmem, hkind⟩
  · rintro ⟨entry, hmem, hkind⟩
    exact ⟨(key, entry), ⟨hmem, hkind⟩, rfl⟩

/-- **Every key is of one kind.** -/
theorem existsUnique_kind {key : String} (h : key ∈ r.entries.keys) :
    ∃! kind, key ∈ r.keysOfKind kind := by
  obtain ⟨⟨k, entry⟩, hmem, rfl⟩ := List.mem_map.1 h
  have hget : r.get? k = some entry := OrderedMap.get?_eq_some_iff.2 hmem
  refine ⟨entry.kind, mem_keysOfKind_iff.2 ⟨entry, hget, rfl⟩, fun kind hkind => ?_⟩
  obtain ⟨entry', hget', rfl⟩ := mem_keysOfKind_iff.1 hkind
  rw [Option.some.inj (hget.symm.trans hget')]

end Registry

/-! ### What is told about one entry -/

open Condition (Reads parse_eq_ok_iff_reads)
open Condition.Rule (ofPair?)

namespace Condition.Rule

theorem source_of_ofPair? {pair : String × String} {rule : Rule} (h : ofPair? pair = some rule) :
    rule.source = pair.1 := by
  unfold ofPair? at h
  split at h
  · cases h
    rfl
  · cases h

theorem isSome_ofPair?_iff {pair : String × String} :
    (ofPair? pair).isSome = true ↔ ∃ e, Reads pair.1 e := by
  simp only [← parse_eq_ok_iff_reads, ofPair?]
  cases parse pair.1 <;> simp

/-- The sources of the rules of some pairs are those of the pairs that are conditions, in order. -/
theorem sources_filterMap (pairs : List (String × String)) :
    (pairs.filterMap ofPair?).map (·.source) =
      (pairs.filter fun pair => (ofPair? pair).isSome).map Prod.fst := by
  induction pairs with
  | nil => rfl
  | cons pair rest ih =>
      cases hrule : ofPair? pair with
      | none =>
          rw [List.filterMap_cons_none hrule, ih, List.filter_cons_of_neg]
          rw [hrule]
          exact Bool.false_ne_true
      | some rule =>
          rw [List.filterMap_cons_some hrule, List.map_cons, ih, source_of_ofPair? hrule,
            List.filter_cons_of_pos, List.map_cons]
          rw [hrule]
          rfl

end Condition.Rule

namespace EntryInfo

/-- What is told about an entry accounts for some conditions: those that can be read are listed, in
their order, and the number of the others is told, unless there are none. -/
def Accounts (members : List (Value × Value)) (conditions : OrderedMap String) : Prop :=
  ∃ (sources : List String) (dropped : Nat),
    Value.field? "conditions" members = some (textList sources) ∧
    Value.field? "dropped_conditions" members =
      (if dropped = 0 then none else some (.int dropped)) ∧
    sources.Sublist conditions.keys ∧
    (∀ source ∈ conditions.keys, source ∈ sources ↔ ∃ e, Reads source e) ∧
    sources.length + dropped = conditions.size

/-- A phrase is described by its key, its kind and its texts, and then by what its kind adds. -/
theorem exists_front (key : String) (node : Node) (sources : List String) :
    ∃ front, (phrase key node sources).toValue = .map (front ++ details node sources) ∧
      Value.field? "key" front = some (.text key) ∧
      Value.field? "kind" front = some (.text node.kind.word) ∧
      Value.field? "conditions" front = none ∧ Value.field? "dropped_conditions" front = none := by
  refine ⟨_, rfl, rfl, rfl, ?_⟩
  cases node.desc with
  | none => exact ⟨rfl, rfl⟩
  | some d => cases hempty : d.isEmpty <;> simp [hempty, Value.field?]

/-- **The conditions of a phrase are listed or counted.** -/
theorem accounts_phrase (key : String) {node : Node} (hkind : node.kind = .conditional) :
    ∃ members, (ofEntry key ((Blueprint.Definition.phrase node).entry key)).toValue = .map members ∧
      Accounts members node.conditions := by
  let sources := (node.conditions.entries.filterMap ofPair?).map (·.source)
  have hsources : sources =
      (node.conditions.entries.filter fun pair => (ofPair? pair).isSome).map Prod.fst :=
    Condition.Rule.sources_filterMap node.conditions.entries
  have hentry : (Blueprint.Definition.phrase node).entry key =
      .phrase ⟨key, node, node.conditions.entries.filterMap ofPair?⟩ := by
    rw [Blueprint.Definition.entry, Blueprint.Definition.conditions, if_pos hkind]
    rfl
  have hdetails : details node sources = (.text "conditions", textList sources) ::
      (if dropped node sources = 0 then []
      else [(.text "dropped_conditions", .int (dropped node sources))]) := by
    rw [details, hkind]
  obtain ⟨front, hfront, -, -, hconditions, hdropped⟩ := exists_front key node sources
  have hsublist : sources.Sublist node.conditions.keys :=
    hsources ▸ List.filter_sublist.map Prod.fst
  refine ⟨front ++ details node sources, hentry ▸ hfront, sources, dropped node sources, ?_, ?_,
    hsublist, fun source hsource => ?_, ?_⟩
  · rw [Value.field?_append, hconditions, hdetails]
    rfl
  · rw [Value.field?_append, hdropped, hdetails]
    split <;> rfl
  · rw [hsources, List.mem_map]
    constructor
    · rintro ⟨pair, hpair, rfl⟩
      exact Condition.Rule.isSome_ofPair?_iff.1 (List.mem_filter.1 hpair).2
    · intro hreads
      obtain ⟨pair, hpair, rfl⟩ := List.mem_map.1 hsource
      exact ⟨pair, List.mem_filter.2 ⟨hpair, Condition.Rule.isSome_ofPair?_iff.2 hreads⟩, rfl⟩
  · have hlength : sources.length ≤ node.conditions.size := by
      rw [OrderedMap.size, ← List.length_map Prod.fst]
      exact hsublist.length_le
    rw [dropped]
    omega

end EntryInfo

namespace Registry

/-- An item of a listing shows what is told about the entry of a key, with that key and its kind. -/
def IsItem (r : Registry) (key : String) (item : Value) : Prop :=
  ∃ info members kind, r.describe key = .ok info ∧ item = info.toValue ∧ item = .map members ∧
    Value.field? "key" members = some (.text key) ∧ key ∈ r.keysOfKind kind ∧
    Value.field? "kind" members = some (.text kind.word)

theorem isItem_ofEntry {r : Registry} (hkeyed : r.Keyed) {key : String} {entry : Entry}
    (h : r.get? key = some entry) : r.IsItem key (EntryInfo.ofEntry key entry).toValue := by
  have hdescribe := describe_of_get? h
  have hkind : key ∈ r.keysOfKind entry.kind := mem_keysOfKind_iff.2 ⟨entry, h, rfl⟩
  cases entry with
  | constant v => exact ⟨_, _, .static, hdescribe, rfl, rfl, rfl, hkind, rfl⟩
  | phrase p =>
      obtain ⟨front, hfront, hkey, hword, -⟩ :=
        EntryInfo.exists_front p.key p.node (p.rules.map (·.source))
      refine ⟨_, _, p.node.kind, hdescribe, rfl, hfront, ?_, hkind, ?_⟩
      · rw [Value.field?_append, hkey, Option.some_or, hkeyed key p h]
      · rw [Value.field?_append, hword, Option.some_or]

/-- The items of a listing go with its keys, one for each. -/
theorem forall₂_isItem {r : Registry} (h : r.Keyed) : List.Forall₂ r.IsItem
    ((Listing.ofRegistry r).entries.map EntryInfo.key)
    ((Listing.ofRegistry r).entries.map EntryInfo.toValue) := by
  rw [Listing.keys_ofRegistry h, Listing.ofRegistry, List.map_map, List.forall₂_map_left_iff,
    List.forall₂_map_right_iff, List.forall₂_same]
  exact fun e he => isItem_ofEntry h (Listing.get?_of_mem_sorted he)

/-- **The views of a registry agree.** The listing of a registry that is built tells its size, the
number of its keys of each kind, which make up its size, and has one item for each of its keys, in
the order of code points: what is told about the entry of that key, with the key, which is that of
the phrase itself. The keys of each kind are in the order of the registry, and every key is of one
kind. What is told about a phrase with conditions accounts for all that its author gave it. -/
theorem overview_of_build {b : Blueprint} {language : Option String} {r : Registry}
    (h : (build b language).1 = .ok r) :
    r.Keyed ∧
    (∃ (keys : List String) (items : List Value) (counts : OrderedMap Nat),
      (Listing.ofRegistry r).toValue = .map [
        (.text "language", (language.map .text).getD .null),
        (.text "total_entries", .int r.size),
        (.text "kinds", .ofBag (counts.map fun (n : Nat) => .int n)),
        (.text "entries", .list items)] ∧
      keys.Pairwise Precedes ∧ keys.Perm r.entries.keys ∧ List.Forall₂ r.IsItem keys items ∧
      (∀ kind, (counts.get? kind.word).getD 0 = (r.keysOfKind kind).length) ∧
      counts.values.sum = r.size) ∧
    (∀ kind, (r.keysOfKind kind).Sublist r.entries.keys) ∧
    (∀ key ∈ r.entries.keys, ∃! kind, key ∈ r.keysOfKind kind) ∧
    ∀ key ∈ r.keysOfKind .conditional, ∃ node info members,
      b.definition? key = some (.phrase node) ∧ r.describe key = .ok info ∧
        info.toValue = .map members ∧ EntryInfo.Accounts members node.conditions := by
  have hkeyed := keyed_of_build h
  obtain ⟨-, rfl⟩ := build_eq_ok_iff.1 h
  let l := Listing.ofRegistry (ofBlueprint b language)
  refine ⟨hkeyed, ⟨l.entries.map EntryInfo.key, l.entries.map EntryInfo.toValue, l.kinds, ?_,
    Listing.pairwise_keys hkeyed, Listing.keys_perm hkeyed, forall₂_isItem hkeyed,
    Listing.get?_kinds _, Listing.sum_kinds _⟩, keysOfKind_sublist _, fun key => existsUnique_kind,
    fun key hkey => ?_⟩
  · rw [← Listing.length_entries]
    rfl
  · obtain ⟨entry, hget, hkind⟩ := mem_keysOfKind_iff.1 hkey
    have hdefinition := hget
    rw [get?_ofBlueprint, Option.map_eq_some_iff] at hdefinition
    obtain ⟨d, hd, rfl⟩ := hdefinition
    cases d with
    | constant v => cases hkind
    | phrase node =>
        obtain ⟨members, hmembers, haccounts⟩ := EntryInfo.accounts_phrase key hkind
        exact ⟨node, _, members, hd, describe_of_get? hget, hmembers, haccounts⟩

/-- A title, and a greeting with one condition that can be read and one that was left
half-written. -/
theorem overview_of_build_welcome :
    let node : Node :=
      ⟨"Hello", [], [], .empty, .ofList [("{vip}", "Hi"), ("{age} >", "Dear")], none⟩
    let b : Blueprint := ⟨.ofList [("labels", .ofList [("title", .text "Welcome")])],
      .ofList [("messages", .ofList [("greeting", node)])]⟩
    let r : Registry := ⟨none, .ofList [("title", .constant (.text "Welcome")),
      ("greeting", .phrase ⟨"greeting", node, [⟨"{vip}", "Hi", .field "vip"⟩]⟩)]⟩
    (build b none).1 = .ok r ∧ r.keysOfKind .conditional = ["greeting"] ∧
      r.Keyed ∧ ∃ info members, r.describe "greeting" = .ok info ∧ info.toValue = .map members ∧
        EntryInfo.Accounts members node.conditions := by
  intro node b r
  have hread : Condition.Rule.readAll "greeting" [("{vip}", "Hi"), ("{age} >", "Dear")] =
      (.ok [⟨"{vip}", "Hi", .field "vip"⟩],
        [Condition.Rule.dropped "greeting" ⟨"{age} >", .endsTooEarly, 7⟩]) := by
    simp only [Condition.Rule.readAll, parse_vip, parse_age, Except.map]
  have hbuild : (build b none).1 = .ok r := by
    have hdefinitions : b.definitions =
        [("title", .constant (.text "Welcome")), ("greeting", .phrase node)] := rfl
    have hgreeting : entryOf "greeting" (.phrase node) =
        (.ok (.phrase ⟨"greeting", node, [⟨"{vip}", "Hi", .field "vip"⟩]⟩),
          [Condition.Rule.dropped "greeting" ⟨"{age} >", .endsTooEarly, 7⟩]) := by
      rw [entryOf_eq]
      exact congrArg (fun read : Except Nat (List Condition.Rule) × Log =>
        (read.1.map ((Blueprint.Definition.phrase node).entryWith "greeting" ·), read.2)) hread
    rw [build, hdefinitions, entriesOf, entriesOf, hgreeting]
    rfl
  obtain ⟨node', info, members, hnode, hinfo, hmembers, haccounts⟩ :=
    (overview_of_build hbuild).2.2.2.2 "greeting" (by decide)
  have hdefinition : b.definition? "greeting" = some (.phrase node) := rfl
  cases hdefinition.symm.trans hnode
  exact ⟨hbuild, by decide, (overview_of_build hbuild).1, info, members, hinfo, hmembers,
    haccounts⟩

end Registry

end Phrasebook
