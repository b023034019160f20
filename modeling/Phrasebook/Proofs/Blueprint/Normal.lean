import Phrasebook.Blueprint
import Phrasebook.Proofs.Blueprint.Names

/-! The form that reading leaves. Whatever way the fields of a node are authored, its names are
clean once it is read; and the data that a node with clean names is written as is read as that node
(`Node.check_toValue_iff`). So reading settles: what was read once is read again as it is, node by
node and for a whole blueprint, with all of its groups, keys and texts in their order
(`Blueprint.reading_settles`). -/

namespace Phrasebook

namespace Node

/-- All names of a node are clean. -/
def IsNormal (n : Node) : Prop :=
  (∀ name ∈ n.placeholders, IsClean name) ∧ ∀ name ∈ n.holders, IsClean name

theorem isClean_of_mem_names {v : Value} {l : List String} (h : names v = .ok l) :
    ∀ name ∈ l, IsClean name := by
  rw [names] at h
  cases hraw : rawNames v with
  | error m =>
      rw [hraw] at h
      cases h
  | ok raw =>
      rw [hraw] at h
      cases h
      exact fun name => isClean_of_mem_cleanNames

/-- **A node that is read has clean names.** -/
theorem isNormal_of_check {otherwise : String → Issue.Cause} {v : Value} {n : Node}
    (h : check otherwise v = .ok n) : n.IsNormal := by
  cases v with
  | map entries =>
      obtain ⟨-, hplaceholders, hholders, -⟩ := ofEntries_eq_ok_iff.1 h
      exact ⟨isClean_of_mem_names hplaceholders, isClean_of_mem_names hholders⟩
  | _ => cases h

/-! ### Fields that are written -/

theorem baseText_text (s : String) : baseText (.text s) = s := by
  rw [baseText, Value.isVoid]
  split
  · next hempty => exact (String.isEmpty_iff.1 hempty).symm
  · rfl

theorem names_texts {l : List String} (h : ∀ name ∈ l, IsClean name) :
    names (.list (l.map .text)) = .ok l := by
  have hlist : l.map Value.text =
      (l.map String.toList).map fun field => .text (String.ofList field) := by
    rw [List.map_map]
    exact List.map_congr_left fun name _ => congrArg Value.text String.ofList_toList.symm
  rw [hlist, names_list, cleanNames_eq_iff.2 ⟨gives_self l, h⟩]

theorem texts_ofBag (m : OrderedMap String) : texts (.ofBag (m.map .text)) = .ok m := by
  have hwritten : written (m.entries.map fun e => (.text e.1, .text e.2)) = m.entries := by
    rw [written, List.map_map]
    exact List.map_id _
  rw [Value.ofBag_map, texts_map, hwritten, OrderedMap.ofList_entries]

theorem description_textOrNull (desc : Option String) :
    description ((desc.map Value.text).getD .null) = .ok desc := by
  cases desc <;> rfl

/-- **A node is read from what it is written as just if its names are clean.** -/
theorem check_toValue_iff {otherwise : String → Issue.Cause} {n : Node} :
    check otherwise n.toValue = .ok n ↔ n.IsNormal := by
  refine ⟨isNormal_of_check, fun hnormal => ofEntries_eq_ok_iff.2 ?_⟩
  exact ⟨(baseText_text n.value).symm, names_texts hnormal.1, names_texts hnormal.2,
    texts_ofBag n.variants, texts_ofBag n.conditions, description_textOrNull n.desc⟩

end Node

namespace Blueprint

/-- All nodes of a blueprint have clean names. -/
def IsNormal (b : Blueprint) : Prop :=
  ∀ group ∈ b.dynamic.entries, ∀ e ∈ group.2.entries, e.2.IsNormal

section

variable {α : Type} {name other : String} {check : Value → Checked α}
  {entries : List (Value × Value)} {m : OrderedMap (OrderedMap α)}

/-- A section is read back if each of its groups is. -/
theorem section?_written {found : String} {write : OrderedMap α → Value}
    (hfield : Value.fieldOr? name other entries = some (found, .ofBag (m.map write)))
    (h : ∀ group ∈ m.entries, Value.checkMap check (write group.2) = .ok group.2) :
    (section? name other check entries) = .ok m := by
  rw [section?, hfield, Value.ofBag_map]
  exact Checked.under_eq_ok_iff.2 (Value.checkMap_written h)

/-- What the groups of a section have was read from what they were given. -/
theorem exists_of_section? (h : section? name other check entries = .ok m) :
    ∀ group ∈ m.entries, ∀ e ∈ group.2.entries, ∃ w, check w = .ok e.2 := by
  have hread : ∀ v, Value.checkMap (Value.checkMap check) v = .ok m →
      ∀ group ∈ m.entries, ∀ e ∈ group.2.entries, ∃ w, check w = .ok e.2 := by
    intro v hv group hgroup
    obtain ⟨w, hw⟩ := Value.exists_of_checkMap hv group hgroup
    exact Value.exists_of_checkMap hw
  unfold section? at h
  split at h
  · cases h
    exact nofun
  · cases h
    exact nofun
  · exact hread _ (Checked.under_eq_ok_iff.1 h)

end

variable {otherwise : String → Issue.Cause} {b : Blueprint}

theorem isNormal_of_check {v : Value} (h : check otherwise v = .ok b) : b.IsNormal := by
  cases v with
  | map entries =>
      obtain ⟨static, dynamic, -, hdynamic, rfl⟩ := Checked.both_eq_ok_iff.1 h
      intro group hgroup e he
      obtain ⟨w, hw⟩ := exists_of_section? hdynamic group hgroup e he
      exact Node.isNormal_of_check hw
  | _ => cases h

/-- **A blueprint is read from what it is written as just if the names of its nodes are clean.** -/
theorem check_toValue_iff : check otherwise b.toValue = .ok b ↔ b.IsNormal := by
  refine ⟨isNormal_of_check, fun hnormal => Checked.both_eq_ok_iff.2 ?_⟩
  refine ⟨b.static, b.dynamic, ?_, ?_, rfl⟩
  · refine section?_written rfl fun group _ => ?_
    exact @Value.checkMap_written Value .ok id group.2 fun _ _ => rfl
  · refine section?_written rfl fun group hgroup => ?_
    rw [Value.ofBag_map]
    exact Value.checkMap_written fun e he => Node.check_toValue_iff.2 (hnormal group hgroup e he)

/-- **What was read once is read again as it is.** A node that is read, from data of whatever form,
has clean placeholders and holders, and written as data with its own fields it is read as the same
node, with its variants and conditions in their order. So it is with all nodes of a blueprint, and a
blueprint that is written as data is read as the same blueprint. -/
theorem reading_settles (otherwise : String → Issue.Cause) (v : Value) :
    (∀ n, Node.check otherwise v = .ok n →
      n.IsNormal ∧ Node.check otherwise n.toValue = .ok n) ∧
    ∀ b, check otherwise v = .ok b → b.IsNormal ∧ check otherwise b.toValue = .ok b := by
  constructor
  · intro n hread
    have hnormal := Node.isNormal_of_check hread
    exact ⟨hnormal, Node.check_toValue_iff.2 hnormal⟩
  · intro b hread
    have hnormal := isNormal_of_check hread
    exact ⟨hnormal, check_toValue_iff.2 hnormal⟩

/-- A node in the hand of an author: names with blanks and commas, two keys that read alike, a base
text that is a number. -/
def draft : Value :=
  .map [(.text "value", .int 7), (.text "placeholders", .text " gender, name ,"),
    (.text "parrotHolders", .list [.text "action ", .int 5, .text " "]),
    (.text "variants", .map [(.int 1, .text "one"), (.text "f", .bool true), (.text "1", .null)]),
    (.text "conditions", .text "")]

/-- The draft of a node, alone and in a blueprint. -/
theorem reading_settles_draft :
    let n : Node := ⟨"7", ["gender", "name"], ["action", "5"], .ofList [("1", ""), ("f", "True")],
      .empty, none⟩
    let b : Blueprint := ⟨.empty, .ofList [("messages", .ofList [("greeting", n)])]⟩
    let data : Value := .map [(.text "Static", .null), (.text "dynamic",
      .map [(.text "messages", .map [(.text "greeting", draft)])])]
    Node.check .notModel draft = .ok n ∧ Node.check .notModel n.toValue = .ok n ∧
      ofValue data = .ok b ∧ ofValue b.toValue = .ok b := by
  intro n b data
  have hnode : Node.check .notModel draft = .ok n := rfl
  have hblueprint : ofValue data = .ok b := rfl
  exact ⟨hnode, ((reading_settles .notModel draft).1 n hnode).2, hblueprint,
    ((reading_settles .notModel data).2 b hblueprint).2⟩

end Blueprint

end Phrasebook
