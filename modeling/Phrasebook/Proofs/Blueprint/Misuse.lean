import Phrasebook.Engine

/-! What raw data is turned down for. A blueprint that does not have its form is rejected with all
of its issues. There is one exception: the names and the texts of a node are taken from whatever the
data holds there before its sort is looked at, so a value that gives none ends the reading with a
misuse (`misuse_iff_unreadable`). Every part of a check passes a misuse on and adds none, which is
shown part by part. -/

namespace Phrasebook

/-! ### Checks -/

namespace Checked

variable {α β γ : Type}

/-- A misuse ended a check. -/
def IsMisuse (c : Checked α) : Prop :=
  ∃ m, c = .error (.misuse m)

@[simp]
theorem not_isMisuse_ok (a : α) : ¬ IsMisuse (.ok a : Checked α) := nofun

@[simp]
theorem not_isMisuse_fail (cause : Issue.Cause) (location : List Place) (data : Value) :
    ¬ IsMisuse (fail cause location data : Checked α) := nofun

@[simp]
theorem isMisuse_map {f : α → β} {c : Checked α} : IsMisuse (c.map f) ↔ c.IsMisuse := by
  cases c with
  | ok a => exact ⟨nofun, nofun⟩
  | error r => simp [IsMisuse, Except.map]

@[simp]
theorem isMisuse_under {place : Place} {c : Checked α} : (c.under place).IsMisuse ↔ c.IsMisuse := by
  cases c with
  | ok a => rfl
  | error r =>
      cases r with
      | issues l => exact ⟨nofun, nofun⟩
      | misuse m => rfl

@[simp]
theorem isMisuse_both {f : α → β → γ} {first : Checked α} {second : Checked β} :
    (both f first second).IsMisuse ↔ first.IsMisuse ∨ second.IsMisuse := by
  rcases first with (l | m) | a <;> rcases second with (l' | m') | b <;> simp [both, IsMisuse]

end Checked

namespace Value

/-- The entries of a map; any other value has none. -/
def mapEntries : Value → List (Value × Value)
  | .map entries => entries
  | _ => []

theorem isMisuse_checkEntries {α : Type} {check : Value → Checked α}
    {entries : List (Value × Value)} :
    (checkEntries check entries).IsMisuse ↔ ∃ e ∈ entries, (check e.2).IsMisuse := by
  induction entries with
  | nil => simp [checkEntries]
  | cons e rest ih =>
      obtain ⟨k, v⟩ := e
      cases k <;> simp [checkEntries, ih]

theorem isMisuse_checkMap {α : Type} {check : Value → Checked α} {v : Value} :
    (checkMap check v).IsMisuse ↔ ∃ e ∈ v.mapEntries, (check e.2).IsMisuse := by
  cases v with
  | map entries => rw [checkMap, Checked.isMisuse_map, isMisuse_checkEntries, mapEntries]
  | _ => simp [checkMap, mapEntries]

/-! ### Nodes -/

/-- Whether names can be taken from a value: from no value, a text, a list and a map. -/
def givesNames : Value → Bool
  | .bool _ => false
  | .int _ => false
  | .real _ => false
  | _ => true

/-- Whether texts can be taken from a value: from anything empty, and from a map. -/
def givesTexts (v : Value) : Bool :=
  v.isVoid || v.shape = .map

end Value

namespace Node

@[simp]
theorem isOk_names (v : Value) : (names v).isOk = v.givesNames := by
  cases v <;> rfl

@[simp]
theorem isOk_texts (v : Value) : (texts v).isOk = v.givesTexts := by
  unfold texts Value.givesTexts
  cases v.isVoid with
  | true => rfl
  | false => cases v <;> rfl

theorem not_isMisuse_description (v : Value) : ¬ (description v).IsMisuse := by
  cases v <;> simp [description]

/-- Whether the fields of a node give the names and texts that are taken from them. -/
def readable (entries : List (Value × Value)) : Bool :=
  (field entries "placeholders").givesNames &&
    (((Value.fieldOr? "holders" "parrotHolders" entries).map Prod.snd).getD .null).givesNames &&
    (field entries "variants").givesTexts && (field entries "conditions").givesTexts

theorem isMisuse_ofEntries {entries : List (Value × Value)} :
    (ofEntries entries).IsMisuse ↔ readable entries = false := by
  rw [readable, ← isOk_names, ← isOk_names, ← isOk_texts, ← isOk_texts]
  dsimp only [ofEntries]
  generalize names (field entries "placeholders") = placeholders
  generalize names (((Value.fieldOr? "holders" "parrotHolders" entries).map Prod.snd).getD .null) =
    holders
  generalize texts (field entries "variants") = variants
  generalize texts (field entries "conditions") = conditions
  cases placeholders with
  | error m => exact ⟨fun _ => rfl, fun _ => ⟨m, rfl⟩⟩
  | ok l =>
      cases holders with
      | error m => exact ⟨fun _ => rfl, fun _ => ⟨m, rfl⟩⟩
      | ok l' =>
          cases variants with
          | error m => exact ⟨fun _ => rfl, fun _ => ⟨m, rfl⟩⟩
          | ok t =>
              cases conditions with
              | error m => exact ⟨fun _ => rfl, fun _ => ⟨m, rfl⟩⟩
              | ok t' =>
                  refine ⟨fun h => ?_, nofun⟩
                  exact absurd (Checked.isMisuse_map.1 h) (not_isMisuse_description _)

theorem isMisuse_check {otherwise : String → Issue.Cause} {v : Value} :
    (check otherwise v).IsMisuse ↔ readable v.mapEntries = false := by
  cases v with
  | map entries => exact isMisuse_ofEntries
  | _ => simp [check, readable, Value.mapEntries, field, Value.field?, Value.fieldOr?,
      Value.givesNames, Value.givesTexts, Value.isVoid]

end Node

/-! ### Blueprints -/

namespace Blueprint

/-- What raw data has in the places of nodes: the values of all groups of the dynamic section. -/
def rawNodes (v : Value) : List Value :=
  let dynamic := ((Value.fieldOr? "Dynamic" "dynamic" v.mapEntries).map Prod.snd).getD .null
  dynamic.mapEntries.flatMap fun group => group.2.mapEntries.map Prod.snd

theorem isMisuse_section {α : Type} {name other : String} {check : Value → Checked α}
    {entries : List (Value × Value)} :
    (section? name other check entries).IsMisuse ↔
      ∃ group ∈ (((Value.fieldOr? name other entries).map Prod.snd).getD .null).mapEntries,
        ∃ e ∈ group.2.mapEntries, (check e.2).IsMisuse := by
  rw [section?]
  rcases Value.fieldOr? name other entries with _ | ⟨found, v⟩
  · simp [Value.mapEntries]
  · have hmap : ((Value.checkMap (Value.checkMap check) v).under (.key found)).IsMisuse ↔
        ∃ group ∈ v.mapEntries, ∃ e ∈ group.2.mapEntries, (check e.2).IsMisuse := by
      rw [Checked.isMisuse_under, Value.isMisuse_checkMap]
      simp only [Value.isMisuse_checkMap]
    cases v with
    | null => simp [Value.mapEntries]
    | _ => exact hmap

theorem isMisuse_check {otherwise : String → Issue.Cause} {v : Value} :
    (check otherwise v).IsMisuse ↔ ∃ node ∈ rawNodes v, Node.readable node.mapEntries = false := by
  have hnodes : (∃ node ∈ rawNodes v, Node.readable node.mapEntries = false) ↔
      (section? "Dynamic" "dynamic" (Node.check otherwise) v.mapEntries).IsMisuse := by
    rw [isMisuse_section]
    simp only [rawNodes, List.mem_flatMap, List.mem_map, Node.isMisuse_check]
    constructor
    · rintro ⟨_, ⟨group, hgroup, e, he, rfl⟩, hreadable⟩
      exact ⟨group, hgroup, e, he, hreadable⟩
    · rintro ⟨group, hgroup, e, he, hreadable⟩
      exact ⟨e.2, ⟨group, hgroup, e, he, rfl⟩, hreadable⟩
  rw [hnodes]
  cases v with
  | map entries => simp [check, isMisuse_section, Value.mapEntries]
  | _ => simp [check, section?, Value.mapEntries, Value.fieldOr?, Value.field?]

/-- Raw data with one node, whose placeholders are a number. -/
def numbered : Value :=
  .map [(.text "Dynamic", .map [(.text "messages", .map [(.text "greeting",
    .map [(.text "placeholders", .int 5)])])])]

/-- Not all raw data is read or turned down with its issues: a number in the place of names is a
misuse. -/
theorem not_ok_or_issues :
    ¬ ∀ v : Value, (∃ b, ofValue v = .ok b) ∨ ∃ l, ofValue v = .error (.issues l) := by
  intro h
  have hmisuse : ofValue numbered = .error (.misuse (.notIterable .int)) := rfl
  rcases h numbered with ⟨b, hb⟩ | ⟨l, hl⟩
  · rw [hmisuse] at hb
    cases hb
  · rw [hmisuse] at hl
    cases hl

end Blueprint

/-! ### Activation and the catalog -/

namespace Engine

/-- What is wrong with raw data is all that an activation says of it. -/
theorem activateValue_eq_rejected_iff (e : Engine) (v : Value) (language : Option String)
    (r : Rejection) : e.activateValue v language = ⟨.error (.rejected r), e, []⟩ ↔
      Blueprint.ofValue v = .error r := by
  rw [activateValue, buildValue]
  cases Blueprint.ofValue v with
  | error r' => simp [publish]
  | ok b =>
      refine ⟨fun h => ?_, nofun⟩
      have hresult := congrArg Step.result h
      dsimp only [build] at hresult
      cases hbuilt : (Registry.build b language).1 with
      | error count =>
          rw [hbuilt] at hresult
          cases hresult
      | ok registry =>
          rw [hbuilt] at hresult
          cases hresult

theorem addLanguageValue_eq_rejected_iff (e : Engine) (language : String) (v : Value)
    (r : Rejection) : e.addLanguageValue language v = ⟨.error (.rejected r), e, []⟩ ↔
      Blueprint.ofValue v = .error r := by
  rw [addLanguageValue]
  cases Blueprint.ofValue v with
  | error r' => simp
  | ok b =>
      refine ⟨fun h => ?_, nofun⟩
      cases congrArg Step.result h

/-- **What raw data is turned down for.** Reading raw data ends with a misuse exactly if the fields
of some node do not give the names or the texts that are taken from them; otherwise it gives a
blueprint or the issues. An activation of the data, and adding it to the catalog, report what the
reading does, and change nothing. -/
theorem misuse_iff_unreadable (e : Engine) (v : Value) (language : Option String) (name : String) :
    ((∃ m, Blueprint.ofValue v = .error (.misuse m)) ↔
      ∃ node ∈ Blueprint.rawNodes v, Node.readable node.mapEntries = false) ∧
    ∀ r, (e.activateValue v language = ⟨.error (.rejected r), e, []⟩ ↔
        Blueprint.ofValue v = .error r) ∧
      (e.addLanguageValue name v = ⟨.error (.rejected r), e, []⟩ ↔
        Blueprint.ofValue v = .error r) :=
  ⟨Blueprint.isMisuse_check, fun r => ⟨e.activateValue_eq_rejected_iff v language r,
    e.addLanguageValue_eq_rejected_iff name v r⟩⟩

end Engine

end Phrasebook
