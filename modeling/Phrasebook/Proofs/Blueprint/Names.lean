import Phrasebook.Proofs.Blueprint.Fields
import Phrasebook.Proofs.Text.Trimming

/-! Names as authors write them. The names that texts give are those they hold between blanks, and
blank texts give none (`Node.cleanNames_eq_iff`). A text with commas gives the names of its pieces,
so to join names with commas, with blanks around them and blank pieces in between, is the same
authoring as to list them (`Node.names_joined_as_listed`). -/

namespace Phrasebook.Node

/-! ### Names between blanks -/

/-- A name that is not empty, and has no blanks around it. -/
def IsClean (name : String) : Prop :=
  name ≠ "" ∧ Text.trim name.toList = name.toList

/-- Texts that give some names: each holds the next name between blanks, or is blank. -/
inductive Gives : List (List Char) → List String → Prop
  | nil : Gives [] []
  | blank {field : List Char} {fields : List (List Char)} {names : List String}
      (hfield : Text.AllBlank field) (h : Gives fields names) : Gives (field :: fields) names
  | name {before after : List Char} {name : String} {fields : List (List Char)}
      {names : List String} (hbefore : Text.AllBlank before) (hafter : Text.AllBlank after)
      (h : Gives fields names) : Gives ((before ++ name.toList ++ after) :: fields) (name :: names)

theorem gives_self (names : List String) : Gives (names.map String.toList) names := by
  induction names with
  | nil => exact .nil
  | cons name rest ih =>
      have hname : [] ++ name.toList ++ [] = name.toList := List.append_nil _
      have hgives : Gives (([] ++ name.toList ++ []) :: rest.map String.toList) (name :: rest) :=
        .name nofun nofun ih
      rwa [hname] at hgives

theorem cleanNames_cons_of_blank {field : List Char} (h : Text.AllBlank field)
    (fields : List (List Char)) : cleanNames (field :: fields) = cleanNames fields := by
  rw [cleanNames, List.map_cons, Text.trim_eq_nil_iff.2 h]
  rfl

theorem cleanNames_cons_of_trim {field name : List Char} (hname : Text.trim field = name)
    (hne : name ≠ []) (fields : List (List Char)) :
    cleanNames (field :: fields) = String.ofList name :: cleanNames fields := by
  have hfull : (!name.isEmpty) = true := by
    rwa [Bool.not_eq_true', List.isEmpty_eq_false_iff]
  rw [cleanNames, List.map_cons, hname,
    List.filter_cons_of_pos (p := fun cs : List Char => !cs.isEmpty)
    hfull]
  rfl

/-- Whatever texts are given, the names are found in them. -/
theorem gives_cleanNames (fields : List (List Char)) : Gives fields (cleanNames fields) := by
  induction fields with
  | nil => exact .nil
  | cons field fields ih =>
      by_cases hblank : Text.trim field = []
      · have hfield := Text.trim_eq_nil_iff.1 hblank
        rw [cleanNames_cons_of_blank hfield]
        exact ih.blank hfield
      · obtain ⟨before, after, hbefore, hafter, hfield⟩ := Text.exists_eq_append_trim field
        have hgives :
            Gives ((before ++ (String.ofList (Text.trim field)).toList ++ after) :: fields)
            (String.ofList (Text.trim field) :: cleanNames fields) := .name hbefore hafter ih
        rw [String.toList_ofList, ← hfield] at hgives
        rwa [cleanNames_cons_of_trim rfl hblank]

theorem exists_mem_of_mem_cleanNames {fields : List (List Char)} {name : String}
    (h : name ∈ cleanNames fields) :
    ∃ field ∈ fields, Text.trim field ≠ [] ∧ name = String.ofList (Text.trim field) := by
  obtain ⟨trimmed, htrimmed, rfl⟩ := List.mem_map.1 h
  obtain ⟨hmem, hfull⟩ := List.mem_filter.1 htrimmed
  obtain ⟨field, hfield, rfl⟩ := List.mem_map.1 hmem
  rw [Bool.not_eq_true', List.isEmpty_eq_false_iff] at hfull
  exact ⟨field, hfield, hfull, rfl⟩

theorem isClean_of_mem_cleanNames {fields : List (List Char)} {name : String}
    (h : name ∈ cleanNames fields) : IsClean name := by
  obtain ⟨field, -, hfull, rfl⟩ := exists_mem_of_mem_cleanNames h
  refine ⟨fun hempty => hfull (String.ofList_eq_empty_iff.1 hempty), ?_⟩
  rw [String.toList_ofList, Text.trim_trim]

/-- **The names that texts give are those they hold between blanks.** -/
theorem cleanNames_eq_iff {fields : List (List Char)} {names : List String} :
    cleanNames fields = names ↔ Gives fields names ∧ ∀ name ∈ names, IsClean name := by
  constructor
  · rintro rfl
    exact ⟨gives_cleanNames fields, fun name => isClean_of_mem_cleanNames⟩
  · rintro ⟨hgives, hclean⟩
    induction hgives with
    | nil => rfl
    | blank hfield _ ih => exact (cleanNames_cons_of_blank hfield _).trans (ih hclean)
    | @name before after name fields names hbefore hafter _ ih =>
        rw [List.forall_mem_cons] at hclean
        obtain ⟨⟨hne, htrim⟩, hrest⟩ := hclean
        have hfull : name.toList ≠ [] := fun hempty => hne (String.toList_eq_nil_iff.1 hempty)
        rw [cleanNames_cons_of_trim (Text.trim_padded hbefore hafter htrim) hfull, ih hrest,
          String.ofList_toList]

/-! ### Lists and texts with commas -/

theorem names_list (fields : List (List Char)) :
    names (.list (fields.map fun field => .text (String.ofList field))) =
      .ok (cleanNames fields) := by
  have hraw : rawNames (.list (fields.map fun field => .text (String.ofList field))) =
      .ok fields := by
    rw [rawNames, List.map_map]
    exact congrArg Except.ok (List.map_id'' (fun _ => String.toList_ofList) fields)
  rw [names, hraw]
  rfl

/-- A name that can stand between commas. -/
def IsListed (name : String) : Prop :=
  IsClean name ∧ ',' ∉ name.toList

theorem not_mem_comma_of_gives {fields : List (List Char)} {names : List String}
    (h : Gives fields names) (hnames : ∀ name ∈ names, ',' ∉ name.toList) :
    ∀ field ∈ fields, ',' ∉ field := by
  have hblank : ∀ {cs : List Char}, Text.AllBlank cs → ',' ∉ cs := fun hcs hcomma =>
    absurd (hcs ',' hcomma) (by decide)
  induction h with
  | nil => exact nofun
  | blank hfield _ ih => exact List.forall_mem_cons.2 ⟨hblank hfield, ih hnames⟩
  | name hbefore hafter _ ih =>
      rw [List.forall_mem_cons] at hnames
      refine List.forall_mem_cons.2 ⟨?_, ih hnames.2⟩
      rw [List.mem_append, List.mem_append]
      rintro ((hcomma | hcomma) | hcomma)
      · exact hblank hbefore hcomma
      · exact hnames.1 hcomma
      · exact hblank hafter hcomma

/-- Texts that were joined with commas give what they gave before. -/
theorem names_joined {fields : List (List Char)} {l : List String} (hgives : Gives fields l)
    (hlisted : ∀ name ∈ l, IsListed name) :
    names (.text (String.ofList ([','].intercalate fields))) = .ok l := by
  have hclean : ∀ name ∈ l, IsClean name := fun name hname => (hlisted name hname).1
  have hnames : names (.text (String.ofList ([','].intercalate fields))) =
      .ok (cleanNames (Text.splitOn ',' ([','].intercalate fields))) := by
    rw [names, rawNames, String.toList_ofList]
    rfl
  rw [hnames]
  refine congrArg Except.ok (cleanNames_eq_iff.2 ⟨?_, hclean⟩)
  cases fields with
  | nil =>
      cases hgives
      exact .blank nofun .nil
  | cons field fields =>
      rw [Text.splitOn_intercalate (List.cons_ne_nil field fields)]
      · exact hgives
      · exact not_mem_comma_of_gives hgives fun name hname => (hlisted name hname).2

theorem isListed_of_mem_names {s name : String}
    (h : name ∈ cleanNames (Text.splitOn ',' s.toList)) : IsListed name := by
  refine ⟨isClean_of_mem_cleanNames h, ?_⟩
  obtain ⟨piece, hpiece, -, rfl⟩ := exists_mem_of_mem_cleanNames h
  rw [String.toList_ofList]
  exact fun hcomma => Text.not_mem_of_mem_splitOn hpiece (Text.mem_of_mem_trim hcomma)

/-! ### Fields of a node -/

section

variable {front back : List (Value × Value)} {v : Value} {l : List String}

theorem field_insert {key : String} (h : Value.field? key front = none) (name : String) (v : Value)
    (back : List (Value × Value)) : field (front ++ (.text key, v) :: back) name =
      if name = key then v else field (front ++ back) name := by
  rw [field, Value.field?_insert h]
  split <;> rfl

/-- A node is read with these placeholders just if it is read without any. -/
theorem ofEntries_insert_placeholders
    (hnew : Value.field? "placeholders" (front ++ back) = none) (hv : names v = .ok l) {n : Node} :
    ofEntries (front ++ (.text "placeholders", v) :: back) = .ok n ↔
      ∃ rest, ofEntries (front ++ back) = .ok rest ∧ n = { rest with placeholders := l } := by
  have hfront := Value.field?_eq_none_of_append hnew
  have hnone : names (field (front ++ back) "placeholders") = .ok [] := by
    rw [field, hnew]
    rfl
  have hholders : holdersField (front ++ (.text "placeholders", v) :: back) =
      holdersField (front ++ back) := by
    simp [holdersField, Value.fieldOr?, Value.field?_insert hfront]
  simp only [ofEntries_eq_ok_iff, field_insert hfront, hholders, hnone, if_true, hv,
    String.reduceEq, if_false]
  constructor
  · rintro ⟨hvalue, hplaceholders, hrest⟩
    obtain rfl := Except.ok.inj hplaceholders
    exact ⟨{ n with placeholders := [] }, ⟨hvalue, rfl, hrest⟩, rfl⟩
  · rintro ⟨rest, ⟨hvalue, -, hrest⟩, rfl⟩
    exact ⟨hvalue, rfl, hrest⟩

/-- A node is read with these holders, under either name, just if it is read without any. -/
theorem ofEntries_insert_holders {key : String} (hkey : key = "holders" ∨ key = "parrotHolders")
    (hnew : ∀ name ∈ ["holders", "parrotHolders"], Value.field? name (front ++ back) = none)
    (hv : names v = .ok l) {n : Node} : ofEntries (front ++ (.text key, v) :: back) = .ok n ↔
      ∃ rest, ofEntries (front ++ back) = .ok rest ∧ n = { rest with holders := l } := by
  obtain ⟨hplain, hparrot⟩ : Value.field? "holders" (front ++ back) = none ∧
      Value.field? "parrotHolders" (front ++ back) = none := by
    simpa using hnew
  have hfront : Value.field? key front = none := by
    rcases hkey with rfl | rfl
    · exact Value.field?_eq_none_of_append hplain
    · exact Value.field?_eq_none_of_append hparrot
  have hnone : names (holdersField (front ++ back)) = .ok [] := by
    rw [holdersField, Value.fieldOr?, hplain, hparrot]
    rfl
  have hholders : holdersField (front ++ (.text key, v) :: back) = v := by
    rcases hkey with rfl | rfl <;>
      simp [holdersField, Value.fieldOr?, Value.field?_insert hfront, hplain]
  have hother : ∀ name, name ≠ "holders" → name ≠ "parrotHolders" →
      field (front ++ (.text key, v) :: back) name = field (front ++ back) name := by
    intro name hne hne'
    rw [field_insert hfront, if_neg]
    rcases hkey with rfl | rfl
    · exact hne
    · exact hne'
  rw [ofEntries_eq_ok_iff, hholders, hv, hother "value" (by decide) (by decide),
    hother "placeholders" (by decide) (by decide), hother "variants" (by decide) (by decide),
    hother "conditions" (by decide) (by decide), hother "desc" (by decide) (by decide)]
  simp only [ofEntries_eq_ok_iff, hnone]
  constructor
  · rintro ⟨hvalue, hplaceholders, hl, hrest⟩
    obtain rfl := Except.ok.inj hl
    exact ⟨{ n with holders := [] }, ⟨hvalue, hplaceholders, rfl, hrest⟩, rfl⟩
  · rintro ⟨rest, ⟨hvalue, hplaceholders, -, hrest⟩, rfl⟩
    exact ⟨hvalue, hplaceholders, rfl, hrest⟩

end

/-- A value is authored for some names: it gives them, and among other fields, under the name of the
placeholders or a name of the holders, it makes these the placeholders or holders of the node. -/
structure AuthoredFor (v : Value) (l : List String) : Prop where
  names : names v = .ok l
  placeholders : ∀ (otherwise : String → Issue.Cause) (front back : List (Value × Value))
      (n : Node),
    Value.field? "placeholders" (front ++ back) = none →
    (check otherwise (.map (front ++ (.text "placeholders", v) :: back)) = .ok n ↔
      ∃ rest, check otherwise (.map (front ++ back)) = .ok rest ∧
        n = { rest with placeholders := l })
  holders : ∀ (otherwise : String → Issue.Cause) (key : String) (front back : List (Value × Value))
    (n : Node), key = "holders" ∨ key = "parrotHolders" →
    (∀ name ∈ ["holders", "parrotHolders"], Value.field? name (front ++ back) = none) →
    (check otherwise (.map (front ++ (.text key, v) :: back)) = .ok n ↔
      ∃ rest, check otherwise (.map (front ++ back)) = .ok rest ∧ n = { rest with holders := l })

theorem authoredFor_of_names {v : Value} {l : List String} (h : names v = .ok l) :
    AuthoredFor v l :=
  ⟨h, fun _ _ _ _ hnew => ofEntries_insert_placeholders hnew h,
    fun _ _ _ _ _ hkey hnew => ofEntries_insert_holders hkey hnew h⟩

/-- **Names joined with commas are authored as the list of them.** Take names that are not empty,
have no comma and no blanks around them, and texts that hold one of them each, in order, between
blanks, with any number of blank texts in between. Both the list of these texts and the one text
that joins them with commas give just these names, as placeholders and as holders. And every text
gives such names, which it holds in this order between its commas; joined with commas, they give the
same names again. -/
theorem names_joined_as_listed :
    (∀ (l : List String) (fields : List (List Char)), (∀ name ∈ l, IsListed name) → Gives fields l →
      AuthoredFor (.text (String.ofList ([','].intercalate fields))) l ∧
      AuthoredFor (.list (fields.map fun field => .text (String.ofList field))) l) ∧
    ∀ s : String, ∃ l, AuthoredFor (.text s) l ∧ (∀ name ∈ l, IsListed name) ∧
      Gives (Text.splitOn ',' s.toList) l ∧ AuthoredFor (.text (",".intercalate l)) l := by
  constructor
  · intro l fields hlisted hgives
    have hclean : ∀ name ∈ l, IsClean name := fun name hname => (hlisted name hname).1
    have hfields : cleanNames fields = l := cleanNames_eq_iff.2 ⟨hgives, hclean⟩
    refine ⟨authoredFor_of_names (names_joined hgives hlisted), authoredFor_of_names ?_⟩
    rw [names_list, hfields]
  · intro s
    let l := cleanNames (Text.splitOn ',' s.toList)
    have hlisted : ∀ name ∈ l, IsListed name := fun name => isListed_of_mem_names
    have hjoined : String.ofList ([','].intercalate (l.map String.toList)) = ",".intercalate l := by
      rw [← String.toList_inj, String.toList_ofList, String.toList_intercalate]
      rfl
    refine ⟨l, authoredFor_of_names rfl, hlisted, gives_cleanNames _, authoredFor_of_names ?_⟩
    rw [← hjoined]
    exact names_joined (gives_self l) hlisted

/-- A gender and a name, with a blank piece between the commas and one at the end. -/
theorem names_joined_as_listed_salutation :
    let fields := [" gender".toList, "".toList, "name\t ".toList, " ".toList]
    AuthoredFor (.text " gender,,name\t , ") ["gender", "name"] ∧
      AuthoredFor (.list (fields.map fun field => .text (String.ofList field)))
        ["gender", "name"] := by
  intro fields
  have hlisted : ∀ name ∈ ["gender", "name"], IsListed name := by
    simp only [List.forall_mem_cons]
    exact ⟨⟨⟨by decide, by decide⟩, by decide⟩, ⟨⟨by decide, by decide⟩, by decide⟩, nofun⟩
  have hfields : fields = [[' '] ++ "gender".toList ++ [], [], [] ++ "name".toList ++ ['\t', ' '],
      [' ']] := by decide
  have hgives : Gives fields ["gender", "name"] := by
    rw [hfields]
    have hspace : Text.AllBlank [' '] := by
      intro c hc
      rw [List.mem_singleton.1 hc]
      decide
    have htab : Text.AllBlank ['\t', ' '] := List.forall_mem_cons.2 ⟨by decide, hspace⟩
    exact .name hspace nofun (.blank nofun (.name nofun htab (.blank hspace .nil)))
  obtain ⟨hjoined, hlist⟩ := names_joined_as_listed.1 _ _ hlisted hgives
  have htext : String.ofList ([','].intercalate fields) = " gender,,name\t , " := by decide
  exact ⟨htext ▸ hjoined, hlist⟩

end Phrasebook.Node
