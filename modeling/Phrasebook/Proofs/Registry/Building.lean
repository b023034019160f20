import Phrasebook.OrderedMap.Lemmas
import Phrasebook.Proofs.Condition.Scanning
import Phrasebook.Proofs.Condition.Viable
import Phrasebook.Registry

/-! Building registries. All conditions of a blueprint are read in one row (`Blueprint.conditions`).
A malformed one is left out with a warning and stops nothing; an oversized number in one stops the
whole build. So the registry and its log are given outright for every blueprint without such a
number, and no other blueprint has a registry (`build_unless_oversized`). -/

namespace Phrasebook

/-! ### Rules -/

namespace Condition

/-- A malformed source is named in what is wrong with it. -/
theorem source_of_parse {source : String} {x : SyntaxError}
    (h : parse source = .error (.malformed x)) : x.source = source := by
  unfold parse at h
  cases htokens : tokenize source with
  | error u =>
      rw [htokens] at h
      cases h
      unfold tokenize at htokens
      cases hread : tokens source with
      | ok ts =>
          rw [hread] at htokens
          cases htokens
      | error unreadable =>
          rw [hread] at htokens
          cases htokens
          rfl
  | ok ts =>
      rw [htokens] at h
      cases hparse : parseTokens ts source.length with
      | ok e =>
          simp only [hparse] at h
          cases h
      | error refused =>
          obtain ⟨refusal, position⟩ := refused
          cases refusal with
          | reason r =>
              simp only [hparse] at h
              cases h
              rfl
          | tooManyDigits count =>
              simp only [hparse] at h
              cases h

namespace Rule

/-- The rule of a pair whose source is a condition. -/
def ofPair? (pair : String × String) : Option Rule :=
  match parse pair.1 with
  | .ok e => some ⟨pair.1, pair.2, e⟩
  | .error _ => none

/-- The warning about a pair whose source is malformed. -/
def warning? (entry : String) (pair : String × String) : Option LogLine :=
  match parse pair.1 with
  | .error (.malformed x) => some (dropped entry x)
  | _ => none

/-- The digits of the oversized number for which a pair cannot be read. -/
def oversized? (pair : String × String) : Option Nat :=
  match parse pair.1 with
  | .error (.tooManyDigits count) => some count
  | _ => none

theorem oversized?_eq_some_iff {pair : String × String} {count : Nat} :
    oversized? pair = some count ↔ Oversized pair.1 count := by
  rw [← parse_eq_tooManyDigits_iff, oversized?]
  split
  · next n hparse => simp [hparse]
  · next hother =>
      constructor
      · exact nofun
      · exact fun h => absurd h (hother count)

theorem oversized?_eq_none_iff {pair : String × String} :
    oversized? pair = none ↔ ∀ count, ¬ Oversized pair.1 count := by
  simp only [Option.eq_none_iff_forall_ne_some, ne_eq, oversized?_eq_some_iff]

/-- A pair that can be read gives a rule if its source is a condition, and else a warning. -/
theorem rule_or_warning (entry : String) {pair : String × String}
    (h : ∀ count, ¬ Oversized pair.1 count) :
    (∃ e, Reads pair.1 e ∧ ofPair? pair = some ⟨pair.1, pair.2, e⟩ ∧ warning? entry pair = none) ∨
      ((∀ e, ¬ Reads pair.1 e) ∧ ofPair? pair = none ∧
        ∃ x, x.source = pair.1 ∧ warning? entry pair = some (dropped entry x)) := by
  simp only [← parse_eq_ok_iff_reads, ← parse_eq_tooManyDigits_iff] at h ⊢
  unfold ofPair? warning?
  cases hparse : parse pair.1 with
  | ok e => exact .inl ⟨e, rfl, rfl, rfl⟩
  | error x =>
      cases x with
      | malformed x => exact .inr ⟨nofun, rfl, x, source_of_parse hparse, rfl⟩
      | tooManyDigits count => exact absurd hparse (h count)

/-- What some pairs are read as; the first oversized number ends the reading. -/
theorem result_readAll (entry : String) (pairs : List (String × String)) :
    (readAll entry pairs).1 =
      match pairs.findSome? oversized? with
      | some count => .error count
      | none => .ok (pairs.filterMap ofPair?) := by
  induction pairs with
  | nil => rfl
  | cons pair rest ih =>
      obtain ⟨source, template⟩ := pair
      rw [readAll, List.findSome?_cons]
      cases hparse : parse source with
      | ok e =>
          have hpair : oversized? (source, template) = none := by simp only [oversized?, hparse]
          have hrule : ofPair? (source, template) = some ⟨source, template, e⟩ := by
            simp only [ofPair?, hparse]
          simp only [ih, hpair, List.filterMap_cons_some hrule]
          cases rest.findSome? oversized? <;> rfl
      | error x =>
          cases x with
          | malformed x =>
              have hpair : oversized? (source, template) = none := by simp only [oversized?, hparse]
              have hrule : ofPair? (source, template) = none := by simp only [ofPair?, hparse]
              simp only [ih, hpair, List.filterMap_cons_none hrule]
          | tooManyDigits count =>
              have hpair : oversized? (source, template) = some count := by
                simp only [oversized?, hparse]
              simp only [hpair]

/-- What is logged about pairs that can all be read. -/
theorem log_readAll (entry : String) {pairs : List (String × String)}
    (h : pairs.findSome? oversized? = none) :
    (readAll entry pairs).2 = pairs.filterMap (warning? entry) := by
  induction pairs with
  | nil => rfl
  | cons pair rest ih =>
      obtain ⟨source, template⟩ := pair
      rw [List.findSome?_eq_none_iff, List.forall_mem_cons] at h
      have hrest := ih (List.findSome?_eq_none_iff.2 h.2)
      rw [readAll]
      cases hparse : parse source with
      | ok e =>
          have hwarning : warning? entry (source, template) = none := by
            simp only [warning?, hparse]
          simp only [hrest, List.filterMap_cons_none hwarning]
      | error x =>
          cases x with
          | malformed x =>
              have hwarning : warning? entry (source, template) = some (dropped entry x) := by
                simp only [warning?, hparse]
              simp only [hrest, List.filterMap_cons_some hwarning]
          | tooManyDigits count =>
              have hpair : oversized? (source, template) = some count := by
                simp only [oversized?, hparse]
              exact absurd (h.1.symm.trans hpair) nofun

end Rule

end Condition

/-! ### Definitions -/

open Condition (Oversized Reads)
open Condition.Rule (ofPair? warning? oversized? oversized?_eq_none_iff oversized?_eq_some_iff
  result_readAll log_readAll)

namespace Blueprint

namespace Definition

/-- The conditions that are read for a definition: those of a conditional node. -/
def conditions : Definition → List (String × String)
  | constant _ => []
  | phrase n => if n.kind = .conditional then n.conditions.entries else []

/-- The entry of a key and a definition whose conditions were read as some rules. -/
def entryWith (key : String) (rules : List Condition.Rule) : Definition → Entry
  | constant v => .constant v
  | phrase n => .phrase ⟨key, n, rules⟩

/-- The entry of a key and a definition, with the rules of those of its conditions that are
well-formed. -/
def entry (key : String) (d : Definition) : Entry :=
  d.entryWith key (d.conditions.filterMap ofPair?)

end Definition

/-- A key occurs in a group of constants or of nodes. -/
def Defines (b : Blueprint) (key : String) : Prop :=
  (∃ group ∈ b.static.values, group.contains key = true) ∨
    ∃ group ∈ b.dynamic.values, group.contains key = true

theorem mem_keys_flatten_iff {α : Type} {groups : OrderedMap (OrderedMap α)} {key : String} :
    key ∈ (flatten groups).map Prod.fst ↔ ∃ group ∈ groups.values, group.contains key = true := by
  simp only [flatten, List.map_flatMap, List.mem_flatMap, OrderedMap.contains_iff, OrderedMap.keys]

theorem mem_keys_definitions_iff {b : Blueprint} {key : String} :
    key ∈ b.definitions.map Prod.fst ↔ b.Defines key := by
  rw [definitions, List.map_append, List.map_map, List.map_map, List.mem_append]
  exact or_congr mem_keys_flatten_iff mem_keys_flatten_iff

/-- The definition of a key that counts: the last one. -/
def definition? (b : Blueprint) (key : String) : Option Definition :=
  OrderedMap.lookup key b.definitions.reverse

theorem definition?_eq_none_iff {b : Blueprint} {key : String} :
    b.definition? key = none ↔ ¬ b.Defines key := by
  rw [definition?, OrderedMap.lookup_eq_none_iff, List.map_reverse, List.mem_reverse,
    mem_keys_definitions_iff]

/-- The entries of the definitions of a blueprint, in order, repeated keys included. -/
def entries (b : Blueprint) : List (String × Entry) :=
  b.definitions.map fun d => (d.1, d.2.entry d.1)

/-- All conditions that are read for a blueprint, in order. -/
def conditions (b : Blueprint) : List (String × String) :=
  b.definitions.flatMap (·.2.conditions)

/-- No condition of a blueprint has an oversized number. -/
def Buildable (b : Blueprint) : Prop :=
  ∀ pair ∈ b.conditions, ∀ count, ¬ Oversized pair.1 count

/-- The warnings about the malformed conditions of a blueprint, in order. -/
def warnings (b : Blueprint) : Log :=
  b.definitions.flatMap fun d => d.2.conditions.filterMap (warning? d.1)

theorem findSome?_oversized_eq_none_iff {b : Blueprint} :
    b.conditions.findSome? oversized? = none ↔ b.Buildable := by
  simp only [List.findSome?_eq_none_iff, oversized?_eq_none_iff, Buildable]

end Blueprint

namespace Registry

/-- The entry of a definition and what is logged for it, by the conditions that are read. -/
theorem entryOf_eq (key : String) (d : Blueprint.Definition) :
    entryOf key d = ((Condition.Rule.readAll key d.conditions).1.map (d.entryWith key ·),
      (Condition.Rule.readAll key d.conditions).2) := by
  cases d with
  | constant v => rfl
  | phrase n =>
      unfold entryOf phraseOf Blueprint.Definition.conditions
      by_cases hkind : n.kind = .conditional
      · simp only [hkind, if_true]
        cases (Condition.Rule.readAll key n.conditions.entries).1 <;> rfl
      · cases hother : n.kind with
        | conditional => exact absurd hother hkind
        | _ =>
            simp only [hother, reduceCtorEq, if_false, Condition.Rule.readAll]
            rfl

theorem result_entriesOf (definitions : List (String × Blueprint.Definition)) :
    (entriesOf definitions).1 =
      match (definitions.flatMap (·.2.conditions)).findSome? oversized? with
      | some count => .error count
      | none => .ok (definitions.map fun d => (d.1, d.2.entry d.1)) := by
  induction definitions with
  | nil => rfl
  | cons d rest ih =>
      obtain ⟨key, d⟩ := d
      have hentry := congrArg Prod.fst (entryOf_eq key d)
      rw [result_readAll] at hentry
      rw [entriesOf, List.flatMap_cons, List.findSome?_append]
      rcases hread : entryOf key d with ⟨result, log⟩
      rw [hread] at hentry
      cases hpairs : d.conditions.findSome? oversized? with
      | some count =>
          simp only [hpairs] at hentry
          cases hentry
          rfl
      | none =>
          simp only [hpairs] at hentry
          cases hentry
          simp only [ih, Option.none_or]
          cases (rest.flatMap (·.2.conditions)).findSome? oversized? <;> rfl

/-- What is logged about the conditions of definitions that can all be read. -/
theorem log_entriesOf {definitions : List (String × Blueprint.Definition)}
    (h : (definitions.flatMap (·.2.conditions)).findSome? oversized? = none) :
    (entriesOf definitions).2 =
      definitions.flatMap fun d => d.2.conditions.filterMap (warning? d.1) := by
  induction definitions with
  | nil => rfl
  | cons d rest ih =>
      obtain ⟨key, d⟩ := d
      rw [List.flatMap_cons, List.findSome?_append, Option.or_eq_none_iff] at h
      obtain ⟨hpairs, hrest⟩ := h
      have hentry := entryOf_eq key d
      have hresult := result_readAll key d.conditions
      rw [hpairs] at hresult
      rw [log_readAll key hpairs, hresult] at hentry
      rw [entriesOf, hentry]
      simp only [Except.map, ih hrest, List.flatMap_cons]

/-- The registry of a blueprint whose conditions can all be read. -/
def ofBlueprint (b : Blueprint) (language : Option String) : Registry :=
  ⟨language, .ofList b.entries⟩

theorem ofBlueprint_eq (b : Blueprint) (language : Option String) :
    ofBlueprint b language = ⟨language, (OrderedMap.tally b.entries).map⟩ := by
  rw [ofBlueprint, OrderedMap.map_tally]

theorem get?_ofBlueprint (b : Blueprint) (language : Option String) (key : String) :
    (ofBlueprint b language).get? key = (b.definition? key).map (·.entry key) := by
  rw [get?, ofBlueprint, OrderedMap.ofList, OrderedMap.get?_insertAll, OrderedMap.get?_empty,
    Option.or_none, Blueprint.entries, ← List.map_reverse,
    OrderedMap.lookup_map fun key d => Blueprint.Definition.entry key d, Blueprint.definition?]

theorem get?_ofBlueprint_eq_none_iff {b : Blueprint} {language : Option String} {key : String} :
    (ofBlueprint b language).get? key = none ↔ ¬ b.Defines key := by
  rw [get?_ofBlueprint, Option.map_eq_none_iff, Blueprint.definition?_eq_none_iff]

/-- Every phrase of a registry goes by the key under which it stands. -/
def Keyed (r : Registry) : Prop :=
  ∀ key p, r.get? key = some (.phrase p) → p.key = key

theorem keyed_empty : empty.Keyed := by
  intro key p h
  cases h

/-- **Overwritten or not, a phrase goes by the key under which it stands.** -/
theorem keyed_ofBlueprint (b : Blueprint) (language : Option String) :
    (ofBlueprint b language).Keyed := by
  intro key p h
  rw [get?_ofBlueprint, Option.map_eq_some_iff] at h
  obtain ⟨d, -, hentry⟩ := h
  cases d with
  | constant v => cases hentry
  | phrase n =>
      cases hentry
      rfl

/-- The result of a build: the registry, or the digits of the first oversized number. -/
theorem result_build (b : Blueprint) (language : Option String) :
    (build b language).1 =
      match b.conditions.findSome? oversized? with
      | some count => .error count
      | none => .ok (ofBlueprint b language) := by
  have hentries := result_entriesOf b.definitions
  rw [build, Blueprint.conditions]
  rcases hread : entriesOf b.definitions with ⟨result, log⟩
  rw [hread] at hentries
  cases hpairs : (b.definitions.flatMap (·.2.conditions)).findSome? oversized? with
  | some count =>
      simp only [hpairs] at hentries
      cases hentries
      rfl
  | none =>
      simp only [hpairs] at hentries
      cases hentries
      rw [ofBlueprint_eq]
      rfl

theorem build_eq_ok_iff {b : Blueprint} {language : Option String} {r : Registry} :
    (build b language).1 = .ok r ↔ b.Buildable ∧ r = ofBlueprint b language := by
  rw [result_build, ← Blueprint.findSome?_oversized_eq_none_iff]
  cases b.conditions.findSome? oversized? with
  | some count => simp
  | none => simp [eq_comm]

theorem keyed_of_build {b : Blueprint} {language : Option String} {r : Registry}
    (h : (build b language).1 = .ok r) : r.Keyed := by
  rw [(build_eq_ok_iff.1 h).2]
  exact keyed_ofBlueprint b language

theorem build_eq_error_iff {b : Blueprint} {language : Option String} {count : Nat} :
    (build b language).1 = .error count ↔ ∃ front pair back,
      b.conditions = front ++ pair :: back ∧ Oversized pair.1 count ∧
        ∀ earlier ∈ front, ∀ n, ¬ Oversized earlier.1 n := by
  have hfirst : (build b language).1 = .error count ↔
      b.conditions.findSome? oversized? = some count := by
    rw [result_build]
    cases b.conditions.findSome? oversized? <;> simp
  simp only [hfirst, List.findSome?_eq_some_iff, oversized?_eq_some_iff, oversized?_eq_none_iff]

/-- What a build logs: a warning for every malformed condition, and a line about the registry. -/
theorem log_build {b : Blueprint} (h : b.Buildable) (language : Option String) :
    (build b language).2 =
      b.warnings ++ [(ofBlueprint b language).builtLine (OrderedMap.tally b.entries).taken] := by
  have hpairs : (b.definitions.flatMap (·.2.conditions)).findSome? oversized? = none :=
    Blueprint.findSome?_oversized_eq_none_iff.2 h
  have hresult := result_entriesOf b.definitions
  rw [hpairs] at hresult
  have hlog := log_entriesOf hpairs
  rw [build]
  rcases hread : entriesOf b.definitions with ⟨result, log⟩
  rw [hread] at hresult hlog
  cases hresult
  cases hlog
  rw [ofBlueprint_eq]
  rfl

/-- **Malformed conditions never stop a build, oversized numbers do.** Without an oversized number
a build gives the registry whose entries have a rule for every condition that is well-formed, in
order, and it logs one warning for each of the others. Else the build ends at the first oversized
number. -/
theorem build_unless_oversized (b : Blueprint) (language : Option String) :
    ((∃ r, (build b language).1 = .ok r) ↔ b.Buildable) ∧
    (∀ count, (build b language).1 = .error count ↔ ∃ front pair back,
      b.conditions = front ++ pair :: back ∧ Oversized pair.1 count ∧
        ∀ earlier ∈ front, ∀ n, ¬ Oversized earlier.1 n) ∧
    (b.Buildable → build b language = (.ok (ofBlueprint b language),
      b.warnings ++ [(ofBlueprint b language).builtLine (OrderedMap.tally b.entries).taken])) ∧
    ∀ d ∈ b.definitions, ∀ pair ∈ d.2.conditions, (∀ count, ¬ Oversized pair.1 count) →
      (∃ e, Reads pair.1 e ∧ ofPair? pair = some ⟨pair.1, pair.2, e⟩ ∧ warning? d.1 pair = none) ∨
      ((∀ e, ¬ Reads pair.1 e) ∧ ofPair? pair = none ∧
        ∃ x, x.source = pair.1 ∧ warning? d.1 pair = some (Condition.Rule.dropped d.1 x)) := by
  refine ⟨?_, fun count => build_eq_error_iff, fun h => ?_, fun d _ pair _ h =>
    Condition.Rule.rule_or_warning d.1 h⟩
  · constructor
    · rintro ⟨r, hr⟩
      exact (build_eq_ok_iff.1 hr).1
    · exact fun h => ⟨_, build_eq_ok_iff.2 ⟨h, rfl⟩⟩
  · exact Prod.ext (build_eq_ok_iff.2 ⟨h, rfl⟩) (log_build h language)

/-- A condition that is a field. -/
theorem parse_vip : Condition.parse "{vip}" = .ok (.field "vip") := by
  have hts : Condition.tokenize "{vip}" = .ok [⟨.field "vip".toList, 0⟩] := by decide +kernel
  rw [Condition.parse, hts]
  rfl

/-- A condition that was left half-written. -/
theorem parse_age :
    Condition.parse "{age} >" = .error (.malformed ⟨"{age} >", .endsTooEarly, 7⟩) := by
  have hts : Condition.tokenize "{age} >" =
      .ok [⟨.field "age".toList, 0⟩, ⟨.operator (.compare .greater), 6⟩] := by decide +kernel
  rw [Condition.parse, hts]
  rfl

/-- A greeting with some conditions. -/
def greetingIf (conditions : List (String × String)) : Blueprint :=
  ⟨.empty, .ofList [("messages", .ofList [("greeting",
    ⟨"Hello", [], [], .empty, .ofList conditions, none⟩)])]⟩

/-- A condition that was left half-written costs its own rule and no other. -/
theorem build_unless_oversized_greeting :
    let b := greetingIf [("{vip}", "Hi"), ("{age} >", "Dear")]
    let n : Node := ⟨"Hello", [], [], .empty, .ofList [("{vip}", "Hi"), ("{age} >", "Dear")], none⟩
    let r : Registry :=
      ⟨none, .ofList [("greeting", .phrase ⟨"greeting", n, [⟨"{vip}", "Hi", .field "vip"⟩]⟩)]⟩
    b.Buildable ∧ build b none = (.ok r,
      [Condition.Rule.dropped "greeting" ⟨"{age} >", .endsTooEarly, 7⟩, r.builtLine 0]) := by
  intro b n r
  have hconditions : (Blueprint.Definition.phrase n).conditions =
      [("{vip}", "Hi"), ("{age} >", "Dear")] := by decide
  have hbuildable : b.Buildable := by
    intro pair hpair count
    have hpair : pair ∈ [("{vip}", "Hi"), ("{age} >", "Dear")] := hconditions ▸ hpair
    rw [List.mem_cons, List.mem_singleton] at hpair
    rw [← Condition.parse_eq_tooManyDigits_iff]
    rcases hpair with rfl | rfl
    · rw [parse_vip]
      intro hoversized
      cases hoversized
    · rw [parse_age]
      intro hoversized
      cases hoversized
  have hentry : (Blueprint.Definition.phrase n).entry "greeting" =
      .phrase ⟨"greeting", n, [⟨"{vip}", "Hi", .field "vip"⟩]⟩ := by
    rw [Blueprint.Definition.entry, hconditions]
    simp only [List.filterMap_cons, ofPair?, parse_vip, parse_age, List.filterMap_nil,
      Blueprint.Definition.entryWith]
  have hwarnings : b.warnings =
      [Condition.Rule.dropped "greeting" ⟨"{age} >", .endsTooEarly, 7⟩] := by
    have hdefinitions : b.definitions = [("greeting", .phrase n)] := rfl
    rw [Blueprint.warnings, hdefinitions, List.flatMap_singleton, hconditions]
    simp only [List.filterMap_cons, warning?, parse_vip, parse_age, List.filterMap_nil]
  have hregistry : ofBlueprint b none = r := congrArg (fun entry =>
    (⟨none, .ofList [("greeting", entry)]⟩ : Registry)) hentry
  refine ⟨hbuildable, ((build_unless_oversized b none).2.2.1 hbuildable).trans ?_⟩
  rw [hwarnings, hregistry]
  rfl

end Registry

/-! ### An oversized number -/

namespace Condition

/-- Digits alone, if there are too many of them. -/
theorem oversized_of_digits {digits : List Char} (hdigits : ∀ c ∈ digits, c.isDigit = true)
    (hlong : Reading.maxDigits < digits.length) :
    Oversized (String.ofList digits) digits.length := by
  have hne : digits ≠ [] := by
    rintro rfl
    cases hlong
  have hlexeme := lexeme?_of_digits hne hdigits delimited_nil
  cases digits with
  | nil => exact absurd rfl hne
  | cons c cs =>
      have hblank : ¬ Text.isBlank c = true := by
        rw [Text.isBlank_of_isDigit (Text.isDigit_of_ascii (hdigits c List.mem_cons_self))]
        exact Bool.false_ne_true
      rw [List.append_nil] at hlexeme
      have htokens : tokens (String.ofList (c :: cs)) =
          .ok [⟨.number false (c :: cs) none, 0⟩] := by
        rw [tokens, String.toList_ofList, tokensFrom_of_lexeme? hblank hlexeme, tokensFrom]
        rfl
      exact ⟨[], false, c :: cs, 0, [], htokens, hlong, rfl, viable_iff_readMany.2 ⟨_, rfl⟩⟩

/-- A whole number with one digit too many. -/
def oversized : String :=
  String.ofList (List.replicate (Reading.maxDigits + 1) '1')

theorem oversized_oversized : Oversized oversized (Reading.maxDigits + 1) := by
  have hdigits : ∀ n, ∀ c ∈ List.replicate n '1', c.isDigit = true := by
    intro n c hc
    rw [List.eq_of_mem_replicate hc]
    decide
  have hlong := oversized_of_digits (hdigits (Reading.maxDigits + 1))
  rw [List.length_replicate] at hlong
  exact hlong (Nat.lt_succ_self _)

end Condition

/-- Not every blueprint has a registry. -/
theorem Registry.not_build_always : ¬ ∀ (b : Blueprint) (language : Option String),
    ∃ r, (Registry.build b language).1 = .ok r := by
  intro h
  obtain ⟨r, hr⟩ := h (Registry.greetingIf [(Condition.oversized, "Hi")]) none
  exact (Registry.build_eq_ok_iff.1 hr).1 (Condition.oversized, "Hi") List.mem_cons_self _
    Condition.oversized_oversized

end Phrasebook
