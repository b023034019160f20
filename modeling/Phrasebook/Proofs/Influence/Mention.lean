import Mathlib.Data.List.Basic
import Mathlib.Data.List.Induction
import Phrasebook.OrderedMap.Lemmas
import Phrasebook.Proofs.Condition.Spelling
import Phrasebook.Resolve

/-! Names that a registry mentions: the tokens of its templates, the fields of its conditions, the
discriminants of its variants and its holders. Rendering a phrase looks at no other name, neither in
the bag nor among the defaults, and of the values of these names it does not look at the spelling of
numbers (`Scope.render_alike`). In particular the texts of parameters are never searched for
names. -/

namespace Phrasebook

/-! ### Templates -/

namespace Template

theorem distinct_concat (names : List String) (name : String) : distinct (names ++ [name]) =
    if name ∈ distinct names then distinct names else distinct names ++ [name] := by
  rw [distinct, List.foldl_append]
  rfl

theorem mem_distinct {names : List String} {name : String} :
    name ∈ distinct names ↔ name ∈ names := by
  induction names using List.reverseRecOn with
  | nil => exact Iff.rfl
  | append_singleton names n ih =>
      rw [distinct_concat, List.mem_append, List.mem_singleton, ← ih]
      split
      · next hn => exact ⟨.inl, fun h => h.elim id fun heq => heq ▸ hn⟩
      · rw [List.mem_append, List.mem_singleton]

theorem mem_tokenNames {template name : String} :
    name ∈ tokenNames template ↔
      ∃ body, Piece.token body ∈ pieces template.toList ∧ tokenName body = name := by
  rw [tokenNames, mem_distinct, List.mem_filterMap]
  constructor
  · rintro ⟨piece, hpiece, hname⟩
    cases piece with
    | char c => cases hname
    | token body => exact ⟨body, hpiece, Option.some.inj hname⟩
  · rintro ⟨body, hbody, rfl⟩
    exact ⟨.token body, hbody, rfl⟩

/-- The text that a name has in a phrase, if it has a value. -/
def textOf (bag defaults : Bag) (name : String) : Option String :=
  (valueOf bag defaults name).map Value.shown

theorem fill_token (bag defaults : Bag) (body : List Char) :
    (Piece.token body).fill bag defaults =
      ((textOf bag defaults (tokenName body)).map String.toList).getD (Piece.token body).source := by
  rw [Piece.fill, textOf]
  cases valueOf bag defaults (tokenName body) <;> rfl

/-- Filling a template looks up the texts of its tokens' names and no other. -/
theorem fill_congr {template : String} {bag bag' defaults defaults' : Bag}
    (h : ∀ name ∈ tokenNames template, textOf bag defaults name = textOf bag' defaults' name) :
    fill template bag defaults = fill template bag' defaults' := by
  rw [fill, fill]
  refine congrArg String.ofList (List.flatMap_congr fun piece hpiece => ?_)
  cases piece with
  | char c => rfl
  | token body => rw [fill_token, fill_token, h _ (mem_tokenNames.2 ⟨body, hpiece, rfl⟩)]

end Template

/-! ### Conditions -/

namespace Bag

/-- The value of a name in a bag; a name that is not there has no value. -/
def read (bag : Bag) (name : String) : Value :=
  (bag.get? name).getD .null

/-- Two bags give a name the same value, but for the spelling of a number. -/
def AlikeAt (bag bag' : Bag) (name : String) : Prop :=
  (read bag name).canonical = (read bag' name).canonical

end Bag

namespace Condition

namespace Expr

mutual

/-- The fields that a condition asks for. -/
def fields : Expr → List String
  | .literal _ => []
  | .field name => [name]
  | .negation e => e.fields
  | .chain _ es => fieldsOfAll es
  | .comparison _ left right => left.fields ++ right.fields

def fieldsOfAll : List Expr → List String
  | [] => []
  | e :: es => e.fields ++ fieldsOfAll es

end

/-- Two results of a condition are the same but for the spelling of a number. -/
def SameResult (r r' : Except NumberError Value) : Prop :=
  (∃ x, r = .error x ∧ r' = .error x) ∨
    ∃ v w, r = .ok v ∧ r' = .ok w ∧ v.canonical = w.canonical

mutual

/-- **The value of a condition depends on its fields only**, and not on how their numbers are
spelled. -/
theorem sameResult_eval {bag bag' : Bag} : ∀ {e : Expr},
    (∀ name ∈ e.fields, Bag.AlikeAt bag bag' name) → SameResult (e.eval bag) (e.eval bag')
  | .literal v, _ => .inr ⟨v, v, rfl, rfl, rfl⟩
  | .field name, h => .inr ⟨_, _, rfl, rfl, h name (List.mem_singleton_self name)⟩
  | .negation e, h => by
      rw [eval, eval]
      rcases sameResult_eval (e := e) h with ⟨x, hx, hx'⟩ | ⟨v, w, hv, hw, hsame⟩
      · rw [hx, hx']
        exact .inl ⟨x, rfl, rfl⟩
      · rw [hv, hw]
        refine .inr ⟨_, _, rfl, rfl, ?_⟩
        exact congrArg (fun b => (Value.bool !b).canonical) (Value.holds_congr hsame)
  | .chain op es, h => sameResult_evalChain h
  | .comparison op left right, h => by
      rw [fields] at h
      have hleft := sameResult_eval fun name hname => h name (List.mem_append_left _ hname)
      have hright := sameResult_eval fun name hname => h name (List.mem_append_right _ hname)
      rw [eval, eval]
      rcases hleft with ⟨x, hx, hx'⟩ | ⟨v, w, hv, hw, hsame⟩
      · rw [hx, hx']
        exact .inl ⟨x, rfl, rfl⟩
      · rw [hv, hw]
        rcases hright with ⟨x, hx, hx'⟩ | ⟨v', w', hv', hw', hsame'⟩
        · rw [hx, hx']
          exact .inl ⟨x, rfl, rfl⟩
        · rw [hv', hw']
          simp only [op.compare_congr hsame hsame']
          cases op.compare w w' with
          | error x => exact .inl ⟨x, rfl, rfl⟩
          | ok b => exact .inr ⟨.bool b, .bool b, rfl, rfl, rfl⟩

theorem sameResult_evalChain {bag bag' : Bag} {op : Connective} : ∀ {es : List Expr},
    (∀ name ∈ fieldsOfAll es, Bag.AlikeAt bag bag' name) →
      SameResult (evalChain bag op es) (evalChain bag' op es)
  | [], _ => .inr ⟨.null, .null, rfl, rfl, rfl⟩
  | e :: es, h => by
      rw [fieldsOfAll] at h
      have hfirst := sameResult_eval fun name hname => h name (List.mem_append_left _ hname)
      have hrest : SameResult (evalChain bag op es) (evalChain bag' op es) :=
        sameResult_evalChain fun name hname => h name (List.mem_append_right _ hname)
      rw [evalChain, evalChain]
      rcases hfirst with ⟨x, hx, hx'⟩ | ⟨v, w, hv, hw, hsame⟩
      · rw [hx, hx']
        exact .inl ⟨x, rfl, rfl⟩
      · rw [hv, hw]
        simp only [op.decides_congr hsame]
        by_cases hdecides : (op.decides w || es.isEmpty) = true
        · rw [if_pos hdecides, if_pos hdecides]
          exact .inr ⟨v, w, rfl, rfl, hsame⟩
        · rw [if_neg hdecides, if_neg hdecides]
          exact hrest

end

theorem holds_congr {bag bag' : Bag} {e : Expr}
    (h : ∀ name ∈ e.fields, Bag.AlikeAt bag bag' name) : e.holds bag = e.holds bag' := by
  rw [holds, holds]
  rcases sameResult_eval h with ⟨x, hx, hx'⟩ | ⟨v, w, hv, hw, hsame⟩
  · rw [hx, hx']
  · rw [hv, hw]
    exact congrArg Except.ok (Value.holds_congr hsame)

end Expr

namespace Rule

theorem select_congr {rule : Rule} {bag bag' : Bag}
    (h : ∀ name ∈ rule.expr.fields, Bag.AlikeAt bag bag' name) :
    rule.select bag = rule.select bag' := by
  rw [select, select, Expr.holds_congr h]

/-- Which template some rules select depends on the fields of their conditions only. -/
theorem firstSelected_congr {rules : List Rule} {bag bag' : Bag}
    (h : ∀ rule ∈ rules, ∀ name ∈ rule.expr.fields, Bag.AlikeAt bag bag' name) :
    firstSelected bag rules = firstSelected bag' rules := by
  induction rules with
  | nil => rfl
  | cons rule rest ih =>
      rw [firstSelected, firstSelected, select_congr (h rule List.mem_cons_self),
        ih fun r hr => h r (List.mem_cons_of_mem _ hr)]

theorem template_of_select {rule : Rule} {bag : Bag} {template : String}
    (h : rule.select bag = .ok (some template)) : rule.template = template := by
  rw [select] at h
  split at h
  · cases h
  · cases hholds : rule.expr.holds bag with
    | error e =>
        rw [hholds] at h
        cases h
    | ok b =>
        cases b with
        | false =>
            rw [hholds] at h
            cases h
        | true =>
            rw [hholds] at h
            cases h
            rfl

/-- A template that is selected is that of a rule. -/
theorem exists_of_firstSelected {rules : List Rule} {bag : Bag} {template : String}
    (h : firstSelected bag rules = .ok (some template)) :
    ∃ rule ∈ rules, rule.template = template := by
  induction rules with
  | nil => cases h
  | cons rule rest ih =>
      rw [firstSelected] at h
      split at h
      · cases h
      · next t hselect =>
          cases h
          exact ⟨rule, List.mem_cons_self, template_of_select hselect⟩
      · obtain ⟨r, hr, ht⟩ := ih h
        exact ⟨r, List.mem_cons_of_mem _ hr, ht⟩

end Rule

end Condition

/-! ### Phrases -/

namespace Phrase

/-- The texts that a phrase may be rendered from. -/
def templates (p : Phrase) : List String :=
  p.node.value :: (p.node.variants.values ++ p.node.conditions.values ++ p.rules.map (·.template))

/-- The names that a phrase mentions. -/
def mentioned (p : Phrase) : List String :=
  p.templates.flatMap Template.tokenNames ++ p.rules.flatMap (·.expr.fields) ++
    (if p.node.kind = .variant then p.node.discriminant.toList else []) ++ p.node.holders

variable {p : Phrase} {name : String}

theorem mem_mentioned_of_token {template : String} (htemplate : template ∈ p.templates)
    (hname : name ∈ Template.tokenNames template) : name ∈ p.mentioned := by
  simp only [mentioned, List.mem_append]
  exact .inl (.inl (.inl (List.mem_flatMap.2 ⟨template, htemplate, hname⟩)))

theorem mem_mentioned_of_field {rule : Condition.Rule} (hrule : rule ∈ p.rules)
    (hname : name ∈ rule.expr.fields) : name ∈ p.mentioned := by
  simp only [mentioned, List.mem_append]
  exact .inl (.inl (.inr (List.mem_flatMap.2 ⟨rule, hrule, hname⟩)))

theorem mem_mentioned_of_discriminant (hkind : p.node.kind = .variant)
    (hname : p.node.discriminant = some name) : name ∈ p.mentioned := by
  simp [mentioned, hkind, hname]

theorem mem_mentioned_of_holder (hname : name ∈ p.node.holders) : name ∈ p.mentioned :=
  List.mem_append_right _ hname

end Phrase

namespace Registry

def phrases (r : Registry) : List Phrase :=
  r.entries.values.filterMap fun
    | .phrase p => some p
    | .constant _ => none

/-- The names that the phrases of a registry mention. -/
def mentioned (r : Registry) : List String :=
  r.phrases.flatMap Phrase.mentioned

/-- The names that the phrases of a registry declare as holders. -/
def holders (r : Registry) : List String :=
  r.phrases.flatMap (·.node.holders)

variable {r : Registry} {key : String} {p : Phrase} {name : String}

theorem mem_phrases (h : r.get? key = some (.phrase p)) : p ∈ r.phrases := by
  refine List.mem_filterMap.2 ⟨.phrase p, ?_, rfl⟩
  exact List.mem_map.2 ⟨(key, .phrase p), OrderedMap.mem_of_lookup h, rfl⟩

theorem mem_mentioned (h : r.get? key = some (.phrase p)) (hname : name ∈ p.mentioned) :
    name ∈ r.mentioned :=
  List.mem_flatMap.2 ⟨p, mem_phrases h, hname⟩

theorem mem_holders (h : r.get? key = some (.phrase p)) (hname : name ∈ p.node.holders) :
    name ∈ r.holders :=
  List.mem_flatMap.2 ⟨p, mem_phrases h, hname⟩

theorem mem_mentioned_of_mem_holders (h : name ∈ r.holders) : name ∈ r.mentioned := by
  obtain ⟨p, hp, hname⟩ := List.mem_flatMap.1 h
  exact List.mem_flatMap.2 ⟨p, hp, Phrase.mem_mentioned_of_holder hname⟩

end Registry

/-! ### Rendering -/

namespace Scope

/-- Two bags, each with the defaults of its scope, give a name the same value. -/
structure AlikeAt (scope scope' : Scope) (bag bag' : Bag) (name : String) : Prop where
  get : bag.get? name = bag'.get? name
  placeholder : Template.valueOf bag scope.placeholders name =
    Template.valueOf bag' scope'.placeholders name
  variant : Template.valueOf bag scope.variants name = Template.valueOf bag' scope'.variants name

/-- Two bags, each with the defaults of its scope, read alike at a name: in conditions, as the text
of a token and as that of a discriminant. -/
structure ReadsAlikeAt (scope scope' : Scope) (bag bag' : Bag) (name : String) : Prop where
  field : Bag.AlikeAt bag bag' name
  token : Template.textOf bag scope.placeholders name = Template.textOf bag' scope'.placeholders name
  discriminant : Template.textOf bag scope.variants name = Template.textOf bag' scope'.variants name

variable {scope scope' : Scope} {p : Phrase} {bag bag' : Bag}

theorem AlikeAt.reads {name : String} (h : AlikeAt scope scope' bag bag' name) :
    ReadsAlikeAt scope scope' bag bag' name := by
  refine ⟨?_, congrArg (Option.map Value.shown) h.placeholder,
    congrArg (Option.map Value.shown) h.variant⟩
  rw [Bag.AlikeAt, Bag.read, Bag.read, h.get]

/-- With one scope, bags that agree on a name give it the same value. -/
theorem AlikeAt.of_get {name : String} (h : bag.get? name = bag'.get? name) :
    AlikeAt scope scope bag bag' name := by
  refine ⟨h, ?_, ?_⟩ <;> rw [Template.valueOf, Template.valueOf, h]

theorem variantTemplate_mem (scope : Scope) (p : Phrase) (bag : Bag) :
    scope.variantTemplate p.node bag ∈ p.templates := by
  rw [variantTemplate]
  split
  · exact List.mem_cons_self
  · split
    · exact List.mem_cons_self
    · next v _ =>
        cases hget : p.node.variants.get? v.shown with
        | none => exact List.mem_cons_self
        | some template =>
            refine List.mem_cons_of_mem _ (List.mem_append_left _ (List.mem_append_left _ ?_))
            exact List.mem_map.2 ⟨_, OrderedMap.mem_of_lookup hget, rfl⟩

theorem variantTemplate_eq (scope : Scope) (node : Node) (bag : Bag) :
    scope.variantTemplate node bag =
      ((node.discriminant.bind (Template.textOf bag scope.variants)).bind node.variants.get?).getD
        node.value := by
  rw [variantTemplate]
  cases node.discriminant with
  | none => rfl
  | some name =>
      simp only [Option.bind_some, Template.textOf]
      cases Template.valueOf bag scope.variants name <;> rfl

theorem variantTemplate_congr (hkind : p.node.kind = .variant)
    (h : ∀ name ∈ p.mentioned, ReadsAlikeAt scope scope' bag bag' name) :
    scope.variantTemplate p.node bag = scope'.variantTemplate p.node bag' := by
  rw [variantTemplate_eq, variantTemplate_eq]
  cases hname : p.node.discriminant with
  | none => rfl
  | some name =>
      rw [Option.bind_some, Option.bind_some,
        (h name (Phrase.mem_mentioned_of_discriminant hkind hname)).discriminant]

theorem fill_congr_of_mem {template : String} (htemplate : template ∈ p.templates)
    (h : ∀ name ∈ p.mentioned, ReadsAlikeAt scope scope' bag bag' name) :
    Template.fill template bag scope.placeholders =
      Template.fill template bag' scope'.placeholders :=
  Template.fill_congr fun _ hname => (h _ (Phrase.mem_mentioned_of_token htemplate hname)).token

/-- **Rendering a phrase depends on the names that it mentions only**, and not on how their numbers
are spelled. -/
theorem render_alike (hbare : scope.fillBareVariants = scope'.fillBareVariants)
    (h : ∀ name ∈ p.mentioned, ReadsAlikeAt scope scope' bag bag' name) :
    scope.render p bag = scope'.render p bag' := by
  rw [render, render]
  cases hkind : p.node.kind with
  | variant =>
      simp only
      rw [← hbare, ← variantTemplate_congr hkind h,
        fill_congr_of_mem (variantTemplate_mem scope p bag) h]
  | conditional =>
      simp only
      rw [← Condition.Rule.firstSelected_congr fun rule hrule name hname =>
        (h name (Phrase.mem_mentioned_of_field hrule hname)).field]
      cases hselected : Condition.Rule.firstSelected bag p.rules with
      | error e => rfl
      | ok selected =>
          refine congrArg Except.ok (fill_congr_of_mem ?_ h)
          cases selected with
          | none => exact List.mem_cons_self
          | some template =>
              obtain ⟨rule, hrule, ht⟩ := Condition.Rule.exists_of_firstSelected hselected
              exact List.mem_cons_of_mem _
                (List.mem_append_right _ (List.mem_map.2 ⟨rule, hrule, ht⟩))
  | static => exact congrArg Except.ok (fill_congr_of_mem List.mem_cons_self h)
  | plain => exact congrArg Except.ok (fill_congr_of_mem List.mem_cons_self h)

theorem render_congr (hbare : scope.fillBareVariants = scope'.fillBareVariants)
    (h : ∀ name ∈ p.mentioned, AlikeAt scope scope' bag bag' name) :
    scope.render p bag = scope'.render p bag' :=
  render_alike hbare fun name hname => (h name hname).reads

end Scope

end Phrasebook
