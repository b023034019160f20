import Phrasebook.Proofs.Blueprint.Fields
import Phrasebook.Proofs.Holder.Repetition
import Phrasebook.Proofs.Number.Numeral

/-! The variant that a query selects. The keys of an author's map of variants become texts when the
node is read, each the way it is written (`Value.plain`); the value of the discriminant becomes a
text when the entry is resolved, the way it is shown in a phrase (`Value.shown`). The two texts of a
value are the same unless it is a truth value or a floating-point number that is an integer
(`Value.plain_eq_shown_iff`). So a query with a key of the map selects the template of that key, but
with one of those values the template of another key, or the base text
(`Engine.resolve_variant`). -/

namespace Phrasebook

namespace Value

/-- A value that is shown in a phrase the way it is written: no truth value, and no floating-point
number that is an integer. -/
def AsWritten : Value → Prop
  | .bool _ => False
  | .real x => x.toInt? = none
  | _ => True

theorem plain_eq_shown_iff {v : Value} : v.plain = v.shown ↔ v.AsWritten := by
  cases v with
  | bool b =>
      refine iff_of_false ?_ id
      cases b <;> decide
  | real x =>
      rw [AsWritten, shown]
      cases x.toInt? with
      | none => exact iff_of_true rfl rfl
      | some n => exact iff_of_false (x.text_ne_toString n) (Option.some_ne_none n)
  | _ => exact iff_of_true rfl trivial

end Value

/-- A list without a repeated name is the map that it writes. -/
theorem OrderedMap.get?_ofList {α : Type} {l : List (String × α)} (hn : (l.map Prod.fst).Nodup)
    (key : String) : (ofList l).get? key = lookup key l := by
  have hentries : (ofList l).entries = l :=
    entries_insertAll_of_disjoint empty hn fun _ _ => List.not_mem_nil
  rw [get?, hentries]

namespace Node

/-- The variants of a node are those that its map gives. -/
theorem variants_of_ofEntries {data entries : List (Value × Value)} {node : Node}
    (h : ofEntries data = .ok node) (hvariants : field data "variants" = .map entries) :
    node.variants = .ofList (written entries) := by
  obtain ⟨-, -, -, htexts, -, -⟩ := ofEntries_eq_ok_iff.1 h
  rw [hvariants, texts_map] at htexts
  exact (Except.ok.inj htexts).symm

theorem map_fst_written (entries : List (Value × Value)) :
    (written entries).map Prod.fst = entries.map fun e => e.1.plain := by
  rw [written, List.map_map]
  rfl

section

variable {entries : List (Value × Value)} {node : Node}
  (hvariants : node.variants = .ofList (written entries))
  (hdistinct : (entries.map fun e => e.1.plain).Nodup)

include hvariants hdistinct

theorem get?_variants (key : String) :
    node.variants.get? key = OrderedMap.lookup key (written entries) := by
  rw [hvariants, OrderedMap.get?_ofList]
  rwa [map_fst_written]

theorem get?_variants_of_mem {k t : Value} (h : (k, t) ∈ entries) :
    node.variants.get? k.plain = some (entryText t) := by
  rw [get?_variants hvariants hdistinct]
  refine OrderedMap.lookup_of_mem ?_ (List.mem_map.2 ⟨_, h, rfl⟩)
  rwa [map_fst_written]

theorem get?_variants_of_not_mem {key : String} (h : ∀ e ∈ entries, e.1.plain ≠ key) :
    node.variants.get? key = none := by
  rw [get?_variants hvariants hdistinct, OrderedMap.lookup_eq_none_iff, map_fst_written]
  intro hmem
  obtain ⟨e, he, hkey⟩ := List.mem_map.1 hmem
  exact h e he hkey

theorem kind_of_mem {k t : Value} (h : (k, t) ∈ entries) : node.kind = .variant := by
  have hmem : (k.plain, entryText t) ∈ node.variants.entries :=
    OrderedMap.mem_of_lookup (get?_variants_of_mem hvariants hdistinct h)
  have hsome : node.variants.isEmpty = false := by
    rw [OrderedMap.isEmpty, List.isEmpty_eq_false_iff]
    exact List.ne_nil_of_mem hmem
  rw [kind, hsome]
  rfl

end

end Node

/-- A variant phrase with a discriminant in the bag is rendered from the template of the variant
that the discriminant is shown as, else from its base text. -/
theorem Scope.render_of_discriminant (scope : Scope) {p : Phrase} {bag : Bag} {name : String}
    {k : Value} (hkind : p.node.kind = .variant) (hname : p.node.discriminant = some name)
    (hk : k ≠ .null) (hbag : bag.get? name = some k) :
    scope.render p bag = .ok (Template.fill ((p.node.variants.get? k.shown).getD p.node.value) bag
      scope.placeholders) := by
  have hpresent : Template.present (some k) = some k := by
    unfold Template.present
    split
    next h => exact absurd (Option.some.inj h) hk
    next => rfl
  have hvalue : Template.valueOf bag scope.variants name = some k := by
    rw [Template.valueOf, hbag, hpresent]
    rfl
  have hsome : p.node.placeholders.isEmpty = false := by
    rw [List.isEmpty_eq_false_iff]
    intro hnil
    rw [Node.discriminant, hnil] at hname
    cases hname
  rw [render, hkind]
  simp only [variantTemplate, hname, hvalue, hsome, Bool.not_false, Bool.true_or, if_true]

namespace Engine

variable (e : Engine) (settings : Settings) {key name : String} {bag : Bag} {q : Phrase}
  {data entries : List (Value × Value)} {k t : Value}

/-- A query for an entry without holders, whose discriminant is in the bag, fills the template of
the variant that the discriminant is shown as, else the base text. -/
theorem resolve_of_discriminant (hkind : q.node.kind = .variant)
    (hname : q.node.discriminant = some name) (hholders : q.node.holders = [])
    (hget : e.registry.get? key = some (.phrase q)) (hk : k ≠ .null)
    (hbag : bag.get? name = some k) :
    (e.resolve settings key bag).result =
      .ok (.text (Template.fill ((q.node.variants.get? k.shown).getD q.node.value) bag
        e.stores.placeholders.inUse.values)) := by
  have hsettled : ∀ holder ∈ q.node.holders, e.Settled settings key bag holder := by
    rw [hholders]
    exact nofun
  exact (resolve_of_settled hget hsettled
    (Scope.render_of_discriminant _ hkind hname hk hbag)).1

/-- **The variant that a key of the author's map selects.** A key that is shown as it is written
selects its own template. A truth value, or a floating-point number that is an integer, selects the
template of the key that is written as this one is shown, which is another key, or the base text if
there is none. -/
theorem resolve_variant (hnode : Node.ofEntries data = .ok q.node)
    (hvariants : Node.field data "variants" = .map entries)
    (hdistinct : (entries.map fun e => e.1.plain).Nodup)
    (hname : q.node.discriminant = some name) (hholders : q.node.holders = [])
    (hget : e.registry.get? key = some (.phrase q)) (hentry : (k, t) ∈ entries) (hk : k ≠ .null)
    (hbag : bag.get? name = some k) :
    let filled (template : String) : Except Error Value :=
      .ok (.text (Template.fill template bag e.stores.placeholders.inUse.values))
    (k.AsWritten → (e.resolve settings key bag).result = filled (Node.entryText t)) ∧
      (¬ k.AsWritten → k.plain ≠ k.shown ∧
        (∀ k' t', (k', t') ∈ entries → k'.plain = k.shown →
          (e.resolve settings key bag).result = filled (Node.entryText t')) ∧
        ((∀ entry ∈ entries, entry.1.plain ≠ k.shown) →
          (e.resolve settings key bag).result = filled q.node.value)) := by
  intro filled
  have hauthored := Node.variants_of_ofEntries hnode hvariants
  have hkind := Node.kind_of_mem hauthored hdistinct hentry
  have hresult := e.resolve_of_discriminant settings hkind hname hholders hget hk hbag
  have hselected : ∀ k' t', (k', t') ∈ entries → k'.plain = k.shown →
      (e.resolve settings key bag).result = filled (Node.entryText t') := by
    intro k' t' hentry' hwritten
    rw [hresult, ← hwritten, Node.get?_variants_of_mem hauthored hdistinct hentry',
      Option.getD_some]
  refine ⟨fun h => hselected k t hentry (Value.plain_eq_shown_iff.2 h),
    fun h => ⟨?_, hselected, ?_⟩⟩
  · exact fun hsame => h (Value.plain_eq_shown_iff.1 hsame)
  · intro hnone
    rw [hresult, Node.get?_variants_of_not_mem hauthored hdistinct hnone, Option.getD_none]

/-- The map of a node that tells by a flag whether something is on. -/
def switchVariants : List (Value × Value) :=
  [(.bool true, .text "On"), (.int 1, .text "Step {step}")]

def switchData : List (Value × Value) :=
  [(.text "value", .text "Unset"), (.text "placeholders", .list [.text "flag"]),
    (.text "variants", .map switchVariants)]

def switchPhrase : Phrase :=
  ⟨"switch", ⟨"Unset", ["flag"], [], .ofList (Node.written switchVariants), .empty, none⟩, []⟩

def switchboard : Engine :=
  ⟨.ofOffers none none, .empty "en", ⟨none, .ofList [("switch", .phrase switchPhrase)]⟩⟩

/-- The number selects its own template, and the truth value the base text. -/
theorem resolve_variant_switch :
    (switchboard.resolve .default "switch" (.ofList [("flag", .int 1), ("step", .int 4)])).result =
        .ok (.text "Step 4") ∧
      (switchboard.resolve .default "switch" (.ofList [("flag", .bool true)])).result =
        .ok (.text "Unset") := by
  have hnode : Node.ofEntries switchData = .ok switchPhrase.node := by
    rfl
  have hdistinct : (switchVariants.map fun e => e.1.plain).Nodup := by
    decide
  have hget : switchboard.registry.get? "switch" = some (.phrase switchPhrase) := rfl
  have hone : OrderedMap.get? (.ofList [("flag", .int 1), ("step", .int 4)]) "flag" =
      some (Value.int 1) := rfl
  have htrue : OrderedMap.get? (.ofList [("flag", .bool true)]) "flag" = some (Value.bool true) :=
    rfl
  have hnumber := resolve_variant switchboard .default hnode rfl hdistinct rfl rfl hget
    (List.mem_cons_of_mem _ List.mem_cons_self) nofun hone
  have htruth := resolve_variant switchboard .default hnode rfl hdistinct rfl rfl hget
    List.mem_cons_self nofun htrue
  obtain ⟨-, -, hbase⟩ := htruth.2 id
  refine ⟨(hnumber.1 trivial).trans ?_, (hbase (by decide)).trans ?_⟩
  · exact congrArg (fun text => Except.ok (Value.text text)) (by decide +kernel)
  · exact congrArg (fun text => Except.ok (Value.text text)) (by decide +kernel)

/-- Not every key of a map of variants selects its own template, also where all keys are texts,
numbers and truth values. -/
theorem not_resolve_variant_always : ¬ ∀ (e : Engine) (settings : Settings) (key name : String)
    (bag : Bag) (q : Phrase) (data entries : List (Value × Value)) (k t : Value),
    Node.ofEntries data = .ok q.node → Node.field data "variants" = .map entries →
      (∀ e ∈ entries, e.1.shape ∈ [.text, .int, .real, .bool]) →
      (entries.map fun e => e.1.plain).Nodup → q.node.discriminant = some name →
        q.node.holders = [] → e.registry.get? key = some (.phrase q) → (k, t) ∈ entries →
          bag.get? name = some k → (e.resolve settings key bag).result =
            .ok (.text (Template.fill (Node.entryText t) bag
              e.stores.placeholders.inUse.values)) := by
  intro h
  have hshapes : ∀ e ∈ switchVariants, e.1.shape ∈ [Shape.text, .int, .real, .bool] := by
    intro e he
    rcases List.mem_cons.1 he with rfl | he
    · decide
    · rw [List.mem_singleton.1 he]
      decide
  have hown := h switchboard .default "switch" "flag" (.ofList [("flag", .bool true)]) switchPhrase
    switchData switchVariants (.bool true) (.text "On") rfl rfl hshapes (by decide) rfl rfl rfl
    List.mem_cons_self rfl
  have hget : switchboard.registry.get? "switch" = some (.phrase switchPhrase) := rfl
  have htrue : OrderedMap.get? (.ofList [("flag", .bool true)]) "flag" = some (Value.bool true) :=
    rfl
  have hvalue : Value.bool true ≠ .null := nofun
  rw [resolve_of_discriminant switchboard .default rfl rfl rfl hget hvalue htrue] at hown
  have htexts := Value.text.inj (Except.ok.inj hown)
  exact absurd htexts (by decide +kernel)

end Engine

end Phrasebook
