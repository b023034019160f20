import Phrasebook.Proofs.Influence.Coupling

/-! How names are read. Whatever a resolution does with a name, it takes a name without a value for
one that is missing, and it does not look at the spelling of numbers. So a relation of the values in
two bags that respects both is kept by every resolution, and what is returned is the same
(`Engine.resolve_of_pointwise`). This is used twice: for bags and stores that differ in the spelling
of their numbers (`resolve_respelled`), and for those that differ in names without a value
(`resolve_dropNulls`). -/

namespace Phrasebook

/-! ### Texts and references -/

namespace Template

theorem getD_present (x : Option Value) : (present x).getD .null = x.getD .null := by
  cases x with
  | none => rfl
  | some v => cases v <;> rfl

/-- The text of what a name has; without a value there is none. -/
theorem map_shown_present (x : Option Value) :
    (present x).map Value.shown =
      if (x.getD .null).isNull then none else some (x.getD .null).shown := by
  cases x with
  | none => rfl
  | some v => cases v <;> rfl

theorem map_shown_present_congr {x y : Option Value}
    (h : (x.getD .null).canonical = (y.getD .null).canonical) :
    (present x).map Value.shown = (present y).map Value.shown := by
  have hnull : (x.getD .null).isNull = (y.getD .null).isNull := by
    rw [← Value.isNull_canonical, h, Value.isNull_canonical]
  rw [map_shown_present, map_shown_present, hnull, Value.shown_congr h]

/-- The text of a name is that of the bag, else that of the defaults. -/
theorem textOf_eq (bag defaults : Bag) (name : String) :
    textOf bag defaults name = (Bag.reference bag name).or (Bag.reference defaults name) := by
  rw [textOf, valueOf, Bag.reference, Bag.reference]
  cases present (bag.get? name) <;> rfl

end Template

namespace Bag

variable {bag bag' : Bag} {name : String}

theorem AlikeAt.reference (h : AlikeAt bag bag' name) :
    Bag.reference bag name = Bag.reference bag' name :=
  Template.map_shown_present_congr h

/-! ### Relations at every name -/

/-- Two bags are related at every name. -/
def Pointwise (S : Option Value → Option Value → Prop) (bag bag' : Bag) : Prop :=
  ∀ name, S (bag.get? name) (bag'.get? name)

/-- A relation of what a name may have that holds of equal values, and only where no reader can tell
the two apart. -/
structure Indistinct (S : Option Value → Option Value → Prop) : Prop where
  refl : ∀ v, S (some v) (some v)
  alike : ∀ {x y : Option Value}, S x y → (x.getD .null).canonical = (y.getD .null).canonical

namespace Pointwise

variable {S : Option Value → Option Value → Prop}

theorem insert (h : Pointwise S bag bag') (name : String) {v w : Value} (hv : S (some v) (some w)) :
    Pointwise S (bag.insert name v) (bag'.insert name w) := by
  intro other
  rw [OrderedMap.get?_insert, OrderedMap.get?_insert]
  split
  · exact hv
  · exact h other

theorem alikeAt (h : Pointwise S bag bag') (hS : Indistinct S) (name : String) :
    AlikeAt bag bag' name :=
  hS.alike (h name)

end Pointwise

end Bag

namespace Scope

variable {scope scope' : Scope} {S : Option Value → Option Value → Prop}

/-- Bags in which no reader can tell names apart read alike with defaults of that sort. -/
theorem readsAlikeAt_of_pointwise (hS : Bag.Indistinct S)
    (hplaceholders : Bag.Pointwise S scope.placeholders scope'.placeholders)
    (hvariants : Bag.Pointwise S scope.variants scope'.variants) {bag bag' : Bag}
    (h : Bag.Pointwise S bag bag') (name : String) : ReadsAlikeAt scope scope' bag bag' name := by
  have hbag := h.alikeAt hS name
  refine ⟨hbag, ?_, ?_⟩
  · rw [Template.textOf_eq, Template.textOf_eq, hbag.reference,
      (hplaceholders.alikeAt hS name).reference]
  · rw [Template.textOf_eq, Template.textOf_eq, hbag.reference,
      (hvariants.alikeAt hS name).reference]

theorem coupling_pointwise (hS : Bag.Indistinct S) (hregistry : scope.registry = scope'.registry)
    (hbare : scope.fillBareVariants = scope'.fillBareVariants)
    (hplaceholders : Bag.Pointwise S scope.placeholders scope'.placeholders)
    (hvariants : Bag.Pointwise S scope.variants scope'.variants) :
    Coupling scope scope' (Bag.Pointwise S) where
  registry := hregistry
  target h _ := by
    rw [Registry.target, Registry.target, (h.alikeAt hS _).reference, hregistry]
  insert h _ v := h.insert _ (hS.refl v)
  render h _ := render_alike hbare fun name _ =>
    readsAlikeAt_of_pointwise hS hplaceholders hvariants h name

end Scope

/-! ### Queries -/

namespace Engine

/-- **Queries whose bags and stores no reader can tell apart** come to the same result, and leave
bags of that sort. -/
theorem resolve_of_pointwise {S : Option Value → Option Value → Prop} (hS : Bag.Indistinct S)
    {e e' : Engine} (settings : Settings) (key : String) {bag bag' : Bag}
    (hregistry : e.registry = e'.registry)
    (hstores : ∀ store, Bag.Pointwise S (e.stores.store store .engine).values
      (e'.stores.store store .engine).values)
    (h : Bag.Pointwise S bag bag') :
    (e.resolve settings key bag).result = (e'.resolve settings key bag').result ∧
      (e.resolve settings key bag).log = (e'.resolve settings key bag').log ∧
      Bag.Pointwise S (e.resolve settings key bag).bag (e'.resolve settings key bag').bag :=
  resolve_of_coupling (Scope.coupling_pointwise hS hregistry rfl (hstores .placeholders)
    (hstores .variants)) rfl key h

end Engine

/-! ### The spelling of numbers -/

/-- Two bags have the same names, with the same values but for the spelling of numbers. -/
def Bag.Respelled (bag bag' : Bag) : Prop :=
  Bag.Pointwise (Option.Rel Value.Respelled) bag bag'

theorem Bag.indistinct_respelled : Bag.Indistinct (Option.Rel Value.Respelled) where
  refl v := .some (.refl v)
  alike h := by
    cases h with
    | none => rfl
    | some hrespelled => exact hrespelled.canonical

namespace Engine

/-- **The spelling of numbers plays no part.** If the bags of two queries, and the stores, are the
same but for numbers that are written as an integer in one and as a floating-point number in the
other, then both queries have the same result, a value or an error, and the bags that they leave are
again the same in that sense. -/
theorem resolve_respelled (e e' : Engine) (settings : Settings) (key : String) (bag bag' : Bag)
    (hregistry : e.registry = e'.registry)
    (hstores : ∀ store, Bag.Respelled (e.stores.store store .engine).values
      (e'.stores.store store .engine).values)
    (hbag : Bag.Respelled bag bag') :
    (e.resolve settings key bag).result = (e'.resolve settings key bag').result ∧
      (e.resolve settings key bag).log = (e'.resolve settings key bag').log ∧
      Bag.Respelled (e.resolve settings key bag).bag (e'.resolve settings key bag').bag :=
  resolve_of_pointwise Bag.indistinct_respelled settings key hregistry hstores hbag

/-- An engine with an order for some cups, of which three are an order of their own sort. -/
def till : Engine :=
  ⟨.ofOffers none (some ⟨"variants", .ofList [("size", .int 2)]⟩), .empty "en",
    ⟨none, .ofList [
      ("order", .phrase ⟨"order", ⟨"{n} of {item}", [], ["item"], .empty,
          .ofList [("n === 3", "{n} times {item}")], none⟩,
        [⟨"n === 3", "{n} times {item}", .comparison .identical (.field "n") (.literal (.int 3))⟩]⟩),
      ("cup", .phrase ⟨"cup",
        ⟨"cup", ["size"], [], .ofList [("2", "large cup")], .empty, none⟩, []⟩)]⟩⟩

/-- Two and three as integers and as floating-point numbers, the one as a default that selects a
variant and the other in a condition and in a text. -/
theorem resolve_respelled_till :
    let two : Value := .real (.ofRatio false 2 1)
    let three : Value := .real (.ofRatio false 3 1)
    let bag : Bag := .ofList [("item", .text "cup"), ("n", .int 3)]
    let bag' : Bag := .ofList [("item", .text "cup"), ("n", three)]
    let till' := (till.writeStore .variants .engine (.set "size" two)).1
    (till.resolve .default "order" bag).result = .ok (.text "3 times large cup") ∧
      (till'.resolve .default "order" bag').result = .ok (.text "3 times large cup") := by
  intro two three bag bag' till'
  have htwo : Option.Rel Value.Respelled (some (.int 2)) (some two) :=
    .some (.number rfl rfl (by decide +kernel))
  have hthree : Option.Rel Value.Respelled (some (.int 3)) (some three) :=
    .some (.number rfl rfl (by decide +kernel))
  have hnone : Bag.Respelled .empty .empty := fun _ => .none
  have hstores : ∀ store, Bag.Respelled (till.stores.store store .engine).values
      (till'.stores.store store .engine).values := by
    intro store
    cases store with
    | placeholders => exact hnone
    | variants => exact hnone.insert "size" htwo
  have hbag : Bag.Respelled bag bag' := (hnone.insert "item" (.some (.refl _))).insert "n" hthree
  have hresult : (till.resolve .default "order" bag).result = .ok (.text "3 times large cup") :=
    congrArg (fun t => Except.ok (Value.text t)) (by decide +kernel : Template.fill _ _ _ = _)
  exact ⟨hresult, (resolve_respelled till till' .default "order" bag bag' rfl hstores
    hbag).1.symm.trans hresult⟩

end Engine

/-! ### Names without a value -/

/-- A bag without the names that have no value. -/
def Bag.dropNulls (bag : Bag) : Bag :=
  ⟨bag.entries.filter (!·.2.isNull), bag.nodup.sublist (List.filter_sublist.map Prod.fst)⟩

theorem Template.present_eq_filter (x : Option Value) : present x = x.filter (!·.isNull) := by
  cases x with
  | none => rfl
  | some v => cases v <;> rfl

theorem Bag.get?_dropNulls (bag : Bag) (name : String) :
    (Bag.dropNulls bag).get? name = Template.present (bag.get? name) := by
  refine Option.ext fun v => ?_
  rw [Template.present_eq_filter, Option.filter_eq_some_iff, OrderedMap.get?_eq_some_iff,
    OrderedMap.get?_eq_some_iff]
  exact List.mem_filter

/-- Two bags have the same names with a value, and the same values for them. -/
def Bag.SamePresent (bag bag' : Bag) : Prop :=
  ∀ name, (Bag.dropNulls bag).get? name = (Bag.dropNulls bag').get? name

theorem Bag.samePresent_iff {bag bag' : Bag} : Bag.SamePresent bag bag' ↔
    Bag.Pointwise (fun x y => Template.present x = Template.present y) bag bag' := by
  simp only [SamePresent, Pointwise, get?_dropNulls]

/-- Giving a missing name no value makes no difference. -/
theorem Bag.SamePresent.insert_null {bag bag' : Bag} {name : String} (h : Bag.SamePresent bag bag')
    (hmissing : bag'.get? name = none) : Bag.SamePresent bag (bag'.insert name .null) := by
  intro other
  rw [h other, Bag.get?_dropNulls, Bag.get?_dropNulls, OrderedMap.get?_insert]
  split
  · next hother =>
      rw [hother, hmissing]
      rfl
  · rfl

theorem Bag.indistinct_present :
    Bag.Indistinct fun x y => Template.present x = Template.present y where
  refl _ := rfl
  alike {x y} h := by rw [← Template.getD_present x, h, Template.getD_present]

namespace Engine

/-- **A name without a value is a name that is missing.** If the bags of two queries, and the
stores, are the same without the names that have no value, then both queries have the same result, a
value or an error, and the bags that they leave are again the same in that sense. -/
theorem resolve_dropNulls (e e' : Engine) (settings : Settings) (key : String) (bag bag' : Bag)
    (hregistry : e.registry = e'.registry)
    (hstores : ∀ store, Bag.SamePresent (e.stores.store store .engine).values
      (e'.stores.store store .engine).values)
    (hbag : Bag.SamePresent bag bag') :
    (e.resolve settings key bag).result = (e'.resolve settings key bag').result ∧
      (e.resolve settings key bag).log = (e'.resolve settings key bag').log ∧
      Bag.SamePresent (e.resolve settings key bag).bag (e'.resolve settings key bag').bag := by
  simp only [Bag.samePresent_iff] at hstores hbag ⊢
  exact resolve_of_pointwise Bag.indistinct_present settings key hregistry hstores hbag

/-- An order whose item has no value, in the bag and among the defaults or missing in both. -/
theorem resolve_dropNulls_till :
    let bag : Bag := .ofList [("n", .int 3)]
    let bag' : Bag := (bag.insert "item" .null).insert "note" .null
    let till' := (till.writeStore .placeholders .engine (.set "item" .null)).1
    (till.resolve .default "order" bag).result = .ok (.text "3 times {item}") ∧
      (till'.resolve .default "order" bag').result = .ok (.text "3 times {item}") := by
  intro bag bag' till'
  have hstores : ∀ store, Bag.SamePresent (till.stores.store store .engine).values
      (till'.stores.store store .engine).values := by
    intro store
    cases store with
    | placeholders => exact Bag.SamePresent.insert_null (fun _ => rfl) rfl
    | variants => exact fun _ => rfl
  have hbag : Bag.SamePresent bag bag' :=
    Bag.SamePresent.insert_null (Bag.SamePresent.insert_null (fun _ => rfl) rfl) rfl
  have hresult : (till.resolve .default "order" bag).result = .ok (.text "3 times {item}") :=
    congrArg (fun t => Except.ok (Value.text t)) (by decide +kernel : Template.fill _ _ _ = _)
  exact ⟨hresult, (resolve_dropNulls till till' .default "order" bag bag' rfl hstores
    hbag).1.symm.trans hresult⟩

end Engine

end Phrasebook
