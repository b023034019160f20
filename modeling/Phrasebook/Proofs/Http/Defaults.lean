import Phrasebook.Proofs.Http.Escaping
import Phrasebook.Proofs.Http.Resolution

/-! Two ways to give a name its default value: alone, by a request for the name, or merged with
others, by a request for its store. A value that is merged is stored as it was sent; one that is
given alone is stored as a text or a number, and a truth value becomes a number
(`singleValue_cases`). So the two ways come to the same for all values but truth values
(`set_alone_iff_merged`). -/

namespace Phrasebook.Http

/-! ### The values of single names -/

/-- The values that a single name may have. -/
def isSingle (v : Value) : Bool :=
  v.shape = .text || v.shape = .int || v.shape = .real || v.shape = .bool

/-- What the single value of a name is stored as: a truth value is a number. -/
def stored : Value → Value
  | .bool b => .int (if b then 1 else 0)
  | v => v

theorem stored_eq_self_iff {v : Value} : stored v = v ↔ v.shape ≠ .bool := by
  cases v with
  | bool b => exact iff_of_false nofun (· rfl)
  | _ => exact iff_of_true rfl nofun

theorem singleValue_cases (v : Value) :
    (isSingle v = true ∧ singleValue v = .ok (stored v)) ∨
      (isSingle v = false ∧ ∃ issues, singleValue v = .error (.issues issues)) := by
  cases v with
  | null => exact .inr ⟨rfl, _, rfl⟩
  | list items => exact .inr ⟨rfl, _, rfl⟩
  | map entries => exact .inr ⟨rfl, _, rfl⟩
  | _ => exact .inl ⟨rfl, rfl⟩

/-! ### Requests for defaults -/

namespace Route

theorem ofPath?_defaults (store : StoreName) :
    ofPath? ("/api/v1/defaults/" ++ store.word).toList = some (.defaults store.word) := by
  have hpath : "/api/v1/defaults/" ++ store.word = "/api/v1/" ++ ("defaults/" ++ store.word) := by
    rw [← String.toList_inj]
    simp
  rw [hpath, ofPath?_versioned]
  cases store <;> decide

theorem ofPath?_default (store : StoreName) {name : String} (hname : name ≠ "")
    (hslash : '/' ∉ name.toList) :
    ofPath? ("/api/v1/defaults/" ++ store.word ++ "/" ++ name).toList =
      some (.default store.word name) := by
  have hpath : "/api/v1/defaults/" ++ store.word ++ "/" ++ name =
      "/api/v1/" ++ ("defaults/" ++ store.word ++ "/" ++ name) := by
    rw [← String.toList_inj]
    simp
  have hrest : ("defaults/" ++ store.word ++ "/" ++ name).toList =
      "defaults".toList ++ '/' :: (store.word.toList ++ '/' :: name.toList) := by
    simp
  have hword : '/' ∉ store.word.toList := by
    cases store <;> decide
  have hsome : store.word.isEmpty = false := by
    cases store <;> rfl
  rw [hpath, ofPath?_versioned, hrest, Text.splitOn_append _ (by decide),
    Text.splitOn_append _ hword, Text.splitOn_eq_singleton hslash]
  simp [versioned?, hsome, hname]

end Route

theorem checkStore_word (store : StoreName) : checkStore store.word = .ok store := by
  cases store <;> rfl

section

variable (settings : Settings) (e : Engine) {store : StoreName} {name : String} {v : Value}
  {r : Request}

/-- What a request with a single value is answered, by the check of the value. -/
theorem serve_set_eq_checked [Text.Surrogates] (hname : name ≠ "") (hslash : '/' ∉ name.toList)
    (hmethod : r.method.map Char.toUpper = "PUT")
    (hpath : decoded r.path.toList =
      ("/api/v1/defaults/" ++ store.word ++ "/" ++ name).toList)
    (hbody : r.body.read = .ok (some (object [("value", v)]))) :
    serve settings e r =
      checked e (((singleValue v).under (.key "value")).under (.key "body")) fun w =>
        written e store (.set name w) := by
  have hroute : Route.ofPath? (decoded r.path.toList) = some (.default store.word name) := by
    rw [hpath, Route.ofPath?_default store hname hslash]
  have hput : "PUT" ∈ (Route.default store.word name).methods := List.mem_cons_self
  rw [serve_eq_answer settings e hmethod hroute hput, answer, if_neg (by decide), hbody]
  have hvalue : checkBody valueRequest (some (object [("value", v)])) =
      ((singleValue v).under (.key "value")).under (.key "body") := rfl
  dsimp only
  rw [hvalue, checkStore_word]
  rcases singleValue_cases v with ⟨-, hok⟩ | ⟨-, issues, herror⟩
  · rw [hok]
    rfl
  · rw [herror]
    rfl

/-- A request that merges one value into a store. -/
theorem serve_merge_eq_written [Text.Surrogates] (hmethod : r.method.map Char.toUpper = "PATCH")
    (hpath : decoded r.path.toList = ("/api/v1/defaults/" ++ store.word).toList)
    (hbody : r.body.read = .ok (some (object [("values", object [(name, v)])]))) :
    serve settings e r = written e store (.update (.ofList [(name, v)])) := by
  have hroute : Route.ofPath? (decoded r.path.toList) = some (.defaults store.word) := by
    rw [hpath, Route.ofPath?_defaults]
  have hpatch : "PATCH" ∈ (Route.defaults store.word).methods := by simp [Route.methods]
  have hbag : checkBag (object [(name, v)]) = .ok (.ofList [(name, v)]) :=
    checkBag_ofBag (.ofList [(name, v)])
  have hvalues : checkBody valuesRequest (some (object [("values", object [(name, v)])])) =
      .ok (.ofList [(name, v)]) := by
    rw [checkBody, valuesRequest, object, List.map_singleton, checkObject, required]
    simp only [Value.field?, if_true, hbag]
    rfl
  rw [serve_eq_answer settings e hmethod hroute hpatch, answer, if_neg (by decide),
    if_neg (by decide), hbody]
  dsimp only
  rw [hvalues, checkStore_word]
  rfl

/-- A single value is written over a store as a value that is merged. -/
theorem engine_written_set (name : String) (v : Value) :
    (written e store (.set name v)).engine =
      (written e store (.update (.ofList [(name, v)]))).engine :=
  rfl

theorem get?_written_set (store : StoreName) (name : String) (v : Value) :
    ((written e store (.set name v)).engine.stores.slot store).inUse.values.get? name =
      some v := by
  have hslot : ((written e store (.set name v)).engine.stores.slot store).inUse.values =
      (e.stores.slot store).inUse.values.insert name v := by
    cases store <;> rfl
  rw [hslot, OrderedMap.get?_insert, if_pos rfl]

theorem stores_written_set_inj {w : Value} :
    (written e store (.set name w)).engine.stores = (written e store (.set name v)).engine.stores ↔
      w = v := by
  constructor
  · intro h
    have hget := get?_written_set e store name w
    rw [h, get?_written_set] at hget
    exact (Option.some.inj hget).symm
  · rintro rfl
    rfl

end

/-- **A value that is given alone is stored as a value that is merged, unless it is a truth value.**
For every engine, store and name without slashes: a request with a single value for the name
succeeds just if the value is a text, a number or a truth value, a request that merges the value
always does; and if both do they leave the same stores just if the value is no truth value. A truth
value that is merged stays one, and one that is given alone becomes the number one or zero. -/
theorem set_alone_iff_merged [Text.Surrogates] (settings : Settings) (e : Engine)
    {store : StoreName} {name : String} {v : Value} {put patch : Request} (hname : name ≠ "")
    (hslash : '/' ∉ name.toList)
    (hput : put.method.map Char.toUpper = "PUT")
    (hputPath : decoded put.path.toList =
      ("/api/v1/defaults/" ++ store.word ++ "/" ++ name).toList)
    (hputBody : put.body.read = .ok (some (object [("value", v)])))
    (hpatch : patch.method.map Char.toUpper = "PATCH")
    (hpatchPath : decoded patch.path.toList = ("/api/v1/defaults/" ++ store.word).toList)
    (hpatchBody : patch.body.read = .ok (some (object [("values", object [(name, v)])]))) :
    let x := serve settings e put
    let y := serve settings e patch
    (x.response.status = 200 ↔ isSingle v = true) ∧ y.response.status = 200 ∧
      (x.response.status = 200 → (x.engine.stores = y.engine.stores ↔ v.shape ≠ .bool)) ∧
      (x.response.status = 200 → v.shape ≠ .bool → x.engine = y.engine ∧ x.response = y.response) ∧
      ∀ b, v = .bool b →
        (x.engine.stores.slot store).inUse.values.get? name = some (.int (if b then 1 else 0)) ∧
        (y.engine.stores.slot store).inUse.values.get? name = some (.bool b) := by
  intro x y
  have hx : x = checked e (((singleValue v).under (.key "value")).under (.key "body")) fun w =>
      written e store (.set name w) :=
    serve_set_eq_checked settings e hname hslash hput hputPath hputBody
  have hy : y = written e store (.update (.ofList [(name, v)])) :=
    serve_merge_eq_written settings e hpatch hpatchPath hpatchBody
  have hengine : y.engine = (written e store (.set name v)).engine := by
    rw [hy, engine_written_set]
  have hstatus : y.response.status = 200 := by
    rw [hy]
    rfl
  rcases singleValue_cases v with ⟨hsingle, hok⟩ | ⟨hother, issues, herror⟩
  · have hx : x = written e store (.set name (stored v)) := by
      rw [hok] at hx
      exact hx
    have hsame : x.engine.stores = y.engine.stores ↔ v.shape ≠ .bool := by
      rw [hx, hengine, stores_written_set_inj, stored_eq_self_iff]
    refine ⟨iff_of_true (hx ▸ rfl) hsingle, hstatus, fun _ => hsame, fun _ hshape => ?_, ?_⟩
    · rw [hx, hy, stored_eq_self_iff.2 hshape]
      exact ⟨rfl, rfl⟩
    · rintro b rfl
      rw [hx, hengine, get?_written_set, get?_written_set]
      exact ⟨rfl, rfl⟩
  · have hrefused : x.response.status ≠ 200 := by
      rw [hx, herror]
      exact status_refused_ne (by decide) _
    have hnot : ¬ isSingle v = true := by
      rw [hother]
      exact Bool.false_ne_true
    refine ⟨iff_of_false hrefused hnot, hstatus, fun h => absurd h hrefused,
      fun h => absurd h hrefused, ?_⟩
    rintro b rfl
    exact absurd rfl hnot

/-- Giving the placeholder of a member its value alone. -/
def settingMember (v : Value) : Request :=
  ⟨"PUT", "/api/v1/defaults/placeholders/member", .value (object [("value", v)])⟩

/-- Merging the value of a member into the placeholders. -/
def mergingMember (v : Value) : Request :=
  ⟨"PATCH", "/api/v1/defaults/placeholders",
    .value (object [("values", object [("member", v)])])⟩

theorem decoded_settingMember (v : Value) : decoded (settingMember v).path.toList =
    ("/api/v1/defaults/" ++ StoreName.placeholders.word ++ "/" ++ "member").toList := by
  have hpath : "/api/v1/defaults/" ++ StoreName.placeholders.word ++ "/" ++ "member" =
      "/api/v1/defaults/placeholders/member" := by
    decide
  rw [hpath]
  show decoded "/api/v1/defaults/placeholders/member".toList = _
  exact decoded_of_isPlain (c := 'a') (by decide) (by decide)

theorem decoded_mergingMember (v : Value) : decoded (mergingMember v).path.toList =
    ("/api/v1/defaults/" ++ StoreName.placeholders.word).toList := by
  have hpath : "/api/v1/defaults/" ++ StoreName.placeholders.word =
      "/api/v1/defaults/placeholders" := by
    decide
  rw [hpath]
  show decoded "/api/v1/defaults/placeholders".toList = _
  exact decoded_of_isPlain (c := 'a') (by decide) (by decide)

/-- The name of a member is stored the same in both ways. -/
theorem set_alone_iff_merged_member :
    let put := settingMember (.text "Guest")
    let patch := mergingMember (.text "Guest")
    (serve .default desk put).response.status = 200 ∧
      (serve .default desk put).engine.stores = (serve .default desk patch).engine.stores := by
  intro put patch
  have hput : ("PUT" : String).map Char.toUpper = "PUT" :=
    map_toUpper_eq_self (by decide)
  have hpatch : ("PATCH" : String).map Char.toUpper = "PATCH" :=
    map_toUpper_eq_self (by decide)
  obtain ⟨hstatus, -, hstores, -⟩ := set_alone_iff_merged .default desk (v := .text "Guest")
    (by decide) (by decide) hput (decoded_settingMember _) rfl hpatch (decoded_mergingMember _) rfl
  have hset : (serve .default desk put).response.status = 200 := hstatus.2 rfl
  exact ⟨hset, (hstores hset).2 nofun⟩

/-- **A value that is given alone is not always stored as one that is merged.** -/
theorem not_set_alone_as_merged :
    ¬ ∀ (settings : Settings) (e : Engine) (store : StoreName) (name : String) (v : Value)
      (put patch : Request), name ≠ "" → '/' ∉ name.toList →
      put.method.map Char.toUpper = "PUT" →
      decoded put.path.toList = ("/api/v1/defaults/" ++ store.word ++ "/" ++ name).toList →
      put.body.read = .ok (some (object [("value", v)])) →
      patch.method.map Char.toUpper = "PATCH" →
      decoded patch.path.toList = ("/api/v1/defaults/" ++ store.word).toList →
      patch.body.read = .ok (some (object [("values", object [(name, v)])])) →
      (serve settings e put).response.status = 200 →
      (serve settings e put).engine.stores = (serve settings e patch).engine.stores := by
  intro hmerged
  have hput : ("PUT" : String).map Char.toUpper = "PUT" :=
    map_toUpper_eq_self (by decide)
  have hpatch : ("PATCH" : String).map Char.toUpper = "PATCH" :=
    map_toUpper_eq_self (by decide)
  have hset := serve_set_eq_checked .default desk (v := .bool true) (by decide) (by decide) hput
    (decoded_settingMember _) rfl
  have hmerge := serve_merge_eq_written .default desk (v := .bool true) hpatch
    (decoded_mergingMember _) rfl
  have hstores := hmerged .default desk _ _ (.bool true) _ _ (by decide) (by decide) hput
    (decoded_settingMember _) rfl hpatch (decoded_mergingMember _) rfl (by rw [hset]; rfl)
  rw [hset, hmerge, ← engine_written_set] at hstores
  exact absurd ((stores_written_set_inj desk).1 hstores) nofun

end Phrasebook.Http
