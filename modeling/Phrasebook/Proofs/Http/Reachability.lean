import Phrasebook.Proofs.Http.Escaping
import Phrasebook.Proofs.Http.Resolution
import Phrasebook.Proofs.Registry.Overview

/-! Entries reached by their keys. A listing shows one item for every key, in a registry whose
phrases go by the keys under which they stand, like all that are published; and a request for the
entry of a key is answered with that item if the path of the request leads to the entry. Escapes are
decoded before a path is split at its slashes, so whatever its spelling, the path of a key leads to
the entry just if the key is one segment of a path: not empty, and without slashes
(`listed_reached_iff`). -/

namespace Phrasebook

namespace EntryInfo

theorem exists_details (node : Node) (sources : List String) : ∃ rest : List (String × Value),
    details node sources = rest.map Value.named ∧ "key" ∉ rest.map Prod.fst := by
  unfold details
  cases node.kind with
  | variant => exact ⟨[("variants", textList node.variants.keys)], rfl, by simp⟩
  | conditional =>
      dsimp only
      split
      · exact ⟨[("conditions", textList sources)], rfl, by simp⟩
      · exact ⟨[("conditions", textList sources),
          ("dropped_conditions", .int (dropped node sources))], rfl, by simp⟩
  | static => exact ⟨[], rfl, List.not_mem_nil⟩
  | plain => exact ⟨[], rfl, List.not_mem_nil⟩

theorem exists_description (desc : Option String) : ∃ rest : List (String × Value),
    (match desc with
      | some d => if d.isEmpty then [] else [(.text "desc", .text d)]
      | none => []) = rest.map Value.named ∧ "key" ∉ rest.map Prod.fst := by
  cases desc with
  | none => exact ⟨[], rfl, List.not_mem_nil⟩
  | some d =>
      dsimp only
      split
      · exact ⟨[], rfl, List.not_mem_nil⟩
      · exact ⟨[("desc", .text d)], rfl, by simp⟩

/-- What is told about an entry is an object that begins with its key and tells no other. -/
theorem exists_members (info : EntryInfo) : ∃ rest : List (String × Value),
    info.toValue = Http.object (("key", .text info.key) :: rest) ∧ "key" ∉ rest.map Prod.fst := by
  cases info with
  | constant key value =>
      exact ⟨[("kind", .text Kind.static.word), ("value", value)], rfl, by simp⟩
  | phrase key node sources =>
      obtain ⟨description, hdescription, hdesc⟩ := exists_description node.desc
      obtain ⟨more, hmore, hdetails⟩ := exists_details node sources
      let fixed : List (String × Value) :=
        [("kind", .text node.kind.word), ("value", .text node.value),
          ("placeholders", textList node.placeholders), ("holders", textList node.holders)]
      refine ⟨fixed ++ description ++ more, ?_, ?_⟩
      · have hvalue : (phrase key node sources).toValue =
            .map ((("key", .text key) :: fixed).map Value.named ++ description.map Value.named ++
              more.map Value.named) := by
          rw [← hdescription, ← hmore]
          rfl
        rw [hvalue, ← List.map_append, ← List.map_append]
        rfl
      · rw [List.map_append, List.map_append, List.mem_append, List.mem_append]
        simp [fixed, hdesc, hdetails]

end EntryInfo

namespace Http

/-! ### What an answer shows -/

/-- A value as an answer shows it. -/
def shown (v : Value) : Value :=
  finite (carried answerKey v)

theorem carriedEntries_named (l : List (String × Value)) :
    carriedEntries answerKey (l.map Value.named) =
      (l.map fun e => (e.1, carried answerKey e.2)).map Value.named := by
  induction l with
  | nil => rfl
  | cons e rest ih =>
      rw [List.map_cons, Value.named, carriedEntries, ih]
      rfl

theorem finiteEntries_named (l : List (String × Value)) :
    finiteEntries (l.map Value.named) = (l.map fun e => (e.1, finite e.2)).map Value.named := by
  induction l with
  | nil => rfl
  | cons e rest ih =>
      rw [List.map_cons, Value.named, finiteEntries, ih]
      rfl

/-- The members of an object are shown one by one. -/
theorem shown_object (members : List (String × Value)) :
    shown (object members) = .ofBag ((OrderedMap.ofList members).map shown) := by
  have hcarried : carried answerKey (object members) =
      .map (((OrderedMap.ofList members).map (carried answerKey)).entries.map Value.named) := by
    show carried answerKey (.map (members.map Value.named)) = _
    rw [carried, carriedEntries_named, Value.ofEntries_named, OrderedMap.ofList_map]
    rfl
  rw [shown, hcarried, finite, finiteEntries_named, OrderedMap.map, OrderedMap.map, Value.ofBag,
    List.map_map, List.map_map, List.map_map]
  rfl

theorem shown_list (items : List Value) : shown (.list items) = .list (items.map shown) := by
  have hcarried : carriedItems answerKey items = items.map (carried answerKey) := by
    induction items with
    | nil => rfl
    | cons v vs ih => rw [carriedItems, ih, List.map_cons]
  have hfinite : ∀ l : List Value, finiteItems l = l.map finite := by
    intro l
    induction l with
    | nil => rfl
    | cons v vs ih => rw [finiteItems, ih, List.map_cons]
  rw [shown, carried, hcarried, finite, hfinite, List.map_map]
  rfl

/-- The member of an object. -/
def member? (name : String) : Value → Option Value
  | .map entries => Value.field? name entries
  | _ => none

theorem member?_shown (name : String) (members : List (String × Value)) :
    member? name (shown (object members)) = ((OrderedMap.ofList members).get? name).map shown := by
  rw [shown_object, Value.ofBag, member?]
  exact (Value.field?_named name _).trans (OrderedMap.get?_map shown _ name)

/-- Whether an item is about a key. -/
def isAbout (key : String) (item : Value) : Bool :=
  match member? "key" item with
  | some (.text k) => k = key
  | _ => false

/-- The items about a key in a listing that is answered. -/
def Response.itemsOf (key : String) : Response → List Value
  | .json _ listing =>
      match member? "entries" listing with
      | some (.list items) => items.filter (isAbout key)
      | _ => []
  | _ => []

theorem isAbout_shown (key : String) (info : EntryInfo) :
    isAbout key (shown info.toValue) = decide (info.key = key) := by
  obtain ⟨rest, hinfo, hrest⟩ := info.exists_members
  rw [isAbout, hinfo, member?_shown, OrderedMap.get?_ofList_cons hrest]
  rfl

/-- A listing shows what is told about each entry. -/
theorem member?_listing (r : Registry) :
    member? "entries" (shown (Listing.ofRegistry r).toValue) =
      some (.list ((r.entries.entries.mergeSort Listing.keyLe).map fun e =>
        shown (EntryInfo.ofEntry e.1 e.2).toValue)) := by
  obtain ⟨front, hlisting⟩ : ∃ front : List (String × Value),
      (Listing.ofRegistry r).toValue = object (front ++
        [("entries", .list ((Listing.ofRegistry r).entries.map EntryInfo.toValue))]) :=
    ⟨[("language", _), ("total_entries", _), ("kinds", _)], rfl⟩
  rw [hlisting, member?_shown, OrderedMap.get?_ofList_concat, Option.map_some, shown_list,
    Listing.ofRegistry, List.map_map, List.map_map]
  rfl

/-- **A listing shows one item for the key of an entry.** -/
theorem itemsOf_listing {r : Registry} (hkeyed : r.Keyed) {key : String} {entry : Entry}
    (h : r.get? key = some entry) : (ok (Listing.ofRegistry r).toValue).itemsOf key =
      [shown (EntryInfo.ofEntry key entry).toValue] := by
  -- sorting keeps the entries, of which one has the key
  have hperm := r.entries.entries.mergeSort_perm Listing.keyLe
  have hmem : (key, entry) ∈ r.entries.entries.mergeSort Listing.keyLe :=
    hperm.mem_iff.2 (OrderedMap.get?_eq_some_iff.1 h)
  have hnodup := Listing.nodup_sorted r
  have habout : ∀ e ∈ r.entries.entries.mergeSort Listing.keyLe,
      (isAbout key ∘ fun e : String × Entry => shown (EntryInfo.ofEntry e.1 e.2).toValue) e =
        decide (e.1 = key) := by
    intro e he
    have hown : ∀ p, e.2 = .phrase p → p.key = e.1 := fun p hp =>
      hkeyed e.1 p (by rw [Listing.get?_of_mem_sorted he, hp])
    rw [Function.comp_apply, isAbout_shown, EntryInfo.key_ofEntry hown]
  show (match member? "entries" (shown (Listing.ofRegistry r).toValue) with
    | some (.list items) => items.filter (isAbout key)
    | _ => []) = _
  rw [member?_listing]
  dsimp only
  rw [List.filter_map, List.filter_congr habout, OrderedMap.filter_key_eq_singleton hnodup hmem,
    List.map_singleton]

/-! ### The paths of a key -/

/-- A key that is one segment of a path. -/
def IsSegment (key : String) : Prop :=
  key ≠ "" ∧ '/' ∉ key.toList

instance (key : String) : Decidable (IsSegment key) :=
  inferInstanceAs (Decidable (_ ∧ _))

/-- Another key is an empty segment, or more than one. -/
theorem splitOn_of_not_isSegment {key : String} (h : ¬ IsSegment key) :
    Text.splitOn '/' key.toList = [[]] ∨
      ∃ a b rest, Text.splitOn '/' key.toList = a :: b :: rest := by
  cases hpieces : Text.splitOn '/' key.toList with
  | nil => exact absurd hpieces (Text.splitOn_ne_nil _ _)
  | cons a pieces =>
      cases pieces with
      | cons b rest => exact .inr ⟨a, b, rest, rfl⟩
      | nil =>
          have hkey : a = key.toList := by
            rw [← Text.intercalate_splitOn '/' key.toList, hpieces, List.intercalate_singleton]
          have hslash : '/' ∉ key.toList := by
            rw [← hkey]
            exact Text.not_mem_of_mem_splitOn (by rw [hpieces]; exact List.mem_singleton_self a)
          have hempty : key = "" := by
            by_contra hne
            exact h ⟨hne, hslash⟩
          rw [hkey, hempty]
          exact .inl rfl

namespace Route

theorem ofPath?_entry {key : String} (h : IsSegment key) :
    ofPath? ("/api/v1/entries/" ++ key).toList = some (.entry key) := by
  rw [ofPath?_entries, Text.splitOn_eq_singleton h.2]
  simp [versioned?, h.1]

/-- The path of a key that is no segment leads nowhere, or to what another key is asked for with. -/
theorem ofPath?_entries_of_not_isSegment {key : String} (h : ¬ IsSegment key) :
    ofPath? ("/api/v1/entries/" ++ key).toList = none ∨
      ∃ other, ofPath? ("/api/v1/entries/" ++ key).toList = some (.resolution other) := by
  rw [ofPath?_entries]
  rcases splitOn_of_not_isSegment h with hpieces | ⟨a, b, rest, hpieces⟩
  · rw [hpieces]
    exact .inl rfl
  · rw [hpieces, List.map_cons, List.map_cons]
    cases rest with
    | cons c rest => exact .inl rfl
    | nil =>
        -- two segments are a key and the word behind it, if that is the one for resolutions
        rw [List.map_nil]
        by_cases hresolve : endsWith "resolve" (String.ofList b) = true
        · by_cases hempty : (String.ofList a).isEmpty = true
          · exact .inl (by simp [versioned?, hempty])
          · exact .inr ⟨String.ofList a, by simp [versioned?, hempty, hresolve]⟩
        · exact .inl (by simp [versioned?, hresolve])

theorem ofPath?_entries_resolve_of_not_isSegment {key : String} (h : ¬ IsSegment key) :
    ofPath? ("/api/v1/entries/" ++ key ++ "/resolve").toList = none := by
  rw [ofPath?_entries_resolve]
  rcases splitOn_of_not_isSegment h with hpieces | ⟨a, b, rest, hpieces⟩
  · rw [hpieces]
    rfl
  · rw [hpieces]
    cases rest <;> rfl

end Route

/-! ### Requests for a key -/

section

variable [Text.Surrogates] (settings : Settings) (e : Engine) {key : String} {r : Request}

theorem serve_listing (hmethod : r.method.map Char.toUpper = "GET")
    (hpath : decoded r.path.toList = "/api/v1/entries".toList) :
    (serve settings e r).response = ok (Listing.ofRegistry e.registry).toValue := by
  have hroute : Route.ofPath? (decoded r.path.toList) = some .entries := by
    rw [hpath, Route.ofPath?_listing]
  have htakes : "GET" ∈ Route.entries.methods := List.mem_singleton_self _
  rw [serve_eq_answer settings e hmethod hroute htakes]
  rfl

/-- A request for the entry of a key that is a segment is answered with its item. -/
theorem serve_entry {entry : Entry} (hentry : e.registry.get? key = some entry)
    (hkey : IsSegment key) (hmethod : r.method.map Char.toUpper = "GET")
    (hpath : decoded r.path.toList = ("/api/v1/entries/" ++ key).toList) :
    (serve settings e r).response = ok (EntryInfo.ofEntry key entry).toValue := by
  have hroute : Route.ofPath? (decoded r.path.toList) = some (.entry key) := by
    rw [hpath, Route.ofPath?_entry hkey]
  have htakes : "GET" ∈ (Route.entry key).methods := List.mem_singleton_self _
  rw [serve_eq_answer settings e hmethod hroute htakes, answer]
  dsimp only
  rw [described, Registry.describe_of_get? hentry]

theorem status_serve_entry_of_not_isSegment (hkey : ¬ IsSegment key)
    (hmethod : r.method.map Char.toUpper = "GET")
    (hpath : decoded r.path.toList = ("/api/v1/entries/" ++ key).toList) :
    (serve settings e r).response.status ∈ [307, 404, 405] := by
  rcases Route.ofPath?_entries_of_not_isSegment hkey with hroute | ⟨other, hroute⟩
  · rw [← hpath] at hroute
    have hstatus := status_serve_of_not_routed settings e hroute
    exact List.mem_append_left [405] hstatus
  · rw [← hpath] at hroute
    have htakes : "GET" ∉ (Route.resolution other).methods := by simp [Route.methods]
    rw [serve_eq_notAllowed settings e hmethod (by decide) hroute htakes]
    exact List.mem_append_right [307, 404] (List.mem_singleton_self 405)

/-- What a body cannot be read for is no missing path. -/
theorem status_ne_of_read {body : Body} {response : Response} (h : body.read = .error response) :
    response.status ≠ 404 := by
  cases body with
  | absent => cases h
  | value v => cases h
  | text s =>
      rw [Body.read] at h
      split at h
      · cases h
      · dsimp only at h
        split at h
        · cases h
          decide
        · split at h
          · cases h
          · cases h
            exact status_refused_ne (by decide) _
          · cases h
            decide

/-- A request for the resolution of a known key that is a segment does not miss it. -/
theorem status_serve_resolution_ne {entry : Entry} (hentry : e.registry.get? key = some entry)
    (hkey : IsSegment key) (hmethod : r.method.map Char.toUpper = "POST")
    (hpath : decoded r.path.toList = ("/api/v1/entries/" ++ key ++ "/resolve").toList) :
    (serve settings e r).response.status ≠ 404 := by
  have hroute : Route.ofPath? (decoded r.path.toList) = some (.resolution key) := by
    rw [hpath, Route.ofPath?_resolution hkey.1 hkey.2]
  have htakes : "POST" ∈ (Route.resolution key).methods := List.mem_singleton_self _
  rw [serve_eq_answer settings e hmethod hroute htakes, answer]
  dsimp only
  cases hbody : r.body.read with
  | error response => exact status_ne_of_read hbody
  | ok v =>
      dsimp only
      cases checkBody resolutionRequest v with
      | error x =>
          cases x with
          | issues l => exact status_refused_ne (by decide) l
          | misuse m =>
              show (500 : Nat) ≠ 404
              decide
      | ok params =>
          have hknown : (e.resolve settings key params).result ≠ .error (.unknownEntry key) := by
            rw [ne_eq, Engine.resolve_eq_unknownEntry_iff, hentry]
            exact fun h => Option.some_ne_none entry h.2
          obtain ⟨hnotFound, -⟩ := queryStatus_iff (e.resolve_cases settings key params)
          show (resolved e settings key params).response.status ≠ 404
          rw [status_resolved]
          exact fun h => hknown (hnotFound.1 h)

theorem serve_resolution_of_not_isSegment (hkey : ¬ IsSegment key)
    (hmethod : r.method.map Char.toUpper = "POST")
    (hpath : decoded r.path.toList = ("/api/v1/entries/" ++ key ++ "/resolve").toList) :
    serve settings e r = ⟨detail 404 "Not Found", e, []⟩ := by
  have hroute : Route.ofPath? (decoded r.path.toList) = none := by
    rw [hpath, Route.ofPath?_entries_resolve_of_not_isSegment hkey]
  have hlast : (decoded r.path.toList).getLast? ≠ some '/' := by
    rw [hpath, String.toList_append, List.getLast?_append_of_ne_nil _ (by decide)]
    decide
  exact serve_eq_notFound settings e hmethod (by decide) hroute hlast

end

/-- **What is listed is reached just if its key is one segment of a path.** For every engine, and
every key of its registry: the key can be spelled in paths, and a listing has one item about it, if
phrases go by the keys under which they stand, as in all registries that are published. However it
is spelled, if it is not empty and has no slashes, a request for its entry is answered with that
item, and a request for its resolution does not miss it, whatever the body is. For every other key
no request for the entry succeeds, and all requests for the resolution are answered that nothing was
found. -/
theorem listed_reached_iff [Text.Surrogates] (settings : Settings) (e : Engine) {key : String}
    {entry : Entry} (hentry : e.registry.get? key = some entry) {listing : Request}
    (hlisting : listing.method.map Char.toUpper = "GET")
    (hpath : decoded listing.path.toList = "/api/v1/entries".toList) :
    Spells (encoded (encoded key)) key ∧ ('%' ∉ key.toList → Spells (encoded key) key) ∧
      ∃ item, (e.registry.Keyed → (serve settings e listing).response.itemsOf key = [item]) ∧
        ∀ spelling, Spells spelling key → ∀ get post : Request,
          get.method.map Char.toUpper = "GET" → get.path = "/api/v1/entries/" ++ spelling →
          post.method.map Char.toUpper = "POST" →
          post.path = "/api/v1/entries/" ++ spelling ++ "/resolve" →
          ((serve settings e get).response.status = 200 ↔ IsSegment key) ∧
            (IsSegment key → (serve settings e get).response = .json 200 item ∧
              (serve settings e post).response.status ≠ 404) ∧
            (¬ IsSegment key → (serve settings e get).response.status ∈ [307, 404, 405] ∧
              (serve settings e post).response = detail 404 "Not Found") := by
  refine ⟨spells_encoded_encoded key, spells_encoded,
    shown (EntryInfo.ofEntry key entry).toValue, ?_, ?_⟩
  · intro hkeyed
    rw [serve_listing settings e hlisting hpath, itemsOf_listing hkeyed hentry]
  · intro spelling hspelling get post hget hgetPath hpost hpostPath
    have hentryPath : decoded get.path.toList = ("/api/v1/entries/" ++ key).toList := by
      rw [hgetPath, hspelling.entry]
    have hresolutionPath : decoded post.path.toList =
        ("/api/v1/entries/" ++ key ++ "/resolve").toList := by
      rw [hpostPath, hspelling.resolution]
    by_cases hkey : IsSegment key
    · have hresponse := serve_entry settings e hentry hkey hget hentryPath
      have hreached : (serve settings e get).response.status = 200 := by
        rw [hresponse]
        rfl
      exact ⟨iff_of_true hreached hkey, fun _ => ⟨hresponse,
        status_serve_resolution_ne settings e hentry hkey hpost hresolutionPath⟩,
        fun h => absurd hkey h⟩
    · have hmissed := status_serve_entry_of_not_isSegment settings e hkey hget hentryPath
      have hnot : (serve settings e get).response.status ≠ 200 := by
        intro h
        rw [h] at hmissed
        exact absurd hmissed (by decide)
      refine ⟨iff_of_false hnot hkey, fun h => absurd h hkey, fun _ => ⟨hmissed, ?_⟩⟩
      rw [serve_resolution_of_not_isSegment settings e hkey hpost hresolutionPath]

/-- The greeting of a desk is listed and reached. -/
theorem listed_reached_iff_greeting :
    let listing : Request := ⟨"GET", "/api/v1/entries", .absent⟩
    let get : Request := ⟨"GET", "/api/v1/entries/" ++ encoded "greeting", .absent⟩
    ∃ item, (serve .default desk listing).response.itemsOf "greeting" = [item] ∧
      (serve .default desk get).response = .json 200 item := by
  intro listing get
  let post : Request := ⟨"POST", "/api/v1/entries/" ++ encoded "greeting" ++ "/resolve", .absent⟩
  have hentry : desk.registry.get? "greeting" = some (.constant (.text "Hello")) := rfl
  have hget : ("GET" : String).map Char.toUpper = "GET" := map_toUpper_eq_self (by decide)
  have hpost : ("POST" : String).map Char.toUpper = "POST" := map_toUpper_eq_self (by decide)
  have hlisting : listing.method.map Char.toUpper = "GET" := hget
  have hpath : decoded listing.path.toList = "/api/v1/entries".toList := by
    show decoded "/api/v1/entries".toList = _
    exact decoded_of_isPlain (c := 'a') (by decide) (by decide)
  obtain ⟨-, hspells, item, hitems, hreached⟩ :=
    listed_reached_iff .default desk hentry hlisting hpath
  obtain ⟨-, hsegment, -⟩ :=
    hreached (encoded "greeting") (hspells (by decide)) get post hget rfl hpost rfl
  have hkeyed : desk.registry.Keyed := by
    intro key p h
    have hmem : (key, Entry.phrase p) ∈ desk.registry.entries.entries :=
      OrderedMap.get?_eq_some_iff.1 h
    cases List.mem_singleton.1 hmem
  exact ⟨item, hitems hkeyed, (hsegment (by decide)).1⟩

/-- A blueprint with a text whose key is a path. -/
def paths : Blueprint :=
  ⟨.ofList [("paths", .ofList [("a/b", .text "X")])], .empty⟩

/-- **A key with a slash is listed once its blueprint is activated, and is not reached.** -/
theorem not_listed_reached :
    ¬ ∀ (settings : Settings) (b : Blueprint) (language : Option String) (key : String)
      (entry : Entry) (r : Request),
      let e := ((Engine.create settings (.ofOffers none none) none).activate b language).engine
      e.registry.get? key = some entry → key ≠ "" → r.method.map Char.toUpper = "GET" →
      r.path = "/api/v1/entries/" ++ encoded key → (serve settings e r).response.status = 200 := by
  intro hlisted
  let e := ((Engine.create .default (.ofOffers none none) none).activate paths none).engine
  let get : Request := ⟨"GET", "/api/v1/entries/" ++ encoded "a/b", .absent⟩
  have hget : ("GET" : String).map Char.toUpper = "GET" := map_toUpper_eq_self (by decide)
  have hpath : decoded get.path.toList = ("/api/v1/entries/" ++ "a/b").toList :=
    (spells_encoded (by decide)).entry
  have hentry : e.registry.get? "a/b" = some (.constant (.text "X")) := rfl
  have hreached : (serve .default e get).response.status = 200 :=
    hlisted .default paths none "a/b" _ get hentry (by decide) hget rfl
  have hmissed := status_serve_entry_of_not_isSegment .default e (by decide) hget hpath
  rw [hreached] at hmissed
  exact absurd hmissed (by decide)

end Http

end Phrasebook
