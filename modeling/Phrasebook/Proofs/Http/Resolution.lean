import Phrasebook.Proofs.Blueprint.Fields
import Phrasebook.Proofs.Engine.Taxonomy
import Phrasebook.Proofs.Http.Objects
import Phrasebook.Proofs.Http.Refusal
import Phrasebook.Proofs.Http.Routing
import Phrasebook.Proofs.Text.Surrogates

/-! Queries that come as requests. A key without slashes in the path of a resolution is the key that
is asked for (`Route.ofPath?_resolution`), an object of parameters is the bag that is resolved with
(`exists_params`), and the answer tells how the query ended (`respond_resolution`): that the key has
no entry, that its holders go wrong, or what its text is. The service fails only where a condition
compares an integer that is too large for a floating-point number, and where what it has to tell
cannot be encoded. -/

namespace Phrasebook

namespace Http

theorem checkBag_ofBag (bag : Bag) : checkBag (.ofBag bag) = .ok bag :=
  @Value.checkMap_written Value .ok id bag fun _ _ => rfl

/-- An object of parameters in a body is a bag. -/
theorem exists_params [Text.Surrogates] {body : Body} {members entries : List (Value × Value)}
    (hbody : body.read = .ok (some (.map members)))
    (hparams : Value.field? "params" members = some (.map entries)) :
    ∃ params : Bag, .map entries = Value.ofBag params := by
  have hjson := Value.isJson_of_field? (Body.isJson_of_read hbody) hparams
  obtain ⟨params, hbag, -⟩ := Value.isJson_map_iff.1 hjson
  exact ⟨params, hbag⟩

theorem resolutionRequest_of_params {members : List (Value × Value)} {params : Bag}
    (h : Value.field? "params" members = some (.ofBag params)) :
    resolutionRequest (.map members) = .ok params := by
  simp only [resolutionRequest, checkObject, h, checkBag_ofBag]
  rfl

/-- **A key without slashes is found in the path of its resolution.** -/
theorem Route.ofPath?_resolution {key : String} (hkey : key ≠ "") (hslash : '/' ∉ key.toList) :
    ofPath? ("/api/v1/entries/" ++ key ++ "/resolve").toList = some (.resolution key) := by
  rw [ofPath?_entries_resolve, Text.splitOn_eq_singleton hslash]
  simp [versioned?, endsWith, hkey]

/-! ### Answers -/

/-- The status of the answer to a query that ends this way. -/
def queryStatus : Except Error Value → Nat
  | .ok _ => 200
  | .error (.unknownEntry _) => 404
  | .error (.resolve (.holder _)) => 409
  | .error _ => 500

/-- The status tells how the query ended. -/
theorem queryStatus_iff {result : Except Error Value} {key : String}
    (h : (∃ v, result = .ok v) ∨ result = .error (.unknownEntry key) ∨
      ∃ x, result = .error (.resolve x)) :
    (queryStatus result = 404 ↔ result = .error (.unknownEntry key)) ∧
      (queryStatus result = 409 ↔ ∃ y, result = .error (.resolve (.holder y))) ∧
      (queryStatus result = 500 ↔ result = .error (.resolve (.number .tooLarge))) ∧
      (queryStatus result ∉ [404, 409, 500] → ∃ v, result = .ok v) := by
  rcases h with ⟨v, rfl⟩ | rfl | ⟨x, rfl⟩
  · simp [queryStatus]
  · simp [queryStatus]
  · cases x with
    | holder y => simp [queryStatus]
    | number n =>
        cases n
        simp [queryStatus]

section

variable (settings : Settings) (e : Engine) {key : String} {params : Bag}

theorem status_resolved : (resolved e settings key params).response.status =
    queryStatus (e.resolve settings key params).result := by
  unfold resolved
  dsimp only
  cases (e.resolve settings key params).result with
  | ok v => rfl
  | error x =>
      cases x with
      | resolve y => cases y <;> rfl
      | _ => rfl

theorem response_resolved_of_ok {v : Value} (h : (e.resolve settings key params).result = .ok v) :
    (resolved e settings key params).response = ok (object [("key", .text key), ("text", v),
      ("params", .ofBag (e.resolve settings key params).bag)]) := by
  simp only [resolved, h]

/-- A request for the resolution of a key, with an object of parameters, is a query for that key
with these parameters. -/
theorem serve_eq_resolved [Text.Surrogates] {r : Request} {members : List (Value × Value)}
    (hkey : key ≠ "") (hslash : '/' ∉ key.toList) (hmethod : r.method.map Char.toUpper = "POST")
    (hpath : decoded r.path.toList = ("/api/v1/entries/" ++ key ++ "/resolve").toList)
    (hbody : r.body.read = .ok (some (.map members)))
    (hparams : Value.field? "params" members = some (.ofBag params)) :
    serve settings e r = resolved e settings key params := by
  have hroute : Route.ofPath? (decoded r.path.toList) = some (.resolution key) := by
    rw [hpath, Route.ofPath?_resolution hkey hslash]
  have htakes : "POST" ∈ (Route.resolution key).methods := List.mem_singleton_self _
  rw [serve_eq_answer settings e hmethod hroute htakes, answer]
  simp only [hbody, checkBody, resolutionRequest_of_params hparams]
  rfl

end

/-! ### Answers that are sent -/

section

variable [Text.Surrogates]

theorem isEncodable_detail (status : Nat) (reason : String) :
    (detail status reason).isEncodable = Text.isEncodable reason := by
  have hname : Text.isEncodable "detail" = true := Text.isEncodable_of_forall_lt (by simp)
  simp [detail, object, Response.isEncodable, isEncodable, haveEncodable, hname]

/-- That there is no entry can always be told. -/
theorem isEncodable_unknownEntry (key : String) :
    (detail 404 (Error.unknownEntry key).message).isEncodable = true := by
  have hfront : Text.isEncodable "Unknown entry: " = true :=
    Text.isEncodable_of_forall_lt (by simp)
  have hmessage : (Error.unknownEntry key).message = "Unknown entry: " ++ Text.quoted key := rfl
  rw [isEncodable_detail, hmessage, Text.isEncodable_append, hfront, Text.isEncodable_quoted,
    Bool.and_true]

/-- What cannot be encoded of a resolution is the message about its holders, or its text with the
parameters. -/
theorem isEncodable_resolved_eq_false_iff (settings : Settings) (e : Engine) (key : String)
    (params : Bag) : (resolved e settings key params).response.isEncodable = false ↔
      (∃ y, (e.resolve settings key params).result = .error (.resolve (.holder y)) ∧
        Text.isEncodable y.message = false) ∨
      ∃ v, (e.resolve settings key params).result = .ok v ∧
        (ok (object [("key", .text key), ("text", v),
          ("params", .ofBag (e.resolve settings key params).bag)])).isEncodable = false := by
  unfold resolved
  dsimp only
  rcases e.resolve_cases settings key params with ⟨v, hv⟩ | hunknown | ⟨x, hx⟩
  · simp [hv]
  · simp [hunknown, isEncodable_unknownEntry]
  · cases x with
    | holder y => simp [hx, isEncodable_detail]
    | number n => simp [hx, Response.isEncodable]

/-- **How a resolution is answered.** A request for the resolution of a key, with any object of
parameters, changes nothing. It is answered that nothing is found just if the key has no entry, and
that there is a conflict just if holders go wrong and the message about them can be encoded. The
service fails just if an integer is too large to be compared, or if that message or the text with
its parameters cannot be encoded; and else the answer is the text, with the parameters as the
resolution leaves them. So the service does not fail while all integers convert to floating-point
numbers and the answer can be encoded. -/
theorem respond_resolution (settings : Settings) (e : Engine) {r : Request} {key : String}
    {members entries : List (Value × Value)} (hkey : key ≠ "") (hslash : '/' ∉ key.toList)
    (hmethod : r.method.map Char.toUpper = "POST")
    (hpath : decoded r.path.toList = ("/api/v1/entries/" ++ key ++ "/resolve").toList)
    (hbody : r.body.read = .ok (some (.map members)))
    (hparams : Value.field? "params" members = some (.map entries)) :
    ∃ params : Bag, .map entries = Value.ofBag params ∧
      let x := respond settings e r
      let reply := e.resolve settings key params
      let told := fun v =>
        ok (object [("key", .text key), ("text", v), ("params", .ofBag reply.bag)])
      x.engine = e ∧
        (x.response.status = 404 ↔ e.registry.get? key = none) ∧
        (x.response.status = 409 ↔
          ∃ y, reply.result = .error (.resolve (.holder y)) ∧ Text.isEncodable y.message = true) ∧
        (x.response.status = 500 ↔ reply.result = .error (.resolve (.number .tooLarge)) ∨
          (∃ y, reply.result = .error (.resolve (.holder y)) ∧
            Text.isEncodable y.message = false) ∨
          ∃ v, reply.result = .ok v ∧ (told v).isEncodable = false) ∧
        (x.response.status ∉ [404, 409, 500] →
          ∃ v, reply.result = .ok v ∧ x.response = told v) ∧
        (e.InRange → params.InRange → (serve settings e r).response.isEncodable = true →
          x.response.status ≠ 500) := by
  obtain ⟨params, hbag⟩ := exists_params hbody hparams
  rw [hbag] at hparams
  refine ⟨params, hbag, ?_⟩
  intro x reply told
  have hserve : serve settings e r = resolved e settings key params :=
    serve_eq_resolved settings e hkey hslash hmethod hpath hbody hparams
  have hengine : x.engine = e := by
    rw [engine_respond, hserve, engine_resolved]
  obtain ⟨hnotFound, hconflict, hfailure, helse⟩ :=
    queryStatus_iff (e.resolve_cases settings key params)
  have hunknown : reply.result = .error (.unknownEntry key) ↔ e.registry.get? key = none := by
    rw [Engine.resolve_eq_unknownEntry_iff]
    exact and_iff_right rfl
  have hencoding := isEncodable_resolved_eq_false_iff settings e key params
  cases hencodable : (serve settings e r).response.isEncodable with
  | true =>
      have hx : x = resolved e settings key params := by
        rw [← hserve]
        exact respond_of_encodable settings e r hencodable
      have hstatus : x.response.status = queryStatus reply.result := by
        rw [hx, status_resolved]
      have hencoded : (resolved e settings key params).response.isEncodable ≠ false := by
        rw [← hserve, hencodable]
        nofun
      have htold := mt hencoding.2 hencoded
      rw [hstatus]
      refine ⟨hengine, hnotFound.trans hunknown, ?_, ?_, fun h => ?_, fun he hrange _ h => ?_⟩
      · rw [hconflict]
        constructor
        · rintro ⟨y, hy⟩
          exact ⟨y, hy, Bool.eq_true_of_not_eq_false fun h => htold (.inl ⟨y, hy, h⟩)⟩
        · rintro ⟨y, hy, -⟩
          exact ⟨y, hy⟩
      · rw [hfailure]
        exact (or_iff_left htold).symm
      · obtain ⟨v, hv⟩ := helse h
        exact ⟨v, hv, by rw [hx, response_resolved_of_ok settings e hv]⟩
      · exact Engine.resolve_ne_number he settings hrange (hfailure.1 h)
  | false =>
      have hresponse : x.response = .failure :=
        response_respond_of_not_encodable settings e r hencodable
      have hstatus : x.response.status = 500 := by
        rw [hresponse]
        rfl
      rw [hserve] at hencodable
      have huntold := hencoding.1 hencodable
      -- an error whose message cannot be encoded is one about holders
      have herror : ∀ z, reply.result = .error z →
          ∃ y, z = .resolve (.holder y) ∧ Text.isEncodable y.message = false := by
        intro z hz
        rcases huntold with ⟨y, hy, hmessage⟩ | ⟨v, hv, -⟩
        · cases hz.symm.trans hy
          exact ⟨y, rfl, hmessage⟩
        · cases hz.symm.trans hv
      rw [hstatus]
      refine ⟨hengine, ⟨nofun, fun h => ?_⟩, ⟨nofun, ?_⟩, iff_of_true rfl (.inr huntold),
        fun h => absurd (by simp) h, fun _ _ h => nomatch h⟩
      · obtain ⟨y, hy, -⟩ := herror _ (hunknown.2 h)
        cases hy
      · rintro ⟨y, hy, htrue⟩
        obtain ⟨z, hz, hfalse⟩ := herror _ hy
        cases hz
        rw [htrue] at hfalse
        cases hfalse

end

/-- A request for the level of some apples, of which there are many. -/
def levelQuery : Request :=
  ⟨"POST", "/api/v1/entries/level/resolve", .value (object [("params", .ofBag Engine.apples)])⟩

/-- The level is told. -/
theorem respond_resolution_level :
    (respond .default .stock levelQuery).response.status ∉ [404, 409, 500] ∧
      ∃ (params : Bag) (v : Value), Value.ofBag Engine.apples = Value.ofBag params ∧
        (Engine.stock.resolve .default "level" params).result = .ok v ∧
        (respond .default .stock levelQuery).response =
          ok (object [("key", .text "level"), ("text", v),
            ("params", .ofBag (Engine.stock.resolve .default "level" params).bag)]) := by
  have hmethod : levelQuery.method.map Char.toUpper = "POST" := by decide +kernel
  have hpath : decoded levelQuery.path.toList =
      ("/api/v1/entries/" ++ "level" ++ "/resolve").toList := by decide +kernel
  have hbody : levelQuery.body.read = .ok (some (object [("params", .ofBag Engine.apples)])) := rfl
  have hanswered : (respond .default .stock levelQuery).response.status ∉ [404, 409, 500] := by
    decide +kernel
  obtain ⟨params, hbag, -, -, -, -, htold, -⟩ :=
    respond_resolution .default .stock (by decide) (by decide) hmethod hpath hbody rfl
  obtain ⟨v, hv, hresponse⟩ := htold hanswered
  exact ⟨hanswered, params, v, hbag, hv, hresponse⟩

/-- A blueprint with a text, and another one for a count that is a certain word. -/
def countActivation : Request :=
  ⟨"PUT", "/api/v1/language", .value (object [("blueprint", object [("Dynamic", object
    [("counts", object [("count", object [("value", .text "Some"),
      ("conditions", object [("\x7bcount\x7d == 'none'", .text "None")])])])])])])⟩

/-- A request for the text, with a count that is too large for a floating-point number. -/
def countQuery : Request :=
  ⟨"POST", "/api/v1/entries/count/resolve",
    .value (object [("params", object [("count", .int (10 ^ 400))])])⟩

/-- **Requests alone lead to a resolution that the service fails for.** -/
theorem not_respond_resolution_unfailing :
    ¬ ∀ (settings : Settings) (rs : List Request) (r : Request) (key : String)
      (members entries : List (Value × Value)), key ≠ "" → '/' ∉ key.toList →
      r.method.map Char.toUpper = "POST" →
      decoded r.path.toList = ("/api/v1/entries/" ++ key ++ "/resolve").toList →
      r.body.read = .ok (some (.map members)) →
      Value.field? "params" members = some (.map entries) →
      (respond settings (run settings (.create settings (.ofOffers none none) none) rs)
        r).response.status ≠ 500 := by
  intro hunfailing
  have hfails : (respond .default (run .default (.create .default (.ofOffers none none) none)
      [countActivation]) countQuery).response.status = 500 := by
    decide +kernel
  have hmethod : countQuery.method.map Char.toUpper = "POST" := by decide +kernel
  have hpath : decoded countQuery.path.toList =
      ("/api/v1/entries/" ++ "count" ++ "/resolve").toList := by decide +kernel
  have hbody : countQuery.body.read =
      .ok (some (object [("params", .ofBag (.ofList [("count", .int (10 ^ 400))]))])) := rfl
  exact hunfailing .default [countActivation] countQuery "count" _ _ (by decide) (by decide)
    hmethod hpath hbody rfl hfails

end Http

end Phrasebook
