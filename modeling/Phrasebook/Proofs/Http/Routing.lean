import Phrasebook.Http.Service

/-! Routing. Behind the version of the interface a path is the row of its segments
(`Route.ofPath?_versioned`), and the segments of a key stand behind the word for entries
(`Route.ofPath?_entries`). A request whose route takes its method is what the route answers
(`serve_eq_answer`); where the method is another one, or there is no route, nothing is looked up
(`serve_eq_notAllowed`, `serve_eq_notFound`). -/

namespace Phrasebook.Http

namespace Route

/-- Behind the version a route is found by the segments of the rest. -/
theorem ofPath?_versioned (rest : String) : ofPath? ("/api/v1/" ++ rest).toList =
    versioned? ((Text.splitOn '/' rest.toList).map String.ofList) := by
  have hpath : ("/api/v1/" ++ rest).toList =
      [] ++ '/' :: ("api".toList ++ '/' :: ("v1".toList ++ '/' :: rest.toList)) :=
    String.toList_append
  rw [ofPath?, hpath, Text.splitOn_append _ List.not_mem_nil, Text.splitOn_append _ (by decide),
    Text.splitOn_append _ (by decide)]
  rfl

/-- The path of the listing. -/
theorem ofPath?_listing : ofPath? "/api/v1/entries".toList = some .entries := by
  have hpieces : Text.splitOn '/' "entries".toList = ["entries".toList] :=
    Text.splitOn_eq_singleton (by decide)
  have hroute := ofPath?_versioned "entries"
  rw [hpieces] at hroute
  exact hroute

theorem ofPath?_entries (key : String) : ofPath? ("/api/v1/entries/" ++ key).toList =
    versioned? ("entries" :: (Text.splitOn '/' key.toList).map String.ofList) := by
  have hpath : "/api/v1/entries/" ++ key = "/api/v1/" ++ ("entries/" ++ key) := by
    rw [← String.toList_inj]
    simp
  have hrest : ("entries/" ++ key).toList = "entries".toList ++ '/' :: key.toList := by
    simp
  rw [hpath, ofPath?_versioned, hrest, Text.splitOn_append _ (by decide)]
  rfl

theorem ofPath?_entries_resolve (key : String) :
    ofPath? ("/api/v1/entries/" ++ key ++ "/resolve").toList =
      versioned? ("entries" :: (Text.splitOn '/' key.toList).map String.ofList ++ ["resolve"]) := by
  have hpath : "/api/v1/entries/" ++ key ++ "/resolve" =
      "/api/v1/entries/" ++ (key ++ "/resolve") := by
    rw [← String.toList_inj]
    simp
  have hrest : (key ++ "/resolve").toList = key.toList ++ '/' :: "resolve".toList := by
    simp
  have hresolve : Text.splitOn '/' "resolve".toList = ["resolve".toList] :=
    Text.splitOn_eq_singleton (by decide)
  rw [hpath, ofPath?_entries, hrest, Text.splitOn_append_cons, hresolve, List.map_append]
  rfl

end Route

/-- A method in capitals stays as it is. -/
theorem map_toUpper_eq_self {method : String}
    (h : method.toList.map Char.toUpper = method.toList) : method.map Char.toUpper = method := by
  rw [← String.toList_inj, String.toList_map, h]

section

variable [Text.Surrogates] (settings : Settings) (e : Engine) {r : Request} {target : Route}
  {method : String}

/-- A request is answered by its route, if that takes its method. -/
theorem serve_eq_answer (hmethod : r.method.map Char.toUpper = method)
    (hroute : Route.ofPath? (decoded r.path.toList) = some target)
    (htakes : method ∈ target.methods) :
    serve settings e r = answer settings e method target r.body := by
  have htarget : Target.ofSent r.path = .route target := by
    simp only [Target.ofSent, hroute]
  have hhead : method ≠ "HEAD" := by
    rintro rfl
    cases target <;> simp [Route.methods] at htakes
  rw [serve, hmethod, if_neg hhead, route, htarget]
  exact if_pos htakes

/-- A route does not answer requests of other methods. -/
theorem serve_eq_notAllowed (hmethod : r.method.map Char.toUpper = method) (hhead : method ≠ "HEAD")
    (hroute : Route.ofPath? (decoded r.path.toList) = some target)
    (htakes : method ∉ target.methods) :
    serve settings e r = ⟨detail 405 "Method Not Allowed", e, []⟩ := by
  have htarget : Target.ofSent r.path = .route target := by
    simp only [Target.ofSent, hroute]
  rw [serve, hmethod, if_neg hhead, route, htarget]
  exact if_neg htakes

/-- A path without a route that does not end in a slash leads nowhere. -/
theorem serve_eq_notFound (hmethod : r.method.map Char.toUpper = method) (hhead : method ≠ "HEAD")
    (hroute : Route.ofPath? (decoded r.path.toList) = none)
    (hlast : (decoded r.path.toList).getLast? ≠ some '/') :
    serve settings e r = ⟨detail 404 "Not Found", e, []⟩ := by
  have htarget : Target.ofSent r.path = .nowhere := by
    simp [Target.ofSent, hroute, hlast]
  rw [serve, hmethod, if_neg hhead, route, htarget]

omit [Text.Surrogates] in
/-- A path without a route leads nowhere, or on to another path. -/
theorem ofSent_of_not_routed {path : String} (hroute : Route.ofPath? (decoded path.toList) = none) :
    Target.ofSent path = .redirect ∨ Target.ofSent path = .nowhere := by
  simp only [Target.ofSent, hroute]
  split
  · exact .inl rfl
  · exact .inr rfl

theorem status_serve_of_not_routed (hroute : Route.ofPath? (decoded r.path.toList) = none) :
    (serve settings e r).response.status ∈ [307, 404] := by
  unfold serve route
  rcases ofSent_of_not_routed hroute with h | h
  · rw [h]
    dsimp only
    split <;> exact List.mem_cons_self
  · rw [h]
    dsimp only
    split <;> exact List.mem_cons_of_mem _ List.mem_cons_self

end

end Phrasebook.Http
