import Phrasebook.Http.Path
import Phrasebook.Text.Split

/-! Routes: what the paths of the service lead to, and the methods that each of them takes. A path
with slashes too many at its end is sent on to the one without them. -/

namespace Phrasebook.Http

inductive Route
  | health
  | activation
  | language (code : String)
  | languageActivation (code : String)
  | entries
  | entry (key : String)
  | resolution (key : String)
  | defaults (store : String)
  | default (store name : String)
  deriving DecidableEq

namespace Route

/-- A fixed last segment; one line break behind it does not count. -/
def endsWith (word segment : String) : Bool :=
  segment = word || segment = word ++ "\n"

/-- The route of the segments behind the version of the interface. -/
def versioned? : List String → Option Route
  | [a] =>
      if endsWith "language" a then some .activation
      else if endsWith "entries" a then some .entries
      else none
  | [a, b] =>
      if b.isEmpty then none
      else if a = "languages" then some (.language b)
      else if a = "entries" then some (.entry b)
      else if a = "defaults" then some (.defaults b)
      else none
  | [a, b, c] =>
      if b.isEmpty then none
      else if a = "languages" && endsWith "activate" c then some (.languageActivation b)
      else if a = "entries" && endsWith "resolve" c then some (.resolution b)
      else if a = "defaults" && !c.isEmpty then some (.default b c)
      else none
  | _ => none

/-- The route of a decoded path. -/
def ofPath? (path : List Char) : Option Route :=
  match (Text.splitOn '/' path).map String.ofList with
  | ["", a] => if endsWith "health" a then some .health else none
  | "" :: "api" :: "v1" :: rest => versioned? rest
  | _ => none

/-- The methods a route takes. -/
def methods : Route → List String
  | health => ["GET"]
  | activation => ["PUT"]
  | language _ => ["PUT"]
  | languageActivation _ => ["POST"]
  | entries => ["GET"]
  | entry _ => ["GET"]
  | resolution _ => ["POST"]
  | defaults _ => ["GET", "PUT", "PATCH", "DELETE"]
  | default _ _ => ["PUT", "DELETE"]

end Route

/-- Where a path leads: to a route, to the same path without the slashes at its end, or nowhere. -/
inductive Target
  | route (r : Route)
  | redirect
  | nowhere
  deriving DecidableEq

def withoutTrailingSlashes (path : List Char) : List Char :=
  (path.reverse.dropWhile (· = '/')).reverse

/-- Where a path leads as it was sent. -/
def Target.ofSent (sent : String) : Target :=
  let path := decoded sent.toList
  match Route.ofPath? path with
  | some r => .route r
  | none =>
      if path.getLast? = some '/' && (Route.ofPath? (withoutTrailingSlashes path)).isSome then
        .redirect
      else .nowhere

end Phrasebook.Http
