import Phrasebook.Engine
import Phrasebook.Http.Route

/-! The service: requests answered by an engine. A request is refused before it reaches the engine
when no route takes it or when its path or body is not as the route needs them; an error that no
answer is foreseen for is a failure of the service. What is answered (`serve`) still has to be
encoded, after all that the request asks for was done; an answer that cannot be encoded is a failure
too (`respond`). -/

namespace Phrasebook.Http

/-- The body of a request: none, a text, or a value sent as JSON. -/
inductive Body
  | absent
  | text (s : String)
  | value (v : Value)

structure Request where
  method : String
  path : String
  body : Body

inductive Response
  | json (status : Nat) (v : Value)
  | invalid (issues : List Issue)
  | empty (status : Nat)
  | failure

def Response.status : Response → Nat
  | json status _ => status
  | invalid _ => 422
  | empty status => status
  | failure => 500

/-- What a request gives: the response, the engine afterwards and the log. -/
structure Exchange where
  response : Response
  engine : Engine
  log : Log

/-! ### Answers -/

/-- The name of a key in the JSON object of an answer; a number that is not finite has the name of
null. -/
def answerKey : Value → String
  | .bool b => if b then "true" else "false"
  | .real x => if x.isFinite then x.text else Value.plain .null
  | v => v.plain

/-- The name of a key in the JSON object of a request. -/
def requestKey : Value → String
  | .null => "null"
  | .real (.nan _) => "NaN"
  | .real (.infinite negative) => if negative then "-Infinity" else "Infinity"
  | v => answerKey v

mutual

/-- A value as JSON carries it: the keys of maps are names, and of equal names the last one
counts; all that is no number is one and the same. -/
def carried (key : Value → String) : Value → Value
  | .real (.nan _) => .real (.nan 0)
  | .list items => .list (carriedItems key items)
  | .map entries => Value.ofEntries (carriedEntries key entries)
  | v => v

def carriedItems (key : Value → String) : List Value → List Value
  | [] => []
  | v :: vs => carried key v :: carriedItems key vs

def carriedEntries (key : Value → String) : List (Value × Value) → List (Value × Value)
  | [] => []
  | (k, v) :: rest => (.text (key k), carried key v) :: carriedEntries key rest

end

mutual

/-- A value without numbers that are not finite, which an answer does not show. -/
def finite : Value → Value
  | .real x => if x.isFinite then .real x else .null
  | .list items => .list (finiteItems items)
  | .map entries => .map (finiteEntries entries)
  | v => v

def finiteItems : List Value → List Value
  | [] => []
  | v :: vs => finite v :: finiteItems vs

def finiteEntries : List (Value × Value) → List (Value × Value)
  | [] => []
  | (k, v) :: rest => (k, finite v) :: finiteEntries rest

end

/-- Whether a member is left out where the data of an issue is shown. -/
def isReserved : Value → Bool
  | .text name => "_sa".toList.isPrefixOf name.toList
  | _ => false

mutual

/-- Whether data can be shown with an issue: all its numbers are finite, members that are left out
aside. -/
def isShowable : Value → Bool
  | .real x => x.isFinite
  | .list items => areShowable items
  | .map entries => haveShowable entries
  | _ => true

def areShowable : List Value → Bool
  | [] => true
  | v :: vs => isShowable v && areShowable vs

def haveShowable : List (Value × Value) → Bool
  | [] => true
  | (k, v) :: rest => (isReserved k || isShowable v) && haveShowable rest

end

/-- An object with these members. -/
def object (members : List (String × Value)) : Value :=
  .map (members.map fun m => (.text m.1, m.2))

/-- An answer of success, which is still to be encoded. -/
def ok (v : Value) : Response :=
  .json 200 (finite (carried answerKey v))

/-- A refusal with its reason. -/
def detail (status : Nat) (reason : String) : Response :=
  .json status (object [("detail", .text reason)])

/-- The response to data with issues. It shows that data, and fails where it cannot. -/
def refused (issues : List Issue) : Response :=
  if issues.all (isShowable ·.data) then .invalid issues else .failure

def textOrNull (s : Option String) : Value :=
  (s.map Value.text).getD .null

variable [Text.Surrogates]

/-! ### Encoding answers -/

mutual

/-- Whether a value can be encoded: all its texts can, members that are left out aside. -/
def isEncodable (leftOut : Value → Bool) : Value → Bool
  | .text s => Text.isEncodable s
  | .list items => areEncodable leftOut items
  | .map entries => haveEncodable leftOut entries
  | _ => true

def areEncodable (leftOut : Value → Bool) : List Value → Bool
  | [] => true
  | v :: vs => isEncodable leftOut v && areEncodable leftOut vs

def haveEncodable (leftOut : Value → Bool) : List (Value × Value) → Bool
  | [] => true
  | (k, v) :: rest =>
      (leftOut k || isEncodable leftOut k && isEncodable leftOut v) && haveEncodable leftOut rest

end

def isEncodablePlace : Place → Bool
  | .key name => Text.isEncodable name
  | .index _ => true

/-- Whether a response can be encoded. Issues are shown with their places and data. -/
def Response.isEncodable : Response → Bool
  | json _ v => Http.isEncodable (fun _ => false) v
  | invalid issues =>
      issues.all fun i => i.location.all isEncodablePlace && Http.isEncodable isReserved i.data
  | empty _ => true
  | failure => true

/-- What is sent of an exchange: a response that cannot be encoded fails, and what was done for it
stays done. -/
def Exchange.sent (x : Exchange) : Exchange :=
  if x.response.isEncodable then x else { x with response := .failure }

/-! ### Reading bodies -/

/-- The value of a body, or the response to a body that has none. -/
def Body.read : Body → Except Response (Option Value)
  | absent => .ok none
  | value v => .ok (some (carried requestKey v))
  | text s =>
      if s.isEmpty then .ok none
      else
        let bytes := Text.utf8Bytes s
        let unreadable := .error (detail 400 "There was an error parsing the body")
        match (Text.Encoding.guess bytes).decode? bytes with
        | none => unreadable
        | some cs =>
            match Json.read cs with
            | .ok v => .ok (some v)
            | .error (.malformed position) =>
                .error (refused [⟨.notJson, [.key "body", .index position], object []⟩])
            | .error .oversizedNumber => unreadable

/-- Check a body; a route that reads one needs one. -/
def checkBody {α : Type} (check : Value → Checked α) : Option Value → Checked α
  | none => Checked.fail .missing [.key "body"] .null
  | some v => (check v).under (.key "body")

/-- Check the members of an object. -/
def checkObject {α : Type} (check : List (Value × Value) → Checked α) : Value → Checked α
  | .map entries => check entries
  | v => Checked.fail .notObject [] v

/-- Check a member that has to be there. -/
def required {α : Type} (name : String) (check : Value → Checked α)
    (entries : List (Value × Value)) : Checked α :=
  match Value.field? name entries with
  | none => Checked.fail .missing [.key name] (.map entries)
  | some v => (check v).under (.key name)

def checkBlueprint : Value → Checked Blueprint :=
  Blueprint.check fun _ => .notObject

def checkBag : Value → Checked Bag :=
  Value.checkMap .ok

def checkOptionalText : Value → Checked (Option String)
  | .null => .ok none
  | .text s => .ok (some s)
  | v => Checked.fail .notText [] v

/-- A blueprint to activate, with its language. -/
def activationRequest : Value → Checked (Blueprint × Option String) :=
  checkObject fun entries =>
    Checked.both Prod.mk (required "blueprint" checkBlueprint entries)
      ((checkOptionalText ((Value.field? "language" entries).getD .null)).under (.key "language"))

/-- The parameters of a resolution; left out they are none. -/
def resolutionRequest : Value → Checked Bag :=
  checkObject fun entries =>
    match Value.field? "params" entries with
    | none => .ok .empty
    | some v => (checkBag v).under (.key "params")

def valuesRequest : Value → Checked Bag :=
  checkObject (required "values" checkBag)

/-- A value for a single name: a text or a number; a truth value counts as a number. -/
def singleValue : Value → Checked Value
  | .text s => .ok (.text s)
  | .int n => .ok (.int n)
  | .real x => .ok (.real x)
  | .bool b => .ok (.int (if b then 1 else 0))
  | v =>
      .error (.issues [⟨.notText, [.key "str"], v⟩, ⟨.notInteger, [.key "int"], v⟩,
        ⟨.notReal, [.key "float"], v⟩])

def valueRequest : Value → Checked Value :=
  checkObject (required "value" singleValue)

/-- The store that a path names. -/
def checkStore (word : String) : Checked StoreName :=
  match StoreName.ofWord? word with
  | some name => .ok name
  | none => Checked.fail .notStore [.key "path", .key "store"] (.text word)

/-! ### Handling -/

/-- Go on with what a check gives. -/
def checked {α : Type} (e : Engine) (r : Checked α) (handle : α → Exchange) : Exchange :=
  match r with
  | .ok a => handle a
  | .error (.issues l) => ⟨refused l, e, []⟩
  | .error (.misuse _) => ⟨.failure, e, []⟩

/-- The response to an activation. -/
def activated (step : Engine.Step Registry) : Exchange :=
  match step.result with
  | .ok r =>
      ⟨ok (object [("language", textOrNull r.language), ("total_entries", .int r.size)]),
        step.engine, step.log⟩
  | .error (.unknownLanguage l) =>
      ⟨detail 404 (Error.unknownLanguage l).message, step.engine, step.log⟩
  | .error _ => ⟨.failure, step.engine, step.log⟩

/-- The state of the service. -/
def health (e : Engine) : Value :=
  object [("status", .text "healthy"), ("language", textOrNull e.activeLanguage),
    ("entries", .int e.registry.size)]

def registered (e : Engine) (code : String) (b : Blueprint) : Exchange :=
  let (engine, log) := e.addLanguage code b
  ⟨ok (object [("language", .text code), ("default_language", .text engine.catalog.defaultLanguage),
    ("languages", .list (engine.catalog.languages.map .text))]), engine, log⟩

def described (e : Engine) (key : String) : Response :=
  match e.registry.describe key with
  | .ok info => ok info.toValue
  | .error x => detail 404 x.message

/-- The warning about a resolution that followed holders in vain. -/
def holderLine (key : String) (e : HolderError) : LogLine :=
  ⟨.warning, .requests, "[API] Holder resolution failed for " ++ key ++ ": " ++ e.message⟩

def resolved (e : Engine) (settings : Settings) (key : String) (params : Bag) : Exchange :=
  let reply := e.resolve settings key params
  match reply.result with
  | .ok v =>
      ⟨ok (object [("key", .text key), ("text", v), ("params", .ofBag reply.bag)]), e, reply.log⟩
  | .error (.unknownEntry k) => ⟨detail 404 (Error.unknownEntry k).message, e, reply.log⟩
  | .error (.resolve (.holder x)) => ⟨detail 409 x.message, e, reply.log ++ [holderLine key x]⟩
  | .error _ => ⟨.failure, e, reply.log⟩

/-- The values of a store. -/
def storeValues (e : Engine) (name : StoreName) : Response :=
  ok (object [("store", .text name.word), ("values", .ofBag (e.stores.slot name).inUse.values)])

def written (e : Engine) (name : StoreName) (w : Store.Write) : Exchange :=
  let (engine, log) := e.writeStore name .engine w
  ⟨storeValues engine name, engine, log⟩

/-- Answer a request whose route takes its method; routes without a body do not look at it. -/
def answer (settings : Settings) (e : Engine) (method : String) (route : Route) (body : Body) :
    Exchange :=
  let withBody := fun (handle : Option Value → Exchange) =>
    match body.read with
    | .error r => ⟨r, e, []⟩
    | .ok v => handle v
  match route with
  | .health => ⟨ok (health e), e, []⟩
  | .activation =>
      withBody fun v => checked e (checkBody activationRequest v) fun r =>
        activated (e.activate r.1 r.2)
  | .language code =>
      withBody fun v => checked e (checkBody checkBlueprint v) (registered e code)
  | .languageActivation code => activated (e.useLanguage (some code))
  | .entries => ⟨ok (Listing.ofRegistry e.registry).toValue, e, []⟩
  | .entry key => ⟨described e key, e, []⟩
  | .resolution key =>
      withBody fun v => checked e (checkBody resolutionRequest v) (resolved e settings key)
  | .defaults store =>
      if method = "GET" then
        checked e (checkStore store) fun name => ⟨storeValues e name, e, []⟩
      else if method = "DELETE" then checked e (checkStore store) (written e · .clear)
      else
        withBody fun v =>
          checked e (Checked.both Prod.mk (checkStore store) (checkBody valuesRequest v)) fun r =>
            written e r.1 (if method = "PUT" then .replace r.2 else .update r.2)
  | .default store name =>
      if method = "DELETE" then checked e (checkStore store) (written e · (.delete name))
      else
        withBody fun v =>
          checked e (Checked.both Prod.mk (checkStore store) (checkBody valueRequest v)) fun r =>
            written e r.1 (.set name r.2)

/-- Answer a request by its path and method, which is in capitals. -/
def route (settings : Settings) (e : Engine) (method : String) (r : Request) : Exchange :=
  match Target.ofSent r.path with
  | .nowhere => ⟨detail 404 "Not Found", e, []⟩
  | .redirect => ⟨.empty 307, e, []⟩
  | .route target =>
      if method ∈ target.methods then answer settings e method target r.body
      else ⟨detail 405 "Method Not Allowed", e, []⟩

/-- Answer a request; the answer is still to be encoded. Who asks for a head alone gets no body. -/
def serve (settings : Settings) (e : Engine) (r : Request) : Exchange :=
  let method := r.method.map Char.toUpper
  let x := route settings e method r
  if method = "HEAD" then { x with response := .empty x.response.status } else x

/-- Answer a request, and encode the answer. -/
def respond (settings : Settings) (e : Engine) (r : Request) : Exchange :=
  (serve settings e r).sent

end Phrasebook.Http
