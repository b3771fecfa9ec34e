import Quadpod.AdvertisedUrls
import Quadpod.Authentication
import Quadpod.HttpRead
import Quadpod.HttpWrite
import Quadpod.OpKeys
import Quadpod.PodRuns

namespace Quadpod

open AtomicProgram
open PercentEncoding

/-!
# A request from the wire to the wire

`router` of `http.rs` with its layers: `auth_layer` decides who asks, the route
table and the method decide which handler runs, and `cors_layer` sees every
response.  The texts of the refusals `axum` makes on its own (an unrouted method,
an undecodable path, a body over the limit) are not modelled, their statuses are.
-/

variable [IriSyntax]

/-! ## Requests -/

/-- A request as it came in, with its query and its body. -/
structure HttpRequest extends WireRequest where
  query : Option Text
  body : Bytes

/-- The field a handler reads under a name. -/
def HeaderName.ofText (name : Text) : Option HeaderName :=
  if name = "accept".toList then
    some .accept
  else if name = "content-type".toList then
    some .contentType
  else if name = "if-match".toList then
    some .ifMatch
  else if name = "if-none-match".toList then
    some .ifNoneMatch
  else if name = "slug".toList then
    some .slug
  else if name = "link".toList then
    some .link
  else
    none

/-- A field value as a response carries it on. -/
def HeaderValue.text (value : HeaderValue) : Text :=
  value.bytes.map fun byte => Char.ofNat byte.toNat

/-- The fields the handlers read. -/
def HttpRequest.fields (request : HttpRequest) : HeaderMap :=
  request.headers.filterMap fun field =>
    (HeaderName.ofText field.1).map fun name => (name, field.2.toStr)

/-- The methods the router has a handler for. -/
inductive Verb where
  | get
  | head
  | options
  | write (method : Method)
  deriving DecidableEq

/-- The method of a request, where a route can have it. -/
def Verb.ofText (name : Text) : Option Verb :=
  if name = "GET".toList then
    some .get
  else if name = "HEAD".toList then
    some .head
  else if name = "OPTIONS".toList then
    some .options
  else if name = "PUT".toList then
    some (.write .put)
  else if name = "POST".toList then
    some (.write .post)
  else if name = "PATCH".toList then
    some (.write .patch)
  else if name = "DELETE".toList then
    some (.write .delete)
  else
    none

/-! ## `OPTIONS` -/

section Options

variable {space : StorageSpace}

/-- `options_impl` -/
def optionsImpl
    (storeVersion : RdfVersion) (target : Target space)
    (request : HttpRequest) : Response :=
  let methods := allowedMethods target
  let answer :=
    (((((Response.ofStatus 204).insert "allow".toList methods).insert
      "access-control-allow-methods".toList methods).insert
        "accept-patch".toList "text/n3".toList).withAcceptWrite target
          "accept-put".toList .put storeVersion).withAcceptWrite target
            "accept-post".toList .post storeVersion
  match request.get "access-control-request-headers" with
  | some requested =>
      answer.insert "access-control-allow-headers".toList requested.text
  | none => answer

end Options

/-- `handle_options` and `handle_options_root` -/
def handleOptions
    (space : StorageSpace) (storeVersion : RdfVersion) (path : Text)
    (request : HttpRequest) : HttpProgram Response := do
  let target ← Program.ofExcept (classify space path)
  pure (optionsImpl storeVersion target request)

/-! ## The reserved documents -/

section WellKnown

variable [WireFormats] [Josekit] [JoseSigning]

/-- `alg_of` -/
def algOf (jwk : Josekit.Jwk) : Option Text :=
  match JoseSigning.algorithm jwk with
  | some algorithm => some algorithm
  | none =>
      if Josekit.keyType jwk = "EC".toList ∧
          Josekit.curve jwk = some "P-256".toList then
        some "ES256".toList
      else if Josekit.keyType jwk = "RSA".toList then
        some "RS256".toList
      else
        none

/-- `KeySet::signing_algs` -/
def KeySet.signingAlgs (set : KeySet) : List Text :=
  set.keys.foldl
    (fun algorithms key =>
      match algOf key with
      | some algorithm =>
          if algorithms.contains algorithm then
            algorithms
          else
            algorithms ++ [algorithm]
      | none => algorithms)
    []

/-- `discovery::document` -/
def discoveryDocument (space : StorageSpace) (keys : KeySet) : Json :=
  let issuer := graphIri space.root
  .object
    [("issuer".toList, .string issuer),
      ("jwks_uri".toList, .string (issuer ++ ".well-known/jwks.json".toList)),
      ("scopes_supported".toList,
        .array [.string "openid".toList, .string "webid".toList]),
      ("id_token_signing_alg_values_supported".toList,
        .array (keys.signingAlgs.map .string))]

/-- A document and its media type. -/
def Response.ofDocument (mediaType content : Text) : Response :=
  ⟨200, [("content-type".toList, mediaType)], Text.utf8 content⟩

/-- `handle_well_known`; an `expect` of `public_jwks` that does not hold is a
`500`. -/
def handleWellKnown
    (space : StorageSpace) (opKeys : Option KeySet) (name : Option Text) :
    Response :=
  if name = some "health".toList then
    .ofDocument "application/health+json".toList
      "\x7b\"status\":\"pass\"\x7d".toList
  else
    match opKeys with
    | none => .ofStatus 404
    | some keys =>
        if name = some "openid-configuration".toList then
          .ofDocument "application/json".toList
            (WireFormats.writeJson (discoveryDocument space keys))
        else if name = some "jwks.json".toList then
          match keys.publicJwks with
          | some published =>
              .ofDocument "application/jwk-set+json".toList
                (WireFormats.writeJson published)
          | none => .internalError
        else
          .ofStatus 404

end WellKnown

/-! ## Routes -/

/-- The routes of `router`, with what each one captures on the wire. -/
inductive Route where
  | root
  | wellKnown (rest : Option Text)
  | path (wire : Text)
  deriving DecidableEq

/--
The route of a path on the wire.  A fixed segment goes before the wildcard, and
a wildcard captures at least one character.
-/
def routeOf (wire : Text) : Option Route :=
  if wire = ['/'] then
    some .root
  else if wire = "/.well-known".toList ∨ wire = "/.well-known/".toList then
    some (.wellKnown none)
  else
    match Text.stripPrefix "/.well-known/".toList wire with
    | some rest => some (.wellKnown (some rest))
    | none =>
        if Text.startsWith ['/'] wire then some (.path wire) else none

/-- `AppState`, less the stores and the collaborators of the middleware. -/
structure AppState [Josekit] where
  space : StorageSpace
  storeVersion : RdfVersion
  maxBodyBytes : Nat
  opKeys : Option KeySet

variable [Sha256] [ObjectPath] [QuadText]
variable [RdfParser] [RdfSerializer] [ShapeEngine] [N3Parser] [Quality]

section Dispatch

variable [WireFormats] [Josekit] [JoseSigning]

/-- A request with the path its handler was given. -/
def handlePath
    (app : AppState) (agent : Agent) (verb : Verb) (request : HttpRequest)
    (draws : Draws) (path : Text) : HttpProgram Response :=
  match verb with
  | .options => handleOptions app.space app.storeVersion path request
  | .write method =>
      if method ≠ .delete ∧ app.maxBodyBytes < request.body.length then
        .fail (.ofStatus 413)
      else
        handle app.space app.storeVersion
          ⟨method, path, agent, request.fields, request.body, draws⟩
  | _ =>
      handleGet app.space app.storeVersion path request.query agent
        request.fields

/-- What the router does with a request that has its agent. -/
def dispatch
    (app : AppState) (agent : Agent) (request : HttpRequest) (draws : Draws) :
    HttpProgram Response :=
  match routeOf request.path, Verb.ofText request.method with
  | none, _ => .fail (.ofStatus 404)
  | some _, none => .fail (.ofStatus 405)
  | some .root, some verb => handlePath app agent verb request draws ['/']
  | some (.path wire), some verb =>
      match handlerPath wire with
      | some path => handlePath app agent verb request draws path
      | none => .fail (.ofStatus 400)
  | some (.wellKnown rest), some verb =>
      if verb = .get ∨ verb = .head then
        match rest.map decodeText with
        | none => pure (handleWellKnown app.space app.opKeys none)
        | some (some name) =>
            pure (handleWellKnown app.space app.opKeys (some name))
        | some none => .fail (.ofStatus 400)
      else
        .fail (.ofStatus 405)

end Dispatch

/-! ## The outermost layer -/

/-- `EXPOSED_HEADERS` -/
def exposedHeaders : Text :=
  ("Accept-Patch, Accept-Post, Accept-Put, Allow, Content-Type, ETag, Link, " ++
    "Location, Vary, WAC-Allow, Warning, WWW-Authenticate").toList

/-- The values of every header field of a name. -/
def Response.values (response : Response) (name : Text) : List Text :=
  (response.headers.filter fun field => field.1 == name).map Prod.snd

/-- A character `HeaderValue::to_str` accepts. -/
def isFieldChar (c : Char) : Bool :=
  (' ' ≤ c && c ≤ '~') || c == '\t'

/-- The names of a response's `Vary` fields. -/
def Response.varyNames (response : Response) : List Text :=
  ((((response.values "vary".toList).filter (·.all isFieldChar)).flatMap
    (Text.split ',')).map Text.trim).filter fun name => !name.isEmpty

/-- The names with `Origin` among them. -/
def withOrigin (names : List Text) : List Text :=
  if names.any fun name => Text.eqIgnoreAsciiCase name "origin".toList then
    names
  else
    names ++ ["Origin".toList]

/-- `cors_layer`, on the response of the inner layers. -/
def corsLayer (origin : Option Text) (response : Response) : Response :=
  match origin with
  | none => response
  | some origin =>
      let answer :=
        response.insert "access-control-allow-origin".toList origin
      let names := ", ".toList.intercalate (withOrigin answer.varyNames)
      let answer :=
        if names.all fun c => 32 ≤ c.toNat && c.toNat != 127 || c == '\t' then
          answer.insert "vary".toList names
        else
          answer
      answer.insert "access-control-expose-headers".toList exposedHeaders

/-! ## The server -/

/-- The response to `HEAD` has no body. -/
def Response.forMethod (response : Response) (method : Text) : Response :=
  if method = "HEAD".toList then { response with body := [] } else response

section Serve

variable [WireFormats] [Josekit] [JoseSigning]
variable [DpopVerifierCrate] [UrlParser]

/-- One request with everything its handling draws on. -/
structure Arrival (State : Type) where
  request : HttpRequest
  deps : AuthDeps State
  now : I64
  wallClock : Int
  draws : Draws
  faults : Faults

/-- What a request is answered, and what it leaves behind. -/
structure Handled (State : Type) where
  response : Response
  state : State
  world : World

/-- One request through all layers. -/
def serve {State : Type}
    (app : AppState) (arrival : Arrival State) (state : State)
    (world : World) : Handled State :=
  let request := arrival.request
  let origin := (request.get "origin").map HeaderValue.text
  let (passage, left) :=
    authLayer app.space arrival.deps request.toWireRequest arrival.now
      arrival.wallClock state
  match passage with
  | .answers status =>
      ⟨corsLayer origin ((Response.ofStatus status).forMethod request.method),
        left, world⟩
  | .forwards agent =>
      let outcome :=
        Program.run backend (dispatch app agent request arrival.draws)
          arrival.faults world
      ⟨corsLayer origin ((sentResponse outcome.result).forMethod request.method),
        left, outcome.world⟩

end Serve

end Quadpod
