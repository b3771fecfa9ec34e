import Quadpod.AuthCaches
import Quadpod.ReferenceCredentials
import Quadpod.WacDecision

namespace Quadpod

/-!
# Authenticating a request

`auth/authenticate.rs` and `auth/middleware.rs`: two header fields become an
agent, through the collaborators a pod is given, or the request is answered
without reaching a handler.
-/

open AuthError

variable [IriSyntax] [WireFormats] [Josekit] [DpopVerifierCrate] [UrlParser]

/-! ## Credentials -/

/-- `AuthConfig` -/
structure AuthConfig where
  trustedIssuers : Option (List Text)
  expectedAudience : Option Text

/-- `AuthDeps`, over the state its collaborators keep. -/
structure AuthDeps (State : Type) where
  resolve : Text → Verification State (List Josekit.Jwk)
  authorizes : Text → Text → Verification State Bool
  config : AuthConfig
  record : Text → I64 → Verification State Unit

/-- `parse_dpop_scheme` -/
def parseDpopScheme (authHeader : Option Text) : Except AuthError Text := do
  let header ← okOr authHeader
    (.dpopInvalid "missing Authorization header".toList)
  let (scheme, token) ← okOr (Text.splitOnce ' ' header)
    (.malformed "malformed Authorization header".toList)
  refuseIf (!Text.eqIgnoreAsciiCase scheme "DPoP".toList)
    (.dpopInvalid ("unsupported Authorization scheme: ".toList ++ scheme))
  pure token

/-- The allowlist check, on the issuer read before any verification. -/
def checkTrustedIssuer (config : AuthConfig) (token : Text) :
    Except AuthError Unit :=
  match config.trustedIssuers with
  | none => .ok ()
  | some trusted => do
      let untrustedIssuer ← peekUntrustedIssuer token
      refuseIf (!trusted.any fun issuer => issuerMatches issuer untrustedIssuer)
        .untrustedIssuer

/-- The audience check. -/
def checkAudience (config : AuthConfig) (claims : AccessClaims) :
    Except AuthError Unit :=
  match config.expectedAudience with
  | none => .ok ()
  | some expected => refuseIf (expected ∉ claims.audience) .wrongAudience

/-- The headers, the method and the URL of a request, and the clocks. -/
structure Presented where
  authHeader : Option Text
  dpopHeader : Option Text
  htm : Text
  htu : Text
  now : I64
  wallClock : Int

/-- `authenticate` -/
def authenticate {State : Type}
    (deps : AuthDeps State) (presented : Presented) :
    Verification State Agent :=
  if presented.authHeader.isNone && presented.dpopHeader.isNone then
    pure .anonymous
  else do
    let token ← .check (parseDpopScheme presented.authHeader)
    let proof ← .check (okOr presented.dpopHeader
      (.dpopInvalid "missing DPoP proof header".toList))
    .check (checkTrustedIssuer deps.config token)
    let claims ← verifyAccessToken deps.resolve token presented.now
    .check (checkAudience deps.config claims)
    let authorized ← deps.authorizes claims.webid claims.issuer
    .check (refuseIf (!authorized) .issuerNotAuthorized)
    verifyDpop deps.record
      ⟨proof, presented.htu, presented.htm, claims.jkt, presented.now,
        presented.wallClock⟩
    pure (.webId claims.webid)

/-- Every step of a verification that proves a WebID, from one state to another. -/
structure Proves {State : Type}
    (deps : AuthDeps State)
    (presented : Presented)
    (token proof : Text)
    (claims : AccessClaims)
    (first resolved authorized last : State) :
    Prop where
  scheme : parseDpopScheme presented.authHeader = .ok token
  present : presented.dpopHeader = some proof
  trusted : checkTrustedIssuer deps.config token = .ok ()
  verified :
    (verifyAccessToken deps.resolve token presented.now).perform first =
      (.ok claims, resolved)
  audience : checkAudience deps.config claims = .ok ()
  authorizes :
    (deps.authorizes claims.webid claims.issuer).perform resolved =
      (.ok true, authorized)
  bound :
    (verifyDpop deps.record
      ⟨proof, presented.htu, presented.htm, claims.jkt, presented.now,
        presented.wallClock⟩).perform authorized =
      (.ok (), last)

section Outcome

variable {State : Type} {deps : AuthDeps State} {presented : Presented}
variable {state last : State}

omit [IriSyntax] in
/-- Once a header is present, success is a proof of a WebID. -/
theorem proves_of_authenticate
    {agent : Agent}
    (present : presented.authHeader ≠ none ∨ presented.dpopHeader ≠ none)
    (succeeds : (authenticate deps presented).perform state = (.ok agent, last)) :
    ∃ token proof claims resolved authorized,
      agent = .webId claims.webid ∧
      Proves deps presented token proof claims state resolved authorized
        last := by
  have notBare :
      ¬ (presented.authHeader.isNone && presented.dpopHeader.isNone) = true := by
    simpa [or_iff_not_imp_left] using present
  unfold authenticate at succeeds
  rw [if_neg notBare] at succeeds
  obtain ⟨token, scheme, succeeds⟩ :=
    Verification.perform_check_bind_eq_ok succeeds
  obtain ⟨proof, presentProof, succeeds⟩ :=
    Verification.perform_check_bind_eq_ok succeeds
  obtain ⟨_, trusted, succeeds⟩ :=
    Verification.perform_check_bind_eq_ok succeeds
  obtain ⟨claims, resolved, verified, succeeds⟩ :=
    Verification.perform_bind_eq_ok succeeds
  obtain ⟨_, audience, succeeds⟩ :=
    Verification.perform_check_bind_eq_ok succeeds
  obtain ⟨allowed, authorized, authorizes, succeeds⟩ :=
    Verification.perform_bind_eq_ok succeeds
  obtain ⟨_, notRefused, succeeds⟩ :=
    Verification.perform_check_bind_eq_ok succeeds
  obtain ⟨⟨⟩, afterProof, bound, succeeds⟩ :=
    Verification.perform_bind_eq_ok succeeds
  rw [Verification.perform_pure] at succeeds
  have isAllowed : allowed = true := by
    simpa using refuseIf_eq_ok_iff.mp notRefused
  rw [isAllowed] at authorizes
  obtain ⟨sameAgent, sameState⟩ := Prod.mk.inj succeeds
  subst sameState
  exact ⟨token, proof, claims, resolved, authorized,
    (Except.ok.inj sameAgent).symm,
    { scheme := scheme
      present := okOr_eq_ok_iff.mp presentProof
      trusted := trusted
      verified := verified
      audience := audience
      authorizes := authorizes
      bound := bound }⟩

omit [IriSyntax] in
/-- The state changes as the collaborators change it, one after another. -/
theorem authenticate_establishes
    {before resolved after : State → Prop}
    (resolves : ∀ issuer, (deps.resolve issuer).Establishes before resolved)
    (authorizes :
      ∀ webid issuer, (deps.authorizes webid issuer).Establishes resolved after)
    (records : ∀ jti now, (deps.record jti now).Establishes after after)
    (weaker : ∀ state, before state → resolved state)
    (weakest : ∀ state, resolved state → after state) :
    (authenticate deps presented).Establishes before after := by
  have start : ∀ state, before state → after state :=
    fun state holds => weakest state (weaker state holds)
  have stay : ∀ state, after state → after state := fun _ holds => holds
  unfold authenticate
  split
  next =>
      exact start
  next =>
      refine .bind (.check _) (fun token => ?_) start
      refine .bind (.check _) (fun proof => ?_) start
      refine .bind (.check _) (fun _ => ?_) start
      refine .bind (verifyAccessToken_establishes resolves weaker)
        (fun claims => ?_) weakest
      refine .bind (.check _) (fun _ => ?_) weakest
      refine .bind (authorizes _ _) (fun allowed => ?_) stay
      refine .bind (.check _) (fun _ => ?_) stay
      refine .bind ?_ (fun _ => .pure _) stay
      unfold verifyDpop
      exact .bind (.check _) (fun verified => records _ _) stay

end Outcome

/-! ## The middleware -/

/-- `HeaderValue`: any byte but the controls, with the tab allowed. -/
structure HeaderValue where
  bytes : Bytes
  legal : ∀ byte ∈ bytes, 32 ≤ byte ∧ byte ≠ 127 ∨ byte = 9

/-- `HeaderValue::to_str`: visible ASCII only. -/
def HeaderValue.toStr (value : HeaderValue) : Option Text :=
  if value.bytes.all fun byte => (32 ≤ byte && byte < 127) || byte == 9 then
    some (value.bytes.map fun byte => Char.ofNat byte.toNat)
  else
    none

/-- A request as it came in: the fields in order, under lowercase names. -/
structure WireRequest where
  method : Text
  path : Text
  headers : List (Text × HeaderValue)

namespace WireRequest

/-- `headers.get(name)`: the first value of a field. -/
def get (request : WireRequest) (name : String) : Option HeaderValue :=
  request.headers.lookup name.toList

/-- `headers.get(name).and_then(|v| v.to_str().ok())` -/
def str? (request : WireRequest) (name : String) : Option Text :=
  (request.get name).bind HeaderValue.toStr

/-- The request carries an `Authorization` or a `DPoP` field. -/
def CarriesCredentials (request : WireRequest) : Prop :=
  ∃ field ∈ request.headers,
    field.1 = "authorization".toList ∨ field.1 = "dpop".toList

end WireRequest

/-- `derive_htu` -/
def deriveHtu (space : StorageSpace) (path : Text) : Text :=
  (graphIri space.root).rdropWhile (· = '/') ++ path

/-- What becomes of a request in the middleware. -/
inductive Passage where
  | forwards (agent : Agent)
  | answers (status : Nat)

/-- What `auth_layer` hands to `authenticate`. -/
def WireRequest.presented
    (space : StorageSpace) (request : WireRequest) (now : I64)
    (wallClock : Int) : Presented where
  authHeader := request.str? "authorization"
  dpopHeader := request.str? "dpop"
  htm := request.method
  htu := deriveHtu space request.path
  now := now
  wallClock := wallClock

/-- `auth_layer` -/
def authLayer {State : Type}
    (space : StorageSpace) (deps : AuthDeps State) (request : WireRequest)
    (now : I64) (wallClock : Int) (state : State) : Passage × State :=
  match (authenticate deps (request.presented space now wallClock)).perform
      state with
  | (.ok agent, last) => (.forwards agent, last)
  | (.error _, last) => (.answers 401, last)

/-- The request goes on with a WebID that verification proved, or it is answered
with an error. -/
def KeepsCredentials {State : Type}
    (space : StorageSpace) (deps : AuthDeps State) (request : WireRequest)
    (now : I64) (wallClock : Int) (state : State) : Prop :=
  (∃ token proof claims resolved authorized last,
    authLayer space deps request now wallClock state =
      (.forwards (.webId claims.webid), last) ∧
    Proves deps (request.presented space now wallClock) token proof claims
      state resolved authorized last) ∨
  ∃ status last,
    authLayer space deps request now wallClock state =
      (.answers status, last) ∧
    400 ≤ status

/-- A request keeps its credentials where one of the two fields can be read. -/
theorem keepsCredentials_iff_readable {State : Type}
    (space : StorageSpace)
    (deps : AuthDeps State)
    (request : WireRequest)
    (now : I64)
    (wallClock : Int)
    (state : State) :
    KeepsCredentials space deps request now wallClock state ↔
      (request.str? "authorization").isSome = true ∨
        (request.str? "dpop").isSome = true := by
  constructor
  · intro keeps
    by_contra unreadable
    have bare :
        ((request.presented space now wallClock).authHeader.isNone &&
          (request.presented space now wallClock).dpopHeader.isNone) = true := by
      simpa [WireRequest.presented] using unreadable
    have passes :
        authLayer space deps request now wallClock state =
          (.forwards .anonymous, state) := by
      unfold authLayer authenticate
      rw [if_pos bare]
      rfl
    unfold KeepsCredentials at keeps
    rw [passes] at keeps
    rcases keeps with ⟨_, _, _, _, _, _, forwarded, _⟩ | ⟨_, _, answered, _⟩
    · cases forwarded
    · cases answered
  · intro readable
    have present :
        (request.presented space now wallClock).authHeader ≠ none ∨
          (request.presented space now wallClock).dpopHeader ≠ none := by
      simpa [WireRequest.presented, Option.isSome_iff_ne_none] using readable
    cases outcome :
        (authenticate deps (request.presented space now wallClock)).perform
          state with
    | mk answer last =>
        cases answer with
        | error error =>
            right
            refine ⟨401, last, ?_, by decide⟩
            unfold authLayer
            rw [outcome]
        | ok agent =>
            left
            obtain ⟨token, proof, claims, resolved, authorized, rfl, proves⟩ :=
              proves_of_authenticate present outcome
            refine ⟨token, proof, claims, resolved, authorized, last, ?_, proves⟩
            unfold authLayer
            rw [outcome]

/--
A request that carries a credential field never goes on as the public agent,
exactly where the first value of one of the two fields is visible ASCII.
-/
theorem presented_credentials_kept_iff {State : Type}
    (space : StorageSpace)
    (deps : AuthDeps State)
    (request : WireRequest)
    (now : I64)
    (wallClock : Int)
    (state : State) :
    (request.CarriesCredentials →
      KeepsCredentials space deps request now wallClock state) ↔
    (request.CarriesCredentials →
      (request.str? "authorization").isSome = true ∨
        (request.str? "dpop").isSome = true) := by
  rw [keepsCredentials_iff_readable]

end Quadpod

namespace Quadpod.Reference

/-- Collaborators that refuse every credential. -/
def refusingDeps : AuthDeps Unit where
  resolve _ := throw .unknownIssuer
  authorizes _ _ := throw .issuerNotAuthorized
  config := ⟨none, none⟩
  record _ _ := throw .binding

/-- A request whose `Authorization` is a byte outside ASCII. -/
def opaqueRequest : WireRequest where
  method := "GET".toList
  path := "/note".toList
  headers := [("authorization".toList, ⟨[255], by decide +kernel⟩)]

/-- An unreadable credential goes on as the public agent. -/
theorem presented_credentials_lost :
    opaqueRequest.CarriesCredentials ∧
      authLayer podSpace refusingDeps opaqueRequest (.clamp 0) 0 () =
        (.forwards .anonymous, ()) ∧
      ¬ (opaqueRequest.CarriesCredentials →
        KeepsCredentials podSpace refusingDeps opaqueRequest (.clamp 0) 0 ()) := by
  have carries : opaqueRequest.CarriesCredentials :=
    ⟨_, List.mem_cons_self, .inl rfl⟩
  refine ⟨carries, rfl, ?_⟩
  intro keeps
  have readable :=
    (keepsCredentials_iff_readable podSpace refusingDeps opaqueRequest (.clamp 0) 0
      ()).mp (keeps carries)
  revert readable
  decide

end Quadpod.Reference
