import Quadpod.DpopProof

namespace Quadpod

/-!
# Access tokens

`auth/access_token.rs`: the header and the payload of a token are read before
its signature is verified, to find the key; every claim of the result comes from
the payload the signature covers.
-/

open AuthError

variable [WireFormats] [Josekit]

/-- `AccessClaims` -/
structure AccessClaims where
  webid : Text
  jkt : Text
  issuer : Text
  audience : List Text

private def malformed (message : String) : AuthError :=
  .malformed message.toList

/-- `decode_segment` -/
def decodeSegment (segment : Text) : Except AuthError Json := do
  let bytes ← okOr (WireFormats.decodeBase64Url segment)
    (malformed "invalid base64url segment")
  okOr (WireFormats.parseJson bytes) (malformed "invalid JSON segment")

/-- The `iss` of a payload. -/
def issuerClaim (payload : Json) : Except AuthError Text :=
  okOr ((payload.get? "iss".toList).bind Json.asStr)
    (malformed "missing iss claim")

/-- `peek_untrusted_issuer` -/
def peekUntrustedIssuer (token : Text) : Except AuthError Text :=
  match Text.split '.' token with
  | [_, payloadPart, _] => do
      let payload ← decodeSegment payloadPart
      issuerClaim payload
  | _ => .error (malformed "not a compact JWS")

/-- `select_key` -/
def selectKey (keys : List Josekit.Jwk) (kid : Option Text) :
    Except AuthError Josekit.Jwk :=
  match kid with
  | some kid => okOr (keys.find? fun key => Josekit.keyId key = some kid) .missingKey
  | none =>
      okOr
        (keys.find? fun key =>
          (Josekit.keyUse key = none ∨ Josekit.keyUse key = some "sig".toList) ∧
            Josekit.isForKeyOperation key "verify".toList = true)
        .missingKey

/-- `verifier_for` -/
def verifierFor (key : Josekit.Jwk) : Except AuthError Josekit.Verifier :=
  if Josekit.keyType key = "RSA".toList then
    okOr (Josekit.rs256Verifier key) .badSignature
  else if Josekit.keyType key = "EC".toList ∧
      Josekit.curve key = some "P-256".toList then
    okOr (Josekit.es256Verifier key) .badSignature
  else
    .error .unsupportedKeyType

/-- `parse_audience` -/
def parseAudience : Option Json → List Text
  | some (.string audience) => [audience]
  | some (.array values) => values.filterMap Json.asStr
  | _ => []

/-- The claims of a payload whose signature is verified. -/
def accessClaims (payload : Json) (now : I64) : Except AuthError AccessClaims := do
  let exp ← okOr ((payload.get? "exp".toList).bind Json.asI64)
    (malformed "missing exp claim")
  refuseIf (exp ≤ now) .expired
  let webid ← okOr ((payload.get? "webid".toList).bind Json.asStr)
    (malformed "missing webid claim")
  let jkt ← okOr
    (((payload.get? "cnf".toList).bind (·.get? "jkt".toList)).bind Json.asStr)
    .binding
  let issuer ← issuerClaim payload
  pure ⟨webid, jkt, issuer, parseAudience (payload.get? "aud".toList)⟩

/-- `verify_access_token`, over the `JwksResolver` it is given. -/
def verifyAccessToken {State : Type}
    (resolve : Text → Verification State (List Josekit.Jwk))
    (token : Text) (now : I64) :
    Verification State AccessClaims :=
  match Text.split '.' token with
  | [headerPart, payloadPart, _] => do
      let header ← .check (decodeSegment headerPart)
      let payload ← .check (decodeSegment payloadPart)
      let kid := (header.get? "kid".toList).bind Json.asStr
      let issuer ← .check (issuerClaim payload)
      let keys ← resolve issuer
      let key ← .check (selectKey keys kid)
      let verifier ← .check (verifierFor key)
      let verifiedPayload ← .check
        (okOr (Josekit.decodeWithVerifier token verifier) .badSignature)
      .check (accessClaims (.object verifiedPayload) now)
  | _ => throw (malformed "not a compact JWS")

/-- The payload segment of a token, decoded. -/
def payloadOf (token : Text) : Except AuthError Json :=
  match Text.split '.' token with
  | [_, payloadPart, _] => decodeSegment payloadPart
  | _ => .error (malformed "not a compact JWS")

/-- The key identifier a token's header names. -/
def kidOf (token : Text) : Option Text :=
  match Text.split '.' token with
  | [headerPart, _, _] =>
      (decodeSegment headerPart).toOption.bind fun header =>
        (header.get? "kid".toList).bind Json.asStr
  | _ => none

omit [Josekit] in
/-- The issuer read before verification is that of the payload segment. -/
theorem peekUntrustedIssuer_eq (token : Text) :
    peekUntrustedIssuer token = payloadOf token >>= issuerClaim := by
  unfold peekUntrustedIssuer payloadOf
  split
  · rfl
  · rfl

omit [WireFormats] in
/-- A selected key is one of the set, under the identifier it was selected by. -/
theorem selectKey_eq_ok
    {keys : List Josekit.Jwk}
    {kid : Option Text}
    {key : Josekit.Jwk}
    (selected : selectKey keys kid = .ok key) :
    key ∈ keys ∧ ∀ name, kid = some name → Josekit.keyId key = some name := by
  unfold selectKey at selected
  split at selected
  next name =>
      have found := okOr_eq_ok_iff.mp selected
      refine ⟨List.mem_of_find?_eq_some found, ?_⟩
      intro other same
      rw [← same]
      simpa using List.find?_some found
  next =>
      have found := okOr_eq_ok_iff.mp selected
      refine ⟨List.mem_of_find?_eq_some found, ?_⟩
      intro other same
      cases same

omit [WireFormats] [Josekit] in
/-- The claims of a verified payload are read off it. -/
theorem accessClaims_eq_ok
    {payload : Json}
    {now : I64}
    {claims : AccessClaims}
    (read : accessClaims payload now = .ok claims) :
    (payload.get? "webid".toList).bind Json.asStr = some claims.webid ∧
      ((payload.get? "cnf".toList).bind (·.get? "jkt".toList)).bind Json.asStr =
        some claims.jkt ∧
      issuerClaim payload = .ok claims.issuer ∧
      claims.audience = parseAudience (payload.get? "aud".toList) := by
  unfold accessClaims at read
  obtain ⟨exp, _, read⟩ := bind_eq_ok read
  obtain ⟨_, _, read⟩ := bind_eq_ok read
  obtain ⟨webid, named, read⟩ := bind_eq_ok read
  obtain ⟨jkt, bound, read⟩ := bind_eq_ok read
  obtain ⟨issuer, issued, read⟩ := bind_eq_ok read
  have same := Except.ok.inj read
  subst same
  exact ⟨okOr_eq_ok_iff.mp named, okOr_eq_ok_iff.mp bound, issued, rfl⟩

section Verified

variable {State : Type}
variable {resolve : Text → Verification State (List Josekit.Jwk)}
variable {token : Text} {now : I64}

/-- What a verified token went through: the issuer of its own payload segment
was resolved, and a selected key of the set verifies it. -/
theorem verifyAccessToken_eq_ok
    {claims : AccessClaims}
    {state last : State}
    (verified :
      (verifyAccessToken resolve token now).perform state = (.ok claims, last)) :
    ∃ payload issuer keys key verifier verifiedPayload,
      payloadOf token = .ok payload ∧
      issuerClaim payload = .ok issuer ∧
      (resolve issuer).perform state = (.ok keys, last) ∧
      selectKey keys (kidOf token) = .ok key ∧
      verifierFor key = .ok verifier ∧
      Josekit.decodeWithVerifier token verifier = some verifiedPayload ∧
      accessClaims (.object verifiedPayload) now = .ok claims := by
  unfold verifyAccessToken at verified
  split at verified
  next headerPart payloadPart signaturePart shape =>
      obtain ⟨header, headerDecoded, verified⟩ :=
        Verification.perform_check_bind_eq_ok verified
      obtain ⟨payload, payloadDecoded, verified⟩ :=
        Verification.perform_check_bind_eq_ok verified
      obtain ⟨issuer, issued, verified⟩ :=
        Verification.perform_check_bind_eq_ok verified
      obtain ⟨keys, resolved, resolves, verified⟩ :=
        Verification.perform_bind_eq_ok verified
      obtain ⟨key, selected, verified⟩ :=
        Verification.perform_check_bind_eq_ok verified
      obtain ⟨verifier, built, verified⟩ :=
        Verification.perform_check_bind_eq_ok verified
      obtain ⟨verifiedPayload, signed, verified⟩ :=
        Verification.perform_check_bind_eq_ok verified
      rw [Verification.perform_check] at verified
      obtain ⟨read, sameState⟩ := Prod.mk.inj verified
      subst sameState
      have kid :
          kidOf token = (header.get? "kid".toList).bind Json.asStr := by
        unfold kidOf
        rw [shape]
        simp only
        rw [headerDecoded]
        rfl
      refine ⟨payload, issuer, keys, key, verifier, verifiedPayload, ?_, issued,
        resolves, ?_, built, okOr_eq_ok_iff.mp signed, read⟩
      · unfold payloadOf
        rw [shape]
        exact payloadDecoded
      · rw [kid]
        exact selected
  next =>
      cases verified

/-- The state changes as resolving the keys changes it. -/
theorem verifyAccessToken_establishes
    {before after : State → Prop}
    (resolves : ∀ issuer, (resolve issuer).Establishes before after)
    (weaker : ∀ state, before state → after state) :
    (verifyAccessToken resolve token now).Establishes before after := by
  unfold verifyAccessToken
  split
  next =>
      refine .bind (.check _) (fun header => ?_) weaker
      refine .bind (.check _) (fun payload => ?_) weaker
      refine .bind (.check _) (fun issuer => ?_) weaker
      refine .bind (resolves issuer) (fun keys => ?_) (fun _ holds => holds)
      refine .bind (.check _) (fun key => ?_) (fun _ holds => holds)
      refine .bind (.check _) (fun verifier => ?_) (fun _ holds => holds)
      refine .bind (.check _) (fun payload => ?_) (fun _ holds => holds)
      exact .check _
  next =>
      exact fun state holds => weaker state holds

end Verified

end Quadpod
