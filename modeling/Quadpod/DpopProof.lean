import Quadpod.Credentials

namespace Quadpod

/-!
# DPoP proofs

`auth/dpop.rs`: the verification of a proof, its freshness, its binding to the
access token, and the set of `jti`s the pod remembers.
-/

open AuthError

variable [WireFormats] [Josekit] [DpopVerifierCrate] [UrlParser]

/-- `DISABLE_INTERNAL_CLOCK_CHECK_SECONDS` -/
def disableInternalClockCheckSeconds : Int := 999999999999

/-- `MAX_AGE_SECONDS` -/
def maxAgeSeconds : Int := 300

/-- `FUTURE_SKEW_SECONDS` -/
def futureSkewSeconds : Int := 5

/-- `EVICTION_INTERVAL_SECONDS` -/
def evictionIntervalSeconds : Int := 60

/-- `RS256_ALG` -/
def rs256Alg : Text := "RS256".toList

/-- `JTI_MAX_LENGTH` -/
def jtiMaxLength : Nat := 512

private def invalid (message : String) : AuthError :=
  .dpopInvalid message.toList

/-! ## The replay set -/

/-- `ReplaySet`: when each `jti` was recorded, under its hash. -/
structure ReplaySet where
  jtis : Bytes → Option I64
  lastEviction : I64

namespace ReplaySet

/-- `InMemoryJtiReplayStore::new` -/
def new : ReplaySet where
  jtis := fun _ => none
  lastEviction := ⟨0, by decide, by decide⟩

/-- `HashMap::retain` -/
def retain (replay : ReplaySet) (keep : I64 → Bool) : ReplaySet :=
  { replay with jtis := fun hash => (replay.jtis hash).filter keep }

/-- `VacantEntry::insert` -/
def insert (replay : ReplaySet) (hash : Bytes) (recordedAt : I64) : ReplaySet :=
  { replay with
    jtis := fun other =>
      if other = hash then some recordedAt else replay.jtis other }

/-- The eviction sweep of `record_or_reject`, once the interval has passed. -/
def sweep (replay : ReplaySet) (now : I64) : ReplaySet :=
  if evictionIntervalSeconds ≤
      ((now.saturatingSub replay.lastEviction).saturatingAbs).value then
    let cutoff := now.saturatingSub (.clamp (maxAgeSeconds + futureSkewSeconds))
    { replay.retain (fun recordedAt => cutoff ≤ recordedAt) with
      lastEviction := now }
  else
    replay

end ReplaySet

/-- `hash_jti` -/
def hashJti (jti : Text) : Bytes :=
  WireFormats.sha256 (Text.utf8 jti)

/-- `InMemoryJtiReplayStore::record_or_reject` -/
def recordOrReject (jti : Text) (now : I64) : Verification ReplaySet Unit := do
  modify fun replay => replay.sweep now
  let replay ← get
  let hash := hashJti jti
  match replay.jtis hash with
  | none => set (replay.insert hash now)
  | some _ => throw (invalid "dpop proof replayed")

/-! ## The signed claims -/

/-- `verified_htu_claim` -/
def verifiedHtuClaim (proof : Text) : Except AuthError Text :=
  match Text.split '.' proof with
  | [_, payloadPart, _] => do
      let bytes ← okOr (WireFormats.decodeBase64Url payloadPart)
        (invalid "dpop proof payload is not base64url")
      let payload ← okOr (WireFormats.parseJson bytes)
        (invalid "dpop proof payload is not JSON")
      okOr ((payload.get? "htu".toList).bind Json.asStr)
        (invalid "dpop proof has no htu claim")
  | _ => .error (invalid "dpop proof is not a compact JWS")

/-- `htu_names_the_same_resource` -/
def htuNamesTheSameResource (proofHtu expected : Text) : Bool :=
  match UrlParser.path proofHtu, UrlParser.path expected with
  | some proofPath, some expectedPath => proofPath == expectedPath
  | _, _ => false

/-- `decode_jws_segment` -/
def decodeJwsSegment (segment what : Text) : Except AuthError Json := do
  let bytes ← okOr (WireFormats.decodeBase64Url segment)
    (.dpopInvalid ("dpop proof ".toList ++ what ++ " is not base64url".toList))
  okOr (WireFormats.parseJson bytes)
    (.dpopInvalid ("dpop proof ".toList ++ what ++ " is not JSON".toList))

/-- `proof_alg_is_rs256` -/
def proofAlgIsRs256 (proof : Text) : Bool :=
  match (Text.split '.' proof).head? with
  | none => false
  | some headerPart =>
      match decodeJwsSegment headerPart "header".toList with
      | .error _ => false
      | .ok header =>
          (header.get? "alg".toList).bind Json.asStr == some rs256Alg

/-- `thumbprint_rsa` -/
def thumbprintRsa (n e : Text) : Text :=
  let canonicalJson :=
    WireFormats.writeJson (.object
      [("e".toList, .string e),
        ("kty".toList, .string "RSA".toList),
        ("n".toList, .string n)])
  WireFormats.encodeBase64Url (WireFormats.sha256 (Text.utf8 canonicalJson))

/-- A string member of a JSON object, or the refusal of a proof without it. -/
def stringMember (value : Json) (name message : String) : Except AuthError Text :=
  okOr ((value.get? name.toList).bind Json.asStr) (invalid message)

/-- The key of an RS256 proof: its `n` and `e`, and a verifier for it. -/
def rs256Key (header : Json) :
    Except AuthError (Text × Text × Josekit.Verifier) := do
  let jwkValue ← okOr (header.get? "jwk".toList)
    (invalid "dpop proof header has no jwk")
  refuseIf (jwkValue.get? "d".toList).isSome
    (invalid "dpop proof jwk must not include private key material")
  refuseIf ((jwkValue.get? "kty".toList).bind Json.asStr ≠ some "RSA".toList)
    (invalid "dpop proof alg RS256 requires an RSA jwk")
  let n ← stringMember jwkValue "n" "dpop proof RSA jwk has no n"
  let e ← stringMember jwkValue "e" "dpop proof RSA jwk has no e"
  let jwkMap ← okOr jwkValue.asObject
    (invalid "dpop proof jwk is not a JSON object")
  let jwk ← okOr (Josekit.fromMap jwkMap)
    (invalid "dpop proof jwk is not a valid JWK")
  let verifier ← okOr (Josekit.rs256Verifier jwk)
    (invalid "dpop proof jwk is not a usable RS256 verification key")
  pure (n, e, verifier)

/-- `normalized`: an error of the crate is the text it displays. -/
def normalized (outcome : Except Text Text) : Except AuthError Text :=
  outcome.mapError .dpopInvalid

/-- The signed claims of an RS256 proof, held against the request. -/
def rs256Claims (claims : Json) (jkt expectedHtu expectedHtm : Text) :
    Except AuthError VerifiedDpop := do
  let jti ← stringMember claims "jti" "dpop proof has no jti claim"
  refuseIf (jtiMaxLength < (Text.utf8 jti).length)
    (invalid "dpop proof jti is too long")
  let iat ← okOr ((claims.get? "iat".toList).bind Json.asI64)
    (invalid "dpop proof has no integer iat claim")
  let htm ← stringMember claims "htm" "dpop proof has no htm claim"
  let htu ← stringMember claims "htu" "dpop proof has no htu claim"
  let proofMethod ← normalized (DpopVerifierCrate.normalizeMethod htm)
  let method ← normalized (DpopVerifierCrate.normalizeMethod expectedHtm)
  refuseIf (proofMethod ≠ method)
    (invalid "dpop proof htm does not match the request method")
  let proofUrl ← normalized (DpopVerifierCrate.normalizeHtu htu)
  let url ← normalized (DpopVerifierCrate.normalizeHtu expectedHtu)
  refuseIf (proofUrl ≠ url)
    (invalid "dpop proof htu does not match the request URL")
  pure ⟨jkt, jti, iat⟩

/-- `verify_rs256_proof` -/
def verifyRs256Proof (proof expectedHtu expectedHtm : Text) :
    Except AuthError VerifiedDpop :=
  match Text.split '.' proof with
  | [headerPart, payloadPart, signaturePart] => do
      let header ← decodeJwsSegment headerPart "header".toList
      refuseIf ((header.get? "typ".toList).bind Json.asStr ≠
          some "dpop+jwt".toList)
        (invalid "dpop proof typ is not dpop+jwt")
      refuseIf ((header.get? "alg".toList).bind Json.asStr ≠ some rs256Alg)
        (invalid "dpop proof alg is not RS256")
      let (n, e, verifier) ← rs256Key header
      let signature ← okOr (WireFormats.decodeBase64Url signaturePart)
        (invalid "dpop proof signature is not base64url")
      let signingInput := headerPart ++ '.' :: payloadPart
      refuseIf (!Josekit.verify verifier (Text.utf8 signingInput) signature)
        (invalid "invalid DPoP signature")
      let claims ← decodeJwsSegment payloadPart "payload".toList
      rs256Claims claims (thumbprintRsa n e) expectedHtu expectedHtm
  | _ => .error (invalid "dpop proof is not a compact JWS")

/-! ## The verification -/

/-- One call of `verify_dpop`, with the wall clock `dpop-verifier` reads. -/
structure DpopCall where
  proof : Text
  htu : Text
  htm : Text
  expectedJkt : Text
  now : I64
  wallClock : Int

/-- The signature, `htu` and `htm` of a proof, on the path of its algorithm. -/
def DpopCall.verified (call : DpopCall) : Except AuthError VerifiedDpop :=
  if proofAlgIsRs256 call.proof then
    verifyRs256Proof call.proof call.htu call.htm
  else
    (DpopVerifierCrate.verify
      disableInternalClockCheckSeconds disableInternalClockCheckSeconds
      call.wallClock call.proof call.htu call.htm).mapError .dpopInvalid

/-- The freshness of an `iat`, in saturating arithmetic. -/
def checkFreshness (iat now : I64) : Except AuthError Unit := do
  refuseIf (futureSkewSeconds < (iat.saturatingSub now).value)
    (invalid "DPoP proof iat is too far in the future")
  refuseIf (maxAgeSeconds < (now.saturatingSub iat).value)
    (invalid "DPoP proof iat is stale")

/-- Every check of `verify_dpop` before the replay check. -/
def DpopCall.checked (call : DpopCall) : Except AuthError VerifiedDpop := do
  let verified ← call.verified
  let htuClaim ← verifiedHtuClaim call.proof
  refuseIf (!htuNamesTheSameResource htuClaim call.htu)
    (invalid "dpop proof htu does not match the request URL exactly")
  checkFreshness verified.iat call.now
  refuseIf (verified.jkt ≠ call.expectedJkt) .binding
  pure verified

/-- `verify_dpop`, over the `JtiReplayStore` it is given. -/
def verifyDpop {State : Type}
    (record : Text → I64 → Verification State Unit)
    (call : DpopCall) :
    Verification State Unit := do
  let verified ← Verification.check call.checked
  record verified.jti call.now

/-- A proof that passes every check is fresh and bound to the token. -/
theorem DpopCall.checked_eq_ok
    {call : DpopCall}
    {verified : VerifiedDpop}
    (passes : call.checked = .ok verified) :
    call.verified = .ok verified ∧
      checkFreshness verified.iat call.now = .ok () ∧
      verified.jkt = call.expectedJkt := by
  unfold DpopCall.checked at passes
  obtain ⟨found, verifies, passes⟩ := bind_eq_ok passes
  obtain ⟨htuClaim, _, passes⟩ := bind_eq_ok passes
  obtain ⟨_, _, passes⟩ := bind_eq_ok passes
  obtain ⟨_, fresh, passes⟩ := bind_eq_ok passes
  obtain ⟨_, bound, passes⟩ := bind_eq_ok passes
  have same : found = verified := Except.ok.inj passes
  subst same
  exact ⟨verifies, fresh, not_not.mp (refuseIf_eq_ok_iff.mp bound)⟩

omit [WireFormats] [Josekit] [DpopVerifierCrate] [UrlParser] in
/-- The freshness check, over the unbounded integers. -/
theorem checkFreshness_eq_ok_iff (iat now : I64) :
    checkFreshness iat now = .ok () ↔
      now.value - maxAgeSeconds ≤ iat.value ∧
        iat.value ≤ now.value + futureSkewSeconds := by
  have early :
      futureSkewSeconds < (iat.saturatingSub now).value ↔
        futureSkewSeconds < iat.value - now.value :=
    I64.lt_saturatingSub_iff iat now (by decide) (by decide)
  have stale :
      maxAgeSeconds < (now.saturatingSub iat).value ↔
        maxAgeSeconds < now.value - iat.value :=
    I64.lt_saturatingSub_iff now iat (by decide) (by decide)
  unfold checkFreshness
  constructor
  · intro passes
    obtain ⟨_, notAhead, notBehind⟩ := bind_eq_ok passes
    have notAhead := refuseIf_eq_ok_iff.mp notAhead
    have notBehind := refuseIf_eq_ok_iff.mp notBehind
    rw [early] at notAhead
    rw [stale] at notBehind
    omega
  · intro fresh
    have notAhead : ¬ futureSkewSeconds < (iat.saturatingSub now).value := by
      rw [early]
      omega
    have notBehind : ¬ maxAgeSeconds < (now.saturatingSub iat).value := by
      rw [stale]
      omega
    unfold refuseIf
    rw [if_neg notAhead, if_neg notBehind]
    rfl

end Quadpod
