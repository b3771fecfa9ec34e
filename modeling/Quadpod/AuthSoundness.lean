import Quadpod.Authentication

namespace Quadpod

/-!
# Authentication through its caches

Sequences of `authenticate` calls that share one JWKS resolver, one WebID-issuer
verifier and one replay set.  Every cached value stays backed by a successful
fetch for exactly its key, so an accepted credential rests on two such fetches,
each within its time to live.
-/

open AuthError

variable [IriSyntax] [RdfParser]
variable [WireFormats] [Josekit] [DpopVerifierCrate] [UrlParser]

/-! ## Runs -/

/-- What the collaborators of a pod keep between requests. -/
structure AuthState where
  keys : Caches KeyAnswers (List Josekit.Jwk)
  issuers : Caches GuardedGet (List Text)
  replay : ReplaySet

/-- The state of a pod that has just started. -/
def AuthState.new : AuthState where
  keys := ⟨.empty, .empty, []⟩
  issuers := ⟨.empty, .empty, []⟩
  replay := .new

/-- One call of `authenticate`, with what its two lookups meet. -/
structure Attempt where
  presented : Presented
  keyExchange : Exchange KeyAnswers
  profileExchange : Exchange GuardedGet
  ordered : keyExchange.completed ≤ profileExchange.asked

namespace Attempt

/-- The collaborators of the running pod. -/
def deps (config : AuthConfig) (attempt : Attempt) : AuthDeps AuthState where
  resolve := fun issuer =>
    .within AuthState.keys (fun state keys => { state with keys := keys })
      (resolveKeys attempt.keyExchange issuer)
  authorizes := fun webid issuer =>
    .within AuthState.issuers
      (fun state issuers => { state with issuers := issuers })
      (Quadpod.authorizes attempt.profileExchange webid issuer)
  config := config
  record := fun jti now =>
    .within AuthState.replay
      (fun state replay => { state with replay := replay })
      (recordOrReject jti now)

/-- `authenticate`: its answer and the state it leaves. -/
def perform (config : AuthConfig) (attempt : Attempt) (state : AuthState) :
    Except AuthError Agent × AuthState :=
  (authenticate (attempt.deps config) attempt.presented).perform state

/-- The clock does not go back from one call to a later one. -/
def Precedes (first second : Attempt) : Prop :=
  first.profileExchange.completed ≤ second.keyExchange.asked ∧
    first.presented.now ≤ second.presented.now

end Attempt

/-- The state after a sequence of calls. -/
def AuthState.after
    (config : AuthConfig) (state : AuthState) (attempts : List Attempt) :
    AuthState :=
  attempts.foldl (fun state attempt => (attempt.perform config state).2) state

/-! ## What holds along a run -/

/-- Every cached answer is backed by a fetch that was complete by an instant. -/
structure AuthState.Sound
    (keysBy issuersBy : Instant)
    (state : AuthState) :
    Prop where
  keysBacked : state.keys.Backed fetchKeys
  keysCompleted : state.keys.CompletedBy keysBy
  issuersBacked : state.issuers.Backed fetchIssuers
  issuersCompleted : state.issuers.CompletedBy issuersBy

omit [DpopVerifierCrate] [UrlParser] in
theorem AuthState.Sound.mono
    {keysBy laterKeys issuersBy laterIssuers : Instant}
    {state : AuthState}
    (sound : state.Sound keysBy issuersBy)
    (keysLater : keysBy ≤ laterKeys)
    (issuersLater : issuersBy ≤ laterIssuers) :
    state.Sound laterKeys laterIssuers where
  keysBacked := sound.keysBacked
  keysCompleted := fun made recorded =>
    (sound.keysCompleted made recorded).trans keysLater
  issuersBacked := sound.issuersBacked
  issuersCompleted := fun made recorded =>
    (sound.issuersCompleted made recorded).trans issuersLater

section Step

variable {config : AuthConfig} {attempt : Attempt}

omit [DpopVerifierCrate] [UrlParser] in
/-- Resolving an issuer's keys. -/
theorem resolve_establishes (issuer : Text) (issuersBy : Instant) :
    ((attempt.deps config).resolve issuer).Establishes
      (AuthState.Sound attempt.keyExchange.asked issuersBy)
      (AuthState.Sound attempt.keyExchange.completed issuersBy) := by
  intro state sound
  refine ⟨?_, ?_, sound.issuersBacked, sound.issuersCompleted⟩
  · exact sound.keysBacked.cachedFetch rfl
  · exact sound.keysCompleted.cachedFetch rfl

omit [DpopVerifierCrate] [UrlParser] in
/-- Asking for a WebID's issuers. -/
theorem authorizes_establishes (webid issuer : Text) (keysBy : Instant) :
    ((attempt.deps config).authorizes webid issuer).Establishes
      (AuthState.Sound keysBy attempt.profileExchange.asked)
      (AuthState.Sound keysBy attempt.profileExchange.completed) := by
  intro state sound
  have looked :=
    perform_authorizes_snd attempt.profileExchange webid issuer state.issuers
  refine ⟨sound.keysBacked, sound.keysCompleted, ?_, ?_⟩
  · change Caches.Backed fetchIssuers
      ((authorizes attempt.profileExchange webid issuer).perform
        state.issuers).2
    rw [looked]
    exact sound.issuersBacked.cachedFetch rfl
  · change Caches.CompletedBy
      ((authorizes attempt.profileExchange webid issuer).perform
        state.issuers).2 _
    rw [looked]
    exact sound.issuersCompleted.cachedFetch rfl

/-- One call keeps every cached answer backed by a fetch. -/
theorem AuthState.Sound.perform
    {instant : Instant}
    {state : AuthState}
    (sound : state.Sound instant instant)
    (later : instant ≤ attempt.keyExchange.asked) :
    (attempt.perform config state).2.Sound
      attempt.profileExchange.completed attempt.profileExchange.completed := by
  have keysLater : attempt.keyExchange.completed ≤
      attempt.profileExchange.completed :=
    attempt.ordered.trans attempt.profileExchange.ordered
  have issuersLater : instant ≤ attempt.profileExchange.asked :=
    (later.trans attempt.keyExchange.ordered).trans attempt.ordered
  have authorized :
      ∀ webid issuer,
        ((attempt.deps config).authorizes webid issuer).Establishes
          (AuthState.Sound attempt.keyExchange.completed
            attempt.profileExchange.asked)
          (AuthState.Sound attempt.profileExchange.completed
            attempt.profileExchange.completed) := by
    intro webid issuer state sound
    exact (authorizes_establishes webid issuer _ state sound).mono keysLater
      le_rfl
  have established :
      (authenticate (attempt.deps config) attempt.presented).Establishes
        (AuthState.Sound attempt.keyExchange.asked
          attempt.profileExchange.asked)
        (AuthState.Sound attempt.profileExchange.completed
          attempt.profileExchange.completed) := by
    refine authenticate_establishes (fun issuer => resolve_establishes issuer _)
      authorized ?_ ?_ ?_
    · intro jti now state sound
      exact ⟨sound.keysBacked, sound.keysCompleted, sound.issuersBacked,
        sound.issuersCompleted⟩
    · intro state sound
      exact sound.mono attempt.keyExchange.ordered le_rfl
    · intro state sound
      exact sound.mono keysLater attempt.profileExchange.ordered
  exact established state (sound.mono later issuersLater)

end Step

/-- A sequence of calls keeps every cached answer backed by a fetch that was
complete before any later call. -/
theorem AuthState.Sound.after
    {config : AuthConfig}
    {attempts : List Attempt}
    {instant deadline : Instant}
    {state : AuthState}
    (sound : state.Sound instant instant)
    (ordered : attempts.Pairwise Attempt.Precedes)
    (later : ∀ attempt ∈ attempts, instant ≤ attempt.keyExchange.asked)
    (past : instant ≤ deadline)
    (ended :
      ∀ attempt ∈ attempts, attempt.profileExchange.completed ≤ deadline) :
    (state.after config attempts).Sound deadline deadline := by
  induction attempts generalizing state instant with
  | nil =>
      exact sound.mono past past
  | cons head rest inductionHypothesis =>
      obtain ⟨afterHead, restOrdered⟩ := List.pairwise_cons.mp ordered
      have stepped :
          (head.perform config state).2.Sound
            head.profileExchange.completed head.profileExchange.completed :=
        sound.perform (later head List.mem_cons_self)
      refine inductionHypothesis stepped restOrdered ?_ ?_ ?_
      · intro attempt member
        exact (afterHead attempt member).1
      · exact ended head List.mem_cons_self
      · intro attempt member
        exact ended attempt (List.mem_cons_of_mem head member)

omit [DpopVerifierCrate] [UrlParser] in
/-- A pod that has just started holds no cached answer. -/
theorem AuthState.new_sound : AuthState.new.Sound 0 0 where
  keysBacked := fun _ _ _ member => absurd member List.not_mem_nil
  keysCompleted := fun _ recorded => absurd recorded List.not_mem_nil
  issuersBacked := fun _ _ _ member => absurd member List.not_mem_nil
  issuersCompleted := fun _ recorded => absurd recorded List.not_mem_nil

/-! ## What an acceptance rests on -/

/-- What `josekit` returns from a token is the payload the token carries. -/
def JoseContract : Prop :=
  ∀ token verifier payload,
    Josekit.decodeWithVerifier token verifier = some payload →
    payloadOf token = .ok (.object payload)

/--
The grounds on which a call accepts a WebID: the claims of its token, a fetch of
the issuer's keys, a fetch of the profile, and the proof.
-/
structure Grounds
    (config : AuthConfig)
    (attempt : Attempt)
    (state : AuthState)
    (webid token issuer jkt : Text)
    (payload : Json)
    (keyFetch : Fetch KeyAnswers)
    (profileFetch : Fetch GuardedGet) :
    Prop where
  presented : parseDpopScheme attempt.presented.authHeader = .ok token
  carried : payloadOf token = .ok payload
  namesWebid : (payload.get? "webid".toList).bind Json.asStr = some webid
  namesIssuer : (payload.get? "iss".toList).bind Json.asStr = some issuer
  keysFetched : keyFetch ∈ state.keys.fetches
  keysFor : keyFetch.key = issuer
  keysBefore : keyFetch.completed ≤ attempt.keyExchange.completed
  keysRecent :
    attempt.keyExchange.asked < keyFetch.completed + fromSecs 300
  signed :
    ∃ keys key verifier claims,
      fetchKeys keyFetch.answer issuer = .ok keys ∧
      key ∈ keys ∧
      selectKey keys (kidOf token) = .ok key ∧
      (∀ kid, kidOf token = some kid → Josekit.keyId key = some kid) ∧
      verifierFor key = .ok verifier ∧
      Josekit.decodeWithVerifier token verifier = some claims ∧
      payload = .object claims
  profileFetched : profileFetch ∈ state.issuers.fetches
  profileFor : profileFetch.key = webid
  profileBefore : profileFetch.completed ≤ attempt.profileExchange.completed
  profileRecent :
    attempt.profileExchange.asked < profileFetch.completed + fromSecs 120
  declared :
    ∃ document subject object quad,
      fetchProfile profileFetch.answer webid = .ok document ∧
      quad ∈ document.quads ∧
      quad.subject = .namedNode subject ∧
      subject.iri = webid ∧
      quad.predicate.iri = solidOidcIssuer ∧
      quad.object = .namedNode object ∧
      object.iri.rdropWhile (· = '/') = issuer.rdropWhile (· = '/')
  trusted :
    ∀ issuers,
      config.trustedIssuers = some issuers →
      ∃ allowed ∈ issuers,
        allowed.rdropWhile (· = '/') = issuer.rdropWhile (· = '/')
  audience :
    ∀ expected,
      config.expectedAudience = some expected →
      expected ∈ parseAudience (payload.get? "aud".toList)
  confirms :
    ((payload.get? "cnf".toList).bind (·.get? "jkt".toList)).bind Json.asStr =
      some jkt
  bound :
    ∃ proof verified,
      attempt.presented.dpopHeader = some proof ∧
      DpopCall.checked
        ⟨proof, attempt.presented.htu, attempt.presented.htm, jkt,
          attempt.presented.now, attempt.presented.wallClock⟩ = .ok verified ∧
      verified.jkt = jkt

section Accepted

variable {config : AuthConfig} {attempt : Attempt}
variable {first resolved authorized last : AuthState}

omit [DpopVerifierCrate] [UrlParser] in
/-- The keys a token is verified with were fetched for the issuer. -/
theorem keyFetch_of_resolve
    {issuer : Text}
    {keys : List Josekit.Jwk}
    {issuersBy : Instant}
    (sound : first.Sound attempt.keyExchange.asked issuersBy)
    (resolves :
      ((attempt.deps config).resolve issuer).perform first =
        (.ok keys, resolved)) :
    resolved.issuers = first.issuers ∧
      ∃ made ∈ resolved.keys.fetches,
        made.key = issuer ∧
        fetchKeys made.answer issuer = .ok keys ∧
        made.completed ≤ attempt.keyExchange.completed ∧
        attempt.keyExchange.asked < made.completed + fromSecs 300 := by
  obtain ⟨answered, left⟩ := Prod.mk.inj resolves
  subst left
  exact ⟨rfl, fetched_of_cachedFetch sound.keysBacked sound.keysCompleted
    (Prod.ext answered rfl) (by decide)⟩

omit [DpopVerifierCrate] [UrlParser] in
/-- The profile that authorizes an issuer was fetched for the WebID. -/
theorem profileFetch_of_authorizes
    {webid issuer : Text}
    {keysBy : Instant}
    (sound : resolved.Sound keysBy attempt.profileExchange.asked)
    (authorizes :
      ((attempt.deps config).authorizes webid issuer).perform resolved =
        (.ok true, authorized)) :
    authorized.keys = resolved.keys ∧
      ∃ made ∈ authorized.issuers.fetches,
        made.key = webid ∧
        (∃ issuers,
          fetchIssuers made.answer webid = .ok issuers ∧
          ∃ declared ∈ issuers, issuerMatches declared issuer = true) ∧
        made.completed ≤ attempt.profileExchange.completed ∧
        attempt.profileExchange.asked < made.completed + fromSecs 120 := by
  obtain ⟨answered, left⟩ := Prod.mk.inj authorizes
  subst left
  obtain ⟨issuers, looked, declares⟩ :=
    authorizes_eq_ok (Prod.ext answered rfl)
  obtain ⟨made, recorded, sameKey, fetched, before, recent⟩ :=
    fetched_of_cachedFetch sound.issuersBacked sound.issuersCompleted looked
      (by decide)
  exact ⟨rfl, made, recorded, sameKey, ⟨issuers, fetched, declares⟩, before,
    recent⟩

/-- A verified proof leaves the caches and is bound to the expected key. -/
theorem bound_of_verifyDpop
    {call : DpopCall}
    (verifies :
      (verifyDpop (attempt.deps config).record call).perform authorized =
        (.ok (), last)) :
    last.keys = authorized.keys ∧
      last.issuers = authorized.issuers ∧
      ∃ verified,
        call.checked = .ok verified ∧ verified.jkt = call.expectedJkt := by
  unfold verifyDpop at verifies
  obtain ⟨verified, checked, recorded⟩ :=
    Verification.perform_check_bind_eq_ok verifies
  obtain ⟨_, left⟩ := Prod.mk.inj recorded
  subst left
  exact ⟨rfl, rfl, verified, checked, (DpopCall.checked_eq_ok checked).2.2⟩

omit [IriSyntax] [RdfParser] [Josekit] [DpopVerifierCrate] [UrlParser] in
/-- An issuer that passed the allowlist is on it. -/
theorem trusted_of_checkTrustedIssuer
    {token issuer : Text}
    (passes : checkTrustedIssuer config token = .ok ())
    (peeked : peekUntrustedIssuer token = .ok issuer)
    {issuers : List Text}
    (configured : config.trustedIssuers = some issuers) :
    ∃ allowed ∈ issuers,
      allowed.rdropWhile (· = '/') = issuer.rdropWhile (· = '/') := by
  unfold checkTrustedIssuer at passes
  rw [configured] at passes
  obtain ⟨found, same, listed⟩ := bind_eq_ok passes
  rw [peeked] at same
  have sameIssuer : issuer = found := Except.ok.inj same
  subst sameIssuer
  have matched := refuseIf_eq_ok_iff.mp listed
  simp only [Bool.not_eq_true, Bool.not_eq_false'] at matched
  obtain ⟨allowed, member, agrees⟩ :=
    List.any_eq_true.mp (by simpa using matched)
  exact ⟨allowed, member, by simpa [issuerMatches] using agrees⟩

omit [IriSyntax] [RdfParser] [WireFormats] [Josekit] [DpopVerifierCrate]
  [UrlParser] in
/-- A token that passed the audience check names the expected audience. -/
theorem mem_of_checkAudience
    {claims : AccessClaims}
    (passes : checkAudience config claims = .ok ())
    {expected : Text}
    (configured : config.expectedAudience = some expected) :
    expected ∈ claims.audience := by
  unfold checkAudience at passes
  rw [configured] at passes
  exact not_not.mp (refuseIf_eq_ok_iff.mp passes)

end Accepted

/--
Along every sequence of calls with a clock that does not go back, an accepted
WebID rests on a successful fetch of its issuer's keys and one of its profile,
each for exactly that string and within its time to live, and on a proof bound to
the token.
-/
theorem accepted_webid_grounded
    (contract : JoseContract)
    (config : AuthConfig)
    (earlier : List Attempt)
    (attempt : Attempt)
    (ordered : (earlier ++ [attempt]).Pairwise Attempt.Precedes)
    (webid : Text)
    (last : AuthState)
    (accepted :
      attempt.perform config (AuthState.new.after config earlier) =
        (.ok (.webId webid), last)) :
    ∃ token issuer jkt payload keyFetch profileFetch,
      Grounds config attempt last webid token issuer jkt payload keyFetch
        profileFetch := by
  obtain ⟨earlierOrdered, _, precedes⟩ := List.pairwise_append.mp ordered
  have sound :
      (AuthState.new.after config earlier).Sound
        attempt.keyExchange.asked attempt.keyExchange.asked := by
    refine AuthState.new_sound.after earlierOrdered ?_ (Nat.zero_le _) ?_
    · intro other _
      exact Nat.zero_le _
    · intro other member
      exact (precedes other member attempt List.mem_cons_self).1
  have present :
      attempt.presented.authHeader ≠ none ∨
        attempt.presented.dpopHeader ≠ none := by
    by_contra absent
    have bare :
        (attempt.presented.authHeader.isNone &&
          attempt.presented.dpopHeader.isNone) = true := by
      simpa using absent
    unfold Attempt.perform authenticate at accepted
    rw [if_pos bare] at accepted
    cases accepted
  obtain ⟨token, proof, claims, resolved, authorized, isWebId, proves⟩ :=
    proves_of_authenticate present accepted
  have sameWebid : webid = claims.webid := Agent.webId.inj isWebId
  subst sameWebid
  obtain ⟨payload, issuer, keys, key, verifier, verifiedPayload, carried, peeked,
    resolves, selected, built, signed, read⟩ :=
    verifyAccessToken_eq_ok proves.verified
  have samePayload : payload = .object verifiedPayload :=
    Except.ok.inj (carried.symm.trans (contract token verifier _ signed))
  subst samePayload
  obtain ⟨namesWebid, confirms, namesIssuer, audience⟩ := accessClaims_eq_ok read
  have sameIssuer : issuer = claims.issuer :=
    Except.ok.inj (peeked.symm.trans namesIssuer)
  subst sameIssuer
  obtain ⟨sameIssuers, keyFetch, keysFetched, keysFor, fetchedKeys, keysBefore,
    keysRecent⟩ := keyFetch_of_resolve sound resolves
  have resolvedSound :
      resolved.Sound attempt.keyExchange.completed
        attempt.profileExchange.asked := by
    have kept :
        (((attempt.deps config).resolve claims.issuer).perform
          (AuthState.new.after config earlier)).2.Sound _ _ :=
      resolve_establishes claims.issuer _ _ sound
    rw [resolves] at kept
    exact kept.mono le_rfl (attempt.keyExchange.ordered.trans attempt.ordered)
  obtain ⟨sameKeys, profileFetch, profileFetched, profileFor, ⟨issuers,
    fetchedIssuers, declaredIssuer, declares, agrees⟩, profileBefore,
    profileRecent⟩ := profileFetch_of_authorizes resolvedSound proves.authorizes
  obtain ⟨keptKeys, keptIssuers, verified, checked, bound⟩ :=
    bound_of_verifyDpop proves.bound
  obtain ⟨document, subject, object, quad, parsed, held, isSubject, isWebid,
    isPredicate, isObject, isDeclared⟩ :=
    declares_of_fetchIssuers fetchedIssuers declares
  have keyFacts := selectKey_eq_ok selected
  refine ⟨token, claims.issuer, claims.jkt, .object verifiedPayload, keyFetch,
    profileFetch, ?_⟩
  exact
    { presented := proves.scheme
      carried := carried
      namesWebid := namesWebid
      namesIssuer := okOr_eq_ok_iff.mp namesIssuer
      keysFetched := by rw [keptKeys, sameKeys]; exact keysFetched
      keysFor := keysFor
      keysBefore := keysBefore
      keysRecent := keysRecent
      signed := ⟨keys, key, verifier, verifiedPayload, fetchedKeys, keyFacts.1,
        selected, keyFacts.2, built, signed, rfl⟩
      profileFetched := by rw [keptIssuers]; exact profileFetched
      profileFor := profileFor
      profileBefore := profileBefore
      profileRecent := profileRecent
      declared := ⟨document, subject, object, quad, parsed, held, isSubject,
        isWebid, isPredicate, isObject, by
          rw [isDeclared]
          simpa [issuerMatches] using agrees⟩
      trusted := fun _ configured =>
        trusted_of_checkTrustedIssuer proves.trusted
          (by rw [peekUntrustedIssuer_eq, carried]; exact peeked) configured
      audience := fun _ configured => by
        rw [← audience]
        exact mem_of_checkAudience proves.audience configured
      confirms := confirms
      bound := ⟨proof, verified, proves.present, checked, bound⟩ }

end Quadpod

namespace Quadpod.Reference

/-- The issuer's two documents and the owner's profile, as the network gives
them. -/
def reachable : GuardedGet := fun url _ =>
  if url = "https://idp.example/.well-known/openid-configuration".toList then
    .ok (discoveryBody, some "application/json".toList)
  else if url = "https://idp.example/jwks".toList then
    .ok (keySetBody, some "application/json".toList)
  else if url = ownerIri then
    .ok (document profileQuads, some "text/turtle".toList)
  else
    .error (.fetchBlocked [])

/-- A network that answers nothing. -/
def unreachable : GuardedGet := fun _ _ => .error (.fetchBlocked [])

/-- A `GET` of `/note` with the owner's token and a proof, at a second of the
clock. -/
def attemptAt (network : GuardedGet) (proof : Text) (now : Nat) : Attempt where
  presented :=
    { authHeader := some ("DPoP ".toList ++ accessToken)
      dpopHeader := some proof
      htm := "GET".toList
      htu := "https://pod.example/note".toList
      now := .clamp now
      wallClock := now }
  keyExchange := ⟨⟨network, network⟩, fromSecs now, fromSecs now, le_rfl, id⟩
  profileExchange := ⟨network, fromSecs now, fromSecs now, le_rfl, id⟩
  ordered := le_rfl

/-- An allowlist with the issuer, without its slash, and an audience. -/
def strictConfig : AuthConfig where
  trustedIssuers := some ["https://idp.example".toList]
  expectedAudience := some "solid".toList

/-- `josekit` returns here what a token carries. -/
theorem joseContract : JoseContract := by
  intro token verifier payload decoded
  change (if token = accessToken ∧ keyMember verifier "kid" = some "k1".toList then
      (payloadOf token).toOption.bind Json.asObject
    else
      none) = some payload at decoded
  split at decoded
  · cases carried : payloadOf token with
    | error error =>
        rw [carried] at decoded
        cases decoded
    | ok value =>
        rw [carried] at decoded
        cases value with
        | object members =>
            rw [Option.some.inj decoded]
        | null => cases decoded
        | bool _ => cases decoded
        | integer _ => cases decoded
        | float _ => cases decoded
        | string _ => cases decoded
        | array _ => cases decoded
  · cases decoded

/-- A second request is accepted from the caches, with the network gone. -/
theorem accepted_webid_grounded_cached :
    ∃ last token issuer thumbprint payload keyFetch profileFetch,
      Grounds strictConfig (attemptAt unreachable secondProof 1100) last ownerIri
        token issuer thumbprint payload keyFetch profileFetch := by
  have accepted :
      ((attemptAt unreachable secondProof 1100).perform strictConfig
        (AuthState.new.after strictConfig
          [attemptAt reachable firstProof 1000])).1.toOption =
        some (.webId ownerIri) := by
    decide +kernel
  have ordered :
      ([attemptAt reachable firstProof 1000] ++
        [attemptAt unreachable secondProof 1100]).Pairwise
          Attempt.Precedes := by
    refine List.pairwise_pair.mpr ⟨?_, ?_⟩
    · decide
    · decide
  cases performed :
      (attemptAt unreachable secondProof 1100).perform strictConfig
        (AuthState.new.after strictConfig
          [attemptAt reachable firstProof 1000]) with
  | mk answer last =>
      rw [performed] at accepted
      cases answer with
      | error error =>
          cases accepted
      | ok agent =>
          have isOwner : agent = .webId ownerIri := Option.some.inj accepted
          rw [isOwner] at performed
          exact ⟨last, accepted_webid_grounded joseContract strictConfig _ _
            ordered ownerIri last performed⟩

end Quadpod.Reference
