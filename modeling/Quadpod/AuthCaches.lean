import Quadpod.AccessToken
import Quadpod.KeyedTable
import Quadpod.Shapes

namespace Quadpod

/-!
# Cached fetches of keys and profiles

`auth/cache.rs`, `auth/http_jwks.rs` and `auth/webid_issuer.rs`: an issuer's keys
and a WebID's declared issuers, each behind a cache of successes and a cache of
failures.  Both resolvers follow one scheme, `cachedFetch`.  Beside the caches
the state keeps the fetches made so far, which no code reads.
-/

open AuthError

/-! ## The scheme -/

/-- `std::time::Instant`, in nanoseconds. -/
abbrev Instant := Nat

/-- `Duration::from_secs` -/
def fromSecs (seconds : Nat) : Nat := seconds * 1000000000

/-- `Instant::elapsed`, at an instant. -/
def elapsed (now stamp : Instant) : Nat := now - stamp

/-- `MAX_CACHE_ENTRIES` -/
def maxCacheEntries : Nat := 1024

/-- The second half of making room: the least recently fetched entry goes. -/
def evictOldest {Value : Type}
    (order : List Text → List Text) (map : KeyedTable Text Value)
    (stamp : Value → Instant) :
    KeyedTable Text Value :=
  if maxCacheEntries ≤ map.size then
    match map.minByKey order stamp with
    | some oldest => map.remove oldest
    | none => map
  else
    map

/-- `insert_bounded` -/
def insertBounded {Value : Type}
    (order : List Text → List Text) (now : Instant)
    (map : KeyedTable Text Value) (key : Text) (value : Value)
    (ttl : Nat) (stamp : Value → Instant) :
    KeyedTable Text Value :=
  if maxCacheEntries ≤ map.size ∧ map.containsKey key = false then
    (evictOldest order
      (map.retain fun _ held => elapsed now (stamp held) < ttl)
      stamp).insert key value
  else
    map.insert key value

/-- A fetch for a key: what the network answered, and when it was complete. -/
structure Fetch (Answer : Type) where
  key : Text
  answer : Answer
  completed : Instant

/-- The two caches of a resolver, and the fetches it made. -/
structure Caches (Answer Value : Type) where
  cache : KeyedTable Text (Value × Instant)
  negativeCache : KeyedTable Text Instant
  fetches : List (Fetch Answer)

/-- What a fetch meets: the answer, the instants before and after it, and the
iteration order of the caches. -/
structure Exchange (Answer : Type) where
  answer : Answer
  asked : Instant
  completed : Instant
  ordered : asked ≤ completed
  order : List Text → List Text

section Scheme

variable {Answer Value : Type}

/-- A resolver's lookup: the cache, then the negative cache, then a fetch. -/
def cachedFetch
    (ttl negativeTtl : Nat)
    (recentlyFailed : AuthError)
    (fetch : Answer → Text → Except AuthError Value)
    (exchange : Exchange Answer)
    (key : Text) :
    Verification (Caches Answer Value) Value := do
  let caches ← get
  let hit := (caches.cache.lookup key).filter fun (_, fetchedAt) =>
    elapsed exchange.asked fetchedAt < ttl
  let failed := (caches.negativeCache.lookup key).filter fun failedAt =>
    elapsed exchange.asked failedAt < negativeTtl
  match hit, failed with
  | some (value, _), _ => pure value
  | none, some _ => throw recentlyFailed
  | none, none =>
      let fetches :=
        ⟨key, exchange.answer, exchange.completed⟩ :: caches.fetches
      match fetch exchange.answer key with
      | .ok value =>
          set (⟨insertBounded exchange.order exchange.completed caches.cache key
              (value, exchange.completed) ttl Prod.snd,
            caches.negativeCache.remove key, fetches⟩ : Caches Answer Value)
          pure value
      | .error error =>
          set (⟨caches.cache,
            insertBounded exchange.order exchange.completed
              caches.negativeCache key exchange.completed negativeTtl id,
            fetches⟩ : Caches Answer Value)
          throw error

/-- Evicting adds no entry. -/
theorem mem_of_mem_evictOldest
    {order : List Text → List Text}
    {map : KeyedTable Text Value}
    {stamp : Value → Instant}
    {entry : Text × Value}
    (member : entry ∈ (evictOldest order map stamp).entries) :
    entry ∈ map.entries := by
  unfold evictOldest at member
  split at member
  · split at member
    · exact KeyedTable.mem_of_mem_retain member
    · exact member
  · exact member

/-- Making room and inserting adds the one entry. -/
theorem mem_of_mem_insertBounded
    {order : List Text → List Text}
    {now : Instant}
    {map : KeyedTable Text Value}
    {key : Text}
    {value : Value}
    {ttl : Nat}
    {stamp : Value → Instant}
    {entry : Text × Value}
    (member :
      entry ∈ (insertBounded order now map key value ttl stamp).entries) :
    entry = (key, value) ∨ entry ∈ map.entries := by
  unfold insertBounded at member
  split at member
  · rcases KeyedTable.mem_of_mem_insert member with isNew | kept
    · exact .inl isNew
    · exact .inr (KeyedTable.mem_of_mem_retain (mem_of_mem_evictOldest kept))
  · exact KeyedTable.mem_of_mem_insert member

/-- Every cached value is what a recorded fetch for its key returned. -/
def Caches.Backed
    (fetch : Answer → Text → Except AuthError Value)
    (caches : Caches Answer Value) :
    Prop :=
  ∀ key value stamp,
    (key, (value, stamp)) ∈ caches.cache.entries →
    ∃ made ∈ caches.fetches,
      made.key = key ∧
      fetch made.answer made.key = .ok value ∧
      made.completed = stamp

/-- Every recorded fetch was complete by an instant. -/
def Caches.CompletedBy (caches : Caches Answer Value) (instant : Instant) :
    Prop :=
  ∀ made ∈ caches.fetches, made.completed ≤ instant

/-- What a lookup does: it answers from the cache, it refuses, or it fetches. -/
theorem perform_cachedFetch
    {ttl negativeTtl : Nat}
    {recentlyFailed : AuthError}
    {fetch : Answer → Text → Except AuthError Value}
    {exchange : Exchange Answer}
    {key : Text}
    {caches next : Caches Answer Value}
    {outcome : Except AuthError Value}
    (performed :
      (cachedFetch ttl negativeTtl recentlyFailed fetch exchange key).perform
        caches = (outcome, next)) :
    (∃ value stamp,
      (key, (value, stamp)) ∈ caches.cache.entries ∧
      elapsed exchange.asked stamp < ttl ∧
      outcome = .ok value ∧ next = caches) ∨
    (outcome = .error recentlyFailed ∧ next = caches) ∨
    (outcome = fetch exchange.answer key ∧
      next.fetches =
        ⟨key, exchange.answer, exchange.completed⟩ :: caches.fetches ∧
      ∀ entry ∈ next.cache.entries,
        entry ∈ caches.cache.entries ∨
        ∃ value,
          outcome = .ok value ∧ entry = (key, (value, exchange.completed))) := by
  unfold cachedFetch at performed
  rw [Verification.perform_bind, Verification.perform_get] at performed
  simp only at performed
  split at performed
  next value stamp hit =>
      obtain ⟨held, recent⟩ := Option.filter_eq_some_iff.mp hit
      obtain ⟨rfl, rfl⟩ := Prod.mk.inj performed
      exact .inl ⟨value, stamp, KeyedTable.mem_of_lookup held,
        of_decide_eq_true recent, rfl, rfl⟩
  next =>
      obtain ⟨rfl, rfl⟩ := Prod.mk.inj performed
      exact .inr (.inl ⟨rfl, rfl⟩)
  next =>
      right
      right
      cases fetched : fetch exchange.answer key with
      | ok value =>
          rw [fetched] at performed
          obtain ⟨rfl, rfl⟩ := Prod.mk.inj performed
          refine ⟨rfl, rfl, ?_⟩
          intro entry member
          rcases mem_of_mem_insertBounded member with isNew | kept
          · exact .inr ⟨value, rfl, isNew⟩
          · exact .inl kept
      | error error =>
          rw [fetched] at performed
          obtain ⟨rfl, rfl⟩ := Prod.mk.inj performed
          refine ⟨rfl, rfl, ?_⟩
          intro entry member
          exact .inl member

section Lookup

variable
  {ttl negativeTtl : Nat}
  {recentlyFailed : AuthError}
  {fetch : Answer → Text → Except AuthError Value}
  {exchange : Exchange Answer}
  {key : Text}
  {caches next : Caches Answer Value}
  {outcome : Except AuthError Value}

/-- A lookup leaves every cached value backed by a fetch. -/
theorem Caches.Backed.cachedFetch
    (backed : caches.Backed fetch)
    (performed :
      (cachedFetch ttl negativeTtl recentlyFailed fetch exchange key).perform
        caches = (outcome, next)) :
    next.Backed fetch := by
  rcases perform_cachedFetch performed with
    ⟨_, _, _, _, _, same⟩ | ⟨_, same⟩ | ⟨fetched, grown, added⟩
  · rw [same]
    exact backed
  · rw [same]
    exact backed
  · intro entryKey value stamp member
    rw [grown]
    rcases added _ member with old | ⟨found, succeeded, isNew⟩
    · obtain ⟨made, recorded, facts⟩ := backed entryKey value stamp old
      exact ⟨made, List.mem_cons_of_mem _ recorded, facts⟩
    · obtain ⟨rfl, sameValue⟩ := Prod.mk.inj isNew
      obtain ⟨rfl, rfl⟩ := Prod.mk.inj sameValue
      exact ⟨_, List.mem_cons_self, rfl, fetched.symm.trans succeeded, rfl⟩

/-- A lookup leaves every fetch complete by its own end. -/
theorem Caches.CompletedBy.cachedFetch
    (completed : caches.CompletedBy exchange.asked)
    (performed :
      (cachedFetch ttl negativeTtl recentlyFailed fetch exchange key).perform
        caches = (outcome, next)) :
    next.CompletedBy exchange.completed := by
  have earlier : caches.CompletedBy exchange.completed := by
    intro made recorded
    exact (completed made recorded).trans exchange.ordered
  rcases perform_cachedFetch performed with
    ⟨_, _, _, _, _, same⟩ | ⟨_, same⟩ | ⟨_, grown, _⟩
  · rw [same]
    exact earlier
  · rw [same]
    exact earlier
  · intro made recorded
    rw [grown] at recorded
    rcases List.mem_cons.mp recorded with isNew | old
    · rw [isNew]
    · exact earlier made old

/-- A value a lookup returns was fetched for its key, successfully and within
the time to live. -/
theorem fetched_of_cachedFetch
    {value : Value}
    (backed : caches.Backed fetch)
    (completed : caches.CompletedBy exchange.asked)
    (performed :
      (cachedFetch ttl negativeTtl recentlyFailed fetch exchange key).perform
        caches = (.ok value, next))
    (positive : 0 < ttl) :
    ∃ made ∈ next.fetches,
      made.key = key ∧
      fetch made.answer key = .ok value ∧
      made.completed ≤ exchange.completed ∧
      exchange.asked < made.completed + ttl := by
  rcases perform_cachedFetch performed with
    ⟨found, stamp, held, recent, returned, same⟩ | ⟨refused, _⟩ |
      ⟨fetched, grown, _⟩
  · obtain ⟨made, recorded, sameKey, succeeded, stamped⟩ :=
      backed key found stamp held
    have sameValue : found = value := (Except.ok.inj returned).symm
    subst sameKey sameValue stamped
    refine ⟨made, by rw [same]; exact recorded, rfl, succeeded, ?_, ?_⟩
    · exact (completed made recorded).trans exchange.ordered
    · exact (Nat.sub_lt_iff_lt_add' (completed made recorded)).mp recent
  · cases refused
  · refine ⟨⟨key, exchange.answer, exchange.completed⟩, ?_, rfl, fetched.symm,
      le_rfl, ?_⟩
    · rw [grown]
      exact List.mem_cons_self
    · exact exchange.ordered.trans_lt (Nat.lt_add_of_pos_right positive)

end Lookup

end Scheme

/-! ## Keys -/

/-- `guarded_get`: the body and the content type, for a URL and an `Accept`. -/
abbrev GuardedGet := Text → Text → Except AuthError (Text × Option Text)

variable [WireFormats] [Josekit]

/-- What the network answers to the two requests for an issuer's keys. -/
structure KeyAnswers where
  discovery : GuardedGet
  keySet : GuardedGet

/-- `http_jwks::CACHE_TTL` -/
def keyCacheTtl : Nat := fromSecs 300

/-- `NEGATIVE_CACHE_TTL` -/
def negativeCacheTtl : Nat := fromSecs 30

/-- `serde_json::from_value::<Vec<Jwk>>` -/
def keysFromValue : Json → Option (List Josekit.Jwk)
  | .array items => items.mapM fun item => item.asObject.bind Josekit.fromMap
  | _ => none

/-- `HttpJwksResolver::fetch` -/
def fetchKeys (answers : KeyAnswers) (issuer : Text) :
    Except AuthError (List Josekit.Jwk) := do
  let discoveryUrl :=
    if Text.endsWith ['/'] issuer then
      issuer ++ ".well-known/openid-configuration".toList
    else
      issuer ++ "/.well-known/openid-configuration".toList
  let (discoveryBody, _) ←
    (answers.discovery discoveryUrl "application/json".toList).mapError
      fun _ => .unknownIssuer
  let discovery ← okOr (WireFormats.parseJson (Text.utf8 discoveryBody))
    .unknownIssuer
  let jwksUri ← okOr ((discovery.get? "jwks_uri".toList).bind Json.asStr)
    .unknownIssuer
  let (jwksBody, _) ←
    (answers.keySet jwksUri "application/json".toList).mapError
      fun _ => .unknownIssuer
  let document ← okOr (WireFormats.parseJson (Text.utf8 jwksBody)) .unknownIssuer
  let keysValue ← okOr (document.get? "keys".toList) .unknownIssuer
  okOr (keysFromValue keysValue) .unknownIssuer

/-- `HttpJwksResolver::resolve` -/
def resolveKeys (exchange : Exchange KeyAnswers) (issuer : Text) :
    Verification (Caches KeyAnswers (List Josekit.Jwk)) (List Josekit.Jwk) :=
  cachedFetch keyCacheTtl negativeCacheTtl .unknownIssuer fetchKeys exchange
    issuer

/-! ## Profiles -/

/-- `SOLID_OIDC_ISSUER` -/
def solidOidcIssuer : Text :=
  "http://www.w3.org/ns/solid/terms#oidcIssuer".toList

/-- `webid_issuer::CACHE_TTL` -/
def profileCacheTtl : Nat := fromSecs 120

/-- `issuer_matches` -/
def issuerMatches (first second : Text) : Bool :=
  first.rdropWhile (· = '/') == second.rdropWhile (· = '/')

variable [IriSyntax] [RdfParser]

/-- The profile document a WebID names: the WebID up to its fragment. -/
def profileUrl (webid : Text) : Text :=
  (Text.split '#' webid).headD webid

/-- The parsed profile document of a WebID. -/
def fetchProfile (answer : GuardedGet) (webid : Text) :
    Except AuthError Dataset := do
  let (body, contentType) ←
    answer (profileUrl webid) "text/turtle, application/ld+json;q=0.9".toList
  let format := (contentType.bind Format.fromContentType).getD .turtle
  (format.parse (Text.utf8 body) (profileUrl webid) .rdf12).mapError fun error =>
    .fetchBlocked ("invalid profile document: ".toList ++ error.display)

/-- The issuers a document declares for a subject. -/
def declaredIssuers (document : Dataset) (webid : Text) : List Text :=
  document.quads.filterMap fun quad =>
    match quad.subject, quad.object with
    | .namedNode subject, .namedNode issuer =>
        if subject.iri = webid ∧ quad.predicate.iri = solidOidcIssuer then
          some issuer.iri
        else
          none
    | _, _ => none

/-- `HttpWebIdIssuers::fetch_issuers` -/
def fetchIssuers (answer : GuardedGet) (webid : Text) :
    Except AuthError (List Text) := do
  let document ← fetchProfile answer webid
  pure (declaredIssuers document webid)

/-- `HttpWebIdIssuers::authorizes` -/
def authorizes (exchange : Exchange GuardedGet) (webid issuer : Text) :
    Verification (Caches GuardedGet (List Text)) Bool := do
  let issuers ← cachedFetch profileCacheTtl negativeCacheTtl
    (.fetchBlocked "webid profile document recently failed to resolve".toList)
    fetchIssuers exchange webid
  pure (issuers.any fun declared => issuerMatches declared issuer)

omit [WireFormats] [Josekit] in
/-- A profile that authorizes an issuer was looked up and declares it. -/
theorem authorizes_eq_ok
    {exchange : Exchange GuardedGet}
    {webid issuer : Text}
    {caches next : Caches GuardedGet (List Text)}
    (authorized :
      (authorizes exchange webid issuer).perform caches = (.ok true, next)) :
    ∃ issuers,
      (cachedFetch profileCacheTtl negativeCacheTtl
        (.fetchBlocked
          "webid profile document recently failed to resolve".toList)
        fetchIssuers exchange webid).perform caches = (.ok issuers, next) ∧
      ∃ declared ∈ issuers, issuerMatches declared issuer = true := by
  unfold authorizes at authorized
  obtain ⟨issuers, middle, looked, authorized⟩ :=
    Verification.perform_bind_eq_ok authorized
  rw [Verification.perform_pure] at authorized
  obtain ⟨declares, same⟩ := Prod.mk.inj authorized
  subst same
  exact ⟨issuers, looked, List.any_eq_true.mp (Except.ok.inj declares)⟩

omit [WireFormats] [Josekit] in
/-- Asking for an issuer changes the caches as the lookup does. -/
theorem perform_authorizes_snd
    (exchange : Exchange GuardedGet)
    (webid issuer : Text)
    (caches : Caches GuardedGet (List Text)) :
    ((authorizes exchange webid issuer).perform caches).2 =
      ((cachedFetch profileCacheTtl negativeCacheTtl
        (.fetchBlocked
          "webid profile document recently failed to resolve".toList)
        fetchIssuers exchange webid).perform caches).2 := by
  unfold authorizes
  rw [Verification.perform_bind]
  split
  next issuers middle looked =>
      rw [looked]
      rfl
  next error middle looked =>
      rw [looked]

omit [WireFormats] [Josekit] in
/-- An issuer a fetched profile declares stands in its document, for that
subject. -/
theorem declares_of_fetchIssuers
    {answer : GuardedGet}
    {webid declared : Text}
    {issuers : List Text}
    (fetched : fetchIssuers answer webid = .ok issuers)
    (member : declared ∈ issuers) :
    ∃ document subject object quad,
      fetchProfile answer webid = .ok document ∧
      quad ∈ document.quads ∧
      quad.subject = .namedNode subject ∧
      subject.iri = webid ∧
      quad.predicate.iri = solidOidcIssuer ∧
      quad.object = .namedNode object ∧
      object.iri = declared := by
  unfold fetchIssuers at fetched
  obtain ⟨document, parsed, fetched⟩ := bind_eq_ok fetched
  have same : declaredIssuers document webid = issuers := Except.ok.inj fetched
  rw [← same] at member
  obtain ⟨quad, held, found⟩ := List.mem_filterMap.mp member
  split at found
  next subject object isSubject isObject =>
      split at found
      next facts =>
          exact ⟨document, subject, object, quad, parsed, held, isSubject,
            facts.1, facts.2, isObject, Option.some.inj found⟩
      next =>
          cases found
  next =>
      cases found

end Quadpod
