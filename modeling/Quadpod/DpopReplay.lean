import Quadpod.DpopProof
import Quadpod.ReferenceCredentials

namespace Quadpod

/-!
# Replay protection

A sequence of `verify_dpop` calls on the in-memory replay set.  An entry leaves
the set in a sweep only, and a sweep keeps it until the clock is
`MAX_AGE_SECONDS + FUTURE_SKEW_SECONDS` past its recording.  A proof accepted at
one time is at most `FUTURE_SKEW_SECONDS` ahead of it, so it is stale by then.
-/

open AuthError

variable [WireFormats] [Josekit] [DpopVerifierCrate] [UrlParser]

/-! ## Sequences of calls -/

/-- `verify_dpop` on the in-memory replay set: its answer and the set after. -/
def DpopCall.perform (call : DpopCall) (replay : ReplaySet) :
    Except AuthError Unit × ReplaySet :=
  (verifyDpop recordOrReject call).perform replay

/-- The `jti` and `iat` of a call's proof, where its signature verifies. -/
def DpopCall.identity (call : DpopCall) : Option (Text × I64) :=
  call.verified.toOption.map fun verified => (verified.jti, verified.iat)

/-- The calls of a sequence that are accepted, in order. -/
def acceptedCalls : List DpopCall → ReplaySet → List DpopCall
  | [], _ => []
  | call :: rest, replay =>
      let later := acceptedCalls rest (call.perform replay).2
      if (call.perform replay).1.isOk then call :: later else later

/-! ## One call -/

omit [Josekit] [DpopVerifierCrate] [UrlParser] in
/-- `record_or_reject` after its sweep. -/
theorem perform_recordOrReject
    (jti : Text)
    (now : I64)
    (replay : ReplaySet) :
    (recordOrReject jti now).perform replay =
      match (replay.sweep now).jtis (hashJti jti) with
      | none => (.ok (), (replay.sweep now).insert (hashJti jti) now)
      | some _ =>
          (.error (.dpopInvalid "dpop proof replayed".toList),
            replay.sweep now) := by
  unfold recordOrReject
  simp only [Verification.perform_bind, Verification.perform_modify,
    Verification.perform_get]
  cases (replay.sweep now).jtis (hashJti jti) with
  | none =>
      rfl
  | some _ =>
      rfl

/-- A call whose proof a check refuses. -/
theorem DpopCall.perform_refused
    {call : DpopCall}
    {error : AuthError}
    (refused : call.checked = .error error)
    (replay : ReplaySet) :
    call.perform replay = (.error error, replay) := by
  unfold DpopCall.perform verifyDpop
  rw [Verification.perform_bind, Verification.perform_check, refused]

/-- A call whose proof passes every check goes to the replay set. -/
theorem DpopCall.perform_checked
    {call : DpopCall}
    {verified : VerifiedDpop}
    (passes : call.checked = .ok verified)
    (replay : ReplaySet) :
    call.perform replay =
      (recordOrReject verified.jti call.now).perform replay := by
  unfold DpopCall.perform verifyDpop
  rw [Verification.perform_bind, Verification.perform_check, passes]

/-! ## What a sweep keeps -/

/-- The replay set holds an entry for a hash, recorded at a time or later. -/
def ReplaySet.Remembers
    (replay : ReplaySet)
    (hash : Bytes)
    (since : I64) :
    Prop :=
  ∃ recordedAt, replay.jtis hash = some recordedAt ∧ since ≤ recordedAt

omit [WireFormats] [Josekit] [DpopVerifierCrate] [UrlParser] in
/-- A sweep adds no entry. -/
theorem ReplaySet.of_sweep
    {replay : ReplaySet}
    {now recordedAt : I64}
    {hash : Bytes}
    (held : (replay.sweep now).jtis hash = some recordedAt) :
    replay.jtis hash = some recordedAt := by
  unfold ReplaySet.sweep at held
  split at held
  · exact (Option.filter_eq_some_iff.mp held).1
  · exact held

omit [WireFormats] [Josekit] [DpopVerifierCrate] [UrlParser] in
/-- A sweep keeps an entry unless the clock is past its window. -/
theorem ReplaySet.Remembers.sweep
    {replay : ReplaySet}
    {hash : Bytes}
    {since : I64}
    (remembers : replay.Remembers hash since)
    (now : I64) :
    (replay.sweep now).Remembers hash since ∨
      since.value + (maxAgeSeconds + futureSkewSeconds) < now.value := by
  obtain ⟨recordedAt, held, later⟩ := remembers
  by_cases past :
      since.value + (maxAgeSeconds + futureSkewSeconds) < now.value
  · exact .inr past
  · left
    refine ⟨recordedAt, ?_, later⟩
    have window :
        (I64.clamp (maxAgeSeconds + futureSkewSeconds)).value =
          maxAgeSeconds + futureSkewSeconds := rfl
    have kept :
        now.saturatingSub (.clamp (maxAgeSeconds + futureSkewSeconds)) ≤
          recordedAt := by
      apply I64.saturatingSub_le_of_le
      rw [window]
      rw [I64.le_iff] at later
      omega
    unfold ReplaySet.sweep
    split
    · exact Option.filter_eq_some_iff.mpr ⟨held, decide_eq_true kept⟩
    · exact held

/-- An entry outlives a call unless the clock is past its window. -/
theorem ReplaySet.Remembers.perform
    {replay : ReplaySet}
    {hash : Bytes}
    {since : I64}
    (remembers : replay.Remembers hash since)
    (call : DpopCall) :
    (call.perform replay).2.Remembers hash since ∨
      since.value + (maxAgeSeconds + futureSkewSeconds) < call.now.value := by
  cases checked : call.checked with
  | error error =>
      rw [call.perform_refused checked]
      exact .inl remembers
  | ok verified =>
      rw [call.perform_checked checked, perform_recordOrReject]
      rcases remembers.sweep call.now with kept | past
      · left
        cases vacant : (replay.sweep call.now).jtis (hashJti verified.jti) with
        | some recordedAt =>
            exact kept
        | none =>
            obtain ⟨recordedAt, held, later⟩ := kept
            have other : hash ≠ hashJti verified.jti := by
              intro same
              rw [same, vacant] at held
              cases held
            refine ⟨recordedAt, ?_, later⟩
            exact (if_neg other).trans held
      · exact .inr past

/-! ## Accepted calls -/

/-- What an accepted call went through, and what it leaves. -/
theorem DpopCall.perform_isOk
    {call : DpopCall}
    {replay : ReplaySet}
    (accepted : (call.perform replay).1.isOk = true) :
    ∃ verified,
      call.checked = .ok verified ∧
      (replay.sweep call.now).jtis (hashJti verified.jti) = none ∧
      (call.perform replay).2.Remembers (hashJti verified.jti) call.now := by
  cases checked : call.checked with
  | error error =>
      rw [call.perform_refused checked] at accepted
      cases accepted
  | ok verified =>
      rw [call.perform_checked checked, perform_recordOrReject] at accepted ⊢
      cases vacant : (replay.sweep call.now).jtis (hashJti verified.jti) with
      | some recordedAt =>
          rw [vacant] at accepted
          cases accepted
      | none =>
          refine ⟨verified, rfl, vacant, call.now, ?_, Int.le_refl _⟩
          exact if_pos rfl

/-- The proof of an accepted call, and its freshness then. -/
theorem DpopCall.identity_of_checked
    {call : DpopCall}
    {verified : VerifiedDpop}
    (passes : call.checked = .ok verified) :
    call.identity = some (verified.jti, verified.iat) ∧
      call.now.value - maxAgeSeconds ≤ verified.iat.value ∧
      verified.iat.value ≤ call.now.value + futureSkewSeconds := by
  obtain ⟨verifies, fresh, _⟩ := DpopCall.checked_eq_ok passes
  refine ⟨?_, (checkFreshness_eq_ok_iff _ _).mp fresh⟩
  unfold DpopCall.identity
  rw [verifies]
  rfl

/-- The accepted calls are calls of the sequence. -/
theorem acceptedCalls_subset
    {calls : List DpopCall}
    {replay : ReplaySet} :
    acceptedCalls calls replay ⊆ calls := by
  induction calls generalizing replay with
  | nil =>
      exact List.Subset.refl _
  | cons head rest inductionHypothesis =>
      unfold acceptedCalls
      split
      next =>
          exact List.cons_subset_cons head inductionHypothesis
      next =>
          exact List.subset_cons_of_subset head inductionHypothesis

/-- The proof of an accepted call passed every check. -/
theorem checked_of_mem_acceptedCalls
    {calls : List DpopCall}
    {replay : ReplaySet}
    {call : DpopCall}
    (accepted : call ∈ acceptedCalls calls replay) :
    ∃ verified, call.checked = .ok verified := by
  induction calls generalizing replay with
  | nil =>
      cases accepted
  | cons head rest inductionHypothesis =>
      unfold acceptedCalls at accepted
      split at accepted
      next passes =>
          rcases List.mem_cons.mp accepted with isHead | member
          · subst isHead
            obtain ⟨verified, checked, _⟩ := DpopCall.perform_isOk passes
            exact ⟨verified, checked⟩
          · exact inductionHypothesis member
      next =>
          exact inductionHypothesis accepted

/-- While a hash is remembered, a call with that hash is accepted only once the
clock is past the window. -/
theorem past_window_of_accepted
    {calls : List DpopCall}
    {replay : ReplaySet}
    {hash : Bytes}
    {since : I64}
    (ordered : calls.Pairwise fun first second => first.now ≤ second.now)
    (remembers : replay.Remembers hash since) :
    ∀ call ∈ acceptedCalls calls replay,
      ∀ verified,
        call.checked = .ok verified →
        hashJti verified.jti = hash →
        since.value + (maxAgeSeconds + futureSkewSeconds) < call.now.value := by
  induction calls generalizing replay with
  | nil =>
      intro call accepted
      cases accepted
  | cons head rest inductionHypothesis =>
      obtain ⟨afterHead, restOrdered⟩ := List.pairwise_cons.mp ordered
      intro call accepted verified checked same
      have inRest :
          call ∈ acceptedCalls rest (head.perform replay).2 →
            since.value + (maxAgeSeconds + futureSkewSeconds) <
              call.now.value := by
        intro member
        rcases remembers.perform head with kept | past
        · exact
            inductionHypothesis restOrdered kept call member verified checked same
        · have later : head.now.value ≤ call.now.value :=
            afterHead call (acceptedCalls_subset member)
          omega
      unfold acceptedCalls at accepted
      split at accepted
      next passes =>
          rcases List.mem_cons.mp accepted with isHead | member
          · subst isHead
            obtain ⟨found, checkedHead, vacant, _⟩ :=
              DpopCall.perform_isOk passes
            have foundSame : found = verified :=
              Except.ok.inj (checkedHead.symm.trans checked)
            rcases remembers.sweep call.now with kept | past
            · obtain ⟨recordedAt, held, _⟩ := kept
              rw [foundSame, same, held] at vacant
              cases vacant
            · exact past
          · exact inRest member
      next =>
          exact inRest accepted

/-- No two accepted calls of a sequence present the same proof. -/
theorem acceptedCalls_distinct
    {calls : List DpopCall}
    (ordered : calls.Pairwise fun first second => first.now ≤ second.now)
    (replay : ReplaySet) :
    (acceptedCalls calls replay).Pairwise fun first second =>
      first.identity ≠ second.identity := by
  induction calls generalizing replay with
  | nil =>
      exact .nil
  | cons head rest inductionHypothesis =>
      obtain ⟨afterHead, restOrdered⟩ := List.pairwise_cons.mp ordered
      have later := inductionHypothesis restOrdered (head.perform replay).2
      unfold acceptedCalls
      split
      next passes =>
          refine List.pairwise_cons.mpr ⟨?_, later⟩
          intro call accepted sameIdentity
          obtain ⟨verified, checkedHead, _, remembers⟩ :=
            DpopCall.perform_isOk passes
          obtain ⟨found, checked⟩ := checked_of_mem_acceptedCalls accepted
          obtain ⟨headIdentity, _, headFresh⟩ :=
            DpopCall.identity_of_checked checkedHead
          obtain ⟨identity, fresh, _⟩ := DpopCall.identity_of_checked checked
          have same : (verified.jti, verified.iat) = (found.jti, found.iat) := by
            rw [headIdentity, identity] at sameIdentity
            exact Option.some.inj sameIdentity
          obtain ⟨sameJti, sameIat⟩ := Prod.mk.inj same
          have past :=
            past_window_of_accepted restOrdered remembers call accepted found
              checked (by rw [sameJti])
          rw [sameIat] at headFresh
          omega
      next =>
          exact later

/-- A call refused as a replay adds no entry. -/
theorem DpopCall.perform_replayed
    {call : DpopCall}
    {replay : ReplaySet}
    {verified : VerifiedDpop}
    {error : AuthError}
    (passes : call.checked = .ok verified)
    (refused : (call.perform replay).1 = .error error)
    {hash : Bytes}
    {recordedAt : I64}
    (held : (call.perform replay).2.jtis hash = some recordedAt) :
    replay.jtis hash = some recordedAt := by
  rw [call.perform_checked passes, perform_recordOrReject] at refused held
  cases vacant : (replay.sweep call.now).jtis (hashJti verified.jti) with
  | none =>
      rw [vacant] at refused
      cases refused
  | some occupied =>
      rw [vacant] at held
      exact ReplaySet.of_sweep held

/--
Over any sequence of calls with a clock that does not go back, no proof is
accepted twice.  A proof that a check refuses leaves the replay set as it was,
and a replayed one adds nothing to it.  The freshness check is the one over the
unbounded integers.
-/
theorem dpop_proof_accepted_once :
    (∀ (calls : List DpopCall) (replay : ReplaySet),
      (calls.Pairwise fun first second => first.now ≤ second.now) →
      (acceptedCalls calls replay).Pairwise fun first second =>
        first.identity ≠ second.identity) ∧
    (∀ (call : DpopCall) (replay : ReplaySet) (error : AuthError),
      call.checked = .error error →
      call.perform replay = (.error error, replay)) ∧
    (∀ (call : DpopCall) (replay : ReplaySet) (verified : VerifiedDpop)
        (error : AuthError),
      call.checked = .ok verified →
      (call.perform replay).1 = .error error →
      ∀ hash recordedAt,
        (call.perform replay).2.jtis hash = some recordedAt →
        replay.jtis hash = some recordedAt) ∧
    (∀ iat now : I64,
      checkFreshness iat now = .ok () ↔
        now.value - 300 ≤ iat.value ∧ iat.value ≤ now.value + 5) := by
  refine ⟨?_, ?_, ?_, checkFreshness_eq_ok_iff⟩
  · intro calls replay ordered
    exact acceptedCalls_distinct ordered replay
  · intro call replay error refused
    exact call.perform_refused refused replay
  · intro call replay verified error passes refused hash recordedAt held
    exact DpopCall.perform_replayed passes refused held

end Quadpod

namespace Quadpod.Reference

/-- A `GET` of `/note` with a proof, at a time. -/
def proofCall (proof : Text) (now : Int) : DpopCall where
  proof := proof
  htu := "https://pod.example/note".toList
  htm := "GET".toList
  expectedJkt := jkt
  now := .clamp now
  wallClock := now

/-- A proof that is fresh for its second use too is accepted once. -/
theorem dpop_proof_accepted_once_replayed :
    (acceptedCalls
        [proofCall firstProof 1000, proofCall firstProof 1010,
          proofCall secondProof 1100]
        .new).map (fun call => call.now.value) = [1000, 1100] ∧
      (acceptedCalls
        [proofCall firstProof 1000, proofCall firstProof 1010,
          proofCall secondProof 1100]
        .new).Pairwise fun first second => first.identity ≠ second.identity :=
  ⟨by decide +kernel, dpop_proof_accepted_once.1 _ _ (by decide)⟩

end Quadpod.Reference
