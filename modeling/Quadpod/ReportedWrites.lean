import Quadpod.AtomicProgramResults
import Quadpod.EarlyReturns

namespace Quadpod

open AtomicProgram

/-!
# What the write handlers report

The handlers of `http.rs` answer a request and hand on what the change events
need and cannot read back: whether the target was there, what the walk over the
ancestors brought about, which auxiliaries a deletion took.  Every handler here
is that of `HttpWrite` once its report is dropped.
-/

variable [IriSyntax] [Sha256] [ObjectPath] [QuadText]
variable [RdfParser] [RdfSerializer] [ShapeEngine]
variable {space : StorageSpace}

/-- `Existence` -/
inductive Existence where
  | existed
  | absent
  deriving DecidableEq

/-- What a guard knows of its target, as the handlers report it. -/
def Guard.existence (guard : Guard space) : Existence :=
  if guard.targetExists then .existed else .absent

/-- `Materialized::default` -/
def Materialized.default : Materialized space := ⟨[], []⟩

/-- What a handler hands to its emit, with the target the emit is about. -/
inductive WriteReport (space : StorageSpace) where
  | put
      (target : Target space) (existence : Existence)
      (materialized : Materialized space)
  | post (child : Target space) (materialized : Materialized space)
  | patch
      (target : Target space) (existence : Existence)
      (materialized : Materialized space)
  | delete (target : Target space) (auxiliaries : List (AuxUrl space))

/-! ## PUT -/

/-- `put_write` for a body of bytes, and what it materialized. -/
def putBlobReported
    (guard : Guard space) (target : Target space) (headers : HeaderMap)
    (bytes : Bytes) (mediaType : MediaType) :
    HttpProgram (Response × Materialized space) :=
  match target with
  | .resource url _ =>
      if (BlobKey.of url).isNone then
        .fail (.ofStatus 414)
      else do
        checkConditionals headers target
        let materialized ← materializeFor guard target
        let response ← respondBlob target (putBlob url bytes mediaType)
        pure (response, materialized)
  | _ => .fail .internalError

/-- `put_write` for an RDF body, and what it materialized. -/
def putRdfReported
    (guard : Guard space) (target : Target space) (headers : HeaderMap)
    (fresh : Nat → Uuid) (dataset : Dataset) (format : Format)
    (declared : RdfVersion) : HttpProgram (Response × Materialized space) := do
  Program.ofExcept (checkBody target dataset)
  checkExisting target format declared
  checkConditionals headers target
  let findings ← enforceShape target dataset
  let materialized ← materializeFor guard target
  let triples := dataset.defaultGraphOnly.triplesOf
  let response ←
    match target with
    | .aux aux => putAux fresh target aux triples
    | .container container => putContainer fresh target container triples
    | .resource url _ =>
        respond target
          (putDataset url (Skolemized.skolemize fresh dataset) format)
  pure (withFindings target findings response, materialized)

/-- What `put_write` does with a body, and what it materialized. -/
def putReprReported
    (guard : Guard space) (target : Target space) (headers : HeaderMap)
    (fresh : Nat → Uuid) (repr : Repr) :
    HttpProgram (Response × Materialized space) :=
  match repr with
  | .blob bytes mediaType =>
      putBlobReported guard target headers bytes mediaType
  | .rdf dataset format declared =>
      putRdfReported guard target headers fresh dataset format declared

/-- `put_write`, with what `put_impl` emits of it. -/
def putReported
    (storeVersion : RdfVersion) (agent : Agent) (target : Target space)
    (headers : HeaderMap) (body : Bytes) (draws : Draws) :
    HttpProgram (Response × WriteReport space) := do
  let guard ← probeFor agent target
  let _ ← orDeny target (guard.authorize .write)
  let repr ← Program.ofExcept (classifyBody headers body target storeVersion)
  let (response, materialized) ←
    putReprReported guard target headers draws.blank repr
  pure (response, .put target guard.existence materialized)

/-! ## POST -/

/-- What `post_impl` does with an RDF body, and what it materialized. -/
def postRdfReported
    (guard : Guard space) (child : Target space) (fresh : Nat → Uuid)
    (dataset : Dataset) (format : Format) :
    HttpProgram (Response × Materialized space) := do
  Program.ofExcept (checkBody child dataset)
  let findings ← enforceShape child dataset
  let materialized ← materializeFor guard child
  let response ←
    match child with
    | .resource url _ =>
        respond child
          (putDataset url (Skolemized.skolemize fresh dataset) format)
    | .container container =>
        respond child
          (writeContainer fresh container dataset.defaultGraphOnly.triplesOf)
    | .aux _ => pure .internalError
  pure (withFindings child findings response, materialized)

/-- What `post_impl` does with a body of bytes, and what it materialized. -/
def postBlobReported
    (guard : Guard space) (child : Target space) (bytes : Bytes)
    (mediaType : MediaType) : HttpProgram (Response × Materialized space) :=
  match child with
  | .resource url _ =>
      if (BlobKey.of url).isNone then
        .fail (.ofStatus 414)
      else do
        let materialized ← materializeFor guard child
        let response ← respondBlob child (putBlob url bytes mediaType)
        pure (response, materialized)
  | _ => .fail .internalError

/-- What `post_impl` does for the child it settled on. -/
def postChildReported
    (guard : Guard space) (child : Target space) (fresh : Nat → Uuid)
    (repr : Repr) : HttpProgram (Response × Materialized space) :=
  match repr with
  | .blob bytes mediaType => postBlobReported guard child bytes mediaType
  | .rdf dataset format _ => postRdfReported guard child fresh dataset format

/-- `post_impl`, with what it emits. -/
def postReported
    (storeVersion : RdfVersion) (agent : Agent) (target : Target space)
    (headers : HeaderMap) (body : Bytes) (draws : Draws) :
    HttpProgram (Response × WriteReport space) := do
  let parentGuard ← probeFor agent target
  let _ ← orDeny target (parentGuard.authorize .append)
  match target with
  | .container parent => do
      let (guard, child) ← allocateChild agent parent headers draws
      let repr ←
        Program.ofExcept (classifyBody headers body child storeVersion)
      let (response, materialized) ←
        postChildReported guard child draws.blank repr
      pure (response, .post child materialized)
  | _ => .fail (.ofStatus 409)

/-! ## PATCH -/

/-- What was materialized, unless the write after it failed. -/
def respondReported
    (target : Target space) (write : ResourceProgram Unit)
    (materialized : Materialized space) :
    HttpProgram (Response × Materialized space) := do
  match ← write.attempt with
  | .ok () => pure (.created target, materialized)
  | .error error => pure (putError error, .default)

/-- `create_by_patch` -/
def createByPatchReported
    (guard : Guard space) (target : Target space) (patch : Patch)
    (fresh : Nat → Uuid) : HttpProgram (Response × Materialized space) :=
  match patch.groundInsertions with
  | none => .fail (patchResponse .noMapping patch)
  | some triples =>
      if !patch.deletions.isEmpty then
        .fail (patchResponse .deletionMissing patch)
      else do
        let materialized ← materializeFor guard target
        match target with
        | .resource url _ =>
            match groundDataset triples with
            | some dataset =>
                respondReported target (putDataset url dataset .turtle)
                  materialized
            | none => .fail .internalError
        | .container container =>
            respondReported target (writeContainer fresh container triples)
              materialized
        | .aux _ => .fail .internalError

/-- The part of `patch_impl` after every check, with what it emits. -/
def patchWriteReported
    (guard : Guard space) (target : Target space) (patch : Patch)
    (fresh : Nat → Uuid) : HttpProgram (Response × WriteReport space) :=
  match target with
  | .aux aux => do
      let response ← patchAux aux patch
      pure (response, .patch target .existed .default)
  | _ =>
      if guard.targetExists then do
        let response ← patchExisting target patch
        pure (response, .patch target .existed .default)
      else do
        let (response, materialized) ←
          createByPatchReported guard target patch fresh
        pure (response, .patch target .absent materialized)

/-- `patch_impl`, with what it emits. -/
def patchReported [N3Parser]
    (agent : Agent) (target : Target space) (headers : HeaderMap)
    (body : Bytes) (draws : Draws) :
    HttpProgram (Response × WriteReport space) := do
  let guard ← probeFor agent target
  let decision ← orDeny target (guard.authorize .append)
  Program.ofExcept (patchContentType headers body)
  let patch ← Program.ofExcept (parsePatch body target)
  if !target.isAux && !patch.requiredModes.satisfiedBy decision.user then
    .fail ((deny guard.agent).toResponse.withAuxLinks target)
  else do
    refuseBinary target
    patchShapeConflict target
    Program.ofExcept (refuseContainment patch target)
    checkConditionals headers target
    patchWriteReported guard target patch draws.blank

/-! ## DELETE -/

/-- The auxiliaries of which `authorize_aux` found one to authorize. -/
def presentAuxes
    (subject : ResourceUrl space) (decisions : List (Option Decision)) :
    List (AuxUrl space) :=
  (AuxKind.all.zip decisions).filterMap fun decided =>
    decided.2.map fun _ => subject.aux decided.1

/-- `delete_impl`, with what it emits. -/
def deleteReported (agent : Agent) (target : Target space) :
    HttpProgram (Response × WriteReport space) := do
  let guard ← probeFor agent target
  let _ ← orDeny target (guard.authorize .write)
  match target with
  | .aux aux => do
      let response ← deleteAux aux
      pure (response, .delete target [])
  | _ => do
      let _ ← orDeny target (guard.authorizeParent .write)
      let decisions ← orDeny target (AuxKind.all.mapM guard.authorizeAux)
      refuseDelete target
      let response ← deleteCascade target
      pure (response, .delete target (presentAuxes target.subject decisions))

/-! ## One request -/

/-- A request on the target its path resolved to, with what it emits. -/
def targetReported [N3Parser]
    (storeVersion : RdfVersion) (request : Request) (target : Target space) :
    HttpProgram (Response × WriteReport space) :=
  match request.method with
  | .put =>
      putReported storeVersion request.agent target request.headers
        request.body request.draws
  | .post =>
      postReported storeVersion request.agent target request.headers
        request.body request.draws
  | .patch =>
      patchReported request.agent target request.headers request.body
        request.draws
  | .delete => deleteReported request.agent target

/-! ## The report dropped -/

omit [RdfParser] [RdfSerializer] [ShapeEngine] in
theorem putBlobReported_response
    (guard : Guard space) (target : Target space) (headers : HeaderMap)
    (bytes : Bytes) (mediaType : MediaType) :
    (putBlobReported guard target headers bytes mediaType >>=
        fun reported => .done reported.1) =
      putBlobRepr guard target headers bytes mediaType := by
  unfold putBlobReported putBlobRepr
  cases target with
  | resource url leaf =>
      dsimp only
      split
      · rfl
      · simp only [Program.bind_assoc, Program.pure_eq, Program.done_bind,
          Program.bind_done]
  | container url =>
      rfl
  | aux url =>
      rfl

theorem putRdfReported_response
    (guard : Guard space) (target : Target space) (headers : HeaderMap)
    (fresh : Nat → Uuid) (dataset : Dataset) (format : Format)
    (declared : RdfVersion) :
    (putRdfReported guard target headers fresh dataset format declared >>=
        fun reported => .done reported.1) =
      putRdfRepr guard target headers fresh dataset format declared := by
  unfold putRdfReported putRdfRepr
  cases target with
  | resource url leaf =>
      simp only [Program.bind_assoc, Program.pure_eq, Program.done_bind]
  | container url =>
      simp only [Program.bind_assoc, Program.pure_eq, Program.done_bind]
  | aux url =>
      simp only [Program.bind_assoc, Program.pure_eq, Program.done_bind]

theorem putReported_response
    (storeVersion : RdfVersion) (agent : Agent) (target : Target space)
    (headers : HeaderMap) (body : Bytes) (draws : Draws) :
    (putReported storeVersion agent target headers body draws >>=
        fun reported => .done reported.1) =
      putWrite storeVersion agent target headers body draws := by
  unfold putReported putWrite
  simp only [Program.bind_assoc, Program.pure_eq, Program.done_bind]
  congr 1
  funext guard
  congr 1
  funext _
  congr 1
  funext repr
  cases repr with
  | blob bytes mediaType =>
      exact putBlobReported_response guard target headers bytes mediaType
  | rdf dataset format declared =>
      exact putRdfReported_response guard target headers draws.blank dataset
        format declared

theorem postRdfReported_response
    (guard : Guard space) (child : Target space) (fresh : Nat → Uuid)
    (dataset : Dataset) (format : Format) :
    (postRdfReported guard child fresh dataset format >>=
        fun reported => .done reported.1) =
      postRdfRepr guard child fresh dataset format := by
  unfold postRdfReported postRdfRepr
  cases child with
  | resource url leaf =>
      simp only [Program.bind_assoc, Program.pure_eq, Program.done_bind]
  | container url =>
      simp only [Program.bind_assoc, Program.pure_eq, Program.done_bind]
  | aux url =>
      simp only [Program.bind_assoc, Program.pure_eq, Program.done_bind]

omit [Sha256] [QuadText] [RdfParser] [RdfSerializer] [ShapeEngine] in
theorem postBlobReported_response
    (guard : Guard space) (child : Target space) (bytes : Bytes)
    (mediaType : MediaType) :
    (postBlobReported guard child bytes mediaType >>=
        fun reported => .done reported.1) =
      postBlobRepr guard child bytes mediaType := by
  unfold postBlobReported postBlobRepr
  cases child with
  | resource url leaf =>
      dsimp only
      split
      · rfl
      · simp only [Program.bind_assoc, Program.pure_eq, Program.done_bind,
          Program.bind_done]
  | container url =>
      rfl
  | aux url =>
      rfl

theorem postReported_response
    (storeVersion : RdfVersion) (agent : Agent) (target : Target space)
    (headers : HeaderMap) (body : Bytes) (draws : Draws) :
    (postReported storeVersion agent target headers body draws >>=
        fun reported => .done reported.1) =
      postImpl storeVersion agent target headers body draws := by
  unfold postReported postImpl
  cases target with
  | resource url leaf =>
      simp only [Program.bind_assoc, Program.fail_bind]
  | aux url =>
      simp only [Program.bind_assoc, Program.fail_bind]
  | container parent =>
      simp only [Program.bind_assoc, Program.pure_eq, Program.done_bind]
      congr 1
      funext parentGuard
      congr 1
      funext _
      congr 1
      funext allocated
      congr 1
      funext repr
      cases repr with
      | blob bytes mediaType =>
          exact postBlobReported_response _ _ bytes mediaType
      | rdf dataset format declared =>
          exact postRdfReported_response _ _ draws.blank dataset format

omit [RdfParser] [RdfSerializer] [ShapeEngine] [Sha256] [ObjectPath]
  [QuadText] in
theorem respondReported_response
    (target : Target space) (write : ResourceProgram Unit)
    (materialized : Materialized space) :
    (respondReported target write materialized >>=
        fun reported => .done reported.1) =
      respond target write := by
  unfold respondReported respond
  rw [Program.bind_assoc]
  congr 1
  funext result
  cases result with
  | ok value =>
      rfl
  | error error =>
      rfl

omit [RdfParser] [RdfSerializer] [ShapeEngine] in
theorem createByPatchReported_response
    (guard : Guard space) (target : Target space) (patch : Patch)
    (fresh : Nat → Uuid) :
    (createByPatchReported guard target patch fresh >>=
        fun reported => .done reported.1) =
      createByPatch guard target patch fresh := by
  unfold createByPatchReported createByPatch
  cases patch.groundInsertions with
  | none =>
      rfl
  | some triples =>
      dsimp only
      split
      · rfl
      · rw [Program.bind_assoc]
        congr 1
        funext materialized
        cases target with
        | resource url leaf =>
            dsimp only
            cases groundDataset triples with
            | some dataset =>
                exact respondReported_response _ _ _
            | none =>
                rfl
        | container url =>
            exact respondReported_response _ _ _
        | aux url =>
            rfl

omit [RdfParser] [RdfSerializer] [ShapeEngine] in
theorem patchWriteReported_response
    (guard : Guard space) (target : Target space) (patch : Patch)
    (fresh : Nat → Uuid) :
    (patchWriteReported guard target patch fresh >>=
        fun reported => .done reported.1) =
      patchWrite guard target patch fresh := by
  have written :
      ∀ target : Target space,
        ((if guard.targetExists then do
              let response ← patchExisting target patch
              pure (response, WriteReport.patch target .existed .default)
            else do
              let (response, materialized) ←
                createByPatchReported guard target patch fresh
              pure (response, .patch target .absent materialized) :
            HttpProgram (Response × WriteReport space)) >>=
          fun reported => .done reported.1) =
        if guard.targetExists then
          patchExisting target patch
        else
          createByPatch guard target patch fresh := by
    intro target
    split
    · simp only [Program.bind_assoc, Program.pure_eq, Program.done_bind,
        Program.bind_done]
    · simp only [Program.bind_assoc, Program.pure_eq, Program.done_bind]
      exact createByPatchReported_response guard target patch fresh
  cases target with
  | resource url leaf =>
      exact written _
  | container url =>
      exact written _
  | aux url =>
      unfold patchWriteReported patchWrite
      simp only [Program.bind_assoc, Program.pure_eq, Program.done_bind,
        Program.bind_done]

omit [RdfParser] [ShapeEngine] in
theorem patchReported_response [N3Parser]
    (agent : Agent) (target : Target space) (headers : HeaderMap)
    (body : Bytes) (draws : Draws) :
    (patchReported agent target headers body draws >>=
        fun reported => .done reported.1) =
      patchImpl agent target headers body draws := by
  unfold patchReported patchImpl
  simp only [Program.bind_assoc]
  congr 1
  funext guard
  congr 1
  funext decision
  congr 1
  funext _
  congr 1
  funext patch
  split
  · rfl
  · simp only [Program.bind_assoc]
    congr 1
    funext _
    congr 1
    funext _
    congr 1
    funext _
    congr 1
    funext _
    exact patchWriteReported_response guard target patch draws.blank

omit [Sha256] [QuadText] [RdfParser] [RdfSerializer] [ShapeEngine] in
theorem deleteReported_response (agent : Agent) (target : Target space) :
    (deleteReported agent target >>= fun reported => .done reported.1) =
      deleteImpl agent target := by
  unfold deleteReported deleteImpl
  cases target with
  | resource url leaf =>
      simp only [Program.bind_assoc, Program.pure_eq, Program.done_bind,
        Program.bind_done]
  | container url =>
      simp only [Program.bind_assoc, Program.pure_eq, Program.done_bind,
        Program.bind_done]
  | aux url =>
      simp only [Program.bind_assoc, Program.pure_eq, Program.done_bind,
        Program.bind_done]

/-- A handler that reports answers as the handler does. -/
theorem targetReported_response [N3Parser]
    (storeVersion : RdfVersion) (request : Request) (target : Target space) :
    (targetReported storeVersion request target >>=
        fun reported => .done reported.1) =
      handleTarget storeVersion request target := by
  unfold targetReported handleTarget
  cases request.method with
  | put =>
      exact putReported_response storeVersion request.agent target
        request.headers request.body request.draws
  | post =>
      exact postReported_response storeVersion request.agent target
        request.headers request.body request.draws
  | patch =>
      exact patchReported_response request.agent target request.headers
        request.body request.draws
  | delete =>
      exact deleteReported_response request.agent target

/-! ## What is reported -/

/-- What a walk brings about, once its plan is performed. -/
def Guard.Walk.materialized (walk : Guard.Walk space) : Materialized space where
  created := walk.creations
  linked := walk.plan.filterMap fun step => step.2.map fun child =>
    (step.1, child)

/-- What a guard reports is what its walk brought about. -/
def Guard.Reports
    (guard : Guard space) (materialized : Materialized space) : Prop :=
  ∃ walk, guard.authorizeWalk = .ok walk ∧ materialized = walk.materialized

omit [Sha256] [ObjectPath] [QuadText] [RdfParser] [RdfSerializer]
  [ShapeEngine] in
/-- The writes of a plan link the children it records. -/
theorem yields_performPlan
    (plan : List (ContainerUrl space × Option NamedNode)) :
    (performPlan plan).Yields fun linked =>
      linked = plan.filterMap fun step => step.2.map fun child =>
        (step.1, child) := by
  induction plan with
  | nil =>
      exact Program.yields_done rfl
  | cons step rest inductionHypothesis =>
      obtain ⟨ancestor, child⟩ := step
      refine Program.yields_bind fun _ => ?_
      cases child with
      | none =>
          exact inductionHypothesis
      | some child =>
          refine Program.yields_bind fun _ => ?_
          refine inductionHypothesis.bind fun linked isLinked => ?_
          exact Program.yields_done (congrArg _ isLinked)

omit [Sha256] [ObjectPath] [QuadText] [RdfParser] [RdfSerializer]
  [ShapeEngine] in
theorem yields_materializeFor (guard : Guard space) (target : Target space) :
    (materializeFor guard target).Yields guard.Reports := by
  refine Program.Yields.mapError ?_ _
  refine (Program.yields_ofExcept _).bind fun walk walked => ?_
  refine (yields_performPlan walk.plan).bind fun linked isLinked => ?_
  exact Program.yields_done ⟨walk, walked, congrArg _ isLinked⟩

omit [Sha256] [ObjectPath] [QuadText] [RdfParser] [RdfSerializer]
  [ShapeEngine] in
/-- Whatever is answered after a walk, what the walk did is reported. -/
theorem yields_reports
    {guard : Guard space} {target : Target space}
    {answer : HttpProgram Response} (compute : Response → Response) :
    (materializeFor guard target >>= fun materialized =>
        answer >>= fun response =>
          (.done (compute response, materialized) :
            HttpProgram (Response × Materialized space))).Yields
      fun reported => guard.Reports reported.2 :=
  (yields_materializeFor guard target).bind fun _ reports =>
    Program.yields_bind fun _ => Program.yields_done reports

theorem yields_putReprReported
    (guard : Guard space) (target : Target space) (headers : HeaderMap)
    (fresh : Nat → Uuid) (repr : Repr) :
    (putReprReported guard target headers fresh repr).Yields
      fun reported => guard.Reports reported.2 := by
  cases repr with
  | blob bytes mediaType =>
      cases target with
      | resource url leaf =>
          unfold putReprReported putBlobReported
          dsimp only
          split
          · exact Program.yields_fail _
          · exact Program.yields_bind fun _ => yields_reports id
      | container url =>
          exact Program.yields_fail _
      | aux url =>
          exact Program.yields_fail _
  | rdf dataset format declared =>
      refine Program.yields_bind fun _ => Program.yields_bind fun _ =>
        Program.yields_bind fun _ => Program.yields_bind fun findings => ?_
      cases target with
      | resource url leaf =>
          exact yields_reports _
      | container url =>
          exact yields_reports _
      | aux url =>
          exact yields_reports _

theorem yields_postChildReported
    (guard : Guard space) (child : Target space) (fresh : Nat → Uuid)
    (repr : Repr) :
    (postChildReported guard child fresh repr).Yields
      fun reported => guard.Reports reported.2 := by
  cases repr with
  | blob bytes mediaType =>
      cases child with
      | resource url leaf =>
          unfold postChildReported postBlobReported
          dsimp only
          split
          · exact Program.yields_fail _
          · exact yields_reports id
      | container url =>
          exact Program.yields_fail _
      | aux url =>
          exact Program.yields_fail _
  | rdf dataset format declared =>
      refine Program.yields_bind fun _ => Program.yields_bind fun findings => ?_
      cases child with
      | resource url leaf =>
          exact yields_reports _
      | container url =>
          exact yields_reports _
      | aux url =>
          exact yields_reports _

omit [RdfParser] [RdfSerializer] [ShapeEngine] in
/-- A patch that created its target reports its walk. -/
theorem yields_createByPatchReported
    (guard : Guard space) (target : Target space) (patch : Patch)
    (fresh : Nat → Uuid) :
    (createByPatchReported guard target patch fresh).Yields
      fun reported =>
        reported.1.isSuccess = true → guard.Reports reported.2 := by
  have responds :
      ∀ (write : ResourceProgram Unit) (materialized : Materialized space),
        guard.Reports materialized →
        (respondReported target write materialized).Yields fun reported =>
          reported.1.isSuccess = true → guard.Reports reported.2 := by
    intro write materialized reports
    refine Program.yields_bind fun result => ?_
    cases result with
    | ok value =>
        exact Program.yields_done fun _ => reports
    | error error =>
        refine Program.yields_done fun isSuccess => ?_
        rw [refuses_putError error] at isSuccess
        cases isSuccess
  unfold createByPatchReported
  cases patch.groundInsertions with
  | none =>
      exact Program.yields_fail _
  | some triples =>
      dsimp only
      split
      · exact Program.yields_fail _
      · refine (yields_materializeFor guard target).bind
          fun materialized reports => ?_
        cases target with
        | resource url leaf =>
            dsimp only
            cases groundDataset triples with
            | some dataset =>
                exact responds _ materialized reports
            | none =>
                exact Program.yields_fail _
        | container url =>
            exact responds _ materialized reports
        | aux url =>
            exact Program.yields_fail _

end Quadpod
