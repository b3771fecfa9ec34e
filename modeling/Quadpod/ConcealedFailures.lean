import Quadpod.AtomicProgramConcealment
import Quadpod.HttpServer

namespace Quadpod

open AtomicProgram

/-!
# What a failed call lets a client see

`http.rs` answers every failure of a backend with one body and leaves the cause
to the log.  Every program of the pod is followed here from its calls to its
response: the texts of two failures are told apart by no branch, and every error
that carries one ends in the same response.
-/

/-! ## Errors that carry a backend's message -/

/-- The message of a store that failed. -/
def ResourceError.IsBackend (error : ResourceError) : Prop :=
  ∃ cause, error = .store cause ∨ error = .blob cause

/-- The same error, or two messages of stores that failed. -/
def ResourceError.SameKind (first second : ResourceError) : Prop :=
  first = second ∨ (first.IsBackend ∧ second.IsBackend)

/-- The same error, or two of the resource layer that are of a kind. -/
def AuxError.SameKind (first second : AuxError) : Prop :=
  first = second ∨
    ∃ error other,
      first = .resource error ∧ second = .resource other ∧
        error.SameKind other

/-- The same error, or two of the resource layer that are of a kind. -/
def ShapeError.SameKind (first second : ShapeError) : Prop :=
  first = second ∨
    ∃ error other,
      first = .resource error ∧ second = .resource other ∧
        error.SameKind other

/-- The same denial, or two failed reads. -/
def Denial.SameKind (first second : Denial) : Prop :=
  first = second ∨
    ∃ error other, first = .store error ∧ second = .store other

theorem ResourceError.SameKind.rfl (error : ResourceError) :
    error.SameKind error :=
  Or.inl (.refl error)

theorem AuxError.SameKind.rfl (error : AuxError) : error.SameKind error :=
  Or.inl (.refl error)

theorem ShapeError.SameKind.rfl (error : ShapeError) : error.SameKind error :=
  Or.inl (.refl error)

theorem Denial.SameKind.rfl (denial : Denial) : denial.SameKind denial :=
  Or.inl (.refl denial)

theorem sameKind_store (first second : StoreError) :
    (ResourceError.store first).SameKind (.store second) :=
  Or.inr ⟨⟨first, Or.inl rfl⟩, second, Or.inl rfl⟩

theorem sameKind_blob (first second : StoreError) :
    (ResourceError.blob first).SameKind (.blob second) :=
  Or.inr ⟨⟨first, Or.inr rfl⟩, second, Or.inr rfl⟩

theorem ResourceError.SameKind.aux
    {first second : ResourceError} (same : first.SameKind second) :
    (AuxError.resource first).SameKind (.resource second) :=
  Or.inr ⟨first, second, .refl _, .refl _, same⟩

theorem ResourceError.SameKind.shape
    {first second : ResourceError} (same : first.SameKind second) :
    (ShapeError.resource first).SameKind (.resource second) :=
  Or.inr ⟨first, second, .refl _, .refl _, same⟩

/-- Errors of a kind are answered alike. -/
theorem ResourceError.SameKind.putError
    {first second : ResourceError} (same : first.SameKind second) :
    putError first = putError second := by
  rcases same with rfl | ⟨⟨_, rfl | rfl⟩, _, rfl | rfl⟩ <;> rfl

theorem ShapeError.SameKind.shapeStatus
    {first second : ShapeError} (same : first.SameKind second) :
    shapeStatus first = shapeStatus second := by
  rcases same with rfl | ⟨error, other, rfl, rfl, kind⟩
  · rfl
  · rcases kind with rfl | ⟨⟨_, rfl | rfl⟩, _, rfl | rfl⟩ <;> rfl

variable [IriSyntax] {space : StorageSpace}

theorem Denial.SameKind.toResponse
    {first second : Denial} (same : first.SameKind second)
    (target : Target space) :
    first.toResponse.withAuxLinks target =
      second.toResponse.withAuxLinks target := by
  rcases same with rfl | ⟨error, other, rfl, rfl⟩
  · rfl
  · rfl

/-! ## The triple store -/

/-- A program of the resource layer that keeps backend messages to itself. -/
abbrev ResourceConceals {α : Type} (program : ResourceProgram α) : Prop :=
  program.Conceals ResourceError.SameKind

/-- A handler whose response carries nothing of a backend's message. -/
abbrev HttpConceals {α : Type} (program : HttpProgram α) : Prop :=
  program.Conceals Eq

theorem StoreProgram.conceals_issue
    {ε : Type} {errors : ε → ε → Prop} {translate : StoreError → ε}
    (related : ∀ error other, errors (translate error) (translate other))
    (call : Call) :
    (StoreProgram.issue translate call).Conceals errors := by
  unfold StoreProgram.issue
  refine .call _ (fun reply => ?_) (fun fault other => ?_)
  · exact Program.conceals_done reply
  · exact .fail (related (.backend fault) (.backend other))

/-- A query or an update of the triple store. -/
theorem conceals_store (call : Call) :
    ResourceConceals (StoreProgram.issue .store call) :=
  StoreProgram.conceals_issue sameKind_store call

theorem conceals_blob (call : Call) :
    ResourceConceals (StoreProgram.issue .blob call) :=
  StoreProgram.conceals_issue sameKind_blob call

section Resources

variable {Url : Type} [GraphUrl Url]

theorem conceals_exists (url : Url) : ResourceConceals (exists? url) :=
  conceals_store _

theorem conceals_existsMany (nodes : List NamedNode) :
    ResourceConceals (existsMany nodes) := by
  unfold existsMany
  split
  · exact Program.conceals_done _
  · exact (conceals_store _).bind fun rows => Program.conceals_done _

theorem conceals_getRdf (url : Url) : ResourceConceals (getRdf url) := by
  refine (conceals_exists url).bind fun present => ?_
  split
  · exact (conceals_store _).bind fun _ => Program.conceals_done _
  · exact Program.conceals_done _

theorem conceals_registeredShelves (resource : ResourceUrl space) :
    ResourceConceals (registeredShelves resource) :=
  (conceals_store _).bind fun _ => Program.conceals_done _

theorem conceals_storedMediaType (resource : ResourceUrl space) :
    ResourceConceals (storedMediaType resource) :=
  (conceals_store _).bind fun _ => Program.conceals_done _

theorem conceals_kindOf (resource : ResourceUrl space) :
    ResourceConceals (kindOf resource) := by
  refine (conceals_exists resource).bind fun present => ?_
  split
  · refine (conceals_store _).bind fun binary => ?_
    split
    · refine (conceals_storedMediaType resource).bind fun mediaType => ?_
      split
      · exact Program.conceals_done _
      · exact Program.conceals_fail .rfl _
    · exact Program.conceals_done _
  · exact Program.conceals_done _

theorem conceals_shelfQuads
    (resource : ResourceUrl space) (keys : List ShelfKey) :
    ResourceConceals (shelfQuads resource keys) := by
  induction keys with
  | nil =>
      exact Program.conceals_done _
  | cons key rest inductionHypothesis =>
      refine (conceals_store _).bind fun names => ?_
      split
      · exact Program.conceals_fail .rfl _
      · exact (conceals_store _).bind fun triples =>
          Program.Conceals.bind inductionHypothesis
            fun others => Program.conceals_done _

theorem conceals_getDataset (resource : ResourceUrl space) :
    ResourceConceals (getDataset resource) := by
  refine (conceals_exists resource).bind fun present => ?_
  split
  · refine (conceals_store _).bind fun triples => ?_
    refine (conceals_registeredShelves resource).bind fun keys => ?_
    refine (conceals_shelfQuads resource keys).bind fun shelved => ?_
    dsimp only
    split
    · exact Program.conceals_done _
    · exact Program.conceals_fail .rfl _
  · exact Program.conceals_done _

theorem conceals_deleteBlob [ObjectPath] (resource : ResourceUrl space) :
    ResourceConceals (deleteBlob resource) := by
  unfold deleteBlob
  split
  · exact conceals_blob _
  · exact Program.conceals_done _

theorem conceals_putDataset [Sha256] [ObjectPath]
    (resource : ResourceUrl space) (dataset : Skolemized) (format : Format) :
    ResourceConceals (putDataset resource dataset format) := by
  refine (conceals_registeredShelves resource).bind fun registered => ?_
  split
  · exact (conceals_store _).bind fun _ => conceals_deleteBlob resource
  · exact Program.conceals_fail .rfl _

theorem conceals_putBlob [ObjectPath]
    (resource : ResourceUrl space) (bytes : Bytes) (mediaType : MediaType) :
    ResourceConceals (putBlob resource bytes mediaType) := by
  unfold putBlob
  split
  · exact Program.conceals_fail .rfl _
  · refine (conceals_registeredShelves resource).bind fun registered => ?_
    exact (conceals_blob _).bind fun _ => conceals_store _

theorem conceals_applyPatch
    (url : Url) (patch : Patch) (guard : GraphStore.Condition Text GroundTriple)
    (bindings : List Solution) :
    ResourceConceals (applyPatch url patch guard bindings) := by
  refine (Program.conceals_ofExcept .rfl _).bind fun deletions => ?_
  refine (Program.conceals_ofExcept .rfl _).bind fun insertions => ?_
  split
  · exact Program.conceals_done _
  · have finish (before : Bool) :
        ResourceConceals (do
          StoreProgram.issue .store
            (.modify (graphIri url) deletions insertions guard)
          if !deletions.isEmpty && !before then
            pure PatchResult.deletionMissing
          else
            pure PatchResult.applied) := by
      refine (conceals_store _).bind fun _ => ?_
      split
      · exact Program.conceals_done _
      · exact Program.conceals_done _
    dsimp only
    split
    · exact finish false
    · exact (conceals_store _).bind finish

theorem conceals_patchGuarded
    (url : Url) (patch : Patch)
    (guard : GraphStore.Condition Text GroundTriple) :
    ResourceConceals (patchGuarded url patch guard) := by
  unfold patchGuarded
  split
  · exact conceals_applyPatch _ _ _ _
  · refine (conceals_store _).bind fun solutions => ?_
    split
    · exact Program.conceals_done _
    · exact conceals_applyPatch _ _ _ _
    · exact Program.conceals_done _

end Resources

/-! ## Containers and auxiliaries -/

theorem conceals_writeContainer
    (fresh : Nat → Uuid) (container : ContainerUrl space)
    (triples : List Triple) :
    ResourceConceals (writeContainer fresh container triples) :=
  (conceals_store _).bind fun _ => conceals_store _

theorem conceals_containerIsEmpty (container : ContainerUrl space) :
    ResourceConceals (containerIsEmpty container) :=
  (conceals_store _).bind fun _ => Program.conceals_done _

theorem conceals_deleteRdf (aux : AuxUrl space) :
    ResourceConceals (deleteRdf aux) :=
  (conceals_exists aux).bind fun _ =>
    (conceals_store _).bind fun _ => Program.conceals_done _

theorem conceals_deleteSubject [ObjectPath] (subject : ResourceUrl space) :
    ResourceConceals (deleteSubject subject) :=
  (conceals_exists subject).bind fun _ =>
    (conceals_registeredShelves subject).bind fun _ =>
      (conceals_store _).bind fun _ =>
        (conceals_deleteBlob subject).bind fun _ => Program.conceals_done _

theorem conceals_ofResource
    {α : Type} {program : ResourceProgram α}
    (conceals : ResourceConceals program) :
    (AuxProgram.ofResource program).Conceals AuxError.SameKind :=
  conceals.mapError fun _ _ => ResourceError.SameKind.aux

theorem conceals_auxPut
    (fresh : Nat → Uuid) (aux : AuxUrl space) (triples : List Triple) :
    (auxPut fresh aux triples).Conceals AuxError.SameKind := by
  unfold auxPut
  split
  · exact Program.conceals_fail .rfl _
  · refine (StoreProgram.conceals_issue
      (fun error other => (sameKind_store error other).aux) _).bind
        fun _ => ?_
    refine (conceals_ofResource (conceals_exists aux)).bind fun present => ?_
    split
    · exact Program.conceals_done _
    · exact Program.conceals_fail .rfl _

theorem conceals_auxPatch (aux : AuxUrl space) (patch : Patch) :
    (auxPatch aux patch).Conceals AuxError.SameKind := by
  refine (conceals_ofResource (conceals_exists aux)).bind fun present => ?_
  split
  · refine (conceals_ofResource (conceals_patchGuarded _ _ _)).bind
      fun result => ?_
    refine (conceals_ofResource (conceals_exists aux)).bind fun still => ?_
    split
    · exact Program.conceals_done _
    · exact Program.conceals_fail .rfl _
  · refine (conceals_ofResource (conceals_exists aux.subject)).bind
      fun subject => ?_
    split
    · exact Program.conceals_fail .rfl _
    · exact Program.conceals_fail .rfl _

/-! ## The guard -/

theorem conceals_probe (agent : Agent) (target : Target space) :
    (Guard.probe agent target).Conceals Denial.SameKind := by
  have loads :
      ∀ present,
        (loadChainAcls target.subject.chain present).Conceals
          ResourceError.SameKind := by
    intro present
    unfold loadChainAcls
    dsimp only
    split
    · exact Program.conceals_done _
    · exact (conceals_store _).bind fun rows => Program.conceals_done _
  have resolves :=
    (conceals_existsMany (Guard.candidates target.subject)).bind
      fun present =>
        (loads present).bind fun acls =>
          Program.conceals_done (⟨agent, target, present, acls⟩ : Guard space)
  exact resolves.mapError fun error other _ =>
    Or.inr ⟨error, other, rfl, rfl⟩

theorem conceals_performPlan
    (plan : List (ContainerUrl space × Option NamedNode)) :
    (performPlan plan).Conceals Denial.SameKind := by
  have lifted :
      ∀ {program : ResourceProgram Unit},
        ResourceConceals program →
        (program.mapError Denial.store).Conceals Denial.SameKind := by
    intro program conceals
    exact conceals.mapError fun error other _ =>
      Or.inr ⟨error, other, rfl, rfl⟩
  induction plan with
  | nil =>
      exact Program.conceals_done _
  | cons step rest inductionHypothesis =>
      obtain ⟨ancestor, child⟩ := step
      refine (lifted (conceals_store _)).bind fun _ => ?_
      cases child with
      | none =>
          exact inductionHypothesis
      | some child =>
          exact (lifted (conceals_store _)).bind fun _ =>
            Program.Conceals.bind inductionHypothesis
              fun _ => Program.conceals_done _

theorem conceals_materialize (guard : Guard space) :
    guard.materialize.Conceals Denial.SameKind :=
  (Program.conceals_ofExcept .rfl _).bind fun walked =>
    (conceals_performPlan walked.plan).bind
      fun _ => Program.conceals_done _

/-! ## The checks of the handlers -/

section Checks

theorem conceals_probeFor (agent : Agent) (target : Target space) :
    HttpConceals (probeFor agent target) :=
  (conceals_probe agent target).mapError fun _ _ same => same.toResponse target

theorem conceals_orDeny
    {α : Type} (target : Target space) (decision : Except Denial α) :
    HttpConceals (orDeny target decision) :=
  Program.conceals_ofExcept .refl _

theorem conceals_materializeFor (guard : Guard space) (target : Target space) :
    HttpConceals (materializeFor guard target) :=
  (conceals_materialize guard).mapError fun _ _ same => same.toResponse target

/-- A step whose error is answered by `put_error`. -/
theorem conceals_orPutError
    {α : Type} {program : ResourceProgram α}
    (conceals : ResourceConceals program) :
    HttpConceals (program.mapError putError) :=
  conceals.mapError fun _ _ => ResourceError.SameKind.putError

variable [QuadText] [RdfSerializer]

theorem conceals_loadShape (container : ContainerUrl space) :
    (loadShape container).Conceals ShapeError.SameKind := by
  have lifted :
      ∀ {α : Type} {program : ResourceProgram α},
        ResourceConceals program →
        (program.mapError ShapeError.resource).Conceals
          ShapeError.SameKind :=
    fun conceals => conceals.mapError fun _ _ => ResourceError.SameKind.shape
  refine (StoreProgram.conceals_issue
    (fun error other => (sameKind_store error other).shape) _).bind
      fun triples => ?_
  refine (Program.conceals_ofExcept .rfl _).bind fun binding => ?_
  split
  · exact Program.conceals_done _
  · refine (Program.conceals_ofExcept .rfl _).bind fun url => ?_
    refine (lifted (conceals_kindOf url)).bind fun kind => ?_
    split
    · exact Program.conceals_fail .rfl _
    · exact Program.conceals_fail .rfl _
    · refine (lifted (conceals_getRdf url)).bind fun stored => ?_
      split
      · exact Program.conceals_fail .rfl _
      · exact (Program.conceals_ofExcept .rfl _).bind
          fun _ => Program.conceals_done _

theorem conceals_orShapeStatus (container : ContainerUrl space) :
    HttpConceals ((loadShape container).mapError shapeStatus) :=
  (conceals_loadShape container).mapError
    fun _ _ => ShapeError.SameKind.shapeStatus

theorem conceals_patchShapeConflict (target : Target space) :
    HttpConceals (patchShapeConflict target) := by
  unfold patchShapeConflict
  split
  · exact Program.conceals_done _
  · refine (conceals_orShapeStatus _).bind fun shape => ?_
    split
    · exact Program.conceals_done _
    · exact Program.conceals_fail .refl _

theorem conceals_enforceShape [RdfParser] [ShapeEngine]
    (target : Target space) (dataset : Dataset) :
    HttpConceals (enforceShape target dataset) := by
  unfold enforceShape
  split
  · exact Program.conceals_done _
  · refine (conceals_orShapeStatus _).bind fun shape => ?_
    split
    · exact Program.conceals_done _
    · refine (Program.conceals_ofExcept .refl _).bind fun report => ?_
      split
      · exact Program.conceals_fail .refl _
      · exact Program.conceals_done _

omit [RdfSerializer]

variable [Sha256] [ObjectPath]

theorem conceals_currentTags (target : Target space) :
    ResourceConceals (currentTags target) := by
  unfold currentTags
  split
  · refine (conceals_kindOf _).bind fun kind => ?_
    split
    · split
      · exact Program.conceals_done _
      · exact (conceals_blob _).bind fun _ => Program.conceals_done _
    · exact (conceals_getDataset _).bind fun _ => Program.conceals_done _
  · refine (conceals_getRdf _).bind fun stored => ?_
    split
    · exact Program.conceals_done _
    · split
      · exact Program.conceals_done _
      · exact Program.conceals_fail .rfl _

theorem conceals_checkConditionals
    (headers : HeaderMap) (target : Target space) :
    HttpConceals (checkConditionals headers target) := by
  unfold checkConditionals
  split
  · exact Program.conceals_done _
  · refine (conceals_orPutError (conceals_currentTags target)).bind
      fun current => ?_
    dsimp only
    split
    · exact Program.conceals_fail .refl _
    · split
      · exact Program.conceals_fail .refl _
      · exact Program.conceals_done _

end Checks

theorem conceals_checkExisting
    (target : Target space) (format : Format) (declared : RdfVersion) :
    HttpConceals (checkExisting target format declared) := by
  unfold checkExisting
  split
  · refine (conceals_orPutError (conceals_getDataset _)).bind
      fun existing => ?_
    dsimp only
    split
    · exact Program.conceals_fail .refl _
    · split
      · exact Program.conceals_done _
      · refine (conceals_orPutError (conceals_getDataset _)).bind
          fun stored => ?_
        split
        · exact Program.conceals_done _
        · split
          · exact Program.conceals_fail .refl _
          · exact Program.conceals_done _
  · exact Program.conceals_done _

theorem conceals_refuseBinary (target : Target space) :
    HttpConceals (refuseBinary target) := by
  unfold refuseBinary
  split
  · refine (conceals_orPutError (conceals_kindOf _)).bind fun kind => ?_
    split
    · exact Program.conceals_fail .refl _
    · exact Program.conceals_done _
  · exact Program.conceals_done _

/-! ## Writing -/

section Writing

theorem conceals_respond
    (target : Target space) {write : ResourceProgram Unit}
    (conceals : ResourceConceals write) :
    HttpConceals (respond target write) := by
  refine Program.Conceals.attempt_bind conceals (fun result => ?_)
    fun error other same => ?_
  · cases result with
    | _ =>
        exact Program.conceals_done _
  · exact congrArg _ same.putError

/-- The key that is too long is told apart, and no other error is. -/
theorem conceals_respondBlob
    (target : Target space) {write : ResourceProgram Unit}
    (conceals : ResourceConceals write) :
    HttpConceals (respondBlob target write) := by
  refine Program.Conceals.attempt_bind conceals (fun result => ?_)
    fun error other same => ?_
  · split
    · exact Program.conceals_done _
    · exact Program.conceals_done _
    · exact Program.conceals_done _
  · rcases same with rfl | ⟨⟨_, rfl | rfl⟩, _, rfl | rfl⟩ <;> rfl

theorem conceals_putAux
    (fresh : Nat → Uuid) (target : Target space) (aux : AuxUrl space)
    (triples : List Triple) :
    HttpConceals (putAux fresh target aux triples) := by
  refine Program.Conceals.attempt_bind (conceals_auxPut fresh aux triples)
    (fun result => ?_) fun error other same => ?_
  · split
    · exact Program.conceals_done _
    · exact Program.conceals_done _
    · exact Program.conceals_done _
    · exact Program.conceals_done _
    · exact Program.conceals_done _
  · rcases same with rfl | ⟨first, second, rfl, rfl, kind⟩
    · rfl
    · exact congrArg _ kind.putError

theorem conceals_patchAux [QuadText] (aux : AuxUrl space) (patch : Patch) :
    HttpConceals (patchAux aux patch) := by
  refine Program.Conceals.attempt_bind (conceals_auxPatch aux patch)
    (fun result => ?_) fun error other same => ?_
  · split
    · exact Program.conceals_done _
    · exact Program.conceals_done _
    · exact Program.conceals_done _
    · exact Program.conceals_done _
    · exact Program.conceals_done _
  · rcases same with rfl | ⟨first, second, rfl, rfl, kind⟩
    · rfl
    · exact congrArg _ kind.putError

theorem conceals_patchExisting [QuadText]
    (target : Target space) (patch : Patch) :
    HttpConceals (patchExisting target patch) := by
  refine Program.Conceals.attempt_bind (conceals_patchGuarded _ _ _)
    (fun result => ?_) fun error other same => ?_
  · split
    · exact Program.conceals_done _
    · split
      · refine Program.Conceals.attempt_bind (conceals_store _)
          (fun result => ?_) fun error other same => ?_
        · cases result with
          | _ =>
              exact Program.conceals_done _
        · exact congrArg _ same.putError
      · exact Program.conceals_done _
  · exact congrArg _ same.putError

theorem conceals_deleteAux (aux : AuxUrl space) :
    HttpConceals (deleteAux aux) := by
  refine Program.Conceals.attempt_bind (conceals_deleteRdf aux)
    (fun result => ?_) fun _ _ _ => rfl
  split
  · exact Program.conceals_done _
  · exact Program.conceals_done _
  · exact Program.conceals_done _

theorem conceals_refuseDelete (target : Target space) :
    HttpConceals (refuseDelete target) := by
  unfold refuseDelete
  split
  · split
    · exact Program.conceals_fail .refl _
    · refine Program.Conceals.attempt_bind (conceals_containerIsEmpty _)
        (fun result => ?_) fun _ _ _ => rfl
      split
      · exact Program.conceals_fail .refl _
      · exact Program.conceals_done _
      · exact Program.conceals_fail .refl _
  · exact Program.conceals_done _

variable [ObjectPath]

theorem conceals_deleteCascade (target : Target space) :
    HttpConceals (deleteCascade target) := by
  refine Program.Conceals.attempt_bind (conceals_deleteSubject _)
    (fun result => ?_) fun _ _ _ => rfl
  split
  · exact Program.conceals_done _
  · exact Program.conceals_done _
  · exact Program.conceals_done _

theorem conceals_deleteImpl (agent : Agent) (target : Target space) :
    HttpConceals (deleteImpl agent target) := by
  refine (conceals_probeFor agent target).bind fun guard => ?_
  refine (conceals_orDeny target _).bind fun decision => ?_
  split
  · exact conceals_deleteAux _
  · refine (conceals_orDeny target _).bind fun _ => ?_
    refine (conceals_orDeny target _).bind fun _ => ?_
    exact (conceals_refuseDelete target).bind
      fun _ => conceals_deleteCascade target

end Writing

/-! ## The handlers -/

section Handlers

variable [Sha256] [ObjectPath] [QuadText]
variable [RdfParser] [RdfSerializer] [ShapeEngine]

theorem conceals_putRdfRepr
    (guard : Guard space) (target : Target space) (headers : HeaderMap)
    (fresh : Nat → Uuid) (dataset : Dataset) (format : Format)
    (declared : RdfVersion) :
    HttpConceals
      (putRdfRepr guard target headers fresh dataset format declared) := by
  refine (Program.conceals_ofExcept .refl _).bind fun _ => ?_
  refine (conceals_checkExisting _ _ _).bind fun _ => ?_
  refine (conceals_checkConditionals _ _).bind fun _ => ?_
  refine (conceals_enforceShape _ _).bind fun findings => ?_
  refine (conceals_materializeFor _ _).bind fun _ => ?_
  dsimp only
  split
  · exact (conceals_putAux _ _ _ _).bind fun _ => Program.conceals_done _
  · refine Program.Conceals.bind ?_ fun _ => Program.conceals_done _
    exact (conceals_orPutError (conceals_getRdf _)).bind
      fun _ => conceals_respond _ (conceals_writeContainer _ _ _)
  · exact (conceals_respond _ (conceals_putDataset _ _ _)).bind
      fun _ => Program.conceals_done _

omit [RdfParser] [RdfSerializer] [ShapeEngine] in
theorem conceals_putBlobRepr
    (guard : Guard space) (target : Target space) (headers : HeaderMap)
    (bytes : Bytes) (mediaType : MediaType) :
    HttpConceals (putBlobRepr guard target headers bytes mediaType) := by
  unfold putBlobRepr
  split
  · split
    · exact Program.conceals_fail .refl _
    · refine (conceals_checkConditionals _ _).bind fun _ => ?_
      refine (conceals_materializeFor _ _).bind fun _ => ?_
      exact conceals_respondBlob _ (conceals_putBlob _ _ _)
  · exact Program.conceals_fail .refl _

theorem conceals_putWrite
    (storeVersion : RdfVersion) (agent : Agent) (target : Target space)
    (headers : HeaderMap) (body : Bytes) (draws : Draws) :
    HttpConceals (putWrite storeVersion agent target headers body draws) := by
  refine (conceals_probeFor agent target).bind fun guard => ?_
  refine (conceals_orDeny target _).bind fun decision => ?_
  refine (Program.conceals_ofExcept .refl _).bind fun repr => ?_
  cases repr with
  | blob bytes mediaType =>
      exact conceals_putBlobRepr _ _ _ _ _
  | rdf dataset format declared =>
      exact conceals_putRdfRepr _ _ _ _ _ _ _

omit [Sha256] [ObjectPath] [QuadText] [RdfParser] [RdfSerializer]
  [ShapeEngine] in
theorem conceals_allocateChild
    (agent : Agent) (parent : ContainerUrl space) (headers : HeaderMap)
    (draws : Draws) :
    HttpConceals (allocateChild agent parent headers draws) := by
  refine (Program.conceals_ofExcept .refl _).bind fun child => ?_
  refine (conceals_probeFor agent child).bind fun guard => ?_
  split
  · refine (Program.conceals_ofExcept .refl _).bind fun retried => ?_
    exact (conceals_probeFor agent retried).bind
      fun _ => Program.conceals_done _
  · exact Program.conceals_done _

theorem conceals_postImpl
    (storeVersion : RdfVersion) (agent : Agent) (target : Target space)
    (headers : HeaderMap) (body : Bytes) (draws : Draws) :
    HttpConceals (postImpl storeVersion agent target headers body draws) := by
  refine (conceals_probeFor agent target).bind fun guard => ?_
  refine (conceals_orDeny target _).bind fun decision => ?_
  cases target with
  | container parent =>
      refine (conceals_allocateChild _ _ _ _).bind fun allocated => ?_
      obtain ⟨guard, child⟩ := allocated
      refine (Program.conceals_ofExcept .refl _).bind fun repr => ?_
      cases repr with
      | blob bytes mediaType =>
          dsimp only
          unfold postBlobRepr
          split
          · split
            · exact Program.conceals_fail .refl _
            · refine (conceals_materializeFor _ _).bind fun _ => ?_
              exact conceals_respondBlob _ (conceals_putBlob _ _ _)
          · exact Program.conceals_fail .refl _
      | rdf dataset format declared =>
          refine (Program.conceals_ofExcept .refl _).bind fun _ => ?_
          refine (conceals_enforceShape _ _).bind fun findings => ?_
          refine (conceals_materializeFor _ _).bind fun _ => ?_
          split
          · exact (conceals_respond _ (conceals_putDataset _ _ _)).bind
              fun _ => Program.conceals_done _
          · exact (conceals_respond _ (conceals_writeContainer _ _ _)).bind
              fun _ => Program.conceals_done _
          · exact Program.conceals_done _
  | resource url leaf =>
      exact Program.conceals_fail .refl _
  | aux url =>
      exact Program.conceals_fail .refl _

omit [RdfParser] [RdfSerializer] [ShapeEngine] in
theorem conceals_patchWrite
    (guard : Guard space) (target : Target space) (patch : Patch)
    (fresh : Nat → Uuid) :
    HttpConceals (patchWrite guard target patch fresh) := by
  unfold patchWrite
  split
  · exact conceals_patchAux _ _
  · split
    · exact conceals_patchExisting _ _
    · unfold createByPatch
      split
      · exact Program.conceals_fail .refl _
      · split
        · exact Program.conceals_fail .refl _
        · refine (conceals_materializeFor _ _).bind fun _ => ?_
          split
          · split
            · exact conceals_respond _ (conceals_putDataset _ _ _)
            · exact Program.conceals_fail .refl _
          · exact conceals_respond _ (conceals_writeContainer _ _ _)
          · exact Program.conceals_fail .refl _

omit [RdfParser] [ShapeEngine] in
theorem conceals_patchImpl [N3Parser]
    (agent : Agent) (target : Target space) (headers : HeaderMap)
    (body : Bytes) (draws : Draws) :
    HttpConceals (patchImpl agent target headers body draws) := by
  refine (conceals_probeFor agent target).bind fun guard => ?_
  refine (conceals_orDeny target _).bind fun decision => ?_
  refine (Program.conceals_ofExcept .refl _).bind fun _ => ?_
  refine (Program.conceals_ofExcept .refl _).bind fun patch => ?_
  split
  · exact Program.conceals_fail .refl _
  · refine (conceals_refuseBinary target).bind fun _ => ?_
    refine (conceals_patchShapeConflict target).bind fun _ => ?_
    refine (Program.conceals_ofExcept .refl _).bind fun _ => ?_
    refine (conceals_checkConditionals _ _).bind fun _ => ?_
    exact conceals_patchWrite _ _ _ _

theorem conceals_handle [N3Parser]
    (space : StorageSpace) (storeVersion : RdfVersion) (request : Request) :
    HttpConceals (handle space storeVersion request) := by
  refine (Program.conceals_ofExcept .refl _).bind fun target => ?_
  unfold handleTarget
  split
  · exact conceals_putWrite _ _ _ _ _ _
  · exact conceals_postImpl _ _ _ _ _ _
  · exact conceals_patchImpl _ _ _ _ _
  · exact conceals_deleteImpl _ _

variable [Quality]

omit [ObjectPath] [RdfParser] [ShapeEngine] in
/-- A bad IRI is told apart from the other errors, a failed store is not. -/
theorem conceals_resourceRead
    (storeVersion : RdfVersion) (target : Target space)
    (url : ResourceUrl space) (decision : Decision) (headers : HeaderMap) :
    HttpConceals (resourceRead storeVersion target url decision headers) := by
  refine Program.Conceals.attempt_bind (conceals_getDataset url)
    (fun result => ?_) fun error other same => ?_
  · split
    · refine Program.Conceals.attempt_bind (conceals_storedMediaType url)
        (fun answer => ?_) fun _ _ _ => rfl
      split
      · exact Program.conceals_done _
      · exact Program.conceals_done _
    · exact Program.conceals_done _
    · exact Program.conceals_done _
    · exact Program.conceals_done _
  · rcases same with rfl | ⟨⟨_, rfl | rfl⟩, _, rfl | rfl⟩ <;> rfl

omit [ObjectPath] [RdfParser] [ShapeEngine] in
theorem conceals_legacyGraphRead
    (storeVersion : RdfVersion) (decision : Decision) (target : Target space)
    (headers : HeaderMap) :
    HttpConceals (legacyGraphRead storeVersion decision target headers) := by
  unfold legacyGraphRead
  split
  · exact Program.conceals_done _
  · refine Program.Conceals.attempt_bind (conceals_getRdf target)
      (fun result => ?_) fun error other same => ?_
    · split
      · split
        · exact Program.conceals_done _
        · exact Program.conceals_done _
      · exact Program.conceals_done _
      · exact Program.conceals_done _
      · exact Program.conceals_done _
    · rcases same with rfl | ⟨⟨_, rfl | rfl⟩, _, rfl | rfl⟩ <;> rfl

omit [QuadText] [RdfParser] [RdfSerializer] [ShapeEngine] in
theorem conceals_blobRead
    (storeVersion : RdfVersion) (target : Target space)
    (url : ResourceUrl space) (headers : HeaderMap) (mediaType : MediaType) :
    HttpConceals (blobRead storeVersion target url headers mediaType) := by
  unfold blobRead
  split
  · exact Program.conceals_done _
  · split
    · exact Program.conceals_done _
    · refine Program.Conceals.attempt_bind (conceals_blob _)
        (fun result => ?_) fun _ _ _ => rfl
      split
      · exact Program.conceals_done _
      · exact Program.conceals_done _
      · dsimp only
        split
        · exact Program.conceals_done _
        · exact Program.conceals_done _

omit [RdfParser] [ShapeEngine] in
theorem conceals_getImpl
    (storeVersion : RdfVersion) (agent : Agent) (target : Target space)
    (headers : HeaderMap) :
    HttpConceals (getImpl storeVersion agent target headers) := by
  refine (conceals_probeFor agent target).bind fun guard => ?_
  refine (conceals_orDeny target _).bind fun decision => ?_
  split
  · refine Program.Conceals.attempt_bind (conceals_kindOf _)
      (fun result => ?_) fun error other same => ?_
    · split
      · exact conceals_blobRead _ _ _ _ _
      · exact conceals_resourceRead _ _ _ _ _
      · exact Program.conceals_done _
      · exact Program.conceals_done _
      · exact Program.conceals_done _
    · rcases same with rfl | ⟨⟨_, rfl | rfl⟩, _, rfl | rfl⟩ <;> rfl
  · exact conceals_legacyGraphRead _ _ _ _

omit [Sha256] [ObjectPath] [QuadText] [RdfParser] [RdfSerializer]
  [ShapeEngine] [Quality] in
/-- A failed look at the kind goes the way of a resource that holds triples. -/
theorem conceals_validatedContent (target : Target space) :
    HttpConceals (validatedContent target) := by
  unfold validatedContent
  split
  · exact Program.conceals_fail .refl _
  · refine (conceals_orPutError (conceals_getRdf _)).bind fun stored => ?_
    split
    · split
      · exact Program.conceals_done _
      · exact Program.conceals_fail .refl _
    · exact Program.conceals_fail .refl _
  · refine Program.Conceals.attempt_bind (conceals_kindOf _)
      (fun result => ?_) fun _ _ _ => rfl
    split
    · exact Program.conceals_fail .refl _
    · refine (conceals_orPutError (conceals_getDataset _)).bind
        fun stored => ?_
      split
      · exact Program.conceals_done _
      · exact Program.conceals_fail .refl _

omit [Sha256] [ObjectPath] in
theorem conceals_validateView
    (agent : Agent) (target : Target space) (headers : HeaderMap) :
    HttpConceals (validateView agent target headers) := by
  refine (conceals_probeFor agent target).bind fun guard => ?_
  refine (conceals_orDeny target _).bind fun decision => ?_
  split
  · exact Program.conceals_done _
  · refine (conceals_orShapeStatus _).bind fun shape => ?_
    split
    · exact Program.conceals_done _
    · refine (conceals_validatedContent target).bind fun dataset => ?_
      refine (Program.conceals_ofExcept .refl _).bind fun report => ?_
      split
      · exact Program.conceals_done _
      · split
        · exact Program.conceals_done _
        · exact Program.conceals_done _

theorem conceals_handleGet
    (space : StorageSpace) (storeVersion : RdfVersion) (path : Text)
    (query : Option Text) (agent : Agent) (headers : HeaderMap) :
    HttpConceals (handleGet space storeVersion path query agent headers) := by
  refine (Program.conceals_ofExcept .refl _).bind fun target => ?_
  split
  · exact conceals_validateView _ _ _
  · exact conceals_getImpl _ _ _ _

variable [N3Parser] [WireFormats] [Josekit] [JoseSigning]

omit [WireFormats] [JoseSigning] in
theorem conceals_handlePath
    (app : AppState) (agent : Agent) (verb : Verb) (request : HttpRequest)
    (draws : Draws) (path : Text) :
    HttpConceals (handlePath app agent verb request draws path) := by
  unfold handlePath
  split
  · exact (Program.conceals_ofExcept .refl _).bind
      fun _ => Program.conceals_done _
  · split
    · exact Program.conceals_fail .refl _
    · exact conceals_handle _ _ _
  · exact conceals_handleGet _ _ _ _ _ _

/-- Whatever the router does with a request, it keeps failures to itself. -/
theorem conceals_dispatch
    (app : AppState) (agent : Agent) (request : HttpRequest) (draws : Draws) :
    HttpConceals (dispatch app agent request draws) := by
  unfold dispatch
  split
  · exact Program.conceals_fail .refl _
  · exact Program.conceals_fail .refl _
  · exact conceals_handlePath _ _ _ _ _ _
  · split
    · exact conceals_handlePath _ _ _ _ _ _
    · exact Program.conceals_fail .refl _
  · split
    · split
      · exact Program.conceals_done _
      · exact Program.conceals_done _
      · exact Program.conceals_fail .refl _
    · exact Program.conceals_fail .refl _

/-! ## Requests at work together -/

omit [IriSyntax] in
/-- A request that the middleware let through, with the UUIDs it draws. -/
structure Admission where
  agent : Agent
  request : HttpRequest
  draws : Draws

/-- A turn; where its call fails, two texts the backend may fail with. -/
structure AmbiguousTurn where
  thread : Nat
  texts : Option (Text × Text)

/-- The turn with the first of the texts. -/
def AmbiguousTurn.first (turn : AmbiguousTurn) : Turn stores :=
  ⟨turn.thread, turn.texts.map Prod.fst⟩

/-- The turn with the second of the texts. -/
def AmbiguousTurn.second (turn : AmbiguousTurn) : Turn stores :=
  ⟨turn.thread, turn.texts.map Prod.snd⟩

/--
Any requests at once, in any interleaving, with any calls failing: at every
moment the stores and the responses sent are the same whatever texts the failing
backends gave, so no response carries anything of such a text.
-/
theorem failure_texts_concealed
    (app : AppState) (admissions : List Admission) (world : World)
    (turns : List AmbiguousTurn) :
    let requests : Config stores Response Response World :=
      .start world (admissions.map fun admission =>
        dispatch app admission.agent admission.request admission.draws)
    let reached := requests.execute backend (turns.map AmbiguousTurn.first)
    let otherwise := requests.execute backend (turns.map AmbiguousTurn.second)
    reached.world = otherwise.world ∧
      ∀ thread : Nat,
        (reached.pool[thread]?).map Program.result? =
          (otherwise.pool[thread]?).map Program.result? := by
  intro requests reached otherwise
  have started : requests.Alike Eq Eq requests := by
    refine ⟨rfl, rfl, List.forall₂_same.mpr ?_⟩
    intro program member
    obtain ⟨admission, _, rfl⟩ := List.mem_map.mp member
    exact conceals_dispatch _ _ _ _
  have sameTurns :
      List.Forall₂ Turn.Alike (turns.map AmbiguousTurn.first)
        (turns.map AmbiguousTurn.second) := by
    rw [List.forall₂_map_left_iff, List.forall₂_map_right_iff]
    refine List.forall₂_same.mpr fun turn _ => ⟨rfl, ?_⟩
    rw [AmbiguousTurn.first, AmbiguousTurn.second, Option.isSome_map,
      Option.isSome_map]
  have alike : reached.Alike Eq Eq otherwise := started.execute sameTurns
  exact ⟨alike.world, alike.results_eq⟩

end Handlers

end Quadpod
