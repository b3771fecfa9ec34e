import Quadpod.AtomicProgramFailures
import Quadpod.HttpWrite

namespace Quadpod

open AtomicProgram

/-!
# Early returns are refusals

An early return of a handler is a failed program whose error is the response.
No such response reports a success: what a handler answers with a status of the
200 class it answers at its end.
-/

variable [IriSyntax] {space : StorageSpace}

/-! ## Responses that refuse -/

/-- A response that reports no success. -/
def Response.Refuses (response : Response) : Prop :=
  response.isSuccess = false

omit [IriSyntax] in
theorem refuses_append {response : Response} (name value : Text)
    (refuses : response.Refuses) : (response.append name value).Refuses :=
  refuses

theorem refuses_withAuxLinks {response : Response} (target : Target space)
    (refuses : response.Refuses) : (response.withAuxLinks target).Refuses := by
  unfold Response.withAuxLinks
  split
  · exact refuses_append _ _ refuses
  · exact refuses

omit [IriSyntax] in
theorem refuses_toResponse (denial : Denial) : denial.toResponse.Refuses := by
  cases denial with
  | unauthenticated =>
      rfl
  | forbidden =>
      rfl
  | auxSubjectMissing =>
      rfl
  | slashPair =>
      rfl
  | store error =>
      rfl

theorem refuses_denial (target : Target space) (denial : Denial) :
    (denial.toResponse.withAuxLinks target).Refuses :=
  refuses_withAuxLinks target (refuses_toResponse denial)

omit [IriSyntax] in
theorem refuses_ofText {status : Nat} (message : Text)
    (isError : 400 ≤ status) : (Response.ofText status message).Refuses := by
  have tooLarge : ¬ status < 300 := by omega
  simp [Response.Refuses, Response.isSuccess, Response.ofText, tooLarge]

omit [IriSyntax] in
theorem le_putStatus (error : ResourceError) : 400 ≤ putStatus error := by
  unfold putStatus
  split
  · decide
  · decide
  · decide

omit [IriSyntax] in
theorem refuses_putError (error : ResourceError) :
    (putError error).Refuses := by
  unfold putError
  split
  · rfl
  · exact refuses_ofText _ (le_putStatus error)

omit [IriSyntax] in
theorem refuses_shapeStatus (error : ShapeError) :
    (shapeStatus error).Refuses := by
  unfold shapeStatus
  dsimp only
  split
  all_goals split
  all_goals first
    | rfl
    | exact refuses_ofText _ (le_putStatus _)

theorem refuses_classify
    {path : Text} {response : Response}
    (refused : classify space path = .error response) :
    response.Refuses := by
  unfold classify at refused
  cases resolved : space.resolve path with
  | ok target =>
      rw [resolved] at refused
      cases refused
  | error error =>
      rw [resolved] at refused
      cases error <;> (cases refused; rfl)

theorem refuses_classifyBody [RdfParser]
    {headers : HeaderMap} {body : Bytes} {target : Target space}
    {storeVersion : RdfVersion} {response : Response}
    (refused :
      classifyBody headers body target storeVersion = .error response) :
    response.Refuses := by
  unfold classifyBody at refused
  dsimp only at refused
  repeat' split at refused
  all_goals
    cases refused
    try rfl

theorem refuses_checkBody
    {target : Target space} {body : Dataset} {response : Response}
    (refused : checkBody target body = .error response) :
    response.Refuses := by
  unfold checkBody at refused
  repeat' split at refused
  all_goals
    cases refused
    try rfl

omit [IriSyntax] in
theorem refuses_patchContentType
    {headers : HeaderMap} {body : Bytes} {response : Response}
    (refused : patchContentType headers body = .error response) :
    response.Refuses := by
  unfold patchContentType at refused
  dsimp only at refused
  repeat' split at refused
  all_goals
    cases refused
    try rfl

theorem refuses_parsePatch [N3Parser]
    {body : Bytes} {target : Target space} {response : Response}
    (refused : parsePatch body target = .error response) :
    response.Refuses := by
  unfold parsePatch at refused
  cases parsed : Patch.parse body (graphIri target) with
  | ok patch =>
      rw [parsed] at refused
      cases refused
  | error error =>
      rw [parsed] at refused
      cases error <;> (cases refused; rfl)

theorem refuses_refuseContainment
    {patch : Patch} {target : Target space} {response : Response}
    (refused : refuseContainment patch target = .error response) :
    response.Refuses := by
  unfold refuseContainment at refused
  repeat' split at refused
  all_goals
    cases refused
    try rfl

/-! ## The checks -/

/-- A program of the HTTP layer whose early returns are all refusals. -/
abbrev Refusing {α : Type} (program : HttpProgram α) : Prop :=
  program.FailsWith Response.Refuses

theorem refusing_probeFor (agent : Agent) (target : Target space) :
    Refusing (probeFor agent target) :=
  Program.failsWith_mapError (refuses_denial target) _

theorem refusing_orDeny {α : Type}
    (target : Target space) (decision : Except Denial α) :
    Refusing (orDeny target decision) :=
  Program.failsWith_ofExcept_mapError (refuses_denial target) decision

theorem refusing_materializeFor (guard : Guard space) (target : Target space) :
    Refusing (materializeFor guard target) :=
  Program.failsWith_mapError (refuses_denial target) _

theorem refusing_respond
    (target : Target space) (write : ResourceProgram Unit) :
    Refusing (respond target write) := by
  refine (Program.failsWith_attempt _).bind fun result => ?_
  split
  · exact Program.failsWith_done _
  · exact Program.failsWith_done _

theorem refusing_respondBlob
    (target : Target space) (write : ResourceProgram Unit) :
    Refusing (respondBlob target write) := by
  refine (Program.failsWith_attempt _).bind fun result => ?_
  split
  · exact Program.failsWith_done _
  · exact Program.failsWith_done _
  · exact Program.failsWith_done _

variable [Sha256] [ObjectPath] [QuadText]

theorem refusing_checkConditionals
    (headers : HeaderMap) (target : Target space) :
    Refusing (checkConditionals headers target) := by
  unfold checkConditionals
  split
  · exact Program.failsWith_done _
  · refine (Program.failsWith_mapError refuses_putError _).bind
      fun current => ?_
    dsimp only
    split
    · exact (rfl : (Response.ofStatus 412).Refuses)
    · split
      · exact (rfl : (Response.ofStatus 412).Refuses)
      · exact Program.failsWith_done _

omit [Sha256] [ObjectPath] [QuadText] in
theorem refusing_checkExisting
    (target : Target space) (format : Format) (declared : RdfVersion) :
    Refusing (checkExisting target format declared) := by
  unfold checkExisting
  split
  · refine (Program.failsWith_mapError refuses_putError _).bind
      fun existing => ?_
    dsimp only
    split
    · exact refuses_ofText _ (by decide)
    · split
      · exact Program.failsWith_done _
      · refine (Program.failsWith_mapError refuses_putError _).bind
          fun stored => ?_
        split
        · exact Program.failsWith_done _
        · split
          · exact refuses_ofText _ (by decide)
          · exact Program.failsWith_done _
  · exact Program.failsWith_done _

omit [Sha256] [ObjectPath] in
theorem refusing_enforceShape [RdfParser] [RdfSerializer] [ShapeEngine]
    (target : Target space) (body : Dataset) :
    Refusing (enforceShape target body) := by
  unfold enforceShape
  split
  · exact Program.failsWith_done _
  · refine (Program.failsWith_mapError refuses_shapeStatus _).bind
      fun found => ?_
    split
    · exact Program.failsWith_done _
    · refine (Program.failsWith_ofExcept_mapError refuses_shapeStatus _).bind
        fun report => ?_
      split
      · exact refuses_append _ _ rfl
      · exact Program.failsWith_done _

omit [Sha256] [ObjectPath] in
theorem refusing_patchShapeConflict [RdfSerializer] (target : Target space) :
    Refusing (patchShapeConflict target) := by
  unfold patchShapeConflict
  split
  · exact Program.failsWith_done _
  · refine (Program.failsWith_mapError refuses_shapeStatus _).bind
      fun found => ?_
    split
    · exact Program.failsWith_done _
    · exact refuses_ofText _ (by decide)

omit [Sha256] [ObjectPath] [QuadText] in
theorem refusing_putAux
    (fresh : Nat → Uuid) (target : Target space) (aux : AuxUrl space)
    (triples : List Triple) :
    Refusing (putAux fresh target aux triples) := by
  refine (Program.failsWith_attempt _).bind fun result => ?_
  split <;> exact Program.failsWith_done _

omit [Sha256] [ObjectPath] [QuadText] in
theorem refusing_putContainer
    (fresh : Nat → Uuid) (target : Target space)
    (container : ContainerUrl space) (triples : List Triple) :
    Refusing (putContainer fresh target container triples) :=
  (Program.failsWith_mapError refuses_putError _).bind
    fun _ => refusing_respond _ _

theorem refusing_putBlobRepr
    (guard : Guard space) (target : Target space) (headers : HeaderMap)
    (bytes : Bytes) (mediaType : MediaType) :
    Refusing (putBlobRepr guard target headers bytes mediaType) := by
  unfold putBlobRepr
  split
  · split
    · exact (rfl : (Response.ofStatus 414).Refuses)
    · refine (refusing_checkConditionals _ _).bind fun _ => ?_
      exact (refusing_materializeFor _ _).bind
        fun _ => refusing_respondBlob _ _
  · exact (rfl : Response.internalError.Refuses)

variable [RdfParser] [RdfSerializer] [ShapeEngine]

theorem refusing_putRdfRepr
    (guard : Guard space) (target : Target space) (headers : HeaderMap)
    (fresh : Nat → Uuid) (body : Dataset) (format : Format)
    (declared : RdfVersion) :
    Refusing (putRdfRepr guard target headers fresh body format declared) := by
  refine (Program.failsWith_ofExcept fun _ => refuses_checkBody).bind
    fun _ => ?_
  refine (refusing_checkExisting _ _ _).bind fun _ => ?_
  refine (refusing_checkConditionals _ _).bind fun _ => ?_
  refine (refusing_enforceShape _ _).bind fun findings => ?_
  refine (refusing_materializeFor _ _).bind fun _ => ?_
  dsimp only
  split
  · exact (refusing_putAux _ _ _ _).bind fun _ => Program.failsWith_done _
  · exact (refusing_putContainer _ _ _ _).bind
      fun _ => Program.failsWith_done _
  · exact (refusing_respond _ _).bind fun _ => Program.failsWith_done _

theorem refusing_putWrite
    (storeVersion : RdfVersion) (agent : Agent) (target : Target space)
    (headers : HeaderMap) (body : Bytes) (draws : Draws) :
    Refusing (putWrite storeVersion agent target headers body draws) := by
  refine (refusing_probeFor _ _).bind fun guard => ?_
  refine (refusing_orDeny _ _).bind fun _ => ?_
  refine (Program.failsWith_ofExcept fun _ => refuses_classifyBody).bind
    fun repr => ?_
  split
  · exact refusing_putBlobRepr _ _ _ _ _
  · exact refusing_putRdfRepr _ _ _ _ _ _ _

omit [Sha256] [ObjectPath] [QuadText] [RdfParser] [RdfSerializer]
  [ShapeEngine] in
theorem refusing_allocateChild
    (agent : Agent) (parent : ContainerUrl space) (headers : HeaderMap)
    (draws : Draws) :
    Refusing (allocateChild agent parent headers draws) := by
  refine (Program.failsWith_ofExcept fun _ => refuses_classify).bind
    fun child => ?_
  refine (refusing_probeFor _ _).bind fun guard => ?_
  split
  · refine (Program.failsWith_ofExcept fun _ => refuses_classify).bind
      fun child => ?_
    exact (refusing_probeFor _ _).bind fun _ => Program.failsWith_done _
  · exact Program.failsWith_done _

omit [Sha256] [QuadText] [RdfParser] [RdfSerializer] [ShapeEngine] in
theorem refusing_postBlobRepr
    (guard : Guard space) (child : Target space) (bytes : Bytes)
    (mediaType : MediaType) :
    Refusing (postBlobRepr guard child bytes mediaType) := by
  unfold postBlobRepr
  split
  · split
    · exact (rfl : (Response.ofStatus 414).Refuses)
    · exact (refusing_materializeFor _ _).bind
        fun _ => refusing_respondBlob _ _
  · exact (rfl : Response.internalError.Refuses)

theorem refusing_postRdfRepr
    (guard : Guard space) (child : Target space) (fresh : Nat → Uuid)
    (body : Dataset) (format : Format) :
    Refusing (postRdfRepr guard child fresh body format) := by
  refine (Program.failsWith_ofExcept fun _ => refuses_checkBody).bind
    fun _ => ?_
  refine (refusing_enforceShape _ _).bind fun findings => ?_
  refine (refusing_materializeFor _ _).bind fun _ => ?_
  split
  · exact (refusing_respond _ _).bind fun _ => Program.failsWith_done _
  · exact (refusing_respond _ _).bind fun _ => Program.failsWith_done _
  · exact Program.failsWith_done _

theorem refusing_postImpl
    (storeVersion : RdfVersion) (agent : Agent) (target : Target space)
    (headers : HeaderMap) (body : Bytes) (draws : Draws) :
    Refusing (postImpl storeVersion agent target headers body draws) := by
  refine (refusing_probeFor _ _).bind fun guard => ?_
  refine (refusing_orDeny _ _).bind fun _ => ?_
  split
  · refine (refusing_allocateChild _ _ _ _).bind fun given => ?_
    refine (Program.failsWith_ofExcept fun _ => refuses_classifyBody).bind
      fun repr => ?_
    split
    · exact refusing_postBlobRepr _ _ _ _
    · exact refusing_postRdfRepr _ _ _ _ _
  · exact (rfl : (Response.ofStatus 409).Refuses)

/-! ### `PATCH` -/

omit [Sha256] [ObjectPath] [RdfParser] [RdfSerializer] [ShapeEngine] in
theorem refusing_patchAux (aux : AuxUrl space) (patch : Patch) :
    Refusing (patchAux aux patch) := by
  refine (Program.failsWith_attempt _).bind fun result => ?_
  split <;> exact Program.failsWith_done _

omit [Sha256] [ObjectPath] [RdfParser] [RdfSerializer] [ShapeEngine] in
theorem refusing_patchExisting (target : Target space) (patch : Patch) :
    Refusing (patchExisting target patch) := by
  refine (Program.failsWith_attempt _).bind fun result => ?_
  split
  · exact Program.failsWith_done _
  · split
    · refine (Program.failsWith_attempt _).bind fun ensured => ?_
      split
      · exact Program.failsWith_done _
      · exact Program.failsWith_done _
    · exact Program.failsWith_done _

omit [RdfParser] [RdfSerializer] [ShapeEngine] in
theorem refusing_createByPatch
    (guard : Guard space) (target : Target space) (patch : Patch)
    (fresh : Nat → Uuid) :
    Refusing (createByPatch guard target patch fresh) := by
  unfold createByPatch
  split
  · exact refuses_ofText _ (by decide)
  · split
    · exact refuses_ofText _ (by decide)
    · refine (refusing_materializeFor _ _).bind fun _ => ?_
      split
      · split
        · exact refusing_respond _ _
        · exact (rfl : Response.internalError.Refuses)
      · exact refusing_respond _ _
      · exact (rfl : Response.internalError.Refuses)

omit [Sha256] [ObjectPath] [QuadText] [RdfParser] [RdfSerializer]
  [ShapeEngine] in
theorem refusing_refuseBinary (target : Target space) :
    Refusing (refuseBinary target) := by
  unfold refuseBinary
  split
  · refine (Program.failsWith_mapError refuses_putError _).bind
      fun kind => ?_
    split
    · exact refuses_ofText _ (by decide)
    · exact Program.failsWith_done _
  · exact Program.failsWith_done _

omit [RdfParser] [ShapeEngine] in
theorem refusing_patchImpl [N3Parser]
    (agent : Agent) (target : Target space) (headers : HeaderMap)
    (body : Bytes) (draws : Draws) :
    Refusing (patchImpl agent target headers body draws) := by
  refine (refusing_probeFor _ _).bind fun guard => ?_
  refine (refusing_orDeny _ _).bind fun decision => ?_
  refine (Program.failsWith_ofExcept fun _ => refuses_patchContentType).bind
    fun _ => ?_
  refine (Program.failsWith_ofExcept fun _ => refuses_parsePatch).bind
    fun patch => ?_
  split
  · exact refuses_denial target _
  · refine (refusing_refuseBinary _).bind fun _ => ?_
    refine (refusing_patchShapeConflict _).bind fun _ => ?_
    refine (Program.failsWith_ofExcept
      fun _ => refuses_refuseContainment).bind fun _ => ?_
    refine (refusing_checkConditionals _ _).bind fun _ => ?_
    unfold patchWrite
    split
    · exact refusing_patchAux _ _
    · split
      · exact refusing_patchExisting _ _
      · exact refusing_createByPatch _ _ _ _

/-! ### `DELETE` -/

omit [Sha256] [ObjectPath] [QuadText] [RdfParser] [RdfSerializer]
  [ShapeEngine] in
theorem refusing_refuseDelete (target : Target space) :
    Refusing (refuseDelete target) := by
  unfold refuseDelete
  split
  · split
    · exact (rfl : (Response.ofStatus 405).Refuses)
    · refine (Program.failsWith_attempt _).bind fun isEmpty => ?_
      split
      · exact (rfl : (Response.ofStatus 409).Refuses)
      · exact Program.failsWith_done _
      · exact (rfl : Response.internalError.Refuses)
  · exact Program.failsWith_done _

omit [Sha256] [QuadText] [RdfParser] [RdfSerializer] [ShapeEngine] in
theorem refusing_deleteImpl (agent : Agent) (target : Target space) :
    Refusing (deleteImpl agent target) := by
  refine (refusing_probeFor _ _).bind fun guard => ?_
  refine (refusing_orDeny _ _).bind fun _ => ?_
  split
  · refine (Program.failsWith_attempt _).bind fun removed => ?_
    split <;> exact Program.failsWith_done _
  · refine (refusing_orDeny _ _).bind fun _ => ?_
    refine (refusing_orDeny _ _).bind fun _ => ?_
    refine (refusing_refuseDelete _).bind fun _ => ?_
    refine (Program.failsWith_attempt _).bind fun removed => ?_
    split <;> exact Program.failsWith_done _

/-! ### One request -/

/-- No early return of a write request reports a success. -/
theorem refusing_handle [N3Parser]
    (storeVersion : RdfVersion) (request : Request) :
    Refusing (handle space storeVersion request) := by
  refine (Program.failsWith_ofExcept fun _ => refuses_classify).bind
    fun target => ?_
  unfold handleTarget
  split
  · exact refusing_putWrite _ _ _ _ _ _
  · exact refusing_postImpl _ _ _ _ _ _
  · exact refusing_patchImpl _ _ _ _ _
  · exact refusing_deleteImpl _ _

end Quadpod
