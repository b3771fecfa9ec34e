import Quadpod.HttpReply

namespace Quadpod

open AtomicProgram

/-!
# The write handlers

`PUT`, `POST`, `PATCH` and `DELETE` of `http.rs`.  Each handler reads and checks
first, then performs the container writes its walk was authorized for, and last
writes the target.  Notifications are not modelled: they are sent after the
response is decided and read nothing back.
-/

variable [IriSyntax] [Sha256] [ObjectPath] [QuadText]
variable [RdfParser] [RdfSerializer] [ShapeEngine]
variable {space : StorageSpace}

/-- `Guard::probe` at the HTTP edge: a denial ends the request. -/
def probeFor (agent : Agent) (target : Target space) :
    HttpProgram (Guard space) :=
  Program.mapError (fun denial => denial.toResponse.withAuxLinks target)
    (Guard.probe agent target)

/-- A decision of the guard: a denial ends the request. -/
def orDeny {α : Type} (target : Target space) (decision : Except Denial α) :
    HttpProgram α :=
  Program.ofExcept
    (decision.mapError fun denial => denial.toResponse.withAuxLinks target)

/-- `Guard::materialize` at the HTTP edge. -/
def materializeFor (guard : Guard space) (target : Target space) :
    HttpProgram (Materialized space) :=
  Program.mapError (fun denial => denial.toResponse.withAuxLinks target)
    guard.materialize

/-- The response to a write of triples or quads. -/
def respond (target : Target space) (write : ResourceProgram Unit) :
    HttpProgram Response := do
  match ← write.attempt with
  | .ok () => pure (.created target)
  | .error error => pure (putError error)

/-- The response to a write of bytes. -/
def respondBlob (target : Target space) (write : ResourceProgram Unit) :
    HttpProgram Response := do
  match ← write.attempt with
  | .ok () => pure (.created target)
  | .error .keyTooLong => pure (.ofStatus 414)
  | .error error => pure (putError error)

/-- A written container: its graph replaced and its types asserted again. -/
def writeContainer
    (fresh : Nat → Uuid) (container : ContainerUrl space)
    (triples : List Triple) : ResourceProgram Unit := do
  putRdf fresh container triples
  ensureContainer container

/-- The link to the report, when there are findings on a stored body. -/
def withFindings
    (target : Target space) (findings : Option Report) (response : Response) :
    Response :=
  if findings.isSome && response.isSuccess then
    response.reportLink target
  else
    response

/-! ## PUT -/

/-- `put_write` for a body of bytes. -/
def putBlobRepr
    (guard : Guard space) (target : Target space) (headers : HeaderMap)
    (bytes : Bytes) (mediaType : MediaType) : HttpProgram Response :=
  match target with
  | .resource url _ =>
      if (BlobKey.of url).isNone then
        .fail (.ofStatus 414)
      else do
        checkConditionals headers target
        let _ ← materializeFor guard target
        respondBlob target (putBlob url bytes mediaType)
  | _ => .fail .internalError

/-- The checks of `put_write` on what a resource already holds. -/
def checkExisting
    (target : Target space) (format : Format) (declared : RdfVersion) :
    HttpProgram Unit :=
  match target with
  | .resource url _ => do
      let existing ← Program.mapError putError (getDataset url)
      let held :=
        (existing.map fun stored => stored.deskolemize.rdfVersion).getD .rdf11
      if declared < held then
        .fail (.ofText 409 ("this resource holds RDF ".toList ++ held.label ++
          " terms that ".toList ++ declared.label ++
          " cannot carry; send Content-Type with version=".toList ++
          held.label ++ ", or DELETE it first".toList))
      else if format.carriesDataset then
        pure ()
      else do
        match ← Program.mapError putError (getDataset url) with
        | none => pure ()
        | some stored =>
            if stored.hasNamedGraphs then
              let named :=
                stored.deskolemize.namedGraphs.map NamedNode.iri
              let blankNamed := stored.namedGraphs.length - named.length
              let parts :=
                if blankNamed > 0 then
                  named ++ [(Nat.repr blankNamed).toList ++
                    " named by a blank node".toList]
                else
                  named
              .fail (.ofText 409 ("this resource has named graphs (".toList ++
                ", ".toList.intercalate parts ++ ") that ".toList ++
                format.mediaType ++ (" cannot carry; write it as " ++
                  "application/trig or application/ld+json, " ++
                  "or DELETE it first").toList))
            else
              pure ()
  | _ => pure ()

/-- The checks on a body's quads that `PUT` and `POST` share. -/
def checkBody (target : Target space) (dataset : Dataset) :
    Except Response Unit :=
  if dataset.usesReservedNamespace then
    .error (.ofText 400 "the urn:quadpod: namespace is reserved".toList)
  else
    match target with
    | .resource _ _ => .ok ()
    | .container _ =>
        if dataset.hasNamedGraphs then
          .error (.ofText 400
            "named graphs are only allowed on resources".toList)
        else if bodySetsContainment dataset.triplesOf then
          .error (.ofStatus 409)
        else
          .ok ()
    | .aux _ =>
        if dataset.hasNamedGraphs then
          .error (.ofText 400
            "named graphs are only allowed on resources".toList)
        else
          .ok ()

/-- The response to `aux::put`. -/
def putAux
    (fresh : Nat → Uuid) (target : Target space) (aux : AuxUrl space)
    (triples : List Triple) : HttpProgram Response := do
  match ← (auxPut fresh aux triples).attempt with
  | .ok () =>
      pure (warnIfAclGrantsNothing aux triples (.created target))
  | .error .subjectMissing => pure (.ofText 404 auxSubjectMissingMessage)
  | .error (.tooLarge count) =>
      pure (.ofText 413 (AuxError.tooLarge count).display)
  | .error .missing => pure .internalError
  | .error (.resource error) => pure (putError error)

/-- A container `PUT`: the members already recorded are kept. -/
def putContainer
    (fresh : Nat → Uuid) (target : Target space)
    (container : ContainerUrl space) (triples : List Triple) :
    HttpProgram Response := do
  let existing ← Program.mapError putError (getRdf container)
  let kept :=
    (existing.getD []).filter fun triple =>
      triple.predicate.iri == ldpContainsIri
  respond target (writeContainer fresh container (triples ++ kept))

/-- `put_write` for an RDF body. -/
def putRdfRepr
    (guard : Guard space) (target : Target space) (headers : HeaderMap)
    (fresh : Nat → Uuid) (dataset : Dataset) (format : Format)
    (declared : RdfVersion) : HttpProgram Response := do
  Program.ofExcept (checkBody target dataset)
  checkExisting target format declared
  checkConditionals headers target
  let findings ← enforceShape target dataset
  let _ ← materializeFor guard target
  let triples := dataset.defaultGraphOnly.triplesOf
  let response ←
    match target with
    | .aux aux => putAux fresh target aux triples
    | .container container => putContainer fresh target container triples
    | .resource url _ =>
        respond target
          (putDataset url (Skolemized.skolemize fresh dataset) format)
  pure (withFindings target findings response)

/-- `put_write` -/
def putWrite
    (storeVersion : RdfVersion) (agent : Agent) (target : Target space)
    (headers : HeaderMap) (body : Bytes) (draws : Draws) :
    HttpProgram Response := do
  let guard ← probeFor agent target
  let _ ← orDeny target (guard.authorize .write)
  match ← Program.ofExcept (classifyBody headers body target storeVersion) with
  | .blob bytes mediaType =>
      putBlobRepr guard target headers bytes mediaType
  | .rdf dataset format declared =>
      putRdfRepr guard target headers draws.blank dataset format declared

/-! ## POST -/

/-- The child a `POST` settles on, probed. -/
def allocateChild
    (agent : Agent) (parent : ContainerUrl space) (headers : HeaderMap)
    (draws : Draws) : HttpProgram (Guard space × Target space) := do
  let wantsContainer := typeLinkRequestsContainer (headerStr headers .link)
  let ending : Text := if wantsContainer then ['/'] else []
  let name := childName (headers.str? .slug) draws.childName
  let child ←
    Program.ofExcept
      (classify space (parent.resource.path ++ name ++ ending))
  let guard ← probeFor agent child
  if guard.isTaken then do
    let unique := name ++ '-' :: draws.retryName.text ++ ending
    let child ←
      Program.ofExcept (classify space (parent.resource.path ++ unique))
    let guard ← probeFor agent child
    pure (guard, child)
  else
    pure (guard, child)

/-- What `post_impl` does with an RDF body for the child. -/
def postRdfRepr
    (guard : Guard space) (child : Target space) (fresh : Nat → Uuid)
    (dataset : Dataset) (format : Format) : HttpProgram Response := do
  Program.ofExcept (checkBody child dataset)
  let findings ← enforceShape child dataset
  let _ ← materializeFor guard child
  let response ←
    match child with
    | .resource url _ =>
        respond child
          (putDataset url (Skolemized.skolemize fresh dataset) format)
    | .container container =>
        respond child
          (writeContainer fresh container dataset.defaultGraphOnly.triplesOf)
    | .aux _ => pure .internalError
  pure (withFindings child findings response)

/-- What `post_impl` does with a body of bytes for the child. -/
def postBlobRepr
    (guard : Guard space) (child : Target space) (bytes : Bytes)
    (mediaType : MediaType) : HttpProgram Response :=
  match child with
  | .resource url _ =>
      if (BlobKey.of url).isNone then
        .fail (.ofStatus 414)
      else do
        let _ ← materializeFor guard child
        respondBlob child (putBlob url bytes mediaType)
  | _ => .fail .internalError

/-- `post_impl` -/
def postImpl
    (storeVersion : RdfVersion) (agent : Agent) (target : Target space)
    (headers : HeaderMap) (body : Bytes) (draws : Draws) :
    HttpProgram Response := do
  let parentGuard ← probeFor agent target
  let _ ← orDeny target (parentGuard.authorize .append)
  match target with
  | .container parent => do
      let (guard, child) ← allocateChild agent parent headers draws
      match ← Program.ofExcept
          (classifyBody headers body child storeVersion) with
      | .blob bytes mediaType => postBlobRepr guard child bytes mediaType
      | .rdf dataset format _ =>
          postRdfRepr guard child draws.blank dataset format
  | _ => .fail (.ofStatus 409)

/-! ## PATCH -/

/-- `show_term` -/
def showTerm : PatternTerm → Text
  | .named node => QuadText.displayTerm (.namedNode node)
  | .literal content => QuadText.displayTerm (.literal content)
  | .var index => "?v".toList ++ (Nat.repr index).toList

/-- `show_patterns` -/
def showPatterns (patterns : List Pattern) : Text :=
  [' '].intercalate (patterns.map fun pattern =>
    showTerm pattern.subject ++ ' ' :: showTerm pattern.predicate ++
      ' ' :: showTerm pattern.object ++ " .".toList)

/-- `patch_conflict` -/
def patchConflict (reason : Text) (patterns : List Pattern) : Response :=
  .ofText 409 (reason ++ ": ".toList ++ showPatterns patterns)

/-- `patch_response` -/
def patchResponse (result : PatchResult) (patch : Patch) : Response :=
  match result with
  | .applied => .ofStatus 204
  | .noMapping =>
      patchConflict "nothing matches the conditions".toList patch.conditions
  | .severalMappings =>
      patchConflict "more than one mapping satisfies the conditions".toList
        patch.conditions
  | .deletionMissing =>
      patchConflict "a triple this patch deletes is not there".toList
        patch.deletions

/-- `ContainmentConflict` -/
inductive ContainmentConflict where
  | ground
  | variablePredicate
  deriving DecidableEq

/-- `ContainmentConflict::message` -/
def ContainmentConflict.message : ContainmentConflict → Text
  | .ground => "ldp:contains is server-managed".toList
  | .variablePredicate =>
      ("a variable predicate on a container may bind ldp:contains, " ++
        "which is server-managed").toList

/-- The predicates a patch writes, or none when one is not an IRI. -/
def writtenPredicates (patch : Patch) : Option (List NamedNode) :=
  (patch.insertions ++ patch.deletions).mapM fun pattern =>
    match pattern.predicate with
    | .named node => some node
    | _ => none

/-- `patch_sets_containment` -/
def patchSetsContainment (patch : Patch) (container : ContainerUrl space) :
    Option ContainmentConflict :=
  match writtenPredicates patch with
  | none => some .variablePredicate
  | some predicates =>
      if bodySetsContainment (predicates.map fun predicate =>
          ⟨.namedNode container.node, predicate,
            .namedNode container.node⟩) then
        some .ground
      else
        none

/-- The gate of `patch_impl` on the content type. -/
def patchContentType (headers : HeaderMap) (body : Bytes) :
    Except Response Unit :=
  let contentType := Text.trim (headerStr headers .contentType)
  if contentType.isEmpty then
    if body.isEmpty then
      .error (.ofStatus 415)
    else
      .error (.ofText 400 "Content-Type is required".toList)
  else if (MediaType.parse contentType).map (fun mediaType =>
      Text.toAsciiLowercase (mediaTypeEssence mediaType.raw)) =
        some "text/n3".toList then
    .ok ()
  else
    .error (.ofStatus 415)

/-- The patch a body is, or the response to one that is none. -/
def parsePatch [N3Parser] (body : Bytes) (target : Target space) :
    Except Response Patch :=
  (Patch.parse body (graphIri target)).mapError fun
    | .shape message => .ofText 422 (PatchError.shape message).display
    | error => .ofText 400 error.display

/-- The refusal of `patch_impl` for a resource that holds bytes. -/
def refuseBinary (target : Target space) : HttpProgram Unit :=
  match target with
  | .resource url _ => do
      match ← Program.mapError putError (kindOf url) with
      | some (.binary _) =>
          .fail (.ofText 409 ("this resource holds bytes rather than " ++
            "triples, so there is nothing to patch").toList)
      | _ => pure ()
  | _ => pure ()

/-- The refusal of `patch_impl` for a patch that writes containment. -/
def refuseContainment (patch : Patch) (target : Target space) :
    Except Response Unit :=
  match target with
  | .container container =>
      match patchSetsContainment patch container with
      | some conflict => .error (.ofText 409 conflict.message)
      | none => .ok ()
  | _ => .ok ()

/-- `patch_impl` for an auxiliary. -/
def patchAux (aux : AuxUrl space) (patch : Patch) : HttpProgram Response := do
  match ← (auxPatch aux patch).attempt with
  | .ok result => pure (patchResponse result patch)
  | .error .subjectMissing => pure (.ofText 404 auxSubjectMissingMessage)
  | .error .missing => pure (.ofText 404 AuxError.missing.display)
  | .error (.tooLarge _) => pure .internalError
  | .error (.resource error) => pure (putError error)

/-- `patch_impl` for an existing resource or container. -/
def patchExisting (target : Target space) (patch : Patch) :
    HttpProgram Response := do
  match ← (patchDataset target.subject patch).attempt with
  | .error error => pure (putError error)
  | .ok result =>
      match target with
      | .container container => do
          match ← (ensureContainer container).attempt with
          | .ok () => pure (patchResponse result patch)
          | .error error => pure (putError error)
      | _ => pure (patchResponse result patch)

/-- `ground_dataset`: ground triples as a stored dataset. -/
def groundDataset (triples : List Triple) : Option Skolemized :=
  Skolemized.fromStore (asQuads triples)

/-- `create_by_patch` -/
def createByPatch
    (guard : Guard space) (target : Target space) (patch : Patch)
    (fresh : Nat → Uuid) : HttpProgram Response :=
  match patch.groundInsertions with
  | none => .fail (patchResponse .noMapping patch)
  | some triples =>
      if !patch.deletions.isEmpty then
        .fail (patchResponse .deletionMissing patch)
      else do
        let _ ← materializeFor guard target
        match target with
        | .resource url _ =>
            match groundDataset triples with
            | some dataset => respond target (putDataset url dataset .turtle)
            | none => .fail .internalError
        | .container container =>
            respond target (writeContainer fresh container triples)
        | .aux _ => .fail .internalError

/-- The part of `patch_impl` after every check. -/
def patchWrite
    (guard : Guard space) (target : Target space) (patch : Patch)
    (fresh : Nat → Uuid) : HttpProgram Response :=
  match target with
  | .aux aux => patchAux aux patch
  | _ =>
      if guard.targetExists then
        patchExisting target patch
      else
        createByPatch guard target patch fresh

/-- `patch_impl` -/
def patchImpl [N3Parser]
    (agent : Agent) (target : Target space) (headers : HeaderMap)
    (body : Bytes) (draws : Draws) : HttpProgram Response := do
  let guard ← probeFor agent target
  let decision ← orDeny target (guard.authorize .append)
  Program.ofExcept (patchContentType headers body)
  let patch ← Program.ofExcept (parsePatch body target)
  if !target.isAux && !patch.requiredModes.satisfiedBy decision.user then
    .fail ((deny guard.agent).toResponse.withAuxLinks target)
  else do
    refuseBinary target
    patchShapeConflict target
    Program.ofExcept (refuseContainment patch target)
    checkConditionals headers target
    patchWrite guard target patch draws.blank

/-! ## DELETE -/

/-- The refusal of `delete_impl` for the root and for a container in use. -/
def refuseDelete (target : Target space) : HttpProgram Unit :=
  match target with
  | .container container =>
      if container.resource.parent.isNone then
        .fail (.ofStatus 405)
      else do
        match ← (containerIsEmpty container).attempt with
        | .ok false => .fail (.ofStatus 409)
        | .ok true => pure ()
        | .error _ => .fail .internalError
  | _ => pure ()

/-- `delete_impl` for an auxiliary. -/
def deleteAux (aux : AuxUrl space) : HttpProgram Response := do
  match ← (deleteRdf aux).attempt with
  | .ok true => pure (.ofStatus 204)
  | .ok false => pure (.ofStatus 404)
  | .error _ => pure .internalError

/-- The cascade of `delete_impl`. -/
def deleteCascade (target : Target space) : HttpProgram Response := do
  match ← (deleteSubject target.subject).attempt with
  | .ok true => pure (.ofStatus 204)
  | .ok false => pure ((Response.ofStatus 404).withAuxLinks target)
  | .error _ => pure .internalError

/-- `delete_impl` -/
def deleteImpl (agent : Agent) (target : Target space) :
    HttpProgram Response := do
  let guard ← probeFor agent target
  let _ ← orDeny target (guard.authorize .write)
  match target with
  | .aux aux => deleteAux aux
  | _ => do
      let _ ← orDeny target (guard.authorizeParent .write)
      let _ ← orDeny target (AuxKind.all.mapM guard.authorizeAux)
      refuseDelete target
      deleteCascade target

/-! ## One request -/

/-- The methods that write. -/
inductive Method where
  | put
  | post
  | patch
  | delete
  deriving DecidableEq

/-- A write request, with the UUIDs its handling draws. -/
structure Request where
  method : Method
  path : Text
  agent : Agent
  headers : HeaderMap
  body : Bytes
  draws : Draws

/-- A request on the target its path resolved to. -/
def handleTarget [N3Parser]
    (storeVersion : RdfVersion) (request : Request) (target : Target space) :
    HttpProgram Response :=
  match request.method with
  | .put =>
      putWrite storeVersion request.agent target request.headers request.body
        request.draws
  | .post =>
      postImpl storeVersion request.agent target request.headers request.body
        request.draws
  | .patch =>
      patchImpl request.agent target request.headers request.body
        request.draws
  | .delete => deleteImpl request.agent target

/-- `handle_put`, `handle_post`, `handle_patch` and `handle_delete`. -/
def handle [N3Parser]
    (space : StorageSpace) (storeVersion : RdfVersion) (request : Request) :
    HttpProgram Response := do
  let target ← Program.ofExcept (classify space request.path)
  handleTarget storeVersion request target

end Quadpod
