import Quadpod.Resource

namespace Quadpod

open GraphStore

/-!
# Containers and auxiliaries

`container.rs` and `aux.rs`.  A container's graph holds its containment triples
beside whatever a client wrote into it.  An auxiliary exists only for an existing
subject and dies with it: its write carries the condition inside the update, and
deleting the subject deletes its auxiliaries in the same update.
-/

variable [IriSyntax] {space : StorageSpace}

/-! ## Containers -/

/-- `body_sets_containment` -/
def bodySetsContainment (triples : List Triple) : Bool :=
  triples.any fun triple => triple.predicate.iri == ldpContainsIri

/-- Whether this pod adds a triple to a container's graph of its own. -/
def isServerManaged (containerIri : Text) (triple : Triple) : Bool :=
  if triple.predicate.iri == ldpContainsIri then
    true
  else
    let subjectIsContainer :=
      match triple.subject with
      | .namedNode node => node.iri == containerIri
      | .blankNode _ => false
    if triple.predicate.iri == rdfTypeIri && subjectIsContainer then
      match triple.object with
      | .namedNode node =>
          node.iri == ldpContainerIri || node.iri == ldpBasicContainerIri
      | _ => false
    else
      false

/-- `without_server_managed` -/
def withoutServerManaged (triples : List Triple) (containerIri : Text) :
    List Triple :=
  triples.filter fun triple => !isServerManaged containerIri triple

/-- The type triples every container carries. -/
def containerTypes (container : ContainerUrl space) : List GroundQuad :=
  [⟨container.node, rdfType, .namedNode ldpContainer, .defaultGraph⟩,
    ⟨container.node, rdfType, .namedNode ldpBasicContainer, .defaultGraph⟩]

/-- The triple that records a member. -/
def containmentTriple (parent : ContainerUrl space) (child : NamedNode) :
    GroundTriple :=
  ⟨parent.node, ldpContains, .namedNode child⟩

/-- `ensure_container` -/
def ensureContainer (container : ContainerUrl space) : ResourceProgram Unit :=
  insertMarked container (containerTypes container)

/-- `add_containment` -/
def addContainment (parent : ContainerUrl space) (child : NamedNode) :
    ResourceProgram Unit :=
  insertMarked parent
    [⟨parent.node, ldpContains, .namedNode child, .defaultGraph⟩]

/-- `containment_removal` -/
def containmentRemoval (parent : ContainerUrl space) (child : NamedNode) :
    Operation Text GroundTriple :=
  .deleteData (graphIri parent) [containmentTriple parent child]

/-- `container_is_empty` -/
def containerIsEmpty (container : ContainerUrl space) :
    ResourceProgram Bool := do
  let triples : List Triple ←
    StoreProgram.issue .store
      (.queryTriples (graphIri container) (some container.node)
        (some ldpContains))
  pure triples.isEmpty

/-- `provision_root` -/
def provisionRoot (root : ContainerUrl space) : ResourceProgram Unit :=
  ensureContainer root

/-- Whether one parameter of a `Link` value is `rel` with the token `type`. -/
def isTypeParameter (parameter : Text) : Bool :=
  match Text.splitOnce '=' parameter with
  | some (name, value) =>
      Text.eqIgnoreAsciiCase (Text.trim name) "rel".toList &&
        (Text.splitWhitespace
          (Text.trimMatches '"' (Text.trim value))).contains "type".toList
  | none => false

/-- `type_link_requests_container` -/
def typeLinkRequestsContainer (link : Text) : Bool :=
  (Text.split ',' link).any fun value =>
    match Text.stripPrefix ['<'] (Text.trim value) with
    | none => false
    | some rest =>
        match Text.splitOnce '>' rest with
        | none => false
        | some (target, parameters) =>
            (target == ldpContainerIri || target == ldpBasicContainerIri) &&
              (Text.split ';' parameters).any isTypeParameter

/-- A character `child_name` keeps. -/
def isNameChar (c : Char) : Bool :=
  c.isAlphanum || c == '.' || c == '_' || c == '-'

/-- `child_name`, with the UUID it falls back to. -/
def childName (slug : Option Text) (uuid : Uuid) : Text :=
  let cleaned := (slug.getD []).filter isNameChar
  if cleaned.isEmpty || isDotSegment cleaned then uuid.text else cleaned

/-! ## Auxiliaries -/

/-- `AuxError` -/
inductive AuxError where
  | subjectMissing
  | missing
  | tooLarge (count : Nat)
  | resource (error : ResourceError)
  deriving DecidableEq

/-- `MAX_AUX_TRIPLES` -/
def maxAuxTriples : Nat := 1000

/-- A program of the auxiliary layer. -/
abbrev AuxProgram := StoreProgram AuxError

/-- A call of the resource layer, with `?`. -/
def AuxProgram.ofResource {α : Type} (program : ResourceProgram α) :
    AuxProgram α :=
  program.mapError .resource

/-- `subject_present_guard` -/
def subjectPresentGuard (aux : AuxUrl space) : Condition Text GroundTriple :=
  [(sysGraphIri aux.subject, presenceMarker aux.subject.node)]

/-- `conditional_put_update` -/
def conditionalPutUpdate
    (fresh : Nat → Uuid) (aux : AuxUrl space) (triples : List Triple) :
    List (Operation Text GroundTriple) :=
  [.clearWhere (graphIri aux) (subjectPresentGuard aux),
    .insertWhere
      [(graphIri aux, skolemizedTriples fresh triples),
        (sysGraphIri aux, [presenceMarker aux.node])]
      (subjectPresentGuard aux)]

/-- `aux::put` -/
def auxPut (fresh : Nat → Uuid) (aux : AuxUrl space) (triples : List Triple) :
    AuxProgram Unit :=
  if triples.length > maxAuxTriples then
    .fail (.tooLarge triples.length)
  else do
    StoreProgram.issue (fun error => .resource (.store error))
      (.update (conditionalPutUpdate fresh aux triples))
    if ← AuxProgram.ofResource (exists? aux) then
      pure ()
    else
      .fail .subjectMissing

/-- `aux::patch` -/
def auxPatch (aux : AuxUrl space) (patch : Patch) : AuxProgram PatchResult := do
  if ← AuxProgram.ofResource (exists? aux) then
    let result ←
      AuxProgram.ofResource
        (patchGuarded aux patch (subjectPresentGuard aux))
    if ← AuxProgram.ofResource (exists? aux) then
      pure result
    else
      .fail .subjectMissing
  else
    if ← AuxProgram.ofResource (exists? aux.subject) then
      .fail .missing
    else
      .fail .subjectMissing

/-- The update `delete_subject` issues. -/
def deleteSubjectUpdate
    (subject : ResourceUrl space) (registered : List ShelfKey) :
    List (Operation Text GroundTriple) :=
  (registered.map fun key => .drop key.graphIri) ++
    [.drop (graphIri subject), .drop (sysGraphIri subject)] ++
    (AuxKind.all.flatMap fun kind =>
      [.drop (graphIri (subject.aux kind)),
        .drop (sysGraphIri (subject.aux kind))]) ++
    match subject.parent with
    | some parent => [containmentRemoval parent subject.node]
    | none => []

/-- `aux::delete_subject` -/
def deleteSubject [ObjectPath] (subject : ResourceUrl space) :
    ResourceProgram Bool := do
  let existed ← exists? subject
  let registered ← registeredShelves subject
  StoreProgram.issue .store (.update (deleteSubjectUpdate subject registered))
  deleteBlob subject
  pure existed

end Quadpod
