import Quadpod.Container
import Quadpod.WacDecision

namespace Quadpod

open AtomicProgram

/-!
# The guard

`wac/prp.rs`, `wac/guard.rs` and `wac/provision.rs`: a request is probed once,
which reads everything its authorization depends on; the decisions are then made
on what was read, and `materialize` performs the container writes they allow.
-/

variable [IriSyntax] {space : StorageSpace}

/-- `Denial` -/
inductive Denial where
  | unauthenticated
  | forbidden
  | auxSubjectMissing
  | slashPair
  | store (error : ResourceError)
  deriving DecidableEq

/-- The free function `deny`. -/
def deny : Agent → Denial
  | .anonymous => .unauthenticated
  | .webId _ => .forbidden

/-- `required_mode_for_aux` -/
def requiredModeForAux : AuxKind → Mode
  | .acl => .control

/-! ## Reading the chain -/

/-- The subject of a target: what its authorization is decided on. -/
def Target.subject : Target space → ResourceUrl space
  | .resource url _ => url
  | .container url => url.resource
  | .aux url => url.subject

/-- The subject and every container above it, nearest first. -/
def ResourceUrl.chain (url : ResourceUrl space) : List (ResourceUrl space) :=
  url :: url.ancestors.map ContainerUrl.resource

/-- The ACL of a resource. -/
def ResourceUrl.acl (url : ResourceUrl space) : AuxUrl space :=
  url.aux .acl

/-- Push a triple on the entry of a key. -/
def pushAcl (key : Text) (triple : Triple) :
    List (Text × List Triple) → List (Text × List Triple)
  | [] => [(key, [triple])]
  | (entry, triples) :: rest =>
      if entry = key then
        (entry, triples ++ [triple]) :: rest
      else
        (entry, triples) :: pushAcl key triple rest

/-- The ACLs of a chain that exist, each with the IRI it governs. -/
def governedAcls (chain : List (ResourceUrl space)) (present : List Text) :
    List (Text × Text) :=
  chain.filterMap fun element =>
    if present.contains element.acl.iri then
      some (element.acl.iri, element.iri)
    else
      none

/-- The rows of the ACL query, by the IRI each one's graph governs. -/
def collectAcls
    (governed : List (Text × Text)) (rows : List (Text × Triple)) :
    List (Text × List Triple) :=
  rows.foldl
    (fun acls row =>
      match governed.lookup row.1 with
      | some element => pushAcl element row.2 acls
      | none => acls)
    (governed.map fun entry => (entry.2, []))

/-- `prp::load_chain_acls`: the ACLs that exist, by the IRI they govern. -/
def loadChainAcls
    (chain : List (ResourceUrl space)) (present : List Text) :
    ResourceProgram (List (Text × List Triple)) :=
  let governed := governedAcls chain present
  if governed.isEmpty then
    pure []
  else do
    let rows : List (Text × Triple) ←
      StoreProgram.issue .store (.queryGraphs (governed.map Prod.fst))
    pure (collectAcls governed rows)

/-- The part of `decide_from` that judges the ACL it found. -/
def judge
    (acl : List Triple) (agent : Agent) (governedIri : Text)
    (inherited : Bool) (required : Mode) : Except Denial Decision :=
  let user := decideModes acl agent governedIri inherited
  let everyone :=
    match agent with
    | .anonymous => user
    | .webId _ => decideModes acl .anonymous governedIri inherited
  if user.allows required then
    .ok ⟨user, everyone⟩
  else
    .error (deny agent)

/-- `Guard`: what one request's authorization was decided from. -/
structure Guard (space : StorageSpace) where
  agent : Agent
  target : Target space
  present : List Text
  acls : List (Text × List Triple)

namespace Guard

/-- The graphs a probe asks about: the chain, its auxiliaries and its pairs. -/
def candidates (subject : ResourceUrl space) : List NamedNode :=
  subject.chain.map ResourceUrl.node ++
    (subject.chain.flatMap fun element =>
      AuxKind.all.map fun kind => (element.aux kind).node) ++
    (subject.chain.filterMap ResourceUrl.slashCounterpart).map
      ResourceUrl.node

/-- `Guard::probe` -/
def probe (agent : Agent) (target : Target space) :
    StoreProgram Denial (Guard space) :=
  Program.mapError .store do
    let present ← existsMany (candidates target.subject)
    let acls ← loadChainAcls target.subject.chain present
    pure ⟨agent, target, present, acls⟩

variable (guard : Guard space)

/-- The chain of the target. -/
def chain : List (ResourceUrl space) :=
  guard.target.subject.chain

/-- The nearest ACL at or above a position of the chain. -/
def nearestAcl (start : Nat) :
    Option (ResourceUrl space × List Triple × Bool) :=
  (guard.chain.drop start).zipIdx.findSome? fun (element, offset) =>
    (guard.acls.lookup element.iri).map fun triples =>
      (element, triples, decide (offset > 0))

/-- `Guard::decide_from` -/
def decideFrom (start : Nat) (required : Mode) : Except Denial Decision :=
  match guard.nearestAcl start with
  | none => .error (deny guard.agent)
  | some (element, triples, inherited) =>
      judge triples guard.agent element.iri inherited required

/-- `Guard::authorize` -/
def authorize (mode : Mode) : Except Denial Decision :=
  let required :=
    match guard.target with
    | .aux url => requiredModeForAux url.kind
    | _ => mode
  guard.decideFrom 0 required

/-- `Guard::authorize_parent` -/
def authorizeParent (mode : Mode) : Except Denial (Option Decision) :=
  if guard.chain.length < 2 then
    .ok none
  else
    (guard.decideFrom 1 mode).map some

/-- `Guard::authorize_aux` -/
def authorizeAux (kind : AuxKind) : Except Denial (Option Decision) :=
  if guard.present.contains (guard.target.subject.aux kind).iri then
    (guard.decideFrom 0 (requiredModeForAux kind)).map some
  else
    .ok none

/-- `Guard::target_exists` -/
def targetExists : Bool :=
  guard.present.contains (graphIri guard.target)

/-- Whether the other half of a URL's trailing-slash pair is present. -/
def counterpartPresent (url : ResourceUrl space) : Bool :=
  url.slashCounterpart.any fun counterpart =>
    guard.present.contains counterpart.iri

/-- `Guard::is_taken` -/
def isTaken : Bool :=
  guard.targetExists ||
    match guard.target with
    | .resource url _ => guard.counterpartPresent url
    | .container url => guard.counterpartPresent url.resource
    | .aux _ => false

/-! ## Materializing -/

/-- What the walk of `materialize` decides: what is created, what is written. -/
structure Walk (space : StorageSpace) where
  creations : List (ResourceUrl space)
  plan : List (ContainerUrl space × Option NamedNode)

/--
The walk over the ancestors; `index` counts them, `child` is what the next
container would record and `record` whether it has to.
-/
def walk :
    List (ContainerUrl space) → Nat → NamedNode → Bool →
      Except Denial (Walk space)
  | [], _, _, _ => .ok ⟨[], []⟩
  | ancestor :: rest, index, child, record =>
      let existed := guard.present.contains (graphIri ancestor)
      if existed && !record then
        .ok ⟨[], []⟩
      else do
        let _ ← guard.decideFrom (index + 1) .append
        let step := (ancestor, if record then some child else none)
        if existed then
          .ok ⟨[], [step]⟩
        else do
          let above ← walk rest (index + 1) ancestor.node true
          .ok ⟨ancestor.resource :: above.creations, step :: above.plan⟩

/-- Whether the target becomes a member of its container. -/
def isMember : Bool :=
  !guard.target.isAux && !guard.targetExists

/-- Everything `materialize` decides before its first write. -/
def authorizeWalk : Except Denial (Walk space) := do
  let subject := guard.target.subject
  let walked ←
    guard.walk subject.ancestors 0 guard.target.node guard.isMember
  let creations :=
    if guard.isMember then subject :: walked.creations else walked.creations
  if guard.target.isAux && !guard.present.contains (graphIri subject) then
    .error .auxSubjectMissing
  else if creations.any guard.counterpartPresent then
    .error .slashPair
  else
    .ok ⟨creations, walked.plan⟩

end Guard

/-- `Materialized` -/
structure Materialized (space : StorageSpace) where
  created : List (ResourceUrl space)
  linked : List (ContainerUrl space × NamedNode)

/-- The writes of `materialize`. -/
def performPlan :
    List (ContainerUrl space × Option NamedNode) →
      StoreProgram Denial (List (ContainerUrl space × NamedNode))
  | [] => pure []
  | (ancestor, child) :: rest => do
      Program.mapError .store (ensureContainer ancestor)
      match child with
      | some child => do
          Program.mapError .store (addContainment ancestor child)
          let linked ← performPlan rest
          pure ((ancestor, child) :: linked)
      | none => performPlan rest

/-- `Guard::materialize` -/
def Guard.materialize (guard : Guard space) :
    StoreProgram Denial (Materialized space) := do
  let walked ← Program.ofExcept guard.authorizeWalk
  let linked ← performPlan walked.plan
  pure ⟨walked.creations, linked⟩

/-! ## Provisioning -/

/-- The Turtle text of the root ACL. -/
def rootAclTurtle (rootIri ownerWebId : Text) : Text :=
  "<#owner> a <".toList ++ aclAuthorizationIri ++ "> ; <".toList ++
    aclAgentIri ++ "> <".toList ++ ownerWebId ++ "> ; <".toList ++
    aclAccessToIri ++ "> <".toList ++ rootIri ++ "> ; <".toList ++
    aclDefaultIri ++ "> <".toList ++ rootIri ++ "> ; <".toList ++
    aclModeIri ++ "> <".toList ++ aclReadIri ++ ">, <".toList ++
    aclWriteIri ++ ">, <".toList ++ aclControlIri ++ "> .".toList

/-- `provision_root_acl` -/
def provisionRootAcl [RdfParser]
    (space : StorageSpace) (ownerWebId : NamedNode) (reset : Bool)
    (fresh : Nat → Uuid) : ResourceProgram Unit := do
  let root := space.root
  let acl := root.resource.acl
  let present ← exists? acl
  if present && !reset then
    pure ()
  else do
    ensureContainer root
    let turtle := rootAclTurtle (graphIri root) ownerWebId.iri
    let dataset ←
      Program.ofExcept
        ((Format.turtle.parse (Text.utf8 turtle) (graphIri acl)
          .rdf11).mapError .rdf)
    match ← (auxPut fresh acl dataset.triplesOf).attempt with
    | .ok () => pure ()
    | .error (.resource error) => .fail error
    | .error _ => .fail .panicked

end Quadpod
