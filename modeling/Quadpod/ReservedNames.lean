import Quadpod.DatasetStore
import Quadpod.GuardWalk
import Quadpod.ReservedPatches
import Quadpod.ReferencePod

namespace Quadpod

open AtomicProgram
open GraphStore

/-!
# No reserved IRI is served

An IRI minted for a blank node reaches the stores through every write path and
is turned back into a blank node where it is read.  As long as none of them ends
up in a place reading does not look at, no view of a resource, a container or an
auxiliary names a reserved IRI.  Bodies keep to this whenever they name no
reserved IRI themselves; a patch does so when no literal it inserts has a
reserved datatype and no predicate it inserts is bound to a minted IRI.
-/

variable [IriSyntax] [Sha256] {space : StorageSpace} {mayFail : Prop}

/-! ## Worlds -/

/-- Everything outside the system graphs is read back without a reserved IRI. -/
structure World.Masked (world : World) (space : StorageSpace) : Prop where
  graphs :
    ∀ name triple,
      (∀ iri, name ≠ sysGraphOf iri) →
      triple ∈ world.graphs name →
      triple.Masked
  names :
    ∀ (url : ResourceUrl space) (key node : NamedNode),
      (⟨key, sysGraphName, .namedNode node⟩ : GroundTriple) ∈
        world.graphs (sysGraphOf url.iri) →
      node.Masked

/-- A call that adds nothing a client must not see. -/
structure Call.AddsMasked (call : Call) (space : StorageSpace) : Prop where
  graphs :
    ∀ name triple,
      (∀ iri, name ≠ sysGraphOf iri) →
      (name, triple) ∈ call.adds →
      triple.Masked
  names :
    ∀ (url : ResourceUrl space) (key node : NamedNode),
      (sysGraphOf url.iri, ⟨key, sysGraphName, .namedNode node⟩) ∈
        call.adds →
      node.Masked

omit [Sha256] in
theorem World.Masked.performs
    {world reached : World} {calls : List Call}
    (masked : world.Masked space)
    (performs : backend.Performs mayFail world calls reached)
    (adds : ∀ call ∈ calls, call.AddsMasked space) :
    reached.Masked space := by
  constructor
  · intro name triple notSystem isThere
    rcases Performs.mem_graphs performs isThere with
        old | ⟨call, isCall, isAdded⟩
    · exact masked.graphs name triple notSystem old
    · exact (adds call isCall).graphs name triple notSystem isAdded
  · intro url key node isThere
    rcases Performs.mem_graphs performs isThere with
        old | ⟨call, isCall, isAdded⟩
    · exact masked.names url key node old
    · exact (adds call isCall).names url key node isAdded

/-! ## Names of the pod -/

omit [Sha256] in
/-- The URLs of the pod are not reserved. -/
theorem isReserved_of_isHttp
    {node : NamedNode} (isHttp : IsHttp node.iri) :
    node.isReserved = false := by
  obtain ⟨rest, isIri⟩ := isHttp
  unfold NamedNode.isReserved isReservedIri
  rw [← isIri]
  rfl

omit [Sha256] in
theorem containerTypes_masked
    (container : ContainerUrl space) :
    ∀ triple ∈ (containerTypes container).map GroundQuad.toTriple,
      triple.Masked := by
  have unreserved :
      rdfType.isReserved = false ∧ ldpContainer.isReserved = false ∧
        ldpBasicContainer.isReserved = false :=
    ⟨rfl, rfl, rfl⟩
  have subject : container.node.Masked :=
    Or.inl (isReserved_of_isHttp container.resource.isHttp)
  intro triple member
  simp only [containerTypes, List.map_cons, List.map_nil, List.mem_cons,
    List.not_mem_nil, or_false] at member
  rcases member with rfl | rfl
  · exact ⟨subject, unreserved.1, Or.inl unreserved.2.1⟩
  · exact ⟨subject, unreserved.1, Or.inl unreserved.2.2⟩

/-! ## What the writes add -/

omit [Sha256] in
/-- The triples that assert a container can be seen. -/
theorem ContainerUrl.Asserts.masked
    {container : ContainerUrl space} {name : Text} {triple : GroundTriple}
    (asserts : container.Asserts name triple)
    (notSystem : ∀ iri, name ≠ sysGraphOf iri) :
    triple.Masked := by
  rcases asserts with ⟨_, isType⟩ | ⟨isSystem, _⟩
  · exact containerTypes_masked container triple isType
  · exact (notSystem _ isSystem).elim

omit [Sha256] in
/-- The triples that assert a container name no graph. -/
theorem ContainerUrl.Asserts.predicate_ne_graphName
    {container : ContainerUrl space} {iri : Text} {triple : GroundTriple}
    (asserts : container.Asserts (sysGraphOf iri) triple) :
    triple.predicate ≠ sysGraphName := by
  rcases asserts with ⟨isGraph, _⟩ | ⟨_, rfl⟩
  · exact (not_isHttp_sysGraphOf iri
      (isGraph ▸ container.resource.isHttp)).elim
  · exact sysGraphName_ne.1

omit [Sha256] in
/-- The plan of a request adds containers and links to the pod's URLs. -/
theorem addsMasked_planCalls
    {plan : List (ContainerUrl space × Option NamedNode)} {call : Call}
    (linked :
      ∀ container child,
        (container, some child) ∈ plan → IsHttp child.iri)
    (member : call ∈ planCalls plan) :
    call.AddsMasked space := by
  obtain ⟨⟨container, link⟩, inPlan, rfl | ⟨child, isLink, rfl⟩⟩ :=
    mem_planCalls.mp member
  · constructor
    · intro name triple notSystem isAdded
      exact (adds_ensureCall isAdded).masked notSystem
    · intro url key node isAdded
      exact ((adds_ensureCall isAdded).predicate_ne_graphName rfl).elim
  · obtain rfl : link = some child := isLink
    constructor
    · intro name triple notSystem isAdded
      rcases adds_linkCall isAdded with ⟨_, rfl⟩ | ⟨isSystem, _⟩
      · exact ⟨Or.inl (isReserved_of_isHttp container.resource.isHttp), rfl,
          Or.inl (isReserved_of_isHttp (linked container child inPlan))⟩
      · exact (notSystem _ isSystem).elim
    · intro url key node isAdded
      rcases adds_linkCall isAdded with ⟨isGraph, _⟩ | ⟨_, isMarker⟩
      · exact (not_isHttp_sysGraphOf url.iri
          (isGraph ▸ container.resource.isHttp)).elim
      · exact (sysGraphName_ne.1
          (congrArg GroundTriple.predicate isMarker).symm).elim

/-- A storage write of terms that can be seen. -/
def StorageWrite.Masked : StorageWrite space → Prop
  | .dataset _ body _ => ∀ quad ∈ body.quads, quad.Masked
  | .container _ triples => ∀ triple ∈ triples, triple.Masked
  | .auxiliary _ triples => ∀ triple ∈ triples, triple.Masked
  | .patch _ change =>
      ∀ given ∈ change,
        ∀ template ∈ given.2,
          ∀ triple, template.ground = some triple → triple.Masked
  | _ => True

/-- The shelves of a dataset that can be seen are named so that they can. -/
theorem Buckets.name_masked
    {url : ResourceUrl space} {body : Skolemized} {shelf : Shelf}
    (masked : ∀ quad ∈ body.quads, quad.Masked)
    (member : shelf ∈ (Buckets.of url body).shelves) :
    shelf.name.Masked := by
  refine Buckets.shelves_all (fun shelf => shelf.name.Masked) ?_ ?_ member
  · intro quad inBody name isName
    have named := (masked quad inBody).graphName
    rw [isName] at named
    exact named
  · intro other triple isMasked
    exact isMasked

/-- A write of what can be seen adds what can be seen. -/
theorem StorageWrite.Masked.adds
    {write : StorageWrite space} {name : Text} {triple : GroundTriple}
    (masked : write.Masked)
    (adds : write.Adds name triple)
    (notSystem : ∀ iri, name ≠ sysGraphOf iri) :
    triple.Masked := by
  cases write with
  | dataset url body mediaType =>
      rcases adds with
          ⟨_, inDefault⟩ | ⟨shelf, inShelves, _, inShelf⟩ | ⟨isSystem, _⟩
      · exact (masked _ (mem_buckets.1.mp inDefault)).triple
      · obtain ⟨label, _, inBody⟩ :=
          (mem_buckets.2 shelf.key).mp ⟨shelf, inShelves, rfl, inShelf⟩
        exact (masked _ inBody).triple
      · exact (notSystem _ isSystem).elim
  | blob url key bytes mediaType =>
      exact (notSystem _ adds.1).elim
  | container url triples =>
      rcases adds with ⟨_, inTriples⟩ | asserts
      · exact masked triple inTriples
      · exact asserts.masked notSystem
  | auxiliary url triples =>
      rcases adds with ⟨_, inTriples⟩ | ⟨isSystem, _⟩
      · exact masked triple inTriples
      · exact (notSystem _ isSystem).elim
  | patch target change =>
      rcases adds with ⟨_, given, isGiven, template, inserted, isGround⟩ |
          ⟨container, _, asserts⟩
      · exact masked given isGiven template inserted triple isGround
      · exact asserts.masked notSystem
  | deleteAuxiliary url =>
      exact adds.elim
  | deleteSubject url =>
      exact adds.elim
  | nothing =>
      exact adds.elim

/-- A write of what can be seen names graphs by what can be seen. -/
theorem StorageWrite.Masked.names
    {write : StorageWrite space} {url : ResourceUrl space}
    {key node : NamedNode}
    (masked : write.Masked)
    (adds :
      write.Adds (sysGraphOf url.iri)
        ⟨key, sysGraphName, .namedNode node⟩) :
    node.Masked := by
  obtain ⟨notPresent, notMediaType, notSubgraph⟩ := sysGraphName_ne
  have notRdfType : rdfType ≠ sysGraphName := by
    have texts : rdfTypeIri ≠ sysGraphNameIri := by decide
    exact fun same => texts (congrArg NamedNode.iri same)
  cases write with
  | dataset other body mediaType =>
      rcases adds with
          ⟨isGraph, _⟩ | ⟨shelf, inShelves, isGraph, _⟩ | ⟨_, inRegistry⟩
      · exact (not_isHttp_sysGraphOf _ (isGraph ▸ other.isHttp)).elim
      · rw [Buckets.key_of_mem inShelves] at isGraph
        exact (shelfIri_ne_sysGraphOf _ _ _ isGraph.symm).elim
      · obtain ⟨shelf, inShelves, _, isName⟩ :=
          mem_registryOf_graphName.mp inRegistry
        cases isName
        exact Buckets.name_masked masked inShelves
  | blob other key bytes mediaType =>
      rcases adds.2 with isMarker | isType | isMediaType
      · exact (notPresent
          (congrArg GroundTriple.predicate isMarker).symm).elim
      · exact (notRdfType (congrArg GroundTriple.predicate isType).symm).elim
      · exact (notMediaType
          (congrArg GroundTriple.predicate isMediaType).symm).elim
  | container other triples =>
      rcases adds with ⟨isGraph, _⟩ | asserts
      · exact (not_isHttp_sysGraphOf _
          (isGraph ▸ other.resource.isHttp)).elim
      · exact (asserts.predicate_ne_graphName rfl).elim
  | auxiliary other triples =>
      rcases adds with ⟨isGraph, _⟩ | ⟨_, isMarker⟩
      · exact (not_isHttp_sysGraphOf _ (isGraph ▸ other.isHttp)).elim
      · exact (notPresent
          (congrArg GroundTriple.predicate isMarker).symm).elim
  | patch target change =>
      rcases adds with ⟨isGraph, _⟩ | ⟨container, _, asserts⟩
      · exact (not_isHttp_sysGraphOf _ (isGraph ▸ target.isHttp)).elim
      · exact (asserts.predicate_ne_graphName rfl).elim
  | deleteAuxiliary other =>
      exact adds.elim
  | deleteSubject other =>
      exact adds.elim
  | nothing =>
      exact adds.elim

theorem StorageWrite.Masked.calls [ObjectPath]
    {write : StorageWrite space} {world : World} {call : Call}
    (masked : write.Masked) (member : call ∈ write.calls world) :
    call.AddsMasked space where
  graphs _ _ notSystem isAdded :=
    masked.adds (StorageWrite.calls_add member isAdded) notSystem
  names _ _ _ isAdded := masked.names (StorageWrite.calls_add member isAdded)

/-! ## Views -/

omit [IriSyntax] [Sha256] in
theorem ne_sysGraphOf_of_isHttp
    {name : Text} (isHttp : IsHttp name) : ∀ iri, name ≠ sysGraphOf iri := by
  rintro iri rfl
  exact not_isHttp_sysGraphOf iri isHttp

omit [Sha256] in
/-- A stored triple may be stored again. -/
theorem GroundTriple.Masked.storable
    {triple : GroundTriple} (masked : triple.Masked) :
    (⟨triple.toTriple.subject, triple.toTriple.predicate,
      triple.toTriple.object, .defaultGraph⟩ : Quad).Storable :=
  ⟨masked.subject, masked.predicate, masked.object.storable, trivial⟩

/-- No view of a resource, a container or an auxiliary names a reserved IRI. -/
structure World.ViewsUnreserved (world : World) (space : StorageSpace) :
    Prop where
  resources :
    ∀ (url : ResourceUrl space) (stored : Skolemized),
      (Program.eval backend (getDataset url) world).1 = .ok (some stored) →
      stored.deskolemize.namesReserved = false
  documents :
    ∀ (target : Target space) (triples : List Triple) (ground : Skolemized),
      (Program.eval backend (getRdf target) world).1 = .ok (some triples) →
      groundDataset triples = some ground →
      ground.deskolemize.namesReserved = false

/-- What is stored masked is viewed without a reserved IRI. -/
theorem World.Masked.viewsUnreserved
    {world : World}
    (masked : world.Masked space) (owned : world.RegistersOwn space) :
    world.ViewsUnreserved space := by
  constructor
  · intro url stored isRead
    obtain ⟨_, rfl⟩ := getDataset_eq_some isRead
    refine Skolemized.deskolemize_masked fun quad member => ?_
    rcases List.mem_append.mp member with inGraph | inShelves
    · obtain ⟨triple, isTriple, rfl⟩ := List.mem_map.mp inGraph
      exact ⟨masked.graphs _ triple
        (ne_sysGraphOf_of_isHttp url.isHttp) isTriple, trivial⟩
    · obtain ⟨key, isRegistered, inShelf⟩ := List.mem_flatMap.mp inShelves
      obtain ⟨name, triple, isName, isThere, rfl⟩ :=
        World.mem_shelfQuads.mp inShelf
      obtain ⟨label, rfl⟩ := owned.of_mem isRegistered
      refine ⟨masked.graphs _ triple ?_ isThere, ?_⟩
      · exact fun iri => shelfIri_ne_sysGraphOf _ _ iri
      · exact masked.names url _ name (World.mem_of_shelfName isName)
  · intro target triples ground isRead isGround
    rw [eval_getRdf] at isRead
    split at isRead
    · cases isRead
      refine Skolemized.deskolemize_masked
        (Skolemized.fromStore_masked ?_ isGround)
      intro quad member
      obtain ⟨triple, isTriple, rfl⟩ := List.mem_map.mp member
      obtain ⟨stored, inGraph, rfl⟩ := List.mem_map.mp isTriple
      exact GroundTriple.Masked.storable (masked.graphs _ stored
        (ne_sysGraphOf_of_isHttp target.isHttp) inGraph)
    · cases isRead

/-! ## Requests -/

section Requests

variable [ObjectPath] [RdfParser] [N3Parser]
variable {storeVersion : RdfVersion} {world reached : World}
variable {request : Request} {target : Target space}

/-- The targets whose representation the body of a request may become. -/
inductive Request.Writes
    (request : Request) (world : World) : Target space → Prop where
  | put {target : Target space}
      (isPut : request.method = .put)
      (classified : classify space request.path = .ok target) :
      request.Writes world target
  | post {parent : ContainerUrl space} {child : Target space}
      (isPost : request.method = .post)
      (classified : classify space request.path = .ok (.container parent))
      (allocated : Allocated world request parent child) :
      request.Writes world child

/-- The body of a `PUT` or `POST` names no reserved IRI, at any depth. -/
def Request.BodyUnreserved
    (space : StorageSpace) (storeVersion : RdfVersion) (request : Request)
    (world : World) : Prop :=
  ∀ (target : Target space) (body : Dataset) (format : Format)
    (declared : RdfVersion),
    request.Writes world target →
    classifyBody request.headers request.body target storeVersion =
      .ok (.rdf body format declared) →
    body.namesReserved = false

/--
A `PATCH` inserts no literal with a reserved datatype, and none of its mappings
on the graph it finds binds the predicate of an insertion to a reserved IRI.
-/
def Request.PatchUnreserved
    (space : StorageSpace) (request : Request) (world : World) : Prop :=
  ∀ (target : Target space) (patch : Patch),
    request.method = .patch →
    classify space request.path = .ok target →
    parsePatch request.body target = .ok patch →
    patch.LiteralsUnreserved ∧
      patch.PredicatesUnreserved (world.graphs (graphIri target)).triples

omit [Sha256] [ObjectPath] [RdfParser] [N3Parser] in
/-- The quads of a body that names nothing reserved may be stored. -/
theorem Dataset.storable
    {body : Dataset} (unreserved : body.namesReserved = false) :
    ∀ quad ∈ body.quads, quad.Storable := by
  intro quad member
  rw [Dataset.namesReserved, List.any_eq_false] at unreserved
  exact Quad.storable (Bool.eq_false_iff.mpr (unreserved quad member))

omit [Sha256] [ObjectPath] [RdfParser] [N3Parser] in
theorem Dataset.storable_defaultGraph
    {body : Dataset} (unreserved : body.namesReserved = false) :
    ∀ quad ∈ asQuads body.defaultGraphOnly.triplesOf, quad.Storable := by
  intro quad member
  obtain ⟨triple, isTriple, rfl⟩ := List.mem_map.mp member
  obtain ⟨original, inDefault, rfl⟩ := List.mem_map.mp isTriple
  obtain ⟨inBody, _⟩ := List.mem_filter.mp inDefault
  have storable := Dataset.storable unreserved original inBody
  exact ⟨storable.subject, storable.predicate, storable.object, trivial⟩

omit [Sha256] [ObjectPath] [RdfParser] [N3Parser] in
/-- The members a container keeps may be stored again. -/
theorem World.Masked.keptMembers_storable
    (masked : world.Masked space) (target : Target space) :
    ∀ quad ∈ asQuads (world.keptMembers target), quad.Storable := by
  intro quad member
  obtain ⟨triple, isKept, rfl⟩ := List.mem_map.mp member
  cases target with
  | container container =>
      obtain ⟨isStored, _⟩ := List.mem_filter.mp isKept
      split at isStored
      · obtain ⟨stored, inGraph, rfl⟩ := List.mem_map.mp isStored
        refine GroundTriple.Masked.storable (masked.graphs _ stored
          (ne_sysGraphOf_of_isHttp container.resource.isHttp) inGraph)
      · cases isStored
  | resource url leaf =>
      cases isKept
  | aux url =>
      cases isKept

omit [Sha256] [RdfParser] [N3Parser] in
/-- The write a body calls for is one of what can be seen. -/
theorem BodyWrite.masked
    {fresh : Nat → Uuid} {kept : List Triple} {repr : Repr}
    {write : StorageWrite space}
    (isWrite : BodyWrite fresh kept repr target write)
    (unreserved :
      ∀ body format declared,
        repr = .rdf body format declared → body.namesReserved = false)
    (keptStorable : ∀ quad ∈ asQuads kept, quad.Storable) :
    write.Masked := by
  cases isWrite with
  | blob url leaf key bytes mediaType keyed =>
      trivial
  | dataset url leaf body format declared checked =>
      exact Skolemized.skolemize_masked fresh
        (Dataset.storable (unreserved body format declared rfl))
  | container url body format declared checked =>
      refine skolemizedTriples_masked fresh ?_
      intro quad member
      obtain ⟨triple, isTriple, rfl⟩ := List.mem_map.mp member
      rcases List.mem_append.mp isTriple with inBody | isKept
      · exact Dataset.storable_defaultGraph
          (unreserved body format declared rfl) _ (List.mem_map_of_mem inBody)
      · exact keptStorable _ (List.mem_map_of_mem isKept)
  | auxiliary url body format declared checked small =>
      exact skolemizedTriples_masked fresh
        (Dataset.storable_defaultGraph (unreserved body format declared rfl))
  | oversized url body format declared large =>
      trivial

omit [Sha256] [ObjectPath] [RdfParser] in
/-- `patch_impl` works with a patch that writes no reserved IRI. -/
theorem parsePatch_unreserved
    {body : Bytes} {patch : Patch}
    (parsed : parsePatch body target = .ok patch) :
    ∀ pattern ∈ patch.insertions, pattern.Unreserved := by
  unfold parsePatch at parsed
  cases isPatch : Patch.parse body (graphIri target) with
  | error error =>
      rw [isPatch] at parsed
      cases parsed
  | ok given =>
      rw [isPatch] at parsed
      cases parsed
      exact Patch.parse_unreserved isPatch

omit [Sha256] [ObjectPath] [RdfParser] [N3Parser] in
/-- The write that creates a target by a patch is one of what can be seen. -/
theorem PatchWrite.masked
    {fresh : Nat → Uuid} {triples : List Triple} {write : StorageWrite space}
    (isWrite : PatchWrite fresh triples target write)
    (storable : ∀ quad ∈ asQuads triples, quad.Storable) :
    write.Masked := by
  cases isWrite with
  | dataset url leaf body grounded =>
      exact Skolemized.fromStore_masked storable grounded
  | container url =>
      exact skolemizedTriples_masked fresh storable

omit [ObjectPath] [RdfParser] [N3Parser] in
/-- A plan followed by one write of what can be seen. -/
theorem Staged.masked [ObjectPath]
    {plan : List (ContainerUrl space × Option NamedNode)}
    {admits : World → StorageWrite space → Prop}
    (staged : Staged mayFail world plan admits reached)
    (masked : world.Masked space)
    (linked :
      ∀ container child,
        (container, some child) ∈ plan → IsHttp child.iri)
    (writes :
      ∀ started write,
        started.Masked space → admits started write → write.Masked) :
    reached.Masked space := by
  have planned :
      ∀ {middle : World},
        backend.Performs mayFail world (planCalls plan) middle →
        middle.Masked space := fun performs =>
    masked.performs performs fun call member =>
      addsMasked_planCalls linked member
  rcases staged with ⟨_, performs⟩ | ⟨write, admitted, performs⟩
  · exact planned performs
  · have started := planned (backend.performs_all world _)
    exact started.performs performs fun call member =>
      (writes _ write started admitted).calls member

omit [Sha256] [ObjectPath] [RdfParser] [N3Parser] in
/-- What a plan links is a URL of the pod. -/
theorem Guard.Walk.linked_isHttp
    {agent : Agent} {on : Target space} {walk : Guard.Walk space}
    (walked : (world.guard agent on).authorizeWalk = .ok walk) :
    ∀ container child,
      (container, some child) ∈ walk.plan → IsHttp child.iri := by
  intro container child isStep
  obtain ⟨member, _, rfl, _⟩ :=
    (World.materializes walked).linked container child isStep
  exact member.isHttp

/-- A request that keeps to the rules leaves a world that can be seen. -/
theorem RequestEffect.masked
    (effect :
      RequestEffect mayFail storeVersion world request target reached)
    (classified : classify space request.path = .ok target)
    (masked : world.Masked space)
    (bodies : request.BodyUnreserved space storeVersion world)
    (patches : request.PatchUnreserved space world) :
    reached.Masked space := by
  cases effect with
  | unchanged =>
      exact masked
  | put isPut authorized walked staged =>
      refine staged.masked masked (Guard.Walk.linked_isHttp walked) ?_
      rintro started write startedMasked ⟨repr, isRepr, isWrite⟩
      refine isWrite.masked ?_ (startedMasked.keptMembers_storable target)
      rintro body format declared rfl
      exact bodies target body format declared (.put isPut classified) isRepr
  | post isPost onContainer authorized allocated walked staged =>
      refine staged.masked masked (Guard.Walk.linked_isHttp walked) ?_
      rintro started write startedMasked ⟨repr, isRepr, isWrite⟩
      refine isWrite.masked ?_ fun quad member => by cases member
      rintro body format declared rfl
      rw [onContainer] at classified
      exact bodies _ body format declared
        (.post isPost classified allocated) isRepr
  | @patch decision patch change _ isPatch authorized parsed granted
      targetPresent contained changes performs =>
      obtain ⟨literals, predicates⟩ :=
        patches target patch isPatch classified parsed
      have unreserved := parsePatch_unreserved parsed
      refine masked.performs performs fun call member => ?_
      refine StorageWrite.Masked.calls ?_ member
      intro given isGiven template inserted triple isGround
      exact (changes given isGiven).masked
        (fun stored isStored =>
          masked.graphs _ stored
            (ne_sysGraphOf_of_isHttp target.isHttp) isStored)
        unreserved literals predicates inserted isGround
  | create isPatch authorized parsed granted absent contained ground walked
      staged =>
      obtain ⟨literals, _⟩ := patches target _ isPatch classified parsed
      have unreserved := parsePatch_unreserved parsed
      refine staged.masked masked (Guard.Walk.linked_isHttp walked) ?_
      intro started write _ isWrite
      exact isWrite.masked
        (groundInsertions_storable unreserved literals ground)
  | @deleteAux decision url _ isDelete onAux authorized performs =>
      have nothing : (StorageWrite.deleteAuxiliary url).Masked := trivial
      exact masked.performs performs fun call member => nothing.calls member
  | deleteSubject isDelete notAux authorized parentAuthorized auxAuthorized
      unused performs =>
      have nothing : (StorageWrite.deleteSubject target.subject).Masked :=
        trivial
      exact masked.performs performs fun call member => nothing.calls member

end Requests

/-! ## Reachable worlds -/

section Reachable

variable [ObjectPath] [QuadText]
variable [RdfParser] [RdfSerializer] [ShapeEngine] [N3Parser]
variable {storeVersion : RdfVersion} {world : World}

/-- A provisioned world whose root ACL names no reserved IRI. -/
def ProvisionedUnreserved (space : StorageSpace) (world : World) : Prop :=
  ∃ ownerWebId,
    ProvisionedFor space ownerWebId world ∧
      ∀ body,
        rootAclParse space ownerWebId = .ok body →
        body.namesReserved = false

omit [QuadText] [RdfSerializer] [ShapeEngine] [N3Parser] in
theorem ProvisionedUnreserved.masked
    (provisioned : ProvisionedUnreserved space world) :
    world.Masked space := by
  obtain ⟨ownerWebId, provisionedFor, unreserved⟩ := provisioned
  obtain ⟨later, rfl, isLater⟩ := provisionedFor.exists_calls
  have empty : World.empty.Masked space := by
    constructor
    · intro name triple _ isThere
      cases isThere
    · intro url key node isThere
      cases isThere
  have performed :
      backend.Performs False World.empty (ensureCall space.root :: later)
        (backend.after World.empty (ensureCall space.root :: later)) :=
    backend.performs_all World.empty _
  have ensured : (ensureCall space.root).AddsMasked space := by
    have listed :
        ensureCall space.root ∈ planCalls [(space.root, none)] := by
      simp [planCalls]
    refine addsMasked_planCalls ?_ listed
    intro container child isStep
    simp at isStep
  refine empty.performs performed fun call member => ?_
  rcases List.mem_cons.mp member with rfl | inLater
  · exact ensured
  · rcases isLater with rfl | ⟨fresh, body, isParsed, _, rfl⟩
    · cases inLater
    · rcases List.mem_cons.mp inLater with rfl | isWrite
      · exact ensured
      · refine StorageWrite.Masked.calls ?_ isWrite
        refine skolemizedTriples_masked fresh ?_
        intro quad isQuad
        obtain ⟨triple, isTriple, rfl⟩ := List.mem_map.mp isQuad
        obtain ⟨original, inBody, rfl⟩ := List.mem_map.mp isTriple
        have storable :=
          Dataset.storable (unreserved body isParsed) original inBody
        exact ⟨storable.subject, storable.predicate, storable.object, trivial⟩

/-- The requests whose bodies and patches keep to the rules. -/
def unreservedRequest (space : StorageSpace) (storeVersion : RdfVersion) :
    World → Request → Faults → Prop :=
  fun world request _ =>
    request.BodyUnreserved space storeVersion world ∧
      request.PatchUnreserved space world

end Reachable

end Quadpod

namespace Quadpod.Reference

open AtomicProgram

theorem provisionedUnreserved_freshWorld :
    ProvisionedUnreserved podSpace freshWorld := by
  refine ⟨owner, provisionedFor_freshWorld, ?_⟩
  intro body isParsed
  have parsed : rootAclParse podSpace owner = .ok ⟨rootAclQuads⟩ := by
    rfl
  rw [parsed] at isParsed
  cases isParsed
  decide +kernel

/-- Whether the body of a request names a reserved IRI. -/
def bodyReserved : Except Response Repr → Bool
  | .ok (.rdf body _ _) => body.namesReserved
  | _ => false

/-- The first request writes `/note`, from a body that names nothing reserved. -/
theorem run_putBlank :
    classify podSpace putBlank.path = .ok (.resource note (by decide)) ∧
      bodyReserved (classifyBody putBlank.headers putBlank.body
        (.resource note (by decide) : Target podSpace) .rdf12) = false := by
  decide

theorem bodyUnreserved_putBlank :
    putBlank.BodyUnreserved podSpace .rdf12 freshWorld := by
  intro target body format declared writes isBody
  cases writes with
  | put isPut classified =>
      obtain ⟨isNote, unreserved⟩ := run_putBlank
      rw [isNote] at classified
      cases classified
      rw [isBody] at unreserved
      exact unreserved
  | post isPost classified allocated =>
      cases isPost

/-- What reading a resource shows a client. -/
def viewOf (url : ResourceUrl podSpace) (world : World) : Option Dataset :=
  match (Program.eval backend (getDataset url) world).1 with
  | .ok (some stored) => some stored.deskolemize
  | _ => none

theorem namesReserved_viewOf
    {world : World} (unreserved : world.ViewsUnreserved podSpace)
    (url : ResourceUrl podSpace) :
    (viewOf url world).any Dataset.namesReserved = false := by
  unfold viewOf
  split
  · next stored isRead =>
      rw [Option.any_some, unreserved.resources url stored isRead]
  · rfl

/-- The patch is accepted, and the note then shows a reserved IRI. -/
theorem run_patchPredicate :
    (Patch.parse patchPredicate.body note.iri).isOk = true ∧
      (viewOf note patchedWorld).any Dataset.namesReserved = true := by
  decide +kernel

end Quadpod.Reference
