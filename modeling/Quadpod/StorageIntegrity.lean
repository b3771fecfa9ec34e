import Quadpod.BlobKeys
import Quadpod.ConcealedFailures
import Quadpod.ServerCalls

namespace Quadpod

open AtomicProgram
open GraphStore

/-!
# The integrity of the stores

What the stores hold at every moment, whatever requests are at work on them and
wherever the process dies: no system graph mixes two writes, no auxiliary
outlives its subject, no container lists anything but direct children, and no
graph or object is there that no URL of the space owns.  One call keeps it, so
every interleaving does.
-/

variable [IriSyntax] [Sha256] {space : StorageSpace}

/-! ## System graphs -/

/-- What a system graph holds: the facts of one write, or none. -/
inductive SystemRecord (space : StorageSpace) (iri : Text)
    (graph : Graph GroundTriple) : Prop where
  | absent (nothing : ∀ triple, triple ∉ graph)
  | container
      (url : ContainerUrl space) (isIri : url.resource.iri = iri)
      (marked : ∀ triple ∈ graph, triple = presenceMarker url.node)
  | auxiliary
      (url : AuxUrl space) (isIri : url.iri = iri)
      (marked : ∀ triple ∈ graph, triple = presenceMarker url.node)
  | dataset
      (url : ResourceUrl space) (isIri : url.iri = iri)
      (leaf : Text.endsWith ['/'] url.path = false)
      (body : Skolemized) (format : Format)
      (records :
        ∀ triple,
          triple ∈ graph ↔
            triple ∈
              registryOf url format.mediaType (Buckets.of url body).shelves)
  | binary
      (url : ResourceUrl space) (isIri : url.iri = iri)
      (leaf : Text.endsWith ['/'] url.path = false)
      (mediaType : MediaType)
      (records : ∀ triple, triple ∈ graph ↔ triple ∈ binaryEntries url mediaType)

omit [Sha256] in
/-- A container ends in a slash. -/
theorem ContainerUrl.not_leaf
    {container : ContainerUrl space} {url : ResourceUrl space}
    (leaf : Text.endsWith ['/'] url.path = false) :
    container.resource.iri ≠ url.iri := by
  intro same
  rw [← ResourceUrl.iri_injective same, container.slash] at leaf
  cases leaf

namespace SystemRecord

variable {graph : Graph GroundTriple}

/-- The system graph of a container has at most its marker. -/
theorem of_container
    {url : ContainerUrl space}
    (record : SystemRecord space url.resource.iri graph) :
    ∀ triple ∈ graph, triple = presenceMarker url.node := by
  intro triple member
  cases record with
  | absent nothing =>
      exact (nothing triple member).elim
  | container other isIri marked =>
      rw [marked triple member, ContainerUrl.node, ContainerUrl.node,
        ResourceUrl.iri_injective isIri]
  | auxiliary aux isIri marked =>
      exact (url.resource.iri_ne_aux aux isIri.symm).elim
  | dataset other isIri leaf body format records =>
      exact (ContainerUrl.not_leaf leaf isIri.symm).elim
  | binary other isIri leaf mediaType records =>
      exact (ContainerUrl.not_leaf leaf isIri.symm).elim

/-- The system graph of an auxiliary has at most its marker. -/
theorem of_auxiliary
    {url : AuxUrl space} (record : SystemRecord space url.iri graph) :
    ∀ triple ∈ graph, triple = presenceMarker url.node := by
  intro triple member
  cases record with
  | absent nothing =>
      exact (nothing triple member).elim
  | container other isIri marked =>
      exact (other.resource.iri_ne_aux url isIri).elim
  | auxiliary other isIri marked =>
      rw [marked triple member, AuxUrl.iri_injective isIri]
  | dataset other isIri leaf body format records =>
      exact (other.iri_ne_aux url isIri).elim
  | binary other isIri leaf mediaType records =>
      exact (other.iri_ne_aux url isIri).elim

end SystemRecord

/-- Every system graph is the record of one write. -/
def World.Recorded (world : World) (space : StorageSpace) : Prop :=
  ∀ iri, SystemRecord space iri (world.graphs (sysGraphOf iri))

/-- A registry that is the record of one write lists its own shelves. -/
theorem World.Recorded.registersOwn
    {world : World} (recorded : world.Recorded space) :
    world.RegistersOwn space := by
  intro url triple member isEntry
  obtain ⟨notPresent, notMediaType, notName, notType⟩ := sysHasSubgraph_ne
  cases recorded url.iri with
  | absent nothing =>
      exact (nothing triple member).elim
  | container other isIri marked =>
      rw [marked triple member] at isEntry
      exact (notPresent isEntry).elim
  | auxiliary aux isIri marked =>
      exact (url.iri_ne_aux aux isIri.symm).elim
  | dataset other isIri leaf body format records =>
      obtain rfl := ResourceUrl.iri_injective isIri
      have adds :
          (StorageWrite.dataset other body format.mediaType).Adds
            (sysGraphOf other.iri) triple :=
        Or.inr (Or.inr ⟨rfl, (records triple).mp member⟩)
      exact adds.registers isEntry
  | binary other isIri leaf mediaType records =>
      have isRecord := (records triple).mp member
      simp only [binaryEntries, List.mem_cons, List.not_mem_nil,
        or_false] at isRecord
      rcases isRecord with rfl | rfl | rfl
      · exact (notPresent isEntry).elim
      · exact (notType isEntry).elim
      · exact (notMediaType isEntry).elim

/-! ## Calls and system graphs -/

theorem World.registersOwn_empty : World.empty.RegistersOwn space := by
  intro url triple isThere
  cases isThere

namespace World.Recorded

variable {world : World} {call : Call}

/-- A call that changes only graphs of clients. -/
theorem of_http
    (recorded : world.Recorded space)
    (http : ∀ name ∈ call.touches, IsHttp name) :
    (backend.perform world call).2.Recorded space := by
  intro iri
  rw [perform_graphs_of_not_touched fun touched =>
    not_isHttp_sysGraphOf iri (http _ touched)]
  exact recorded iri

/-- A call that changes the system graph of one IRI. -/
theorem at_one
    (recorded : world.Recorded space) {own : Text}
    (others : ∀ iri, iri ≠ own → sysGraphOf iri ∉ call.touches)
    (record :
      SystemRecord space own
        ((backend.perform world call).2.graphs (sysGraphOf own))) :
    (backend.perform world call).2.Recorded space := by
  intro iri
  by_cases isOwn : iri = own
  · subst isOwn
    exact record
  · rw [perform_graphs_of_not_touched (others iri isOwn)]
    exact recorded iri

/-- A call that marks a container. -/
theorem marks
    (recorded : world.Recorded space) (container : ContainerUrl space)
    (touches : ∀ name ∈ call.touches, container.Owns name)
    (adds :
      ∀ triple,
        (sysGraphOf container.resource.iri, triple) ∈ call.adds →
        triple = presenceMarker container.node) :
    (backend.perform world call).2.Recorded space := by
  refine recorded.at_one
    (fun iri different touched =>
      ResourceUrl.not_owns_sys different (touches _ touched).resource)
    (.container container rfl fun triple member => ?_)
  rcases mem_perform member with old | isAdded
  · exact (recorded container.resource.iri).of_container triple old
  · exact adds triple isAdded

/-- A call that changes an auxiliary and at most marks it. -/
theorem marks_aux
    (recorded : world.Recorded space) {aux : AuxUrl space}
    (touches : ∀ name ∈ call.touches, aux.Owns name)
    (adds :
      ∀ triple,
        (sysGraphOf aux.iri, triple) ∈ call.adds →
        triple = presenceMarker aux.node) :
    (backend.perform world call).2.Recorded space := by
  refine recorded.at_one ?_
    (.auxiliary aux rfl fun triple member => ?_)
  · intro iri different touched
    rcases touches _ touched with isGraph | isSys
    · exact not_isHttp_sysGraphOf iri (isGraph ▸ aux.isHttp)
    · exact different (sysGraphOf_injective isSys)
  · rcases mem_perform member with old | isAdded
    · exact (recorded aux.iri).of_auxiliary triple old
    · exact adds triple isAdded

theorem putDataset
    (recorded : world.Recorded space) {url : ResourceUrl space}
    (leaf : Text.endsWith ['/'] url.path = false)
    {registered : List ShelfKey} (shelves : ShelvesOf url registered)
    (body : Skolemized) (format : Format) :
    (backend.perform world
      (.update
        (putDatasetUpdate url registered (Buckets.of url body)
          format.mediaType))).2.Recorded space := by
  refine recorded.at_one
    (fun iri different touched =>
      ResourceUrl.not_owns_sys different
        (touches_putDataset shelves.owns touched))
    (.dataset url rfl leaf body format fun triple => ?_)
  rw [backend_graphs, Call.operations, mem_applyAll_putDataset]
  constructor
  · rintro (⟨_, kept⟩ | ⟨isGraph, _⟩ | ⟨shelf, inShelves, isGraph, _⟩ |
        ⟨_, isRecord⟩)
    · exact (kept (by simp)).elim
    · refine (not_isHttp_sysGraphOf url.iri ?_).elim
      rw [isGraph]
      exact url.isHttp
    · rw [Buckets.key_of_mem inShelves] at isGraph
      exact (shelfIri_ne_sysGraphOf _ _ _ isGraph.symm).elim
    · exact isRecord
  · intro isRecord
    exact Or.inr (Or.inr (Or.inr ⟨rfl, isRecord⟩))

theorem putBlob
    (recorded : world.Recorded space) {url : ResourceUrl space}
    (leaf : Text.endsWith ['/'] url.path = false)
    {registered : List ShelfKey} (shelves : ShelvesOf url registered)
    (mediaType : MediaType) :
    (backend.perform world
      (.update (putBlobUpdate url registered mediaType))).2.Recorded
        space := by
  refine recorded.at_one
    (fun iri different touched =>
      ResourceUrl.not_owns_sys different
        (touches_putBlob shelves.owns touched))
    (.binary url rfl leaf mediaType fun triple => ?_)
  rw [backend_graphs, Call.operations, mem_applyAll_putBlob]
  constructor
  · rintro (⟨_, kept⟩ | ⟨_, isRecord⟩)
    · exact (kept (by simp)).elim
    · exact isRecord
  · intro isRecord
    exact Or.inr ⟨rfl, isRecord⟩

theorem deleteSubject
    (recorded : world.Recorded space) (url : ResourceUrl space)
    (registered : List ShelfKey) :
    (backend.perform world
      (.update (deleteSubjectUpdate url registered))).2.Recorded space := by
  intro iri
  have stays :
      ∀ triple,
        triple ∈
            (backend.perform world
              (.update (deleteSubjectUpdate url registered))).2.graphs
                (sysGraphOf iri) ↔
          triple ∈ world.graphs (sysGraphOf iri) ∧
            sysGraphOf iri ∉ cascadeDrops url registered := by
    intro triple
    rw [backend_graphs, Call.operations, mem_applyAll_deleteSubject]
    refine and_congr_right fun _ => and_iff_left ?_
    rintro parent _ ⟨isGraph, _⟩
    exact not_isHttp_sysGraphOf iri (isGraph ▸ parent.resource.isHttp)
  by_cases isDropped : sysGraphOf iri ∈ cascadeDrops url registered
  · exact .absent fun triple member => ((stays triple).mp member).2 isDropped
  · have same : ∀ triple,
        triple ∈
            (backend.perform world
              (.update (deleteSubjectUpdate url registered))).2.graphs
                (sysGraphOf iri) ↔
          triple ∈ world.graphs (sysGraphOf iri) :=
      fun triple => (stays triple).trans (and_iff_left isDropped)
    cases recorded iri with
    | absent nothing =>
        exact .absent fun triple member =>
          nothing triple ((same triple).mp member)
    | container container isIri marked =>
        exact .container container isIri fun triple member =>
          marked triple ((same triple).mp member)
    | auxiliary aux isIri marked =>
        exact .auxiliary aux isIri fun triple member =>
          marked triple ((same triple).mp member)
    | dataset other isIri leaf body format records =>
        exact .dataset other isIri leaf body format fun triple =>
          (same triple).trans (records triple)
    | binary other isIri leaf mediaType records =>
        exact .binary other isIri leaf mediaType fun triple =>
          (same triple).trans (records triple)

end World.Recorded

/-! ## What the calls of the server touch -/

section Calls

variable [ObjectPath] {regime : Regime space}

/-- Some resource or auxiliary of the space owns the name. -/
def OwnedName (space : StorageSpace) (name : Text) : Prop :=
  (∃ url : ResourceUrl space, url.Owns name) ∨
    ∃ aux : AuxUrl space, aux.Owns name

theorem touches_putAux
    {aux : AuxUrl space} {triples : List GroundTriple} {name : Text}
    (touched : name ∈ (replaceAuxCall aux triples).touches) :
    aux.Owns name := by
  have inWrite :
      replaceAuxCall aux triples ∈
        (StorageWrite.auxiliary aux triples).calls World.empty :=
    List.mem_singleton.mpr rfl
  exact StorageWrite.calls_touch World.registersOwn_empty inWrite touched

theorem touches_deleteAux
    {aux : AuxUrl space} {name : Text}
    (touched :
      name ∈
        (Call.update
          [.drop (graphIri aux), .drop (sysGraphIri aux)]).touches) :
    aux.Owns name := by
  have inWrite :
      Call.update [.drop (graphIri aux), .drop (sysGraphIri aux)] ∈
        (StorageWrite.deleteAuxiliary aux).calls World.empty :=
    List.mem_singleton.mpr rfl
  exact StorageWrite.calls_touch World.registersOwn_empty inWrite touched

/-- What replaces a container is the first call of a write of one. -/
theorem mem_calls_replaceContainer
    (container : ContainerUrl space) (triples : List GroundTriple) :
    replaceContainerCall container triples ∈
      (StorageWrite.container container triples).calls World.empty :=
  List.mem_cons_self

/-- Nothing of the pod is outside of what its URLs own. -/
theorem ServerCall.owned_of_touches
    {call : Call} {name : Text} (isCall : ServerCall regime call)
    (touched : name ∈ call.touches) :
    OwnedName space name := by
  cases isCall with
  | read reads =>
      rw [Call.touches, reads.1] at touched
      cases touched
  | putObject url leaf key bytes keyed =>
      cases touched
  | deleteObject key =>
      cases touched
  | putDataset url leaf registered shelves body format =>
      exact Or.inl ⟨url, touches_putDataset shelves.owns touched⟩
  | putBlob url leaf registered shelves mediaType =>
      exact Or.inl ⟨url, touches_putBlob shelves.owns touched⟩
  | deleteSubject url registered shelves may takes =>
      rcases touches_deleteSubject shelves.owns touched with
          ofUrl | ⟨kind, ofAux⟩ | ⟨parent, _, isParent⟩
      · exact Or.inl ⟨url, ofUrl⟩
      · exact Or.inr ⟨url.aux kind, ofAux⟩
      · exact Or.inl ⟨parent.resource, Or.inl isParent⟩
  | patchResource url leaf deletions insertions =>
      exact Or.inl ⟨url, Or.inl (touches_modify touched)⟩
  | patchContainer container may deletions insertions unlisted =>
      exact Or.inl ⟨container.resource, Or.inl (touches_modify touched)⟩
  | patchAux aux may deletions insertions =>
      exact Or.inr ⟨aux, Or.inl (touches_modify touched)⟩
  | putAux aux may triples =>
      exact Or.inr ⟨aux, touches_putAux touched⟩
  | deleteAux aux may =>
      exact Or.inr ⟨aux, touches_deleteAux touched⟩
  | replaceContainer container may triples listed =>
      have owns : container.Owns name :=
        StorageWrite.calls_touch World.registersOwn_empty
          (mem_calls_replaceContainer container _) touched
      exact Or.inl ⟨container.resource, owns.resource⟩
  | ensure container =>
      exact Or.inl ⟨container.resource, (touches_ensureCall touched).resource⟩
  | link container child isChild =>
      exact Or.inl ⟨container.resource, (touches_linkCall touched).resource⟩

omit [Sha256] [ObjectPath] in
/-- The types a container asserts are no entries. -/
theorem ContainerUrl.Asserts.not_contains
    {container : ContainerUrl space} {name : Text} {triple : GroundTriple}
    (asserts : container.Asserts name triple) :
    triple.predicate ≠ ldpContains := by
  have texts :
      rdfTypeIri ≠ ldpContainsIri ∧ sysPresentIri ≠ ldpContainsIri := by
    decide
  rcases asserts with ⟨_, isType⟩ | ⟨_, rfl⟩
  · obtain ⟨quad, inTypes, rfl⟩ := List.mem_map.mp isType
    have isRdfType : quad.predicate = rdfType := by
      simp only [containerTypes, List.mem_cons, List.not_mem_nil,
        or_false] at inTypes
      rcases inTypes with rfl | rfl <;> rfl
    intro isContains
    rw [GroundQuad.toTriple, isRdfType] at isContains
    exact texts.1 (congrArg NamedNode.iri isContains)
  · intro isContains
    exact texts.2 (congrArg NamedNode.iri isContains)

omit [ObjectPath] in
/-- No leaf owns the graph of a container. -/
theorem ResourceUrl.not_owns_container
    {url : ResourceUrl space} (leaf : Text.endsWith ['/'] url.path = false)
    (container : ContainerUrl space) :
    ¬ url.Owns container.resource.iri := by
  intro owns
  obtain rfl := ResourceUrl.Owns.eq_of_iri (Or.inl owns)
  exact ContainerUrl.not_leaf leaf rfl

omit [Sha256] [ObjectPath] in
/-- A cascade only takes away. -/
theorem adds_deleteSubject
    (url : ResourceUrl space) (registered : List ShelfKey) :
    (Call.update (deleteSubjectUpdate url registered)).adds = [] := by
  rw [List.eq_nil_iff_forall_not_mem]
  intro entry isAdded
  simp only [deleteSubjectUpdate, Call.adds, Call.operations,
    Operation.adds, List.flatMap_append, List.flatMap_map,
    List.flatMap_assoc, List.mem_append, List.mem_flatMap] at isAdded
  cases isParent : url.parent with
  | none =>
      simp [isParent] at isAdded
  | some parent =>
      simp [isParent, containmentRemoval] at isAdded

/-- What a call adds to a container's listing is a direct child of it. -/
theorem ServerCall.listed
    {call : Call} {container : ContainerUrl space} {triple : GroundTriple}
    (isCall : ServerCall regime call)
    (isAdded : (container.resource.iri, triple) ∈ call.adds)
    (isEntry : triple.predicate = ldpContains) :
    ListsChild container triple := by
  have touched : container.resource.iri ∈ call.touches :=
    touches_of_adds isAdded
  cases isCall with
  | read reads =>
      rw [Call.touches, reads.1] at touched
      cases touched
  | putObject url leaf key bytes keyed =>
      cases touched
  | deleteObject key =>
      cases touched
  | putDataset url leaf registered shelves body format =>
      exact (url.not_owns_container leaf container
        (touches_putDataset shelves.owns touched)).elim
  | putBlob url leaf registered shelves mediaType =>
      exact (url.not_owns_container leaf container
        (touches_putBlob shelves.owns touched)).elim
  | deleteSubject url registered shelves may takes =>
      rw [adds_deleteSubject] at isAdded
      cases isAdded
  | patchResource url leaf deletions insertions =>
      exact (ContainerUrl.not_leaf leaf (touches_modify touched)).elim
  | patchContainer other may deletions insertions unlisted =>
      obtain ⟨_, template, inInsertions, grounded⟩ := adds_modify isAdded
      exact (unlisted template inInsertions triple grounded isEntry).elim
  | patchAux aux may deletions insertions =>
      exact (container.resource.iri_ne_aux aux (touches_modify touched)).elim
  | putAux aux may triples =>
      exact ((aux.not_owns_resource container.resource).1
        (touches_putAux touched)).elim
  | deleteAux aux may =>
      exact ((aux.not_owns_resource container.resource).1
        (touches_deleteAux touched)).elim
  | replaceContainer other may triples listed =>
      have adds :
          (StorageWrite.container other triples).Adds container.resource.iri
            triple :=
        StorageWrite.calls_add (mem_calls_replaceContainer other _) isAdded
      rcases adds with ⟨isGraph, member⟩ | asserts
      · obtain rfl : container = other :=
          ContainerUrl.ext_resource (ResourceUrl.iri_injective isGraph)
        exact listed triple member isEntry
      · exact (asserts.not_contains isEntry).elim
  | ensure other =>
      exact ((adds_ensureCall isAdded).not_contains isEntry).elim
  | link other child isChild =>
      rcases adds_linkCall isAdded with ⟨isGraph, rfl⟩ | ⟨isSys, _⟩
      · obtain rfl : container = other :=
          ContainerUrl.ext_resource (ResourceUrl.iri_injective isGraph)
        exact ⟨child, isChild, rfl⟩
      · refine (not_isHttp_sysGraphOf other.resource.iri ?_).elim
        rw [← isSys]
        exact container.resource.isHttp

/-- Every call of the server leaves each system graph the record of one write. -/
theorem ServerCall.recorded
    {world : World} {call : Call} (isCall : ServerCall regime call)
    (recorded : world.Recorded space) :
    (backend.perform world call).2.Recorded space := by
  cases isCall with
  | read reads =>
      rw [reads.perform]
      exact recorded
  | putObject url leaf key bytes keyed =>
      exact recorded
  | deleteObject key =>
      exact recorded
  | putDataset url leaf registered shelves body format =>
      exact recorded.putDataset leaf shelves body format
  | putBlob url leaf registered shelves mediaType =>
      exact recorded.putBlob leaf shelves mediaType
  | deleteSubject url registered shelves may takes =>
      exact recorded.deleteSubject url registered
  | patchResource url leaf deletions insertions =>
      exact recorded.of_http fun name touched => by
        rw [touches_modify touched]
        exact url.isHttp
  | patchContainer container may deletions insertions unlisted =>
      exact recorded.of_http fun name touched => by
        rw [touches_modify touched]
        exact container.resource.isHttp
  | patchAux aux may deletions insertions =>
      exact recorded.of_http fun name touched => by
        rw [touches_modify touched]
        exact aux.isHttp
  | putAux aux may triples =>
      refine recorded.marks_aux (fun name => touches_putAux)
        fun triple isAdded => ?_
      have inWrite :
          replaceAuxCall aux triples ∈
            (StorageWrite.auxiliary aux triples).calls World.empty :=
        List.mem_singleton.mpr rfl
      have adds := StorageWrite.calls_add inWrite isAdded
      rcases adds with ⟨isGraph, _⟩ | ⟨_, isMarker⟩
      · refine (not_isHttp_sysGraphOf aux.iri ?_).elim
        rw [isGraph]
        exact aux.isHttp
      · exact isMarker
  | deleteAux aux may =>
      refine recorded.marks_aux (fun name => touches_deleteAux)
        fun triple isAdded => ?_
      cases isAdded
  | replaceContainer container may triples listed =>
      refine recorded.marks container (fun name touched => ?_) fun triple isAdded => ?_
      · exact StorageWrite.calls_touch World.registersOwn_empty
          (mem_calls_replaceContainer container _) touched
      · have adds :=
          StorageWrite.calls_add
            (mem_calls_replaceContainer container _) isAdded
        rcases adds with ⟨isGraph, _⟩ | ⟨isGraph, _⟩ | ⟨_, isMarker⟩
        · refine (not_isHttp_sysGraphOf container.resource.iri ?_).elim
          rw [isGraph]
          exact container.resource.isHttp
        · refine (not_isHttp_sysGraphOf container.resource.iri ?_).elim
          rw [isGraph]
          exact container.resource.isHttp
        · exact isMarker
  | ensure container =>
      refine recorded.marks container (fun name => touches_ensureCall)
        fun triple isAdded => ?_
      rcases adds_ensureCall isAdded with ⟨isGraph, _⟩ | ⟨_, isMarker⟩
      · refine (not_isHttp_sysGraphOf container.resource.iri ?_).elim
        rw [isGraph]
        exact container.resource.isHttp
      · exact isMarker
  | link container child isChild =>
      refine recorded.marks container (fun name => touches_linkCall)
        fun triple isAdded => ?_
      rcases adds_linkCall isAdded with ⟨isGraph, _⟩ | ⟨_, isMarker⟩
      · refine (not_isHttp_sysGraphOf container.resource.iri ?_).elim
        rw [isGraph]
        exact container.resource.isHttp
      · exact isMarker

/-- Every call of the server keeps auxiliaries with their subjects. -/
theorem ServerCall.keepsAux
    {call : Call} (isCall : ServerCall regime call) :
    call.KeepsAux space := by
  cases isCall with
  | read reads =>
      exact Call.KeepsAux.of_reads reads
  | putObject url leaf key bytes keyed =>
      exact Call.KeepsAux.of_objects rfl
  | deleteObject key =>
      exact Call.KeepsAux.of_objects rfl
  | putDataset url leaf registered shelves body format =>
      exact keepsAux_putDataset shelves body format.mediaType
  | putBlob url leaf registered shelves mediaType =>
      exact keepsAux_putBlob shelves mediaType
  | deleteSubject url registered shelves may takes =>
      exact keepsAux_deleteSubject shelves
  | patchResource url leaf deletions insertions =>
      refine Call.KeepsAux.of_http fun name touched => ?_
      rw [touches_modify touched]
      exact url.isHttp
  | patchContainer container may deletions insertions unlisted =>
      refine Call.KeepsAux.of_http fun name touched => ?_
      rw [touches_modify touched]
      exact container.resource.isHttp
  | patchAux aux may deletions insertions =>
      refine Call.KeepsAux.of_http fun name touched => ?_
      rw [touches_modify touched]
      exact aux.isHttp
  | putAux aux may triples =>
      exact keepsAux_writeAux aux triples
  | deleteAux aux may =>
      exact keepsAux_deleteRdf aux
  | replaceContainer container may triples listed =>
      exact keepsAux_calls World.registersOwn_empty
        (mem_calls_replaceContainer container _)
  | ensure container =>
      exact keepsAux_ensureCall container
  | link container child isChild =>
      have inPlan :
          linkCall container child.node ∈
            planCalls [(container, some child.node)] := by
        simp [planCalls]
      exact keepsAux_planCalls inPlan

/-! ## The invariant -/

/-- What is true of the stores at every moment. -/
structure World.Intact (world : World) (space : StorageSpace) : Prop where
  recorded : world.Recorded space
  noOrphan : world.NoOrphan space
  listed :
    ∀ (container : ContainerUrl space) (triple : GroundTriple),
      triple ∈ world.graphs (graphIri container) →
      triple.predicate = ldpContains →
      ListsChild container triple
  owned :
    ∀ name triple, triple ∈ world.graphs name → OwnedName space name
  stored :
    ∀ key,
      world.blobs key ≠ none →
      ∃ url : ResourceUrl space,
        Text.endsWith ['/'] url.path = false ∧ BlobKey.of url = some key

theorem World.intact_empty : World.empty.Intact space where
  recorded _ := .absent fun _ isThere => by cases isThere
  noOrphan aux isPresent := by
    rw [World.present_iff] at isPresent
    cases isPresent
  listed container triple isThere := by cases isThere
  owned name triple isThere := by cases isThere
  stored key isStored := (isStored rfl).elim

theorem World.Intact.auxSound
    {world : World} (intact : world.Intact space) :
    world.AuxSound space :=
  ⟨intact.recorded.registersOwn, intact.noOrphan⟩

/-- An object a call puts is that of a leaf. -/
theorem ServerCall.stored
    {world : World} {call : Call} (isCall : ServerCall regime call)
    {key : BlobKey}
    (isStored : (backend.perform world call).2.blobs key ≠ none) :
    world.blobs key ≠ none ∨
      ∃ url : ResourceUrl space,
        Text.endsWith ['/'] url.path = false ∧ BlobKey.of url = some key := by
  cases isCall with
  | read reads =>
      rw [reads.perform] at isStored
      exact Or.inl isStored
  | putObject url leaf put bytes keyed =>
      by_cases isKey : key = put
      · subst isKey
        exact Or.inr ⟨url, leaf, keyed⟩
      · rw [perform_blobs_of_not_key (by simpa [Call.keys] using isKey)]
          at isStored
        exact Or.inl isStored
  | deleteObject deleted =>
      by_cases isKey : key = deleted
      · subst isKey
        refine (isStored ?_).elim
        rw [backend_blobs, Call.objects, Function.update_self]
      · rw [perform_blobs_of_not_key (by simpa [Call.keys] using isKey)]
          at isStored
        exact Or.inl isStored
  | _ =>
      exact Or.inl isStored

/-- One call of the server, on stores in any state, keeps them intact. -/
theorem World.Intact.perform
    {world : World} {call : Call} (intact : world.Intact space)
    (isCall : ServerCall regime call) :
    (backend.perform world call).2.Intact space where
  recorded := isCall.recorded intact.recorded
  noOrphan := (isCall.keepsAux world intact.auxSound).noOrphan
  listed container triple member isEntry := by
    rcases mem_perform member with old | isAdded
    · exact intact.listed container triple old isEntry
    · exact isCall.listed isAdded isEntry
  owned name triple member := by
    rcases mem_perform member with old | isAdded
    · exact intact.owned name triple old
    · exact isCall.owned_of_touches (touches_of_adds isAdded)
  stored key isStored := by
    rcases isCall.stored isStored with old | owner
    · exact intact.stored key old
    · exact owner

/-- What the server relies on about answers is true of intact stores. -/
theorem World.Intact.answers
    {world : World} (intact : world.Intact space) (call : Call) :
    RegistryAnswer space call (backend.perform world call).1 ∧
      ListingAnswer space call (backend.perform world call).1 := by
  refine ⟨registryAnswer_backend intact.auxSound call, ?_⟩
  cases call with
  | queryTriples graph subject predicate =>
      rintro container triples rfl isReply triple member isEntry
      cases isReply
      obtain ⟨stored, isStored, rfl⟩ := List.mem_map.mp member
      exact ⟨stored, rfl, intact.listed container stored
        (List.mem_filter.mp isStored).1 isEntry⟩
  | _ =>
      trivial

omit [ObjectPath] in
/-- A failed call answers nothing. -/
theorem answers_of_failed (call : Call) (fault : Text) :
    RegistryAnswer space call (.error fault) ∧
      ListingAnswer space call (.error fault) := by
  constructor
  · cases call with
    | queryTriples graph subject predicate =>
        rintro url triples _ _ _ isReply
        cases isReply
    | _ =>
        trivial
  · cases call with
    | queryTriples graph subject predicate =>
        rintro container triples _ isReply
        cases isReply
    | _ =>
        trivial

/-- Any agents, who may be granted anything. -/
def anyone (space : StorageSpace) : Regime space where
  agents _ := True
  writes _ := True
  drops _ := True
  rewrites _ := True
  answers call reply :=
    RegistryAnswer space call reply ∧ ListingAnswer space call reply

theorem lawful_anyone : (anyone space).Lawful where
  registry _ _ answered := answered.1
  listing _ _ answered := answered.2
  probed agent target _ :=
    (ReadsOnly.scripted (readsOnly_probe agent target)).mono
      fun _ _ _ _ => ⟨fun _ _ _ _ _ => trivial, fun _ _ _ => trivial⟩

/-- Programs of the server's calls keep the stores intact at every moment. -/
theorem World.Intact.execute
    {ε α : Type} {config : Config stores ε α World}
    (intact : config.world.Intact space)
    (scripted : ∀ program ∈ config.pool, Scripted (anyone space) program)
    (turns : List (Turn stores)) :
    (Config.execute backend turns config).world.Intact space := by
  let invariant : List (Nat × Call) → World → Prop :=
    fun _ reached => reached.Intact space
  have holds : invariant config.history config.world := intact
  refine Config.execute_obeys backend (fun _ => serverRule (anyone space))
    ?_ ?_ ?_ turns config ?_ holds
  · intro _ _ before _ intact isCall
    exact World.Intact.perform intact isCall
  · intro _ _ before call intact _
    exact World.Intact.answers intact call
  · intro _ call fault
    exact answers_of_failed call fault
  · intro thread program isProgram
    exact scripted program (List.mem_of_getElem? isProgram)

end Calls

/-! ## The life of a server -/

section Lives

variable [ObjectPath] [QuadText]
variable [RdfParser] [RdfSerializer] [ShapeEngine] [N3Parser] [Quality]
variable [WireFormats] [Josekit] [JoseSigning]

/--
What a process does between two crashes: it provisions, or it serves requests
that take their turns.  After the last turn listed the process dies, whatever
the requests at work had left to do.
-/
inductive Phase where
  | provisioning
      (ownerWebId : NamedNode) (reset : Bool) (fresh : Nat → Uuid)
      (turns : List (Turn stores))
  | serving (admissions : List Admission) (turns : List (Turn stores))

/-- The stores after a phase. -/
def Phase.after (app : AppState) (world : World) : Phase → World
  | .provisioning ownerWebId reset fresh turns =>
      (Config.execute backend turns
        (Config.start world
          [provision app.space ownerWebId reset fresh])).world
  | .serving admissions turns =>
      (Config.execute backend turns
        (Config.start world
          (admissions.map fun admission =>
            dispatch app admission.agent admission.request
              admission.draws))).world

theorem World.Intact.after
    {app : AppState} {world : World} (intact : world.Intact app.space)
    (phase : Phase) :
    (phase.after app world).Intact app.space := by
  cases phase with
  | provisioning ownerWebId reset fresh turns =>
      refine World.Intact.execute intact ?_ turns
      intro program member
      rw [List.mem_singleton.mp member]
      exact scripted_provision trivial ownerWebId reset fresh
  | serving admissions turns =>
      refine World.Intact.execute intact ?_ turns
      intro program member
      obtain ⟨admission, _, rfl⟩ := List.mem_map.mp member
      exact scripted_dispatch lawful_anyone (fun _ => trivial) trivial _ _

theorem World.Intact.through
    {app : AppState} {world : World} (intact : world.Intact app.space)
    (phases : List Phase) :
    (phases.foldl (Phase.after app) world).Intact app.space := by
  induction phases generalizing world with
  | nil =>
      exact intact
  | cons phase rest inductionHypothesis =>
      exact inductionHypothesis (intact.after phase)

/--
Whatever a server has been through (any requests at work at once in any
interleaving, any failing calls, any crashes and restarts, with any owner), its
stores are intact at every moment.
-/
theorem intact_always (app : AppState) (phases : List Phase) :
    (phases.foldl (Phase.after app) World.empty).Intact app.space :=
  World.intact_empty.through phases

end Lives

end Quadpod
