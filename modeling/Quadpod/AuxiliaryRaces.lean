import Quadpod.AtomicProgramInterleaving
import Quadpod.ReferencePod
import Quadpod.ResourceRaces

namespace Quadpod

open AtomicProgram
open GraphStore

/-!
# No orphan under any interleaving

The writers of `aux.rs` and `resource.rs`, interleaved call by call.  An
auxiliary document is written under a condition inside the update, that its
subject is marked present, and the update that removes a subject's marker
removes those of its auxiliaries: so no single call makes an orphan, whatever
was read before it.  The drop lists come from an earlier read of the registry;
that they name no system graph is what the calls have to keep about registries.
-/

variable [IriSyntax] [Sha256] {space : StorageSpace}

/-- No auxiliary document exists without its subject. -/
def World.NoOrphan (world : World) (space : StorageSpace) : Prop :=
  ∀ aux : AuxUrl space,
    world.present aux.node = true → world.present aux.subject.node = true

/-- What every call of the writers keeps. -/
structure World.AuxSound (world : World) (space : StorageSpace) : Prop where
  owned : world.RegistersOwn space
  noOrphan : world.NoOrphan space

/-- A call that keeps it in every world. -/
def Call.KeepsAux (call : Call) (space : StorageSpace) : Prop :=
  ∀ world : World,
    world.AuxSound space → (backend.perform world call).2.AuxSound space

/-! ## Calls that keep every marker -/

/-- A call that touches no system graph. -/
theorem Call.KeepsAux.of_http
    {call : Call}
    (http : ∀ name ∈ call.touches, IsHttp name) :
    call.KeepsAux space := by
  intro world sound
  have same :
      ∀ iri,
        (backend.perform world call).2.graphs (sysGraphOf iri) =
          world.graphs (sysGraphOf iri) := fun iri =>
    perform_graphs_of_not_touched fun touched =>
      not_isHttp_sysGraphOf iri (http _ touched)
  refine ⟨?_, ?_⟩
  · intro url triple member isEntry
    rw [same] at member
    exact sound.owned url triple member isEntry
  · intro aux isPresent
    rw [World.present_congr (same _)] at isPresent ⊢
    exact sound.noOrphan aux isPresent

/-- A call that reads. -/
theorem Call.KeepsAux.of_reads
    {call : Call} (reads : call.Reads) :
    call.KeepsAux space := by
  intro world sound
  rw [reads.perform]
  exact sound

/-- A call to the object store. -/
theorem Call.KeepsAux.of_objects
    {call : Call} (noGraphs : call.operations = []) :
    call.KeepsAux space := by
  refine of_http fun name touched => ?_
  rw [Call.touches, noGraphs] at touched
  cases touched

/-- An update that marks one resource and changes no other system graph. -/
theorem Call.KeepsAux.of_marked
    {call : Call} (url : ResourceUrl space)
    (marks :
      ∀ world : World,
        (backend.perform world call).2.present url.node = true)
    (others :
      ∀ iri, iri ≠ url.iri → sysGraphOf iri ∉ call.touches)
    (registers :
      ∀ (world : World) (triple : GroundTriple),
        triple ∈
          (backend.perform world call).2.graphs (sysGraphOf url.iri) →
        triple.predicate = sysHasSubgraph →
        triple ∈ world.graphs (sysGraphOf url.iri) ∨
          ∃ name, triple.object = .namedNode (ShelfKey.of url name).node) :
    call.KeepsAux space := by
  intro world sound
  have same :
      ∀ iri,
        iri ≠ url.iri →
        (backend.perform world call).2.graphs (sysGraphOf iri) =
          world.graphs (sysGraphOf iri) := fun iri different =>
    perform_graphs_of_not_touched (others iri different)
  refine ⟨?_, ?_⟩
  · intro other triple member isEntry
    by_cases isUrl : other.iri = url.iri
    · obtain rfl := ResourceUrl.iri_injective isUrl
      rcases registers world triple member isEntry with old | isShelf
      · exact sound.owned other triple old isEntry
      · exact isShelf
    · rw [same _ isUrl] at member
      exact sound.owned other triple member isEntry
  · intro aux isPresent
    have notAux : aux.iri ≠ url.iri := fun isUrl =>
      url.iri_ne_aux aux isUrl.symm
    rw [World.present_congr (same _ notAux)] at isPresent
    by_cases isUrl : aux.subject.iri = url.iri
    · rw [ResourceUrl.iri_injective isUrl]
      exact marks world
    · rw [World.present_congr (same _ isUrl)]
      exact sound.noOrphan aux isPresent

/-- What a resource owns is no system graph of anything else. -/
theorem ResourceUrl.not_owns_sys
    {url : ResourceUrl space} {iri : Text}
    (different : iri ≠ url.iri) :
    ¬ url.Owns (sysGraphOf iri) := by
  rintro (same | same | ⟨graphName, same⟩)
  · exact not_isHttp_sysGraphOf _ (same ▸ url.isHttp)
  · exact different (sysGraphOf_injective same)
  · exact shelfIri_ne_sysGraphOf _ _ _ same.symm

/-- Keys that were read from a sound registry. -/
def ShelvesOf (url : ResourceUrl space) (registered : List ShelfKey) : Prop :=
  ∀ key ∈ registered, ∃ name, key = ShelfKey.of url name

theorem ShelvesOf.owns
    {url : ResourceUrl space} {registered : List ShelfKey}
    (shelves : ShelvesOf url registered) :
    ∀ key ∈ registered, url.Owns key.graphIri := by
  intro key member
  obtain ⟨name, rfl⟩ := shelves key member
  exact Or.inr (Or.inr ⟨name.iri, rfl⟩)

theorem keepsAux_putDataset
    {url : ResourceUrl space} {registered : List ShelfKey}
    (shelves : ShelvesOf url registered)
    (body : Skolemized) (mediaType : Text) :
    (Call.update
      (putDatasetUpdate url registered (Buckets.of url body)
        mediaType)).KeepsAux space := by
  refine Call.KeepsAux.of_marked url ?_ ?_ ?_
  · intro world
    rw [World.present_iff, backend_graphs]
    refine mem_applyAll_putDataset.mpr ?_
    exact Or.inr (Or.inr (Or.inr ⟨rfl, List.mem_cons_self⟩))
  · intro iri different touched
    exact ResourceUrl.not_owns_sys different
      (touches_putDataset shelves.owns touched)
  · intro world triple member isEntry
    rcases mem_applyAll_putDataset.mp member with ⟨old, _⟩ | added
    · exact Or.inl old
    · have adds :
          (StorageWrite.dataset url body mediaType).Adds
            (sysGraphOf url.iri) triple := added
      exact Or.inr (adds.registers isEntry)

theorem keepsAux_putBlob
    {url : ResourceUrl space} {registered : List ShelfKey}
    (shelves : ShelvesOf url registered)
    (mediaType : MediaType) :
    (Call.update (putBlobUpdate url registered mediaType)).KeepsAux space := by
  refine Call.KeepsAux.of_marked url ?_ ?_ ?_
  · intro world
    rw [World.present_iff, backend_graphs]
    exact mem_applyAll_putBlob.mpr (Or.inr ⟨rfl, List.mem_cons_self⟩)
  · intro iri different touched
    exact ResourceUrl.not_owns_sys different
      (touches_putBlob shelves.owns touched)
  · intro world triple member isEntry
    rcases mem_applyAll_putBlob.mp member with ⟨old, _⟩ | ⟨_, isAdded⟩
    · exact Or.inl old
    · obtain ⟨notPresent, notMediaType, _, notType⟩ := sysHasSubgraph_ne
      simp only [binaryEntries, List.mem_cons, List.not_mem_nil,
        or_false] at isAdded
      rcases isAdded with rfl | rfl | rfl
      · exact (notPresent isEntry).elim
      · exact (notType isEntry).elim
      · exact (notMediaType isEntry).elim

/-- An update of one document that ends by marking a resource present. -/
theorem keepsAux_marking
    (url : ResourceUrl space) (operations : List (Operation Text GroundTriple))
    (http :
      ∀ operation ∈ operations, ∀ name ∈ operation.touches, IsHttp name) :
    (Call.update
      (operations ++
        [.insertData
          [(sysGraphOf url.iri, [presenceMarker url.node])]])).KeepsAux
      space := by
  have isSys :
      ∀ iri operation,
        operation ∈ operations → sysGraphOf iri ∉ operation.touches :=
    fun iri operation member touched =>
      not_isHttp_sysGraphOf iri (http operation member _ touched)
  refine Call.KeepsAux.of_marked url ?_ ?_ ?_
  · intro world
    rw [World.present_iff, backend_graphs, Call.operations,
      Store.applyAll_append]
    exact Store.mem_insertBlocks.mpr
      (Or.inr ⟨_, List.mem_singleton.mpr rfl, List.mem_singleton.mpr rfl⟩)
  · intro iri different touched
    obtain ⟨operation, member, touched⟩ := List.mem_flatMap.mp touched
    rcases List.mem_append.mp member with inOperations | isLast
    · exact isSys iri operation inOperations touched
    · obtain rfl := List.mem_singleton.mp isLast
      exact different
        (sysGraphOf_injective (List.mem_singleton.mp touched))
  · intro world triple member isEntry
    rcases mem_perform member with old | isAdded
    · exact Or.inl old
    · obtain ⟨operation, inUpdate, isAdded⟩ := List.mem_flatMap.mp isAdded
      rcases List.mem_append.mp inUpdate with inOperations | isLast
      · have inCall :
            (sysGraphOf url.iri, triple) ∈ (Call.update [operation]).adds :=
          List.mem_flatMap.mpr
            ⟨operation, List.mem_singleton.mpr rfl, isAdded⟩
        obtain ⟨touching, isTouching, touched⟩ :=
          List.mem_flatMap.mp (touches_of_adds inCall)
        obtain rfl := List.mem_singleton.mp isTouching
        exact (isSys url.iri touching inOperations touched).elim
      · obtain rfl := List.mem_singleton.mp isLast
        simp only [Operation.adds, List.flatMap_cons, List.flatMap_nil,
          List.append_nil, List.map_cons, List.map_nil, List.mem_cons,
          List.not_mem_nil, or_false, Prod.mk.injEq, true_and] at isAdded
        subst isAdded
        exact (sysHasSubgraph_ne.1 isEntry).elim

/-- An update that changes the system graph of one auxiliary only. -/
theorem Call.KeepsAux.of_auxiliary
    {call : Call} (aux : AuxUrl space)
    (others : ∀ iri, iri ≠ aux.iri → sysGraphOf iri ∉ call.touches)
    (guarded :
      ∀ world : World,
        (backend.perform world call).2.present aux.node = true →
        world.present aux.node = true ∨
          world.present aux.subject.node = true) :
    call.KeepsAux space := by
  intro world sound
  have same :
      ∀ iri,
        iri ≠ aux.iri →
        (backend.perform world call).2.graphs (sysGraphOf iri) =
          world.graphs (sysGraphOf iri) := fun iri different =>
    perform_graphs_of_not_touched (others iri different)
  refine ⟨?_, ?_⟩
  · intro url triple member isEntry
    rw [same _ (url.iri_ne_aux aux)] at member
    exact sound.owned url triple member isEntry
  · intro other isPresent
    rw [World.present_congr (same _ (other.subject.iri_ne_aux aux))]
    by_cases isAux : other.iri = aux.iri
    · obtain rfl := AuxUrl.iri_injective isAux
      rcases guarded world isPresent with wasPresent | subjectPresent
      · exact sound.noOrphan other wasPresent
      · exact subjectPresent
    · rw [World.present_congr (same _ isAux)] at isPresent
      exact sound.noOrphan other isPresent

/-- Dropping an auxiliary document. -/
theorem keepsAux_deleteRdf (aux : AuxUrl space) :
    (Call.update [.drop (graphIri aux), .drop (sysGraphIri aux)]).KeepsAux
      space := by
  refine Call.KeepsAux.of_auxiliary aux ?_ ?_
  · intro iri different touched
    rcases List.mem_cons.mp touched with isGraph | isSys
    · have isAux : sysGraphOf iri = aux.iri := isGraph
      exact not_isHttp_sysGraphOf iri (isAux ▸ aux.isHttp)
    · exact different (sysGraphOf_injective (List.mem_singleton.mp isSys))
  · intro world isPresent
    rw [World.present_iff] at isPresent
    rcases mem_perform isPresent with old | isAdded
    · exact Or.inl (World.present_iff.mpr old)
    · cases isAdded

/-- Writing an auxiliary document where its subject is present. -/
theorem keepsAux_writeAux (aux : AuxUrl space) (triples : List GroundTriple) :
    (Call.update
      [.clearWhere (graphIri aux) (subjectPresentGuard aux),
        .insertWhere
          [(graphIri aux, triples),
            (sysGraphIri aux, [presenceMarker aux.node])]
          (subjectPresentGuard aux)]).KeepsAux space := by
  refine Call.KeepsAux.of_auxiliary aux ?_ ?_
  · intro iri different touched
    have isOwn :
        sysGraphOf iri = graphIri aux ∨ sysGraphOf iri = sysGraphIri aux := by
      simpa [Call.touches, Call.operations,
        Operation.touches] using touched
    rcases isOwn with isGraph | isSys
    · have isAux : sysGraphOf iri = aux.iri := isGraph
      exact not_isHttp_sysGraphOf iri (isAux ▸ aux.isHttp)
    · exact different (sysGraphOf_injective isSys)
  · intro world isPresent
    by_cases guarded :
        world.graphs.satisfies (subjectPresentGuard aux) = true
    · rw [Store.satisfies_iff] at guarded
      exact Or.inr (World.present_iff.mpr
        (guarded _ (List.mem_singleton.mpr rfl)))
    · rw [World.present_iff, backend_graphs] at isPresent
      simp only [Call.operations, Store.applyAll_cons,
        Store.applyAll_nil, Store.apply, guarded, if_false,
        Bool.false_eq_true] at isPresent
      exact Or.inl (World.present_iff.mpr isPresent)

theorem keepsAux_auxPut
    (fresh : Nat → Uuid) (aux : AuxUrl space) (triples : List Triple) :
    (Call.update (conditionalPutUpdate fresh aux triples)).KeepsAux space :=
  keepsAux_writeAux aux (skolemizedTriples fresh triples)

/-- Dropping a subject and its auxiliaries. -/
theorem keepsAux_deleteSubject
    {url : ResourceUrl space} {registered : List ShelfKey}
    (shelves : ShelvesOf url registered) :
    (Call.update (deleteSubjectUpdate url registered)).KeepsAux space := by
  intro world sound
  refine ⟨?_, ?_⟩
  · intro other triple member isEntry
    exact sound.owned other triple (mem_applyAll_deleteSubject.mp member).1
      isEntry
  · intro aux isPresent
    rw [World.present_iff, backend_graphs] at isPresent
    obtain ⟨old, kept, _⟩ := mem_applyAll_deleteSubject.mp isPresent
    have notSubject : aux.subject.iri ≠ url.iri := by
      intro isUrl
      apply kept
      rw [aux.eq_aux, ResourceUrl.iri_injective isUrl]
      refine List.mem_append_right _ (List.mem_flatMap.mpr
        ⟨aux.kind, aux.kind.mem_all, ?_⟩)
      exact List.mem_cons_of_mem _ List.mem_cons_self
    have subjectKept :
        sysGraphOf aux.subject.iri ∉
          (Call.update (deleteSubjectUpdate url registered)).touches := by
      intro touched
      rcases touches_deleteSubject shelves.owns touched with
          ofUrl | ⟨kind, ofAux⟩ | ⟨parent, _, isParent⟩
      · exact ResourceUrl.not_owns_sys notSubject ofUrl
      · exact ((url.aux kind).not_owns_resource aux.subject).2 ofAux
      · exact not_isHttp_sysGraphOf _ (isParent ▸ parent.resource.isHttp)
    rw [World.present_congr (perform_graphs_of_not_touched subjectKept)]
    exact sound.noOrphan aux (World.present_iff.mpr old)

/-! ## The writers -/

section Writers

variable [ObjectPath]

/-- A run of one of the writers. -/
inductive PodWrite (space : StorageSpace) where
  | auxPut (fresh : Nat → Uuid) (aux : AuxUrl space) (triples : List Triple)
  | auxPatch (aux : AuxUrl space) (patch : Patch)
  | deleteSubject (url : ResourceUrl space)
  | deleteRdf (aux : AuxUrl space)
  | putDataset (url : ResourceUrl space) (body : Skolemized) (format : Format)
  | putBlob (url : ResourceUrl space) (bytes : Bytes) (mediaType : MediaType)
  | putRdf
      (fresh : Nat → Uuid) (url : ResourceUrl space) (triples : List Triple)
  | putContainerRdf
      (fresh : Nat → Uuid) (url : ContainerUrl space) (triples : List Triple)
  | insertMarked (url : ResourceUrl space) (quads : List GroundQuad)
  | insertContainerMarked (url : ContainerUrl space) (quads : List GroundQuad)

/-- A run whose result nobody looks at. -/
def discarding {ε ε' α : Type} (program : StoreProgram ε α) :
    StoreProgram ε' Unit := do
  let _ ← (program.attempt : StoreProgram ε' (Except ε α))
  pure ()

/-- The program of a run. -/
def PodWrite.program : PodWrite space → StoreProgram AuxError Unit
  | .auxPut fresh aux triples =>
      discarding (Quadpod.auxPut fresh aux triples)
  | .auxPatch aux patch => discarding (Quadpod.auxPatch aux patch)
  | .deleteSubject url => discarding (Quadpod.deleteSubject url)
  | .deleteRdf aux => discarding (Quadpod.deleteRdf aux)
  | .putDataset url body format =>
      discarding (Quadpod.putDataset url body format)
  | .putBlob url bytes mediaType =>
      discarding (Quadpod.putBlob url bytes mediaType)
  | .putRdf fresh url triples => discarding (Quadpod.putRdf fresh url triples)
  | .putContainerRdf fresh url triples =>
      discarding (Quadpod.putRdf fresh url triples)
  | .insertMarked url quads => discarding (Quadpod.insertMarked url quads)
  | .insertContainerMarked url quads =>
      discarding (Quadpod.insertMarked url quads)


/-- What is known of the answer to a read of a registry. -/
def RegistryAnswer (space : StorageSpace) :
    (call : Call) → Except Text call.Reply → Prop
  | .queryTriples graph subject predicate, reply =>
      ∀ (url : ResourceUrl space) (triples : List Triple),
        graph = sysGraphIri url →
        subject = some url.node →
        predicate = some sysHasSubgraph →
        reply = .ok triples →
        ShelvesOf url ((objectNodes triples).map ShelfKey.fromRegistry)
  | _, _ => True

/-- The rule every writer follows. -/
def auxRule (space : StorageSpace) : Rule stores where
  permits call := call.KeepsAux space
  answers := RegistryAnswer space

omit [ObjectPath] in
/-- A registry answers with shelves of its resource. -/
theorem registryAnswer_backend
    {world : World} (sound : world.AuxSound space) (call : Call) :
    RegistryAnswer space call (backend.perform world call).1 := by
  cases call with
  | queryTriples graph subject predicate =>
      rintro url triples rfl rfl rfl isReply key member
      cases isReply
      have isRegistered : key ∈ world.registered url := member
      exact sound.owned.of_mem isRegistered
  | _ =>
      trivial

omit [ObjectPath] in
/-- A program that only reads follows the rule. -/
theorem ReadsOnly.obeysAux
    {ε α : Type} {program : StoreProgram ε α} (reads : ReadsOnly program) :
    program.Obeys (auxRule space) fun _ => True :=
  Program.Uses.obeys reads fun _ isRead => Call.KeepsAux.of_reads isRead

omit [ObjectPath] in
theorem obeysAux_issue
    {ε : Type} {translate : StoreError → ε} {call : Call}
    (keeps : call.KeepsAux space) :
    (StoreProgram.issue translate call).Obeys (auxRule space)
      fun _ => True :=
  StoreProgram.obeys_issue keeps (fun _ _ => trivial) fun _ => trivial

omit [ObjectPath] in
/-- The registry is read before it is dropped. -/
theorem obeysAux_registeredShelves_bind
    {α : Type} {url : ResourceUrl space}
    {next : List ShelfKey → ResourceProgram α}
    (continues :
      ∀ registered,
        ShelvesOf url registered →
        (next registered).Obeys (auxRule space) fun _ => True) :
    (registeredShelves url >>= next).Obeys (auxRule space) fun _ => True := by
  have read :
      (registeredShelves url).Obeys (auxRule space) fun result =>
        ∀ registered, result = .ok registered → ShelvesOf url registered := by
    have asked :
        (StoreProgram.issue ResourceError.store
          (.queryTriples (sysGraphIri url) (some url.node)
            (some sysHasSubgraph))).Obeys (auxRule space) fun result =>
          ∀ triples,
            result = .ok triples →
            ShelvesOf url
              ((objectNodes triples).map ShelfKey.fromRegistry) := by
      refine StoreProgram.obeys_issue ?_ ?_ ?_
      · exact Call.KeepsAux.of_reads ⟨rfl, fun _ => rfl⟩
      · rintro reply answered triples isReply
        cases isReply
        exact answered url reply rfl rfl rfl rfl
      · rintro message triples isReply
        cases isReply
    refine asked.bind ?_ ?_
    · rintro triples shelves registered isRegistered
      cases isRegistered
      exact shelves triples rfl
    · rintro error _ registered isRegistered
      cases isRegistered
  exact read.bind
    (fun registered shelves => continues registered (shelves registered rfl))
    fun _ _ => trivial

theorem obeysAux_deleteBlob (url : ResourceUrl space) :
    (deleteBlob url).Obeys (auxRule space) fun _ => True := by
  unfold deleteBlob
  split
  · exact obeysAux_issue (Call.KeepsAux.of_objects rfl)
  · trivial

omit [ObjectPath] in
/-- A patch of an auxiliary document touches no system graph. -/
theorem obeysAux_patchGuarded
    (aux : AuxUrl space) (patch : Patch)
    (guard : Condition Text GroundTriple) :
    (patchGuarded aux patch guard).Obeys (auxRule space) fun _ => True := by
  have reads :
      ∀ {call : Call},
        call.Reads →
        (StoreProgram.issue ResourceError.store call).Obeys
          (auxRule space) fun _ => True := fun isRead =>
    obeysAux_issue (Call.KeepsAux.of_reads isRead)
  have applies :
      ∀ bindings,
        (applyPatch aux patch guard bindings).Obeys (auxRule space)
          fun _ => True := by
    intro bindings
    refine Program.Obeys.bind
      ((Program.uses_ofExcept _).obeys fun _ allowed => allowed)
      (fun deletions _ => ?_) fun _ _ => trivial
    refine Program.Obeys.bind
      ((Program.uses_ofExcept _).obeys fun _ allowed => allowed)
      (fun insertions _ => ?_) fun _ _ => trivial
    have keeps :
        (Call.modify (graphIri aux) deletions insertions guard).KeepsAux
          space := by
      refine Call.KeepsAux.of_http fun name touched => ?_
      rw [touches_modify touched]
      exact aux.isHttp
    have modified :
        ∀ before : Bool,
          (do
            StoreProgram.issue .store
              (.modify (graphIri aux) deletions insertions guard)
            if !deletions.isEmpty && !before then
              pure .deletionMissing
            else
              pure .applied : ResourceProgram PatchResult).Obeys
            (auxRule space) fun _ => True := by
      intro before
      refine Program.Obeys.bind (obeysAux_issue keeps) (fun _ _ => ?_)
        fun _ _ => trivial
      split
      · trivial
      · trivial
    split
    · trivial
    · dsimp only
      split
      · exact modified false
      · refine Program.Obeys.bind (reads ⟨rfl, fun _ => rfl⟩)
          (fun before _ => modified before) fun _ _ => trivial
  unfold patchGuarded
  split
  · exact applies []
  · refine Program.Obeys.bind (reads ⟨rfl, fun _ => rfl⟩)
      (fun solutions _ => ?_) fun _ _ => trivial
    split
    · trivial
    · exact applies _
    · trivial

omit [ObjectPath] in
/-- Writing an auxiliary document follows the rule. -/
theorem obeysAux_auxPut
    (fresh : Nat → Uuid) (aux : AuxUrl space) (triples : List Triple) :
    (auxPut fresh aux triples).Obeys (auxRule space) fun _ => True := by
  unfold auxPut
  split
  · trivial
  · refine Program.Obeys.bind
      (obeysAux_issue (keepsAux_auxPut fresh aux triples))
      (fun _ _ => ?_) fun _ _ => trivial
    refine Program.Obeys.bind
      (ReadsOnly.obeysAux (readsOnly_exists aux).mapError)
      (fun isPresent _ => ?_) fun _ _ => trivial
    cases isPresent
    · trivial
    · trivial

/-- Every writer follows the rule. -/
theorem PodWrite.obeys (write : PodWrite space) :
    write.program.Obeys (auxRule space) fun _ => True := by
  have discards :
      ∀ {ε α : Type} {program : StoreProgram ε α},
        (program.Obeys (auxRule space) fun _ => True) →
        (discarding program : StoreProgram AuxError Unit).Obeys
          (auxRule space) fun _ => True := by
    intro ε α program obeys
    have attempted :
        (program.attempt : StoreProgram AuxError (Except ε α)).Obeys
          (auxRule space) fun _ => True := Program.Obeys.attempt obeys
    exact attempted.bind (fun _ _ => trivial) fun _ _ => trivial
  have replaces :
      ∀ (graph : Text),
        IsHttp graph →
        ∀ (triples : List GroundTriple) (operation : Operation _ _),
          operation ∈
            [Operation.drop graph, .insertData [(graph, triples)]] →
          ∀ name ∈ operation.touches, IsHttp name := by
    intro graph http triples operation member name touched
    simp only [List.mem_cons, List.not_mem_nil, or_false] at member
    rcases member with rfl | rfl
    · rw [List.mem_singleton.mp touched]
      exact http
    · rw [List.mem_singleton.mp touched]
      exact http
  cases write with
  | auxPut fresh aux triples =>
      exact discards (obeysAux_auxPut fresh aux triples)
  | auxPatch aux patch =>
      refine discards ?_
      have present :
          ∀ {Url : Type} [GraphUrl Url] (url : Url),
            (AuxProgram.ofResource (exists? url)).Obeys (auxRule space)
              fun _ => True := fun url =>
        ReadsOnly.obeysAux (readsOnly_exists url).mapError
      refine Program.Obeys.bind (present aux) (fun isPresent _ => ?_)
        fun _ _ => trivial
      cases isPresent with
      | false =>
          refine Program.Obeys.bind (present aux.subject)
            (fun subjectPresent _ => ?_) fun _ _ => trivial
          cases subjectPresent
          · trivial
          · trivial
      | true =>
          have patched :
              (AuxProgram.ofResource
                (patchGuarded aux patch (subjectPresentGuard aux))).Obeys
                (auxRule space) fun _ => True :=
            (obeysAux_patchGuarded aux patch _).mapError
          refine patched.bind (fun result _ => ?_) fun _ _ => trivial
          refine Program.Obeys.bind (present aux) (fun stillPresent _ => ?_)
            fun _ _ => trivial
          cases stillPresent
          · trivial
          · trivial
  | deleteSubject url =>
      refine discards ?_
      refine Program.Obeys.bind (ReadsOnly.obeysAux (readsOnly_exists url))
        (fun existed _ => ?_) fun _ _ => trivial
      refine obeysAux_registeredShelves_bind fun registered shelves => ?_
      refine Program.Obeys.bind
        (obeysAux_issue (keepsAux_deleteSubject shelves))
        (fun _ _ => ?_) fun _ _ => trivial
      exact Program.Obeys.bind (obeysAux_deleteBlob url)
        (fun _ _ => trivial) fun _ _ => trivial
  | deleteRdf aux =>
      refine discards ?_
      refine Program.Obeys.bind (ReadsOnly.obeysAux (readsOnly_exists aux))
        (fun existed _ => ?_) fun _ _ => trivial
      exact Program.Obeys.bind (obeysAux_issue (keepsAux_deleteRdf aux))
        (fun _ _ => trivial) fun _ _ => trivial
  | putDataset url body format =>
      refine discards ?_
      refine obeysAux_registeredShelves_bind fun registered shelves => ?_
      split
      · exact Program.Obeys.bind
          (obeysAux_issue
            (keepsAux_putDataset shelves body format.mediaType))
          (fun _ _ => obeysAux_deleteBlob url) fun _ _ => trivial
      · trivial
  | putBlob url bytes mediaType =>
      refine discards ?_
      unfold Quadpod.putBlob
      split
      · trivial
      · next key _ =>
          refine obeysAux_registeredShelves_bind fun registered shelves => ?_
          refine Program.Obeys.bind
            (obeysAux_issue (Call.KeepsAux.of_objects rfl))
            (fun _ _ => ?_) fun _ _ => trivial
          exact obeysAux_issue (keepsAux_putBlob shelves mediaType)
  | putRdf fresh url triples =>
      refine discards (obeysAux_issue ?_)
      exact keepsAux_marking url
        [.drop (graphIri url),
          .insertData [(graphIri url, skolemizedTriples fresh triples)]]
        (replaces (graphIri url) url.isHttp _)
  | putContainerRdf fresh url triples =>
      refine discards (obeysAux_issue ?_)
      exact keepsAux_marking url.resource
        [.drop (graphIri url),
          .insertData [(graphIri url, skolemizedTriples fresh triples)]]
        (replaces (graphIri url) url.resource.isHttp _)
  | insertMarked url quads =>
      refine discards (obeysAux_issue ?_)
      exact keepsAux_marking url
        [.insertData [(graphIri url, quads.map GroundQuad.toTriple)]]
        fun operation member =>
          replaces (graphIri url) url.isHttp _ operation
            (List.mem_cons_of_mem _ member)
  | insertContainerMarked url quads =>
      refine discards (obeysAux_issue ?_)
      exact keepsAux_marking url.resource
        [.insertData [(graphIri url, quads.map GroundQuad.toTriple)]]
        fun operation member =>
          replaces (graphIri url) url.resource.isHttp _ operation
            (List.mem_cons_of_mem _ member)

/-! ## The race -/

omit [ObjectPath] in
/-- What writers keep holds wherever a schedule of them is left. -/
theorem World.AuxSound.execute
    {config : Config stores AuxError Unit World}
    (sound : config.world.AuxSound space)
    (obedient : Config.Obedient (fun _ => auxRule space) config.pool)
    (schedule : List (Turn stores)) :
    (Config.execute backend schedule config).world.AuxSound space := by
  let invariant : List (Nat × Call) → World → Prop :=
    fun _ reached => reached.AuxSound space
  have holds : invariant config.history config.world := sound
  refine Config.execute_obeys backend (fun _ => auxRule space)
    ?_ ?_ ?_ schedule config obedient holds
  · intro _ _ before _ sound keeps
    exact keeps before sound
  · intro _ _ _ call sound _
    exact registryAnswer_backend sound call
  · intro _ call fault
    cases call with
    | queryTriples graph subject predicate =>
        rintro url triples _ _ _ isReply
        cases isReply
    | _ =>
        trivial

/--
Whatever writers run at once, whichever of their calls fail and however they are
interleaved, from a state without an orphan no intermediate state has one.
-/
theorem no_orphan_interleaved
    {world : World}
    (owned : world.RegistersOwn space)
    (noOrphan : world.NoOrphan space)
    (writes : List (PodWrite space))
    (schedule : List (Turn stores)) :
    (Config.execute backend schedule
      (Config.start world (writes.map PodWrite.program))).world.NoOrphan
        space := by
  have started :
      (Config.start world
        (writes.map PodWrite.program)).world.AuxSound space :=
    ⟨owned, noOrphan⟩
  refine (started.execute ?_ schedule).noOrphan
  intro thread program isProgram
  obtain ⟨write, _, rfl⟩ : ∃ write,
      writes[thread]? = some write ∧ write.program = program := by
    simpa [Config.start] using isProgram
  exact write.obeys

end Writers

end Quadpod

namespace Quadpod.Reference

open AtomicProgram

/-- An ACL is written while its subject is created and deleted. -/
def aclRace : List (PodWrite podSpace) :=
  [.putBlob note [1, 2, 3] plainText, .auxPut uuid note.acl [],
    .deleteSubject note]

/-- The ACL is written once its subject exists, and both are deleted. -/
def aclSchedule : List (Turn stores) :=
  [⟨0, none⟩, ⟨2, none⟩, ⟨0, none⟩, ⟨0, none⟩, ⟨1, none⟩, ⟨2, none⟩,
    ⟨2, none⟩, ⟨1, none⟩]

/-- In stores that held nothing, the race leaves no orphan at any time. -/
theorem no_orphan_aclRace :
    (Config.execute backend (aclSchedule.take 5)
        (Config.start World.empty
          (aclRace.map PodWrite.program))).world.present note.acl.node =
        true ∧
      (Config.execute backend aclSchedule
        (Config.start World.empty
          (aclRace.map PodWrite.program))).world.NoOrphan podSpace := by
  refine ⟨by decide, no_orphan_interleaved ?_ ?_ aclRace aclSchedule⟩
  · intro url triple isThere
    cases isThere
  · intro aux isPresent
    rw [World.present_iff] at isPresent
    cases isPresent

end Quadpod.Reference
