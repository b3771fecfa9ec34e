import Quadpod.AcceptedPuts
import Quadpod.FieldSyntax
import Quadpod.PodInvariants

/-!
# Blobs and their media types

`put_blob` drops what a resource had and marks it as binary, with its media
type, in the same update; nothing else marks a resource so, and no update takes
the media type away alone.  What it stores is therefore what `kind_of` reads
back, and a binary resource without a media type is never found.
-/

namespace GraphStore

/-! ## Updates that take nothing away alone -/

/-- The graphs an operation can take single triples from. -/
def Operation.erases {ν τ : Type} : Operation ν τ → List ν
  | .deleteData name _ => [name]
  | .modifyWhere name _ _ _ => [name]
  | _ => []

namespace Store

variable {ν τ : Type} [DecidableEq ν] [DecidableEq τ]

/-- An operation that erases nothing keeps a graph or empties it. -/
theorem apply_keeps_or_adds
    (store : Store ν τ) {operation : Operation ν τ} {name : ν}
    (unerased : name ∉ operation.erases) :
    (∀ triple ∈ store name, triple ∈ store.apply operation name) ∨
      ∀ triple, triple ∉ store.apply operation name := by
  have replaced (target : ν) :
      (∀ triple ∈ store name,
          triple ∈
            (Function.update store target Graph.empty : Store ν τ) name) ∨
        ∀ triple,
          triple ∉
            (Function.update store target Graph.empty : Store ν τ) name := by
    by_cases same : name = target
    · subst same
      rw [Function.update_self]
      exact Or.inr Graph.not_mem_empty
    · rw [Function.update_of_ne same]
      exact Or.inl fun _ member => member
  cases operation with
  | drop target =>
      exact replaced target
  | insertData blocks =>
      exact Or.inl fun triple member =>
        mem_insertBlocks.mpr (Or.inl member)
  | deleteData target removed =>
      rw [Operation.erases, List.mem_singleton] at unerased
      rw [apply, Function.update_of_ne unerased]
      exact Or.inl fun _ member => member
  | clearWhere target condition =>
      rw [apply]
      split
      · exact replaced target
      · exact Or.inl fun _ member => member
  | insertWhere blocks condition =>
      rw [apply]
      split
      · exact Or.inl fun triple member =>
          mem_insertBlocks.mpr (Or.inl member)
      · exact Or.inl fun _ member => member
  | modifyWhere target removed added condition =>
      rw [Operation.erases, List.mem_singleton] at unerased
      rw [apply]
      split
      · rw [Function.update_of_ne unerased]
        exact Or.inl fun _ member => member
      · exact Or.inl fun _ member => member

/-- An update that erases nothing keeps a graph, or leaves what it adds. -/
theorem applyAll_keeps_or_adds
    (store : Store ν τ) {operations : List (Operation ν τ)} {name : ν}
    (unerased :
      ∀ operation ∈ operations, name ∉ operation.erases) :
    (∀ triple ∈ store name, triple ∈ store.applyAll operations name) ∨
      ∀ triple ∈ store.applyAll operations name,
        ∃ operation ∈ operations, (name, triple) ∈ operation.adds := by
  induction operations generalizing store with
  | nil =>
      exact Or.inl fun _ member => member
  | cons operation rest inductionHypothesis =>
      rw [applyAll_cons]
      have later := fun other member =>
        unerased other (List.mem_cons_of_mem operation member)
      obtain restKept | restAdded :=
        inductionHypothesis (store.apply operation) later
      · obtain kept | emptied :=
          apply_keeps_or_adds store (unerased operation List.mem_cons_self)
        · exact Or.inl fun triple member =>
            restKept triple (kept triple member)
        · refine Or.inr fun triple member => ?_
          obtain old | ⟨other, isOther, adds⟩ := mem_applyAll member
          · exact (emptied triple old).elim
          · exact ⟨other, List.mem_cons_of_mem operation isOther, adds⟩
      · refine Or.inr fun triple member => ?_
        obtain ⟨other, isOther, adds⟩ := restAdded triple member
        exact ⟨other, List.mem_cons_of_mem operation isOther, adds⟩

end Store

end GraphStore

namespace Quadpod

open AtomicProgram GraphStore

variable [IriSyntax] {space : StorageSpace}

/-! ## What no write erases -/

/-- The graphs a call can take single triples from. -/
def Call.erases (call : Call) : List Text :=
  call.operations.flatMap Operation.erases

theorem erases_planCalls
    {plan : List (ContainerUrl space × Option NamedNode)} {call : Call}
    (member : call ∈ planCalls plan) :
    call.erases = [] := by
  obtain ⟨step, _, rfl | ⟨child, _, rfl⟩⟩ := mem_planCalls.mp member
  · rfl
  · rfl

theorem erases_modify
    {graph name : Text} {deletions insertions : List TemplateTriple}
    {guard : Condition Text GroundTriple}
    (erased : name ∈ (Call.modify graph deletions insertions guard).erases) :
    name = graph := by
  unfold Call.erases Call.operations at erased
  dsimp only at erased
  split at erased
  · split at erased
    · simpa [Operation.erases] using erased
    · simp at erased
  · simp at erased

theorem erases_deleteSubject
    {url : ResourceUrl space} {registered : List ShelfKey} {name : Text}
    (erased :
      name ∈ (Call.update (deleteSubjectUpdate url registered)).erases) :
    IsHttp name := by
  obtain ⟨operation, member, erases⟩ := List.mem_flatMap.mp erased
  simp only [Call.operations, deleteSubjectUpdate, List.mem_append,
    List.mem_map, List.mem_cons, List.not_mem_nil, or_false,
    List.mem_flatMap] at member
  rcases member with
      ((⟨key, _, rfl⟩ | rfl | rfl) | ⟨kind, _, rfl | rfl⟩) | removal
  · cases erases
  · cases erases
  · cases erases
  · cases erases
  · cases erases
  · cases isParent : url.parent with
    | none =>
        simp [isParent] at removal
    | some parent =>
        simp only [isParent, List.mem_cons, List.not_mem_nil,
          or_false] at removal
        rw [removal] at erases
        obtain rfl := List.mem_singleton.mp erases
        exact parent.resource.isHttp

variable [Sha256] [ObjectPath]

/-- A storage write takes single triples from graphs of the pod only. -/
theorem StorageWrite.calls_erase
    {world : World} {write : StorageWrite space} {call : Call} {name : Text}
    (member : call ∈ write.calls world) (erased : name ∈ call.erases) :
    IsHttp name := by
  have noGraphs (url : ResourceUrl space)
      (isDelete : call ∈ deleteBlobCalls url) : False := by
    obtain ⟨key, _, rfl⟩ := List.mem_map.mp isDelete
    cases erased
  cases write with
  | dataset url body mediaType =>
      rcases List.mem_cons.mp member with rfl | isDelete
      · simp [Call.erases, Call.operations, putDatasetUpdate,
          Operation.erases, List.flatMap_map] at erased
      · exact (noGraphs url isDelete).elim
  | blob url key bytes mediaType =>
      simp only [calls, List.mem_cons, List.not_mem_nil, or_false] at member
      rcases member with rfl | rfl
      · cases erased
      · simp [Call.erases, Call.operations, putBlobUpdate,
          Operation.erases, List.flatMap_map] at erased
  | container url triples =>
      simp only [calls, List.mem_cons, List.not_mem_nil, or_false] at member
      rcases member with rfl | rfl
      · cases erased
      · cases erased
  | auxiliary url triples =>
      simp only [calls, List.mem_cons, List.not_mem_nil, or_false] at member
      subst member
      cases erased
  | patch target change =>
      simp only [calls, List.mem_append, List.mem_map,
        Option.mem_toList] at member
      rcases member with ⟨given, _, rfl⟩ | isEnsure
      · obtain rfl := erases_modify erased
        exact target.isHttp
      · cases target with
        | container url =>
            obtain rfl := List.mem_singleton.mp isEnsure
            cases erased
        | resource url leaf =>
            cases isEnsure
        | aux url =>
            cases isEnsure
  | deleteAuxiliary url =>
      simp only [calls, List.mem_cons, List.not_mem_nil, or_false] at member
      subst member
      cases erased
  | deleteSubject url =>
      rcases List.mem_cons.mp member with rfl | isDelete
      · exact erases_deleteSubject erased
      · exact (noGraphs url isDelete).elim
  | nothing =>
      cases member

/-! ## What marks a resource as binary -/

/-- The triple that marks a resource as binary. -/
def ResourceUrl.binaryMarker (url : ResourceUrl space) : GroundTriple :=
  ⟨url.node, rdfType, .namedNode sysBinaryResource⟩

/-- The triple that records a media type. -/
def ResourceUrl.typedAs (url : ResourceUrl space) (mediaType : MediaType) :
    GroundTriple :=
  ⟨url.node, sysMediaType, .literal (.simple mediaType.raw)⟩

omit [Sha256] [ObjectPath] in
theorem binaryMarker_ne_presence (url : ResourceUrl space) (node : NamedNode) :
    url.binaryMarker ≠ presenceMarker node := by
  intro same
  have predicates : rdfTypeIri = sysPresentIri :=
    congrArg (·.predicate.iri) same
  exact absurd predicates (by decide)

omit [Sha256] [ObjectPath] in
theorem not_asserts_binaryMarker
    {container : ContainerUrl space} {url : ResourceUrl space} :
    ¬ container.Asserts (sysGraphOf url.iri) url.binaryMarker := by
  rintro (⟨isGraph, _⟩ | ⟨_, isMarker⟩)
  · exact not_isHttp_sysGraphOf _ (isGraph ▸ container.resource.isHttp)
  · exact binaryMarker_ne_presence url _ isMarker

omit [ObjectPath] in
/-- Only `put_blob` marks a resource as binary. -/
theorem StorageWrite.Adds.blob_of_marker
    {write : StorageWrite space} {url : ResourceUrl space}
    (adds : write.Adds (sysGraphOf url.iri) url.binaryMarker) :
    ∃ key bytes mediaType, write = .blob url key bytes mediaType := by
  cases write with
  | dataset other body mediaType =>
      rcases adds with ⟨isGraph, _⟩ | ⟨shelf, inShelves, isGraph, _⟩ |
          ⟨isGraph, inRegistry⟩
      · exact (not_isHttp_sysGraphOf _ (isGraph ▸ other.isHttp)).elim
      · rw [Buckets.key_of_mem inShelves] at isGraph
        exact (shelfIri_ne_sysGraphOf _ _ _ isGraph.symm).elim
      · obtain rfl : url = other :=
          ResourceUrl.iri_injective (sysGraphOf_injective isGraph)
        exact (not_binary_of_registryOf inRegistry).elim
  | blob other key bytes mediaType =>
      obtain rfl : url = other :=
        ResourceUrl.iri_injective (sysGraphOf_injective adds.1)
      exact ⟨key, bytes, mediaType, rfl⟩
  | container other triples =>
      rcases adds with ⟨isGraph, _⟩ | asserts
      · exact (not_isHttp_sysGraphOf _
          (isGraph ▸ other.resource.isHttp)).elim
      · exact (not_asserts_binaryMarker asserts).elim
  | auxiliary other triples =>
      rcases adds with ⟨isGraph, _⟩ | ⟨_, isMarker⟩
      · exact (not_isHttp_sysGraphOf _ (isGraph ▸ other.isHttp)).elim
      · exact (binaryMarker_ne_presence url _ isMarker).elim
  | patch target change =>
      rcases adds with ⟨isGraph, _⟩ | ⟨other, _, asserts⟩
      · exact (not_isHttp_sysGraphOf _ (isGraph ▸ target.isHttp)).elim
      · exact (not_asserts_binaryMarker asserts).elim
  | deleteAuxiliary other =>
      exact adds.elim
  | deleteSubject other =>
      exact adds.elim
  | nothing =>
      exact adds.elim

/-! ## Binary resources have a media type -/

/-- Every resource that is marked as binary has a media type. -/
def World.TypesBinaries (world : World) (space : StorageSpace) : Prop :=
  ∀ url : ResourceUrl space,
    url.binaryMarker ∈ world.graphs (sysGraphOf url.iri) →
    ∃ mediaType, url.typedAs mediaType ∈ world.graphs (sysGraphOf url.iri)

/-- A call that marks resources as binary only together with a media type. -/
structure Call.TypesBinaries (call : Call) (space : StorageSpace) : Prop where
  erases : ∀ name ∈ call.erases, IsHttp name
  marks :
    ∀ url : ResourceUrl space,
      (sysGraphOf url.iri, url.binaryMarker) ∈ call.adds →
      ∃ registered mediaType,
        call = .update (putBlobUpdate url registered mediaType)

omit [Sha256] [ObjectPath] in
theorem World.TypesBinaries.perform
    {world : World} {call : Call} (typed : world.TypesBinaries space)
    (types : call.TypesBinaries space) :
    (backend.perform world call).2.TypesBinaries space := by
  intro url isBinary
  by_cases marked : (sysGraphOf url.iri, url.binaryMarker) ∈ call.adds
  · obtain ⟨registered, mediaType, rfl⟩ := types.marks url marked
    refine ⟨mediaType, ?_⟩
    rw [backend_graphs]
    exact mem_applyAll_putBlob.mpr (Or.inr ⟨rfl, by
      simp [binaryEntries, ResourceUrl.typedAs]⟩)
  · have unerased :
        ∀ operation ∈ call.operations,
          sysGraphOf url.iri ∉ operation.erases := by
      intro operation member erased
      exact not_isHttp_sysGraphOf _ (types.erases _
        (List.mem_flatMap.mpr ⟨operation, member, erased⟩))
    have old : url.binaryMarker ∈ world.graphs (sysGraphOf url.iri) :=
      (mem_perform isBinary).resolve_right marked
    rw [backend_graphs] at isBinary ⊢
    obtain kept | added :=
      Store.applyAll_keeps_or_adds world.graphs unerased
    · obtain ⟨mediaType, isTyped⟩ := typed url old
      exact ⟨mediaType, kept _ isTyped⟩
    · obtain ⟨operation, member, adds⟩ := added _ isBinary
      exact (marked (List.mem_flatMap.mpr ⟨operation, member, adds⟩)).elim

omit [Sha256] [ObjectPath] in
theorem World.TypesBinaries.performs
    {world reached : World} {calls : List Call}
    (typed : world.TypesBinaries space)
    (performs : backend.Performs mayFail world calls reached)
    (types : ∀ call ∈ calls, call.TypesBinaries space) :
    reached.TypesBinaries space :=
  performs.invariant (·.TypesBinaries space) typed
    fun _ call member holds => holds.perform (types call member)

omit [Sha256] [ObjectPath] in
theorem typesBinaries_planCalls
    {plan : List (ContainerUrl space × Option NamedNode)} {call : Call}
    (member : call ∈ planCalls plan) : call.TypesBinaries space := by
  constructor
  · rw [erases_planCalls member]
    intro name impossible
    cases impossible
  · intro url marked
    obtain ⟨step, _, rfl | ⟨child, _, rfl⟩⟩ := mem_planCalls.mp member
    · exact (not_asserts_binaryMarker (adds_ensureCall marked)).elim
    · rcases adds_linkCall marked with ⟨isGraph, _⟩ | ⟨_, isMarker⟩
      · exact (not_isHttp_sysGraphOf _
          (isGraph ▸ step.1.resource.isHttp)).elim
      · exact (binaryMarker_ne_presence url _ isMarker).elim

theorem typesBinaries_calls
    {world : World} {write : StorageWrite space} {call : Call}
    (member : call ∈ write.calls world) : call.TypesBinaries space := by
  constructor
  · exact fun name erased => StorageWrite.calls_erase member erased
  · intro url marked
    obtain ⟨key, bytes, mediaType, rfl⟩ :=
      (StorageWrite.calls_add member marked).blob_of_marker
    simp only [StorageWrite.calls, List.mem_cons, List.not_mem_nil, or_false]
      at member
    rcases member with rfl | rfl
    · cases marked
    · exact ⟨_, _, rfl⟩

/-! ## Media types as they are read back -/

omit [Sha256] [ObjectPath] in
/-- Where a media type is recorded, one is read. -/
theorem isSome_storedMediaType
    {world : World} {url : ResourceUrl space} {mediaType : MediaType}
    (isTyped : url.typedAs mediaType ∈ world.graphs (sysGraphOf url.iri)) :
    (world.storedMediaType url).isSome = true := by
  unfold World.storedMediaType
  rw [List.findSome?_isSome_iff]
  refine ⟨(url.typedAs mediaType).toTriple, ?_, ?_⟩
  · refine List.mem_map_of_mem (List.mem_filter.mpr ⟨isTyped, ?_⟩)
    simp [ResourceUrl.typedAs]
  · change (MediaType.parse mediaType.raw).isSome = true
    rw [MediaType.parse_raw]
    rfl

omit [Sha256] [ObjectPath] in
/-- What is recorded is what is read, if nothing else is recorded. -/
theorem storedMediaType_eq
    {world : World} {url : ResourceUrl space} {mediaType : MediaType}
    (isTyped : url.typedAs mediaType ∈ world.graphs (sysGraphOf url.iri))
    (unique :
      ∀ triple ∈ world.graphs (sysGraphOf url.iri),
        triple.predicate = sysMediaType → triple = url.typedAs mediaType) :
    world.storedMediaType url = some mediaType := by
  obtain ⟨stored, isStored⟩ :=
    Option.isSome_iff_exists.mp (isSome_storedMediaType isTyped)
  have isFound := isStored
  unfold World.storedMediaType at isFound
  obtain ⟨triple, isTriple, isParsed⟩ :=
    List.exists_of_findSome?_eq_some isFound
  obtain ⟨recorded, isRecorded, rfl⟩ := List.mem_map.mp isTriple
  obtain ⟨inGraph, matched⟩ := List.mem_filter.mp isRecorded
  simp only [Option.all_some, Bool.and_eq_true, decide_eq_true_eq] at matched
  rw [unique recorded inGraph matched.2.symm] at isParsed
  change MediaType.parse mediaType.raw = some stored at isParsed
  rw [MediaType.parse_raw] at isParsed
  rw [isStored, isParsed]

omit [Sha256] [ObjectPath] in
/-- No resource is found to be binary without a media type. -/
theorem World.TypesBinaries.kindOf_ne
    {world : World} (typed : world.TypesBinaries space)
    (url : ResourceUrl space) :
    world.kindOf url ≠ .error .binaryWithoutMediaType := by
  intro failed
  unfold World.kindOf at failed
  split at failed
  · split at failed
    · next isBinary =>
        obtain ⟨mediaType, isTyped⟩ := typed url (of_decide_eq_true isBinary)
        obtain ⟨stored, isStored⟩ :=
          Option.isSome_iff_exists.mp (isSome_storedMediaType isTyped)
        rw [isStored] at failed
        cases failed
    · cases failed
  · cases failed

/-! ## Every reachable world -/

section Reachable

variable [QuadText] [RdfParser] [RdfSerializer] [ShapeEngine] [N3Parser]
variable {storeVersion : RdfVersion}

omit [QuadText] [RdfSerializer] [ShapeEngine] [N3Parser] in
theorem Provisioned.typesBinaries
    {world : World} (provisioned : Provisioned space world) :
    world.TypesBinaries space := by
  refine provisioned.invariant (·.TypesBinaries space) ?_ ?_
  · intro url member
    cases member
  · rintro world call (rfl | ⟨fresh, triples, _, member⟩) typed
    · refine typed.perform ?_
      have listed :
          ensureCall space.root ∈ planCalls [(space.root, none)] := by
        simp [planCalls]
      exact typesBinaries_planCalls listed
    · exact typed.perform (typesBinaries_calls member)

omit [QuadText] [RdfSerializer] [ShapeEngine] in
theorem RequestEffect.typesBinaries
    {world reached : World} {request : Request} {target : Target space}
    (effect :
      RequestEffect mayFail storeVersion world request target reached)
    (typed : world.TypesBinaries space) :
    reached.TypesBinaries space := by
  refine effect.invariant (·.TypesBinaries space) typed ?_ ?_
  · intro plan middle performs
    exact typed.performs performs fun call member =>
      typesBinaries_planCalls member
  · intro started write final _ holds performs
    exact holds.performs performs fun call member =>
      typesBinaries_calls member

/-- In every reachable world a binary resource has a media type. -/
theorem Reachable.typesBinaries
    {admitted : World → Request → Faults → Prop} {world : World}
    (reachable :
      Reachable space storeVersion (Provisioned space) admitted world) :
    world.TypesBinaries space := by
  refine reachable.invariant (·.TypesBinaries space)
    (fun _ provisioned => provisioned.typesBinaries) ?_
  intro world request faults typed _
  rcases afterRequest_cases True (Or.inl trivial) with
      same | ⟨target, _, effect⟩
  · rw [same]
    exact typed
  · exact effect.typesBinaries typed

end Reachable

/-! ## The round trip -/

omit [IriSyntax] [Sha256] [ObjectPath] in
/-- A media type has no quote, no backslash and no control character. -/
theorem MediaType.printable (mediaType : MediaType) :
    ∀ c ∈ mediaType.raw,
      c ≠ '"' ∧ c ≠ '\\' ∧ 0x20 ≤ c.toNat ∧ c.toNat < 0x7F := by
  intro c member
  have accepted := mediaType.accepted
  rw [isMediaType, Bool.and_eq_true, List.all_eq_true] at accepted
  have isChar := accepted.1 c member
  refine ⟨?_, ?_, ?_⟩
  · rintro rfl
    exact absurd isChar (by decide)
  · rintro rfl
    exact absurd isChar (by decide)
  · rw [isMediaTypeChar, Bool.or_eq_true] at isChar
    obtain tchar | listed := isChar
    · have visible := visible_of_isTchar tchar
      omega
    · have marks :
          "/;= ".toList.all
            (fun mark => 0x20 ≤ mark.toNat ∧ mark.toNat < 0x7F) = true := by
        decide
      have isMark := List.all_eq_true.mp marks c (by simpa using listed)
      exact of_decide_eq_true isMark

omit [ObjectPath] in
/-- What one resource owns, no other does. -/
theorem ResourceUrl.Owns.unique
    (collisionFree : CollisionFree) {url other : ResourceUrl space}
    {name : Text} (owns : url.Owns name) (otherOwns : other.Owns name) :
    url = other := by
  obtain rfl | rfl | ⟨graphName, rfl⟩ := otherOwns
  · exact Owns.eq_of_iri (Or.inl owns)
  · exact Owns.eq_of_iri (Or.inr owns)
  · obtain same | same | ⟨otherName, same⟩ := owns
    · exact (not_isHttp_shelfIri _ _ (same ▸ url.isHttp)).elim
    · exact (shelfIri_ne_sysGraphOf _ _ _ same).elim
    · exact (shelfIri_injective collisionFree same).1.symm

/-- What holds of a resource after its bytes were written. -/
structure BlobWritten
    (world after : World) (url : ResourceUrl space) (key : BlobKey)
    (bytes : Bytes) (mediaType : MediaType) : Prop where
  kind :
    Program.eval backend (kindOf url) after =
      (.ok (some (.binary mediaType)), after)
  stored : after.blobs key = some bytes
  noGraph : ∀ triple, triple ∉ after.graphs (graphIri url)
  noShelf :
    ∀ shelf ∈ world.registered url, ∀ triple,
      triple ∉ after.graphs shelf.graphIri
  unregistered : ∀ shelf, shelf ∉ after.registered url
  otherGraphs :
    ∀ other : ResourceUrl space, other ≠ url →
      ∀ name, other.Owns name → after.graphs name = world.graphs name
  auxiliaries :
    ∀ (aux : AuxUrl space) (name : Text), aux.Owns name →
      after.graphs name = world.graphs name
  otherBlobs :
    ∀ other : ResourceUrl space, other ≠ url →
      ∀ otherKey, BlobKey.of other = some otherKey →
        after.blobs otherKey = world.blobs otherKey

/-- The world after `put_blob`. -/
def World.withBlob
    (world : World) (url : ResourceUrl space) (key : BlobKey) (bytes : Bytes)
    (mediaType : MediaType) : World :=
  backend.after world ((StorageWrite.blob url key bytes mediaType).calls world)

theorem eval_putBlob
    (world : World) {url : ResourceUrl space} {key : BlobKey}
    (isKey : BlobKey.of url = some key) (bytes : Bytes)
    (mediaType : MediaType) :
    Program.eval backend (putBlob url bytes mediaType) world =
      (.ok (), world.withBlob url key bytes mediaType) := by
  rw [putBlob, isKey]
  dsimp only
  rw [Program.eval_bind_ok (eval_registeredShelves world url),
    StoreProgram.eval_issue_bind rfl]
  rfl

theorem mem_withBlob
    {world : World} {url : ResourceUrl space} {key : BlobKey} {bytes : Bytes}
    {mediaType : MediaType} {name : Text} {triple : GroundTriple} :
    triple ∈ (world.withBlob url key bytes mediaType).graphs name ↔
      (triple ∈ world.graphs name ∧
          name ∉
            (world.registered url).map ShelfKey.graphIri ++
              [url.iri, sysGraphOf url.iri]) ∨
        (name = sysGraphOf url.iri ∧
          triple ∈ binaryEntries url mediaType) := by
  rw [World.withBlob, graphs_after_blob]
  exact mem_applyAll_putBlob

/-- The system graph says what `put_blob` wrote, and no more. -/
theorem mem_sys_withBlob
    {world : World} {url : ResourceUrl space} {key : BlobKey} {bytes : Bytes}
    {mediaType : MediaType} {triple : GroundTriple} :
    triple ∈
        (world.withBlob url key bytes mediaType).graphs
          (sysGraphOf url.iri) ↔
      triple ∈ binaryEntries url mediaType := by
  rw [mem_withBlob]
  simp

omit [Sha256] [ObjectPath] in
/-- Which of the entries is the media type. -/
theorem eq_typedAs_of_entry
    {url : ResourceUrl space} {mediaType : MediaType} {triple : GroundTriple}
    (isEntry : triple ∈ binaryEntries url mediaType)
    (isMediaType : triple.predicate = sysMediaType) :
    triple = url.typedAs mediaType := by
  have texts :
      sysPresentIri ≠ sysMediaTypeIri ∧ rdfTypeIri ≠ sysMediaTypeIri := by
    decide
  simp only [binaryEntries, List.mem_cons, List.not_mem_nil, or_false]
    at isEntry
  rcases isEntry with rfl | rfl | rfl
  · exact (texts.1 (congrArg NamedNode.iri isMediaType)).elim
  · exact (texts.2 (congrArg NamedNode.iri isMediaType)).elim
  · rfl

theorem kindOf_withBlob
    (world : World) (url : ResourceUrl space) (key : BlobKey) (bytes : Bytes)
    (mediaType : MediaType) :
    (world.withBlob url key bytes mediaType).kindOf url =
      .ok (some (.binary mediaType)) := by
  have isPresent :
      (world.withBlob url key bytes mediaType).present url.node = true := by
    rw [World.present_iff]
    exact mem_sys_withBlob.mpr List.mem_cons_self
  have isBinary :
      (world.withBlob url key bytes mediaType).binary url = true :=
    decide_eq_true (mem_sys_withBlob.mpr
      (List.mem_cons_of_mem _ List.mem_cons_self))
  have isTyped :
      (world.withBlob url key bytes mediaType).storedMediaType url =
        some mediaType := by
    refine storedMediaType_eq (mem_sys_withBlob.mpr ?_) ?_
    · simp [binaryEntries, ResourceUrl.typedAs]
    · intro triple member isMediaType
      exact eq_typedAs_of_entry (mem_sys_withBlob.mp member) isMediaType
  rw [World.kindOf, if_pos isPresent, if_pos isBinary, isTyped]

/-- `put_blob` changes no graph but those of its resource. -/
theorem graphs_withBlob_of_not_owned
    {world : World} (owned : world.RegistersOwn space)
    {url : ResourceUrl space} {name : Text} (notOwned : ¬ url.Owns name)
    (key : BlobKey) (bytes : Bytes) (mediaType : MediaType) :
    (world.withBlob url key bytes mediaType).graphs name =
      world.graphs name := by
  have performs :
      backend.Performs False world
        ((StorageWrite.blob url key bytes mediaType).calls world)
        (world.withBlob url key bytes mediaType) :=
    backend.performs_all world _
  refine Performs.graphs_eq performs ?_
  intro call member touched
  exact notOwned (StorageWrite.calls_touch owned member touched)

/-- `put_blob` leaves what it was given, and nothing of what there was. -/
theorem blobWritten_withBlob
    (collisionFree : CollisionFree) {world : World}
    (owned : world.RegistersOwn space) {url : ResourceUrl space}
    {key : BlobKey} (isKey : BlobKey.of url = some key) (bytes : Bytes)
    (mediaType : MediaType) :
    BlobWritten world (world.withBlob url key bytes mediaType) url key bytes
      mediaType where
  kind := by
    rw [eval_kindOf, kindOf_withBlob]
  stored := by
    change Function.update world.blobs key (some bytes) key = some bytes
    exact Function.update_self key _ _
  noGraph := by
    intro triple isThere
    obtain ⟨_, kept⟩ | ⟨isGraph, _⟩ := mem_withBlob.mp isThere
    · exact kept (List.mem_append_right _ List.mem_cons_self)
    · have isSys : url.iri = sysGraphOf url.iri := isGraph
      exact not_isHttp_sysGraphOf _ (isSys ▸ url.isHttp)
  noShelf := by
    intro shelf isRegistered triple isThere
    obtain ⟨_, kept⟩ | ⟨isGraph, _⟩ := mem_withBlob.mp isThere
    · exact kept (List.mem_append_left _ (List.mem_map_of_mem isRegistered))
    · obtain ⟨name, rfl⟩ := owned.of_mem isRegistered
      exact shelfIri_ne_sysGraphOf _ _ _ isGraph
  unregistered := by
    intro shelf isRegistered
    have isEntry := mem_sys_withBlob.mp (World.mem_registered.mp isRegistered)
    obtain ⟨notPresent, notMediaType, _, notType⟩ := sysHasSubgraph_ne
    simp only [binaryEntries, List.mem_cons, List.not_mem_nil, or_false]
      at isEntry
    rcases isEntry with isMarker | isType | isMediaType
    · exact notPresent (congrArg GroundTriple.predicate isMarker).symm
    · exact notType (congrArg GroundTriple.predicate isType).symm
    · exact notMediaType (congrArg GroundTriple.predicate isMediaType).symm
  otherGraphs := by
    intro other notUrl name otherOwns
    refine graphs_withBlob_of_not_owned owned (fun owns => ?_) key bytes
      mediaType
    exact notUrl (owns.unique collisionFree otherOwns).symm
  auxiliaries := by
    intro aux name auxOwns
    refine graphs_withBlob_of_not_owned owned (fun owns => ?_) key bytes
      mediaType
    obtain rfl | rfl := auxOwns
    · exact (url.not_owns_aux aux).1 owns
    · exact (url.not_owns_aux aux).2 owns
  otherBlobs := by
    intro other notUrl otherKey isOther
    have notKey : otherKey ≠ key := by
      rintro rfl
      exact notUrl (BlobKey.of_injective isOther isKey)
    change Function.update world.blobs key (some bytes) otherKey = _
    exact Function.update_of_ne notKey _ _

/--
A blob that `put_blob` stored is read back as it was given: its media type as
it was accepted, its bytes, and nothing of what the resource had before, while
every other resource keeps what it had.  A media type is accepted again
unchanged and is printable, and no resource is binary without one.
-/
theorem blob_round_trip
    [QuadText] [RdfParser] [RdfSerializer] [ShapeEngine] [N3Parser]
    (collisionFree : CollisionFree) {storeVersion : RdfVersion}
    {world : World}
    (reachable :
      Reachable space storeVersion (Provisioned space) anyRequest world)
    {url : ResourceUrl space} {key : BlobKey}
    (isKey : BlobKey.of url = some key)
    {text : Text} {mediaType : MediaType}
    (parsed : MediaType.parse text = some mediaType) (bytes : Bytes) :
    (∃ after,
      Program.eval backend (putBlob url bytes mediaType) world =
          (.ok (), after) ∧
        BlobWritten world after url key bytes mediaType) ∧
      mediaType.raw = Text.trim text ∧
      MediaType.parse mediaType.raw = some mediaType ∧
      (∀ c ∈ mediaType.raw,
        c ≠ '"' ∧ c ≠ '\\' ∧ 0x20 ≤ c.toNat ∧ c.toNat < 0x7F) ∧
      ∀ other : ResourceUrl space,
        (Program.eval backend (kindOf other) world).1 ≠
          .error .binaryWithoutMediaType := by
  have owned :=
    reachable.registersOwn fun _ provisioned => provisioned.registersOwn
  refine ⟨⟨_, eval_putBlob world isKey bytes mediaType,
    blobWritten_withBlob collisionFree owned isKey bytes mediaType⟩, ?_,
    mediaType.parse_raw, mediaType.printable, ?_⟩
  · unfold MediaType.parse at parsed
    split at parsed
    · cases parsed
      rfl
    · cases parsed
  · intro other
    rw [eval_kindOf]
    exact reachable.typesBinaries.kindOf_ne other

end Quadpod

namespace Quadpod.Reference

open AtomicProgram

/-- A note that was RDF becomes plain text. -/
theorem notedBlob_round_trip :
    MediaType.parse " text/plain ".toList = some plainText ∧
      ∃ after,
        Program.eval backend (putBlob note [1, 2, 3] plainText) notedWorld =
            (.ok (), after) ∧
          Program.eval backend (kindOf note) after =
            (.ok (some (.binary plainText)), after) ∧
          after.blobs ⟨"note".toList⟩ = some [1, 2, 3] := by
  have isKey : BlobKey.of note = some ⟨"note".toList⟩ := by
    decide
  have parsed : MediaType.parse " text/plain ".toList = some plainText := by
    decide
  obtain ⟨⟨after, written, trip⟩, _⟩ :=
    blob_round_trip collisionFree reachable_notedWorld isKey parsed [1, 2, 3]
  exact ⟨parsed, after, written, trip.kind, trip.stored⟩

end Quadpod.Reference
