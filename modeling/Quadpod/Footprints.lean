import Quadpod.RequestWrites

namespace Quadpod

open AtomicProgram
open GraphStore

/-!
# Footprints

Which graphs and objects a call can change, which triples it can add, and from
that the footprint of every storage write: a write stays inside what its target
owns.  The shelves a resource drops are those its registry lists, so this rests
on an invariant of the store, that a registry lists only shelves of its own
resource.
-/

variable [IriSyntax] {space : StorageSpace} {mayFail : Prop}

/-! ## Calls -/

namespace Call

/-- The graphs a call can change. -/
def touches (call : Call) : List Text :=
  call.operations.flatMap Operation.touches

/-- The triples a call can add, each with its graph. -/
def adds (call : Call) : List (Text × GroundTriple) :=
  call.operations.flatMap Operation.adds

/-- The objects a call can change. -/
def keys : Call → List BlobKey
  | .blobPut key _ => [key]
  | .blobDelete key => [key]
  | _ => []

end Call

theorem perform_graphs_of_not_touched
    {world : World} {call : Call} {name : Text}
    (untouched : name ∉ call.touches) :
    (backend.perform world call).2.graphs name = world.graphs name := by
  rw [backend_graphs]
  refine Store.applyAll_of_not_touched fun operation member touched => ?_
  exact untouched (List.mem_flatMap.mpr ⟨operation, member, touched⟩)

theorem mem_perform
    {world : World} {call : Call} {name : Text} {triple : GroundTriple}
    (member : triple ∈ (backend.perform world call).2.graphs name) :
    triple ∈ world.graphs name ∨ (name, triple) ∈ call.adds := by
  rw [backend_graphs] at member
  rcases Store.mem_applyAll member with old | ⟨operation, inCall, isAdded⟩
  · exact Or.inl old
  · exact Or.inr (List.mem_flatMap.mpr ⟨operation, inCall, isAdded⟩)

theorem perform_blobs_of_not_key
    {world : World} {call : Call} {key : BlobKey}
    (untouched : key ∉ call.keys) :
    (backend.perform world call).2.blobs key = world.blobs key := by
  cases call with
  | blobPut other bytes =>
      rw [Call.keys, List.mem_singleton] at untouched
      exact Function.update_of_ne untouched _ _
  | blobDelete other =>
      rw [Call.keys, List.mem_singleton] at untouched
      exact Function.update_of_ne untouched _ _
  | _ =>
      rfl

/-- What a call adds is in a graph it can change. -/
theorem touches_of_adds
    {call : Call} {entry : Text × GroundTriple}
    (isAdded : entry ∈ call.adds) :
    entry.1 ∈ call.touches := by
  obtain ⟨operation, inCall, adds⟩ := List.mem_flatMap.mp isAdded
  refine List.mem_flatMap.mpr ⟨operation, inCall, ?_⟩
  have fromBlocks :
      ∀ blocks : List (Text × List GroundTriple),
        entry ∈ (blocks.flatMap fun block => block.2.map (block.1, ·)) →
        entry.1 ∈ blocks.map Prod.fst := by
    intro blocks inBlocks
    obtain ⟨block, isBlock, inBlock⟩ := List.mem_flatMap.mp inBlocks
    obtain ⟨triple, _, rfl⟩ := List.mem_map.mp inBlock
    exact List.mem_map.mpr ⟨block, isBlock, rfl⟩
  cases operation with
  | insertData blocks =>
      exact fromBlocks blocks adds
  | insertWhere blocks condition =>
      exact fromBlocks blocks adds
  | modifyWhere name removed added condition =>
      obtain ⟨triple, _, rfl⟩ := List.mem_map.mp adds
      exact List.mem_singleton.mpr rfl
  | drop name =>
      cases adds
  | deleteData name removed =>
      cases adds
  | clearWhere name condition =>
      cases adds

/-! ### Lists of calls -/

namespace Performs

variable {world reached : World} {calls : List Call}

theorem graphs_eq
    {name : Text}
    (performs : backend.Performs mayFail world calls reached)
    (untouched : ∀ call ∈ calls, name ∉ call.touches) :
    reached.graphs name = world.graphs name :=
  performs.invariant (·.graphs name = world.graphs name) rfl
    fun _ call member same =>
      (perform_graphs_of_not_touched (untouched call member)).trans same

theorem blobs_eq
    {key : BlobKey}
    (performs : backend.Performs mayFail world calls reached)
    (untouched : ∀ call ∈ calls, key ∉ call.keys) :
    reached.blobs key = world.blobs key :=
  performs.invariant (·.blobs key = world.blobs key) rfl
    fun _ call member same =>
      (perform_blobs_of_not_key (untouched call member)).trans same

theorem mem_graphs
    {name : Text} {triple : GroundTriple}
    (performs : backend.Performs mayFail world calls reached)
    (member : triple ∈ reached.graphs name) :
    triple ∈ world.graphs name ∨
      ∃ call ∈ calls, (name, triple) ∈ call.adds := by
  refine performs.invariant
    (fun middle =>
      triple ∈ middle.graphs name →
      triple ∈ world.graphs name ∨
        ∃ call ∈ calls, (name, triple) ∈ call.adds)
    Or.inl ?_ member
  intro middle call inCalls before isThere
  rcases mem_perform isThere with old | isAdded
  · exact before old
  · exact Or.inr ⟨call, inCalls, isAdded⟩

end Performs

/-! ## Registries -/

theorem mem_objectNodes
    {triples : List Triple} {node : NamedNode} :
    node ∈ objectNodes triples ↔
      ∃ triple ∈ triples, triple.object = .namedNode node := by
  unfold objectNodes
  rw [List.mem_filterMap]
  constructor
  · rintro ⟨triple, member, found⟩
    refine ⟨triple, member, ?_⟩
    split at found
    · next object isNode =>
        cases found
        exact isNode
    · cases found
  · rintro ⟨triple, member, isNode⟩
    exact ⟨triple, member, by rw [isNode]⟩

theorem GroundTerm.toTerm_eq_namedNode
    {term : GroundTerm} {node : NamedNode} :
    term.toTerm = .namedNode node ↔ term = .namedNode node := by
  cases term with
  | namedNode other =>
      simp [toTerm]
  | literal content =>
      simp [toTerm]
  | triple subject predicate object =>
      simp [toTerm]

/-- The shelves listed are the objects of the registry's triples. -/
theorem World.mem_registered
    {world : World} {url : ResourceUrl space} {key : ShelfKey} :
    key ∈ world.registered url ↔
      (⟨url.node, sysHasSubgraph, .namedNode key.node⟩ : GroundTriple) ∈
        world.graphs (sysGraphOf url.iri) := by
  unfold registered
  rw [List.mem_map]
  constructor
  · rintro ⟨node, isObject, rfl⟩
    obtain ⟨triple, member, object⟩ := mem_objectNodes.mp isObject
    obtain ⟨stored, isStored, rfl⟩ := List.mem_map.mp member
    rw [List.mem_filter] at isStored
    obtain ⟨inGraph, matched⟩ := isStored
    simp only [Option.all_some, Bool.and_eq_true,
      decide_eq_true_eq] at matched
    have isNode := GroundTerm.toTerm_eq_namedNode.mp object
    obtain ⟨subject, predicate, term⟩ := stored
    obtain ⟨rfl, rfl⟩ := matched
    cases isNode
    exact inGraph
  · intro member
    refine ⟨key.node, mem_objectNodes.mpr ⟨_, List.mem_map.mpr
      ⟨_, List.mem_filter.mpr ⟨member, ?_⟩, rfl⟩, rfl⟩, rfl⟩
    simp

section Shelves

variable [Sha256]

/-- Every registry lists only shelves of the resource it belongs to. -/
def World.RegistersOwn (world : World) (space : StorageSpace) : Prop :=
  ∀ (url : ResourceUrl space) (triple : GroundTriple),
    triple ∈ world.graphs (sysGraphOf url.iri) →
    triple.predicate = sysHasSubgraph →
    ∃ name, triple.object = .namedNode (ShelfKey.of url name).node

theorem World.RegistersOwn.of_mem
    {world : World} {url : ResourceUrl space} {key : ShelfKey}
    (owned : world.RegistersOwn space)
    (member : key ∈ world.registered url) :
    ∃ name, key = ShelfKey.of url name := by
  obtain ⟨name, object⟩ :=
    owned url _ (World.mem_registered.mp member) rfl
  cases key
  cases object
  exact ⟨name, rfl⟩

/-- What a call puts into a registry is a shelf of the registry's resource. -/
def Call.Registers (call : Call) (space : StorageSpace) : Prop :=
  ∀ (url : ResourceUrl space) (triple : GroundTriple),
    (sysGraphOf url.iri, triple) ∈ call.adds →
    triple.predicate = sysHasSubgraph →
    ∃ name, triple.object = .namedNode (ShelfKey.of url name).node

theorem World.RegistersOwn.perform
    {world : World} {call : Call}
    (owned : world.RegistersOwn space)
    (registers : call.Registers space) :
    (backend.perform world call).2.RegistersOwn space := by
  intro url triple member isEntry
  rcases mem_perform member with old | isAdded
  · exact owned url triple old isEntry
  · exact registers url triple isAdded isEntry

theorem World.RegistersOwn.performs
    {world reached : World} {calls : List Call}
    (owned : world.RegistersOwn space)
    (performs : backend.Performs mayFail world calls reached)
    (registers : ∀ call ∈ calls, call.Registers space) :
    reached.RegistersOwn space :=
  performs.invariant (·.RegistersOwn space) owned
    fun _ call member holds => holds.perform (registers call member)

/-! ## Splitting a dataset -/

/-- What a new shelf has and a pushed triple keeps, every shelf has. -/
theorem Buckets.shelves_all
    {url : ResourceUrl space} {body : Skolemized} {shelf : Shelf}
    (property : Shelf → Prop)
    (created :
      ∀ quad ∈ body.quads,
        ∀ name,
          quad.graphName = .namedNode name →
          property ⟨ShelfKey.of url name, name, [quad.toTriple]⟩)
    (pushed :
      ∀ (shelf : Shelf) triple,
        property shelf →
        property { shelf with triples := shelf.triples ++ [triple] })
    (member : shelf ∈ (Buckets.of url body).shelves) :
    property shelf := by
  have added :
      ∀ (name : NamedNode) (triple : GroundTriple) (shelves : List Shelf),
        property ⟨ShelfKey.of url name, name, [triple]⟩ →
        (∀ shelf ∈ shelves, property shelf) →
        ∀ shelf ∈ addToShelf (ShelfKey.of url name) name triple shelves,
          property shelf := by
    intro name triple shelves isNew
    induction shelves with
    | nil =>
        intro _ shelf isShelf
        rw [addToShelf, List.mem_singleton] at isShelf
        rw [isShelf]
        exact isNew
    | cons first rest inductionHypothesis =>
        intro holds shelf isShelf
        rw [addToShelf] at isShelf
        split at isShelf
        · rcases List.mem_cons.mp isShelf with rfl | inRest
          · exact pushed first triple (holds first (by simp))
          · exact holds shelf (by simp [inRest])
        · rcases List.mem_cons.mp isShelf with rfl | inRest
          · exact holds shelf (by simp)
          · exact inductionHypothesis
              (fun other isOther => holds other (by simp [isOther]))
              shelf inRest
  have loop :
      ∀ (quads : List GroundQuad) (buckets : Buckets),
        (∀ quad ∈ quads, quad ∈ body.quads) →
        (∀ shelf ∈ buckets.shelves, property shelf) →
        ∀ shelf ∈ (quads.foldl (Buckets.add url) buckets).shelves,
          property shelf := by
    intro quads
    induction quads with
    | nil =>
        intro buckets _ holds
        exact holds
    | cons quad rest inductionHypothesis =>
        intro buckets inBody holds
        refine inductionHypothesis _
          (fun other isOther => inBody other (by simp [isOther])) ?_
        unfold Buckets.add
        cases isName : quad.graphName with
        | defaultGraph =>
            exact holds
        | namedNode name =>
            exact added name _ _
              (created quad (inBody quad (by simp)) name isName) holds
  exact loop body.quads ⟨[], []⟩ (fun _ isThere => isThere) (by simp)
    shelf member

/-- The shelves of a dataset are keyed by their names. -/
theorem Buckets.key_of_mem
    {url : ResourceUrl space} {body : Skolemized} {shelf : Shelf}
    (member : shelf ∈ (Buckets.of url body).shelves) :
    shelf.key = ShelfKey.of url shelf.name :=
  Buckets.shelves_all (fun shelf => shelf.key = ShelfKey.of url shelf.name)
    (fun _ _ _ _ => rfl) (fun _ _ isKey => isKey) member

/-! ## Storage writes -/

/-- The graphs of a container that a plan or a container write changes. -/
def ContainerUrl.Owns (url : ContainerUrl space) (name : Text) : Prop :=
  name = url.resource.iri ∨ name = sysGraphOf url.resource.iri

/-- The graphs a storage write can change. -/
def StorageWrite.Touches (name : Text) : StorageWrite space → Prop
  | .dataset url _ _ => url.Owns name
  | .blob url _ _ _ => url.Owns name
  | .container url _ => url.Owns name
  | .auxiliary url _ => url.Owns name
  | .patch target _ =>
      match target with
      | .resource url _ => name = url.iri
      | .container url => url.Owns name
      | .aux url => name = url.iri
  | .deleteAuxiliary url => url.Owns name
  | .deleteSubject url =>
      url.Owns name ∨ (∃ kind, (url.aux kind).Owns name) ∨
        ∃ parent, url.parent = some parent ∧ name = parent.resource.iri
  | .nothing => False

/-- The resource whose object a storage write can change. -/
def StorageWrite.objectOwner : StorageWrite space → Option (ResourceUrl space)
  | .dataset url _ _ => some url
  | .blob url _ _ _ => some url
  | .deleteSubject url => some url
  | _ => none

omit [Sha256] in
theorem touches_ensureCall
    {container : ContainerUrl space} {name : Text}
    (touched : name ∈ (ensureCall container).touches) :
    container.Owns name := by
  simp only [ensureCall, Call.touches, Call.operations, Operation.touches,
    markPresent, List.flatMap_cons, List.flatMap_nil, List.append_nil,
    List.map_cons, List.map_nil, List.mem_append, List.mem_singleton] at touched
  exact touched

omit [Sha256] in
theorem touches_linkCall
    {container : ContainerUrl space} {child : NamedNode} {name : Text}
    (touched : name ∈ (linkCall container child).touches) :
    container.Owns name := by
  simp only [linkCall, Call.touches, Call.operations, Operation.touches,
    markPresent, List.flatMap_cons, List.flatMap_nil, List.append_nil,
    List.map_cons, List.map_nil, List.mem_append, List.mem_singleton] at touched
  exact touched

omit [Sha256] in
theorem mem_planCalls
    {plan : List (ContainerUrl space × Option NamedNode)} {call : Call} :
    call ∈ planCalls plan ↔
      ∃ step ∈ plan,
        call = ensureCall step.1 ∨
          ∃ child, step.2 = some child ∧ call = linkCall step.1 child := by
  unfold planCalls
  rw [List.mem_flatMap]
  constructor
  · rintro ⟨⟨ancestor, child⟩, member, isCall⟩
    refine ⟨⟨ancestor, child⟩, member, ?_⟩
    rcases List.mem_cons.mp isCall with rfl | isLink
    · exact Or.inl rfl
    · obtain ⟨linked, isChild, rfl⟩ := List.mem_map.mp isLink
      exact Or.inr ⟨linked, Option.mem_toList.mp isChild, rfl⟩
  · rintro ⟨⟨ancestor, child⟩, member, rfl | ⟨linked, isChild, rfl⟩⟩
    · exact ⟨_, member, by simp⟩
    · refine ⟨_, member, ?_⟩
      obtain rfl : child = some linked := isChild
      simp

omit [Sha256] in
/-- A plan changes containers of the plan only. -/
theorem touches_planCalls
    {plan : List (ContainerUrl space × Option NamedNode)}
    {call : Call} {name : Text}
    (member : call ∈ planCalls plan)
    (touched : name ∈ call.touches) :
    ∃ step ∈ plan, step.1.Owns name := by
  obtain ⟨step, inPlan, rfl | ⟨child, _, rfl⟩⟩ := mem_planCalls.mp member
  · exact ⟨step, inPlan, touches_ensureCall touched⟩
  · exact ⟨step, inPlan, touches_linkCall touched⟩

omit [Sha256] in
theorem keys_planCalls
    {plan : List (ContainerUrl space × Option NamedNode)} {call : Call}
    (member : call ∈ planCalls plan) :
    call.keys = [] := by
  obtain ⟨step, _, rfl | ⟨child, _, rfl⟩⟩ := mem_planCalls.mp member
  · rfl
  · rfl

/-- A shelf the registry lists belongs to the resource. -/
theorem World.RegistersOwn.owns
    {world : World} {url : ResourceUrl space} {key : ShelfKey}
    (owned : world.RegistersOwn space)
    (member : key ∈ world.registered url) :
    url.Owns key.graphIri := by
  obtain ⟨label, rfl⟩ := owned.of_mem member
  exact Or.inr (Or.inr ⟨label.iri, rfl⟩)

theorem Buckets.owns
    {url : ResourceUrl space} {body : Skolemized} {shelf : Shelf}
    (member : shelf ∈ (Buckets.of url body).shelves) :
    url.Owns shelf.key.graphIri := by
  rw [Buckets.key_of_mem member]
  exact Or.inr (Or.inr ⟨shelf.name.iri, rfl⟩)

theorem touches_putDataset
    {url : ResourceUrl space} {registered : List ShelfKey}
    {body : Skolemized} {mediaType name : Text}
    (owned : ∀ key ∈ registered, url.Owns key.graphIri)
    (touched :
      name ∈
        (Call.update
          (putDatasetUpdate url registered (Buckets.of url body)
            mediaType)).touches) :
    url.Owns name := by
  simp only [putDatasetUpdate, Call.touches, Call.operations,
    Operation.touches, List.flatMap_append, List.flatMap_cons,
    List.flatMap_nil, List.flatMap_map, List.map_cons, List.map_nil,
    List.map_map, List.mem_append, List.mem_flatMap, List.mem_cons,
    List.mem_map, List.not_mem_nil, or_false, Function.comp_apply] at touched
  rcases touched with
      (⟨key, member, rfl⟩ | ⟨shelf, member, rfl⟩) |
        rfl | rfl | (rfl | ⟨shelf, member, rfl⟩) | rfl
  · exact owned key member
  · exact Buckets.owns member
  · exact Or.inl rfl
  · exact Or.inr (Or.inl rfl)
  · exact Or.inl rfl
  · exact Buckets.owns member
  · exact Or.inr (Or.inl rfl)

theorem touches_putBlob
    {url : ResourceUrl space} {registered : List ShelfKey}
    {mediaType : MediaType} {name : Text}
    (owned : ∀ key ∈ registered, url.Owns key.graphIri)
    (touched :
      name ∈
        (Call.update (putBlobUpdate url registered mediaType)).touches) :
    url.Owns name := by
  simp only [putBlobUpdate, Call.touches, Call.operations,
    Operation.touches, List.flatMap_append, List.flatMap_cons,
    List.flatMap_nil, List.flatMap_map, List.map_cons, List.map_nil,
    List.mem_append, List.mem_flatMap, List.mem_cons, List.not_mem_nil,
    or_false] at touched
  rcases touched with ⟨key, member, rfl⟩ | rfl | rfl | rfl
  · exact owned key member
  · exact Or.inl rfl
  · exact Or.inr (Or.inl rfl)
  · exact Or.inr (Or.inl rfl)

theorem touches_deleteSubject
    {url : ResourceUrl space} {registered : List ShelfKey} {name : Text}
    (owned : ∀ key ∈ registered, url.Owns key.graphIri)
    (touched :
      name ∈ (Call.update (deleteSubjectUpdate url registered)).touches) :
    url.Owns name ∨ (∃ kind, (url.aux kind).Owns name) ∨
      ∃ parent, url.parent = some parent ∧ name = parent.resource.iri := by
  simp only [deleteSubjectUpdate, Call.touches, Call.operations,
    Operation.touches, List.flatMap_append, List.flatMap_cons,
    List.flatMap_nil, List.flatMap_map, List.flatMap_assoc,
    List.mem_append, List.mem_flatMap, List.mem_cons, List.not_mem_nil,
    or_false] at touched
  rcases touched with
      ((⟨key, member, rfl⟩ | rfl | rfl) | ⟨kind, _, rfl | rfl⟩) | removed
  · exact Or.inl (owned key member)
  · exact Or.inl (Or.inl rfl)
  · exact Or.inl (Or.inr (Or.inl rfl))
  · exact Or.inr (Or.inl ⟨kind, Or.inl rfl⟩)
  · exact Or.inr (Or.inl ⟨kind, Or.inr rfl⟩)
  · cases isParent : url.parent with
    | none =>
        simp [isParent] at removed
    | some parent =>
        simp only [isParent, containmentRemoval, List.mem_cons,
          List.not_mem_nil, or_false, exists_eq_left] at removed
        exact Or.inr (Or.inr ⟨parent, rfl, removed⟩)

omit [Sha256] in
theorem touches_modify
    {graph name : Text} {deletions insertions : List TemplateTriple}
    {guard : Condition Text GroundTriple}
    (touched :
      name ∈ (Call.modify graph deletions insertions guard).touches) :
    name = graph := by
  unfold Call.touches Call.operations at touched
  dsimp only at touched
  split at touched
  · split at touched
    · simpa [Operation.touches] using touched
    · simp at touched
  · simp at touched

section Objects

variable [ObjectPath]

/-- A storage write stays inside its footprint. -/
theorem StorageWrite.calls_touch
    {world : World} {write : StorageWrite space} {call : Call} {name : Text}
    (owned : world.RegistersOwn space)
    (member : call ∈ write.calls world)
    (touched : name ∈ call.touches) :
    write.Touches name := by
  have noGraphs :
      ∀ url : ResourceUrl space,
        call ∈ deleteBlobCalls url → False := by
    intro url isDelete
    obtain ⟨key, _, rfl⟩ := List.mem_map.mp isDelete
    cases touched
  cases write with
  | dataset url body mediaType =>
      rcases List.mem_cons.mp member with rfl | isDelete
      · exact touches_putDataset (fun _ => owned.owns) touched
      · exact (noGraphs url isDelete).elim
  | blob url key bytes mediaType =>
      simp only [calls, List.mem_cons, List.not_mem_nil, or_false] at member
      rcases member with rfl | rfl
      · cases touched
      · exact touches_putBlob (fun _ => owned.owns) touched
  | container url triples =>
      simp only [calls, List.mem_cons, List.not_mem_nil, or_false] at member
      rcases member with rfl | rfl
      · simp only [Call.touches, Call.operations, Operation.touches,
          markPresent, List.flatMap_cons, List.flatMap_nil, List.append_nil,
          List.map_cons, List.map_nil, List.mem_append,
          List.mem_singleton] at touched
        rcases touched with rfl | rfl | rfl
        · exact Or.inl rfl
        · exact Or.inl rfl
        · exact Or.inr rfl
      · exact touches_ensureCall touched
  | auxiliary url triples =>
      simp only [calls, List.mem_cons, List.not_mem_nil, or_false] at member
      subst member
      simp only [Call.touches, Call.operations, Operation.touches,
        List.flatMap_cons, List.flatMap_nil, List.append_nil, List.map_cons,
        List.map_nil, List.mem_append, List.mem_cons, List.not_mem_nil,
        or_false] at touched
      rcases touched with rfl | rfl | rfl
      · exact Or.inl rfl
      · exact Or.inl rfl
      · exact Or.inr rfl
  | patch target change =>
      simp only [calls, List.mem_append, List.mem_map,
        Option.mem_toList] at member
      rcases member with ⟨given, _, rfl⟩ | isEnsure
      · have isGraph := touches_modify touched
        cases target with
        | resource url leaf =>
            exact isGraph
        | container url =>
            exact Or.inl isGraph
        | aux url =>
            exact isGraph
      · cases target with
        | container url =>
            obtain rfl := List.mem_singleton.mp isEnsure
            exact touches_ensureCall touched
        | resource url leaf =>
            cases isEnsure
        | aux url =>
            cases isEnsure
  | deleteAuxiliary url =>
      simp only [calls, List.mem_cons, List.not_mem_nil, or_false] at member
      subst member
      simp only [Call.touches, Call.operations, Operation.touches,
        List.flatMap_cons, List.flatMap_nil, List.append_nil,
        List.mem_append, List.mem_singleton] at touched
      exact touched
  | deleteSubject url =>
      rcases List.mem_cons.mp member with rfl | isDelete
      · exact touches_deleteSubject (fun _ => owned.owns) touched
      · exact (noGraphs url isDelete).elim
  | nothing =>
      cases member

omit [Sha256] in
theorem keys_deleteBlobCalls
    {url : ResourceUrl space} {call : Call} {key : BlobKey}
    (member : call ∈ deleteBlobCalls url)
    (changed : key ∈ call.keys) :
    BlobKey.of url = some key := by
  obtain ⟨other, isKey, rfl⟩ := List.mem_map.mp member
  rw [Call.keys, List.mem_singleton] at changed
  rw [changed]
  exact Option.mem_toList.mp isKey

/-- A storage write changes no object but that of its target. -/
theorem StorageWrite.calls_keys
    {world : World} {write : StorageWrite space} {call : Call} {key : BlobKey}
    (keyed :
      ∀ url key bytes mediaType,
        write = .blob url key bytes mediaType → BlobKey.of url = some key)
    (member : call ∈ write.calls world)
    (changed : key ∈ call.keys) :
    ∃ url, write.objectOwner = some url ∧ BlobKey.of url = some key := by
  cases write with
  | dataset url body mediaType =>
      rcases List.mem_cons.mp member with rfl | isDelete
      · cases changed
      · exact ⟨url, rfl, keys_deleteBlobCalls isDelete changed⟩
  | blob url given bytes mediaType =>
      simp only [calls, List.mem_cons, List.not_mem_nil, or_false] at member
      rcases member with rfl | rfl
      · rw [Call.keys, List.mem_singleton] at changed
        subst changed
        exact ⟨url, rfl, keyed url key bytes mediaType rfl⟩
      · cases changed
  | container url triples =>
      simp only [calls, List.mem_cons, List.not_mem_nil, or_false] at member
      rcases member with rfl | rfl
      · cases changed
      · cases changed
  | auxiliary url triples =>
      simp only [calls, List.mem_cons, List.not_mem_nil, or_false] at member
      subst member
      cases changed
  | patch target change =>
      simp only [calls, List.mem_append, List.mem_map,
        Option.mem_toList] at member
      rcases member with ⟨given, _, rfl⟩ | isEnsure
      · cases changed
      · cases target with
        | container url =>
            obtain rfl := List.mem_singleton.mp isEnsure
            cases changed
        | resource url leaf =>
            cases isEnsure
        | aux url =>
            cases isEnsure
  | deleteAuxiliary url =>
      simp only [calls, List.mem_cons, List.not_mem_nil, or_false] at member
      subst member
      cases changed
  | deleteSubject url =>
      rcases List.mem_cons.mp member with rfl | isDelete
      · cases changed
      · exact ⟨url, rfl, keys_deleteBlobCalls isDelete changed⟩
  | nothing =>
      cases member

end Objects

/-! ## What a storage write adds -/

/-- The triples that assert a container: its types and its marker. -/
def ContainerUrl.Asserts
    (url : ContainerUrl space) (name : Text) (triple : GroundTriple) : Prop :=
  (name = url.resource.iri ∧
      triple ∈ (containerTypes url).map GroundQuad.toTriple) ∨
    (name = sysGraphOf url.resource.iri ∧ triple = presenceMarker url.node)

/-- The triples a storage write can add. -/
def StorageWrite.Adds (name : Text) (triple : GroundTriple) :
    StorageWrite space → Prop
  | .dataset url body mediaType =>
      (name = url.iri ∧ triple ∈ (Buckets.of url body).defaultGraph) ∨
        (∃ shelf ∈ (Buckets.of url body).shelves,
          name = shelf.key.graphIri ∧ triple ∈ shelf.triples) ∨
        (name = sysGraphOf url.iri ∧
          triple ∈ registryOf url mediaType (Buckets.of url body).shelves)
  | .blob url _ _ mediaType =>
      name = sysGraphOf url.iri ∧
        (triple = presenceMarker url.node ∨
          triple = ⟨url.node, rdfType, .namedNode sysBinaryResource⟩ ∨
          triple =
            ⟨url.node, sysMediaType, .literal (.simple mediaType.raw)⟩)
  | .container url triples =>
      (name = url.resource.iri ∧ triple ∈ triples) ∨ url.Asserts name triple
  | .auxiliary url triples =>
      (name = url.iri ∧ triple ∈ triples) ∨
        (name = sysGraphOf url.iri ∧ triple = presenceMarker url.node)
  | .patch target change =>
      (name = graphIri target ∧
        ∃ given ∈ change, ∃ template ∈ given.2,
          template.ground = some triple) ∨
        ∃ url, target = .container url ∧ url.Asserts name triple
  | .deleteAuxiliary _ => False
  | .deleteSubject _ => False
  | .nothing => False

omit [Sha256] in
theorem adds_ensureCall
    {container : ContainerUrl space} {name : Text} {triple : GroundTriple}
    (isAdded : (name, triple) ∈ (ensureCall container).adds) :
    container.Asserts name triple := by
  simp only [ensureCall, Call.adds, Call.operations, Operation.adds,
    markPresent, List.flatMap_cons, List.flatMap_nil, List.append_nil,
    List.mem_append, List.mem_map, Prod.mk.injEq] at isAdded
  rcases isAdded with ⟨other, member, rfl, rfl⟩ | ⟨other, member, rfl, rfl⟩
  · exact Or.inl ⟨rfl, List.mem_map.mpr member⟩
  · exact Or.inr ⟨rfl, List.mem_singleton.mp member⟩

omit [Sha256] in
theorem adds_linkCall
    {container : ContainerUrl space} {child : NamedNode} {name : Text}
    {triple : GroundTriple}
    (isAdded : (name, triple) ∈ (linkCall container child).adds) :
    (name = container.resource.iri ∧
        triple = containmentTriple container child) ∨
      (name = sysGraphOf container.resource.iri ∧
        triple = presenceMarker container.node) := by
  simp only [linkCall, Call.adds, Call.operations, Operation.adds,
    markPresent, List.flatMap_cons, List.flatMap_nil, List.append_nil,
    List.mem_append, List.mem_map, Prod.mk.injEq] at isAdded
  rcases isAdded with ⟨other, member, rfl, rfl⟩ | ⟨other, member, rfl, rfl⟩
  · exact Or.inl ⟨rfl, List.mem_singleton.mp member⟩
  · exact Or.inr ⟨rfl, List.mem_singleton.mp member⟩

omit [Sha256] in
theorem adds_modify
    {graph name : Text} {deletions insertions : List TemplateTriple}
    {guard : Condition Text GroundTriple} {triple : GroundTriple}
    (isAdded :
      (name, triple) ∈
        (Call.modify graph deletions insertions guard).adds) :
    name = graph ∧
      ∃ template ∈ insertions, template.ground = some triple := by
  unfold Call.adds Call.operations at isAdded
  dsimp only at isAdded
  split at isAdded
  · split at isAdded
    · simpa [Operation.adds, eq_comm, and_comm] using isAdded
    · simp at isAdded
  · simp at isAdded

omit [Sha256] in
theorem adds_deleteSubjectUpdate
    {url : ResourceUrl space} {registered : List ShelfKey}
    {operation : Operation Text GroundTriple}
    (member : operation ∈ deleteSubjectUpdate url registered) :
    operation.adds = [] := by
  simp only [deleteSubjectUpdate, List.mem_append, List.mem_map,
    List.mem_cons, List.not_mem_nil, or_false,
    List.mem_flatMap] at member
  rcases member with
      ((⟨key, _, rfl⟩ | rfl | rfl) | ⟨kind, _, rfl | rfl⟩) | removal
  · rfl
  · rfl
  · rfl
  · rfl
  · rfl
  · cases isParent : url.parent with
    | none =>
        simp [isParent] at removal
    | some parent =>
        simp only [isParent, List.mem_cons, List.not_mem_nil,
          or_false] at removal
        rw [removal]
        rfl

theorem StorageWrite.calls_add [ObjectPath]
    {world : World} {write : StorageWrite space} {call : Call} {name : Text}
    {triple : GroundTriple}
    (member : call ∈ write.calls world)
    (isAdded : (name, triple) ∈ call.adds) :
    write.Adds name triple := by
  have noGraphs :
      ∀ url : ResourceUrl space,
        call ∈ deleteBlobCalls url → False := by
    intro url isDelete
    obtain ⟨key, _, rfl⟩ := List.mem_map.mp isDelete
    cases isAdded
  cases write with
  | dataset url body mediaType =>
      rcases List.mem_cons.mp member with rfl | isDelete
      · simp only [putDatasetUpdate, Call.adds, Call.operations,
          Operation.adds, List.flatMap_append, List.flatMap_cons,
          List.flatMap_nil, List.flatMap_map, List.append_nil,
          List.nil_append, List.mem_append, List.mem_flatMap, List.mem_map,
          Prod.mk.injEq, List.not_mem_nil, and_false, exists_false,
          or_self, false_or] at isAdded
        rcases isAdded with
            (⟨other, inGraph, rfl, rfl⟩ |
              ⟨shelf, inShelves, other, inShelf, rfl, rfl⟩) |
              ⟨other, inRegistry, rfl, rfl⟩
        · exact Or.inl ⟨rfl, inGraph⟩
        · exact Or.inr (Or.inl ⟨shelf, inShelves, rfl, inShelf⟩)
        · exact Or.inr (Or.inr ⟨rfl, inRegistry⟩)
      · exact (noGraphs url isDelete).elim
  | blob url key bytes mediaType =>
      simp only [calls, List.mem_cons, List.not_mem_nil, or_false] at member
      rcases member with rfl | rfl
      · cases isAdded
      · simp only [putBlobUpdate, Call.adds, Call.operations,
          Operation.adds, List.flatMap_append, List.flatMap_cons,
          List.flatMap_nil, List.flatMap_map, List.append_nil,
          List.nil_append, List.mem_append, List.mem_flatMap, List.mem_map,
          List.mem_cons, Prod.mk.injEq, List.not_mem_nil, and_false,
          exists_false, or_false, false_or] at isAdded
        obtain ⟨other, isOther, rfl, rfl⟩ := isAdded
        exact ⟨rfl, isOther⟩
  | container url triples =>
      simp only [calls, List.mem_cons, List.not_mem_nil, or_false] at member
      rcases member with rfl | rfl
      · simp only [Call.adds, Call.operations, Operation.adds, markPresent,
          List.flatMap_cons, List.flatMap_nil, List.append_nil,
          List.nil_append, List.mem_append, List.mem_map,
          Prod.mk.injEq] at isAdded
        rcases isAdded with
            ⟨other, inTriples, rfl, rfl⟩ | ⟨other, isMarker, rfl, rfl⟩
        · exact Or.inl ⟨rfl, inTriples⟩
        · exact Or.inr (Or.inr ⟨rfl, List.mem_singleton.mp isMarker⟩)
      · exact Or.inr (adds_ensureCall isAdded)
  | auxiliary url triples =>
      simp only [calls, List.mem_cons, List.not_mem_nil, or_false] at member
      subst member
      simp only [Call.adds, Call.operations, Operation.adds,
        List.flatMap_cons, List.flatMap_nil, List.append_nil,
        List.nil_append, List.mem_append, List.mem_map,
        Prod.mk.injEq] at isAdded
      rcases isAdded with
          ⟨other, inTriples, rfl, rfl⟩ | ⟨other, isMarker, rfl, rfl⟩
      · exact Or.inl ⟨rfl, inTriples⟩
      · exact Or.inr ⟨rfl, List.mem_singleton.mp isMarker⟩
  | patch target change =>
      simp only [calls, List.mem_append, List.mem_map,
        Option.mem_toList] at member
      rcases member with ⟨given, isGiven, rfl⟩ | isEnsure
      · obtain ⟨isGraph, inserted⟩ := adds_modify isAdded
        exact Or.inl ⟨isGraph, given, isGiven, inserted⟩
      · cases target with
        | container url =>
            obtain rfl := List.mem_singleton.mp isEnsure
            exact Or.inr ⟨url, rfl, adds_ensureCall isAdded⟩
        | resource url leaf =>
            cases isEnsure
        | aux url =>
            cases isEnsure
  | deleteAuxiliary url =>
      simp only [calls, List.mem_cons, List.not_mem_nil, or_false] at member
      subst member
      cases isAdded
  | deleteSubject url =>
      rcases List.mem_cons.mp member with rfl | isDelete
      · obtain ⟨operation, inUpdate, adds⟩ := List.mem_flatMap.mp isAdded
        rw [adds_deleteSubjectUpdate inUpdate] at adds
        cases adds
      · exact (noGraphs url isDelete).elim
  | nothing =>
      cases member

/-! ## Registries stay owned -/

omit [Sha256] in
/-- The predicates of the system vocabulary a registry's triples can be told by. -/
theorem sysHasSubgraph_ne :
    sysPresent ≠ sysHasSubgraph ∧ sysMediaType ≠ sysHasSubgraph ∧
      sysGraphName ≠ sysHasSubgraph ∧ rdfType ≠ sysHasSubgraph := by
  have texts :
      sysPresentIri ≠ sysHasSubgraphIri ∧
        sysMediaTypeIri ≠ sysHasSubgraphIri ∧
        sysGraphNameIri ≠ sysHasSubgraphIri ∧
        rdfTypeIri ≠ sysHasSubgraphIri := by
    decide
  exact ⟨fun same => texts.1 (congrArg NamedNode.iri same),
    fun same => texts.2.1 (congrArg NamedNode.iri same),
    fun same => texts.2.2.1 (congrArg NamedNode.iri same),
    fun same => texts.2.2.2 (congrArg NamedNode.iri same)⟩

omit [Sha256] in
theorem ContainerUrl.Asserts.predicate_ne
    {container : ContainerUrl space} {iri : Text} {triple : GroundTriple}
    (asserts : container.Asserts (sysGraphOf iri) triple) :
    triple.predicate ≠ sysHasSubgraph := by
  rcases asserts with ⟨isGraph, _⟩ | ⟨_, rfl⟩
  · exact (not_isHttp_sysGraphOf iri
      (isGraph ▸ container.resource.isHttp)).elim
  · exact sysHasSubgraph_ne.1

theorem StorageWrite.Adds.registers
    {write : StorageWrite space} {url : ResourceUrl space}
    {triple : GroundTriple}
    (adds : write.Adds (sysGraphOf url.iri) triple)
    (isEntry : triple.predicate = sysHasSubgraph) :
    ∃ name, triple.object = .namedNode (ShelfKey.of url name).node := by
  cases write with
  | dataset other body mediaType =>
      rcases adds with
          ⟨isGraph, _⟩ | ⟨shelf, inShelves, isGraph, _⟩ | ⟨isGraph, inRegistry⟩
      · exact (not_isHttp_sysGraphOf _ (isGraph ▸ other.isHttp)).elim
      · rw [Buckets.key_of_mem inShelves] at isGraph
        exact (shelfIri_ne_sysGraphOf _ _ _ isGraph.symm).elim
      · obtain rfl : url = other :=
          ResourceUrl.iri_injective (sysGraphOf_injective isGraph)
        simp only [registryOf, List.mem_cons, List.mem_flatMap,
          List.not_mem_nil, or_false] at inRegistry
        rcases inRegistry with rfl | rfl | ⟨shelf, inShelves, rfl | rfl⟩
        · exact (sysHasSubgraph_ne.1 isEntry).elim
        · exact (sysHasSubgraph_ne.2.1 isEntry).elim
        · exact ⟨shelf.name, by rw [Buckets.key_of_mem inShelves]⟩
        · exact (sysHasSubgraph_ne.2.2.1 isEntry).elim
  | blob other key bytes mediaType =>
      rcases adds.2 with rfl | rfl | rfl
      · exact (sysHasSubgraph_ne.1 isEntry).elim
      · exact (sysHasSubgraph_ne.2.2.2 isEntry).elim
      · exact (sysHasSubgraph_ne.2.1 isEntry).elim
  | container other triples =>
      rcases adds with ⟨isGraph, _⟩ | asserts
      · exact (not_isHttp_sysGraphOf _ (isGraph ▸ other.resource.isHttp)).elim
      · exact (asserts.predicate_ne isEntry).elim
  | auxiliary other triples =>
      rcases adds with ⟨isGraph, _⟩ | ⟨_, rfl⟩
      · exact (not_isHttp_sysGraphOf _ (isGraph ▸ other.isHttp)).elim
      · exact (sysHasSubgraph_ne.1 isEntry).elim
  | patch target change =>
      rcases adds with ⟨isGraph, _⟩ | ⟨container, _, asserts⟩
      · exact (not_isHttp_sysGraphOf _ (isGraph ▸ target.isHttp)).elim
      · exact (asserts.predicate_ne isEntry).elim
  | deleteAuxiliary other =>
      exact adds.elim
  | deleteSubject other =>
      exact adds.elim
  | nothing =>
      exact adds.elim

theorem registers_planCalls
    {plan : List (ContainerUrl space × Option NamedNode)} {call : Call}
    (member : call ∈ planCalls plan) :
    call.Registers space := by
  intro url triple isAdded isEntry
  obtain ⟨step, _, rfl | ⟨child, _, rfl⟩⟩ := mem_planCalls.mp member
  · exact ((adds_ensureCall isAdded).predicate_ne isEntry).elim
  · rcases adds_linkCall isAdded with ⟨isGraph, _⟩ | ⟨_, rfl⟩
    · exact (not_isHttp_sysGraphOf _
        (isGraph ▸ step.1.resource.isHttp)).elim
    · exact (sysHasSubgraph_ne.1 isEntry).elim

theorem registers_calls [ObjectPath]
    {world : World} {write : StorageWrite space} {call : Call}
    (member : call ∈ write.calls world) :
    call.Registers space :=
  fun _ _ isAdded isEntry =>
    (StorageWrite.calls_add member isAdded).registers isEntry

end Shelves

/-! ## Request-independent invariants -/

section Requests

variable [Sha256] [ObjectPath] [RdfParser] [N3Parser]
variable {storeVersion : RdfVersion} {world reached : World}
variable {request : Request} {target : Target space}

omit [Sha256] [RdfParser] [N3Parser] in
theorem BodyWrite.ne_patch
    {fresh : Nat → Uuid} {kept : List Triple} {repr : Repr}
    {write : StorageWrite space} {on : Target space}
    {change : Option (List TemplateTriple × List TemplateTriple)}
    (isWrite : BodyWrite fresh kept repr target write) :
    write ≠ .patch on change := by
  rintro rfl
  cases isWrite

omit [Sha256] [ObjectPath] [RdfParser] [N3Parser] in
theorem PatchWrite.ne_patch
    {fresh : Nat → Uuid} {triples : List Triple}
    {write : StorageWrite space} {on : Target space}
    {change : Option (List TemplateTriple × List TemplateTriple)}
    (isWrite : PatchWrite fresh triples target write) :
    write ≠ .patch on change := by
  rintro rfl
  cases isWrite

/--
What every plan and every storage write keeps, wherever they are left, is kept
by every request.  Only what exists is patched.
-/
theorem RequestEffect.invariant
    (effect :
      RequestEffect mayFail storeVersion world request target reached)
    (invariant : World → Prop)
    (holds : invariant world)
    (plans :
      ∀ plan : List (ContainerUrl space × Option NamedNode),
        ∀ middle,
          backend.Performs mayFail world (planCalls plan) middle →
          invariant middle)
    (writes :
      ∀ (started : World) (write : StorageWrite space) (final : World),
        (∀ on change,
          write = .patch on change → started.present on.node = true) →
        invariant started →
        backend.Performs mayFail started (write.calls started) final →
        invariant final) :
    invariant reached := by
  have staged :
      ∀ (plan : List (ContainerUrl space × Option NamedNode)) admits,
        (∀ started write on change,
          admits started write → write ≠ .patch on change) →
        Staged mayFail world plan admits reached → invariant reached := by
    rintro plan admits notPatch (⟨_, performs⟩ | ⟨write, admitted, performs⟩)
    · exact plans plan reached performs
    · exact writes _ write reached
        (fun on change isPatch =>
          (notPatch _ write on change admitted isPatch).elim)
        (plans plan _ (backend.performs_all world _)) performs
  cases effect with
  | unchanged =>
      exact holds
  | put _ _ _ isStaged =>
      refine staged _ _ ?_ isStaged
      rintro started write on change ⟨repr, _, isWrite⟩
      exact isWrite.ne_patch
  | post _ _ _ _ _ isStaged =>
      refine staged _ _ ?_ isStaged
      rintro started write on change ⟨repr, _, isWrite⟩
      exact isWrite.ne_patch
  | patch _ _ _ _ targetPresent _ _ performs =>
      refine writes world _ reached ?_ holds performs
      rintro on change isPatch
      cases isPatch
      exact targetPresent
  | create _ _ _ _ _ _ _ _ isStaged =>
      refine staged _ _ ?_ isStaged
      intro started write on change isWrite
      exact isWrite.ne_patch
  | deleteAux _ _ _ performs =>
      exact writes world _ reached (fun _ _ isPatch => by cases isPatch)
        holds performs
  | deleteSubject _ _ _ _ _ _ performs =>
      exact writes world _ reached (fun _ _ isPatch => by cases isPatch)
        holds performs

theorem RequestEffect.registersOwn
    (effect :
      RequestEffect mayFail storeVersion world request target reached)
    (owned : world.RegistersOwn space) :
    reached.RegistersOwn space := by
  refine effect.invariant (·.RegistersOwn space) owned ?_ ?_
  · intro plan middle performs
    exact owned.performs performs fun call member =>
      registers_planCalls member
  · intro started write final _ holds performs
    exact holds.performs performs fun call member => registers_calls member

end Requests

end Quadpod
