import Quadpod.WholeAuxiliaries

namespace Quadpod

open AtomicProgram
open GraphStore

/-!
# What a write leaves, exactly

The footprints bound what a write can change.  Here is what a write whose calls
are all answered leaves in every graph: what was there and was not dropped, and
what the write adds.
-/

variable [IriSyntax] {space : StorageSpace}

/-! ## Single calls -/

theorem mem_perform_ensureCall
    {world : World} {container : ContainerUrl space} {name : Text}
    {triple : GroundTriple} :
    triple ∈ (backend.perform world (ensureCall container)).2.graphs name ↔
      triple ∈ world.graphs name ∨ container.Asserts name triple := by
  have shape :
      (ensureCall container).operations =
        Store.replacing []
          [[(graphIri container,
              (containerTypes container).map GroundQuad.toTriple)],
            [(sysGraphIri container, [presenceMarker container.node])]] :=
    rfl
  rw [backend_graphs, shape, Store.mem_applyAll_replacing]
  constructor
  · rintro (⟨old, _⟩ | ⟨blocks, isBlock, added, inBlock, inAdded⟩)
    · exact Or.inl old
    · simp only [List.mem_cons, List.not_mem_nil, or_false] at isBlock
      rcases isBlock with rfl | rfl
      · cases List.mem_singleton.mp inBlock
        exact Or.inr (Or.inl ⟨rfl, inAdded⟩)
      · cases List.mem_singleton.mp inBlock
        exact Or.inr (Or.inr ⟨rfl, List.mem_singleton.mp inAdded⟩)
  · rintro (old | ⟨rfl, isType⟩ | ⟨rfl, rfl⟩)
    · exact Or.inl ⟨old, List.not_mem_nil⟩
    · exact Or.inr ⟨_, List.mem_cons_self, _, List.mem_cons_self, isType⟩
    · exact Or.inr ⟨_, List.mem_cons_of_mem _ List.mem_cons_self, _,
        List.mem_cons_self, List.mem_cons_self⟩

theorem mem_perform_linkCall
    {world : World} {container : ContainerUrl space} {child : NamedNode}
    {name : Text} {triple : GroundTriple} :
    triple ∈
        (backend.perform world (linkCall container child)).2.graphs name ↔
      triple ∈ world.graphs name ∨
        (name = container.resource.iri ∧
          triple = containmentTriple container child) ∨
        (name = sysGraphOf container.resource.iri ∧
          triple = presenceMarker container.node) := by
  have shape :
      (linkCall container child).operations =
        Store.replacing []
          [[(graphIri container, [containmentTriple container child])],
            [(sysGraphIri container, [presenceMarker container.node])]] :=
    rfl
  rw [backend_graphs, shape, Store.mem_applyAll_replacing]
  constructor
  · rintro (⟨old, _⟩ | ⟨blocks, isBlock, added, inBlock, inAdded⟩)
    · exact Or.inl old
    · simp only [List.mem_cons, List.not_mem_nil, or_false] at isBlock
      rcases isBlock with rfl | rfl
      · cases List.mem_singleton.mp inBlock
        exact Or.inr (Or.inl ⟨rfl, List.mem_singleton.mp inAdded⟩)
      · cases List.mem_singleton.mp inBlock
        exact Or.inr (Or.inr ⟨rfl, List.mem_singleton.mp inAdded⟩)
  · rintro (old | ⟨rfl, rfl⟩ | ⟨rfl, rfl⟩)
    · exact Or.inl ⟨old, List.not_mem_nil⟩
    · exact Or.inr ⟨_, List.mem_cons_self, _, List.mem_cons_self,
        List.mem_cons_self⟩
    · exact Or.inr ⟨_, List.mem_cons_of_mem _ List.mem_cons_self, _,
        List.mem_cons_self, List.mem_cons_self⟩

/-! ## Plans -/

/-- What one step of a plan writes. -/
def PlanWrites
    (step : ContainerUrl space × Option NamedNode) (name : Text)
    (triple : GroundTriple) : Prop :=
  step.1.Asserts name triple ∨
    ∃ child,
      step.2 = some child ∧ name = step.1.resource.iri ∧
        triple = containmentTriple step.1 child

theorem mem_after_planCalls
    {world : World} {plan : List (ContainerUrl space × Option NamedNode)}
    {name : Text} {triple : GroundTriple} :
    triple ∈ (backend.after world (planCalls plan)).graphs name ↔
      triple ∈ world.graphs name ∨
        ∃ step ∈ plan, PlanWrites step name triple := by
  induction plan generalizing world with
  | nil =>
      rw [planCalls, List.flatMap_nil, Machine.after_nil]
      simp
  | cons step rest inductionHypothesis =>
      obtain ⟨ancestor, child⟩ := step
      have calls :
          planCalls ((ancestor, child) :: rest) =
            ensureCall ancestor ::
              (child.toList.map (linkCall ancestor) ++ planCalls rest) := by
        simp [planCalls]
      rw [calls, Machine.after_cons, Machine.after_append,
        inductionHypothesis]
      cases child with
      | none =>
          rw [Option.toList_none, List.map_nil, Machine.after_nil,
            mem_perform_ensureCall]
          simp [PlanWrites, or_assoc]
      | some child =>
          rw [Option.toList_some, List.map_cons, List.map_nil,
            Machine.after_cons, Machine.after_nil, mem_perform_linkCall,
            mem_perform_ensureCall]
          simp only [List.mem_cons, exists_eq_or_imp]
          constructor
          · rintro (((old | asserts) | isLink | isMarker) | inRest)
            · exact Or.inl old
            · exact Or.inr (Or.inl (Or.inl asserts))
            · exact Or.inr (Or.inl (Or.inr ⟨child, rfl, isLink⟩))
            · exact Or.inr (Or.inl (Or.inl (Or.inr isMarker)))
            · exact Or.inr (Or.inr inRest)
          · rintro (old | (asserts | ⟨other, isChild, isLink⟩) | inRest)
            · exact Or.inl (Or.inl (Or.inl old))
            · exact Or.inl (Or.inl (Or.inr asserts))
            · cases isChild
              exact Or.inl (Or.inr (Or.inl isLink))
            · exact Or.inr inRest

/-! ## Updates of a resource -/

/-- What `put_dataset` leaves. -/
theorem mem_applyAll_putDataset
    {store : Store Text GroundTriple} {url : ResourceUrl space}
    {registered : List ShelfKey} {buckets : Buckets} {mediaType name : Text}
    {triple : GroundTriple} :
    triple ∈
        store.applyAll (putDatasetUpdate url registered buckets mediaType)
          name ↔
      (triple ∈ store name ∧
          name ∉
            registered.map ShelfKey.graphIri ++
              buckets.shelves.map (·.key.graphIri) ++
              [url.iri, sysGraphOf url.iri]) ∨
        (name = url.iri ∧ triple ∈ buckets.defaultGraph) ∨
        (∃ shelf ∈ buckets.shelves,
          name = shelf.key.graphIri ∧ triple ∈ shelf.triples) ∨
        (name = sysGraphOf url.iri ∧
          triple ∈ registryOf url mediaType buckets.shelves) := by
  have shape :
      putDatasetUpdate url registered buckets mediaType =
        Store.replacing
          (registered.map ShelfKey.graphIri ++
            buckets.shelves.map (·.key.graphIri) ++
            [url.iri, sysGraphOf url.iri])
          [(graphIri url, buckets.defaultGraph) ::
              buckets.shelves.map fun shelf =>
                (shelf.key.graphIri, shelf.triples),
            [(sysGraphIri url,
              registryOf url mediaType buckets.shelves)]] := by
    simp only [putDatasetUpdate, Store.replacing, List.map_append,
      List.map_map, List.map_cons, List.map_nil, List.append_assoc,
      List.cons_append, List.nil_append]
    rfl
  rw [shape, Store.mem_applyAll_replacing]
  refine or_congr Iff.rfl ?_
  constructor
  · rintro ⟨blocks, isBlock, added, inBlock, inAdded⟩
    simp only [List.mem_cons, List.not_mem_nil, or_false] at isBlock
    rcases isBlock with rfl | rfl
    · rcases List.mem_cons.mp inBlock with isDefault | isShelf
      · cases isDefault
        exact Or.inl ⟨rfl, inAdded⟩
      · obtain ⟨shelf, inShelves, same⟩ := List.mem_map.mp isShelf
        cases same
        exact Or.inr (Or.inl ⟨shelf, inShelves, rfl, inAdded⟩)
    · cases List.mem_singleton.mp inBlock
      exact Or.inr (Or.inr ⟨rfl, inAdded⟩)
  · rintro (⟨rfl, inDefault⟩ | ⟨shelf, inShelves, rfl, inShelf⟩ |
        ⟨rfl, inRegistry⟩)
    · exact ⟨_, List.mem_cons_self, _, List.mem_cons_self, inDefault⟩
    · exact ⟨_, List.mem_cons_self, _,
        List.mem_cons_of_mem _ (List.mem_map_of_mem inShelves), inShelf⟩
    · exact ⟨_, List.mem_cons_of_mem _ List.mem_cons_self, _,
        List.mem_cons_self, inRegistry⟩

/-- What the system graph says about a binary resource. -/
def binaryEntries (url : ResourceUrl space) (mediaType : MediaType) :
    List GroundTriple :=
  [presenceMarker url.node,
    ⟨url.node, rdfType, .namedNode sysBinaryResource⟩,
    ⟨url.node, sysMediaType, .literal (.simple mediaType.raw)⟩]

/-- What `put_blob` leaves in the graphs. -/
theorem mem_applyAll_putBlob
    {store : Store Text GroundTriple} {url : ResourceUrl space}
    {registered : List ShelfKey} {mediaType : MediaType} {name : Text}
    {triple : GroundTriple} :
    triple ∈ store.applyAll (putBlobUpdate url registered mediaType) name ↔
      (triple ∈ store name ∧
          name ∉
            registered.map ShelfKey.graphIri ++
              [url.iri, sysGraphOf url.iri]) ∨
        (name = sysGraphOf url.iri ∧ triple ∈ binaryEntries url mediaType) := by
  have shape :
      putBlobUpdate url registered mediaType =
        Store.replacing
          (registered.map ShelfKey.graphIri ++ [url.iri, sysGraphOf url.iri])
          [[(sysGraphIri url, binaryEntries url mediaType)]] := by
    simp only [putBlobUpdate, Store.replacing, List.map_append,
      List.map_map, List.map_cons, List.map_nil, List.append_assoc,
      List.cons_append, List.nil_append]
    rfl
  rw [shape, Store.mem_applyAll_replacing]
  refine or_congr Iff.rfl ?_
  constructor
  · rintro ⟨blocks, isBlock, added, inBlock, inAdded⟩
    cases List.mem_singleton.mp isBlock
    cases List.mem_singleton.mp inBlock
    exact ⟨rfl, inAdded⟩
  · rintro ⟨rfl, isEntry⟩
    exact ⟨_, List.mem_cons_self, _, List.mem_cons_self, isEntry⟩

/-- The graphs `delete_subject` drops. -/
def cascadeDrops (url : ResourceUrl space) (registered : List ShelfKey) :
    List Text :=
  registered.map ShelfKey.graphIri ++ [url.iri, sysGraphOf url.iri] ++
    AuxKind.all.flatMap fun kind =>
      [(url.aux kind).iri, sysGraphOf (url.aux kind).iri]

/-- What `delete_subject` leaves in the graphs. -/
theorem mem_applyAll_deleteSubject
    {store : Store Text GroundTriple} {url : ResourceUrl space}
    {registered : List ShelfKey} {name : Text} {triple : GroundTriple} :
    triple ∈ store.applyAll (deleteSubjectUpdate url registered) name ↔
      triple ∈ store name ∧ name ∉ cascadeDrops url registered ∧
        ∀ parent,
          url.parent = some parent →
          ¬ (name = parent.resource.iri ∧
            triple = containmentTriple parent url.node) := by
  have shape :
      deleteSubjectUpdate url registered =
        (cascadeDrops url registered).map .drop ++
          (url.parent.map (containmentRemoval · url.node)).toList := by
    simp only [deleteSubjectUpdate, cascadeDrops, List.map_append,
      List.map_map, List.map_cons, List.map_nil, List.map_flatMap]
    cases url.parent with
    | none =>
        rfl
    | some parent =>
        rfl
  have dropped :
      triple ∈
          store.applyAll ((cascadeDrops url registered).map .drop) name ↔
        triple ∈ store name ∧ name ∉ cascadeDrops url registered := by
    rw [Store.applyAll_drop]
    by_cases isDropped : name ∈ cascadeDrops url registered
    · simp [isDropped]
    · simp [isDropped]
  rw [shape, Store.applyAll_append]
  cases isParent : url.parent with
  | none =>
      simpa using dropped
  | some parent =>
      have unlinked :
          ∀ graphs : Store Text GroundTriple,
            triple ∈
                graphs.applyAll [containmentRemoval parent url.node] name ↔
              triple ∈ graphs name ∧
                ¬ (name = parent.resource.iri ∧
                  triple = containmentTriple parent url.node) := by
        intro graphs
        change triple ∈
          Function.update graphs parent.resource.iri
            ((graphs parent.resource.iri).removeAll
              [containmentTriple parent url.node]) name ↔ _
        by_cases isGraph : name = parent.resource.iri
        · subst isGraph
          rw [Function.update_self, Graph.mem_removeAll]
          simp
        · rw [Function.update_of_ne isGraph]
          simp [isGraph]
      rw [Option.map_some, Option.toList_some, unlinked, dropped]
      simp [and_assoc]

/-! ## Writes of a resource -/

section Writes

variable [Sha256] [ObjectPath]

omit [Sha256] in
/-- Deleting an object leaves the graphs alone. -/
theorem graphs_after_deleteBlobCalls
    (world : World) (url : ResourceUrl space) :
    (backend.after world (deleteBlobCalls url)).graphs = world.graphs := by
  unfold deleteBlobCalls
  cases BlobKey.of url with
  | none =>
      rfl
  | some key =>
      rfl

/-- The graphs after a dataset was written. -/
theorem graphs_after_dataset
    (world : World) (url : ResourceUrl space) (body : Skolemized)
    (mediaType : Text) :
    (backend.after world
        ((StorageWrite.dataset url body mediaType).calls world)).graphs =
      world.graphs.applyAll
        (putDatasetUpdate url (world.registered url) (Buckets.of url body)
          mediaType) := by
  rw [StorageWrite.calls, Machine.after_cons, graphs_after_deleteBlobCalls]
  rfl

/-- The graphs after a binary was written. -/
theorem graphs_after_blob
    (world : World) (url : ResourceUrl space) (key : BlobKey) (bytes : Bytes)
    (mediaType : MediaType) :
    (backend.after world
        ((StorageWrite.blob url key bytes mediaType).calls world)).graphs =
      world.graphs.applyAll
        (putBlobUpdate url (world.registered url) mediaType) :=
  rfl

/-- The graphs after a subject was deleted. -/
theorem graphs_after_deleteSubject
    (world : World) (url : ResourceUrl space) :
    (backend.after world
        ((StorageWrite.deleteSubject url).calls world)).graphs =
      world.graphs.applyAll
        (deleteSubjectUpdate url (world.registered url)) := by
  rw [StorageWrite.calls, Machine.after_cons, graphs_after_deleteBlobCalls]
  rfl

theorem present_after_dataset
    (world : World) (url : ResourceUrl space) (body : Skolemized)
    (mediaType : Text) :
    (backend.after world
      ((StorageWrite.dataset url body mediaType).calls world)).present
        url.node = true := by
  rw [World.present_iff, graphs_after_dataset, mem_applyAll_putDataset]
  exact Or.inr (Or.inr (Or.inr ⟨rfl, List.mem_cons_self⟩))

theorem present_after_blob
    (world : World) (url : ResourceUrl space) (key : BlobKey) (bytes : Bytes)
    (mediaType : MediaType) :
    (backend.after world
      ((StorageWrite.blob url key bytes mediaType).calls world)).present
        url.node = true := by
  rw [World.present_iff, graphs_after_blob, mem_applyAll_putBlob]
  exact Or.inr ⟨rfl, List.mem_cons_self⟩

end Writes

end Quadpod
