import Quadpod.DatasetReads
import Quadpod.ReferencePod

namespace Quadpod

open AtomicProgram
open GraphStore

/-!
# Storing a dataset

What the update of `put_dataset` leaves is the dataset it was given, whatever
the resource held before and whatever registry the update was computed from.
The keys of the shelves are digests, so this needs a collision-free SHA-256, and
then the shelf of one named graph of one resource belongs to no other.
-/

variable [IriSyntax] [Sha256] {space : StorageSpace}

/-! ## Shelf keys -/

/-- No two texts have the same digest. -/
def CollisionFree : Prop :=
  Function.Injective (Sha256.hexDigest : List UInt8 → Text)

omit [IriSyntax] [Sha256] in
theorem shelfPreimage_eq (resource graphName : Text) :
    shelfPreimage resource graphName =
      Text.utf8 (resource ++ '\x00' :: graphName) := by
  rw [shelfPreimage, Text.utf8_append]
  rfl

omit [Sha256] in
/-- A URL ends at the zero byte, so the two names can be told apart. -/
theorem shelfPreimage_injective
    {first second : ResourceUrl space} {firstName secondName : Text}
    (same :
      shelfPreimage first.iri firstName =
        shelfPreimage second.iri secondName) :
    first = second ∧ firstName = secondName := by
  rw [shelfPreimage_eq, shelfPreimage_eq] at same
  have sameText := Text.utf8_injective same
  have upTo :
      ∀ (url : ResourceUrl space) (name : Text),
        (url.iri ++ '\x00' :: name).takeWhile (· != '\x00') = url.iri := by
    intro url name
    rw [List.takeWhile_append_of_pos]
    · simp
    · intro c member
      have noNul := IriSyntax.noNul url.iri url.valid
      simpa using fun isNul : c = '\x00' => noNul (isNul ▸ member)
  have sameIri : first.iri = second.iri := by
    rw [← upTo first firstName, sameText, upTo]
  refine ⟨ResourceUrl.iri_injective sameIri, ?_⟩
  rw [sameIri] at sameText
  simpa using sameText

theorem shelfIri_injective
    (collisionFree : CollisionFree)
    {first second : ResourceUrl space} {firstName secondName : Text}
    (same : shelfIri first.iri firstName = shelfIri second.iri secondName) :
    first = second ∧ firstName = secondName :=
  shelfPreimage_injective
    (collisionFree (List.append_cancel_left same))

theorem ShelfKey.of_injective
    (collisionFree : CollisionFree)
    {first second : ResourceUrl space} {firstName secondName : NamedNode}
    (same : ShelfKey.of first firstName = ShelfKey.of second secondName) :
    first = second ∧ firstName = secondName := by
  have sameIri :
      shelfIri first.iri firstName.iri = shelfIri second.iri secondName.iri :=
    congrArg ShelfKey.graphIri same
  obtain ⟨sameUrl, sameName⟩ := shelfIri_injective collisionFree sameIri
  exact ⟨sameUrl, NamedNode.ext_iri sameName⟩

omit [Sha256] in
theorem ShelfKey.ext_graphIri
    {first second : ShelfKey} (same : first.graphIri = second.graphIri) :
    first = second := by
  cases first
  cases second
  rw [ShelfKey.mk.injEq]
  exact NamedNode.ext_iri same

/-! ## Splitting a dataset -/

omit [Sha256] in
theorem mem_addToShelf
    {key other : ShelfKey} {name : NamedNode} {added triple : GroundTriple}
    {shelves : List Shelf} :
    (∃ shelf ∈ addToShelf key name added shelves,
        shelf.key = other ∧ triple ∈ shelf.triples) ↔
      (∃ shelf ∈ shelves, shelf.key = other ∧ triple ∈ shelf.triples) ∨
        (other = key ∧ triple = added) := by
  induction shelves with
  | nil =>
      simp [addToShelf, eq_comm]
  | cons first rest inductionHypothesis =>
      rw [addToShelf]
      split
      · next isKey =>
          simp only [List.mem_cons, exists_eq_or_imp, List.mem_append,
            List.not_mem_nil, or_false]
          constructor
          · rintro (⟨isOther, old | isAdded⟩ | inRest)
            · exact Or.inl (Or.inl ⟨isOther, old⟩)
            · exact Or.inr ⟨isOther.symm.trans isKey, isAdded⟩
            · exact Or.inl (Or.inr inRest)
          · rintro ((⟨isOther, old⟩ | inRest) | ⟨rfl, isAdded⟩)
            · exact Or.inl ⟨isOther, Or.inl old⟩
            · exact Or.inr inRest
            · exact Or.inl ⟨isKey, Or.inr isAdded⟩
      · simp only [List.mem_cons, exists_eq_or_imp]
        rw [inductionHypothesis, or_assoc]

/-- One pass of the splitting loop. -/
theorem mem_bucketsAdd
    {url : ResourceUrl space} {buckets : Buckets} {quad : GroundQuad}
    {triple : GroundTriple} :
    (triple ∈ (buckets.add url quad).defaultGraph ↔
        triple ∈ buckets.defaultGraph ∨
          triple.toQuad .defaultGraph = quad) ∧
      ∀ key,
        (∃ shelf ∈ (buckets.add url quad).shelves,
            shelf.key = key ∧ triple ∈ shelf.triples) ↔
          (∃ shelf ∈ buckets.shelves,
              shelf.key = key ∧ triple ∈ shelf.triples) ∨
            ∃ name,
              key = ShelfKey.of url name ∧
                triple.toQuad (.namedNode name) = quad := by
  obtain ⟨subject, predicate, object, graphName⟩ := quad
  obtain ⟨tripleSubject, triplePredicate, tripleObject⟩ := triple
  cases graphName with
  | defaultGraph =>
      simp [Buckets.add, GroundTriple.toQuad, GroundQuad.toTriple]
  | namedNode name =>
      refine ⟨by simp [Buckets.add, GroundTriple.toQuad], fun key => ?_⟩
      refine mem_addToShelf.trans (or_congr Iff.rfl ?_)
      simp only [GroundTriple.toQuad, GroundQuad.toTriple,
        GroundTriple.mk.injEq, GroundQuad.mk.injEq,
        GroundGraphName.namedNode.injEq]
      constructor
      · rintro ⟨rfl, rfl, rfl, rfl⟩
        exact ⟨name, rfl, rfl, rfl, rfl, rfl⟩
      · rintro ⟨other, rfl, rfl, rfl, rfl, rfl⟩
        exact ⟨rfl, rfl, rfl, rfl⟩

/-- What is on the shelves of a split dataset, and what is not shelved. -/
theorem mem_buckets
    {url : ResourceUrl space} {body : Skolemized} {triple : GroundTriple} :
    (triple ∈ (Buckets.of url body).defaultGraph ↔
        triple.toQuad .defaultGraph ∈ body.quads) ∧
      ∀ key,
        (∃ shelf ∈ (Buckets.of url body).shelves,
            shelf.key = key ∧ triple ∈ shelf.triples) ↔
          ∃ name,
            key = ShelfKey.of url name ∧
              triple.toQuad (.namedNode name) ∈ body.quads := by
  have loop :
      ∀ (quads : List GroundQuad) (buckets : Buckets),
        (triple ∈ (quads.foldl (Buckets.add url) buckets).defaultGraph ↔
            triple ∈ buckets.defaultGraph ∨
              triple.toQuad .defaultGraph ∈ quads) ∧
          ∀ key,
            (∃ shelf ∈ (quads.foldl (Buckets.add url) buckets).shelves,
                shelf.key = key ∧ triple ∈ shelf.triples) ↔
              (∃ shelf ∈ buckets.shelves,
                  shelf.key = key ∧ triple ∈ shelf.triples) ∨
                ∃ name,
                  key = ShelfKey.of url name ∧
                    triple.toQuad (.namedNode name) ∈ quads := by
    intro quads
    induction quads with
    | nil =>
        intro buckets
        simp
    | cons quad rest inductionHypothesis =>
        intro buckets
        obtain ⟨defaults, shelves⟩ :=
          inductionHypothesis (buckets.add url quad)
        rw [List.foldl_cons]
        constructor
        · rw [defaults, mem_bucketsAdd.1, List.mem_cons, or_assoc]
        · intro key
          rw [shelves key, mem_bucketsAdd.2 key, or_assoc]
          simp only [List.mem_cons, and_or_left, exists_or]
  have split := loop body.quads ⟨[], []⟩
  simpa [Buckets.of] using split

/-! ## What `put_dataset` leaves -/

section Leaves

variable {world : World} {store : Store Text GroundTriple}
variable {url : ResourceUrl space} {registered : List ShelfKey}
variable {body : Skolemized} {mediaType : Text}

/-- The system graph is the registry. -/
theorem mem_sys_putDataset
    {triple : GroundTriple}
    (isWritten :
      world.graphs =
        store.applyAll
          (putDatasetUpdate url registered (Buckets.of url body)
            mediaType)) :
    triple ∈ world.graphs (sysGraphOf url.iri) ↔
      triple ∈ registryOf url mediaType (Buckets.of url body).shelves := by
  rw [isWritten, mem_applyAll_putDataset]
  constructor
  · rintro (⟨_, kept⟩ | ⟨isGraph, _⟩ | ⟨shelf, inShelves, isGraph, _⟩ |
        ⟨_, inRegistry⟩)
    · exact (kept (by simp)).elim
    · exact (not_isHttp_sysGraphOf _ (isGraph ▸ url.isHttp)).elim
    · rw [Buckets.key_of_mem inShelves] at isGraph
      exact (shelfIri_ne_sysGraphOf _ _ _ isGraph.symm).elim
    · exact inRegistry
  · intro inRegistry
    exact Or.inr (Or.inr (Or.inr ⟨rfl, inRegistry⟩))

omit [Sha256] in
/-- What `put_dataset` registers never marks a resource as binary. -/
theorem not_binary_of_registryOf
    {shelves : List Shelf} :
    (⟨url.node, rdfType, .namedNode sysBinaryResource⟩ : GroundTriple) ∉
      registryOf url mediaType shelves := by
  have texts :
      sysPresentIri ≠ rdfTypeIri ∧ sysMediaTypeIri ≠ rdfTypeIri ∧
        sysHasSubgraphIri ≠ rdfTypeIri ∧ sysGraphNameIri ≠ rdfTypeIri := by
    decide
  intro member
  unfold registryOf at member
  rw [List.mem_cons, List.mem_cons, List.mem_flatMap] at member
  rcases member with isMarker | isMediaType | ⟨shelf, _, isEntry⟩
  · exact texts.1 (congrArg (·.predicate.iri) isMarker).symm
  · exact texts.2.1 (congrArg (·.predicate.iri) isMediaType).symm
  · simp only [List.mem_cons, List.not_mem_nil, or_false] at isEntry
    rcases isEntry with isSubgraph | isName
    · exact texts.2.2.1 (congrArg (·.predicate.iri) isSubgraph).symm
    · exact texts.2.2.2 (congrArg (·.predicate.iri) isName).symm

/-- A dataset is not marked as binary. -/
theorem not_binary_putDataset
    (isWritten :
      world.graphs =
        store.applyAll
          (putDatasetUpdate url registered (Buckets.of url body)
            mediaType)) :
    world.binary url = false :=
  decide_eq_false fun isMarked =>
    not_binary_of_registryOf ((mem_sys_putDataset isWritten).mp isMarked)

/-- The graph of the resource is the default graph. -/
theorem mem_graph_putDataset
    {triple : GroundTriple}
    (isWritten :
      world.graphs =
        store.applyAll
          (putDatasetUpdate url registered (Buckets.of url body)
            mediaType)) :
    triple ∈ world.graphs url.iri ↔
      triple.toQuad .defaultGraph ∈ body.quads := by
  rw [← mem_buckets.1, isWritten, mem_applyAll_putDataset]
  constructor
  · rintro (⟨_, kept⟩ | ⟨_, inDefault⟩ | ⟨shelf, inShelves, isGraph, _⟩ |
        ⟨isGraph, _⟩)
    · exact (kept (by simp)).elim
    · exact inDefault
    · rw [Buckets.key_of_mem inShelves] at isGraph
      exact (not_isHttp_shelfIri _ _ (isGraph ▸ url.isHttp)).elim
    · exact (not_isHttp_sysGraphOf _ (isGraph ▸ url.isHttp)).elim
  · intro inDefault
    exact Or.inr (Or.inl ⟨rfl, inDefault⟩)

/-- The shelf of a named graph holds that graph. -/
theorem mem_shelf_putDataset
    {name : NamedNode} {triple : GroundTriple}
    (collisionFree : CollisionFree)
    (isWritten :
      world.graphs =
        store.applyAll
          (putDatasetUpdate url registered (Buckets.of url body)
            mediaType))
    (isShelved :
      ShelfKey.of url name ∈ (Buckets.of url body).shelves.map Shelf.key) :
    triple ∈ world.graphs (ShelfKey.of url name).graphIri ↔
      triple.toQuad (.namedNode name) ∈ body.quads := by
  have onShelf :
      (∃ shelf ∈ (Buckets.of url body).shelves,
          shelf.key = ShelfKey.of url name ∧ triple ∈ shelf.triples) ↔
        triple.toQuad (.namedNode name) ∈ body.quads := by
    rw [mem_buckets.2]
    constructor
    · rintro ⟨other, isKey, inBody⟩
      rw [(ShelfKey.of_injective collisionFree isKey).2]
      exact inBody
    · intro inBody
      exact ⟨name, rfl, inBody⟩
  rw [← onShelf, isWritten, mem_applyAll_putDataset]
  constructor
  · rintro (⟨_, kept⟩ | ⟨isGraph, _⟩ | ⟨shelf, inShelves, isGraph, inShelf⟩ |
        ⟨isGraph, _⟩)
    · refine (kept ?_).elim
      obtain ⟨shelf, inShelves, isKey⟩ := List.mem_map.mp isShelved
      refine List.mem_append_left _ (List.mem_append_right _ ?_)
      exact List.mem_map.mpr ⟨shelf, inShelves, by rw [isKey]⟩
    · exact (not_isHttp_shelfIri _ _ (isGraph ▸ url.isHttp)).elim
    · exact ⟨shelf, inShelves, ShelfKey.ext_graphIri isGraph.symm, inShelf⟩
    · exact (shelfIri_ne_sysGraphOf _ _ _ isGraph).elim
  · rintro ⟨shelf, inShelves, isKey, inShelf⟩
    exact Or.inr (Or.inr (Or.inl ⟨shelf, inShelves, by rw [isKey], inShelf⟩))

omit [Sha256] in
/-- The predicates of the registry's entries are told apart. -/
theorem sysGraphName_ne :
    sysPresent ≠ sysGraphName ∧ sysMediaType ≠ sysGraphName ∧
      sysHasSubgraph ≠ sysGraphName := by
  have texts :
      sysPresentIri ≠ sysGraphNameIri ∧ sysMediaTypeIri ≠ sysGraphNameIri ∧
        sysHasSubgraphIri ≠ sysGraphNameIri := by
    decide
  exact ⟨fun same => texts.1 (congrArg NamedNode.iri same),
    fun same => texts.2.1 (congrArg NamedNode.iri same),
    fun same => texts.2.2 (congrArg NamedNode.iri same)⟩

omit [Sha256] in
/-- What a registry says about the names of shelves. -/
theorem mem_registryOf_graphName
    {shelves : List Shelf} {subject : NamedNode} {object : GroundTerm} :
    (⟨subject, sysGraphName, object⟩ : GroundTriple) ∈
        registryOf url mediaType shelves ↔
      ∃ shelf ∈ shelves,
        shelf.key.node = subject ∧ object = .namedNode shelf.name := by
  obtain ⟨notPresent, notMediaType, notSubgraph⟩ := sysGraphName_ne
  unfold registryOf
  rw [List.mem_cons, List.mem_cons, List.mem_flatMap]
  constructor
  · rintro (isMarker | isMediaType | ⟨shelf, inShelves, isEntry⟩)
    · exact (notPresent (congrArg GroundTriple.predicate isMarker).symm).elim
    · exact (notMediaType
        (congrArg GroundTriple.predicate isMediaType).symm).elim
    · simp only [List.mem_cons, List.not_mem_nil, or_false] at isEntry
      rcases isEntry with isSubgraph | isName
      · exact (notSubgraph
          (congrArg GroundTriple.predicate isSubgraph).symm).elim
      · cases isName
        exact ⟨shelf, inShelves, rfl, rfl⟩
  · rintro ⟨shelf, inShelves, rfl, rfl⟩
    exact Or.inr (Or.inr ⟨shelf, inShelves, by simp⟩)

omit [Sha256] in
/-- What a registry says about which shelves there are. -/
theorem mem_registryOf_hasSubgraph
    {shelves : List Shelf} {node : NamedNode} :
    (⟨url.node, sysHasSubgraph, .namedNode node⟩ : GroundTriple) ∈
        registryOf url mediaType shelves ↔
      ∃ shelf ∈ shelves, shelf.key.node = node := by
  obtain ⟨notPresent, notMediaType, notName, _⟩ := sysHasSubgraph_ne
  unfold registryOf
  rw [List.mem_cons, List.mem_cons, List.mem_flatMap]
  constructor
  · rintro (isMarker | isMediaType | ⟨shelf, inShelves, isEntry⟩)
    · exact (notPresent (congrArg GroundTriple.predicate isMarker).symm).elim
    · exact (notMediaType
        (congrArg GroundTriple.predicate isMediaType).symm).elim
    · simp only [List.mem_cons, List.not_mem_nil, or_false] at isEntry
      rcases isEntry with isSubgraph | isName
      · cases isSubgraph
        exact ⟨shelf, inShelves, rfl⟩
      · exact (notName (congrArg GroundTriple.predicate isName).symm).elim
  · rintro ⟨shelf, inShelves, rfl⟩
    exact Or.inr (Or.inr ⟨shelf, inShelves, by simp⟩)

/-- A registered shelf is one of the dataset, and the registry names it. -/
theorem shelfName_putDataset
    {shelf : Shelf}
    (collisionFree : CollisionFree)
    (isWritten :
      world.graphs =
        store.applyAll
          (putDatasetUpdate url registered (Buckets.of url body)
            mediaType))
    (inShelves : shelf ∈ (Buckets.of url body).shelves) :
    shelf.key ∈ world.registered url ∧
      world.shelfName url shelf.key = some shelf.name := by
  constructor
  · rw [World.mem_registered, mem_sys_putDataset isWritten,
      mem_registryOf_hasSubgraph]
    exact ⟨shelf, inShelves, rfl⟩
  · refine World.shelfName_eq_some ?_ ?_
    · rw [mem_sys_putDataset isWritten, mem_registryOf_graphName]
      exact ⟨shelf, inShelves, rfl, rfl⟩
    · intro object isThere
      rw [mem_sys_putDataset isWritten, mem_registryOf_graphName] at isThere
      obtain ⟨other, isOther, sameNode, rfl⟩ := isThere
      have sameKey : other.key = shelf.key := by
        rw [ShelfKey.mk.injEq]
        exact sameNode
      rw [Buckets.key_of_mem isOther, Buckets.key_of_mem inShelves]
        at sameKey
      rw [(ShelfKey.of_injective collisionFree sameKey).2]

/-- After the update of `put_dataset` the world holds its dataset. -/
theorem holds_of_putDataset
    (collisionFree : CollisionFree)
    (isWritten :
      world.graphs =
        store.applyAll
          (putDatasetUpdate url registered (Buckets.of url body)
            mediaType)) :
    world.Holds url body := by
  refine ⟨?_, fun triple => mem_graph_putDataset isWritten, ?_, ?_⟩
  · rw [World.present_iff]
    exact (mem_sys_putDataset isWritten).mpr List.mem_cons_self
  · intro key isRegistered
    rw [World.mem_registered, mem_sys_putDataset isWritten,
      mem_registryOf_hasSubgraph] at isRegistered
    obtain ⟨shelf, inShelves, sameNode⟩ := isRegistered
    obtain rfl : shelf.key = key := by
      rw [ShelfKey.mk.injEq]
      exact sameNode
    refine ⟨shelf.name,
      (shelfName_putDataset collisionFree isWritten inShelves).2, ?_⟩
    intro triple
    have isKey := Buckets.key_of_mem inShelves
    rw [isKey]
    refine mem_shelf_putDataset collisionFree isWritten ?_
    rw [← isKey]
    exact List.mem_map_of_mem inShelves
  · intro name triple inBody
    obtain ⟨shelf, inShelves, isKey, _⟩ :=
      (mem_buckets.2 (ShelfKey.of url name)).mpr ⟨name, rfl, inBody⟩
    have named := shelfName_putDataset collisionFree isWritten inShelves
    have sameName : shelf.name = name := by
      have isShelfKey := Buckets.key_of_mem inShelves
      rw [isKey] at isShelfKey
      exact (ShelfKey.of_injective collisionFree isShelfKey).2.symm
    rw [isKey, sameName] at named
    exact named

end Leaves

/-! ## The round trip -/

/-- With collision-free digests a resource owns nothing of another one. -/
theorem ResourceUrl.not_owns_other
    (collisionFree : CollisionFree)
    {url other : ResourceUrl space} {name : Text}
    (different : other ≠ url)
    (owns : other.Owns name) :
    ¬ url.Owns name := by
  intro ownsToo
  rcases owns with rfl | rfl | ⟨label, rfl⟩
  · exact different (ResourceUrl.Owns.eq_of_iri (Or.inl ownsToo)).symm
  · exact different (ResourceUrl.Owns.eq_of_iri (Or.inr ownsToo)).symm
  · rcases ownsToo with isGraph | isGraph | ⟨otherLabel, same⟩
    · exact not_isHttp_shelfIri _ _ (isGraph ▸ url.isHttp)
    · exact shelfIri_ne_sysGraphOf _ _ _ isGraph
    · exact different (shelfIri_injective collisionFree same).1

section Reachable

variable [ObjectPath] [QuadText]
variable [RdfParser] [RdfSerializer] [ShapeEngine] [N3Parser]
variable {storeVersion : RdfVersion}

/--
In every world a provisioned pod reaches, a dataset that `put_dataset` stored is
what `get_dataset` returns, quad for quad and with nothing of what was there
before, and no graph of another resource or of an auxiliary has changed.
-/
theorem putDataset_round_trip
    {world : World}
    (collisionFree : CollisionFree)
    (reachable :
      Reachable space storeVersion (Provisioned space) anyRequest world)
    (url : ResourceUrl space) (body : Skolemized) (format : Format)
    (faults : Faults) :
    let outcome :=
      Program.run backend (putDataset url body format) faults world
    ((∀ fault ∈ faults, fault = none) → outcome.result = .ok ()) ∧
      (outcome.result = .ok () →
        (∃ returned,
            Program.eval backend (getDataset url) outcome.world =
                (.ok (some returned), outcome.world) ∧
              ∀ quad, quad ∈ returned.quads ↔ quad ∈ body.quads) ∧
          (∀ name,
            ¬ url.Owns name →
            outcome.world.graphs name = world.graphs name) ∧
          (∀ other : ResourceUrl space,
            other ≠ url →
            ∀ name,
              other.Owns name →
              outcome.world.graphs name = world.graphs name) ∧
          ∀ (aux : AuxUrl space) name,
            aux.Owns name →
            outcome.world.graphs name = world.graphs name) := by
  intro outcome
  have owned : world.RegistersOwn space :=
    reachable.registersOwn fun _ provisioned => provisioned.registersOwn
  have carries :
      Carries True world
        ((StorageWrite.dataset url body format.mediaType).calls world)
        outcome.result outcome.world :=
    ensures_putDataset True url body format world faults (Or.inl trivial)
  have frame :
      ∀ name,
        ¬ url.Owns name →
        outcome.world.graphs name = world.graphs name := by
    intro name notOwned
    exact Performs.graphs_eq carries.performs fun call member touched =>
      notOwned (StorageWrite.calls_touch owned member touched)
  constructor
  · intro noFaults
    have answered :
        Carries False world
          ((StorageWrite.dataset url body format.mediaType).calls world)
          outcome.result outcome.world :=
      ensures_putDataset False url body format world faults
        (Or.inr noFaults)
    cases isResult : outcome.result with
    | ok value =>
        rfl
    | error error =>
        exact (answered.failed error isResult).elim
  · intro succeeded
    refine ⟨?_, frame, ?_, ?_⟩
    · have isWritten :
          outcome.world.graphs =
            world.graphs.applyAll
              (putDatasetUpdate url (world.registered url)
                (Buckets.of url body) format.mediaType) := by
        rw [carries.complete () succeeded]
        exact graphs_after_dataset world url body format.mediaType
      exact (holds_of_putDataset collisionFree isWritten).eval_getDataset
    · intro other different name owns
      exact frame name
        (ResourceUrl.not_owns_other collisionFree different owns)
    · intro aux name owns
      exact frame name (ResourceUrl.not_owns_of_aux owns)

end Reachable

end Quadpod

namespace Quadpod.Reference

open AtomicProgram

theorem collisionFree : CollisionFree :=
  flatMap_hexByte_injective

/-- Two graphs, one of them under the name of another resource. -/
def twoGraphs : Skolemized where
  quads :=
    [⟨owner, plainPredicate, .namedNode owner, .defaultGraph⟩,
      ⟨owner, plainPredicate, .namedNode owner, .namedNode noteFolder.node⟩]

/-- They replace the statement that was stored before. -/
theorem putDataset_round_trip_note :
    ∃ returned,
      Program.eval backend (getDataset note)
          (Program.run backend (putDataset note twoGraphs .triG) []
            notedWorld).world =
        (.ok (some returned),
          (Program.run backend (putDataset note twoGraphs .triG) []
            notedWorld).world) ∧
        ∀ quad, quad ∈ returned.quads ↔ quad ∈ twoGraphs.quads := by
  obtain ⟨succeeds, stores⟩ :=
    putDataset_round_trip collisionFree reachable_notedWorld note twoGraphs
      .triG []
  exact (stores (succeeds (by simp))).1

end Quadpod.Reference
