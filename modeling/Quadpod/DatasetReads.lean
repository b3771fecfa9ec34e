import Quadpod.ExactWrites
import Quadpod.Traversal

namespace Quadpod

open AtomicProgram
open GraphStore

/-!
# Reading a dataset back

`get_dataset` puts a dataset together from the graph of the resource, the
registry in its system graph and one shelf for each named graph.  A world holds
a dataset when these say nothing else, and then reading returns its quads.
-/

variable [IriSyntax] {space : StorageSpace}

/-! ## Evaluating the reads -/

theorem eval_existsAt {Url : Type} [GraphUrl Url]
    (world : World) (url : Url) :
    Program.eval backend (exists? url) world =
      (.ok (world.present (GraphUrl.graphNode url)), world) := by
  have asked :
      world.graphs.satisfies
          [(sysGraphIri url, presenceMarker (GraphUrl.graphNode url))] =
        world.present (GraphUrl.graphNode url) := by
    simp [Store.satisfies, World.present]
    rfl
  rw [exists?, StoreProgram.eval_issue rfl, asked]
  rfl

theorem eval_exists
    (world : World) (url : ResourceUrl space) :
    Program.eval backend (exists? url) world =
      (.ok (world.present url.node), world) :=
  eval_existsAt world url

/-- Reading the one graph of a target. -/
theorem eval_getRdf
    (world : World) (target : Target space) :
    Program.eval backend (getRdf target) world =
      (.ok (if world.present target.node then
        some (world.triplesOf (graphIri target)) else none), world) := by
  have asked :
      Program.eval backend (exists? target) world =
        (.ok (world.present target.node), world) :=
    eval_existsAt world target
  rw [getRdf, Program.eval_bind_ok asked]
  cases world.present target.node with
  | false =>
      rfl
  | true =>
      rw [if_pos rfl, if_pos rfl,
        StoreProgram.eval_read_bind ⟨rfl, fun _ => rfl⟩ rfl]
      simp [World.triplesOf, Program.pure_eq]

theorem eval_registeredShelves
    (world : World) (url : ResourceUrl space) :
    Program.eval backend (registeredShelves url) world =
      (.ok (world.registered url), world) := by
  rw [registeredShelves, StoreProgram.eval_issue_bind rfl]
  rfl

/-- The name the registry gives a shelf. -/
def World.shelfName
    (world : World) (url : ResourceUrl space) (key : ShelfKey) :
    Option NamedNode :=
  (objectNodes (((world.graphs (sysGraphIri url)).triples.filter
    fun triple =>
      (some key.node).all (· = triple.subject) &&
        (some sysGraphName).all (· = triple.predicate)).map
          GroundTriple.toTriple)).findSome? fun node => NamedNode.new node.iri

/-- The quads of a shelf, once its name is known. -/
def World.shelfQuads
    (world : World) (url : ResourceUrl space) (key : ShelfKey) :
    List GroundQuad :=
  (world.shelfName url key).toList.flatMap fun name =>
    (world.graphs key.graphIri).triples.map (·.toQuad (.namedNode name))

/-- The quads `get_dataset` collects. -/
def World.datasetQuads (world : World) (url : ResourceUrl space) :
    List GroundQuad :=
  (world.graphs url.iri).triples.map (·.toQuad .defaultGraph) ++
    (world.registered url).flatMap (world.shelfQuads url)

theorem eval_shelfQuads
    {world : World} {url : ResourceUrl space} {keys : List ShelfKey}
    (named : ∀ key ∈ keys, (world.shelfName url key).isSome = true) :
    Program.eval backend (shelfQuads url keys) world =
      (.ok ((keys.flatMap (world.shelfQuads url)).map GroundQuad.toQuad),
        world) := by
  induction keys with
  | nil =>
      rfl
  | cons key rest inductionHypothesis =>
      obtain ⟨name, isName⟩ :=
        Option.isSome_iff_exists.mp (named key (by simp))
      have others :=
        inductionHypothesis fun other member => named other (by simp [member])
      have found :
          (objectNodes
            (((world.graphs (sysGraphIri url)).triples.filter fun triple =>
              (some key.node).all (· = triple.subject) &&
                (some sysGraphName).all (· = triple.predicate)).map
                  GroundTriple.toTriple)).findSome?
              (fun node => NamedNode.new node.iri) = some name :=
        isName
      rw [shelfQuads, StoreProgram.eval_read_bind ⟨rfl, fun _ => rfl⟩ rfl,
        found]
      dsimp only
      rw [StoreProgram.eval_read_bind ⟨rfl, fun _ => rfl⟩ rfl,
        Program.eval_bind_ok others, List.flatMap_cons, List.map_append,
        World.shelfQuads, isName]
      simp [Program.pure_eq, GroundTriple.toQuad, GroundQuad.toQuad,
        GroundTriple.toTriple, Function.comp_def]

/-- Ground quads come back from the store as they are. -/
theorem fromStore_toQuad (quads : List GroundQuad) :
    Skolemized.fromStore (quads.map GroundQuad.toQuad) = some ⟨quads⟩ := by
  have grounds :
      ∀ quad : GroundQuad,
        Skolemized.groundQuadOf quad.toQuad = some quad := by
    rintro ⟨subject, predicate, object, graphName⟩
    cases graphName with
    | defaultGraph =>
        simp [Skolemized.groundQuadOf, GroundQuad.toQuad,
          Skolemized.groundOf_toTerm]
    | namedNode name =>
        simp [Skolemized.groundQuadOf, GroundQuad.toQuad,
          Skolemized.groundOf_toTerm]
  rw [Skolemized.fromStore, Traversal.map_some grounds]
  rfl

/-- Reading a dataset whose shelves are all named. -/
theorem eval_getDataset
    {world : World} {url : ResourceUrl space}
    (isPresent : world.present url.node = true)
    (named :
      ∀ key ∈ world.registered url,
        (world.shelfName url key).isSome = true) :
    Program.eval backend (getDataset url) world =
      (.ok (some ⟨world.datasetQuads url⟩), world) := by
  have collected :
      ((((world.graphs (graphIri url)).triples.filter fun triple =>
          (none : Option NamedNode).all (· = triple.subject) &&
            (none : Option NamedNode).all (· = triple.predicate)).map
              GroundTriple.toTriple).map fun triple =>
        (⟨triple.subject, triple.predicate, triple.object,
          .defaultGraph⟩ : Quad)) ++
          ((world.registered url).flatMap (world.shelfQuads url)).map
            GroundQuad.toQuad =
        (world.datasetQuads url).map GroundQuad.toQuad := by
    rw [World.datasetQuads, List.map_append]
    simp [GroundTriple.toQuad, GroundQuad.toQuad, GroundTriple.toTriple,
      Function.comp_def]
    rfl
  rw [getDataset, Program.eval_bind_ok (eval_exists world url), isPresent]
  rw [if_pos rfl, StoreProgram.eval_read_bind ⟨rfl, fun _ => rfl⟩ rfl,
    Program.eval_bind_ok (eval_registeredShelves world url),
    Program.eval_bind_ok (eval_shelfQuads named)]
  dsimp only
  rw [collected, fromStore_toQuad]
  rfl

/-- Reading what does not exist. -/
theorem eval_getDataset_absent
    {world : World} {url : ResourceUrl space}
    (isAbsent : world.present url.node = false) :
    Program.eval backend (getDataset url) world = (.ok none, world) := by
  rw [getDataset, Program.eval_bind_ok (eval_exists world url), isAbsent]
  rfl

/-- The name of a shelf the registry names once. -/
theorem World.shelfName_eq_some
    {world : World} {url : ResourceUrl space} {key : ShelfKey}
    {name : NamedNode}
    (isNamed :
      (⟨key.node, sysGraphName, .namedNode name⟩ : GroundTriple) ∈
        world.graphs (sysGraphOf url.iri))
    (unique :
      ∀ object,
        (⟨key.node, sysGraphName, object⟩ : GroundTriple) ∈
          world.graphs (sysGraphOf url.iri) →
        object = .namedNode name) :
    world.shelfName url key = some name := by
  unfold shelfName
  cases isNames :
      objectNodes (((world.graphs (sysGraphIri url)).triples.filter
        fun triple =>
          (some key.node).all (· = triple.subject) &&
            (some sysGraphName).all (· = triple.predicate)).map
              GroundTriple.toTriple) with
  | nil =>
      have isThere : name ∈ ([] : List NamedNode) := by
        rw [← isNames]
        refine mem_objectNodes.mpr ⟨_, List.mem_map.mpr
          ⟨_, List.mem_filter.mpr ⟨isNamed, ?_⟩, rfl⟩, rfl⟩
        simp
      cases isThere
  | cons first rest =>
      have isFirst : first = name := by
        have member : first ∈ first :: rest := List.mem_cons_self
        rw [← isNames] at member
        obtain ⟨triple, isTriple, isObject⟩ := mem_objectNodes.mp member
        obtain ⟨stored, isStored, rfl⟩ := List.mem_map.mp isTriple
        obtain ⟨inGraph, matched⟩ := List.mem_filter.mp isStored
        simp only [Option.all_some, Bool.and_eq_true,
          decide_eq_true_eq] at matched
        obtain ⟨subject, predicate, object⟩ := stored
        obtain ⟨rfl, rfl⟩ := matched
        have isName := unique object inGraph
        have isFirst : object = .namedNode first :=
          GroundTerm.toTerm_eq_namedNode.mp isObject
        exact GroundTerm.namedNode.inj (isFirst.symm.trans isName)
      rw [List.findSome?_cons, isFirst, NamedNode.new_iri]

/-- A shelf without a name stops the reading. -/
theorem eval_shelfQuads_unnamed
    {world : World} {url : ResourceUrl space} {keys : List ShelfKey}
    (unnamed : ∃ key ∈ keys, world.shelfName url key = none) :
    (Program.eval backend (shelfQuads url keys) world).1 =
      .error .invalidIri := by
  induction keys with
  | nil =>
      obtain ⟨key, member, _⟩ := unnamed
      cases member
  | cons key rest inductionHypothesis =>
      rw [shelfQuads, StoreProgram.eval_read_bind ⟨rfl, fun _ => rfl⟩ rfl]
      have asked :
          (objectNodes
            (((world.graphs (sysGraphIri url)).triples.filter fun triple =>
              (some key.node).all (· = triple.subject) &&
                (some sysGraphName).all (· = triple.predicate)).map
                  GroundTriple.toTriple)).findSome?
              (fun node => NamedNode.new node.iri) = world.shelfName url key :=
        rfl
      rw [asked]
      cases isName : world.shelfName url key with
      | none =>
          rfl
      | some name =>
          have later :
              ∃ other ∈ rest, world.shelfName url other = none := by
            obtain ⟨other, member, isNone⟩ := unnamed
            rcases List.mem_cons.mp member with rfl | inRest
            · rw [isName] at isNone
              cases isNone
            · exact ⟨other, inRest, isNone⟩
          have stopped := inductionHypothesis later
          dsimp only
          rw [StoreProgram.eval_read_bind ⟨rfl, fun _ => rfl⟩ rfl,
            Program.eval_bind]
          cases isRest : Program.eval backend (shelfQuads url rest) world with
          | mk result after =>
              rw [isRest] at stopped
              dsimp only at stopped
              rw [stopped]

/-- A dataset that could be read is the one the world's graphs say. -/
theorem getDataset_eq_some
    {world : World} {url : ResourceUrl space} {stored : Skolemized}
    (isRead :
      (Program.eval backend (getDataset url) world).1 = .ok (some stored)) :
    world.present url.node = true ∧ stored = ⟨world.datasetQuads url⟩ := by
  cases isPresent : world.present url.node with
  | false =>
      rw [eval_getDataset_absent isPresent] at isRead
      cases isRead
  | true =>
      refine ⟨rfl, ?_⟩
      by_cases named :
          ∀ key ∈ world.registered url,
            (world.shelfName url key).isSome = true
      · rw [eval_getDataset isPresent named] at isRead
        cases isRead
        rfl
      · exfalso
        have unnamed :
            ∃ key ∈ world.registered url, world.shelfName url key = none := by
          simpa using named
        have stopped := eval_shelfQuads_unnamed unnamed
        rw [getDataset, Program.eval_bind_ok (eval_exists world url),
          isPresent, if_pos rfl,
          StoreProgram.eval_read_bind ⟨rfl, fun _ => rfl⟩ rfl,
          Program.eval_bind_ok (eval_registeredShelves world url),
          Program.eval_bind] at isRead
        cases isShelved :
            Program.eval backend (shelfQuads url (world.registered url))
              world with
        | mk result after =>
            rw [isShelved] at stopped isRead
            dsimp only at stopped
            rw [stopped] at isRead
            cases isRead

/-- The name of a shelf is in the registry. -/
theorem World.mem_of_shelfName
    {world : World} {url : ResourceUrl space} {key : ShelfKey}
    {name : NamedNode}
    (isName : world.shelfName url key = some name) :
    (⟨key.node, sysGraphName, .namedNode name⟩ : GroundTriple) ∈
      world.graphs (sysGraphOf url.iri) := by
  unfold shelfName at isName
  obtain ⟨node, isNode, isNew⟩ := List.exists_of_findSome?_eq_some isName
  obtain rfl : node = name := NamedNode.ext_iri (NamedNode.new_eq_some.mp isNew).symm
  obtain ⟨triple, isTriple, isObject⟩ := mem_objectNodes.mp isNode
  obtain ⟨stored, isStored, rfl⟩ := List.mem_map.mp isTriple
  obtain ⟨inGraph, matched⟩ := List.mem_filter.mp isStored
  simp only [Option.all_some, Bool.and_eq_true, decide_eq_true_eq] at matched
  obtain ⟨subject, predicate, object⟩ := stored
  obtain ⟨rfl, rfl⟩ := matched
  obtain rfl : object = .namedNode node :=
    GroundTerm.toTerm_eq_namedNode.mp isObject
  exact inGraph

/-! ## Kinds -/

/-- Whether a resource is marked as binary. -/
def World.binary (world : World) (url : ResourceUrl space) : Bool :=
  (⟨url.node, rdfType, .namedNode sysBinaryResource⟩ : GroundTriple) ∈
    world.graphs (sysGraphOf url.iri)

/-- The media type the system graph records. -/
def World.storedMediaType (world : World) (url : ResourceUrl space) :
    Option MediaType :=
  (((world.graphs (sysGraphIri url)).triples.filter fun triple =>
    (some url.node).all (· = triple.subject) &&
      (some sysMediaType).all (· = triple.predicate)).map
        GroundTriple.toTriple).findSome? fun triple =>
    match triple.object with
    | .literal content => MediaType.parse content.value
    | _ => none

/-- The kind of representation a resource has. -/
def World.kindOf (world : World) (url : ResourceUrl space) :
    Except ResourceError (Option Kind) :=
  if world.present url.node then
    if world.binary url then
      match world.storedMediaType url with
      | some mediaType => .ok (some (.binary mediaType))
      | none => .error .binaryWithoutMediaType
    else
      .ok (some .rdf)
  else
    .ok none

theorem eval_storedMediaType
    (world : World) (url : ResourceUrl space) :
    Program.eval backend (storedMediaType url) world =
      (.ok (world.storedMediaType url), world) := by
  rw [storedMediaType, StoreProgram.eval_issue_bind rfl]
  rfl

/-- `kind_of` reads the kind and changes nothing. -/
theorem eval_kindOf
    (world : World) (url : ResourceUrl space) :
    Program.eval backend (kindOf url) world = (world.kindOf url, world) := by
  have asked :
      world.graphs.satisfies
          [(sysGraphIri url,
            ⟨url.node, rdfType, .namedNode sysBinaryResource⟩)] =
        world.binary url := by
    simp [Store.satisfies, World.binary]
    rfl
  rw [Quadpod.kindOf, Program.eval_bind_ok (eval_exists world url),
    World.kindOf]
  cases world.present url.node with
  | false =>
      rfl
  | true =>
      rw [if_pos rfl, if_pos rfl,
        StoreProgram.eval_read_bind ⟨rfl, fun _ => rfl⟩ rfl, asked]
      cases world.binary url with
      | false =>
          rfl
      | true =>
          rw [if_pos rfl, if_pos rfl,
            Program.eval_bind_ok (eval_storedMediaType world url)]
          cases world.storedMediaType url with
          | none =>
              rfl
          | some mediaType =>
              rfl

/-! ## Holding a dataset -/

section Shelves

variable [Sha256]

/-- A world says of a resource exactly the quads of a dataset. -/
structure World.Holds
    (world : World) (url : ResourceUrl space) (body : Skolemized) :
    Prop where
  present : world.present url.node = true
  defaultGraph :
    ∀ triple,
      triple ∈ world.graphs url.iri ↔
        triple.toQuad .defaultGraph ∈ body.quads
  shelved :
    ∀ key ∈ world.registered url,
      ∃ name,
        world.shelfName url key = some name ∧
          ∀ triple,
            triple ∈ world.graphs key.graphIri ↔
              triple.toQuad (.namedNode name) ∈ body.quads
  complete :
    ∀ (name : NamedNode) (triple : GroundTriple),
      triple.toQuad (.namedNode name) ∈ body.quads →
      ShelfKey.of url name ∈ world.registered url ∧
        world.shelfName url (ShelfKey.of url name) = some name

omit [Sha256] in
theorem World.mem_shelfQuads
    {world : World} {url : ResourceUrl space} {key : ShelfKey}
    {quad : GroundQuad} :
    quad ∈ world.shelfQuads url key ↔
      ∃ name triple,
        world.shelfName url key = some name ∧
          triple ∈ world.graphs key.graphIri ∧
          quad = triple.toQuad (.namedNode name) := by
  simp only [shelfQuads, List.mem_flatMap, Option.mem_toList, List.mem_map]
  constructor
  · rintro ⟨name, isName, triple, isThere, rfl⟩
    exact ⟨name, triple, isName, isThere, rfl⟩
  · rintro ⟨name, triple, isName, isThere, rfl⟩
    exact ⟨name, isName, triple, isThere, rfl⟩

theorem World.Holds.mem_datasetQuads
    {world : World} {url : ResourceUrl space} {body : Skolemized}
    (holds : world.Holds url body) {quad : GroundQuad} :
    quad ∈ world.datasetQuads url ↔ quad ∈ body.quads := by
  rw [World.datasetQuads, List.mem_append, List.mem_map, List.mem_flatMap]
  constructor
  · rintro (⟨triple, isThere, rfl⟩ | ⟨key, isRegistered, inShelf⟩)
    · exact (holds.defaultGraph triple).mp isThere
    · obtain ⟨name, triple, isName, isThere, rfl⟩ :=
        World.mem_shelfQuads.mp inShelf
      obtain ⟨other, isOther, contents⟩ := holds.shelved key isRegistered
      obtain rfl : other = name := by
        simpa using isOther.symm.trans isName
      exact (contents triple).mp isThere
  · intro inBody
    obtain ⟨subject, predicate, object, graphName⟩ := quad
    cases graphName with
    | defaultGraph =>
        exact Or.inl ⟨⟨subject, predicate, object⟩,
          (holds.defaultGraph ⟨subject, predicate, object⟩).mpr inBody, rfl⟩
    | namedNode name =>
        obtain ⟨isRegistered, isName⟩ :=
          holds.complete name ⟨subject, predicate, object⟩ inBody
        obtain ⟨other, isOther, contents⟩ := holds.shelved _ isRegistered
        obtain rfl : other = name := by
          simpa using isOther.symm.trans isName
        exact Or.inr ⟨_, isRegistered, World.mem_shelfQuads.mpr
          ⟨other, ⟨subject, predicate, object⟩, isName,
            (contents ⟨subject, predicate, object⟩).mpr inBody, rfl⟩⟩

/-- Reading a dataset a world holds returns its quads. -/
theorem World.Holds.eval_getDataset
    {world : World} {url : ResourceUrl space} {body : Skolemized}
    (holds : world.Holds url body) :
    ∃ returned,
      Program.eval backend (getDataset url) world =
          (.ok (some returned), world) ∧
        ∀ quad, quad ∈ returned.quads ↔ quad ∈ body.quads := by
  refine ⟨⟨world.datasetQuads url⟩, ?_, fun quad => holds.mem_datasetQuads⟩
  refine Quadpod.eval_getDataset holds.present fun key isRegistered => ?_
  obtain ⟨name, isName, _⟩ := holds.shelved key isRegistered
  rw [isName]
  rfl

end Shelves

end Quadpod
