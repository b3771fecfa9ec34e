import Quadpod.Patch
import Quadpod.Space

namespace Quadpod

open AtomicProgram
open GraphStore

/-!
# Storage operations on graphs

`resource.rs` with the keys of `shelf.rs` and `blob.rs`.  A resource is spread
over its own graph, a system graph that holds server-asserted facts about it,
one shelf for each named graph of its dataset, and possibly one object.
Existence is a stored fact: the presence marker in the system graph.
-/

variable [IriSyntax]

/-! ## Names and keys -/

/-- `resource::sys_graph_iri`, for a graph IRI. -/
def sysGraphOf (iri : Text) : Text :=
  "urn:quadpod:sys:".toList ++ iri

/-- `resource::sys_graph_iri` -/
def sysGraphIri {Url : Type} [GraphUrl Url] (url : Url) : Text :=
  sysGraphOf (graphIri url)

/-- `ShelfKey`: a store graph holding one named graph of one resource. -/
structure ShelfKey where
  node : NamedNode
  deriving DecidableEq

/-- The namespace of shelf keys. -/
def shelfPrefix : Text := "urn:quadpod:subgraph:".toList

omit [IriSyntax] in
theorem isPlain_of_digest [Sha256] (bytes : List UInt8) :
    ∀ c ∈ "subgraph:".toList ++ Sha256.hexDigest bytes,
      isPlain c = true ∨ c = ':' := by
  intro c member
  rw [List.mem_append] at member
  rcases member with inName | inDigest
  · have checked :
        ("subgraph:".toList.all fun c => isPlain c || c == ':') = true := by
      decide
    simpa using List.all_eq_true.mp checked c inName
  · left
    simp [isPlain, Sha256.hex bytes c inDigest]

/-- What `ShelfKey::of` hashes: the two names with a zero byte between. -/
def shelfPreimage (resource graphName : Text) : List UInt8 :=
  Text.utf8 resource ++ 0 :: Text.utf8 graphName

/-- `ShelfKey::of` -/
def ShelfKey.of [Sha256] {space : StorageSpace}
    (resource : ResourceUrl space) (graphName : NamedNode) : ShelfKey where
  node :=
    { iri :=
        shelfPrefix ++
          Sha256.hexDigest (shelfPreimage (graphIri resource) graphName.iri)
      valid := by
        have minted :=
          IriSyntax.minted _
            (isPlain_of_digest (shelfPreimage (graphIri resource) graphName.iri))
        rw [← List.append_assoc] at minted
        exact minted }

/-- `ShelfKey::from_registry` -/
def ShelfKey.fromRegistry (node : NamedNode) : ShelfKey where
  node := node

/-- `ShelfKey::graph_iri` -/
def ShelfKey.graphIri (key : ShelfKey) : Text :=
  key.node.iri

/--
How `object_store::path::PathPart` encodes one segment of a path: it escapes
what a backend could misread, its own escape character included, so no two
segments are encoded alike, an encoded segment has no slash in it, and only the
empty one is empty.
-/
class ObjectPath where
  encode : Text → Text
  injective : Function.Injective encode
  slashFree : ∀ segment, '/' ∉ encode segment
  empty : encode [] = []

/-- `MAX_SEGMENT_BYTES` -/
def maxSegmentBytes : Nat := 255

/-- `MAX_PATH_BYTES` -/
def maxPathBytes : Nat := 1024

/-- `BlobKey::of` -/
def BlobKey.of [ObjectPath] {space : StorageSpace}
    (resource : ResourceUrl space) : Option BlobKey :=
  let relative := resource.path.dropWhile (· = '/')
  if Text.endsWith ['/'] relative then
    none
  else
    let parts :=
      ((Text.split '/' relative).map ObjectPath.encode).filter fun part =>
        !part.isEmpty
    let path := ['/'].intercalate parts
    if (Text.utf8 path).length > maxPathBytes then
      none
    else if parts.any fun part => (Text.utf8 part).length > maxSegmentBytes then
      none
    else
      some ⟨path⟩

/-! ## Errors and results -/

/-- `ResourceError`; `panicked` is an `expect` that did not hold. -/
inductive ResourceError where
  | invalidIri
  | rdf (error : RdfError)
  | store (error : StoreError)
  | blob (error : StoreError)
  | keyTooLong
  | binaryWithoutMediaType
  | panicked
  deriving DecidableEq

/-- `Kind` -/
inductive Kind where
  | rdf
  | binary (mediaType : MediaType)
  deriving DecidableEq

/-- `PatchResult` -/
inductive PatchResult where
  | applied
  | noMapping
  | severalMappings
  | deletionMissing
  deriving DecidableEq

/-- A program of this layer. -/
abbrev ResourceProgram := StoreProgram ResourceError

/-! ## Reading -/

section Reading

variable {Url : Type} [GraphUrl Url]

/-- `resource::exists` -/
def exists? (url : Url) : ResourceProgram Bool :=
  StoreProgram.issue .store
    (.ask [(sysGraphIri url, presenceMarker (GraphUrl.graphNode url))])

/-- `resource::exists_many`, for the graph IRIs given. -/
def existsMany (graphs : List NamedNode) : ResourceProgram (List Text) :=
  if graphs.isEmpty then
    pure []
  else do
    let rows ←
      StoreProgram.issue .store
        (.queryPresent (graphs.map fun node => (sysGraphOf node.iri, node)))
    pure (rows.map NamedNode.iri)

/-- `resource::get_rdf` -/
def getRdf (url : Url) : ResourceProgram (Option (List Triple)) := do
  if ← exists? url then
    let triples ←
      StoreProgram.issue .store (.queryTriples (graphIri url) none none)
    pure (some triples)
  else
    pure none

end Reading

/-- The IRIs among the objects of some triples. -/
def objectNodes (triples : List Triple) : List NamedNode :=
  triples.filterMap fun triple =>
    match triple.object with
    | .namedNode node => some node
    | _ => none

section Datasets

variable {space : StorageSpace}

/-- `resource::registered_shelves` -/
def registeredShelves (resource : ResourceUrl space) :
    ResourceProgram (List ShelfKey) := do
  let triples ←
    StoreProgram.issue .store
      (.queryTriples (sysGraphIri resource) (some resource.node)
        (some sysHasSubgraph))
  pure ((objectNodes triples).map ShelfKey.fromRegistry)

/-- `resource::stored_media_type` -/
def storedMediaType (resource : ResourceUrl space) :
    ResourceProgram (Option MediaType) := do
  let triples ←
    StoreProgram.issue .store
      (.queryTriples (sysGraphIri resource) (some resource.node)
        (some sysMediaType))
  pure (triples.findSome? fun triple =>
    match triple.object with
    | .literal content => MediaType.parse content.value
    | _ => none)

/-- `resource::kind_of` -/
def kindOf (resource : ResourceUrl space) :
    ResourceProgram (Option Kind) := do
  if ← exists? resource then
    let binary : Bool ←
      StoreProgram.issue .store
        (.ask [(sysGraphIri resource,
          ⟨resource.node, rdfType, .namedNode sysBinaryResource⟩)])
    if binary then
      match ← storedMediaType resource with
      | some mediaType => pure (some (.binary mediaType))
      | none => .fail .binaryWithoutMediaType
    else
      pure (some .rdf)
  else
    pure none

/-- The loop of `get_dataset` over the registered shelves. -/
def shelfQuads (resource : ResourceUrl space) :
    List ShelfKey → ResourceProgram (List Quad)
  | [] => pure []
  | key :: rest => do
      let names ←
        StoreProgram.issue .store
          (.queryTriples (sysGraphIri resource) (some key.node)
            (some sysGraphName))
      match (objectNodes names).findSome? (fun node => NamedNode.new node.iri) with
      | none => .fail .invalidIri
      | some name => do
          let triples ←
            StoreProgram.issue .store (.queryTriples key.graphIri none none)
          let others ← shelfQuads resource rest
          pure (triples.map (fun triple =>
            ⟨triple.subject, triple.predicate, triple.object,
              .namedNode name⟩) ++ others)

/-- `resource::get_dataset` -/
def getDataset (resource : ResourceUrl space) :
    ResourceProgram (Option Skolemized) := do
  if ← exists? resource then
    let triples ←
      StoreProgram.issue .store (.queryTriples (graphIri resource) none none)
    let keys ← registeredShelves resource
    let shelved ← shelfQuads resource keys
    let quads :=
      triples.map (fun triple =>
        (⟨triple.subject, triple.predicate, triple.object,
          .defaultGraph⟩ : Quad)) ++ shelved
    match Skolemized.fromStore quads with
    | some dataset => pure (some dataset)
    | none => .fail .panicked
  else
    pure none

/-! ## Replacing a dataset -/

/-- One entry of the shelves `put_dataset` collects. -/
structure Shelf where
  key : ShelfKey
  name : NamedNode
  triples : List GroundTriple
  deriving DecidableEq

/-- Append a triple to the shelf with a key, made at its first triple. -/
def addToShelf (key : ShelfKey) (name : NamedNode) (triple : GroundTriple) :
    List Shelf → List Shelf
  | [] => [⟨key, name, [triple]⟩]
  | shelf :: rest =>
      if shelf.key = key then
        { shelf with triples := shelf.triples ++ [triple] } :: rest
      else
        shelf :: addToShelf key name triple rest

/-- A dataset split by graph name. -/
structure Buckets where
  defaultGraph : List GroundTriple
  shelves : List Shelf
  deriving DecidableEq

/-- One pass of the splitting loop of `put_dataset`. -/
def Buckets.add [Sha256]
    (resource : ResourceUrl space) (buckets : Buckets) (quad : GroundQuad) :
    Buckets :=
  match quad.graphName with
  | .defaultGraph =>
      { buckets with defaultGraph := buckets.defaultGraph ++ [quad.toTriple] }
  | .namedNode name =>
      { buckets with
        shelves :=
          addToShelf (ShelfKey.of resource name) name quad.toTriple
            buckets.shelves }

/-- The splitting loop of `put_dataset`. -/
def Buckets.of [Sha256]
    (resource : ResourceUrl space) (dataset : Skolemized) : Buckets :=
  dataset.quads.foldl (Buckets.add resource) ⟨[], []⟩

/-- What the system graph records about a dataset and its shelves. -/
def registryOf
    (resource : ResourceUrl space) (mediaType : Text) (shelves : List Shelf) :
    List GroundTriple :=
  presenceMarker resource.node ::
    ⟨resource.node, sysMediaType, .literal (.simple mediaType)⟩ ::
      shelves.flatMap fun shelf =>
        [⟨resource.node, sysHasSubgraph, .namedNode shelf.key.node⟩,
          ⟨shelf.key.node, sysGraphName, .namedNode shelf.name⟩]

/-- The update `put_dataset` issues. -/
def putDatasetUpdate
    (resource : ResourceUrl space)
    (registered : List ShelfKey)
    (buckets : Buckets)
    (mediaType : Text) :
    List (Operation Text GroundTriple) :=
  (registered.map fun key => .drop key.graphIri) ++
    (buckets.shelves.map fun shelf => .drop shelf.key.graphIri) ++
    [.drop (graphIri resource), .drop (sysGraphIri resource),
      .insertData
        ((graphIri resource, buckets.defaultGraph) ::
          buckets.shelves.map fun shelf =>
            (shelf.key.graphIri, shelf.triples)),
      .insertData
        [(sysGraphIri resource,
          registryOf resource mediaType buckets.shelves)]]

/-- Delete the object of a resource, if it can have one. -/
def deleteBlob [ObjectPath] (resource : ResourceUrl space) :
    ResourceProgram Unit :=
  match BlobKey.of resource with
  | some key => StoreProgram.issue .blob (.blobDelete key)
  | none => pure ()

/-- `resource::put_dataset` -/
def putDataset [Sha256] [ObjectPath]
    (resource : ResourceUrl space) (dataset : Skolemized) (format : Format) :
    ResourceProgram Unit := do
  let buckets := Buckets.of resource dataset
  let registered ← registeredShelves resource
  if buckets.shelves.all fun shelf => (NamedNode.new shelf.name.iri).isSome then
    StoreProgram.issue .store
      (.update (putDatasetUpdate resource registered buckets format.mediaType))
    deleteBlob resource
  else
    .fail .invalidIri

/-! ## Replacing with bytes -/

/-- The update `put_blob` issues. -/
def putBlobUpdate
    (resource : ResourceUrl space)
    (registered : List ShelfKey)
    (mediaType : MediaType) :
    List (Operation Text GroundTriple) :=
  (registered.map fun key => .drop key.graphIri) ++
    [.drop (graphIri resource), .drop (sysGraphIri resource),
      .insertData
        [(sysGraphIri resource,
          [presenceMarker resource.node,
            ⟨resource.node, rdfType, .namedNode sysBinaryResource⟩,
            ⟨resource.node, sysMediaType,
              .literal (.simple mediaType.raw)⟩])]]

/-- `resource::put_blob` -/
def putBlob [ObjectPath]
    (resource : ResourceUrl space) (bytes : Bytes) (mediaType : MediaType) :
    ResourceProgram Unit :=
  match BlobKey.of resource with
  | none => .fail .keyTooLong
  | some key => do
      let registered ← registeredShelves resource
      StoreProgram.issue .blob (.blobPut key bytes)
      StoreProgram.issue .store
        (.update (putBlobUpdate resource registered mediaType))

end Datasets

/-! ## Writing one graph -/

section Writing

variable {Url : Type}

/-- The operation that marks a graph present. -/
def markPresent [GraphUrl Url] (url : Url) : Operation Text GroundTriple :=
  .insertData
    [(sysGraphIri url, [presenceMarker (GraphUrl.graphNode url)])]

/-- `resource::as_quads`: triples as quads of the default graph. -/
def asQuads (triples : List Triple) : List Quad :=
  triples.map fun triple =>
    ⟨triple.subject, triple.predicate, triple.object, .defaultGraph⟩

/-- Triples of a client in the form the store holds. -/
def skolemizedTriples (fresh : Nat → Uuid) (triples : List Triple) :
    List GroundTriple :=
  (Skolemized.skolemize fresh ⟨asQuads triples⟩).quads.map GroundQuad.toTriple

/-- `resource::put_rdf` -/
def putRdf [DirectlyWritable Url]
    (fresh : Nat → Uuid) (url : Url) (triples : List Triple) :
    ResourceProgram Unit :=
  StoreProgram.issue .store
    (.update
      [.drop (graphIri url),
        .insertData [(graphIri url, skolemizedTriples fresh triples)],
        markPresent url])

/-- `resource::insert_marked` -/
def insertMarked [DirectlyWritable Url]
    (url : Url) (quads : List GroundQuad) : ResourceProgram Unit :=
  StoreProgram.issue .store
    (.update
      [.insertData [(graphIri url, quads.map GroundQuad.toTriple)],
        markPresent url])

/-- `resource::delete_rdf` -/
def deleteRdf [DirectlyDeletable Url] (url : Url) : ResourceProgram Bool := do
  let existed ← exists? url
  StoreProgram.issue .store
    (.update [.drop (graphIri url), .drop (sysGraphIri url)])
  pure existed

end Writing

/-! ## Applying a patch -/

/-- `render_bound` -/
def renderBound : GroundTerm → Except ResourceError GroundTerm
  | .namedNode node => .ok (.namedNode node)
  | .literal content => .ok (.literal content)
  | .triple _ _ _ =>
      .error (.store (.backend
        "a solution bound a term the store cannot hold".toList))

/-- `ground_term` -/
def groundTerm (term : PatternTerm) (bindings : List Solution) :
    Except ResourceError GroundTerm :=
  match term with
  | .named node => .ok (.namedNode node)
  | .literal content => .ok (.literal content)
  | .var index =>
      match bindings.head?.bind fun solution => solution.lookup index with
      | none =>
          .error (.store (.backend
            "a projected variable came back unbound".toList))
      | some bound => renderBound bound

/-- One triple of `substitute`. -/
def substituteOne (bindings : List Solution) (pattern : Pattern) :
    Except ResourceError TemplateTriple := do
  let subject ← groundTerm pattern.subject bindings
  let predicate ← groundTerm pattern.predicate bindings
  let object ← groundTerm pattern.object bindings
  .ok ⟨subject, predicate, object⟩

/-- `substitute` -/
def substitute (patterns : List Pattern) (bindings : List Solution) :
    Except ResourceError (List TemplateTriple) :=
  patterns.mapM (substituteOne bindings)

section Patching

variable {Url : Type} [GraphUrl Url]

/-- The part of `patch_guarded` after the conditions were matched. -/
def applyPatch
    (url : Url)
    (patch : Patch)
    (guard : Condition Text GroundTriple)
    (bindings : List Solution) :
    ResourceProgram PatchResult := do
  let deletions ← Program.ofExcept (substitute patch.deletions bindings)
  let insertions ← Program.ofExcept (substitute patch.insertions bindings)
  if deletions.isEmpty && insertions.isEmpty then
    pure .applied
  else do
    let before ←
      if deletions.isEmpty then
        pure false
      else
        StoreProgram.issue .store (.askTemplate (graphIri url) deletions)
    StoreProgram.issue .store
      (.modify (graphIri url) deletions insertions guard)
    if !deletions.isEmpty && !before then
      pure .deletionMissing
    else
      pure .applied

/-- `resource::patch_guarded` -/
def patchGuarded
    (url : Url) (patch : Patch) (guard : Condition Text GroundTriple) :
    ResourceProgram PatchResult :=
  if patch.conditions.isEmpty then
    applyPatch url patch guard []
  else do
    let solutions ←
      StoreProgram.issue .store
        (.querySolutions (graphIri url) patch.conditions)
    match solutions with
    | [] => pure .noMapping
    | [solution] => applyPatch url patch guard [solution]
    | _ => pure .severalMappings

end Patching

/-- `resource::patch_dataset` -/
def patchDataset {space : StorageSpace}
    (resource : ResourceUrl space) (patch : Patch) :
    ResourceProgram PatchResult :=
  patchGuarded resource patch []

end Quadpod
