import Quadpod.HttpWrite
import Quadpod.RdfNegotiation

namespace Quadpod

open AtomicProgram

/-!
# The read handler

`GET` of `http.rs`: a resource is served as its bytes or as the negotiated
representation of its dataset, a container or an auxiliary as that of its graph.
The version served is the lower of what was asked for and what is held, and the
validator is computed from the stored quads.  The query parameter `validate`
selects another view: the report on what is stored, computed on the spot.
-/

/-! ## Projection -/

/-- `Ord::min` -/
def RdfVersion.min (first second : RdfVersion) : RdfVersion :=
  if first ≤ second then first else second

variable [IriSyntax]

/-- An object as a version below its own can express it, if it can at all. -/
def projectObject (version : RdfVersion) : Term → Option Term
  | .triple subject predicate object =>
      if version < .rdf12 then
        none
      else
        some (.triple subject predicate object)
  | .literal (.directional value language direction) =>
      if version < .rdf12Basic then
        some (.literal (.languageTagged value language))
      else
        some (.literal (.directional value language direction))
  | other => some other

/-- One quad of `project_to`. -/
def projectQuad (version : RdfVersion) (quad : Quad) : Option Quad :=
  (projectObject version quad.object).map fun object =>
    { quad with object := object }

/-- `Dataset::project_to` -/
def Dataset.projectTo (dataset : Dataset) (version : RdfVersion) : Dataset :=
  if dataset.rdfVersion ≤ version then
    dataset
  else
    ⟨dataset.quads.filterMap (projectQuad version)⟩

/-! ## Header fields -/

variable {space : StorageSpace}

/-- `allowed_methods` -/
def allowedMethods (target : Target space) : Text :=
  match target with
  | .container container =>
      if container.resource.parent.isNone then
        "GET, HEAD, POST, PUT, PATCH, OPTIONS".toList
      else
        "GET, HEAD, POST, PUT, PATCH, DELETE, OPTIONS".toList
  | _ => "GET, HEAD, PUT, PATCH, DELETE, OPTIONS".toList

/-- The enumeration `Write`: which write method is described. -/
inductive WriteMethod where
  | put
  | post
  deriving DecidableEq

/-- Whether a write may be of bytes; `none` where it is not allowed at all. -/
def acceptsBlobs (target : Target space) (method : WriteMethod) :
    Option Bool :=
  match target, method with
  | .container _, .post => some true
  | .resource _ _, .put => some true
  | .container _, .put => some false
  | .aux _, .put => some false
  | .resource _ _, .post => none
  | .aux _, .post => none

/-- `accept_write` -/
def acceptWrite
    (target : Target space) (method : WriteMethod) (version : RdfVersion) :
    Option Text :=
  (acceptsBlobs target method).map fun blobs =>
    let types :=
      Format.all.flatMap fun format =>
        if .rdf11 < version then
          [format.mediaType,
            format.mediaType ++ ";version=".toList ++ version.label]
        else
          [format.mediaType]
    ", ".toList.intercalate (if blobs then types ++ ["*/*".toList] else types)

/-- Insert the header field of a write method that is allowed. -/
def Response.withAcceptWrite
    (response : Response) (target : Target space) (name : Text)
    (method : WriteMethod) (version : RdfVersion) : Response :=
  match acceptWrite target method version with
  | some value => response.insert name value
  | none => response

/-- `with_allow` -/
def Response.withAllow
    (response : Response) (target : Target space) (version : RdfVersion) :
    Response :=
  (((response.insert "allow".toList (allowedMethods target)).insert
    "accept-patch".toList "text/n3".toList).withAcceptWrite target
      "accept-put".toList .put version).withAcceptWrite target
        "accept-post".toList .post version

/-- The modes of one group of `WAC-Allow`. -/
def wacGroup (modes : AccessModes) : Text :=
  [' '].intercalate
    (([(.read, "read".toList), (.write, "write".toList),
        (.append, "append".toList), (.control, "control".toList)] :
          List (Mode × Text)).filterMap fun (mode, name) =>
      if modes.allows mode then some name else none)

/-- `wac_allow_value` -/
def wacAllowValue (decision : Decision) : Text :=
  "user=\"".toList ++ wacGroup decision.user ++ "\",public=\"".toList ++
    wacGroup decision.everyone ++ ['"']

/-- `with_read_headers` -/
def Response.withReadHeaders
    (response : Response) (target : Target space) (decision : Decision)
    (version : RdfVersion) : Response :=
  ((response.withAuxLinks target).withAllow target version).insert
    "wac-allow".toList (wacAllowValue decision)

/-- The `Content-Type` of a representation, with its version where one is held. -/
def servedType (format : Format) (held served : RdfVersion) : Text :=
  if .rdf11 < held then
    format.mediaType ++ ";version=".toList ++ served.label
  else
    format.mediaType

/-- A response with a validator and `Vary`. -/
def Response.ofTag (status : Nat) (tag : Text) (body : Bytes) : Response :=
  ⟨status, [("etag".toList, tag), ("vary".toList, "Accept".toList)], body⟩

/-- A response with a representation, its type and its validator. -/
def Response.ofRepresentation (type tag : Text) (body : Bytes) : Response :=
  ⟨200,
    [("content-type".toList, type), ("etag".toList, tag),
      ("vary".toList, "Accept".toList)], body⟩

/-- The link to the representation at the version held. -/
def Response.withVersionLink
    (response : Response) (iri : Text) (format : Format)
    (held served : RdfVersion) : Response :=
  if served < held then
    response.append "link".toList
      ('<' :: iri ++ ">; rel=\"alternate\"; type=\"".toList ++
        format.mediaType ++ ";version=".toList ++ held.label ++ ['"'])
  else
    response

/-- The links that say which graphs a graph format left out. -/
def Response.withPartialLinks
    (response : Response) (iri : Text) (names : List NamedNode) : Response :=
  let link (response : Response) (value : Text) : Response :=
    response.append "link".toList value
  let partialDataset :=
    link response
      ('<' :: iri ++
        ">; rel=\"https://w3id.org/quadpod/ns#partialDataset\"".toList)
  let withNames :=
    names.foldl
      (fun response name =>
        link response
          ('<' :: name.iri ++
            ">; rel=\"https://w3id.org/quadpod/ns#containsGraph\"".toList))
      partialDataset
  ["application/trig".toList, "application/ld+json".toList].foldl
    (fun response type =>
      link response
        ('<' :: iri ++ ">; rel=\"alternate\"; type=\"".toList ++ type ++
          ['"']))
    withNames

/-! ## Reading -/

variable [Sha256] [ObjectPath] [QuadText] [RdfSerializer] [Quality]

/-- `blob_read` -/
def blobRead
    (storeVersion : RdfVersion) (target : Target space)
    (url : ResourceUrl space) (headers : HeaderMap) (mediaType : MediaType) :
    HttpProgram Response :=
  if !acceptAllows (headerStr headers .accept) mediaType then
    pure (.ofStatus 406)
  else
    match BlobKey.of url with
    | none => pure (.ofStatus 414)
    | some key => do
        match ← (StoreProgram.issue ResourceError.blob
            (.blobGet key)).attempt with
        | .error _ => pure .internalError
        | .ok none =>
            pure (((Response.ofStatus 404).append "warning".toList
              ("199 - \"the storage backend has no object for this " ++
                "resource\"").toList).withAuxLinks target)
        | .ok (some bytes) =>
            let tag := blobEtag bytes
            if headers.str? .ifNoneMatch = some tag then
              pure (((Response.ofTag 304 tag []).withAuxLinks target).withAllow
                target storeVersion)
            else
              pure (((Response.ofRepresentation mediaType.raw tag
                bytes).withAuxLinks target).withAllow target storeVersion)

/-- The dataset a format can carry of what is visible. -/
def carriedBy (format : Format) (visible : Dataset) : Dataset :=
  if format.carriesDataset then visible else visible.defaultGraphOnly

/--
The negotiated representation of a stored dataset: unchanged, or serialized from
what the format carries of it.  `links` are the links the handler adds of its own.
-/
def rdfRead
    (storeVersion : RdfVersion) (target : Target space)
    (decision : Decision) (headers : HeaderMap) (stored : Skolemized)
    (format : Format) (requested : RdfVersion) (carried : Dataset)
    (links : Response → Response) : Response :=
  let held := stored.deskolemize.rdfVersion
  let served := requested.min held
  let tag := stored.etag format served
  if headers.str? .ifNoneMatch = some tag then
    (Response.ofTag 304 tag []).withReadHeaders target decision storeVersion
  else
    match format.serialize (carried.projectTo served) with
    | .error _ => .internalError
    | .ok text =>
        (links ((Response.ofRepresentation (servedType format held served) tag
          (Text.utf8 text)).withVersionLink (graphIri target) format held
            served)).withReadHeaders target decision storeVersion

/-- The links of `get_impl` for what a graph format leaves out. -/
def partialLinks
    (url : ResourceUrl space) (stored : Skolemized) (format : Format)
    (response : Response) : Response :=
  if !format.carriesDataset && stored.hasNamedGraphs then
    response.withPartialLinks (graphIri url) stored.deskolemize.namedGraphs
  else
    response

/-- The end of `get_impl`: what the format can carry of the dataset. -/
def datasetRead
    (storeVersion : RdfVersion) (target : Target space)
    (url : ResourceUrl space) (decision : Decision) (headers : HeaderMap)
    (stored : Skolemized) (format : Format) (requested : RdfVersion) :
    Response :=
  rdfRead storeVersion target decision headers stored format requested
    (carriedBy format stored.deskolemize) (partialLinks url stored format)

/-- The end of `legacy_graph_read`: the whole graph. -/
def graphRead
    (storeVersion : RdfVersion) (target : Target space)
    (decision : Decision) (headers : HeaderMap) (ground : Skolemized)
    (format : Format) (requested : RdfVersion) : Response :=
  rdfRead storeVersion target decision headers ground format requested
    ground.deskolemize id

/-- `legacy_graph_read` -/
def legacyGraphRead
    (storeVersion : RdfVersion) (decision : Decision) (target : Target space)
    (headers : HeaderMap) : HttpProgram Response :=
  match negotiate (headerStr headers .accept) .graph none with
  | none => pure (.ofStatus 406)
  | some (format, requested) => do
      match ← (getRdf target).attempt with
      | .ok (some triples) =>
          match groundDataset triples with
          | none => pure .internalError
          | some ground =>
              pure (graphRead storeVersion target decision headers ground
                format requested)
      | .ok none => pure ((Response.ofStatus 404).withAuxLinks target)
      | .error .invalidIri => pure (.ofStatus 400)
      | .error _ => pure .internalError

/-- The shape of a stored dataset. -/
def storedShape (stored : Skolemized) : RdfShape :=
  if stored.hasNamedGraphs then .dataset else .graph

/-- The format a representation arrived in, from what is stored about it. -/
def storedFormat (answer : Except ResourceError (Option MediaType)) :
    Option Format :=
  match answer with
  | .ok (some mediaType) => Format.fromContentType mediaType.raw
  | _ => none

/-- `get_impl` for a resource that holds a dataset. -/
def resourceRead
    (storeVersion : RdfVersion) (target : Target space)
    (url : ResourceUrl space) (decision : Decision) (headers : HeaderMap) :
    HttpProgram Response := do
  match ← (getDataset url).attempt with
  | .ok (some stored) => do
      let answer ← (storedMediaType url).attempt
      match negotiate (headerStr headers .accept) (storedShape stored)
          (storedFormat answer) with
      | none => pure (.ofStatus 406)
      | some (format, requested) =>
          pure (datasetRead storeVersion target url decision headers stored
            format requested)
  | .ok none => pure ((Response.ofStatus 404).withAuxLinks target)
  | .error .invalidIri => pure (.ofStatus 400)
  | .error _ => pure .internalError

/-- `get_impl` -/
def getImpl
    (storeVersion : RdfVersion) (agent : Agent) (target : Target space)
    (headers : HeaderMap) : HttpProgram Response := do
  let guard ← probeFor agent target
  let decision ← orDeny target (guard.authorize .read)
  match target with
  | .resource url _ => do
      match ← (kindOf url).attempt with
      | .ok (some (.binary mediaType)) =>
          blobRead storeVersion target url headers mediaType
      | .ok (some .rdf) =>
          resourceRead storeVersion target url decision headers
      | .ok none => pure ((Response.ofStatus 404).withAuxLinks target)
      | .error .invalidIri => pure (.ofStatus 400)
      | .error _ => pure .internalError
  | _ => legacyGraphRead storeVersion decision target headers

/-! ## The validation report -/

section Validation

variable [RdfParser] [ShapeEngine]

/-- `wants_validation` -/
def wantsValidation (query : Option Text) : Bool :=
  query.any fun query =>
    (Text.split '&' query).any fun part => part = "validate".toList

/-- The content of a target that `validate_view` validates. -/
def validatedContent (target : Target space) : HttpProgram Dataset :=
  match target with
  | .aux _ => .fail ((Response.ofStatus 404).withAuxLinks target)
  | .container container => do
      match ← Program.mapError putError (getRdf container) with
      | some triples =>
          match groundDataset
              (withoutServerManaged triples (graphIri container)) with
          | some ground => pure ground.deskolemize
          | none => .fail .internalError
      | none => .fail ((Response.ofStatus 404).withAuxLinks target)
  | .resource url _ => do
      match ← (kindOf url).attempt with
      | .ok (some (.binary _)) =>
          .fail ((Response.ofStatus 404).withAuxLinks target)
      | _ => do
          match ← Program.mapError putError (getDataset url) with
          | some stored => pure stored.deskolemize
          | none => .fail ((Response.ofStatus 404).withAuxLinks target)

/-- `validate_view` -/
def validateView
    (agent : Agent) (target : Target space) (headers : HeaderMap) :
    HttpProgram Response := do
  let guard ← probeFor agent target
  let _ ← orDeny target (guard.authorize .read)
  match constrainingContainer target with
  | none => pure ((Response.ofStatus 404).withAuxLinks target)
  | some container => do
      match ← Program.mapError shapeStatus (loadShape container) with
      | none => pure ((Response.ofStatus 404).withAuxLinks target)
      | some shape => do
          let dataset ← validatedContent target
          let report ←
            Program.ofExcept
              ((validateShape shape.turtle dataset).mapError shapeStatus)
          match negotiate (headerStr headers .accept) .graph none with
          | none => pure (.ofStatus 406)
          | some (format, _) =>
              match format.serialize report.dataset with
              | .ok text =>
                  pure
                    { status := 200
                      headers :=
                        [("content-type".toList, format.mediaType),
                          ("vary".toList, "Accept".toList)]
                      body := Text.utf8 text }
              | .error _ => pure .internalError

/-- `handle_get` and `handle_get_root`. -/
def handleGet
    (space : StorageSpace) (storeVersion : RdfVersion) (path : Text)
    (query : Option Text) (agent : Agent) (headers : HeaderMap) :
    HttpProgram Response := do
  let target ← Program.ofExcept (classify space path)
  if wantsValidation query then
    validateView agent target headers
  else
    getImpl storeVersion agent target headers

end Validation

end Quadpod
