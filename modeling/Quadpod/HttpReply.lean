import Quadpod.Shapes
import Quadpod.WacGuard

namespace Quadpod

open AtomicProgram

/-!
# Requests, responses and the checks the handlers share

The parts of `http.rs` that every write goes through: how refusals and errors
become responses, what a request body is, the conditional-request check and the
shape check.  An early return of a handler is a failed program whose error is
the response.
-/

variable [IriSyntax] {space : StorageSpace}

/-! ## Messages of the lower layers -/

/-- How a `StoreError` prints itself. -/
def StoreError.display : StoreError → Text
  | .backend message => "store backend error: ".toList ++ message

/-- How a `ResourceError` prints itself. -/
def ResourceError.display : ResourceError → Text
  | .invalidIri => "invalid resource IRI".toList
  | .rdf error => error.display
  | .store error => error.display
  | .blob (.backend message) => "blob backend error: ".toList ++ message
  | .keyTooLong => "the storage key for this URL is too long".toList
  | .binaryWithoutMediaType =>
      "a binary resource has no stored media type".toList
  | .panicked => "panicked".toList

/-- How an `AuxError` prints itself. -/
def AuxError.display : AuxError → Text
  | .subjectMissing =>
      "the auxiliary's subject resource does not exist".toList
  | .missing => "the auxiliary resource does not exist".toList
  | .tooLarge count =>
      "an auxiliary resource may hold at most ".toList ++
        (Nat.repr maxAuxTriples).toList ++
        " triples, and this one has ".toList ++ (Nat.repr count).toList
  | .resource error => error.display

/-- How a `PatchError` prints itself. -/
def PatchError.display : PatchError → Text
  | .malformed message => "invalid N3: ".toList ++ message
  | .shape message => "not a valid N3 Patch: ".toList ++ message
  | .reserved => "the urn:quadpod: namespace is reserved".toList
  | .rdf12Term =>
      ("RDF 1.2 terms are not accepted in a patch; " ++
        "a patch is read as RDF 1.1").toList

/-- How a `ShapeError` prints itself. -/
def ShapeError.display : ShapeError → Text
  | .unparsable message =>
      "the constraint document could not be read as SHACL: ".toList ++ message
  | .unsupported message =>
      "the constraint document is not an RDF resource in this pod: ".toList ++
        message
  | .missing => "the constraint document does not exist".toList
  | .engine message => "the validation engine failed: ".toList ++ message
  | .resource error => error.display

/-! ## Responses -/

/-- A response: its status, its header fields and its body. -/
structure Response where
  status : Nat
  headers : List (Text × Text)
  body : Bytes
  deriving DecidableEq

namespace Response

/-- A response that is only a status. -/
def ofStatus (status : Nat) : Response := ⟨status, [], []⟩

/-- A status with a message. -/
def ofText (status : Nat) (message : Text) : Response :=
  ⟨status, [], Text.utf8 message⟩

/-- The response with one more header field. -/
def append (response : Response) (name value : Text) : Response :=
  { response with headers := response.headers ++ [(name, value)] }

/-- The response with a header field in place of those of the same name. -/
def insert (response : Response) (name value : Text) : Response :=
  { response with
    headers :=
      response.headers.filter (fun field => field.1 != name) ++
        [(name, value)] }

/-- The first header field of a name. -/
def header (response : Response) (name : Text) : Option Text :=
  response.headers.lookup name

/-- `StatusCode::is_success` -/
def isSuccess (response : Response) : Bool :=
  200 ≤ response.status && response.status < 300

/-- `internal_error` -/
def internalError : Response :=
  ofText 500 "internal server error".toList

/-- `aux_links` -/
def auxLinks (target : Target space) : Option Text :=
  match target with
  | .aux _ => none
  | other =>
      some (", ".toList.intercalate (AuxKind.all.map fun kind =>
        '<' :: (other.subject.aux kind).iri ++ ">; rel=\"".toList ++
          kind.name ++ ['"']))

/-- `with_aux_links` -/
def withAuxLinks (response : Response) (target : Target space) : Response :=
  match auxLinks target with
  | some value => response.append "link".toList value
  | none => response

/-- `created` -/
def created (target : Target space) : Response :=
  ((ofStatus 201).append "location".toList
    (graphIri target)).withAuxLinks target

/-- `report_link` -/
def reportLink (target : Target space) (response : Response) : Response :=
  match target with
  | .aux _ => response
  | other =>
      response.append "link".toList
        ('<' :: other.subject.path ++ "?validate>; rel=\"describedby\"".toList)

end Response

/-- `AUX_SUBJECT_MISSING_MESSAGE` -/
def auxSubjectMissingMessage : Text :=
  ("an auxiliary resource cannot be created for a resource " ++
    "that does not exist").toList

/-- `SLASH_PAIR_MESSAGE` -/
def slashPairMessage : Text :=
  ("another resource already exists whose URI differs from this one " ++
    "only in the trailing slash").toList

/-- `impl IntoResponse for Denial` -/
def Denial.toResponse : Denial → Response
  | .unauthenticated =>
      (Response.ofStatus 401).append "www-authenticate".toList
        "DPoP algs=\"ES256 RS256\"".toList
  | .forbidden => .ofStatus 403
  | .auxSubjectMissing => .ofText 404 auxSubjectMissingMessage
  | .slashPair => .ofText 409 slashPairMessage
  | .store _ => .internalError

/-- `put_status` -/
def putStatus : ResourceError → Nat
  | .store _ => 500
  | .blob _ => 500
  | _ => 400

/-- `put_error` -/
def putError (error : ResourceError) : Response :=
  if putStatus error = 500 then
    .internalError
  else
    .ofText (putStatus error) error.display

/-- `shape_status` -/
def shapeStatus (error : ShapeError) : Response :=
  let status :=
    match error with
    | .resource error => putStatus error
    | .engine _ => 500
    | _ => 409
  if status = 500 then .internalError else .ofText status error.display

/-- `warn_if_acl_grants_nothing`, on the message level. -/
def warnIfAclGrantsNothing
    (aux : AuxUrl space) (triples : List Triple) (response : Response) :
    Response :=
  if grantsAnything triples aux.subject.iri then
    response
  else
    let scope :=
      if aux.subject.asContainer.isSome then
        " and everything below it".toList
      else
        []
    let recovery :=
      if aux.subject.iri = graphIri space.root then
        (" Recovery requires restarting the server with " ++
          "--reset-root-acl.").toList
      else
        []
    let message :=
      "The ACL at ".toList ++ aux.iri ++
        " grants no access to anyone, so every request for ".toList ++
        aux.subject.iri ++ scope ++
        (" is now denied, including the Control needed to " ++
          "remove this ACL.").toList ++ recovery
    if message.contains '"' || message.contains '\\' then
      response
    else
      response.append "warning".toList ("199 - \"".toList ++ message ++ ['"'])

/-! ## Requests -/

/-- The header fields the handlers read. -/
inductive HeaderName where
  | accept
  | contentType
  | ifMatch
  | ifNoneMatch
  | slug
  | link
  deriving DecidableEq

/-- The fields of a request; a value that is not visible ASCII is `none`. -/
abbrev HeaderMap := List (HeaderName × Option Text)

namespace HeaderMap

/-- `HeaderMap::contains_key` -/
def containsKey (headers : HeaderMap) (name : HeaderName) : Bool :=
  (headers.lookup name).isSome

/-- `headers.get(name).and_then(|v| v.to_str().ok())` -/
def str? (headers : HeaderMap) (name : HeaderName) : Option Text :=
  (headers.lookup name).join

end HeaderMap

/-- `header_str` -/
def headerStr (headers : HeaderMap) (name : HeaderName) : Text :=
  (headers.str? name).getD []

/-- The UUIDs a request draws. -/
structure Draws where
  childName : Uuid
  retryName : Uuid
  blank : Nat → Uuid

/-- A program of the HTTP layer; its error is the response of an early return. -/
abbrev HttpProgram := StoreProgram Response

/-- What is sent for a result: the response of an early return or of the end. -/
def sentResponse : Except Response Response → Response
  | .ok response => response
  | .error response => response

/-- `classify` -/
def classify (space : StorageSpace) (requestPath : Text) :
    Except Response (Target space) :=
  (space.resolve requestPath).mapError fun
    | .reserved => .ofStatus 404
    | _ => .ofStatus 400

/-- `Repr` -/
inductive Repr where
  | rdf (dataset : Dataset) (format : Format) (declared : RdfVersion)
  | blob (bytes : Bytes) (mediaType : MediaType)

/-- `classify_body` -/
def classifyBody [RdfParser]
    (headers : HeaderMap) (body : Bytes) (target : Target space)
    (storeVersion : RdfVersion) : Except Response Repr :=
  let contentType := Text.trim (headerStr headers .contentType)
  if contentType.isEmpty then
    if body.isEmpty then
      .error (.ofStatus 415)
    else
      .error (.ofText 400 "Content-Type is required".toList)
  else
    match Format.fromContentType contentType with
    | some format =>
        match RdfVersion.fromMediaType contentType with
        | none => .error (.ofStatus 415)
        | some declared =>
            if storeVersion < declared then
              .error (.ofText 415 ("this pod's store holds RDF ".toList ++
                storeVersion.label ++ " at most".toList))
            else
              match format.parse body (graphIri target) declared with
              | .ok dataset => .ok (.rdf dataset format declared)
              | .error error => .error (.ofText 400 error.display)
    | none =>
        match MediaType.parse contentType with
        | none => .error (.ofStatus 415)
        | some mediaType =>
            match target with
            | .aux _ => .error (.ofStatus 415)
            | .container _ =>
                .error (.ofText 400
                  "a container's representation must be RDF".toList)
            | .resource _ _ => .ok (.blob body mediaType)

/-! ## Conditional requests -/

section Conditionals

variable [Sha256] [QuadText] [ObjectPath]

/-- `blob_etag` -/
def blobEtag (bytes : Bytes) : Text :=
  '"' :: Sha256.hexDigest bytes ++ ['"']

/-- `etag_candidates` -/
def etagCandidates (stored : Skolemized) : List Text :=
  let held := stored.deskolemize.rdfVersion
  let versions := if held = .rdf11 then [.rdf11] else [.rdf11, held]
  Format.all.flatMap fun format => versions.map (stored.etag format)

/-- `current_tags` -/
def currentTags (target : Target space) :
    ResourceProgram (Option (List Text)) :=
  match target with
  | .resource url _ => do
      match ← kindOf url with
      | some (.binary _) =>
          match BlobKey.of url with
          | none => pure none
          | some key => do
              let stored : Option Bytes ←
                StoreProgram.issue .blob (.blobGet key)
              pure (stored.map fun bytes => [blobEtag bytes])
      | _ => do
          let stored ← getDataset url
          pure (stored.map etagCandidates)
  | other => do
      match ← getRdf other with
      | none => pure none
      | some triples =>
          match Skolemized.fromStore (asQuads triples) with
          | some ground => pure (some (etagCandidates ground))
          | none => .fail .panicked

/-- `check_conditionals` -/
def checkConditionals (headers : HeaderMap) (target : Target space) :
    HttpProgram Unit :=
  if !headers.containsKey .ifMatch && !headers.containsKey .ifNoneMatch then
    pure ()
  else do
    let current ← Program.mapError putError (currentTags target)
    let matched :=
      (headers.str? .ifMatch).all fun tag =>
        current.any fun tags => tags.contains tag
    if !matched then
      .fail (.ofStatus 412)
    else if headers.str? .ifNoneMatch = some "*".toList && current.isSome then
      .fail (.ofStatus 412)
    else
      pure ()

end Conditionals

/-! ## Shapes -/

section Shapes

variable [QuadText] [RdfParser] [RdfSerializer]

/-- The container whose binding constrains a target. -/
def constrainingContainer (target : Target space) :
    Option (ContainerUrl space) :=
  match target with
  | .aux _ => none
  | other => other.subject.parent

/-- `turtle_bytes` -/
def turtleBytes (dataset : Dataset) : Bytes :=
  match Format.turtle.serialize dataset with
  | .ok turtle => Text.utf8 turtle
  | .error _ => []

/-- `enforce_shape` -/
def enforceShape [ShapeEngine] (target : Target space) (dataset : Dataset) :
    HttpProgram (Option Report) :=
  match constrainingContainer target with
  | none => pure none
  | some container => do
      match ← Program.mapError shapeStatus (loadShape container) with
      | none => pure none
      | some shape => do
          let report ←
            Program.ofExcept
              ((validateShape shape.turtle dataset).mapError shapeStatus)
          if report.refuses then
            .fail
              (({ status := 422
                  headers := [("content-type".toList, "text/turtle".toList)]
                  body := turtleBytes report.dataset } : Response).append
                "link".toList
                ('<' :: shape.iri ++ ">; rel=\"".toList ++
                  ldpConstrainedByIri ++ ['"']))
          else
            pure (if report.isEmpty then none else some report)

/-- `patch_shape_conflict` -/
def patchShapeConflict (target : Target space) : HttpProgram Unit :=
  match constrainingContainer target with
  | none => pure ()
  | some container => do
      match ← Program.mapError shapeStatus (loadShape container) with
      | none => pure ()
      | some shape =>
          .fail (.ofText 409 (graphIri container ++
            " is shape-constrained (by ".toList ++ shape.iri ++
            ("); a PATCH cannot be validated against a shape, so it is " ++
              "refused rather than risk writing a state the shape does " ++
              "not allow — PUT a full representation to write a " ++
              "validated one").toList))

end Shapes

end Quadpod
