import Quadpod.DatasetReads
import Quadpod.HttpRead

namespace Quadpod

open AtomicProgram

/-!
# What a read selects

Every response of `GET` that carries a validator comes from one selection: the
stored dataset with the negotiated format and version, or the bytes of the
object.  The validator, the type and the body are functions of the selection,
so what holds of selections holds of responses.
-/

variable [IriSyntax]

/-! ## Header fields -/

namespace Response

omit [IriSyntax] in
theorem header_append {name other value : Text} (response : Response)
    (different : name ≠ other) :
    (response.append other value).header name = response.header name := by
  simp [header, append, List.lookup_append, List.lookup_cons,
    beq_eq_false_iff_ne.mpr different]

omit [IriSyntax] in
private theorem lookup_filter_of_ne {name other : Text}
    (different : name ≠ other) (fields : List (Text × Text)) :
    (fields.filter fun field => field.1 != other).lookup name =
      fields.lookup name := by
  induction fields with
  | nil =>
      rfl
  | cons field rest inductionHypothesis =>
      by_cases isOther : field.1 = other
      · have notName : (name == field.1) = false := by
          rw [isOther]
          exact beq_eq_false_iff_ne.mpr different
        rw [List.filter_cons_of_neg (by simp [isOther]),
          inductionHypothesis, List.lookup_cons, notName]
      · rw [List.filter_cons_of_pos (by simp [isOther]), List.lookup_cons,
          List.lookup_cons, inductionHypothesis]

omit [IriSyntax] in
theorem header_insert {name other value : Text} (response : Response)
    (different : name ≠ other) :
    (response.insert other value).header name = response.header name := by
  simp [header, insert, List.lookup_append, List.lookup_cons,
    beq_eq_false_iff_ne.mpr different, lookup_filter_of_ne different]

/-- The fields that describe a representation. -/
def describing : List Text := ["etag".toList, "content-type".toList]

variable {space : StorageSpace} {name : Text}

theorem header_withAuxLinks
    (describes : name ∈ describing) (response : Response)
    (target : Target space) :
    (response.withAuxLinks target).header name = response.header name := by
  have different : name ≠ "link".toList := by
    rintro rfl
    revert describes
    decide
  unfold withAuxLinks
  split
  · exact header_append response different
  · rfl

theorem header_withAcceptWrite
    {field : Text} (different : name ≠ field) (response : Response)
    (target : Target space) (method : WriteMethod) (version : RdfVersion) :
    (response.withAcceptWrite target field method version).header name =
      response.header name := by
  unfold withAcceptWrite
  split
  · exact header_insert response different
  · rfl

theorem header_withAllow
    (describes : name ∈ describing) (response : Response)
    (target : Target space) (version : RdfVersion) :
    (response.withAllow target version).header name =
      response.header name := by
  have different :
      ∀ field,
        field ∈ ["allow".toList, "accept-patch".toList, "accept-put".toList,
          "accept-post".toList] →
        name ≠ field := by
    rintro field isField rfl
    simp only [describing, List.mem_cons, List.not_mem_nil,
      or_false] at describes
    rcases describes with rfl | rfl
    · revert isField
      decide
    · revert isField
      decide
  unfold withAllow
  rw [header_withAcceptWrite (different _ (by simp)),
    header_withAcceptWrite (different _ (by simp)),
    header_insert _ (different _ (by simp)),
    header_insert _ (different _ (by simp))]

theorem header_withReadHeaders
    (describes : name ∈ describing) (response : Response)
    (target : Target space) (decision : Decision) (version : RdfVersion) :
    (response.withReadHeaders target decision version).header name =
      response.header name := by
  have different : name ≠ "wac-allow".toList := by
    rintro rfl
    revert describes
    decide
  rw [withReadHeaders, header_insert _ different,
    header_withAllow describes, header_withAuxLinks describes]

/-- A response that only gained header fields other than the describing ones. -/
structure Describes (response base : Response) : Prop where
  status : response.status = base.status
  body : response.body = base.body
  header : ∀ name ∈ describing, response.header name = base.header name

theorem describes_withAllow
    (response : Response) (target : Target space) (version : RdfVersion) :
    Describes ((response.withAuxLinks target).withAllow target version)
      response := by
  refine ⟨?_, ?_, fun name isDescribing => ?_⟩
  · unfold withAllow withAcceptWrite withAuxLinks
    split <;> split <;> split <;> rfl
  · unfold withAllow withAcceptWrite withAuxLinks
    split <;> split <;> split <;> rfl
  · rw [header_withAllow isDescribing, header_withAuxLinks isDescribing]

theorem describes_withReadHeaders
    (response : Response) (target : Target space) (decision : Decision)
    (version : RdfVersion) :
    Describes (response.withReadHeaders target decision version)
      response := by
  have allowed := describes_withAllow response target version
  exact ⟨allowed.status, allowed.body, fun name isDescribing =>
    header_withReadHeaders isDescribing response target decision version⟩

omit [IriSyntax] in
/-- A link changes nothing about what is described. -/
theorem describes_link (response : Response) (value : Text) :
    Describes (response.append "link".toList value) response := by
  refine ⟨rfl, rfl, fun name isDescribing => header_append response ?_⟩
  rintro rfl
  revert isDescribing
  decide

omit [IriSyntax] in
/-- Nor does a warning. -/
theorem describes_warning (response : Response) (value : Text) :
    Describes (response.append "warning".toList value) response := by
  refine ⟨rfl, rfl, fun name isDescribing => header_append response ?_⟩
  rintro rfl
  revert isDescribing
  decide

omit [IriSyntax] in
theorem Describes.trans
    {first second third : Response}
    (upper : Describes first second) (lower : Describes second third) :
    Describes first third where
  status := upper.status.trans lower.status
  body := upper.body.trans lower.body
  header name isDescribing :=
    (upper.header name isDescribing).trans (lower.header name isDescribing)

omit [IriSyntax] in
theorem Describes.refl (response : Response) : Describes response response :=
  ⟨rfl, rfl, fun _ _ => rfl⟩

omit [IriSyntax] in
theorem describes_withVersionLink
    (response : Response) (iri : Text) (format : Format)
    (held served : RdfVersion) :
    Describes (response.withVersionLink iri format held served) response := by
  unfold withVersionLink
  split
  · exact describes_link response _
  · exact .refl response

omit [IriSyntax] in
/-- So do several. -/
theorem describes_links {α : Type} (value : α → Text) (items : List α)
    (response : Response) :
    Describes
      (items.foldl
        (fun response item => response.append "link".toList (value item))
        response)
      response := by
  induction items generalizing response with
  | nil =>
      exact .refl response
  | cons item rest inductionHypothesis =>
      exact (inductionHypothesis _).trans (describes_link response _)

theorem describes_withPartialLinks
    (response : Response) (iri : Text) (names : List NamedNode) :
    Describes (response.withPartialLinks iri names) response := by
  unfold withPartialLinks
  exact (describes_links _ _ _).trans
    ((describes_links _ _ _).trans (describes_link response _))

theorem describes_withAuxLinks (response : Response) (target : Target space) :
    Describes (response.withAuxLinks target) response := by
  refine ⟨?_, ?_, fun name isDescribing =>
    header_withAuxLinks isDescribing response target⟩
  · unfold withAuxLinks
    split <;> rfl
  · unfold withAuxLinks
    split <;> rfl

/-- A response that stands for a representation: whole, or by its validator. -/
def Represents (response : Response) : Prop :=
  response.status = 200 ∨ ∃ tag, response.header "etag".toList = some tag

omit [IriSyntax] in
theorem Represents.of_describes {response base : Response}
    (represents : response.Represents) (describes : Describes response base) :
    base.Represents := by
  rcases represents with isOk | ⟨tag, isTag⟩
  · exact Or.inl (describes.status.symm.trans isOk)
  · exact Or.inr ⟨tag, (describes.header _ (by decide)).symm.trans isTag⟩

end Response

/-! ## Selections -/

/-- What a read selects from the state of a target. -/
inductive Selection where
  | rdf (stored : Skolemized) (format : Format) (requested : RdfVersion)
  | blob (bytes : Bytes) (mediaType : MediaType)

/-- The version of a stored dataset as a client sees it. -/
def Skolemized.held (stored : Skolemized) : RdfVersion :=
  stored.deskolemize.rdfVersion

namespace Selection

/-- The validator of a selection. -/
def tag [Sha256] [QuadText] : Selection → Text
  | .rdf stored format requested =>
      stored.etag format (requested.min stored.held)
  | .blob bytes _ => blobEtag bytes

/-- The media type of a selection. -/
def type : Selection → Text
  | .rdf stored format requested =>
      servedType format stored.held (requested.min stored.held)
  | .blob _ mediaType => mediaType.raw

/-- The body of a selection, unless the serializer fails. -/
def body [QuadText] [RdfSerializer] : Selection → Except RdfError Bytes
  | .rdf stored format requested =>
      (format.serialize ((carriedBy format stored.deskolemize).projectTo
        (requested.min stored.held))).map Text.utf8
  | .blob bytes _ => .ok bytes

/-- Whether a representation in RDF was selected. -/
def isRdf : Selection → Bool
  | .rdf _ _ _ => true
  | .blob _ _ => false

end Selection

variable {space : StorageSpace}

/-- Probing a target finds its guard. -/
theorem eval_probeFor
    (world : World) (agent : Agent) (target : Target space) :
    Program.eval backend (probeFor agent target) world =
      (.ok (world.guard agent target), world) := by
  unfold probeFor
  rw [Program.eval_mapError, eval_probe]
  rfl

/-- The quads of one graph, as the store holds them. -/
def World.graphQuads (world : World) (name : Text) : Skolemized where
  quads := (world.graphs name).triples.map (·.toQuad .defaultGraph)

/-- The dataset stored under a target that holds RDF. -/
def World.storedRdf (world : World) (target : Target space) :
    Option Skolemized :=
  match target with
  | .resource url _ =>
      if world.binary url then
        none
      else
        match (Program.eval backend (getDataset url) world).1 with
        | .ok stored => stored
        | .error _ => none
  | other =>
      if world.present other.node then
        some (world.graphQuads (graphIri other))
      else
        none

/-- The format and version an `Accept` header selects of a stored dataset. -/
def World.negotiated [Quality]
    (world : World) (target : Target space) (headers : HeaderMap)
    (stored : Skolemized) : Option (Format × RdfVersion) :=
  match target with
  | .resource url _ =>
      negotiate (headerStr headers .accept) (storedShape stored)
        (storedFormat (.ok (world.storedMediaType url)))
  | _ => negotiate (headerStr headers .accept) .graph none

/-- A selection a read can make in a world. -/
inductive World.Selects [ObjectPath] [Quality]
    (world : World) (target : Target space) (headers : HeaderMap) :
    Selection → Prop where
  | rdf {stored : Skolemized} {format : Format} {requested : RdfVersion}
      (isStored : world.storedRdf target = some stored)
      (isNegotiated :
        world.negotiated target headers stored = some (format, requested)) :
      world.Selects target headers (.rdf stored format requested)
  | blob {url : ResourceUrl space}
      {leaf : Text.endsWith ['/'] url.path = false} {key : BlobKey}
      {bytes : Bytes} {mediaType : MediaType}
      (isTarget : target = .resource url leaf)
      (isBinary : world.kindOf url = .ok (some (.binary mediaType)))
      (isAcceptable :
        acceptAllows (headerStr headers .accept) mediaType = true)
      (isKey : BlobKey.of url = some key)
      (isThere : world.blobs key = some bytes) :
      world.Selects target headers (.blob bytes mediaType)

/-- How a response shows a selection. -/
structure Selection.Shown [Sha256] [QuadText] [RdfSerializer]
    (selection : Selection) (response : Response) : Prop where
  tag : response.header "etag".toList = some selection.tag
  whole :
    response.status = 200 →
    response.header "content-type".toList = some selection.type ∧
      selection.body = .ok response.body

/-- What the reads of a resource that holds RDF return. -/
theorem World.storedRdf_resource
    {world : World} {url : ResourceUrl space}
    {leaf : Text.endsWith ['/'] url.path = false} {stored : Skolemized}
    (isStored : world.storedRdf (.resource url leaf) = some stored) :
    world.kindOf url = .ok (some .rdf) ∧
      Program.eval backend (getDataset url) world =
        (.ok (some stored), world) := by
  unfold World.storedRdf at isStored
  dsimp only at isStored
  split at isStored
  · cases isStored
  · next notBinary =>
      split at isStored
      · next read isRead =>
          subst isStored
          refine ⟨?_, Prod.ext isRead
            ((readsOnly_getDataset url).eval_world world)⟩
          rw [World.kindOf, (getDataset_eq_some isRead).1, if_pos rfl,
            if_neg notBinary]
      · cases isStored

/-- What reading the graph of another target returns. -/
theorem World.storedRdf_graph
    {world : World} {target : Target space} {stored : Skolemized}
    (notResource : ∀ url leaf, target ≠ .resource url leaf)
    (isStored : world.storedRdf target = some stored) :
    world.present target.node = true ∧
      stored = world.graphQuads (graphIri target) := by
  unfold World.storedRdf at isStored
  split at isStored
  · next url leaf =>
      exact (notResource url leaf rfl).elim
  · split at isStored
    · next isPresent =>
        exact ⟨isPresent, (Option.some.inj isStored).symm⟩
    · cases isStored

/-- A header map selects at most one representation of a state. -/
theorem World.Selects.unique [ObjectPath] [Quality]
    {world : World} {target : Target space} {headers : HeaderMap}
    {first second : Selection}
    (firstSelects : world.Selects target headers first)
    (secondSelects : world.Selects target headers second) :
    first = second := by
  have apart :
      ∀ {stored : Skolemized} {url : ResourceUrl space}
        {leaf : Text.endsWith ['/'] url.path = false} {mediaType : MediaType},
        world.storedRdf target = some stored →
        target = .resource url leaf →
        world.kindOf url ≠ .ok (some (.binary mediaType)) := by
    rintro stored url leaf mediaType isStored rfl isBinary
    rw [(World.storedRdf_resource isStored).1] at isBinary
    cases isBinary
  cases firstSelects with
  | rdf isStored isNegotiated =>
      cases secondSelects with
      | rdf isOther isOtherNegotiated =>
          cases isStored.symm.trans isOther
          cases isNegotiated.symm.trans isOtherNegotiated
          rfl
      | blob isTarget isBinary _ _ _ =>
          exact (apart isStored isTarget isBinary).elim
  | blob isTarget isBinary _ isKey isThere =>
      cases secondSelects with
      | rdf isStored _ =>
          exact (apart isStored isTarget isBinary).elim
      | blob isOther isOtherBinary _ isOtherKey isOtherThere =>
          cases isTarget.symm.trans isOther
          cases isBinary.symm.trans isOtherBinary
          cases isKey.symm.trans isOtherKey
          cases isThere.symm.trans isOtherThere
          rfl

/-! ## Responses come from selections -/

section Reading

variable [Sha256] [ObjectPath] [QuadText] [RdfSerializer] [Quality]
variable {world : World} {target : Target space} {headers : HeaderMap}
variable {storeVersion : RdfVersion} {response : Response} {tag : Text}

omit [IriSyntax] [Sha256] [ObjectPath] [QuadText] [RdfSerializer] [Quality] in
/-- Responses of another status that have no validator. -/
theorem not_represents_ofStatus {status : Nat} (notOk : status ≠ 200) :
    ¬ (Response.ofStatus status).Represents := by
  rintro (isOk | ⟨tag, impossible⟩)
  · exact notOk isOk
  · cases impossible

omit [IriSyntax] [Sha256] [ObjectPath] [QuadText] [RdfSerializer] [Quality] in
theorem not_represents_internalError :
    ¬ Response.internalError.Represents := by
  rintro (impossible | ⟨tag, impossible⟩)
  · cases impossible
  · cases impossible

omit [Sha256] [ObjectPath] [QuadText] [RdfSerializer] [Quality] in
theorem not_represents_absent (target : Target space) :
    ¬ ((Response.ofStatus 404).withAuxLinks target).Represents :=
  fun represents => not_represents_ofStatus (by decide)
    (represents.of_describes (Response.describes_withAuxLinks _ target))

omit [ObjectPath] [Quality] in
/-- A representation, whatever other fields it was given. -/
theorem Selection.shown_of_representation
    {selection : Selection} {bytes : Bytes}
    (isBody : selection.body = .ok bytes)
    (describes :
      Response.Describes response
        (.ofRepresentation selection.type selection.tag bytes)) :
    selection.Shown response := by
  refine ⟨?_, fun _ => ⟨?_, ?_⟩⟩
  · rw [describes.header _ (by decide)]
    rfl
  · rw [describes.header _ (by decide)]
    rfl
  · rw [describes.body, isBody]
    rfl

omit [ObjectPath] [Quality] in
/-- An unchanged representation, by its validator alone. -/
theorem Selection.shown_of_notModified
    {selection : Selection}
    (describes :
      Response.Describes response (.ofTag 304 selection.tag [])) :
    selection.Shown response := by
  refine ⟨?_, fun isWhole => ?_⟩
  · rw [describes.header _ (by decide)]
    rfl
  · rw [describes.status] at isWhole
    cases isWhole

omit [Sha256] [ObjectPath] [Quality] in
/-- What the serializer returned for the body of a selection. -/
theorem Selection.body_eq_ok
    {stored : Skolemized} {format : Format} {requested : RdfVersion}
    {bytes : Bytes}
    (isBody : (Selection.rdf stored format requested).body = .ok bytes) :
    ∃ text,
      format.serialize ((carriedBy format stored.deskolemize).projectTo
          (requested.min stored.held)) = .ok text ∧
        bytes = Text.utf8 text := by
  unfold body at isBody
  dsimp only at isBody
  cases written :
      format.serialize ((carriedBy format stored.deskolemize).projectTo
        (requested.min stored.held)) with
  | error error =>
      rw [written] at isBody
      cases isBody
  | ok text =>
      rw [written] at isBody
      exact ⟨text, rfl, (Except.ok.inj isBody).symm⟩

section Rdf

variable {url : ResourceUrl space} {decision : Decision}
variable {stored : Skolemized} {format : Format} {requested : RdfVersion}
variable {bytes : Bytes}

omit [ObjectPath] [Quality] in
/-- A representation that is not unchanged is served whole. -/
theorem rdfRead_describes
    {links : Response → Response}
    (describing : ∀ response, Response.Describes (links response) response)
    (isBody : (Selection.rdf stored format requested).body = .ok bytes)
    (modified :
      headers.str? .ifNoneMatch ≠
        some (Selection.rdf stored format requested).tag) :
    Response.Describes
      (rdfRead storeVersion target decision headers stored format requested
        (carriedBy format stored.deskolemize) links)
      (.ofRepresentation (Selection.rdf stored format requested).type
        (Selection.rdf stored format requested).tag bytes) := by
  obtain ⟨text, written, rfl⟩ := Selection.body_eq_ok isBody
  have notModified :
      headers.str? .ifNoneMatch ≠
        some (stored.etag format
          (requested.min stored.deskolemize.rdfVersion)) := modified
  have serialized :
      format.serialize ((carriedBy format stored.deskolemize).projectTo
        (requested.min stored.deskolemize.rdfVersion)) = .ok text := written
  unfold rdfRead
  dsimp only
  rw [if_neg notModified, serialized]
  exact (Response.describes_withReadHeaders _ target decision
    storeVersion).trans ((describing _).trans
      (Response.describes_withVersionLink _ _ _ _ _))

omit [ObjectPath] [Quality] in
/-- A representation shows the selection that was negotiated. -/
theorem rdfRead_shown
    {links : Response → Response}
    (describing : ∀ response, Response.Describes (links response) response)
    (represents :
      (rdfRead storeVersion target decision headers stored format requested
        (carriedBy format stored.deskolemize) links).Represents) :
    (Selection.rdf stored format requested).Shown
      (rdfRead storeVersion target decision headers stored format requested
        (carriedBy format stored.deskolemize) links) := by
  unfold rdfRead at represents ⊢
  dsimp only at represents ⊢
  split
  · exact Selection.shown_of_notModified
      (Response.describes_withReadHeaders _ target decision storeVersion)
  · next modified =>
      rw [if_neg modified] at represents
      split
      · next failed =>
          rw [failed] at represents
          exact (not_represents_internalError represents).elim
      · next text written =>
          refine Selection.shown_of_representation
            (congrArg (Except.map Text.utf8) written) ?_
          exact (Response.describes_withReadHeaders _ target decision
            storeVersion).trans ((describing _).trans
              (Response.describes_withVersionLink _ _ _ _ _))

omit [Sha256] [ObjectPath] [QuadText] [RdfSerializer] [Quality] in
theorem describes_partialLinks (response : Response) :
    Response.Describes (partialLinks url stored format response)
      response := by
  unfold partialLinks
  split
  · exact Response.describes_withPartialLinks response _ _
  · exact .refl response

end Rdf

omit [Sha256] [ObjectPath] [QuadText] [RdfSerializer] [Quality] in
/-- A single graph is carried whole by every format. -/
theorem carriedBy_graphQuads (world : World) (name : Text) (format : Format) :
    carriedBy format (world.graphQuads name).deskolemize =
      (world.graphQuads name).deskolemize := by
  unfold carriedBy
  split
  · rfl
  · have unnamed :
        (world.graphQuads name).deskolemize.quads.filter
            (fun quad => quad.graphName == .defaultGraph) =
          (world.graphQuads name).deskolemize.quads := by
      rw [List.filter_eq_self]
      intro quad member
      obtain ⟨ground, isGround, rfl⟩ := List.mem_map.mp member
      obtain ⟨triple, _, rfl⟩ := List.mem_map.mp isGround
      exact beq_self_eq_true _
    rw [Dataset.defaultGraphOnly, unnamed]

omit [ObjectPath] [Quality] in
theorem graphRead_eq
    (world : World) (name : Text) (decision : Decision) (format : Format)
    (requested : RdfVersion) :
    graphRead storeVersion target decision headers (world.graphQuads name)
        format requested =
      rdfRead storeVersion target decision headers (world.graphQuads name)
        format requested
        (carriedBy format (world.graphQuads name).deskolemize) id := by
  rw [carriedBy_graphQuads]
  rfl

omit [Sha256] [ObjectPath] [QuadText] [RdfSerializer] [Quality] in
theorem groundDataset_triplesOf (world : World) (name : Text) :
    groundDataset (world.triplesOf name) = some (world.graphQuads name) := by
  have same :
      asQuads (world.triplesOf name) =
        (world.graphQuads name).quads.map GroundQuad.toQuad := by
    simp only [asQuads, World.triplesOf, World.graphQuads, List.map_map]
    rfl
  rw [groundDataset, same]
  exact fromStore_toQuad _

omit [ObjectPath] in
/-- Reading a container or an auxiliary shows a selection. -/
theorem legacyGraphRead_selects
    {decision : Decision}
    (notResource : ∀ url leaf, target ≠ .resource url leaf)
    (served :
      (Program.eval backend
        (legacyGraphRead storeVersion decision target headers) world).1 =
          .ok response)
    (represents : response.Represents) :
    ∃ stored format requested,
      world.storedRdf target = some stored ∧
        world.negotiated target headers stored = some (format, requested) ∧
        (Selection.rdf stored format requested).Shown response := by
  have storedRdf :
      world.storedRdf target =
        if world.present target.node then
          some (world.graphQuads (graphIri target)) else none := by
    cases target with
    | resource url leaf =>
        exact (notResource url leaf rfl).elim
    | container url =>
        rfl
    | aux url =>
        rfl
  have negotiated :
      ∀ stored,
        world.negotiated target headers stored =
          negotiate (headerStr headers .accept) .graph none := by
    intro stored
    cases target with
    | resource url leaf =>
        exact (notResource url leaf rfl).elim
    | container url =>
        rfl
    | aux url =>
        rfl
  unfold legacyGraphRead at served
  split at served
  · cases served
    exact (not_represents_ofStatus (by decide) represents).elim
  · next format requested isNegotiated =>
      rw [Program.eval_bind, Program.eval_attempt, eval_getRdf] at served
      cases isPresent : world.present target.node with
      | false =>
          simp only [isPresent, Bool.false_eq_true, ↓reduceIte] at served
          cases served
          exact (not_represents_absent target represents).elim
      | true =>
          simp only [isPresent, ↓reduceIte, groundDataset_triplesOf] at served
          cases served
          rw [graphRead_eq] at represents ⊢
          refine ⟨_, format, requested, ?_, (negotiated _).trans isNegotiated,
            rdfRead_shown Response.Describes.refl represents⟩
          rw [storedRdf, isPresent, if_pos rfl]

omit [ObjectPath] in
/-- Reading a container or an auxiliary serves what was negotiated. -/
theorem legacyGraphRead_describes
    {decision : Decision} {stored : Skolemized} {format : Format}
    {requested : RdfVersion} {bytes : Bytes}
    (notResource : ∀ url leaf, target ≠ .resource url leaf)
    (isStored : world.storedRdf target = some stored)
    (isNegotiated :
      negotiate (headerStr headers .accept) .graph none =
        some (format, requested))
    (isBody : (Selection.rdf stored format requested).body = .ok bytes)
    (modified :
      headers.str? .ifNoneMatch ≠
        some (Selection.rdf stored format requested).tag) :
    ∃ response,
      (Program.eval backend
        (legacyGraphRead storeVersion decision target headers) world).1 =
          .ok response ∧
        Response.Describes response
          (.ofRepresentation (Selection.rdf stored format requested).type
            (Selection.rdf stored format requested).tag bytes) := by
  obtain ⟨isPresent, rfl⟩ := World.storedRdf_graph notResource isStored
  unfold legacyGraphRead
  rw [isNegotiated]
  dsimp only
  rw [Program.eval_bind, Program.eval_attempt, eval_getRdf, isPresent]
  simp only [↓reduceIte, groundDataset_triplesOf]
  refine ⟨_, rfl, ?_⟩
  rw [graphRead_eq]
  exact rdfRead_describes Response.Describes.refl isBody modified

omit [ObjectPath] in
/-- Reading a resource that holds RDF shows a selection. -/
theorem resourceRead_selects
    {url : ResourceUrl space}
    {leaf : Text.endsWith ['/'] url.path = false}
    {decision : Decision}
    (notBinary : world.binary url = false)
    (served :
      (Program.eval backend
        (resourceRead storeVersion (.resource url leaf) url decision headers)
          world).1 = .ok response)
    (represents : response.Represents) :
    ∃ stored format requested,
      world.storedRdf (.resource url leaf) = some stored ∧
        world.negotiated (.resource url leaf) headers stored =
          some (format, requested) ∧
        (Selection.rdf stored format requested).Shown response := by
  have unchanged := (readsOnly_getDataset url).eval_world world
  unfold resourceRead at served
  rw [Program.eval_bind, Program.eval_attempt, unchanged] at served
  dsimp only at served
  split at served
  · next stored isRead =>
      rw [Program.eval_bind, Program.eval_attempt,
        eval_storedMediaType] at served
      dsimp only at served
      split at served
      · cases served
        exact (not_represents_ofStatus (by decide) represents).elim
      · next format requested isNegotiated =>
          cases served
          refine ⟨stored, format, requested, ?_, isNegotiated,
            rdfRead_shown describes_partialLinks represents⟩
          rw [World.storedRdf, notBinary, isRead]
          rfl
  · cases served
    exact (not_represents_absent _ represents).elim
  · cases served
    exact (not_represents_ofStatus (by decide) represents).elim
  · cases served
    exact (not_represents_internalError represents).elim

/-- Reading a binary resource shows its bytes. -/
theorem blobRead_selects
    {url : ResourceUrl space} {mediaType : MediaType}
    (served :
      (Program.eval backend
        (blobRead storeVersion target url headers mediaType) world).1 =
          .ok response)
    (represents : response.Represents) :
    ∃ key bytes,
      acceptAllows (headerStr headers .accept) mediaType = true ∧
        BlobKey.of url = some key ∧
        world.blobs key = some bytes ∧
        (Selection.blob bytes mediaType).Shown response := by
  unfold blobRead at served
  split at served
  · cases served
    exact (not_represents_ofStatus (by decide) represents).elim
  · next acceptable =>
    have isAcceptable :
        acceptAllows (headerStr headers .accept) mediaType = true := by
      simpa using acceptable
    split at served
    · cases served
      exact (not_represents_ofStatus (by decide) represents).elim
    · next key isKey =>
        rw [Program.eval_bind, Program.eval_attempt,
          StoreProgram.eval_issue rfl] at served
        dsimp only at served
        split at served
        · next failed =>
            cases served
            exact (not_represents_internalError represents).elim
        · cases served
          exact (not_represents_ofStatus (by decide)
            (represents.of_describes ((Response.describes_withAuxLinks _
              target).trans (Response.describes_warning _ _)))).elim
        · next bytes isThere =>
            refine ⟨key, bytes, isAcceptable, isKey, Except.ok.inj isThere, ?_⟩
            split at served
            · cases served
              exact Selection.shown_of_notModified
                (Response.describes_withAllow _ target storeVersion)
            · cases served
              have isBody :
                  (Selection.blob bytes mediaType).body = .ok bytes := rfl
              exact Selection.shown_of_representation isBody
                (Response.describes_withAllow _ target storeVersion)

omit [Sha256] [QuadText] [RdfSerializer] [Quality] [ObjectPath] in
theorem World.not_binary_of_kindOf
    {url : ResourceUrl space} (isRdf : world.kindOf url = .ok (some .rdf)) :
    world.binary url = false := by
  unfold World.kindOf at isRdf
  split at isRdf
  · split at isRdf
    · split at isRdf
      · cases isRdf
      · cases isRdf
    · next notBinary =>
        exact Bool.eq_false_iff.mpr notBinary
  · cases isRdf

/-- Every representation `GET` answers with shows a selection. -/
theorem getImpl_selects
    {agent : Agent}
    (served :
      (Program.eval backend (getImpl storeVersion agent target headers)
        world).1 = .ok response)
    (represents : response.Represents) :
    ∃ selection,
      world.Selects target headers selection ∧ selection.Shown response := by
  have probed := eval_probeFor world agent target
  unfold getImpl at served
  rw [Program.eval_bind_ok probed, Program.eval_bind, orDeny,
    Program.eval_ofExcept] at served
  cases decided : (world.guard agent target).authorize .read with
  | error denial =>
      rw [decided] at served
      cases served
  | ok decision =>
      rw [decided] at served
      dsimp only [Except.mapError] at served
      cases target with
      | resource url leaf =>
          dsimp only at served
          rw [Program.eval_bind, Program.eval_attempt, eval_kindOf] at served
          dsimp only at served
          split at served
          · next mediaType isBinary =>
              obtain ⟨key, bytes, isAcceptable, isKey, isThere, shown⟩ :=
                blobRead_selects served represents
              exact ⟨.blob bytes mediaType,
                .blob rfl isBinary isAcceptable isKey isThere, shown⟩
          · next isRdf =>
              obtain ⟨stored, format, requested, isStored, isNegotiated,
                  shown⟩ :=
                resourceRead_selects (World.not_binary_of_kindOf isRdf) served
                  represents
              exact ⟨.rdf stored format requested, .rdf isStored isNegotiated,
                shown⟩
          · cases served
            exact (not_represents_absent _ represents).elim
          · cases served
            exact (not_represents_ofStatus (by decide) represents).elim
          · cases served
            exact (not_represents_internalError represents).elim
      | container url =>
          obtain ⟨stored, format, requested, isStored, isNegotiated, shown⟩ :=
            legacyGraphRead_selects (by simp) served represents
          exact ⟨.rdf stored format requested, .rdf isStored isNegotiated,
            shown⟩
      | aux url =>
          obtain ⟨stored, format, requested, isStored, isNegotiated, shown⟩ :=
            legacyGraphRead_selects (by simp) served represents
          exact ⟨.rdf stored format requested, .rdf isStored isNegotiated,
            shown⟩

/--
A `GET` that is granted and not conditional serves every selection whose body
the serializer can write.
-/
theorem getImpl_serves
    {agent : Agent} {decision : Decision} {selection : Selection}
    {bytes : Bytes}
    (granted : (world.guard agent target).authorize .read = .ok decision)
    (selects : world.Selects target headers selection)
    (isBody : selection.body = .ok bytes)
    (unconditional : headers.str? .ifNoneMatch = none) :
    ∃ response,
      (Program.eval backend (getImpl storeVersion agent target headers)
          world).1 = .ok response ∧
        response.status = 200 ∧
        selection.Shown response := by
  have probed := eval_probeFor world agent target
  have decided :
      Program.eval backend (orDeny target
        ((world.guard agent target).authorize .read)) world =
          (.ok decision, world) := by
    rw [orDeny, granted, Program.eval_ofExcept]
    rfl
  have started :
      Program.eval backend (getImpl storeVersion agent target headers) world =
        _ :=
    (Program.eval_bind_ok probed).trans (Program.eval_bind_ok decided)
  have modified :
      ∀ tag : Text, headers.str? .ifNoneMatch ≠ some tag := by
    intro tag isTag
    rw [unconditional] at isTag
    cases isTag
  have shows :
      ∀ {response : Response},
        Response.Describes response
          (.ofRepresentation selection.type selection.tag bytes) →
        response.status = 200 ∧ selection.Shown response :=
    fun describes => ⟨describes.status,
      Selection.shown_of_representation isBody describes⟩
  rw [started]
  cases selects with
  | @blob url leaf key bytes' mediaType isTarget isBinary isAcceptable isKey
      isThere =>
      cases isBody
      subst isTarget
      have found :
          Call.answer world (.blobGet key) = .ok (some bytes) :=
        congrArg Except.ok isThere
      dsimp only
      rw [Program.eval_bind, Program.eval_attempt, eval_kindOf, isBinary]
      dsimp only
      unfold blobRead
      rw [isAcceptable, isKey]
      simp only [Bool.not_true, Bool.false_eq_true, ↓reduceIte]
      rw [Program.eval_bind, Program.eval_attempt,
        StoreProgram.eval_issue found]
      dsimp only
      rw [if_neg (modified _)]
      exact ⟨_, rfl, shows (Response.describes_withAllow _ _ storeVersion)⟩
  | @rdf stored format requested isStored isNegotiated =>
      cases target with
      | resource url leaf =>
          obtain ⟨isRdf, read⟩ := World.storedRdf_resource isStored
          have negotiated :
              negotiate (headerStr headers .accept) (storedShape stored)
                  (storedFormat (.ok (world.storedMediaType url))) =
                some (format, requested) := isNegotiated
          dsimp only
          rw [Program.eval_bind, Program.eval_attempt, eval_kindOf, isRdf]
          dsimp only
          unfold resourceRead
          rw [Program.eval_bind, Program.eval_attempt, read]
          dsimp only
          rw [Program.eval_bind, Program.eval_attempt, eval_storedMediaType]
          dsimp only
          rw [negotiated]
          exact ⟨_, rfl, shows (rdfRead_describes describes_partialLinks isBody
            (modified _))⟩
      | container url =>
          obtain ⟨response, served, describes⟩ :=
            legacyGraphRead_describes (by simp) isStored isNegotiated isBody
              (modified _)
          exact ⟨response, served, shows describes⟩
      | aux url =>
          obtain ⟨response, served, describes⟩ :=
            legacyGraphRead_describes (by simp) isStored isNegotiated isBody
              (modified _)
          exact ⟨response, served, shows describes⟩

end Reading

end Quadpod
