import Quadpod.AcceptedPuts
import Quadpod.SkolemRoundTrip
import Quadpod.StrongValidators
import Quadpod.VersionProjection

namespace Quadpod

open AtomicProgram

/-!
# Reading and writing back

A client that writes back what it was served expects to change nothing.  What it
was served is a projection: a graph format leaves named graphs out, and a lower
version leaves terms out.  For a resource `put_write` refuses to replace what
the served form could not carry.  Containers and auxiliaries are not checked, so
there the body that was served below the version held deletes what it hid.
-/

variable [IriSyntax] {space : StorageSpace}

/-! ## What the server states itself -/

/-- The quads of a target that are the server's own: members and types. -/
def Target.manages (target : Target space) (quad : Quad) : Bool :=
  match target with
  | .container url =>
      quad.predicate.iri == ldpContainsIri ||
        (containerTypes url).any fun ground => quad == ground.toQuad
  | _ => false

/-- A dataset without the server's own quads. -/
def Target.clientPart (target : Target space) (dataset : Dataset) : Dataset where
  quads := dataset.quads.filter fun quad => !target.manages quad

theorem Target.mem_clientPart {target : Target space} {dataset : Dataset}
    {quad : Quad} :
    quad ∈ (target.clientPart dataset).quads ↔
      quad ∈ dataset.quads ∧ target.manages quad = false := by
  rw [clientPart, List.mem_filter, Bool.not_eq_true']

theorem Term.rename_eq_toTerm {object : Term} {ground : GroundTerm}
    {relabel : BlankNode → BlankNode} :
    object.rename relabel = ground.toTerm ↔ object = ground.toTerm := by
  induction ground generalizing object with
  | namedNode node =>
      cases object <;> simp [rename, GroundTerm.toTerm]
  | literal content =>
      cases object <;> simp [rename, GroundTerm.toTerm]
  | triple subject predicate ground inductionHypothesis =>
      cases object with
      | triple otherSubject otherPredicate object =>
          cases otherSubject <;>
            simp [rename, GroundTerm.toTerm, inductionHypothesis,
              NamedOrBlankNode.rename]
      | namedNode node =>
          simp [rename, GroundTerm.toTerm]
      | blankNode blank =>
          simp [rename, GroundTerm.toTerm]
      | literal content =>
          simp [rename, GroundTerm.toTerm]

/-- A ground quad is only the renaming of itself. -/
theorem Quad.rename_eq_toQuad {quad : Quad} {ground : GroundQuad}
    {relabel : BlankNode → BlankNode} :
    quad.rename relabel = ground.toQuad ↔ quad = ground.toQuad := by
  obtain ⟨subject, predicate, object, name⟩ := quad
  simp only [rename, GroundQuad.toQuad, Quad.mk.injEq, Term.rename_eq_toTerm]
  have subjects :
      subject.rename relabel = .namedNode ground.subject ↔
        subject = .namedNode ground.subject := by
    cases subject <;> simp [NamedOrBlankNode.rename]
  rw [subjects]
  refine and_congr_right fun _ => and_congr_right fun _ =>
    and_congr_right fun _ => ?_
  cases ground.graphName <;> cases name <;> simp [GraphName.rename]

theorem Target.manages_rename
    (target : Target space) (relabel : BlankNode → BlankNode) (quad : Quad) :
    target.manages (quad.rename relabel) = target.manages quad := by
  cases target with
  | container container =>
      have types :
          ∀ ground : GroundQuad,
            (quad.rename relabel == ground.toQuad) =
              (quad == ground.toQuad) := by
        intro ground
        rw [Bool.eq_iff_iff, beq_iff_eq, beq_iff_eq, Quad.rename_eq_toQuad]
      simp only [manages, types]
      rfl
  | resource url leaf =>
      rfl
  | aux url =>
      rfl

theorem Target.isomorphic_clientPart
    (target : Target space) {first second : Dataset}
    (isomorphic : first.Isomorphic second) :
    (target.clientPart first).Isomorphic (target.clientPart second) := by
  refine isomorphic.filter (fun quad => !target.manages quad) ?_
  intro relabel quad
  rw [target.manages_rename]

theorem Target.rdfVersion_clientPart_le
    (target : Target space) (dataset : Dataset) {version : RdfVersion}
    (fits : dataset.rdfVersion ≤ version) :
    (target.clientPart dataset).rdfVersion ≤ version := by
  rw [Dataset.rdfVersion_le_iff] at fits ⊢
  intro quad member
  exact fits quad (mem_clientPart.mp member).1

/-! ## Projections -/

/-- A projection does not touch what the server states itself. -/
theorem Target.manages_projectQuad
    (target : Target space) {version : RdfVersion} {quad kept : Quad}
    (isKept : projectQuad version quad = some kept)
    (managed : target.manages quad = true) :
    target.manages kept = true := by
  obtain ⟨object, isObject, rfl⟩ := Option.map_eq_some_iff.mp isKept
  cases target with
  | container container =>
      simp only [manages, Bool.or_eq_true, List.any_eq_true,
        beq_iff_eq] at managed ⊢
      rcases managed with isContains | ⟨ground, isType, rfl⟩
      · exact Or.inl isContains
      · refine Or.inr ⟨ground, isType, ?_⟩
        simp only [containerTypes, List.mem_cons, List.not_mem_nil,
          or_false] at isType
        rcases isType with rfl | rfl
        · cases isObject
          rfl
        · cases isObject
          rfl
  | resource url leaf =>
      cases managed
  | aux url =>
      cases managed

/-- A projection keeps the client's quads when they all fit. -/
theorem Target.mem_clientPart_projectTo
    (target : Target space) {dataset : Dataset} {version : RdfVersion}
    (fits : (target.clientPart dataset).rdfVersion ≤ version) (quad : Quad) :
    quad ∈ (target.clientPart (dataset.projectTo version)).quads ↔
      quad ∈ (target.clientPart dataset).quads := by
  rw [Dataset.rdfVersion_le_iff] at fits
  have unchanged :
      ∀ quad ∈ (target.clientPart dataset).quads,
        projectQuad version quad = some quad := by
    intro quad member
    rw [projectQuad, projectObject_of_fits (fits quad member)]
    rfl
  unfold Dataset.projectTo
  split
  · rfl
  · rw [mem_clientPart, mem_clientPart, List.mem_filterMap]
    constructor
    · rintro ⟨⟨original, isOriginal, isKept⟩, notManaged⟩
      have isClient : target.manages original = false := by
        refine Bool.eq_false_iff.mpr fun managed => ?_
        rw [target.manages_projectQuad isKept managed] at notManaged
        cases notManaged
      rw [unchanged original (mem_clientPart.mpr ⟨isOriginal, isClient⟩)]
        at isKept
      cases isKept
      exact ⟨isOriginal, isClient⟩
    · rintro ⟨isOriginal, isClient⟩
      exact ⟨⟨quad, isOriginal,
        unchanged quad (mem_clientPart.mpr ⟨isOriginal, isClient⟩)⟩, isClient⟩

/-! ## What an accepted body leaves -/

/-- A stored quad as a client sees it. -/
def GroundQuad.shown (quad : GroundQuad) : Quad where
  subject := Skolemized.subjectFor quad.subject
  predicate := quad.predicate
  object := Skolemized.termFor quad.object
  graphName := Skolemized.graphNameFor quad.graphName

theorem Skolemized.mem_deskolemize {stored : Skolemized} {quad : Quad} :
    quad ∈ stored.deskolemize.quads ↔
      ∃ ground ∈ stored.quads, ground.shown = quad :=
  List.mem_map

theorem Skolemized.groundQuads_append
    (fresh : Nat → Uuid) (first second : List Quad) (minted : Minted) :
    groundQuads fresh (first ++ second) minted =
      groundQuads fresh first minted ++
        groundQuads fresh second (tableAfter fresh first minted) := by
  induction first generalizing minted with
  | nil =>
      rfl
  | cons quad rest inductionHypothesis =>
      simp only [List.cons_append, groundQuads, inductionHypothesis]
      rfl

/-- A document without named graphs is the default graph it consists of. -/
theorem asQuads_of_unnamed {dataset : Dataset}
    (unnamed : dataset.hasNamedGraphs = false) :
    asQuads dataset.defaultGraphOnly.triplesOf = dataset.quads := by
  have inDefault :
      ∀ quad ∈ dataset.quads, quad.graphName = .defaultGraph := by
    simpa [Dataset.hasNamedGraphs] using unnamed
  have whole : dataset.defaultGraphOnly.quads = dataset.quads := by
    rw [Dataset.defaultGraphOnly, List.filter_eq_self]
    intro quad member
    rw [inDefault quad member]
    exact beq_self_eq_true _
  rw [asQuads, Dataset.triplesOf, whole, List.map_map]
  refine (List.map_congr_left fun quad member => ?_).trans (List.map_id _)
  have isDefault := inDefault quad member
  obtain ⟨subject, predicate, object, name⟩ := quad
  cases isDefault
  rfl

/-- The ground quads of triples are in the default graph. -/
theorem Skolemized.toQuad_toTriple_groundQuads
    {fresh : Nat → Uuid} {triples : List Triple} {minted : Minted}
    {quad : GroundQuad}
    (member : quad ∈ groundQuads fresh (asQuads triples) minted) :
    quad.toTriple.toQuad .defaultGraph = quad := by
  obtain ⟨original, isOriginal, reached, rfl⟩ := mem_groundQuads member
  obtain ⟨triple, _, rfl⟩ := List.mem_map.mp isOriginal
  rfl

/-- The quads of a graph that holds the triples of a document. -/
theorem World.mem_graphQuads_skolemized
    {world : World} {name : Text} {fresh : Nat → Uuid}
    {triples : List Triple} {others : GroundTriple → Prop}
    (holds :
      ∀ triple,
        triple ∈ world.graphs name ↔
          triple ∈ skolemizedTriples fresh triples ∨ others triple)
    {quad : GroundQuad} :
    quad ∈ (world.graphQuads name).quads ↔
      quad ∈ Skolemized.groundQuads fresh (asQuads triples) [] ∨
        ∃ triple, others triple ∧ triple.toQuad .defaultGraph = quad := by
  rw [graphQuads, List.mem_map]
  constructor
  · rintro ⟨triple, isThere, rfl⟩
    rcases (holds triple).mp isThere with inDocument | isOther
    · obtain ⟨ground, isGround, rfl⟩ := List.mem_map.mp inDocument
      rw [Skolemized.toQuad_toTriple_groundQuads isGround]
      exact Or.inl isGround
    · exact Or.inr ⟨triple, isOther, rfl⟩
  · rintro (isGround | ⟨triple, isOther, rfl⟩)
    · refine ⟨quad.toTriple, (holds _).mpr (Or.inl ?_),
        Skolemized.toQuad_toTriple_groundQuads isGround⟩
      exact List.mem_map_of_mem isGround
    · exact ⟨triple, (holds triple).mpr (Or.inr isOther), rfl⟩

theorem blankFor_of_isHttp {node : NamedNode} (isHttp : IsHttp node.iri) :
    Skolemized.blankFor node = none := by
  unfold Skolemized.blankFor
  rw [Option.map_eq_none_iff, Text.stripPrefix_eq_none]
  rintro ⟨rest, isMinted⟩
  obtain ⟨httpRest, isHttp⟩ := isHttp
  rw [← isHttp] at isMinted
  cases (List.cons.inj isMinted).1

/-- The types of a container are shown as they are stored. -/
theorem shown_containerTypes
    {container : ContainerUrl space} {ground : GroundQuad}
    (isType : ground ∈ containerTypes container) :
    ground.shown = ground.toQuad := by
  have isContainer :
      Skolemized.blankFor container.node = none :=
    blankFor_of_isHttp container.resource.isHttp
  have vocabulary :
      Skolemized.blankFor ldpContainer = none ∧
        Skolemized.blankFor ldpBasicContainer = none := by
    have texts :
        IsHttp ldpContainerIri ∧ IsHttp ldpBasicContainerIri :=
      ⟨List.prefix_append _ _, List.prefix_append _ _⟩
    exact ⟨blankFor_of_isHttp texts.1, blankFor_of_isHttp texts.2⟩
  simp only [containerTypes, List.mem_cons, List.not_mem_nil,
    or_false] at isType
  rcases isType with rfl | rfl
  · simp [GroundQuad.shown, GroundQuad.toQuad, Skolemized.subjectFor,
      Skolemized.termFor, Skolemized.graphNameFor, GroundTerm.toTerm,
      isContainer, vocabulary.1]
  · simp [GroundQuad.shown, GroundQuad.toQuad, Skolemized.subjectFor,
      Skolemized.termFor, Skolemized.graphNameFor, GroundTerm.toTerm,
      isContainer, vocabulary.2]

section Writes

variable [Sha256] [ObjectPath] [QuadText]
variable [RdfParser] [RdfSerializer] [ShapeEngine]

omit [Sha256] [ObjectPath] [QuadText] [RdfParser] [RdfSerializer]
  [ShapeEngine] in
/-- Only a resource may have named graphs. -/
theorem unnamed_of_checkBody
    {target : Target space} {dataset : Dataset}
    (notResource : ∀ url leaf, target ≠ .resource url leaf)
    (checked : checkBody target dataset = .ok ()) :
    dataset.hasNamedGraphs = false := by
  unfold checkBody at checked
  split at checked
  · cases checked
  · split at checked
    · next url leaf =>
        exact (notResource url leaf rfl).elim
    · split at checked
      · cases checked
      · next unnamed =>
          exact Bool.eq_false_iff.mpr unnamed
    · split at checked
      · cases checked
      · next unnamed =>
          exact Bool.eq_false_iff.mpr unnamed

section Stored

variable {started : World} {fresh : Nat → Uuid} {dataset : Dataset}

omit [QuadText] [RdfParser] [RdfSerializer] [ShapeEngine] in
theorem storedRdf_after_auxiliary
    {url : AuxUrl space} (unnamed : dataset.hasNamedGraphs = false)
    (subjectPresent : started.present url.subject.node = true) :
    ∃ kept,
      (backend.after started
          ((StorageWrite.auxiliary url
            (skolemizedTriples fresh
              dataset.defaultGraphOnly.triplesOf)).calls started)).storedRdf
            (.aux url) = some kept ∧
        ∀ ground,
          ground ∈ kept.quads ↔
            ground ∈ (Skolemized.skolemize fresh dataset).quads := by
  have contents :
      ∀ triple,
        triple ∈
            (backend.after started
              ((StorageWrite.auxiliary url
                (skolemizedTriples fresh
                  dataset.defaultGraphOnly.triplesOf)).calls started)).graphs
              (graphIri (.aux url : Target space)) ↔
          triple ∈
              skolemizedTriples fresh dataset.defaultGraphOnly.triplesOf ∨
            False := by
    intro triple
    rw [or_false]
    exact mem_after_auxiliary subjectPresent
  refine ⟨_, if_pos (present_after_auxiliary subjectPresent), fun ground => ?_⟩
  rw [World.mem_graphQuads_skolemized contents, asQuads_of_unnamed unnamed]
  simp [Skolemized.skolemize]

omit [QuadText] [RdfParser] [RdfSerializer] [ShapeEngine] in
theorem storedRdf_after_container
    {url : ContainerUrl space} {others : List Triple}
    (unnamed : dataset.hasNamedGraphs = false)
    (members :
      ∀ triple ∈ others, triple.predicate.iri = ldpContainsIri) :
    ∃ kept,
      (backend.after started
          ((StorageWrite.container url
            (skolemizedTriples fresh
              (dataset.defaultGraphOnly.triplesOf ++ others))).calls
                started)).storedRdf (.container url) = some kept ∧
        ∀ quad,
          quad ∈
              ((Target.container url).clientPart kept.deskolemize).quads ↔
            quad ∈
              ((Target.container url).clientPart
                (Skolemized.skolemize fresh dataset).deskolemize).quads := by
  have isPresent :
      (backend.after started
        ((StorageWrite.container url
          (skolemizedTriples fresh
            (dataset.defaultGraphOnly.triplesOf ++ others))).calls
              started)).present url.node = true := by
    rw [World.present_iff, mem_after_container]
    exact Or.inr (Or.inr (Or.inr ⟨rfl, rfl⟩))
  have contents :
      ∀ triple,
        triple ∈
            (backend.after started
              ((StorageWrite.container url
                (skolemizedTriples fresh
                  (dataset.defaultGraphOnly.triplesOf ++ others))).calls
                    started)).graphs
              (graphIri (.container url : Target space)) ↔
          triple ∈
              skolemizedTriples fresh
                (dataset.defaultGraphOnly.triplesOf ++ others) ∨
            triple ∈ (containerTypes url).map GroundQuad.toTriple := by
    intro triple
    have elsewhere : url.resource.iri ≠ sysGraphOf url.resource.iri := by
      intro same
      have isSystem : IsHttp (sysGraphOf url.resource.iri) :=
        same ▸ url.resource.isHttp
      exact not_isHttp_sysGraphOf _ isSystem
    change triple ∈ (backend.after started _).graphs url.resource.iri ↔ _
    rw [mem_after_container]
    simp [ContainerUrl.Asserts, elsewhere]
  refine ⟨_, if_pos isPresent, fun quad => ?_⟩
  rw [Target.mem_clientPart, Target.mem_clientPart]
  refine and_congr_left fun notManaged => ?_
  rw [Skolemized.mem_deskolemize, Skolemized.mem_deskolemize]
  have whole :
      asQuads (dataset.defaultGraphOnly.triplesOf ++ others) =
        dataset.quads ++ asQuads others := by
    rw [← asQuads_of_unnamed unnamed]
    exact List.map_append
  constructor
  · rintro ⟨ground, isStored, rfl⟩
    rw [World.mem_graphQuads_skolemized contents, whole,
      Skolemized.groundQuads_append, List.mem_append] at isStored
    rcases isStored with (inBody | inOthers) | ⟨triple, isType, isGround⟩
    · exact ⟨ground, inBody, rfl⟩
    · obtain ⟨original, isOriginal, reached, rfl⟩ :=
        Skolemized.mem_groundQuads inOthers
      obtain ⟨triple, isOther, rfl⟩ := List.mem_map.mp isOriginal
      have isMember := members triple isOther
      refine absurd notManaged (Bool.eq_false_iff.not.mpr ?_)
      rw [not_not, Target.manages, Bool.or_eq_true]
      exact Or.inl (beq_iff_eq.mpr isMember)
    · obtain ⟨type, inTypes, rfl⟩ := List.mem_map.mp isType
      have sameType : ground = type := by
        rw [← isGround]
        simp only [containerTypes, List.mem_cons, List.not_mem_nil,
          or_false] at inTypes
        rcases inTypes with rfl | rfl
        · rfl
        · rfl
      refine absurd notManaged (Bool.eq_false_iff.not.mpr ?_)
      rw [not_not, Target.manages, Bool.or_eq_true, List.any_eq_true]
      refine Or.inr ⟨type, inTypes, beq_iff_eq.mpr ?_⟩
      rw [sameType]
      exact shown_containerTypes inTypes
  · rintro ⟨ground, inBody, rfl⟩
    refine ⟨ground, ?_, rfl⟩
    rw [World.mem_graphQuads_skolemized contents, whole,
      Skolemized.groundQuads_append, List.mem_append]
    exact Or.inl (Or.inl inBody)

end Stored

omit [Sha256] [ObjectPath] [QuadText] [RdfParser] [RdfSerializer]
  [ShapeEngine] in
theorem World.mem_keptMembers
    {world : World} {target : Target space} {triple : Triple}
    (isKept : triple ∈ world.keptMembers target) :
    triple.predicate.iri = ldpContainsIri := by
  cases target with
  | container url =>
      exact beq_iff_eq.mp (List.mem_filter.mp isKept).2
  | resource url leaf =>
      cases isKept
  | aux url =>
      cases isKept

omit [Sha256] [ObjectPath] [QuadText] [RdfParser] [RdfSerializer]
  [ShapeEngine] in
/-- An auxiliary is only written while its subject exists. -/
theorem subject_present_of_walk
    {world : World} {agent : Agent} {url : AuxUrl space}
    {walk : Guard.Walk space}
    (walked :
      (world.guard agent (.aux url)).authorizeWalk = .ok walk) :
    (backend.after world (planCalls walk.plan)).present url.subject.node =
      true := by
  obtain ⟨_, _, _, _, isKnown, _⟩ := Guard.authorizeWalk_eq_ok walked
  have probed :=
    world.guard_present agent (.aux url)
      (World.node_mem_candidates (.aux url)
        (World.subject_mem_chain (.aux url)))
  rw [World.present_iff, mem_after_planCalls]
  exact Or.inl (World.present_iff.mp (probed.symm.trans (isKnown rfl)))

omit [QuadText] [RdfParser] [RdfSerializer] [ShapeEngine] in
/-- After an accepted `PUT` the client's part is that of the body. -/
theorem Accepted.isomorphic_clientPart
    (collisionFree : CollisionFree)
    {agent : Agent} {target : Target space} {draws : Draws}
    {dataset : Dataset} {format : Format} {declared : RdfVersion}
    {world after : World}
    (accepted :
      Accepted agent target draws dataset format declared world after)
    (distinct : Skolemized.Distinct draws.blank)
    (clear : dataset.Clear) :
    ∃ kept,
      after.storedRdf target = some kept ∧
        (target.clientPart dataset).Isomorphic
          (target.clientPart kept.deskolemize) := by
  have stored :=
    Skolemized.isomorphic_deskolemize_skolemize distinct clear
  have sameQuads :
      ∀ kept : Skolemized,
        (∀ ground,
          ground ∈ kept.quads ↔
            ground ∈ (Skolemized.skolemize draws.blank dataset).quads) →
        dataset.Isomorphic kept.deskolemize := by
    intro kept same
    refine stored.trans (.of_mem_iff fun quad => ?_)
    rw [Skolemized.mem_deskolemize, Skolemized.mem_deskolemize]
    exact exists_congr fun ground =>
      and_congr_left fun _ => (same ground).symm
  obtain ⟨walk, walked, rfl⟩ := accepted.written
  cases target with
  | resource url leaf =>
      obtain ⟨kept, isStored, same⟩ :=
        storedRdf_after_dataset collisionFree url leaf
          (Skolemized.skolemize draws.blank dataset) format.mediaType
      exact ⟨kept, isStored,
        Target.isomorphic_clientPart _ (sameQuads kept same)⟩
  | aux url =>
      obtain ⟨kept, isStored, same⟩ :=
        storedRdf_after_auxiliary
          (unnamed_of_checkBody (by simp) accepted.checked)
          (subject_present_of_walk walked)
      exact ⟨kept, isStored,
        Target.isomorphic_clientPart _ (sameQuads kept same)⟩
  | container url =>
      obtain ⟨kept, isStored, same⟩ :=
        storedRdf_after_container
          (unnamed_of_checkBody (by simp) accepted.checked)
          fun triple isKept => World.mem_keptMembers isKept
      exact ⟨kept, isStored,
        (Target.isomorphic_clientPart _ stored).trans
          (.of_mem_iff fun quad => (same quad).symm)⟩

/-! ## Writing back what was served -/

omit [IriSyntax] [Sha256] [ObjectPath] [QuadText] [RdfParser]
  [RdfSerializer] [ShapeEngine] in
/-- A served type names its format, and the version that was served. -/
theorem servedType_read (format : Format) (requested held : RdfVersion) :
    Text.trim (servedType format held (requested.min held)) =
        servedType format held (requested.min held) ∧
      (servedType format held (requested.min held)).isEmpty = false ∧
      Format.fromContentType
          (servedType format held (requested.min held)) = some format ∧
      RdfVersion.fromMediaType
          (servedType format held (requested.min held)) =
        some (requested.min held) := by
  cases format <;> cases requested <;> cases held <;> decide

/-- The dataset a representation is written from. -/
def Skolemized.served
    (stored : Skolemized) (format : Format) (requested : RdfVersion) :
    Dataset :=
  (carriedBy format stored.deskolemize).projectTo
    (requested.min stored.held)

/--
The parser reads a served body as the dataset it was written from, up to the
names of blank nodes.
-/
def Skolemized.ReadsBack
    (stored : Skolemized) (format : Format) (requested : RdfVersion)
    (base : Text) : Prop :=
  ∀ bytes,
    (Selection.rdf stored format requested).body = .ok bytes →
    ∃ read,
      RdfParser.parse format bytes base = .ok read ∧
        (stored.served format requested).Isomorphic ⟨read⟩

omit [Sha256] [ObjectPath] [QuadText] [RdfParser] [RdfSerializer]
  [ShapeEngine] in
theorem Skolemized.clear_served
    (stored : Skolemized) (format : Format) (requested : RdfVersion) :
    (stored.served format requested).Clear := by
  have clearCarried : (carriedBy format stored.deskolemize).Clear := by
    intro quad member
    unfold carriedBy at member
    split at member
    · exact stored.clear_deskolemize quad member
    · exact stored.clear_deskolemize quad (List.mem_filter.mp member).1
  unfold served Dataset.projectTo
  split
  · exact clearCarried
  · intro quad member
    obtain ⟨original, isOriginal, isKept⟩ := List.mem_filterMap.mp member
    obtain ⟨object, isObject, rfl⟩ := Option.map_eq_some_iff.mp isKept
    have isClear := clearCarried original isOriginal
    refine ⟨isClear.subject, ?_, isClear.graphName⟩
    have objectClear := isClear.object
    dsimp only
    unfold projectObject at isObject
    split at isObject
    · next isTriple =>
        split at isObject
        · cases isObject
        · cases isObject
          rw [isTriple] at objectClear
          exact objectClear
    · split at isObject
      · cases isObject
        trivial
      · cases isObject
        trivial
    · cases isObject
      exact objectClear

omit [Sha256] [ObjectPath] [ShapeEngine] in
/-- The body that was served, classified when it is written back. -/
theorem classifyBody_served
    {target : Target space} {stored : Skolemized} {format : Format}
    {requested storeVersion : RdfVersion} {headers : HeaderMap}
    {bytes : Bytes} {repr : Repr}
    (isBody : (Selection.rdf stored format requested).body = .ok bytes)
    (isType :
      headers.str? .contentType =
        some (Selection.rdf stored format requested).type)
    (readsBack : stored.ReadsBack format requested (graphIri target))
    (classified :
      classifyBody headers bytes target storeVersion = .ok repr) :
    ∃ dataset : Dataset,
      repr = .rdf dataset format (requested.min stored.held) ∧
        (stored.served format requested).Isomorphic dataset := by
  obtain ⟨read, isRead, isomorphic⟩ := readsBack bytes isBody
  obtain ⟨trimmed, nonempty, isFormat, isVersion⟩ :=
    servedType_read format requested stored.held
  have contentType :
      Text.trim (headerStr headers .contentType) =
        servedType format stored.held (requested.min stored.held) := by
    rw [headerStr, isType]
    exact trimmed
  unfold classifyBody at classified
  dsimp only at classified
  rw [contentType, nonempty, isFormat, isVersion] at classified
  dsimp only at classified
  split at classified
  · next impossible =>
      cases impossible
  · split at classified
    · cases classified
    · split at classified
      · next dataset isDataset =>
          cases classified
          refine ⟨dataset, rfl, ?_⟩
          unfold Format.parse at isDataset
          rw [isRead] at isDataset
          dsimp only at isDataset
          split at isDataset
          · cases isDataset
            exact isomorphic
          · cases isDataset
      · cases classified

omit [Sha256] [ObjectPath] [QuadText] [RdfParser] [RdfSerializer]
  [ShapeEngine] in
/-- What `put_write` checked of a resource that it replaces. -/
theorem checkExisting_eq_ok
    {url : ResourceUrl space}
    {leaf : Text.endsWith ['/'] url.path = false} {format : Format}
    {declared : RdfVersion} {world : World} {stored : Skolemized}
    (isStored : world.storedRdf (.resource url leaf) = some stored)
    (passes :
      (Program.eval backend
        (checkExisting (.resource url leaf) format declared) world).1 =
          .ok ()) :
    stored.held ≤ declared ∧
      (format.carriesDataset = true ∨ stored.hasNamedGraphs = false) := by
  have read :
      Program.eval backend
          (Program.mapError putError (getDataset url)) world =
        (.ok (some stored), world) := by
    rw [Program.eval_mapError, (World.storedRdf_resource isStored).2]
    rfl
  unfold checkExisting at passes
  dsimp only at passes
  rw [Program.eval_bind_ok read] at passes
  simp only [Option.map_some, Option.getD_some] at passes
  split at passes
  · cases passes
  · next enough =>
      refine ⟨Nat.not_lt.mp enough, ?_⟩
      split at passes
      · next carries =>
          exact Or.inl carries
      · rw [Program.eval_bind_ok read] at passes
        dsimp only at passes
        split at passes
        · cases passes
        · next unnamed =>
            exact Or.inr (Bool.eq_false_iff.mpr unnamed)

omit [Sha256] [ObjectPath] [QuadText] [RdfParser] [RdfSerializer]
  [ShapeEngine] in
/-- A format that can carry all of a dataset serves all of it. -/
theorem carriedBy_eq
    {stored : Skolemized} {format : Format}
    (carried :
      format.carriesDataset = true ∨ stored.hasNamedGraphs = false) :
    carriedBy format stored.deskolemize = stored.deskolemize := by
  unfold carriedBy
  split
  · rfl
  · next notCarried =>
      have unnamed : ∀ ground ∈ stored.quads,
          ground.graphName = .defaultGraph := by
        rcases carried with carries | unnamed
        · exact (notCarried carries).elim
        · simpa [Skolemized.hasNamedGraphs] using unnamed
      have whole :
          stored.deskolemize.quads.filter
              (fun quad => quad.graphName == .defaultGraph) =
            stored.deskolemize.quads := by
        rw [List.filter_eq_self]
        intro quad member
        obtain ⟨ground, isGround, rfl⟩ := List.mem_map.mp member
        dsimp only
        rw [unnamed ground isGround]
        rfl
      rw [Dataset.defaultGraphOnly, whole]

omit [Sha256] [ObjectPath] [QuadText] [RdfParser] [RdfSerializer]
  [ShapeEngine] in
/-- A representation at the version held shows the dataset as it is. -/
theorem Skolemized.served_eq
    {stored : Skolemized} {format : Format} {requested : RdfVersion}
    (carried :
      format.carriesDataset = true ∨ stored.hasNamedGraphs = false)
    (enough : stored.held ≤ requested.min stored.held) :
    stored.served format requested = stored.deskolemize := by
  rw [served, carriedBy_eq carried, Dataset.projectTo]
  exact if_pos enough

omit [Sha256] [ObjectPath] [QuadText] [RdfParser] [RdfSerializer]
  [ShapeEngine] in
/-- What a container or an auxiliary stores has no named graphs. -/
theorem unnamed_of_storedRdf
    {world : World} {target : Target space} {stored : Skolemized}
    (notResource : ∀ url leaf, target ≠ .resource url leaf)
    (isStored : world.storedRdf target = some stored) :
    stored.hasNamedGraphs = false := by
  obtain ⟨_, rfl⟩ := World.storedRdf_graph notResource isStored
  simp only [Skolemized.hasNamedGraphs, World.graphQuads, List.any_map,
    List.any_eq_false, bne_iff_ne, not_not, Function.comp_apply]
  intro triple _
  rfl

variable [Quality]

/--
A body that was served and is written back as it is, with the type it was served
with, leaves the client's part of the target as it was, up to the names of blank
nodes, exactly when the target is a resource, or the version that was asked for
covers what is stored.
-/
theorem put_back_preserves_iff
    (collisionFree : CollisionFree)
    {world after : World} {target : Target space} {stored : Skolemized}
    {format : Format} {requested storeVersion : RdfVersion}
    {reader writer : Agent} {getHeaders putHeaders : HeaderMap}
    {response answer : Response} {type : Text} {draws : Draws}
    (selects :
      world.Selects target getHeaders (.rdf stored format requested))
    (served :
      (Program.eval backend (getImpl storeVersion reader target getHeaders)
        world).1 = .ok response)
    (whole : response.status = 200)
    (typed : response.header "content-type".toList = some type)
    (readsBack : stored.ReadsBack format requested (graphIri target))
    (contentType : putHeaders.str? .contentType = some type)
    (distinct : Skolemized.Distinct draws.blank)
    (put :
      Program.eval backend
          (putWrite storeVersion writer target putHeaders response.body
            draws) world =
        (.ok answer, after))
    (accepted : answer.isSuccess = true) :
    (∃ kept,
      after.storedRdf target = some kept ∧
        (target.clientPart stored.deskolemize).Isomorphic
          (target.clientPart kept.deskolemize)) ↔
      (∃ url leaf, target = .resource url leaf) ∨
        (target.clientPart stored.deskolemize).rdfVersion ≤ requested := by
  obtain ⟨selection, otherSelects, shown⟩ :=
    getImpl_selects served (Or.inl whole)
  cases selects.unique otherSelects
  obtain ⟨isType, isBody⟩ := shown.whole whole
  have isStored : world.storedRdf target = some stored := by
    cases selects with
    | rdf isStored _ =>
        exact isStored
  cases isType.symm.trans typed
  obtain ⟨repr, classified, _⟩ := putWrite_classified put
  obtain ⟨dataset, rfl, isomorphic⟩ :=
    classifyBody_served isBody contentType readsBack classified
  have wasAccepted := putWrite_accepted classified put accepted
  obtain ⟨kept, isKept, keptIsomorphic⟩ :=
    wasAccepted.isomorphic_clientPart collisionFree distinct
      ((stored.clear_served format requested).isomorphic isomorphic)
  have shownIsomorphic :
      (target.clientPart (stored.served format requested)).Isomorphic
        (target.clientPart kept.deskolemize) :=
    (target.isomorphic_clientPart isomorphic).trans keptIsomorphic
  constructor
  · rintro ⟨other, isOther, preserved⟩
    cases isKept.symm.trans isOther
    refine Or.inr ?_
    rw [preserved.rdfVersion_eq, ← shownIsomorphic.rdfVersion_eq]
    refine target.rdfVersion_clientPart_le _ ?_
    exact Nat.le_trans (Dataset.projectTo_fits _ _)
      (RdfVersion.min_le_left requested stored.held)
  · intro covered
    refine ⟨kept, isKept, .trans ?_ shownIsomorphic⟩
    by_cases isResource : ∃ url leaf, target = .resource url leaf
    · obtain ⟨url, leaf, rfl⟩ := isResource
      obtain ⟨enough, carried⟩ :=
        checkExisting_eq_ok isStored wasAccepted.existing
      rw [Skolemized.served_eq carried enough]
      exact .of_mem_iff fun _ => Iff.rfl
    · have unnamed :=
        unnamed_of_storedRdf
          (fun url leaf isTarget => isResource ⟨url, leaf, isTarget⟩)
          isStored
      rw [Skolemized.served, carriedBy_eq (Or.inr unnamed)]
      refine .of_mem_iff fun quad =>
        (target.mem_clientPart_projectTo ?_ quad).symm
      exact RdfVersion.le_min (covered.resolve_left isResource)
        (target.rdfVersion_clientPart_le _ (RdfVersion.le_refl _))

end Writes

end Quadpod

namespace Quadpod.Reference

open AtomicProgram

theorem distinct_draws : Skolemized.Distinct draws.blank := by
  intro first second same
  have filtered :
      ∀ number, (uuid number).text.filter Char.isAlphanum =
        List.replicate (number + 1) 'a' := by
    intro number
    rw [uuid, List.filter_replicate_of_pos (by decide)]
  have sameText :
      List.replicate (first + 1) 'a' = List.replicate (second + 1) 'a' := by
    rw [← filtered, ← filtered]
    exact same
  have sameLength := congrArg List.length sameText
  simpa using sameLength

/-- The owner writes back what was served. -/
def putBack (type : Text) : HeaderMap := [(.contentType, some type)]

/-- Whether a request succeeded. -/
def succeeded (result : Except Response Response) : Bool :=
  result.toOption.any Response.isSuccess

theorem eval_of_succeeded
    {machine : Machine stores World} {program : HttpProgram Response}
    {world : World}
    (isSuccess :
      succeeded (Program.eval machine program world).1 = true) :
    ∃ answer,
      Program.eval machine program world =
          (.ok answer, (Program.eval machine program world).2) ∧
        answer.isSuccess = true := by
  cases isResult : (Program.eval machine program world).1 with
  | error response =>
      rw [isResult] at isSuccess
      cases isSuccess
  | ok answer =>
      rw [isResult] at isSuccess
      exact ⟨answer, Prod.ext isResult rfl, isSuccess⟩

/-- The body of a selection, from the quads that are served in order. -/
theorem body_of_sorted
    {stored : Skolemized} {requested : RdfVersion} {quads sorted : List Quad}
    (isServed : stored.served .turtle requested = ⟨quads⟩)
    (perm : quads.Perm sorted)
    (isSorted :
      sorted.Pairwise fun first second =>
        textLe (displayQuad first) (displayQuad second) = true) :
    (Selection.rdf stored .turtle requested).body =
      .ok (Text.utf8 (document sorted)) := by
  change (Format.serialize .turtle (stored.served .turtle requested)).map
    Text.utf8 = _
  rw [isServed, Format.serialize_eq_of_perm displayQuad_injective .turtle perm]
  have unchanged :
      (sorted.mergeSort fun first second =>
        textLe (QuadText.display first) (QuadText.display second)) =
          sorted :=
    List.mergeSort_of_pairwise isSorted
  unfold Format.serialize
  dsimp only
  rw [unchanged]
  rfl

/-- What the owner is served, and that it is accepted as a body. -/
theorem run_putBack_stated :
    stated.served .turtle .rdf12 = ⟨statedQuads⟩ ∧
      RdfParser.parse .turtle (Text.utf8 (document statedQuads))
          (graphIri noteTarget) = .ok statedQuads ∧
      succeeded (Program.eval backend
        (putWrite .rdf12 ownerAgent noteTarget
          (putBack (Selection.rdf stated .turtle .rdf12).type)
          (Text.utf8 (document statedQuads)) draws) statedWorld).1 = true := by
  decide +kernel

theorem body_stated :
    (Selection.rdf stated .turtle .rdf12).body =
      .ok (Text.utf8 (document statedQuads)) :=
  body_of_sorted run_putBack_stated.1 (.refl _) (List.pairwise_singleton _ _)

/-- The statement about a statement is written back as it was served. -/
theorem put_back_preserves_stated :
    ∃ response answer after kept,
      (Program.eval backend
          (getImpl .rdf12 ownerAgent noteTarget (turtleAt .rdf12))
            statedWorld).1 = .ok response ∧
        Program.eval backend
            (putWrite .rdf12 ownerAgent noteTarget
              (putBack (Selection.rdf stated .turtle .rdf12).type)
              response.body draws) statedWorld =
          (.ok answer, after) ∧
        answer.isSuccess = true ∧
        after.storedRdf noteTarget = some kept ∧
        (noteTarget.clientPart stated.deskolemize).Isomorphic
          (noteTarget.clientPart kept.deskolemize) := by
  obtain ⟨isServed, isRead, isSuccess⟩ := run_putBack_stated
  have selects := selects_stated storedRdf_statedWorld .rdf12
  obtain ⟨response, served, whole, shown⟩ :=
    getImpl_granted granted_statedWorld selects body_stated rfl
  obtain ⟨typed, isBody⟩ := shown.whole whole
  have sameBody := Except.ok.inj (body_stated.symm.trans isBody)
  have readsBack : stated.ReadsBack .turtle .rdf12 (graphIri noteTarget) := by
    intro bytes isBytes
    obtain rfl := Except.ok.inj (body_stated.symm.trans isBytes)
    refine ⟨statedQuads, isRead, ?_⟩
    rw [isServed]
    exact .of_mem_iff fun _ => Iff.rfl
  obtain ⟨answer, put, accepted⟩ := eval_of_succeeded isSuccess
  rw [sameBody] at put
  obtain ⟨kept, isKept, preserved⟩ :=
    (put_back_preserves_iff collisionFree selects served whole typed readsBack
      rfl distinct_draws put accepted).mpr (Or.inl ⟨_, _, rfl⟩)
  exact ⟨response, answer, _, kept, served, put, accepted, isKept, preserved⟩

/-- The container `/note/` as a target. -/
def folderTarget : Target podSpace := .container ⟨noteFolder, by decide⟩

/-- What the container holds: the statement and its types. -/
def foldered : Skolemized where
  quads := stated.quads ++ containerTypes ⟨noteFolder, by decide⟩

/-- The container that is left when what was served at 1.1 is put back. -/
theorem run_putBack_foldered :
    folderWorld.storedRdf folderTarget = some foldered ∧
      ((folderWorld.guard ownerAgent folderTarget).authorize .read).isOk =
        true ∧
      foldered.served .turtle .rdf11 = ⟨folderQuads.reverse⟩ ∧
      (folderQuads.Pairwise fun first second =>
        textLe (displayQuad first) (displayQuad second) = true) ∧
      succeeded (Program.eval backend
        (putWrite .rdf12 ownerAgent folderTarget
          (putBack "text/turtle;version=1.1".toList)
          (Text.utf8 (document folderQuads)) draws) folderWorld).1 = true ∧
      (Program.eval backend
        (putWrite .rdf12 ownerAgent folderTarget
          (putBack "text/turtle;version=1.1".toList)
          (Text.utf8 (document folderQuads)) draws) folderWorld).2.storedRdf
            folderTarget =
        some ⟨(containerTypes ⟨noteFolder, by decide⟩).reverse⟩ := by
  decide +kernel

/-- The container is served at 1.1 with nothing but its types. -/
theorem body_foldered :
    (Selection.rdf foldered .turtle .rdf11).body =
      .ok (Text.utf8 (document folderQuads)) := by
  obtain ⟨_, _, isServed, isSorted, _⟩ := run_putBack_foldered
  exact body_of_sorted isServed (List.reverse_perm _) isSorted

/-- Written back, it has lost the statement about a statement. -/
theorem put_back_loses_statement :
    ∃ response answer after kept,
      (Program.eval backend
          (getImpl .rdf12 ownerAgent folderTarget (turtleAt .rdf11))
            folderWorld).1 = .ok response ∧
        response.status = 200 ∧
        response.header "content-type".toList =
          some "text/turtle;version=1.1".toList ∧
        Program.eval backend
            (putWrite .rdf12 ownerAgent folderTarget
              (putBack "text/turtle;version=1.1".toList) response.body draws)
            folderWorld =
          (.ok answer, after) ∧
        answer.isSuccess = true ∧
        folderWorld.storedRdf folderTarget = some foldered ∧
        after.storedRdf folderTarget = some kept ∧
        ¬ (folderTarget.clientPart foldered.deskolemize).Isomorphic
          (folderTarget.clientPart kept.deskolemize) := by
  obtain ⟨isStored, granted, _, _, isSuccess, types⟩ := run_putBack_foldered
  have selects :
      folderWorld.Selects folderTarget (turtleAt .rdf11)
        (.rdf foldered .turtle .rdf11) :=
    .rdf isStored (negotiate_turtleAt .rdf11 none)
  obtain ⟨response, served, whole, shown⟩ :=
    getImpl_granted granted selects body_foldered rfl
  obtain ⟨typed, isBody⟩ := shown.whole whole
  have sameBody := Except.ok.inj (body_foldered.symm.trans isBody)
  obtain ⟨answer, put, accepted⟩ := eval_of_succeeded isSuccess
  rw [sameBody] at put types
  refine ⟨response, answer, _, _, served, whole, typed, put, accepted,
    isStored, types, fun preserved => ?_⟩
  have sameVersion := preserved.rdfVersion_eq
  revert sameVersion
  decide

end Quadpod.Reference
