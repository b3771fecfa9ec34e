import Quadpod.ContainerBodies
import Quadpod.SkolemBijection

namespace Quadpod

open AtomicProgram GraphStore

/-!
# The validation view of a container

`?validate` shows a report on a container's graph without what this pod adds to
it on write.  What remains is meant to be the body that was validated when it
was written.  The types the pod adds may stand in an accepted body as well,
though, and are then taken from the view although they were validated; and a
literal that is not the canonical one of its value is shown as the one that is.
-/

variable [IriSyntax] {space : StorageSpace} {container : ContainerUrl space}

/-! ## What the view leaves out -/

theorem mem_containerTypes {triple : GroundTriple} :
    triple ∈ (containerTypes container).map GroundQuad.toTriple ↔
      triple.subject = container.node ∧ triple.predicate = rdfType ∧
        (triple.object = .namedNode ldpContainer ∨
          triple.object = .namedNode ldpBasicContainer) := by
  obtain ⟨subject, predicate, object⟩ := triple
  simp only [containerTypes, List.map_cons, List.map_nil, List.mem_cons,
    List.not_mem_nil, or_false, GroundQuad.toTriple, GroundTriple.mk.injEq]
  constructor
  · rintro (⟨rfl, rfl, rfl⟩ | ⟨rfl, rfl, rfl⟩)
    · exact ⟨rfl, rfl, Or.inl rfl⟩
    · exact ⟨rfl, rfl, Or.inr rfl⟩
  · rintro ⟨rfl, rfl, rfl | rfl⟩
    · exact Or.inl ⟨rfl, rfl, rfl⟩
    · exact Or.inr ⟨rfl, rfl, rfl⟩

/-- Of the triples whose object is no IRI only members are managed. -/
theorem isServerManaged_of_unnamed
    {containerIri : Text} {triple : Triple}
    (unnamed : ∀ node, triple.object ≠ .namedNode node) :
    isServerManaged containerIri triple =
      (triple.predicate.iri == ldpContainsIri) := by
  unfold isServerManaged
  split
  · next contains =>
      exact contains.symm
  · next notContains =>
      rw [Bool.eq_false_iff.mpr notContains]
      dsimp only
      split
      · split
        · split
          · next node isNode => exact (unnamed node isNode).elim
          · rfl
        · rfl
      · split
        · split
          · next node isNode => exact (unnamed node isNode).elim
          · rfl
        · rfl

theorem isServerManaged_iff {triple : GroundTriple} :
    isServerManaged container.resource.iri triple.toTriple = true ↔
      container.Manages triple := by
  have sameIri :
      ∀ first second : NamedNode, first = second ↔ first.iri = second.iri :=
    fun first second => ⟨congrArg NamedNode.iri, NamedNode.ext_iri⟩
  have isOwn : container.node.iri = container.resource.iri := rfl
  have vocabulary :
      ldpContains.iri = ldpContainsIri ∧ rdfType.iri = rdfTypeIri ∧
        ldpContainer.iri = ldpContainerIri ∧
        ldpBasicContainer.iri = ldpBasicContainerIri :=
    ⟨rfl, rfl, rfl, rfl⟩
  obtain ⟨isContains, isType, isFirst, isSecond⟩ := vocabulary
  rw [ContainerUrl.Manages, mem_containerTypes]
  obtain ⟨subject, predicate, object⟩ := triple
  cases object with
  | namedNode node =>
      simp only [isServerManaged, GroundTriple.toTriple, GroundTerm.toTerm,
        GroundTerm.namedNode.injEq, sameIri, isOwn, isContains, isType,
        isFirst, isSecond, beq_iff_eq, Bool.and_eq_true, Bool.or_eq_true,
        Bool.if_true_left, Bool.if_false_right, decide_eq_true_eq]
      refine or_congr_right ?_
      rw [and_assoc, and_left_comm]
  | literal content =>
      have unnamed :
          ∀ node, GroundTerm.toTerm (.literal content) ≠ .namedNode node :=
        fun node isNode => by cases isNode
      rw [isServerManaged_of_unnamed unnamed]
      simp [sameIri, isContains, GroundTriple.toTriple]
  | triple inner innerPredicate object =>
      have unnamed :
          ∀ node,
            GroundTerm.toTerm (.triple inner innerPredicate object) ≠
              .namedNode node :=
        fun node isNode => by cases isNode
      rw [isServerManaged_of_unnamed unnamed]
      simp [sameIri, isContains, GroundTriple.toTriple]

theorem Skolemized.subjectFor_eq_namedNode {first second : NamedNode}
    (isNamed : subjectFor first = .namedNode second) : first = second := by
  unfold subjectFor at isNamed
  split at isNamed
  · cases isNamed
  · cases isNamed
    rfl

theorem Skolemized.termFor_eq_namedNode
    {object : GroundTerm} {node : NamedNode}
    (isNamed : termFor object = .namedNode node) :
    object = .namedNode node := by
  cases object with
  | namedNode other =>
      unfold termFor at isNamed
      split at isNamed
      · cases isNamed
      · cases isNamed
        rfl
  | literal content =>
      cases isNamed
  | triple subject predicate object =>
      cases isNamed

/-- A quad of the default graph is managed as it is shown. -/
theorem ContainerUrl.manages_shown
    {ground : GroundQuad} (isDefault : ground.graphName = .defaultGraph) :
    (Target.container container).manages ground.shown = true ↔
      container.Manages ground.toTriple := by
  have typed :
      ground.toTriple ∈ (containerTypes container).map GroundQuad.toTriple ↔
        ∃ type ∈ containerTypes container, ground.shown = type.toQuad := by
    constructor
    · intro isType
      obtain ⟨type, inTypes, same⟩ := List.mem_map.mp isType
      refine ⟨type, inTypes, ?_⟩
      rw [← shown_containerTypes inTypes]
      obtain ⟨subject, predicate, object, name⟩ := ground
      cases isDefault
      simp only [containerTypes, List.mem_cons, List.not_mem_nil, or_false]
        at inTypes
      obtain rfl | rfl := inTypes
      · cases same
        rfl
      · cases same
        rfl
    · rintro ⟨type, inTypes, same⟩
      have isSubject :=
        Skolemized.subjectFor_eq_namedNode (congrArg Quad.subject same)
      have isPredicate : ground.predicate = type.predicate :=
        congrArg Quad.predicate same
      have isObject : Skolemized.termFor ground.object = type.object.toTerm :=
        congrArg Quad.object same
      rw [mem_containerTypes]
      simp only [containerTypes, List.mem_cons, List.not_mem_nil, or_false]
        at inTypes
      obtain rfl | rfl := inTypes
      · exact ⟨isSubject, isPredicate,
          Or.inl (Skolemized.termFor_eq_namedNode isObject)⟩
      · exact ⟨isSubject, isPredicate,
          Or.inr (Skolemized.termFor_eq_namedNode isObject)⟩
  rw [Target.manages, Bool.or_eq_true, List.any_eq_true, Manages, typed,
    beq_iff_eq]
  simp only [beq_iff_eq]
  refine or_congr_left ⟨fun same => NamedNode.ext_iri same, ?_⟩
  exact congrArg NamedNode.iri

/-! ## What the view shows -/

section View

/-- The quads of a container's graph that the view shows. -/
def World.viewedQuads (world : World) (container : ContainerUrl space) :
    Skolemized where
  quads :=
    (((world.graphs container.resource.iri).triples.filter fun triple =>
      !isServerManaged container.resource.iri triple.toTriple)).map
        (·.toQuad .defaultGraph)

theorem groundDataset_withoutServerManaged
    (world : World) (container : ContainerUrl space) :
    groundDataset
        (withoutServerManaged (world.triplesOf container.resource.iri)
          container.resource.iri) =
      some (world.viewedQuads container) := by
  have same :
      asQuads
          (withoutServerManaged (world.triplesOf container.resource.iri)
            container.resource.iri) =
        (world.viewedQuads container).quads.map GroundQuad.toQuad := by
    simp only [asQuads, withoutServerManaged, World.triplesOf,
      World.viewedQuads, List.filter_map, List.map_map]
    rfl
  rw [groundDataset, same]
  exact Skolemized.fromStore_toQuad _

variable [LiteralForms]

/-- What `validate_view` validates of a container that exists. -/
theorem eval_validatedContent
    {world : World} (isPresent : world.present container.node = true) :
    Program.eval byValue
        (validatedContent (.container container : Target space)) world =
      (.ok (world.viewedQuads container).deskolemize, world) := by
  have isRead :
      Program.eval byValue
          (Program.mapError putError (getRdf container)) world =
        (.ok (some (world.triplesOf container.resource.iri)), world) := by
    have isTarget :
        getRdf container = getRdf (Target.container container) := rfl
    have isContainer :
        world.present (Target.container container).node = true := isPresent
    rw [Program.eval_mapError, (canonicalOnly_getRdf container).eval_byValue,
      isTarget, eval_getRdf, if_pos isContainer]
    rfl
  rw [validatedContent, Program.eval_bind_ok isRead]
  dsimp only
  rw [show graphIri container = container.resource.iri from rfl,
    groundDataset_withoutServerManaged]
  rfl

end View

/-- The view of a container shows what it holds without what is managed. -/
theorem mem_viewed
    {world : World} {body : Skolemized}
    (inDefault :
      ∀ ground ∈ body.quads,
        ground.toTriple.toQuad .defaultGraph = ground)
    (holds :
      world.HoldsBody container (body.quads.map GroundQuad.toTriple))
    {quad : Quad} :
    quad ∈ (world.viewedQuads container).deskolemize.quads ↔
      quad ∈
        ((Target.container container).clientPart body.deskolemize).quads := by
  rw [Target.mem_clientPart, Skolemized.mem_deskolemize,
    Skolemized.mem_deskolemize]
  constructor
  · rintro ⟨ground, member, rfl⟩
    obtain ⟨triple, isThere, rfl⟩ := List.mem_map.mp member
    obtain ⟨inGraph, kept⟩ := List.mem_filter.mp isThere
    have unmanaged : ¬ container.Manages triple := by
      rw [← isServerManaged_iff]
      simpa using kept
    obtain ⟨ground, isStored, rfl⟩ :=
      List.mem_map.mp ((holds.content triple unmanaged).mp inGraph)
    rw [inDefault ground isStored]
    refine ⟨⟨ground, isStored, rfl⟩, Bool.eq_false_iff.mpr fun managed => ?_⟩
    have isDefault : ground.graphName = .defaultGraph :=
      (congrArg GroundQuad.graphName (inDefault ground isStored)).symm
    exact unmanaged ((ContainerUrl.manages_shown isDefault).mp managed)
  · rintro ⟨⟨ground, isStored, rfl⟩, notManaged⟩
    have isDefault : ground.graphName = .defaultGraph :=
      (congrArg GroundQuad.graphName (inDefault ground isStored)).symm
    have unmanaged : ¬ container.Manages ground.toTriple := by
      rw [← ContainerUrl.manages_shown isDefault, notManaged]
      exact Bool.false_ne_true
    refine ⟨ground, List.mem_map.mpr ⟨ground.toTriple, ?_,
      inDefault ground isStored⟩, rfl⟩
    refine List.mem_filter.mpr ⟨?_, ?_⟩
    · exact (holds.content _ unmanaged).mpr
        (List.mem_map_of_mem isStored)
    · rw [← isServerManaged_iff] at unmanaged
      simpa using unmanaged

/-! ## Bodies that come back as they are -/

section Canonical

variable [LiteralForms]

/-- The term that comes back for a term, its blank nodes apart. -/
def Term.canonical : Term → Term
  | .namedNode node => .namedNode node
  | .blankNode node => .blankNode node
  | .literal content => .literal (LiteralForms.canonical content)
  | .triple subject predicate object =>
      .triple subject predicate object.canonical

/-- A body whose literals come back as they are, those of triple terms too. -/
def Dataset.Canonical (dataset : Dataset) : Prop :=
  ∀ quad ∈ dataset.quads, quad.object.canonical = quad.object

theorem Term.canonical_rename
    (relabel : BlankNode → BlankNode) (term : Term) :
    (term.rename relabel).canonical = term.canonical.rename relabel := by
  induction term with
  | namedNode node =>
      rfl
  | blankNode node =>
      rfl
  | literal content =>
      rfl
  | triple subject predicate object inductionHypothesis =>
      exact congrArg (Term.triple _ predicate) inductionHypothesis

theorem Dataset.Canonical.isomorphic
    {first second : Dataset} (canonical : first.Canonical)
    (isomorphic : first.Isomorphic second) : second.Canonical := by
  obtain ⟨there, back, renames⟩ := isomorphic
  intro quad member
  obtain ⟨inFirst, same⟩ := renames.back quad member
  have sameObject : (quad.object.rename back).rename there = quad.object :=
    congrArg Quad.object same
  have renamed :
      (quad.object.rename back).canonical = quad.object.rename back :=
    canonical _ inFirst
  rw [← sameObject, Term.canonical_rename, renamed]

namespace Skolemized

theorem canonical_termFor (object : GroundTerm) :
    (termFor object).canonical = termFor object.canonical := by
  induction object with
  | namedNode node =>
      rw [GroundTerm.canonical_namedNode]
      unfold termFor
      split
      · rfl
      · rfl
  | literal content =>
      rfl
  | triple subject predicate object inductionHypothesis =>
      exact congrArg (Term.triple _ predicate) inductionHypothesis

theorem canonical_ground
    (fresh : Nat → Uuid) (object : Term) (minted : Minted) :
    (ground fresh object minted).1.canonical =
      (ground fresh object.canonical minted).1 := by
  induction object generalizing minted with
  | namedNode node =>
      rfl
  | blankNode node =>
      rfl
  | literal content =>
      rfl
  | triple subject predicate object inductionHypothesis =>
      exact congrArg (GroundTerm.triple _ predicate) (inductionHypothesis _)

/-- What is shown of canonical quads is canonical. -/
theorem canonical_deskolemize (body : Skolemized) :
    body.canonical.deskolemize.Canonical := by
  intro quad member
  obtain ⟨ground, isGround, rfl⟩ := mem_deskolemize.mp member
  obtain ⟨original, _, rfl⟩ := List.mem_map.mp isGround
  change (termFor original.object.canonical).canonical =
    termFor original.object.canonical
  rw [canonical_termFor, GroundTerm.canonical_canonical]

/-- A body that comes back as it is is stored as it is. -/
theorem canonical_skolemize
    {dataset : Dataset} (canonical : dataset.Canonical)
    (fresh : Nat → Uuid) :
    (skolemize fresh dataset).canonical = skolemize fresh dataset := by
  have same :
      ∀ quad ∈ (skolemize fresh dataset).quads, quad.canonical = quad := by
    intro quad member
    obtain ⟨original, isOriginal, reached, rfl⟩ := mem_groundQuads member
    have sameObject (minted : Minted) :
        (ground fresh original.object minted).1.canonical =
          (ground fresh original.object minted).1 := by
      rw [canonical_ground, canonical original isOriginal]
    exact congrArg (GroundQuad.mk _ _ · _) (sameObject _)
  refine congrArg Skolemized.mk ((List.map_congr_left same).trans ?_)
  exact List.map_id _

end Skolemized

end Canonical

section View

/-- A body states a type of its own container that the pod adds itself. -/
def Dataset.StatesTypes
    (dataset : Dataset) (container : ContainerUrl space) : Prop :=
  ∃ quad ∈ dataset.quads,
    ∃ type ∈ containerTypes container, quad = type.toQuad

/-- Of an accepted body only the container's own types are managed. -/
theorem clientPart_eq_iff
    {dataset : Dataset}
    (checked : checkBody (.container container) dataset = .ok ()) :
    (∀ quad ∈ dataset.quads,
        (Target.container container).manages quad = false) ↔
      ¬ dataset.StatesTypes container := by
  have unnamed :=
    unnamed_of_checkBody (fun _ _ impossible => by cases impossible) checked
  have notContains :
      ∀ quad ∈ dataset.quads,
        (quad.predicate.iri == ldpContainsIri) = false := by
    intro quad member
    rw [← asQuads_of_unnamed unnamed] at member
    obtain ⟨triple, isTriple, rfl⟩ := List.mem_map.mp member
    refine beq_eq_false_iff_ne.mpr fun same => ?_
    exact not_containment_of_checkBody checked isTriple
      (NamedNode.ext_iri same)
  constructor
  · rintro unmanaged ⟨quad, member, type, isType, isQuad⟩
    have notManaged := unmanaged quad member
    rw [Target.manages, Bool.or_eq_false_iff, List.any_eq_false]
      at notManaged
    exact notManaged.2 type isType (beq_iff_eq.mpr isQuad)
  · intro notStated quad member
    rw [Target.manages, notContains quad member, Bool.false_or,
      List.any_eq_false]
    intro type isType isQuad
    exact notStated ⟨quad, member, type, isType, beq_iff_eq.mp isQuad⟩

variable [LiteralForms]

/--
The view is the body, unless something was left out, read as a blank node or
returned in another form.
-/
theorem viewed_isomorphic_iff
    {world : World} {fresh : Nat → Uuid} {dataset : Dataset}
    (distinct :
      Skolemized.DistinctBelow fresh dataset.blanks.dedup.length)
    (checked : checkBody (.container container) dataset = .ok ())
    (holds :
      world.HoldsBody container
        ((skolemizedTriples fresh
          dataset.defaultGraphOnly.triplesOf).map GroundTriple.canonical)) :
    (world.viewedQuads container).deskolemize.Isomorphic dataset ↔
      dataset.Clear ∧ ¬ dataset.StatesTypes container ∧
        dataset.Canonical := by
  have unnamed :=
    unnamed_of_checkBody (fun _ _ impossible => by cases impossible) checked
  have stored :
      (skolemizedTriples fresh dataset.defaultGraphOnly.triplesOf).map
          GroundTriple.canonical =
        (Skolemized.skolemize fresh dataset).canonical.quads.map
          GroundQuad.toTriple := by
    rw [skolemizedTriples, asQuads_of_unnamed unnamed, Skolemized.canonical,
      List.map_map, List.map_map]
    rfl
  rw [stored] at holds
  have inDefault :
      ∀ ground ∈ (Skolemized.skolemize fresh dataset).canonical.quads,
        ground.toTriple.toQuad .defaultGraph = ground := by
    intro ground member
    obtain ⟨original, isOriginal, rfl⟩ := List.mem_map.mp member
    rw [Skolemized.skolemize, ← asQuads_of_unnamed unnamed] at isOriginal
    exact congrArg GroundQuad.canonical
      (Skolemized.toQuad_toTriple_groundQuads isOriginal)
  have viewed :
      ∀ quad,
        quad ∈ (world.viewedQuads container).deskolemize.quads ↔
          quad ∈
            ((Target.container container).clientPart
              (Skolemized.skolemize fresh
                dataset).canonical.deskolemize).quads :=
    fun _ => mem_viewed inDefault holds
  rw [← clientPart_eq_iff checked]
  constructor
  · intro isomorphic
    refine ⟨(Skolemized.clear_deskolemize _).isomorphic isomorphic, ?_, ?_⟩
    · intro quad member
      obtain ⟨there, back, renames⟩ := isomorphic
      have isViewed := (renames.back quad member).1
      have unmanaged :=
        (Target.mem_clientPart.mp ((viewed _).mp isViewed)).2
      rwa [Target.manages_rename] at unmanaged
    · have canonical :
          (world.viewedQuads container).deskolemize.Canonical := by
        intro quad isViewed
        exact Skolemized.canonical_deskolemize _ quad
          (Target.mem_clientPart.mp ((viewed quad).mp isViewed)).1
      exact canonical.isomorphic isomorphic
  · rintro ⟨clear, unmanaged, canonical⟩
    have below :
        (Skolemized.tableAfter fresh dataset.quads []).length ≤
          dataset.blanks.dedup.length :=
      Skolemized.length_tableAfter_le dataset
    have returned :
        dataset.Isomorphic (Skolemized.skolemize fresh dataset).deskolemize :=
      Skolemized.isomorphic_of_distinctBelow
        (distinct.mono (Set.Iio_subset_Iio below)) clear
    have wholeBody :
        dataset.Isomorphic ((Target.container container).clientPart dataset) := by
      refine Dataset.Isomorphic.of_mem_iff fun quad => ?_
      rw [Target.mem_clientPart]
      exact ⟨fun member => ⟨member, unmanaged quad member⟩, And.left⟩
    have wholeView :
        ((Target.container container).clientPart
            (Skolemized.skolemize fresh dataset).deskolemize).Isomorphic
          (world.viewedQuads container).deskolemize := by
      rw [← Skolemized.canonical_skolemize canonical fresh]
      exact Dataset.Isomorphic.of_mem_iff fun quad => (viewed quad).symm
    exact ((wholeBody.trans
      ((Target.container container).isomorphic_clientPart returned)).trans
        wholeView).symm

end View

/-! ## The view after any number of requests -/

section Runs

variable [LiteralForms] [Sha256] [ObjectPath] [QuadText]
variable [RdfParser] [RdfSerializer] [ShapeEngine] [N3Parser]
variable {storeVersion : RdfVersion} {world after final : World}
variable {request : Request} {dataset : Dataset}

/--
After an accepted `PUT` or `POST` of a container, and whatever is created or
deleted elsewhere, what is validated for `?validate` is the body up to its blank
nodes exactly if the body states no type the pod adds itself, buries no minted
IRI and has its literals in the form the store returns.
-/
theorem validation_view_shows_body_iff
    (reachable :
      ReachableByValue space storeVersion (ProvisionedByValue space)
        anyRequest world)
    (accepts :
      AcceptsContainer storeVersion world request container dataset after)
    (hyphenated :
      ∀ number < dataset.blanks.dedup.length,
        (request.draws.blank number).Hyphenated)
    (distinct :
      Set.InjOn request.draws.blank (Set.Iio dataset.blanks.dedup.length))
    (followed :
      ReachableByValue space storeVersion (· = after)
        (leavesContainer container) final) :
    ∃ viewed,
      Program.eval byValue
          (validatedContent (.container container : Target space)) final =
          (.ok viewed, final) ∧
        (viewed.Isomorphic dataset ↔
          dataset.Clear ∧ ¬ dataset.StatesTypes container ∧
            dataset.Canonical) := by
  obtain ⟨holdsAfter, intactAfter⟩ := accepts.holdsBody reachable.intact
  have holds := followed.holdsBody holdsAfter intactAfter
  refine ⟨_, eval_validatedContent holds.present, ?_⟩
  exact viewed_isomorphic_iff
    (Skolemized.distinctBelow_of_hyphenated hyphenated distinct)
    accepts.wrote.checked holds

end Runs

end Quadpod

namespace Quadpod.Reference

open AtomicProgram

theorem noteFolder_slash : Text.endsWith ['/'] noteFolder.path = true := by
  decide

/-- The container `/note/`. -/
def folder : ContainerUrl podSpace := ⟨noteFolder, noteFolder_slash⟩

/-- The owner states the types of the container that is written. -/
def putTypes : Request where
  method := .put
  path := "/note/".toList
  agent := ownerAgent
  headers := [(.contentType, some "text/turtle".toList)]
  body := Text.utf8 (document folderQuads)
  draws := draws

/-- The quads of a body that is read as RDF. -/
def bodyQuads : Except Response Repr → Option (List Quad)
  | .ok (.rdf body _ _) => some body.quads
  | _ => none

theorem classified_of_bodyQuads
    {result : Except Response Repr} {quads : List Quad}
    (isBody : bodyQuads result = some quads) :
    ∃ format declared, result = .ok (.rdf ⟨quads⟩ format declared) := by
  cases result with
  | error response =>
      cases isBody
  | ok repr =>
      cases repr with
      | blob bytes mediaType =>
          cases isBody
      | rdf body format declared =>
          cases isBody
          exact ⟨format, declared, rfl⟩

theorem provisioned_freshByValue :
    ProvisionedByValue podSpace freshByValue :=
  ⟨owner, true, uuid, outcome_of_answered (by decide)⟩

/-- Where two requests write, what they carry and that they succeed. -/
theorem run_putFolder :
    (classify podSpace "/note/".toList = .ok (.container folder) ∧
      classify podSpace "/note/child".toList ≠ .ok (.container folder)) ∧
      (succeeded (Program.eval byValue
          (handle podSpace .rdf12 putTypes) freshByValue).1 = true ∧
        bodyQuads (classifyBody putTypes.headers putTypes.body
          (.container folder) .rdf12) = some folderQuads) ∧
      succeeded (Program.eval byValue
          (handle podSpace .rdf12 (putStated "/note/".toList))
            freshByValue).1 = true ∧
        bodyQuads (classifyBody (putStated "/note/".toList).headers
          (putStated "/note/".toList).body (.container folder) .rdf12) =
            some statedQuads := by
  decide +kernel

/-- A `PUT` of the container that succeeds is accepted. -/
theorem acceptsContainer_folder
    {request : Request} {quads : List Quad}
    (isPut : request.method = .put)
    (isPath : request.path = "/note/".toList)
    (isBody :
      bodyQuads (classifyBody request.headers request.body
        (.container folder) .rdf12) = some quads)
    (isSuccess :
      succeeded (Program.eval byValue
        (handle podSpace .rdf12 request) freshByValue).1 = true) :
    AcceptsContainer .rdf12 freshByValue request folder ⟨quads⟩
      (Program.eval byValue (handle podSpace .rdf12 request)
        freshByValue).2 where
  sends := Or.inl isPut
  writes := by
    unfold World.writtenTarget
    rw [isPath, run_putFolder.1.1, isPut]
    rfl
  classified := classified_of_bodyQuads isBody
  answered := eval_of_succeeded isSuccess

/-- The types were validated and accepted, and the view does not show them. -/
theorem statedTypes_not_viewed :
    ∃ after viewed,
      AcceptsContainer .rdf12 freshByValue putTypes folder ⟨folderQuads⟩ after ∧
        Program.eval byValue
            (validatedContent (.container folder : Target podSpace)) after =
          (.ok viewed, after) ∧
        ¬ viewed.Isomorphic ⟨folderQuads⟩ := by
  obtain ⟨_, ⟨isSuccess, isBody⟩, _⟩ := run_putFolder
  have accepts := acceptsContainer_folder rfl rfl isBody isSuccess
  obtain ⟨holds, _⟩ :=
    accepts.holdsBody provisioned_freshByValue.intact
  refine ⟨_, _, accepts, eval_validatedContent holds.present, ?_⟩
  rw [viewed_isomorphic_iff (distinct_draws.injOn) accepts.wrote.checked
    holds]
  rintro ⟨_, notStated, _⟩
  refine notStated ⟨_, List.mem_cons_self, _, List.mem_cons_of_mem _
    List.mem_cons_self, ?_⟩
  rfl

/-- The statement about a statement is shown, also after a child was created. -/
theorem stated_viewed_with_child :
    ∃ after final viewed,
      AcceptsContainer .rdf12 freshByValue (putStated "/note/".toList) folder
          ⟨statedQuads⟩ after ∧
        final =
          afterRequestByValue podSpace .rdf12
            (putStated "/note/child".toList) [] after ∧
        Program.eval byValue
            (validatedContent (.container folder : Target podSpace)) final =
          (.ok viewed, final) ∧
        viewed.Isomorphic ⟨statedQuads⟩ := by
  obtain ⟨⟨_, elsewhere⟩, _, isSuccess, isBody⟩ := run_putFolder
  have accepts := acceptsContainer_folder rfl rfl isBody isSuccess
  have noBlanks : (⟨statedQuads⟩ : Dataset).blanks.dedup.length = 0 := by
    decide
  have followed :
      ∀ after,
        ReachableByValue podSpace .rdf12 (· = after) (leavesContainer folder)
          (afterRequestByValue podSpace .rdf12
            (putStated "/note/child".toList) [] after) :=
    fun after => .request after _ [] (.start after rfl)
      ⟨fun _ => elsewhere, fun isPost => by cases isPost⟩
  obtain ⟨viewed, isViewed, shows⟩ :=
    validation_view_shows_body_iff
      (.start freshByValue provisioned_freshByValue) accepts
      (fun number isSmall => by
        rw [noBlanks] at isSmall
        cases isSmall)
      (fun number isSmall => by
        rw [noBlanks] at isSmall
        cases isSmall)
      (followed _)
  refine ⟨_, _, viewed, accepts, rfl, isViewed, shows.mpr ⟨?_, ?_, ?_⟩⟩
  · exact Skolemized.clear_of_unreserved (by decide)
  · rintro ⟨quad, member, type, isType, rfl⟩
    have notType : plainPredicate ≠ rdfType := by
      decide
    have isPlain : type.toQuad.predicate = plainPredicate := by
      rw [List.mem_singleton.mp member]
    simp only [containerTypes, List.mem_cons, List.not_mem_nil, or_false]
      at isType
    obtain rfl | rfl := isType
    · exact notType isPlain.symm
    · exact notType isPlain.symm
  · intro quad member
    obtain rfl := List.mem_singleton.mp member
    rfl

end Quadpod.Reference
