import Quadpod.DatasetReads
import Quadpod.EarlyReturns
import Quadpod.PodRuns
import Quadpod.ReferencePod
import Quadpod.RequestWrites
import Quadpod.ResolvedPaths

namespace Quadpod

open AtomicProgram

/-!
# Shape enforcement fails closed

Between the binding of a container and a verdict there are many ways to get no
answer: several bindings, one that is no IRI of this pod, a document that is
absent, holds bytes or embeds queries, an engine that fails, a store that does
not reply.  Each of them ends a constrained write in a refusal, and it does so
before the request stores anything.
-/

variable [IriSyntax] {space : StorageSpace} {mayFail : Prop} {world : World}

/-! ## What a binding must name -/

/-- The container's graph states some `ldp:constrainedBy` of the container. -/
def World.Constrains (world : World) (container : ContainerUrl space) : Prop :=
  ∃ object,
    (⟨container.node, ldpConstrainedBy, object⟩ : GroundTriple) ∈
      world.graphs (graphIri container)

section Binding

variable [QuadText] [RdfSerializer]

/--
The one shape a container binds: the object of its only binding, the resource of
this pod it names, and the text of that resource's triples.  The bound IRI is
the resource's own, unless the base URI itself ends in several slashes.
-/
structure World.Binds
    (world : World) (container : ContainerUrl space)
    (bound : NamedNode) (document : ResourceUrl space) (shape : Shape) :
    Prop where
  only :
    ∀ object,
      (⟨container.node, ldpConstrainedBy, object⟩ : GroundTriple) ∈
          world.graphs (graphIri container) ↔
        object = .namedNode bound
  inPod : shapeDocument space bound.iri = .ok document
  named :
    Text.endsWith ['/', '/'] space.base = false →
    graphIri document = bound.iri
  leaf : Text.endsWith ['/'] document.path = false
  isRdf : world.kindOf document = .ok (some .rdf)
  queryFree :
    mentionsShaclSparql (world.triplesOf (graphIri document)) = false
  text :
    shapeTurtle bound.iri (world.triplesOf (graphIri document)) = .ok shape

omit [RdfSerializer] in
/-- The bindings that are accepted are the objects, all of them IRIs. -/
theorem bindings_eq_ok
    {containerIri : Text} {triples : List Triple} {iris : List Text}
    (accepted : bindings containerIri triples = .ok iris) :
    ∃ nodes : List NamedNode,
      triples.map Triple.object = nodes.map Term.namedNode ∧
        iris = nodes.map NamedNode.iri := by
  induction triples generalizing iris with
  | nil =>
      cases accepted
      exact ⟨[], rfl, rfl⟩
  | cons triple rest inductionHypothesis =>
      rw [bindings] at accepted
      split at accepted
      · next node isNode =>
          cases others : bindings containerIri rest with
          | error error =>
              rw [others] at accepted
              cases accepted
          | ok found =>
              rw [others] at accepted
              cases accepted
              obtain ⟨nodes, areObjects, rfl⟩ := inductionHypothesis others
              exact ⟨node :: nodes, by simp [isNode, areObjects], rfl⟩
      · cases accepted

omit [RdfSerializer] in
/-- The binding of a container is the object of its one triple. -/
theorem bindingOf_eq_ok
    {containerIri : Text} {triples : List Triple} {found : Option Text}
    (accepted : bindingOf containerIri triples = .ok found) :
    (triples = [] ∧ found = none) ∨
      ∃ node : NamedNode,
        triples.map Triple.object = [.namedNode node] ∧
          found = some node.iri := by
  cases accepting : bindings containerIri triples with
  | error error =>
      rw [bindingOf, accepting] at accepted
      cases accepted
  | ok iris =>
      rw [bindingOf, accepting] at accepted
      obtain ⟨nodes, areObjects, rfl⟩ := bindings_eq_ok accepting
      match nodes with
      | [] =>
          cases accepted
          exact Or.inl ⟨List.map_eq_nil_iff.mp areObjects, rfl⟩
      | [node] =>
          cases accepted
          exact Or.inr ⟨node, areObjects, rfl⟩
      | _ :: _ :: _ =>
          cases accepted

omit [QuadText] [RdfSerializer] in
/-- The document of a bound IRI has that IRI. -/
theorem shapeDocument_eq_ok
    {iri : Text} {document : ResourceUrl space}
    (inPod : shapeDocument space iri = .ok document) :
    Text.endsWith ['/'] document.path = false ∧
      (Text.endsWith ['/', '/'] space.base = false →
        graphIri document = iri) := by
  unfold shapeDocument at inPod
  dsimp only at inPod
  split at inPod
  · cases inPod
  · next rest stripped =>
      split at inPod
      · split at inPod
        · next url leaf resolves =>
            cases inPod
            refine ⟨leaf, fun oneSlash => ?_⟩
            have isIri : graphIri document = space.origin ++ rest :=
              StorageSpace.graphIri_of_resolve resolves
            have trimmed :
                (graphIri space.root).rdropWhile (· = '/') =
                  space.origin := by
              change space.base.rdropWhile (· = '/') = _
              rw [← space.origin_append,
                List.rdropWhile_concat_pos _ _ _ (by simp),
                List.rdropWhile_eq_self_iff]
              intro nonempty isSlash
              have ends :
                  space.base =
                    space.origin.dropLast ++ ['/', '/'] := by
                rw [← space.origin_append]
                nth_rewrite 1 [← List.dropLast_append_getLast nonempty]
                simp [of_decide_eq_true isSlash]
              rw [Bool.eq_false_iff] at oneSlash
              exact oneSlash (Text.endsWith_iff.mpr ⟨_, ends.symm⟩)
            rw [isIri, Text.stripPrefix_eq_some.mp stripped, trimmed]
        · cases inPod
      · cases inPod

/-! ## Loading the shape -/

omit [RdfSerializer] [QuadText] in
theorem strict_issue
    {ε : Type} (translate : StoreError → ε) (call : Call) :
    (StoreProgram.issue translate call).Strict := by
  refine ⟨fun fault => ⟨_, rfl⟩, fun reply => ?_⟩
  cases reply with
  | ok answer =>
      exact Program.strict_done answer
  | error message =>
      exact Program.strict_fail _

omit [RdfSerializer] [QuadText] in
theorem strict_getRdf (url : ResourceUrl space) : (getRdf url).Strict := by
  refine (strict_issue _ _).bind fun isPresent => ?_
  split
  · exact (strict_issue _ _).bind fun triples => Program.strict_done _
  · exact Program.strict_done _

omit [RdfSerializer] [QuadText] in
theorem strict_kindOf (url : ResourceUrl space) : (kindOf url).Strict := by
  refine (strict_issue _ _).bind fun isPresent => ?_
  split
  · refine (strict_issue _ _).bind fun binary => ?_
    split
    · refine ((strict_issue _ _).bind fun triples =>
        Program.strict_done _).bind fun mediaType => ?_
      split
      · exact Program.strict_done _
      · exact Program.strict_fail _
    · exact Program.strict_done _
  · exact Program.strict_done _

/-- `load` passes on every failure of the store. -/
theorem strict_loadShape (container : ContainerUrl space) :
    (loadShape container).Strict := by
  refine (strict_issue _ _).bind fun triples => ?_
  refine (Program.strict_ofExcept _).bind fun binding => ?_
  split
  · exact Program.strict_done _
  · refine (Program.strict_ofExcept _).bind fun url => ?_
    refine (strict_kindOf url).mapError.bind fun kind => ?_
    split
    · exact Program.strict_fail _
    · exact Program.strict_fail _
    · refine (strict_getRdf url).mapError.bind fun stored => ?_
      split
      · exact Program.strict_fail _
      · exact (Program.strict_ofExcept _).bind fun shape =>
          Program.strict_done _

omit [QuadText] [RdfSerializer] in
/-- The objects a query for the bindings returns are those that are stated. -/
theorem mem_objects_of_answer
    {container : ContainerUrl space} {triples : List Triple}
    (asked :
      (Call.queryTriples (graphIri container) (some container.node)
        (some ldpConstrainedBy)).answer world = .ok triples)
    (object : GroundTerm) :
    object.toTerm ∈ triples.map Triple.object ↔
      (⟨container.node, ldpConstrainedBy, object⟩ : GroundTriple) ∈
        world.graphs (graphIri container) := by
  cases asked
  rw [List.map_map, List.mem_map]
  constructor
  · rintro ⟨⟨subject, predicate, stated⟩, member, isObject⟩
    have same : stated = object := by
      have grounds := congrArg Skolemized.groundOf isObject
      rw [Function.comp_apply, GroundTriple.toTriple,
        Skolemized.groundOf_toTerm, Skolemized.groundOf_toTerm] at grounds
      exact Option.some.inj grounds
    simp only [List.mem_filter, Option.all_some, Bool.and_eq_true,
      decide_eq_true_eq] at member
    obtain ⟨isStated, rfl, rfl⟩ := member
    rwa [same] at isStated
  · intro isStated
    exact ⟨_, List.mem_filter.mpr ⟨isStated, by simp⟩, rfl⟩

/-- A shape that is loaded is the one the container binds. -/
theorem loadShape_eq_ok
    {container : ContainerUrl space} {found : Option Shape} {reached : World}
    (loads :
      Program.eval backend (loadShape container) world =
        (.ok found, reached)) :
    (found = none ∧ ¬ world.Constrains container) ∨
      ∃ bound document shape,
        found = some shape ∧ world.Binds container bound document shape := by
  unfold loadShape at loads
  rw [StoreProgram.eval_read_bind ⟨rfl, fun _ => rfl⟩ rfl] at loads
  obtain ⟨binding, middle, reading, rest⟩ := Program.eval_bind_eq_ok loads
  rw [Program.eval_ofExcept] at reading
  obtain ⟨accepted, rfl⟩ := Prod.mk.inj reading
  have stated := @mem_objects_of_answer _ space world container _ rfl
  rcases bindingOf_eq_ok accepted with ⟨isEmpty, rfl⟩ | ⟨bound, isOne, rfl⟩
  · cases rest
    refine Or.inl ⟨rfl, ?_⟩
    rintro ⟨object, isStated⟩
    rw [← stated, isEmpty] at isStated
    cases isStated
  · refine Or.inr ?_
    obtain ⟨document, middle, placing, rest⟩ := Program.eval_bind_eq_ok rest
    rw [Program.eval_ofExcept] at placing
    obtain ⟨inPod, rfl⟩ := Prod.mk.inj placing
    obtain ⟨kind, middle, asking, rest⟩ := Program.eval_bind_eq_ok rest
    replace asking := Program.eval_of_mapError_eq_ok asking
    rw [eval_kindOf] at asking
    obtain ⟨isKind, rfl⟩ := Prod.mk.inj asking
    obtain ⟨leaf, named⟩ := shapeDocument_eq_ok inPod
    split at rest
    · cases rest
    · cases rest
    · obtain ⟨stored, middle, fetching, rest⟩ := Program.eval_bind_eq_ok rest
      replace fetching := Program.eval_of_mapError_eq_ok fetching
      rw [show getRdf document = getRdf (Target.resource document leaf) from
        rfl, eval_getRdf] at fetching
      obtain ⟨isStored, rfl⟩ := Prod.mk.inj fetching
      split at rest
      · cases rest
      · next triples =>
          obtain rfl :
              triples = world.triplesOf (graphIri document) := by
            split at isStored
            · cases isStored
              rfl
            · cases isStored
          obtain ⟨shape, _, texting, rest⟩ := Program.eval_bind_eq_ok rest
          rw [Program.eval_ofExcept] at texting
          obtain ⟨text, rfl⟩ := Prod.mk.inj texting
          cases rest
          refine ⟨bound, document, shape, rfl, ?_, inPod, named, leaf,
            isKind, ?_, text⟩
          · intro object
            rw [← stated, isOne, List.mem_singleton]
            cases object with
            | namedNode node =>
                simp [GroundTerm.toTerm]
            | literal content =>
                simp [GroundTerm.toTerm]
            | triple subject predicate object =>
                simp [GroundTerm.toTerm]
          · unfold shapeTurtle at text
            split at text
            · cases text
            · next queryFree =>
                exact Bool.eq_false_iff.mpr queryFree

end Binding

/-! ## The two checks -/

section Checks

variable [QuadText] [RdfParser] [RdfSerializer]

/-- The container binds one usable shape, and the body does not violate it. -/
def World.Conforms [ShapeEngine]
    (world : World) (container : ContainerUrl space) (body : Dataset) :
    Prop :=
  ∃ bound document shape report,
    world.Binds container bound document shape ∧
      validateShape shape.turtle body = .ok report ∧
        report.refuses = false

theorem strict_enforceShape [ShapeEngine]
    (target : Target space) (body : Dataset) :
    (enforceShape target body).Strict := by
  unfold enforceShape
  split
  · exact Program.strict_done _
  · refine (strict_loadShape _).mapError.bind fun shape => ?_
    split
    · exact Program.strict_done _
    · refine (Program.strict_ofExcept _).bind fun report => ?_
      split
      · exact Program.strict_fail _
      · exact Program.strict_done _

/-- `enforce_shape` lets a constrained write pass only with a clean report. -/
theorem conforms_of_enforceShape [ShapeEngine]
    {target : Target space} {container : ContainerUrl space} {body : Dataset}
    (bound : constrainingContainer target = some container)
    (constrained : world.Constrains container)
    {faults : Faults} {findings : Option Report}
    (passes :
      (Program.run backend (enforceShape target body) faults world).result =
        .ok findings) :
    world.Conforms container body := by
  have evaluates := (strict_enforceShape target body).eval_of_run passes
  unfold enforceShape at evaluates
  rw [bound] at evaluates
  obtain ⟨found, middle, loading, rest⟩ :=
    Program.eval_bind_eq_ok evaluates
  rcases loadShape_eq_ok (Program.eval_of_mapError_eq_ok loading) with
    ⟨_, unconstrained⟩ | ⟨node, document, shape, rfl, binds⟩
  · exact (unconstrained constrained).elim
  · obtain ⟨report, _, validating, rest⟩ := Program.eval_bind_eq_ok rest
    rw [Program.eval_ofExcept] at validating
    obtain ⟨validated, rfl⟩ := Prod.mk.inj validating
    refine ⟨node, document, shape, report, binds, ?_, ?_⟩
    · cases ran : validateShape shape.turtle body with
      | ok found =>
          rw [ran] at validated
          cases validated
          rfl
      | error error =>
          rw [ran] at validated
          cases validated
    · split at rest
      · cases rest
      · next clean =>
          exact Bool.eq_false_iff.mpr clean

omit [RdfParser] in
/-- `patch_shape_conflict` lets no patch of a constrained target pass. -/
theorem not_passes_patchShapeConflict
    {target : Target space} {container : ContainerUrl space}
    (bound : constrainingContainer target = some container)
    (constrained : world.Constrains container)
    {faults : Faults} {done : Unit} :
    (Program.run backend (patchShapeConflict target) faults world).result ≠
      .ok done := by
  intro passes
  have strict : (patchShapeConflict target).Strict := by
    unfold patchShapeConflict
    split
    · exact Program.strict_done _
    · refine (strict_loadShape _).mapError.bind fun shape => ?_
      split
      · exact Program.strict_done _
      · exact Program.strict_fail _
  have evaluates := strict.eval_of_run passes
  unfold patchShapeConflict at evaluates
  rw [bound] at evaluates
  obtain ⟨found, middle, loading, rest⟩ :=
    Program.eval_bind_eq_ok evaluates
  rcases loadShape_eq_ok (Program.eval_of_mapError_eq_ok loading) with
    ⟨_, unconstrained⟩ | ⟨node, document, shape, rfl, binds⟩
  · exact unconstrained constrained
  · cases rest

end Checks

/-! ## The gate of each handler -/

section Gates

/-- A query may come before the gate. -/
theorem ReadsOnly.gatedBy_bind
    {ε α β : Type} {passes : Faults → Prop}
    {program : StoreProgram ε α} {next : α → StoreProgram ε β}
    (reads : ReadsOnly program)
    (continues :
      ∀ value, Program.GatedBy backend world passes (next value)) :
    Program.GatedBy backend world passes (program >>= next) := by
  refine Program.GatedBy.bind ?_ fun value (_ : True) => continues value
  exact (Program.Uses.ensures reads (fun _ isRead => isRead.perform)
    world).mono fun _ _ same => ⟨same, fun _ _ => trivial⟩

/-- The child a `POST` settles on: a second name when the first is taken. -/
def World.settledChild
    (world : World) (request : Request) (parent : ContainerUrl space) :
    Except Response (Target space) := do
  let name := childName (request.headers.str? .slug) request.draws.childName
  let ending := childEnding request.headers
  let child ← classify space (parent.resource.path ++ name ++ ending)
  if (world.guard request.agent child).isTaken then
    classify space (parent.resource.path ++
      (name ++ '-' :: request.draws.retryName.text ++ ending))
  else
    .ok child

/-- The target whose representation a request would write. -/
def World.writtenTarget
    (world : World) (space : StorageSpace) (request : Request) :
    Except Response (Target space) := do
  match request.method, ← classify space request.path with
  | .post, .container parent => world.settledChild request parent
  | _, target => .ok target

theorem ensures_allocateChild_settled
    (request : Request) (parent : ContainerUrl space) :
    Program.Ensures backend True
      (allocateChild request.agent parent request.headers request.draws)
      world
      fun result reached =>
        reached = world ∧
          ∀ given,
            result = .ok given →
            world.settledChild request parent = .ok given.2 := by
  have stopped :
      ∀ response : Response,
        world = world ∧
          ∀ given : Guard space × Target space,
            (.error response : Except Response _) = .ok given →
            world.settledChild request parent = .ok given.2 :=
    fun response => ⟨rfl, fun given impossible => by cases impossible⟩
  refine Program.ensures_ofExcept_bind (fun child resolves => ?_)
    fun response _ => stopped response
  refine ensures_probeFor_bind ?_ stopped
  split
  · next taken =>
      refine Program.ensures_ofExcept_bind (fun retried again => ?_)
        fun response _ => stopped response
      refine ensures_probeFor_bind ?_ stopped
      refine Program.ensures_done ⟨rfl, ?_⟩
      rintro given ⟨⟩
      change (classify space _ >>= fun child => _) = _
      rw [childEnding, resolves]
      exact (if_pos taken).trans again
  · next free =>
      refine Program.ensures_done ⟨rfl, ?_⟩
      rintro given ⟨⟩
      change (classify space _ >>= fun child => _) = _
      rw [childEnding, resolves]
      exact if_neg free

variable [Sha256] [ObjectPath] [QuadText] [RdfParser] [RdfSerializer]
variable [ShapeEngine] {storeVersion : RdfVersion}

/--
With the faults left, the shape check of a request's RDF body ran to its end,
and the body conforms.
-/
def World.ShapePassed
    (world : World) (storeVersion : RdfVersion) (request : Request)
    (target : Target space) (container : ContainerUrl space)
    (faults : Faults) : Prop :=
  ∃ body format declared findings,
    classifyBody request.headers request.body target storeVersion =
        .ok (.rdf body format declared) ∧
      (Program.run backend (enforceShape target body) faults world).result =
        .ok findings ∧
      world.Conforms container body

/-- The `Content-Type` of the request names an RDF format. -/
def Request.carriesRdf (request : Request) : Bool :=
  (Format.fromContentType
    (Text.trim (headerStr request.headers .contentType))).isSome

omit [Sha256] [ObjectPath] [QuadText] [RdfSerializer] [ShapeEngine] in
theorem classifyBody_of_carriesRdf
    {request : Request} {target : Target space} {repr : Repr}
    (isRdf : request.carriesRdf = true)
    (classified :
      classifyBody request.headers request.body target storeVersion =
        .ok repr) :
    ∃ body format declared, repr = .rdf body format declared := by
  obtain ⟨format, isFormat⟩ := Option.isSome_iff_exists.mp isRdf
  unfold classifyBody at classified
  dsimp only at classified
  simp only [isFormat] at classified
  repeat' split at classified
  all_goals
    cases classified
    try exact ⟨_, _, _, rfl⟩

section Constrained

variable {request : Request} {target : Target space}
variable {container : ContainerUrl space}

omit [Sha256] [ObjectPath] in
theorem gatedBy_enforceShape_bind
    {α : Type} {body : Dataset} {format : Format} {declared : RdfVersion}
    {next : Option Report → HttpProgram α}
    (bound : constrainingContainer target = some container)
    (constrained : world.Constrains container)
    (classified :
      classifyBody request.headers request.body target storeVersion =
        .ok (.rdf body format declared)) :
    Program.GatedBy backend world
      (world.ShapePassed storeVersion request target container)
      (enforceShape target body >>= next) := by
  refine Program.gatedBy_gate_bind ?_ ?_
  · exact Program.Uses.ensures (readsOnly_enforceShape target body)
      (fun _ isRead => isRead.perform) world
  · intro rest findings passes
    exact ⟨body, format, declared, findings, classified, passes,
      conforms_of_enforceShape bound constrained passes⟩

/-- A constrained `PUT` of triples stores nothing before the shape check. -/
theorem gatedBy_putWrite
    (isRdf : request.carriesRdf = true)
    (bound : constrainingContainer target = some container)
    (constrained : world.Constrains container) :
    Program.GatedBy backend world
      (world.ShapePassed storeVersion request target container)
      (putWrite storeVersion request.agent target request.headers
        request.body request.draws) := by
  refine ReadsOnly.gatedBy_bind (readsOnly_probe _ _).mapError
    fun guard => ?_
  refine Program.gatedBy_ofExcept_bind fun _ _ => ?_
  refine Program.gatedBy_ofExcept_bind fun repr classified => ?_
  obtain ⟨body, format, declared, rfl⟩ :=
    classifyBody_of_carriesRdf isRdf classified
  refine Program.gatedBy_ofExcept_bind fun _ _ => ?_
  refine ReadsOnly.gatedBy_bind (readsOnly_checkExisting _ _ _)
    fun _ => ?_
  refine ReadsOnly.gatedBy_bind (readsOnly_checkConditionals _ _)
    fun _ => ?_
  exact gatedBy_enforceShape_bind bound constrained classified

/-- A constrained `POST` of triples stores nothing before the shape check. -/
theorem gatedBy_postImpl
    {named : Target space}
    (isRdf : request.carriesRdf = true)
    (settled :
      ∀ parent,
        named = .container parent →
        world.settledChild request parent = .ok target)
    (bound : constrainingContainer target = some container)
    (constrained : world.Constrains container) :
    Program.GatedBy backend world
      (world.ShapePassed storeVersion request target container)
      (postImpl storeVersion request.agent named request.headers
        request.body request.draws) := by
  refine ReadsOnly.gatedBy_bind (readsOnly_probe _ _).mapError
    fun guard => ?_
  refine Program.gatedBy_ofExcept_bind fun _ _ => ?_
  cases named with
  | resource url leaf =>
      exact Program.gatedBy_fail _
  | aux url =>
      exact Program.gatedBy_fail _
  | container parent =>
      refine Program.GatedBy.bind
        (ensures_allocateChild_settled request parent) fun given isGiven => ?_
      obtain ⟨childGuard, child⟩ := given
      obtain rfl : target = child := by
        rw [settled parent rfl] at isGiven
        exact Except.ok.inj isGiven
      refine Program.gatedBy_ofExcept_bind fun repr classified => ?_
      obtain ⟨body, format, declared, rfl⟩ :=
        classifyBody_of_carriesRdf isRdf classified
      refine Program.gatedBy_ofExcept_bind fun _ _ => ?_
      exact gatedBy_enforceShape_bind bound constrained classified

omit [RdfParser] [ShapeEngine] in
/-- A constrained `PATCH` does not get past the shape check. -/
theorem gatedBy_patchImpl [N3Parser]
    (bound : constrainingContainer target = some container)
    (constrained : world.Constrains container) :
    Program.GatedBy backend world (fun _ => False)
      (patchImpl request.agent target request.headers request.body
        request.draws) := by
  refine ReadsOnly.gatedBy_bind (readsOnly_probe _ _).mapError
    fun guard => ?_
  refine Program.gatedBy_ofExcept_bind fun decision _ => ?_
  refine Program.gatedBy_ofExcept_bind fun _ _ => ?_
  refine Program.gatedBy_ofExcept_bind fun patch _ => ?_
  split
  · exact Program.gatedBy_fail _
  · refine ReadsOnly.gatedBy_bind (readsOnly_refuseBinary _) fun _ => ?_
    refine Program.gatedBy_gate_bind ?_ ?_
    · exact Program.Uses.ensures (readsOnly_patchShapeConflict target)
        (fun _ isRead => isRead.perform) world
    · intro rest done passes
      exact not_passes_patchShapeConflict bound constrained passes

/-- A gated request that did not pass is refused and stored nothing. -/
theorem refused_of_gatedBy
    [N3Parser] {passes : Faults → Prop}
    (gated :
      Program.GatedBy backend world passes
        (handle space storeVersion request))
    (faults : Faults) :
    ((sentResponse
          (Program.run backend (handle space storeVersion request) faults
            world).result).Refuses ∧
        (Program.run backend (handle space storeVersion request) faults
          world).world = world) ∨
      ∃ rest, rest <:+ faults ∧ passes rest := by
  rcases gated faults with ⟨⟨response, ends⟩, same⟩ | passed
  · refine Or.inl ⟨?_, same⟩
    rw [ends]
    exact (refusing_handle storeVersion request).run ends
  · exact Or.inr passed

/--
A request that writes below a container with a binding of its own: an RDF body
is stored only after one usable shape was loaded and the body was found to
conform, a patch is never applied, and every other outcome is a refusal that
stored nothing.
-/
theorem shape_enforcement_fails_closed [N3Parser]
    (storeVersion : RdfVersion) (world : World) (request : Request)
    (faults : Faults) (target : Target space) (container : ContainerUrl space)
    (written : world.writtenTarget space request = .ok target)
    (bound : constrainingContainer target = some container)
    (constrained : world.Constrains container) :
    let outcome :=
      Program.run backend (handle space storeVersion request) faults world
    let refused :=
      (sentResponse outcome.result).Refuses ∧ outcome.world = world
    ((request.method = .put ∨ request.method = .post) →
        request.carriesRdf = true →
        refused ∨
          ∃ rest,
            rest <:+ faults ∧
              world.ShapePassed storeVersion request target container rest) ∧
      (request.method = .patch → refused) := by
  intro outcome refused
  have resolving :
      ∀ {passes : Faults → Prop},
        (∀ named,
          classify space request.path = .ok named →
          Program.GatedBy backend world passes
            (handleTarget storeVersion request named)) →
        refused ∨ ∃ rest, rest <:+ faults ∧ passes rest := by
    intro passes gated
    exact refused_of_gatedBy (Program.gatedBy_ofExcept_bind gated) faults
  refine ⟨fun isMethod isRdf => resolving fun named classified => ?_,
    fun isPatch => ?_⟩
  · unfold World.writtenTarget at written
    rw [classified] at written
    unfold handleTarget
    rcases isMethod with isPut | isPost
    · rw [isPut] at written ⊢
      cases written
      exact gatedBy_putWrite isRdf bound constrained
    · rw [isPost] at written ⊢
      refine gatedBy_postImpl isRdf ?_ bound constrained
      rintro parent rfl
      exact written
  · have noPass :
        refused ∨ ∃ rest, rest <:+ faults ∧ False := by
      refine resolving fun named classified => ?_
      unfold World.writtenTarget at written
      rw [classified, isPatch] at written
      cases written
      unfold handleTarget
      rw [isPatch]
      exact gatedBy_patchImpl bound constrained
    rcases noPass with isRefused | ⟨_, _, impossible⟩
    · exact isRefused
    · exact impossible.elim

end Constrained

end Gates

end Quadpod

namespace Quadpod.ShapeReference

open AtomicProgram Reference

/-- An engine with nothing to report. -/
scoped instance : ShapeEngine where
  validate _ _ := .ok []

/-- The world with the note bound as the shape of the root. -/
def shapedWorld : World :=
  (backend.perform statedWorld
    (.update [.insertData [(graphIri podSpace.root,
      [⟨podSpace.root.node, ldpConstrainedBy, .namedNode note.node⟩])]])).2

/-- A second resource right below the root. -/
def memo : ResourceUrl podSpace where
  path := "/memo".toList
  iri := "https://pod.example/memo".toList
  addressable := ⟨by decide, by decide, by decide⟩
  iriPath := by decide
  valid := by decide

/-- A body the engine has nothing to report on passes and is stored. -/
theorem memo_passes_shape :
    shapedWorld.ShapePassed .rdf12 (putStated "/memo".toList)
      (.resource memo (by decide)) podSpace.root [] := by
  have holds :=
    (shape_enforcement_fails_closed .rdf12 shapedWorld
      (putStated "/memo".toList) [] (.resource memo (by decide))
      podSpace.root (by rfl) (by rfl)
      ⟨.namedNode note.node, by decide +kernel⟩).1 (Or.inl rfl)
      (by decide)
  rcases holds with ⟨isRefused, _⟩ | ⟨rest, isSuffix, passed⟩
  · have isSuccess :
        (sentResponse
          (Program.run backend
            (handle podSpace .rdf12 (putStated "/memo".toList)) []
            shapedWorld).result).isSuccess = true := by
      decide +kernel
    rw [Response.Refuses, isSuccess] at isRefused
    cases isRefused
  · rwa [List.suffix_nil.mp isSuffix] at passed

end Quadpod.ShapeReference
