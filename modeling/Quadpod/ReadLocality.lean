import Quadpod.AtomicProgramAgreement
import Quadpod.AuxiliaryCap
import Quadpod.RefusedRequests
import Quadpod.ShapeEnforcement

namespace Quadpod

open AtomicProgram
open GraphStore

/-!
# What a read depends on

`GET` and `HEAD` look at the target itself, at what constrains it where the
validation report is asked for, and at the ACLs above it.  Of those ACLs nothing
but the decision matters: two pods that decide alike and hold the same of the
target send the same response, whatever else they hold.
-/

variable [IriSyntax] {space : StorageSpace} {first second : World}

/-- A program that two worlds let end alike. -/
abbrev AgreesOn {ε α : Type}
    (first second : World) (program : StoreProgram ε α) : Prop :=
  Program.Agrees backend first second program

/-! ## Queries -/

/-- A query that two worlds answer alike. -/
theorem agreesOn_issue {ε : Type}
    {translate : StoreError → ε} {call : Call}
    (reads : call.Reads) (same : call.answer first = call.answer second) :
    AgreesOn first second (StoreProgram.issue translate call) := by
  have inFirst : backend.perform first call = (call.answer first, first) :=
    Prod.ext rfl (reads.perform first)
  have inSecond : backend.perform second call = (call.answer first, second) :=
    Prod.ext same.symm (reads.perform second)
  refine Program.agrees_call inFirst inSecond ?_
  cases call.answer first with
  | ok reply =>
      exact Program.agrees_done reply
  | error message =>
      exact Program.agrees_fail _

theorem agreesOn_queryTriples {ε : Type}
    {translate : StoreError → ε} {graph : Text}
    (same : first.graphs graph = second.graphs graph)
    (subject predicate : Option NamedNode) :
    AgreesOn first second
      (StoreProgram.issue translate
        (.queryTriples graph subject predicate)) :=
  agreesOn_issue ⟨rfl, fun _ => rfl⟩ (by rw [Call.answer, Call.answer, same])

theorem agreesOn_ask {ε : Type}
    {translate : StoreError → ε} {graph : Text}
    (same : first.graphs graph = second.graphs graph)
    (triple : GroundTriple) :
    AgreesOn first second
      (StoreProgram.issue translate (.ask [(graph, triple)])) := by
  refine agreesOn_issue ⟨rfl, fun _ => rfl⟩ ?_
  simp only [Call.answer, Store.satisfies, List.all_cons, same]
  rfl

/-! ## Storage -/

section Storage

variable {Url : Type} [GraphUrl Url]

theorem agreesOn_exists {url : Url}
    (same : first.graphs (sysGraphIri url) = second.graphs (sysGraphIri url)) :
    AgreesOn first second (exists? url) :=
  agreesOn_ask same _

theorem agreesOn_getRdf {url : Url}
    (sameGraph :
      first.graphs (graphIri url) = second.graphs (graphIri url))
    (sameSystem :
      first.graphs (sysGraphIri url) = second.graphs (sysGraphIri url)) :
    AgreesOn first second (getRdf url) := by
  refine (agreesOn_exists sameSystem).bind fun isPresent _ => ?_
  split
  · exact (agreesOn_queryTriples sameGraph _ _).bind
      fun triples _ => Program.agrees_done _
  · exact Program.agrees_done _

end Storage

section Resources

variable {url : ResourceUrl space}

theorem agreesOn_storedMediaType
    (same : first.graphs (sysGraphIri url) = second.graphs (sysGraphIri url)) :
    AgreesOn first second (storedMediaType url) :=
  (agreesOn_queryTriples same _ _).bind fun _ _ => Program.agrees_done _

theorem agreesOn_kindOf
    (same : first.graphs (sysGraphIri url) = second.graphs (sysGraphIri url)) :
    AgreesOn first second (kindOf url) := by
  refine (agreesOn_exists same).bind fun isPresent _ => ?_
  split
  · refine (agreesOn_ask same _).bind fun binary _ => ?_
    split
    · refine (agreesOn_storedMediaType same).bind fun mediaType _ => ?_
      split
      · exact Program.agrees_done _
      · exact Program.agrees_fail _
    · exact Program.agrees_done _
  · exact Program.agrees_done _

theorem agreesOn_shelfQuads
    (sameSystem :
      first.graphs (sysGraphIri url) = second.graphs (sysGraphIri url))
    {keys : List ShelfKey}
    (sameShelves :
      ∀ key ∈ keys,
        first.graphs key.graphIri = second.graphs key.graphIri) :
    AgreesOn first second (shelfQuads url keys) := by
  induction keys with
  | nil =>
      exact Program.agrees_done _
  | cons key rest inductionHypothesis =>
      refine (agreesOn_queryTriples sameSystem _ _).bind fun names _ => ?_
      split
      · exact Program.agrees_fail _
      · refine (agreesOn_queryTriples (sameShelves key (by simp)) _ _).bind
          fun triples _ => ?_
        refine (inductionHypothesis fun other member =>
          sameShelves other (by simp [member])).bind fun others _ => ?_
        exact Program.agrees_done _

variable [Sha256]

/-- Reading a dataset depends on the resource's own graphs. -/
theorem agreesOn_getDataset
    (owned : first.RegistersOwn space)
    (same : ∀ name, url.Owns name → first.graphs name = second.graphs name) :
    AgreesOn first second (getDataset url) := by
  have sameSystem :
      first.graphs (sysGraphIri url) = second.graphs (sysGraphIri url) :=
    same _ (Or.inr (Or.inl rfl))
  have sameGraph :
      first.graphs (graphIri url) = second.graphs (graphIri url) :=
    same _ (Or.inl rfl)
  have agreesShelves : AgreesOn first second (registeredShelves url) :=
    (agreesOn_queryTriples sameSystem _ _).bind
      fun _ _ => Program.agrees_done _
  refine (agreesOn_exists sameSystem).bind fun isPresent _ => ?_
  split
  · refine (agreesOn_queryTriples sameGraph _ _).bind fun triples _ => ?_
    refine agreesShelves.bind fun keys listed => ?_
    have isRegistry : keys = first.registered url := by
      rw [eval_registeredShelves] at listed
      exact (Except.ok.inj (Prod.mk.inj listed).1).symm
    have sameShelves :
        ∀ key ∈ keys,
          first.graphs key.graphIri = second.graphs key.graphIri := by
      intro key member
      obtain ⟨name, rfl⟩ := owned.of_mem (isRegistry ▸ member)
      exact same _ (Or.inr (Or.inr ⟨name.iri, ShelfKey.graphIri_of url name⟩))
    refine (agreesOn_shelfQuads sameSystem sameShelves).bind
      fun shelved _ => ?_
    dsimp only
    split
    · exact Program.agrees_done _
    · exact Program.agrees_fail _
  · exact Program.agrees_done _

end Resources

/-! ## What two worlds have to share -/

section Sharing

variable [Sha256] [ObjectPath]

/-- Two worlds hold the same of a target: its graphs and its object. -/
structure World.SameOf
    (first second : World) (target : Target space) : Prop where
  graphs :
    ∀ name, target.Owns name → first.graphs name = second.graphs name
  objects :
    ∀ key,
      target.isAux = false →
      BlobKey.of target.subject = some key →
      first.blobs key = second.blobs key

omit [Sha256] [ObjectPath] in
/-- A container names a document of the pod as its constraints. -/
def World.ConstrainedBy
    (world : World) (container : ContainerUrl space)
    (document : ResourceUrl space) : Prop :=
  ∃ node : NamedNode,
    (⟨container.node, ldpConstrainedBy, .namedNode node⟩ : GroundTriple) ∈
        world.graphs (graphIri container) ∧
      shapeDocument space node.iri = .ok document

omit [ObjectPath] in
/-- Two worlds hold the same of what constrains a target: the graph of its
parent and the documents named there. -/
structure World.SameConstraint
    (first second : World) (target : Target space) : Prop where
  binding :
    ∀ container,
      constrainingContainer target = some container →
      first.graphs (graphIri container) = second.graphs (graphIri container)
  documents :
    ∀ container document,
      constrainingContainer target = some container →
      first.ConstrainedBy container document →
      ∀ name, document.Owns name → first.graphs name = second.graphs name

end Sharing

/-! ## Handlers -/

section Handlers

variable [Sha256] [ObjectPath] [QuadText] [RdfSerializer]

omit [Sha256] [ObjectPath] [QuadText] [RdfSerializer] in
/-- Behind the gate nothing but the decision is left of the ACLs. -/
theorem agreesOn_admitting {α : Type}
    {agent : Agent} {target : Target space} {mode : Mode}
    {next : Decision → HttpProgram α}
    (sameDecision :
      first.authorization agent target mode =
        second.authorization agent target mode)
    (continues : ∀ decision, AgreesOn first second (next decision)) :
    AgreesOn first second
      (admitting agent target mode fun _ decision => next decision) := by
  cases decided : first.authorization agent target mode with
  | ok decision =>
      obtain ⟨result, inFirst, inSecond⟩ := continues decision
      refine ⟨result, ?_, ?_⟩
      · rw [admitting, Program.eval_bind_ok (eval_probeFor first agent target),
          World.guard_authorize, decided]
        exact inFirst
      · rw [admitting,
          Program.eval_bind_ok (eval_probeFor second agent target),
          World.guard_authorize, ← sameDecision, decided]
        exact inSecond
  | error denial =>
      refine ⟨.error (refusal agent target),
        eval_admitting_refused ⟨denial, decided⟩ _,
        eval_admitting_refused ⟨denial, sameDecision ▸ decided⟩ _⟩

omit [ObjectPath] in
theorem agreesOn_loadShape
    {target : Target space} {container : ContainerUrl space}
    (constrains : constrainingContainer target = some container)
    (same : first.SameConstraint second target) :
    AgreesOn first second (loadShape container) := by
  refine (agreesOn_queryTriples (same.binding container constrains) _ _).bind
    fun triples answered => ?_
  refine (Program.agrees_ofExcept _).bind fun found accepted => ?_
  rw [Program.eval_ofExcept] at accepted
  have bound := bindingOf_eq_ok (Prod.mk.inj accepted).1
  split
  · exact Program.agrees_done _
  · next iri =>
      obtain ⟨node, areObjects, isIri⟩ :=
        bound.resolve_left fun unbound => nomatch unbound.2
      obtain rfl : iri = node.iri := Option.some.inj isIri
      have isBound :
          (⟨container.node, ldpConstrainedBy, .namedNode node⟩ :
              GroundTriple) ∈ first.graphs (graphIri container) := by
        have asked :
            (Call.queryTriples (graphIri container) (some container.node)
              (some ldpConstrainedBy)).answer first = .ok triples := by
          rw [StoreProgram.eval_issue rfl] at answered
          exact congrArg Except.ok (Except.ok.inj (Prod.mk.inj answered).1)
        refine (mem_objects_of_answer asked (.namedNode node)).mp ?_
        rw [areObjects]
        exact List.mem_singleton_self _
      refine (Program.agrees_ofExcept _).bind fun document named => ?_
      rw [Program.eval_ofExcept] at named
      have sameDocument :=
        same.documents container document constrains
          ⟨node, isBound, (Prod.mk.inj named).1⟩
      have sameSystem :
          first.graphs (sysGraphIri document) =
            second.graphs (sysGraphIri document) :=
        sameDocument _ (Or.inr (Or.inl rfl))
      refine ((agreesOn_kindOf sameSystem).mapError _).bind fun kind _ => ?_
      split
      · exact Program.agrees_fail _
      · exact Program.agrees_fail _
      · refine ((agreesOn_getRdf (sameDocument _ (Or.inl rfl))
          sameSystem).mapError _).bind fun stored _ => ?_
        split
        · exact Program.agrees_fail _
        · exact (Program.agrees_ofExcept _).bind
            fun shape _ => Program.agrees_done _

omit [ObjectPath] [QuadText] [RdfSerializer] in
/-- The one graph of a container or an auxiliary, or the main one of a
resource, belongs to the target. -/
theorem Target.owns_graphIri (target : Target space) :
    target.Owns (graphIri target) ∧ target.Owns (sysGraphIri target) := by
  cases target with
  | resource url leaf =>
      exact ⟨Or.inl rfl, Or.inr (Or.inl rfl)⟩
  | container url =>
      exact ⟨Or.inl rfl, Or.inr (Or.inl rfl)⟩
  | aux url =>
      exact ⟨Or.inl rfl, Or.inr rfl⟩

omit [QuadText] [RdfSerializer] in
theorem agreesOn_blobRead [Quality]
    {storeVersion : RdfVersion} {target : Target space}
    {url : ResourceUrl space} {headers : HeaderMap} {mediaType : MediaType}
    (same :
      ∀ key, BlobKey.of url = some key → first.blobs key = second.blobs key) :
    AgreesOn first second
      (blobRead storeVersion target url headers mediaType) := by
  unfold blobRead
  split
  · exact Program.agrees_done _
  · split
    · exact Program.agrees_done _
    · next key keyed =>
        have agreesGet :
            AgreesOn first second
              (StoreProgram.issue ResourceError.blob (.blobGet key)) :=
          agreesOn_issue ⟨rfl, fun _ => rfl⟩ (by
            rw [Call.answer, Call.answer, same key keyed])
        refine agreesGet.attempt.bind fun answer _ => ?_
        split
        · exact Program.agrees_done _
        · exact Program.agrees_done _
        · dsimp only
          split <;> exact Program.agrees_done _

theorem agreesOn_legacyGraphRead [Quality]
    {storeVersion : RdfVersion} {decision : Decision} {target : Target space}
    {headers : HeaderMap}
    (same : first.SameOf second target) :
    AgreesOn first second
      (legacyGraphRead storeVersion decision target headers) := by
  obtain ⟨ownsGraph, ownsSystem⟩ := target.owns_graphIri
  unfold legacyGraphRead
  split
  · exact Program.agrees_done _
  · refine (agreesOn_getRdf (same.graphs _ ownsGraph)
      (same.graphs _ ownsSystem)).attempt.bind fun answer _ => ?_
    split
    · split <;> exact Program.agrees_done _
    · exact Program.agrees_done _
    · exact Program.agrees_done _
    · exact Program.agrees_done _

omit [ObjectPath] in
theorem agreesOn_resourceRead [Quality]
    {storeVersion : RdfVersion} {target : Target space}
    {url : ResourceUrl space} {decision : Decision} {headers : HeaderMap}
    (owned : first.RegistersOwn space)
    (same : ∀ name, url.Owns name → first.graphs name = second.graphs name) :
    AgreesOn first second
      (resourceRead storeVersion target url decision headers) := by
  refine (agreesOn_getDataset owned same).attempt.bind fun answer _ => ?_
  split
  · refine (agreesOn_storedMediaType
      (same _ (Or.inr (Or.inl rfl)))).attempt.bind fun mediaType _ => ?_
    split <;> exact Program.agrees_done _
  · exact Program.agrees_done _
  · exact Program.agrees_done _
  · exact Program.agrees_done _

theorem agreesOn_getImpl [Quality]
    {storeVersion : RdfVersion} {agent : Agent} {target : Target space}
    {headers : HeaderMap}
    (owned : first.RegistersOwn space)
    (sameDecision :
      first.authorization agent target .read =
        second.authorization agent target .read)
    (same : first.SameOf second target) :
    AgreesOn first second (getImpl storeVersion agent target headers) := by
  refine agreesOn_admitting sameDecision fun decision => ?_
  cases target with
  | resource url leaf =>
      refine (agreesOn_kindOf
        (same.graphs _ (Or.inr (Or.inl rfl)))).attempt.bind fun kind _ => ?_
      split
      · exact agreesOn_blobRead fun key keyed => same.objects key rfl keyed
      · exact agreesOn_resourceRead owned same.graphs
      · exact Program.agrees_done _
      · exact Program.agrees_done _
      · exact Program.agrees_done _
  | container url =>
      exact agreesOn_legacyGraphRead same
  | aux url =>
      exact agreesOn_legacyGraphRead same

omit [QuadText] [RdfSerializer] in
theorem agreesOn_validatedContent
    {target : Target space}
    (owned : first.RegistersOwn space)
    (same : first.SameOf second target) :
    AgreesOn first second (validatedContent target) := by
  cases target with
  | aux url =>
      exact Program.agrees_fail _
  | container url =>
      refine ((agreesOn_getRdf (same.graphs _ (Or.inl rfl))
        (same.graphs _ (Or.inr (Or.inl rfl)))).mapError _).bind
          fun stored _ => ?_
      split
      · split
        · exact Program.agrees_done _
        · exact Program.agrees_fail _
      · exact Program.agrees_fail _
  | resource url leaf =>
      refine (agreesOn_kindOf
        (same.graphs _ (Or.inr (Or.inl rfl)))).attempt.bind fun kind _ => ?_
      split
      · exact Program.agrees_fail _
      · refine ((agreesOn_getDataset owned same.graphs).mapError _).bind
          fun stored _ => ?_
        split
        · exact Program.agrees_done _
        · exact Program.agrees_fail _

theorem agreesOn_validateView [Quality] [RdfParser] [ShapeEngine]
    {agent : Agent} {target : Target space} {headers : HeaderMap}
    (owned : first.RegistersOwn space)
    (sameDecision :
      first.authorization agent target .read =
        second.authorization agent target .read)
    (same : first.SameOf second target)
    (sameConstraint : first.SameConstraint second target) :
    AgreesOn first second (validateView agent target headers) := by
  refine agreesOn_admitting sameDecision fun decision => ?_
  split
  · exact Program.agrees_done _
  · next container constrains =>
      refine ((agreesOn_loadShape constrains sameConstraint).mapError _).bind
        fun shape _ => ?_
      split
      · exact Program.agrees_done _
      · refine (agreesOn_validatedContent owned same).bind fun dataset _ => ?_
        refine (Program.agrees_ofExcept _).bind fun report _ => ?_
        split
        · exact Program.agrees_done _
        · split <;> exact Program.agrees_done _

end Handlers

/-! ## Requests -/

variable [Sha256] [ObjectPath] [QuadText]
variable [RdfParser] [RdfSerializer] [ShapeEngine] [N3Parser] [Quality]
variable [WireFormats] [Josekit] [JoseSigning]

/-- Two worlds share what a read of a target depends on. -/
structure World.SameForRead
    (first second : World) (agent : Agent) (target : Target space)
    (query : Option Text) : Prop where
  decision :
    first.authorization agent target .read =
      second.authorization agent target .read
  held : first.SameOf second target
  constraint :
    wantsValidation query = true → first.SameConstraint second target

/--
A read is answered from the target alone: two pods, the first of which lists its
own shelves only, whose ACLs decide alike on the target and which hold the same of
it (and, for the validation report, of what constrains it) send an agent the same
response to a `GET` or a `HEAD`, and neither is changed.
-/
theorem reads_depend_on_target
    (app : AppState) (agent : Agent) (request : HttpRequest) (draws : Draws)
    (isRead :
      Verb.ofText request.method = some .get ∨
        Verb.ofText request.method = some .head)
    (owned : first.RegistersOwn app.space)
    (same :
      ∀ path (target : Target app.space),
        request.path? = some path →
        classify app.space path = .ok target →
        first.SameForRead second agent target request.query) :
    ∃ result,
      Program.eval backend (dispatch app agent request draws) first =
          (result, first) ∧
        Program.eval backend (dispatch app agent request draws) second =
          (result, second) := by
  have isGet :
      ∀ path,
        request.path? = some path →
        AgreesOn first second
          (handleGet app.space app.storeVersion path request.query agent
            request.fields) := by
    intro path routed
    refine (Program.agrees_ofExcept _).bind fun target classified => ?_
    rw [Program.eval_ofExcept] at classified
    obtain ⟨sameDecision, sameTarget, sameConstraint⟩ :=
      same path target routed (Prod.mk.inj classified).1
    split
    · next wants =>
        exact agreesOn_validateView owned sameDecision sameTarget
          (sameConstraint wants)
    · exact agreesOn_getImpl owned sameDecision sameTarget
  rcases dispatch_cases app agent request draws with
      ⟨result, constant⟩ | ⟨verb, path, isVerb, routed, handled⟩
  · rw [constant]
    exact Program.agrees_ofExcept result
  · rw [handled]
    rcases isRead with isGetVerb | isHeadVerb
    · obtain rfl : verb = .get :=
        Option.some.inj (isVerb.symm.trans isGetVerb)
      exact isGet path routed
    · obtain rfl : verb = .head :=
        Option.some.inj (isVerb.symm.trans isHeadVerb)
      exact isGet path routed

end Quadpod

namespace Quadpod.Reference

open AtomicProgram
open GraphStore

/-- A `GET` of the root's ACL. -/
def getRootAcl : HttpRequest where
  method := "GET".toList
  path := "/.aux/.acl".toList
  headers := []
  query := none
  body := []

theorem graph_eq_of_triples {first second : Graph GroundTriple}
    (same : first.triples = second.triples) : first = second := by
  obtain ⟨triples, nodup⟩ := first
  obtain ⟨others, otherNodup⟩ := second
  cases same
  rfl

/-- The two pods differ in `/note` and in what the root contains only. -/
theorem sameForRead_rootAcl :
    freshWorld.SameForRead notedWorld ownerAgent
      (.aux rootAcl : Target podSpace) none where
  decision := by decide +kernel
  held := by
    refine ⟨?_, fun _ notAux => by cases notAux⟩
    rintro name (rfl | rfl)
    · exact graph_eq_of_triples (by decide +kernel)
    · exact graph_eq_of_triples (by decide +kernel)
  constraint wants := by cases wants

/-- The owner reads the root's ACL alike on a pod with `/note` and without. -/
theorem reads_depend_on_target_rootAcl :
    ∃ result,
      Program.eval backend (dispatch podApp ownerAgent getRootAcl draws)
          freshWorld = (result, freshWorld) ∧
        Program.eval backend (dispatch podApp ownerAgent getRootAcl draws)
          notedWorld = (result, notedWorld) := by
  refine reads_depend_on_target podApp ownerAgent getRootAcl draws
    (Or.inl (by decide)) provisioned_freshWorld.registersOwn
    fun path target routed classified => ?_
  obtain rfl : path = "/.aux/.acl".toList :=
    (Option.some.inj (Eq.trans (by decide) routed)).symm
  obtain rfl : target = .aux rootAcl :=
    (Except.ok.inj (Eq.trans rfl classified)).symm
  exact sameForRead_rootAcl

end Quadpod.Reference
