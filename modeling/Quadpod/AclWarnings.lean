import Mathlib.Data.Set.Finite.Basic
import Quadpod.ReadModifyWrite
import Quadpod.ReservedCheck
import Quadpod.ReservedNames
import Quadpod.StoredAcls

namespace Quadpod

open AtomicProgram

/-!
# The warning about an ACL

`PUT` of an ACL warns when `grants_anything` finds no grant in the body, through
`acl:accessTo` or `acl:default`.  The guard uses the first for the subject and
the second for what lies below it, and nothing lies below a leaf.  So the
warning is true except for the ACL of a leaf that grants only through
`acl:default`: it denies everyone everything, and no warning is sent.
-/

variable [IriSyntax] {space : StorageSpace}

/-! ## Members without an ACL -/

/-- Finitely many graphs hold a triple. -/
def World.Finite (world : World) : Prop :=
  {name | ∃ triple, triple ∈ world.graphs name}.Finite

/-- A container has a leaf with a name of every length. -/
theorem ContainerUrl.exists_leaf
    (container : ContainerUrl space) (count : Nat) :
    ∃ url : ResourceUrl space,
      url.parent = some container ∧
        url.path =
          container.resource.path ++ List.replicate (count + 1) 'a' := by
  have characters : ∀ c ∈ List.replicate (count + 1) 'a', c = 'a' :=
    fun c member => (List.mem_replicate.mp member).2
  have slashFree : '/' ∉ List.replicate (count + 1) 'a' := by
    intro member
    cases characters _ member
  have goodName : GoodSegment (List.replicate (count + 1) 'a') := by
    refine ⟨by simp [List.replicate_succ], slashFree, ?_, ?_⟩
    · intro member
      cases characters _ member
    · rw [List.replicate_succ, isDotSegment]
      simp
  obtain ⟨segments, good, notReserved, shape⟩ := container.exists_segments
  have start :
      firstSegment segments (List.replicate (count + 1) 'a') ∉
        reservedSegments := by
    cases segments with
    | nil =>
        have dotted :
            ∀ segment ∈ reservedSegments, segment.head? = some '.' := by
          decide
        intro isReserved
        cases dotted _ isReserved
    | cons first rest =>
        simpa [firstSegment] using notReserved
  have addressable :
      Addressable
        (container.resource.path ++ List.replicate (count + 1) 'a') := by
    rw [shape]
    exact .of_normalForm good (Or.inr goodName) start
  have valid :
      IriSyntax.valid
        (container.resource.iri ++ List.replicate (count + 1) 'a') =
          true := by
    have below := container.resource.valid
    rw [container.resource.iri_eq_base] at below ⊢
    refine IriSyntax.extend _ _ _ space.valid
      (Text.endsWith_iff.mp space.trailingSlash) ?_ below
    rw [List.all_eq_true]
    intro c member
    rw [characters c member]
    decide
  refine ⟨⟨_, _, addressable, ?_, valid⟩, ?_, rfl⟩
  · rw [container.resource.iriPath, List.append_assoc]
  · rw [ResourceUrl.parent_eq_some]
    refine ⟨?_, ?_⟩
    · intro isRoot
      have lengths := congrArg List.length isRoot
      obtain ⟨rest, isPath⟩ := container.resource.path_eq_cons
      simp [isPath] at lengths
    · dsimp only
      rw [shape, parentPath_leaf goodName.nonempty slashFree]

/-- In every container some leaf has no ACL. -/
theorem World.Finite.exists_leaf
    {world : World} (finite : world.Finite) (container : ContainerUrl space) :
    ∃ url : ResourceUrl space,
      url.parent = some container ∧
        world.present url.acl.node = false := by
  by_contra none
  have allPresent :
      ∀ url : ResourceUrl space,
        url.parent = some container → world.present url.acl.node = true := by
    intro url isParent
    by_contra absent
    exact none ⟨url, isParent, Bool.eq_false_iff.mpr absent⟩
  choose leaf isParent isPath using container.exists_leaf
  have distinct :
      Function.Injective fun count => sysGraphOf (leaf count).acl.iri := by
    intro first second same
    have sameLeaf : leaf first = leaf second :=
      ResourceUrl.acl_iri_injective (sysGraphOf_injective same)
    have lengths := congrArg (fun url => url.path.length) sameLeaf
    simp only [isPath, List.length_append, List.length_replicate] at lengths
    omega
  refine Set.infinite_of_injective_forall_mem distinct ?_ finite
  intro count
  exact ⟨_, World.present_iff.mp (allPresent (leaf count) (isParent count))⟩

/-! ## What a document governs -/

/-- The ACL of a subject is the nearest one of a target. -/
def World.Governs
    (world : World) (subject : ResourceUrl space) (target : Target space) :
    Prop :=
  ∃ below above,
    target.subject.chain = below ++ subject :: above ∧
      ∀ lower ∈ below, world.present lower.acl.node = false

/-- No agent is granted a mode on what the ACL of a subject governs. -/
def World.GrantsNobody
    (world : World) (subject : ResourceUrl space) : Prop :=
  ∀ (target : Target space) (agent : Agent) (mode : Mode)
      (decision : Decision),
    world.Governs subject target → agent.Unreserved →
      (world.guard agent target).authorize mode ≠ .ok decision

/-- A document declares a mode to someone. -/
def GrantsSomeone
    (acl : List Triple) (governedIri : Text) (inherited : Bool) : Prop :=
  ∃ agent mode subject,
    agent.Unreserved ∧
      Declares acl agent governedIri inherited mode subject

omit [IriSyntax] in
theorem AccessModes.exists_allows_iff (held : AccessModes) :
    (∃ mode, held.allows mode = true) ↔ ∃ mode, held.granted mode = true := by
  constructor
  · rintro ⟨mode, allowed⟩
    cases mode with
    | read =>
        exact ⟨.read, allowed⟩
    | write =>
        exact ⟨.write, allowed⟩
    | append =>
        rcases Bool.or_eq_true_iff.mp allowed with byAppend | byWrite
        · exact ⟨.append, byAppend⟩
        · exact ⟨.write, byWrite⟩
    | control =>
        exact ⟨.control, allowed⟩
  · rintro ⟨mode, granted⟩
    refine ⟨mode, ?_⟩
    cases mode with
    | read =>
        exact granted
    | write =>
        exact granted
    | append =>
        exact Bool.or_eq_true_iff.mpr (Or.inl granted)
    | control =>
        exact granted

theorem exists_judge_eq_ok_iff
    {acl : List Triple} {agent : Agent} {governedIri : Text}
    {inherited : Bool} {required : Mode} :
    (∃ decision,
        judge acl agent governedIri inherited required = .ok decision) ↔
      (decideModes acl agent governedIri inherited).allows required =
        true := by
  unfold judge
  dsimp only
  split
  · next allowed =>
      exact ⟨fun _ => allowed, fun _ => ⟨_, rfl⟩⟩
  · next refused =>
      refine ⟨?_, fun allowed => (refused allowed).elim⟩
      rintro ⟨decision, impossible⟩
      cases impossible

/-- A document grants someone a mode if it declares one to someone. -/
theorem grantsSomeone_iff
    {acl : List Triple} {governedIri : Text} {inherited : Bool} :
    GrantsSomeone acl governedIri inherited ↔
      ∃ agent mode decision,
        agent.Unreserved ∧
          judge acl agent governedIri inherited mode = .ok decision := by
  constructor
  · rintro ⟨agent, mode, subject, unreserved, declares⟩
    obtain ⟨required, allowed⟩ :=
      (AccessModes.exists_allows_iff _).mpr
        ⟨mode, granted_decideModes_iff.mpr ⟨subject, declares⟩⟩
    obtain ⟨decision, isOk⟩ := exists_judge_eq_ok_iff.mpr allowed
    exact ⟨agent, required, decision, unreserved, isOk⟩
  · rintro ⟨agent, required, decision, unreserved, isOk⟩
    obtain ⟨mode, granted⟩ :=
      (AccessModes.exists_allows_iff _).mp
        ⟨required, exists_judge_eq_ok_iff.mp ⟨decision, isOk⟩⟩
    obtain ⟨subject, declares⟩ := granted_decideModes_iff.mp granted
    exact ⟨agent, mode, subject, unreserved, declares⟩

section Governed

variable {world : World} {subject : ResourceUrl space}

/-- The nearest ACL judges, as inherited for what lies below its subject. -/
theorem World.authorize_governed
    (isPresent : world.present subject.acl.node = true)
    {target : Target space} {below above : List (ResourceUrl space)}
    (isChain : target.subject.chain = below ++ subject :: above)
    (absent : ∀ lower ∈ below, world.present lower.acl.node = false)
    (agent : Agent) (mode : Mode) :
    (world.guard agent target).authorize mode =
      judge (world.triplesOf subject.acl.iri) agent subject.iri
        (!below.isEmpty) (target.requiredMode mode) := by
  rw [world.guard_authorize, authorization, decision, isChain,
    world.nearestDecision_append agent _ false absent, nearestDecision,
    isPresent]
  rfl

theorem ResourceUrl.asContainer_eq_some
    {url : ResourceUrl space} {container : ContainerUrl space}
    (isContainer : url.asContainer = some container) :
    container.resource = url := by
  unfold asContainer at isContainer
  split at isContainer
  · cases isContainer
    rfl
  · cases isContainer

theorem ResourceUrl.requiredMode_toTarget
    (url : ResourceUrl space) (mode : Mode) :
    url.toTarget.requiredMode mode = mode := by
  unfold toTarget
  split <;> rfl

/-- A subject with something below it is a container. -/
theorem isContainer_of_below
    {target : Target space} {lower : ResourceUrl space}
    {below above : List (ResourceUrl space)}
    (isChain :
      target.subject.chain = (lower :: below) ++ subject :: above) :
    subject.asContainer.isSome = true := by
  have isAbove :
      subject ∈ target.subject.ancestors.map ContainerUrl.resource := by
    rw [ResourceUrl.chain, List.cons_append, List.cons.injEq] at isChain
    rw [isChain.2]
    simp
  obtain ⟨container, _, rfl⟩ := List.mem_map.mp isAbove
  rw [ResourceUrl.asContainer, dif_pos container.slash]
  rfl

/-- A document grants nobody anything that it declares in no scope in use. -/
theorem World.grantsNobody_of_declared
    (isPresent : world.present subject.acl.node = true)
    (nothing :
      ∀ inherited,
        (inherited = true → subject.asContainer.isSome = true) →
          ¬ GrantsSomeone (world.triplesOf subject.acl.iri) subject.iri
            inherited) :
    world.GrantsNobody subject := by
  intro target agent mode decision governs unreserved isOk
  obtain ⟨below, above, isChain, absent⟩ := governs
  rw [authorize_governed isPresent isChain absent] at isOk
  refine nothing (!below.isEmpty) ?_
    (grantsSomeone_iff.mpr ⟨agent, _, decision, unreserved, isOk⟩)
  intro isBelow
  cases below with
  | nil =>
      cases isBelow
  | cons lower others =>
      exact isContainer_of_below isChain

/--
Nobody is granted anything if the document declares nothing in the scopes that
are used: the subject's own, and for a container that of what lies below.
-/
theorem World.grantsNobody_iff
    (finite : world.Finite)
    (isPresent : world.present subject.acl.node = true) :
    world.GrantsNobody subject ↔
      ∀ inherited,
        (inherited = true → subject.asContainer.isSome = true) →
          ¬ GrantsSomeone (world.triplesOf subject.acl.iri) subject.iri
            inherited := by
  refine ⟨?_, grantsNobody_of_declared isPresent⟩
  intro nobody inherited isUsed someone
  obtain ⟨agent, mode, decision, unreserved, isOk⟩ :=
    grantsSomeone_iff.mp someone
  cases inherited with
  | false =>
      have isChain :
          subject.toTarget.subject.chain =
            [] ++ subject ::
              subject.ancestors.map ContainerUrl.resource := by
        rw [subject.subject_toTarget]
        rfl
      refine nobody subject.toTarget agent mode decision
        ⟨_, _, isChain, by simp⟩ unreserved ?_
      rw [authorize_governed isPresent isChain (by simp),
        subject.requiredMode_toTarget]
      exact isOk
  | true =>
      obtain ⟨container, isContainer⟩ :=
        Option.isSome_iff_exists.mp (isUsed rfl)
      have isSubject := ResourceUrl.asContainer_eq_some isContainer
      obtain ⟨leaf, isParent, hasNoAcl⟩ := finite.exists_leaf container
      have isChain :
          leaf.toTarget.subject.chain =
            [leaf] ++ subject ::
              subject.ancestors.map ContainerUrl.resource := by
        rw [leaf.subject_toTarget, ResourceUrl.chain_of_parent isParent,
          isSubject]
        rfl
      have absent :
          ∀ lower ∈ [leaf], world.present lower.acl.node = false := by
        simpa using hasNoAcl
      refine nobody leaf.toTarget agent mode decision
        ⟨_, _, isChain, absent⟩ unreserved ?_
      rw [authorize_governed isPresent isChain absent,
        leaf.requiredMode_toTarget]
      exact isOk

end Governed

/-! ## The document that was sent -/

/-- Neither a subject nor an object is a reserved IRI. -/
structure OpenTriples (triples : List Triple) : Prop where
  subjects : OpenSubjects triples
  objects :
    ∀ triple ∈ triples, ∀ node,
      triple.object = .namedNode node → isReservedIri node.iri = false

/-- A body that was not refused names nothing reserved. -/
theorem openTriples_of_checkBody
    {target : Target space} {dataset : Dataset}
    (checked : checkBody target dataset = .ok ()) :
    OpenTriples dataset.defaultGraphOnly.triplesOf := by
  have unreserved : dataset.usesReservedNamespace = false := by
    unfold checkBody at checked
    split at checked
    · cases checked
    · next allowed =>
        exact Bool.eq_false_iff.mpr allowed
  rw [Dataset.usesReservedNamespace_eq, List.any_eq_false] at unreserved
  have sent :
      ∀ triple ∈ dataset.defaultGraphOnly.triplesOf,
        ∃ quad ∈ dataset.quads, quad.toTriple = triple := by
    intro triple member
    obtain ⟨quad, isQuad, isTriple⟩ := List.mem_map.mp member
    exact ⟨quad, (List.mem_filter.mp isQuad).1, isTriple⟩
  constructor
  · intro triple member
    obtain ⟨quad, isQuad, rfl⟩ := sent triple member
    have free := unreserved quad isQuad
    simp only [Quad.usesReserved, Bool.or_eq_true, not_or,
      Bool.not_eq_true] at free
    exact free.1.1.1
  · intro triple member node isObject
    obtain ⟨quad, isQuad, rfl⟩ := sent triple member
    have free := unreserved quad isQuad
    have isObject : quad.object = .namedNode node := isObject
    simp only [Quad.usesReserved, isObject, Bool.or_eq_true, not_or,
      Bool.not_eq_true] at free
    exact free.1.1.2

/-- Someone who is granted something need not have a reserved WebID. -/
theorem OpenTriples.grantsSomeone
    {triples : List Triple} (isOpen : OpenTriples triples)
    {agent : Agent} {governedIri : Text} {inherited : Bool} {mode : Mode}
    {subject : NamedOrBlankNode}
    (declares : Declares triples agent governedIri inherited mode subject) :
    GrantsSomeone triples governedIri inherited := by
  obtain ⟨scope, covers, hasMode⟩ := declares
  rcases covers with everyone | ⟨webId, _, anyone | named⟩
  · exact ⟨.anonymous, mode, subject, trivial, scope, Or.inl everyone,
      hasMode⟩
  · have emptyFree : isReservedIri [] = false := by
      decide
    exact ⟨.webId [], mode, subject, emptyFree, scope,
      Or.inr ⟨[], rfl, Or.inl anyone⟩, hasMode⟩
  · refine ⟨.webId webId, mode, subject, ?_, scope,
      Or.inr ⟨webId, rfl, Or.inr named⟩, hasMode⟩
    obtain ⟨triple, isSent, _, _, node, isObject, rfl⟩ := named
    exact isOpen.objects triple isSent node isObject

/-- `grants_anything` asks whether someone is granted something. -/
theorem OpenTriples.grantsAnything_iff
    {triples : List Triple} (isOpen : OpenTriples triples)
    {governedIri : Text} :
    grantsAnything triples governedIri = true ↔
      ∃ inherited, GrantsSomeone triples governedIri inherited := by
  rw [grantsAnything_iff_declares]
  constructor
  · rintro ⟨agent, inherited, mode, subject, declares⟩
    exact ⟨inherited, isOpen.grantsSomeone declares⟩
  · rintro ⟨inherited, agent, mode, subject, _, declares⟩
    exact ⟨agent, inherited, mode, subject, declares⟩

/-- The stored document grants someone something if the one sent did. -/
theorem World.grantsSomeone_stored_iff
    {world : World} {name : Text} {fresh : Nat → Uuid}
    {triples : List Triple}
    (contents :
      ∀ triple,
        triple ∈ world.graphs name ↔
          triple ∈ skolemizedTriples fresh triples)
    (distinct :
      Skolemized.DistinctBelow fresh
        (Skolemized.tableOf fresh triples).length)
    (isOpen : OpenTriples triples)
    {governedIri : Text} (governedFree : isReservedIri governedIri = false)
    {inherited : Bool} :
    GrantsSomeone (world.triplesOf name) governedIri inherited ↔
      GrantsSomeone triples governedIri inherited := by
  have same :
      ∀ triple,
        triple ∈ world.triplesOf name ↔
          triple ∈ readTriples fresh triples := by
    intro triple
    unfold triplesOf readTriples
    rw [List.mem_map, List.mem_map]
    exact exists_congr fun ground => and_congr_left fun _ => contents ground
  constructor
  · rintro ⟨agent, mode, subject, unreserved, declares⟩
    obtain ⟨sent, declared⟩ :=
      (exists_declares_readTriples_iff distinct isOpen.subjects unreserved
        governedFree).mp
        ⟨subject, declares.mono fun triple => (same triple).mp⟩
    exact ⟨agent, mode, sent, unreserved, declared⟩
  · rintro ⟨agent, mode, subject, unreserved, declares⟩
    obtain ⟨stored, declared⟩ :=
      (exists_declares_readTriples_iff distinct isOpen.subjects unreserved
        governedFree).mpr ⟨subject, declares⟩
    exact ⟨agent, mode, stored, unreserved,
      declared.mono fun triple => (same triple).mpr⟩

/-! ## The header field -/

/-- Whether a response carries the warning. -/
def Response.Warns (response : Response) : Prop :=
  (response.header "warning".toList).isSome = true

/-- A text without the characters that end or escape in a quoted string. -/
def Quotable (text : Text) : Prop :=
  '"' ∉ text ∧ '\\' ∉ text

instance (text : Text) : Decidable (Quotable text) :=
  inferInstanceAs (Decidable (_ ∧ _))

omit [IriSyntax] in
theorem Quotable.append {first second : Text}
    (firstQuotable : Quotable first) (secondQuotable : Quotable second) :
    Quotable (first ++ second) := by
  constructor
  · simp [firstQuotable.1, secondQuotable.1]
  · simp [firstQuotable.2, secondQuotable.2]

omit [IriSyntax] in
/-- A message that can be quoted is sent. -/
theorem Quotable.warns {message : Text} (quotable : Quotable message)
    (response : Response) :
    (if message.contains '"' || message.contains '\\' then
        response
      else
        response.append "warning".toList
          ("199 - \"".toList ++ message ++ ['"'])).Warns := by
  have clean : (message.contains '"' || message.contains '\\') = false := by
    simp [quotable.1, quotable.2]
  rw [clean, if_neg Bool.false_ne_true, Response.Warns, Response.header,
    Response.append, List.lookup_append, Option.isSome_or, Bool.or_eq_true]
  exact Or.inr rfl

theorem Response.not_warns_created (aux : AuxUrl space) :
    ¬ (Response.created (.aux aux : Target space)).Warns :=
  Bool.false_ne_true

/-- The warning is sent when `grants_anything` finds nothing. -/
theorem warns_warnIfAclGrantsNothing_iff
    (quotable : ∀ iri : Text, IriSyntax.valid iri = true → Quotable iri)
    (aux : AuxUrl space) (triples : List Triple) :
    (warnIfAclGrantsNothing aux triples
        (.created (.aux aux : Target space))).Warns ↔
      grantsAnything triples aux.subject.iri = false := by
  unfold warnIfAclGrantsNothing
  split
  · next grants =>
      rw [grants]
      exact iff_of_false (Response.not_warns_created aux) (by decide)
  · next nothing =>
      refine iff_of_true (Quotable.warns ?_ _)
        (Bool.eq_false_iff.mpr nothing)
      refine .append (.append (.append (.append (.append (.append ?_ ?_)
        ?_) ?_) ?_) ?_) ?_
      · decide
      · exact quotable _ aux.valid
      · decide
      · exact quotable _ aux.subject.valid
      · split <;> decide
      · decide
      · split <;> decide

/-- The answer to an auxiliary that was written. -/
theorem answer_of_putAux
    {fresh : Nat → Uuid} {aux : AuxUrl space} {triples : List Triple}
    {started reached : World} {response : Response}
    (isWritten :
      Program.eval backend (putAux fresh (.aux aux) aux triples) started =
        (.ok response, reached))
    (isSuccess : response.isSuccess = true) :
    response =
      warnIfAclGrantsNothing aux triples
        (.created (.aux aux : Target space)) := by
  unfold putAux at isWritten
  obtain ⟨result, middle, _, isAnswer⟩ := Program.eval_bind_eq_ok isWritten
  cases result with
  | ok =>
      cases isAnswer
      rfl
  | error error =>
      cases error with
      | subjectMissing =>
          cases isAnswer
          cases isSuccess
      | missing =>
          cases isAnswer
          cases isSuccess
      | tooLarge count =>
          cases isAnswer
          cases isSuccess
      | resource error =>
          cases isAnswer
          cases error <;> cases isSuccess

/-- The answer to an accepted `PUT` of an auxiliary. -/
theorem answer_of_putWrite
    [Sha256] [ObjectPath] [QuadText] [RdfParser] [RdfSerializer]
    [ShapeEngine] {storeVersion : RdfVersion}
    {agent : Agent} {aux : AuxUrl space} {headers : HeaderMap}
    {body : Bytes} {draws : Draws} {world after : World}
    {answer : Response} {dataset : Dataset} {format : Format}
    {declared : RdfVersion}
    (classified :
      classifyBody headers body (.aux aux) storeVersion =
        .ok (.rdf dataset format declared))
    (succeeds :
      Program.eval backend
          (putWrite storeVersion agent (.aux aux) headers body draws) world =
        (.ok answer, after))
    (isSuccess : answer.isSuccess = true) :
    answer =
      warnIfAclGrantsNothing aux dataset.defaultGraphOnly.triplesOf
        (.created (.aux aux : Target space)) := by
  obtain ⟨repr, isRepr, succeeds⟩ := putWrite_classified succeeds
  cases classified.symm.trans isRepr
  dsimp only at succeeds
  unfold putRdfRepr at succeeds
  obtain ⟨_, _, _, succeeds⟩ := Program.eval_bind_eq_ok succeeds
  obtain ⟨_, _, _, succeeds⟩ := Program.eval_bind_eq_ok succeeds
  obtain ⟨_, _, _, succeeds⟩ := Program.eval_bind_eq_ok succeeds
  obtain ⟨findings, _, _, succeeds⟩ := Program.eval_bind_eq_ok succeeds
  obtain ⟨_, _, _, succeeds⟩ := Program.eval_bind_eq_ok succeeds
  obtain ⟨response, reached, isWritten, succeeds⟩ :=
    Program.eval_bind_eq_ok succeeds
  cases succeeds
  rw [isSuccess_withFindings] at isSuccess
  rw [← answer_of_putAux isWritten isSuccess, withFindings]
  split <;> rfl

theorem AuxUrl.acl_subject (aux : AuxUrl space) : aux.subject.acl = aux := by
  rw [ResourceUrl.acl, show AuxKind.acl = aux.kind by cases aux.kind; rfl]
  exact aux.eq_aux.symm

/-- The blank nodes of an auxiliary are those of the body. -/
theorem length_tableOf_le
    {fresh : Nat → Uuid} {dataset : Dataset}
    (unnamed : dataset.hasNamedGraphs = false) :
    (Skolemized.tableOf fresh dataset.defaultGraphOnly.triplesOf).length ≤
      dataset.blanks.dedup.length := by
  rw [Skolemized.tableOf, asQuads_of_unnamed unnamed]
  exact Skolemized.length_tableAfter_le dataset

section Warning

variable [Sha256] [ObjectPath] [QuadText] [RdfParser] [RdfSerializer]
variable [ShapeEngine] {storeVersion : RdfVersion}

omit [QuadText] [RdfParser] [RdfSerializer] [ShapeEngine] in
/-- After an accepted `PUT` the document is stored and present. -/
theorem Accepted.stored_auxiliary
    {agent : Agent} {aux : AuxUrl space} {draws : Draws}
    {dataset : Dataset} {format : Format} {declared : RdfVersion}
    {world after : World}
    (accepted :
      Accepted agent (.aux aux) draws dataset format declared world after) :
    after.present aux.node = true ∧
      ∀ triple,
        triple ∈ after.graphs aux.iri ↔
          triple ∈
            skolemizedTriples draws.blank
              dataset.defaultGraphOnly.triplesOf := by
  obtain ⟨walk, walked, rfl⟩ := accepted.written
  have subjectPresent := subject_present_of_walk walked
  exact ⟨present_after_auxiliary subjectPresent,
    fun triple => mem_after_auxiliary subjectPresent⟩

/--
The warning about an ACL is true, at once and as long as the document is there,
if and only if its subject is a container or the document grants something
through `acl:accessTo` whenever it grants something through `acl:default`.
-/
theorem warning_truthful_iff
    {agent : Agent} {aux : AuxUrl space} {headers : HeaderMap}
    {body : Bytes} {draws : Draws} {world after : World}
    {answer : Response} {dataset : Dataset} {format : Format}
    {declared : RdfVersion}
    (quotable : ∀ iri : Text, IriSyntax.valid iri = true → Quotable iri)
    (hyphenated :
      ∀ number < dataset.blanks.dedup.length,
        (draws.blank number).Hyphenated)
    (distinct :
      Set.InjOn draws.blank (Set.Iio dataset.blanks.dedup.length))
    (classified :
      classifyBody headers body (.aux aux) storeVersion =
        .ok (.rdf dataset format declared))
    (succeeds :
      Program.eval backend
          (putWrite storeVersion agent (.aux aux) headers body draws) world =
        (.ok answer, after))
    (isSuccess : answer.isSuccess = true) :
    after.present aux.node = true ∧
      ∀ later : World,
        later.Finite →
        later.present aux.node = true →
        (∀ triple,
          triple ∈ later.graphs aux.iri ↔ triple ∈ after.graphs aux.iri) →
        ((answer.Warns ↔ later.GrantsNobody aux.subject) ↔
          (aux.subject.asContainer.isSome = true ∨
            (GrantsSomeone dataset.defaultGraphOnly.triplesOf
                aux.subject.iri true →
              GrantsSomeone dataset.defaultGraphOnly.triplesOf
                aux.subject.iri false))) := by
  have accepted := putWrite_accepted classified succeeds isSuccess
  obtain ⟨isPresent, stored⟩ := accepted.stored_auxiliary
  refine ⟨isPresent, fun later finite still same => ?_⟩
  have isOpen := openTriples_of_checkBody accepted.checked
  have distinctBelow :
      Skolemized.DistinctBelow draws.blank
        (Skolemized.tableOf draws.blank
          dataset.defaultGraphOnly.triplesOf).length :=
    (Skolemized.distinctBelow_of_hyphenated hyphenated distinct).mono
      (Set.Iio_subset_Iio
        (length_tableOf_le
          (unnamed_of_checkBody (by simp) accepted.checked)))
  have warns :
      answer.Warns ↔
        ¬ ∃ inherited,
          GrantsSomeone dataset.defaultGraphOnly.triplesOf aux.subject.iri
            inherited := by
    rw [answer_of_putWrite classified succeeds isSuccess,
      warns_warnIfAclGrantsNothing_iff quotable, ← isOpen.grantsAnything_iff,
      Bool.not_eq_true]
  have governedFree : isReservedIri aux.subject.iri = false :=
    show aux.subject.node.isReserved = false from
      isReserved_of_isHttp aux.subject.isHttp
  have nobody :
      later.GrantsNobody aux.subject ↔
        ∀ inherited,
          (inherited = true → aux.subject.asContainer.isSome = true) →
            ¬ GrantsSomeone dataset.defaultGraphOnly.triplesOf
              aux.subject.iri inherited := by
    rw [World.grantsNobody_iff finite (aux.acl_subject ▸ still),
      aux.acl_subject]
    refine forall_congr' fun inherited => imp_congr_right fun _ => ?_
    rw [World.grantsSomeone_stored_iff
      (fun triple => (same triple).trans (stored triple)) distinctBelow
      isOpen governedFree]
  rw [warns, nobody, Bool.exists_bool, Bool.forall_bool]
  generalize GrantsSomeone _ aux.subject.iri true = byDefault
  generalize GrantsSomeone _ aux.subject.iri false = byAccessTo
  by_cases isContainer : aux.subject.asContainer.isSome = true
  · simp [isContainer]
  · by_cases direct : byAccessTo
    · simp [direct]
    · simp [direct, isContainer]

end Warning

end Quadpod

namespace Quadpod.Reference

open AtomicProgram

/-- UUIDs in their usual form. -/
def usualDraws : Draws := { draws with blank := repeatedUuid }

/-- The owner replaces the ACL of `/note`. -/
def putLeafAcl : HttpProgram Response :=
  putWrite .rdf12 ownerAgent (.aux note.acl)
    [(.contentType, some "text/turtle".toList)]
    (Text.utf8 (document leafAclQuads)) usualDraws

/-- The answer is a success without a warning, and the ACL names no scope. -/
theorem run_putLeafAcl :
    succeeded (Program.eval backend putLeafAcl notedWorld).1 = true ∧
      (Program.eval backend putLeafAcl notedWorld).1.toOption.all
          (fun response => (response.header "warning".toList).isNone) =
        true ∧
      (Program.eval backend putLeafAcl notedWorld).2.present note.acl.node =
        true ∧
      ∀ triple ∈
          (Program.eval backend putLeafAcl notedWorld).2.triplesOf
            note.acl.iri,
        triple.predicate.iri ≠ aclAccessToIri := by
  decide +kernel

/-- The document grants nobody anything. -/
theorem grantsNobody_putLeafAcl :
    (Program.eval backend putLeafAcl notedWorld).2.GrantsNobody note := by
  obtain ⟨_, _, isPresent, noScope⟩ := run_putLeafAcl
  refine World.grantsNobody_of_declared isPresent ?_
  intro inherited isUsed someone
  cases inherited with
  | true =>
      cases isUsed rfl
  | false =>
      obtain ⟨agent, mode, subject, _, declares⟩ := someone
      obtain ⟨triple, isStored, _, isScope, _⟩ := declares.scope
      exact noScope triple isStored isScope

/-- The ACL of a leaf that grants through `acl:default` is not warned about. -/
theorem leafAcl_denies_without_warning :
    ∃ answer after,
      Program.eval backend putLeafAcl notedWorld = (.ok answer, after) ∧
        answer.isSuccess = true ∧
        ¬ (answer.Warns ↔ after.GrantsNobody note) := by
  obtain ⟨isStored, silent, _, _⟩ := run_putLeafAcl
  obtain ⟨answer, put, isSuccess⟩ := eval_of_succeeded isStored
  refine ⟨answer, _, put, isSuccess, fun truthful => ?_⟩
  rw [put] at silent
  have warns := truthful.mpr grantsNobody_putLeafAcl
  rw [Response.Warns, Option.isSome_iff_ne_none] at warns
  exact warns (Option.isNone_iff_eq_none.mp silent)

theorem quotable_iris (iri : Text) (valid : IriSyntax.valid iri = true) :
    Quotable iri := by
  have allowed := (iriValid_iff.mp valid).2
  constructor
  · intro member
    have isAllowed := allowed _ member
    revert isAllowed
    decide
  · intro member
    have isAllowed := allowed _ member
    revert isAllowed
    decide

/-- The document as it is parsed. -/
def leafAclDocument : Dataset := ⟨leafAclQuads⟩

theorem classified_leafAcl :
    classifyBody [(.contentType, some "text/turtle".toList)]
      (Text.utf8 (document leafAclQuads)) (.aux note.acl) .rdf12 =
        .ok (.rdf leafAclDocument .turtle .rdf11) := by
  have isFormat :
      Format.fromContentType "text/turtle".toList = some .turtle ∧
        RdfVersion.fromMediaType "text/turtle".toList = some .rdf11 := by
    decide
  have isRead :
      Format.parse .turtle (Text.utf8 (document leafAclQuads))
        (graphIri (.aux note.acl : Target podSpace)) .rdf11 =
          .ok leafAclDocument := by
    decide +kernel
  have isTrimmed :
      Text.trim (headerStr [(.contentType, some "text/turtle".toList)]
        .contentType) = "text/turtle".toList := by
    decide +kernel
  unfold classifyBody
  dsimp only
  rw [isTrimmed, isFormat.1, isFormat.2]
  dsimp only
  rw [isRead]
  rfl

/-- What is known of that write. -/
theorem leafAcl_warning :
    ∃ answer after,
      Program.eval backend putLeafAcl notedWorld = (.ok answer, after) ∧
        answer.isSuccess = true ∧
        after.present note.acl.node = true ∧
        ∀ later : World,
          later.Finite →
          later.present note.acl.node = true →
          (∀ triple,
            triple ∈ later.graphs note.acl.iri ↔
              triple ∈ after.graphs note.acl.iri) →
          ((answer.Warns ↔ later.GrantsNobody note) ↔
            (note.asContainer.isSome = true ∨
              (GrantsSomeone leafAclDocument.defaultGraphOnly.triplesOf
                  note.iri true →
                GrantsSomeone leafAclDocument.defaultGraphOnly.triplesOf
                  note.iri false))) := by
  obtain ⟨answer, put, isSuccess⟩ := eval_of_succeeded run_putLeafAcl.1
  have count : leafAclDocument.blanks.dedup.length = 1 := by
    decide +kernel
  have hyphenated :
      (repeatedUuid 0).text.map Char.isAlphanum = hyphenation := by
    decide +kernel
  refine ⟨answer, _, put, isSuccess, warning_truthful_iff quotable_iris
    ?_ ?_ classified_leafAcl put isSuccess⟩
  · rw [count]
    intro number small
    obtain rfl := Nat.lt_one_iff.mp small
    exact hyphenated
  · rw [count]
    intro first firstSmall second secondSmall _
    rw [Nat.lt_one_iff.mp firstSmall, Nat.lt_one_iff.mp secondSmall]

end Quadpod.Reference
