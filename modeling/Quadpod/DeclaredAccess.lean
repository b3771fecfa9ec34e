import Quadpod.KeyedTable
import Quadpod.WacDecision

namespace Quadpod

/-!
# The declared access

What an ACL document says, apart from how it is read: an agent is granted a
mode when one subject carries the scope, a clause that matches the agent and
the mode.  `decide` groups the triples by subject in one pass and lets every
group add to the modes granted so far.  The groups are those of the document,
so the two agree, in whatever order the groups are visited.
-/

variable [IriSyntax]

/-! ## What a document declares -/

/-- `recognized_mode`, the other way round. -/
def Mode.iri : Mode → Text
  | .read => aclReadIri
  | .write => aclWriteIri
  | .append => aclAppendIri
  | .control => aclControlIri

/-- The mode among those granted. -/
def AccessModes.granted (held : AccessModes) : Mode → Bool
  | .read => held.read
  | .write => held.write
  | .append => held.append
  | .control => held.control

/-- A document states that a subject has an IRI as object of a predicate. -/
def States
    (acl : List Triple) (subject : NamedOrBlankNode)
    (predicate object : Text) : Prop :=
  ∃ triple ∈ acl,
    triple.subject = subject ∧ triple.predicate.iri = predicate ∧
      ∃ node, triple.object = .namedNode node ∧ node.iri = object

/-- The predicate that scopes an authorization. -/
def scopeIri (inherited : Bool) : Text :=
  if inherited then aclDefaultIri else aclAccessToIri

/-- A subject with a clause that matches an agent. -/
def Covers
    (acl : List Triple) (subject : NamedOrBlankNode) (agent : Agent) : Prop :=
  States acl subject aclAgentClassIri foafAgentIri ∨
    ∃ webId,
      agent = .webId webId ∧
        (States acl subject aclAgentClassIri aclAuthenticatedAgentIri ∨
          States acl subject aclAgentIri webId)

/-- One subject carries the scope, a matching agent clause and the mode. -/
structure Declares
    (acl : List Triple) (agent : Agent) (governedIri : Text)
    (inherited : Bool) (mode : Mode) (subject : NamedOrBlankNode) :
    Prop where
  scope : States acl subject (scopeIri inherited) governedIri
  agent : Covers acl subject agent
  mode : States acl subject aclModeIri mode.iri

theorem States.mono {acl larger : List Triple} {subject : NamedOrBlankNode}
    {predicate object : Text} (contained : acl ⊆ larger)
    (states : States acl subject predicate object) :
    States larger subject predicate object := by
  obtain ⟨triple, member, stated⟩ := states
  exact ⟨triple, contained member, stated⟩

theorem Covers.mono {acl larger : List Triple} {subject : NamedOrBlankNode}
    {agent : Agent} (contained : acl ⊆ larger)
    (covers : Covers acl subject agent) : Covers larger subject agent := by
  rcases covers with everyone | ⟨webId, isWebId, anyone | named⟩
  · exact Or.inl (everyone.mono contained)
  · exact Or.inr ⟨webId, isWebId, Or.inl (anyone.mono contained)⟩
  · exact Or.inr ⟨webId, isWebId, Or.inr (named.mono contained)⟩

theorem Declares.mono {acl larger : List Triple} {agent : Agent}
    {governedIri : Text} {inherited : Bool} {mode : Mode}
    {subject : NamedOrBlankNode} (contained : acl ⊆ larger)
    (declares : Declares acl agent governedIri inherited mode subject) :
    Declares larger agent governedIri inherited mode subject :=
  ⟨declares.scope.mono contained, declares.agent.mono contained,
    declares.mode.mono contained⟩

/-! ## The groups of a document -/

/-- The triples of one subject. -/
def triplesAbout (acl : List Triple) (subject : NamedOrBlankNode) :
    List Triple :=
  acl.filter fun triple => triple.subject = subject

section Grouping

variable {groups : List (NamedOrBlankNode × List Triple)}

theorem fst_of_mem_addToGroup {triple : Triple} {subject : NamedOrBlankNode}
    (member : subject ∈ (addToGroup triple groups).map Prod.fst) :
    subject = triple.subject ∨ subject ∈ groups.map Prod.fst := by
  induction groups with
  | nil =>
      simpa [addToGroup] using member
  | cons group rest inductionHypothesis =>
      obtain ⟨first, triples⟩ := group
      unfold addToGroup at member
      split at member
      · exact Or.inr member
      · rcases List.mem_cons.mp member with isFirst | inRest
        · exact Or.inr (List.mem_cons.mpr (Or.inl isFirst))
        · rcases inductionHypothesis inRest with isNew | isOld
          · exact Or.inl isNew
          · exact Or.inr (List.mem_cons.mpr (Or.inr isOld))

/-- No two groups have one subject. -/
theorem nodup_addToGroup (triple : Triple)
    (distinct : (groups.map Prod.fst).Nodup) :
    ((addToGroup triple groups).map Prod.fst).Nodup := by
  induction groups with
  | nil =>
      simp [addToGroup]
  | cons group rest inductionHypothesis =>
      obtain ⟨first, triples⟩ := group
      obtain ⟨isNew, restDistinct⟩ := List.nodup_cons.mp distinct
      unfold addToGroup
      split
      · exact distinct
      · next differs =>
          refine List.nodup_cons.mpr ⟨fun member => ?_,
            inductionHypothesis restDistinct⟩
          rcases fst_of_mem_addToGroup member with same | older
          · exact differs same
          · exact isNew older

/-- A triple joins the group of its subject and no other. -/
theorem lookup_addToGroup (triple : Triple) (subject : NamedOrBlankNode) :
    (addToGroup triple groups).lookup subject =
      if triple.subject = subject then
        some ((groups.lookup subject).getD [] ++ [triple])
      else
        groups.lookup subject := by
  induction groups with
  | nil =>
      by_cases same : triple.subject = subject
      · simp [addToGroup, same]
      · have other : (subject == triple.subject) = false := by
          simpa using Ne.symm same
        simp [addToGroup, List.lookup_cons, same, other]
  | cons group rest inductionHypothesis =>
      obtain ⟨first, triples⟩ := group
      by_cases isFirst : first = triple.subject
      · by_cases same : triple.subject = subject
        · simp [addToGroup, isFirst, same]
        · have other : (subject == triple.subject) = false := by
            simpa using Ne.symm same
          simp [addToGroup, isFirst, List.lookup_cons, same, other]
      · rw [addToGroup, if_neg isFirst, List.lookup_cons, List.lookup_cons,
          inductionHypothesis]
        by_cases atFirst : subject = first
        · have differs : ¬ triple.subject = subject := by
            rw [atFirst]
            exact Ne.symm isFirst
          simp [atFirst, Ne.symm isFirst]
        · have other : (subject == first) = false := by
            simpa using atFirst
          simp [other]

end Grouping

theorem bySubject_concat (acl : List Triple) (triple : Triple) :
    bySubject (acl ++ [triple]) = addToGroup triple (bySubject acl) := by
  unfold bySubject
  rw [List.foldl_append]
  rfl

theorem nodup_bySubject (acl : List Triple) :
    ((bySubject acl).map Prod.fst).Nodup := by
  induction acl using List.reverseRecOn with
  | nil =>
      exact List.nodup_nil
  | append_singleton earlier triple inductionHypothesis =>
      rw [bySubject_concat]
      exact nodup_addToGroup triple inductionHypothesis

/-- The group of a subject is its triples, if it has any. -/
theorem lookup_bySubject (acl : List Triple) (subject : NamedOrBlankNode) :
    (bySubject acl).lookup subject =
      if triplesAbout acl subject = [] then
        none
      else
        some (triplesAbout acl subject) := by
  induction acl using List.reverseRecOn with
  | nil =>
      rfl
  | append_singleton earlier triple inductionHypothesis =>
      rw [bySubject_concat, lookup_addToGroup, inductionHypothesis]
      unfold triplesAbout
      rw [List.filter_append]
      by_cases same : triple.subject = subject
      · rw [if_pos same, List.filter_cons_of_pos (by simpa using same)]
        split
        · next isEmpty =>
            simp [isEmpty]
        · simp
      · rw [if_neg same, List.filter_cons_of_neg (by simpa using same)]
        simp

/-- The groups are the subjects, each with its own triples. -/
theorem mem_bySubject_iff {acl : List Triple} {subject : NamedOrBlankNode}
    {group : List Triple} :
    (subject, group) ∈ bySubject acl ↔
      group = triplesAbout acl subject ∧ group ≠ [] := by
  let table : KeyedTable NamedOrBlankNode (List Triple) :=
    ⟨bySubject acl, nodup_bySubject acl⟩
  have found :
      (subject, group) ∈ table.entries ↔
        table.lookup subject = some group :=
    ⟨KeyedTable.lookup_of_mem, KeyedTable.mem_of_lookup⟩
  refine found.trans ?_
  rw [KeyedTable.lookup, lookup_bySubject]
  split
  · next isEmpty =>
      rw [isEmpty]
      simp
  · next isFilled =>
      rw [Option.some.injEq]
      constructor
      · rintro rfl
        exact ⟨rfl, isFilled⟩
      · rintro ⟨rfl, _⟩
        rfl

/-! ## The questions asked of a group -/

theorem hasObject_triplesAbout_iff {acl : List Triple}
    {subject : NamedOrBlankNode} {predicate object : Text} :
    hasObject (triplesAbout acl subject) predicate object = true ↔
      States acl subject predicate object := by
  unfold hasObject
  rw [List.any_eq_true]
  constructor
  · rintro ⟨triple, member, asked⟩
    obtain ⟨inAcl, isSubject⟩ := List.mem_filter.mp member
    rw [Bool.and_eq_true, beq_iff_eq] at asked
    obtain ⟨isPredicate, isObject⟩ := asked
    split at isObject
    · next node isNode =>
        exact ⟨triple, inAcl, of_decide_eq_true isSubject, isPredicate, node,
          isNode, beq_iff_eq.mp isObject⟩
    · cases isObject
  · rintro ⟨triple, inAcl, isSubject, isPredicate, node, isNode, isObject⟩
    refine ⟨triple, List.mem_filter.mpr ⟨inAcl, by simpa using isSubject⟩, ?_⟩
    simp [isPredicate, isNode, isObject]

theorem matchesAgent_triplesAbout_iff {acl : List Triple}
    {subject : NamedOrBlankNode} {agent : Agent} :
    matchesAgent (triplesAbout acl subject) agent = true ↔
      Covers acl subject agent := by
  unfold matchesAgent Covers
  rw [Bool.or_eq_true, hasObject_triplesAbout_iff]
  cases agent with
  | anonymous =>
      simp
  | webId webId =>
      simp [hasObject_triplesAbout_iff]

omit [IriSyntax] in
theorem recognizedMode_eq_some {iri : Text} {mode : Mode} :
    recognizedMode iri = some mode ↔ iri = mode.iri := by
  constructor
  · intro recognized
    unfold recognizedMode at recognized
    split at recognized
    · next isRead =>
        cases recognized
        exact isRead
    · split at recognized
      · next isWrite =>
          cases recognized
          exact isWrite
      · split at recognized
        · next isAppend =>
            cases recognized
            exact isAppend
        · split at recognized
          · next isControl =>
              cases recognized
              exact isControl
          · cases recognized
  · rintro rfl
    cases mode <;> decide

theorem grantedMode_eq_some {triple : Triple} {mode : Mode} :
    grantedMode triple = some mode ↔
      triple.predicate.iri = aclModeIri ∧
        ∃ node, triple.object = .namedNode node ∧ node.iri = mode.iri := by
  unfold grantedMode
  split
  · next isMode =>
      cases triple.object with
      | namedNode node =>
          simp [isMode, recognizedMode_eq_some]
      | blankNode blank =>
          simp
      | literal content =>
          simp
      | triple subject predicate object =>
          simp
  · next notMode =>
      simp [notMode]

theorem exists_grantedMode_iff {acl : List Triple}
    {subject : NamedOrBlankNode} {mode : Mode} :
    (∃ triple ∈ triplesAbout acl subject, grantedMode triple = some mode) ↔
      States acl subject aclModeIri mode.iri := by
  constructor
  · rintro ⟨triple, member, isGranted⟩
    obtain ⟨inAcl, isSubject⟩ := List.mem_filter.mp member
    exact ⟨triple, inAcl, of_decide_eq_true isSubject,
      grantedMode_eq_some.mp isGranted⟩
  · rintro ⟨triple, inAcl, isSubject, isMode⟩
    exact ⟨triple, List.mem_filter.mpr ⟨inAcl, by simpa using isSubject⟩,
      grantedMode_eq_some.mpr isMode⟩

/-! ## The accumulator -/

omit [IriSyntax] in
/-- What every step keeps or adds holds in the end if one step added it. -/
theorem holds_foldl_iff {Item Result : Type}
    (holds : Result → Prop) (adds : Item → Prop)
    {step : Result → Item → Result}
    (stepHolds :
      ∀ result item, holds (step result item) ↔ holds result ∨ adds item)
    (items : List Item) (start : Result) :
    holds (items.foldl step start) ↔
      holds start ∨ ∃ item ∈ items, adds item := by
  induction items generalizing start with
  | nil =>
      simp
  | cons item rest inductionHypothesis =>
      rw [List.foldl_cons, inductionHypothesis, stepHolds, or_assoc]
      simp only [List.mem_cons, or_and_right, exists_or, exists_eq_left]

omit [IriSyntax] in
theorem granted_grant (held : AccessModes) (other mode : Mode) :
    (held.grant other).granted mode = true ↔
      held.granted mode = true ∨ other = mode := by
  cases other <;> cases mode <;>
    simp [AccessModes.grant, AccessModes.granted]

/-- The modes of one authorization, added to those granted before it. -/
def grantModes (granted : AccessModes) (authorization : List Triple) :
    AccessModes :=
  authorization.foldl
    (fun granted triple =>
      match grantedMode triple with
      | some mode => granted.grant mode
      | none => granted)
    granted

theorem granted_grantModes_iff {held : AccessModes}
    {authorization : List Triple} {mode : Mode} :
    (grantModes held authorization).granted mode = true ↔
      held.granted mode = true ∨
        ∃ triple ∈ authorization, grantedMode triple = some mode := by
  refine holds_foldl_iff (fun held => held.granted mode = true)
    (fun triple => grantedMode triple = some mode)
    (fun result triple => ?_) authorization held
  cases isGranted : grantedMode triple with
  | none =>
      simp
  | some other =>
      rw [Option.some.injEq]
      exact granted_grant result other mode

/-- The loop of `decide`, over the groups in the order they are visited. -/
def decideOver
    (groups : List (NamedOrBlankNode × List Triple)) (agent : Agent)
    (governedIri : Text) (inherited : Bool) : AccessModes :=
  groups.foldl
    (fun granted (_, authorization) =>
      if hasObject authorization (scopeIri inherited) governedIri &&
          matchesAgent authorization agent then
        grantModes granted authorization
      else
        granted)
    .none

theorem granted_decideOver_iff
    {groups : List (NamedOrBlankNode × List Triple)} {agent : Agent}
    {governedIri : Text} {inherited : Bool} {mode : Mode} :
    (decideOver groups agent governedIri inherited).granted mode = true ↔
      ∃ group ∈ groups,
        hasObject group.2 (scopeIri inherited) governedIri = true ∧
          matchesAgent group.2 agent = true ∧
          ∃ triple ∈ group.2, grantedMode triple = some mode := by
  have empty : AccessModes.none.granted mode = false := by
    cases mode <;> rfl
  refine Iff.trans (holds_foldl_iff
    (fun held : AccessModes => held.granted mode = true)
    (fun group : NamedOrBlankNode × List Triple =>
      hasObject group.2 (scopeIri inherited) governedIri = true ∧
        matchesAgent group.2 agent = true ∧
        ∃ triple ∈ group.2, grantedMode triple = some mode)
    (fun result group => ?_) groups AccessModes.none) (by simp [empty])
  obtain ⟨subject, authorization⟩ := group
  dsimp only
  split
  · next applies =>
      rw [Bool.and_eq_true] at applies
      rw [granted_grantModes_iff]
      simp [applies]
  · next skipped =>
      rw [Bool.and_eq_true] at skipped
      constructor
      · exact Or.inl
      · rintro (held | ⟨inScope, matching, _⟩)
        · exact held
        · exact (skipped ⟨inScope, matching⟩).elim

/-- Whatever the order of the groups, a mode is granted if it is declared. -/
theorem granted_of_perm_iff
    {acl : List Triple} {groups : List (NamedOrBlankNode × List Triple)}
    (perm : groups.Perm (bySubject acl)) {agent : Agent}
    {governedIri : Text} {inherited : Bool} {mode : Mode} :
    (decideOver groups agent governedIri inherited).granted mode = true ↔
      ∃ subject, Declares acl agent governedIri inherited mode subject := by
  rw [granted_decideOver_iff]
  constructor
  · rintro ⟨⟨subject, group⟩, member, inScope, matching, hasMode⟩
    obtain ⟨rfl, _⟩ := mem_bySubject_iff.mp (perm.mem_iff.mp member)
    exact ⟨subject, hasObject_triplesAbout_iff.mp inScope,
      matchesAgent_triplesAbout_iff.mp matching,
      exists_grantedMode_iff.mp hasMode⟩
  · rintro ⟨subject, declares⟩
    have hasMode := exists_grantedMode_iff.mpr declares.mode
    refine ⟨(subject, triplesAbout acl subject), ?_,
      hasObject_triplesAbout_iff.mpr declares.scope,
      matchesAgent_triplesAbout_iff.mpr declares.agent, hasMode⟩
    obtain ⟨triple, member, _⟩ := hasMode
    exact perm.mem_iff.mpr
      (mem_bySubject_iff.mpr ⟨rfl, List.ne_nil_of_mem member⟩)

omit [IriSyntax] in
theorem AccessModes.eq_of_granted {first second : AccessModes}
    (same : ∀ mode, first.granted mode = second.granted mode) :
    first = second := by
  obtain ⟨firstRead, firstWrite, firstAppend, firstControl⟩ := first
  obtain ⟨secondRead, secondWrite, secondAppend, secondControl⟩ := second
  have sameRead : firstRead = secondRead := same .read
  have sameWrite : firstWrite = secondWrite := same .write
  have sameAppend : firstAppend = secondAppend := same .append
  have sameControl : firstControl = secondControl := same .control
  rw [sameRead, sameWrite, sameAppend, sameControl]

theorem granted_decideModes_iff
    {acl : List Triple} {agent : Agent} {governedIri : Text}
    {inherited : Bool} {mode : Mode} :
    (decideModes acl agent governedIri inherited).granted mode = true ↔
      ∃ subject, Declares acl agent governedIri inherited mode subject :=
  granted_of_perm_iff (List.Perm.refl (bySubject acl))

omit [IriSyntax] in
/-- Decisions that grant the same modes are the same. -/
theorem decide_congr
    {held other : AccessModes}
    (same : ∀ mode, held.granted mode = true ↔ other.granted mode = true) :
    held = other :=
  AccessModes.eq_of_granted fun mode => Bool.eq_iff_iff.mpr (same mode)

theorem States.of_about {acl : List Triple} {subject : NamedOrBlankNode}
    {predicate object : Text}
    (states : States acl subject predicate object) :
    States (triplesAbout acl subject) subject predicate object := by
  obtain ⟨triple, member, isSubject, stated⟩ := states
  exact ⟨triple, List.mem_filter.mpr ⟨member, by simpa using isSubject⟩,
    isSubject, stated⟩

/-- What a subject declares, its own triples declare. -/
theorem Declares.of_about {acl : List Triple} {agent : Agent}
    {governedIri : Text} {inherited : Bool} {mode : Mode}
    {subject : NamedOrBlankNode}
    (declares : Declares acl agent governedIri inherited mode subject) :
    Declares (triplesAbout acl subject) agent governedIri inherited mode
      subject := by
  refine ⟨declares.scope.of_about, ?_, declares.mode.of_about⟩
  rcases declares.agent with everyone | ⟨webId, isWebId, anyone | named⟩
  · exact Or.inl everyone.of_about
  · exact Or.inr ⟨webId, isWebId, Or.inl anyone.of_about⟩
  · exact Or.inr ⟨webId, isWebId, Or.inr named.of_about⟩

/-- Documents with the same triples decide alike. -/
theorem decideModes_congr {acl other : List Triple}
    (same : ∀ triple, triple ∈ other ↔ triple ∈ acl) (agent : Agent)
    (governedIri : Text) (inherited : Bool) :
    decideModes other agent governedIri inherited =
      decideModes acl agent governedIri inherited := by
  refine decide_congr fun mode => ?_
  rw [granted_decideModes_iff, granted_decideModes_iff]
  refine exists_congr fun subject => ⟨?_, ?_⟩
  · exact Declares.mono fun triple => (same triple).mp
  · exact Declares.mono fun triple => (same triple).mpr

/--
`decide` grants what the document declares, whatever the order its groups are
visited in.  So the order and repetition of triples do not matter, more triples
grant no less, and what is granted the triples of one subject grant alone.
-/
theorem decide_eq_declared
    (acl : List Triple) (agent : Agent) (governedIri : Text)
    (inherited : Bool) :
    (∀ mode,
        (decideModes acl agent governedIri inherited).granted mode = true ↔
          ∃ subject,
            Declares acl agent governedIri inherited mode subject) ∧
      (∀ groups : List (NamedOrBlankNode × List Triple),
        groups.Perm (bySubject acl) →
          decideOver groups agent governedIri inherited =
            decideModes acl agent governedIri inherited) ∧
      (∀ other : List Triple,
        (∀ triple, triple ∈ other ↔ triple ∈ acl) →
          decideModes other agent governedIri inherited =
            decideModes acl agent governedIri inherited) ∧
      (∀ larger : List Triple, acl ⊆ larger →
        ∀ mode,
          (decideModes acl agent governedIri inherited).granted mode = true →
            (decideModes larger agent governedIri inherited).granted mode =
              true) ∧
      (∀ mode,
        (decideModes acl agent governedIri inherited).granted mode = true →
          ∃ subject,
            (decideModes (triplesAbout acl subject) agent governedIri
              inherited).granted mode = true) := by
  refine ⟨fun mode => granted_decideModes_iff, fun groups perm => ?_,
    fun other same => decideModes_congr same agent governedIri inherited,
    fun larger contained mode granted => ?_, fun mode granted => ?_⟩
  · refine decide_congr fun mode => ?_
    rw [granted_of_perm_iff perm, granted_decideModes_iff]
  · obtain ⟨subject, declares⟩ := granted_decideModes_iff.mp granted
    exact granted_decideModes_iff.mpr ⟨subject, declares.mono contained⟩
  · obtain ⟨subject, declares⟩ := granted_decideModes_iff.mp granted
    exact ⟨subject,
      granted_decideModes_iff.mpr ⟨subject, declares.of_about⟩⟩

/-! ## Whether anything is granted -/

theorem namesSomeone_triplesAbout_iff {acl : List Triple}
    {subject : NamedOrBlankNode} :
    namesSomeone (triplesAbout acl subject) = true ↔
      ∃ agent, Covers acl subject agent := by
  unfold namesSomeone
  rw [Bool.or_eq_true, Bool.or_eq_true, hasObject_triplesAbout_iff,
    hasObject_triplesAbout_iff, List.any_eq_true]
  constructor
  · rintro ((everyone | anyone) | ⟨triple, member, asked⟩)
    · exact ⟨.anonymous, Or.inl everyone⟩
    · exact ⟨.webId [], Or.inr ⟨[], rfl, Or.inl anyone⟩⟩
    · obtain ⟨inAcl, isSubject⟩ := List.mem_filter.mp member
      rw [Bool.and_eq_true, beq_iff_eq] at asked
      obtain ⟨isPredicate, isNamed⟩ := asked
      split at isNamed
      · next node isNode =>
          exact ⟨.webId node.iri, Or.inr ⟨node.iri, rfl, Or.inr
            ⟨triple, inAcl, of_decide_eq_true isSubject, isPredicate, node,
              isNode, rfl⟩⟩⟩
      · cases isNamed
  · rintro ⟨agent, everyone | ⟨webId, _, anyone | named⟩⟩
    · exact Or.inl (Or.inl everyone)
    · exact Or.inl (Or.inr anyone)
    · obtain ⟨triple, inAcl, isSubject, isPredicate, node, isNode, _⟩ := named
      refine Or.inr ⟨triple,
        List.mem_filter.mpr ⟨inAcl, by simpa using isSubject⟩, ?_⟩
      simp [isPredicate, isNode]

theorem hasRecognizedMode_triplesAbout_iff {acl : List Triple}
    {subject : NamedOrBlankNode} :
    hasRecognizedMode (triplesAbout acl subject) = true ↔
      ∃ mode : Mode, States acl subject aclModeIri mode.iri := by
  unfold hasRecognizedMode
  simp only [List.any_eq_true, Option.isSome_iff_exists,
    ← exists_grantedMode_iff]
  constructor
  · rintro ⟨triple, member, mode, isGranted⟩
    exact ⟨mode, triple, member, isGranted⟩
  · rintro ⟨mode, triple, member, isGranted⟩
    exact ⟨triple, member, mode, isGranted⟩

/-- `grants_anything` asks whether anything is declared, in either scope. -/
theorem grantsAnything_iff_declares {acl : List Triple} {governedIri : Text} :
    grantsAnything acl governedIri = true ↔
      ∃ agent inherited mode subject,
        Declares acl agent governedIri inherited mode subject := by
  unfold grantsAnything
  rw [List.any_eq_true]
  constructor
  · rintro ⟨⟨subject, group⟩, member, asked⟩
    obtain ⟨rfl, _⟩ := mem_bySubject_iff.mp member
    simp only [Bool.and_eq_true, Bool.or_eq_true, hasObject_triplesAbout_iff,
      namesSomeone_triplesAbout_iff, hasRecognizedMode_triplesAbout_iff]
      at asked
    obtain ⟨⟨inScope, agent, covers⟩, mode, hasMode⟩ := asked
    rcases inScope with direct | inherited
    · exact ⟨agent, false, mode, subject, direct, covers, hasMode⟩
    · exact ⟨agent, true, mode, subject, inherited, covers, hasMode⟩
  · rintro ⟨agent, inherited, mode, subject, inScope, covers, hasMode⟩
    refine ⟨(subject, triplesAbout acl subject), ?_, ?_⟩
    · obtain ⟨triple, member, _⟩ := exists_grantedMode_iff.mpr hasMode
      exact mem_bySubject_iff.mpr ⟨rfl, List.ne_nil_of_mem member⟩
    · simp only [Bool.and_eq_true, Bool.or_eq_true,
        hasObject_triplesAbout_iff, namesSomeone_triplesAbout_iff,
        hasRecognizedMode_triplesAbout_iff]
      refine ⟨⟨?_, agent, covers⟩, mode, hasMode⟩
      cases inherited with
      | false =>
          exact Or.inl inScope
      | true =>
          exact Or.inr inScope

/-- `grants_anything` is `decide`, for some agent and either scope. -/
theorem grantsAnything_iff_exists_decide
    (acl : List Triple) (governedIri : Text) :
    grantsAnything acl governedIri = true ↔
      ∃ agent inherited mode,
        (decideModes acl agent governedIri inherited).granted mode = true := by
  rw [grantsAnything_iff_declares]
  simp only [granted_decideModes_iff]

end Quadpod
