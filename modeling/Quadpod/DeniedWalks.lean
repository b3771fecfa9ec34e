import Quadpod.AtomicProgramFailures
import Quadpod.DeclaredAccess
import Quadpod.GuardWalk
import Quadpod.ReadPrograms

namespace Quadpod

open AtomicProgram

/-!
# Denied walks

`materialize` decides about every level of its walk before it writes, and only
then tells of anything else that exists.  A refusal therefore comes from the
probe's queries alone, and one for want of authorization depends on the ACLs of
the chain and on which ancestors exist, and on nothing else in the store.
-/

section

variable [IriSyntax] {space : StorageSpace}

/-- A probe and the `materialize` of the guard it resolves. -/
def probeAndMaterialize (agent : Agent) (target : Target space) :
    StoreProgram Denial (Materialized space) := do
  let guard ← Guard.probe agent target
  guard.materialize

/-- A denial that is not a failure of the store. -/
def Denial.IsRefusal (denial : Denial) : Prop :=
  ∀ error, denial ≠ .store error

/-- A denial for want of authorization. -/
def Denial.IsUnauthorized (denial : Denial) : Prop :=
  denial = .unauthenticated ∨ denial = .forbidden

omit [IriSyntax] in
theorem Denial.IsUnauthorized.isRefusal {denial : Denial}
    (unauthorized : denial.IsUnauthorized) : denial.IsRefusal := by
  rintro error rfl
  rcases unauthorized with impossible | impossible
  · cases impossible
  · cases impossible

/-! ## A refusal comes before the first write -/

/-- What fails in performing a plan is the store. -/
theorem failsWith_performPlan
    (plan : List (ContainerUrl space × Option NamedNode)) :
    (performPlan plan).FailsWith fun denial => ¬ denial.IsRefusal := by
  have ofStore {α : Type} (program : ResourceProgram α) :
      (Program.mapError Denial.store program).FailsWith
        fun denial => ¬ denial.IsRefusal :=
    Program.failsWith_mapError (fun error refusal => refusal error rfl) program
  induction plan with
  | nil =>
      exact Program.failsWith_done _
  | cons step rest inductionHypothesis =>
      obtain ⟨ancestor, child⟩ := step
      unfold performPlan
      refine Program.FailsWith.bind (ofStore _) fun _ => ?_
      cases child with
      | none =>
          exact inductionHypothesis
      | some child =>
          refine Program.FailsWith.bind (ofStore _) fun _ => ?_
          exact Program.FailsWith.bind inductionHypothesis fun _ =>
            Program.failsWith_done _

/-- A guard that refuses issues nothing. -/
theorem Guard.materialize_of_refused {guard : Guard space} {denial : Denial}
    (refused : guard.authorizeWalk = .error denial) :
    guard.materialize = .fail denial := by
  unfold materialize
  rw [refused]
  rfl

/-- A refusal was decided by the walk. -/
theorem Guard.refused_of_materialize
    {guard : Guard space} {denial : Denial} (refusal : denial.IsRefusal)
    {faults : List (Option Text)} {world : World}
    (ends :
      (Program.run backend guard.materialize faults world).result =
        .error denial) :
    guard.authorizeWalk = .error denial := by
  cases walked : guard.authorizeWalk with
  | error other =>
      rw [materialize_of_refused walked] at ends
      cases ends
      rfl
  | ok walk =>
      have fails :
          guard.materialize.FailsWith fun denial => ¬ denial.IsRefusal := by
        unfold materialize
        rw [walked]
        change (performPlan walk.plan >>= fun linked =>
          (pure ⟨walk.creations, linked⟩ :
            StoreProgram Denial (Materialized space))).FailsWith _
        exact Program.FailsWith.bind (failsWith_performPlan walk.plan)
          fun _ => Program.failsWith_done _
      exact (fails.run ends refusal).elim

/-- A run that ends in a refusal issues queries only. -/
theorem issued_of_refusal
    {agent : Agent} {target : Target space} {denial : Denial}
    (refusal : denial.IsRefusal)
    {faults : List (Option Text)} {world : World}
    (ends :
      (Program.run backend (probeAndMaterialize agent target) faults
        world).result = .error denial) :
    ∀ call ∈ Program.issued backend (probeAndMaterialize agent target) faults
        world,
      call.Reads := by
  have probing :
      ∀ call ∈ Program.issued backend (Guard.probe agent target) faults world,
        call.Reads :=
    Program.Uses.issued (readsOnly_probe agent target) faults world
  unfold probeAndMaterialize at ends ⊢
  rw [Program.run_bind] at ends
  rw [Program.issued_bind]
  cases probed :
      Program.run backend (Guard.probe agent target) faults world with
  | mk result middle rest =>
      rw [probed] at ends
      cases result with
      | error other =>
          simpa using probing
      | ok guard =>
          have refused := Guard.refused_of_materialize refusal ends
          dsimp only
          rw [Guard.materialize_of_refused refused]
          simpa [Program.issued] using probing

/-! ## What a denial depends on -/

/-- Two worlds with the same ACLs along a chain and the same ancestors. -/
structure World.SameChain
    (first second : World) (target : Target space) : Prop where
  aclPresent :
    ∀ element ∈ target.subject.chain,
      first.present element.acl.node = second.present element.acl.node
  aclTriples :
    ∀ element ∈ target.subject.chain,
      first.present element.acl.node = true →
        ∀ triple,
          triple ∈ first.triplesOf element.acl.iri ↔
            triple ∈ second.triplesOf element.acl.iri
  ancestors :
    ∀ ancestor ∈ target.subject.ancestors,
      first.present ancestor.node = second.present ancestor.node
  itself :
    target.isAux = false →
      first.present target.node = second.present target.node

theorem judge_congr {acl other : List Triple}
    (same : ∀ triple, triple ∈ acl ↔ triple ∈ other) (agent : Agent)
    (governedIri : Text) (inherited : Bool) (required : Mode) :
    judge acl agent governedIri inherited required =
      judge other agent governedIri inherited required := by
  unfold judge
  rw [decideModes_congr same agent, decideModes_congr same .anonymous]

section Agreement

variable {first second : World} {target : Target space}

theorem World.SameChain.nearestDecision
    (agree : first.SameChain second target) (agent : Agent) (required : Mode)
    {elements : List (ResourceUrl space)}
    (inChain : ∀ element ∈ elements, element ∈ target.subject.chain)
    (inherited : Bool) :
    first.nearestDecision agent required inherited elements =
      second.nearestDecision agent required inherited elements := by
  induction elements generalizing inherited with
  | nil =>
      rfl
  | cons element above inductionHypothesis =>
      have member := inChain element List.mem_cons_self
      unfold World.nearestDecision
      rw [← agree.aclPresent element member]
      split
      · next isPresent =>
          exact judge_congr (agree.aclTriples element member isPresent) agent
            element.iri inherited required
      · exact inductionHypothesis
          (fun other isOther =>
            inChain other (List.mem_cons_of_mem element isOther)) true

theorem World.SameChain.decideFrom
    (agree : first.SameChain second target) (agent : Agent)
    (start : Nat) (required : Mode) :
    (first.guard agent target).decideFrom start required =
      (second.guard agent target).decideFrom start required := by
  rw [World.guard_decideFrom, World.guard_decideFrom]
  exact agree.nearestDecision agent required
    (fun element member => List.mem_of_mem_drop member) false

theorem World.SameChain.isMember
    (agree : first.SameChain second target) (agent : Agent) :
    (first.guard agent target).isMember =
      (second.guard agent target).isMember := by
  rw [World.guard_isMember, World.guard_isMember]
  cases isAux : target.isAux with
  | true =>
      rfl
  | false =>
      rw [agree.itself isAux]

/-- Guards that decide alike and see the same ancestors walk alike. -/
theorem Guard.walk_congr {guard other : Guard space}
    (decides :
      ∀ start, guard.decideFrom start .append = other.decideFrom start .append)
    {ancestors : List (ContainerUrl space)}
    (sees :
      ∀ ancestor ∈ ancestors,
        guard.present.contains (graphIri ancestor) =
          other.present.contains (graphIri ancestor))
    (index : Nat) (child : NamedNode) (record : Bool) :
    guard.walk ancestors index child record =
      other.walk ancestors index child record := by
  induction ancestors generalizing index child record with
  | nil =>
      rfl
  | cons ancestor rest inductionHypothesis =>
      have above :=
        inductionHypothesis
          (fun higher member =>
            sees higher (List.mem_cons_of_mem ancestor member))
          (index + 1) ancestor.node true
      unfold Guard.walk
      rw [sees ancestor List.mem_cons_self, decides (index + 1), above]

theorem ancestor_mem_chain {url : ResourceUrl space}
    {ancestor : ContainerUrl space} (member : ancestor ∈ url.ancestors) :
    ancestor.resource ∈ url.chain :=
  List.mem_cons_of_mem url (List.mem_map_of_mem member)

theorem World.guard_sees_ancestor (world : World) (agent : Agent)
    {ancestor : ContainerUrl space}
    (member : ancestor ∈ target.subject.ancestors) :
    (world.guard agent target).present.contains (graphIri ancestor) =
      world.present ancestor.node :=
  world.guard_present agent target
    (World.node_mem_candidates target (ancestor_mem_chain member))

theorem World.SameChain.walk
    (agree : first.SameChain second target) (agent : Agent)
    (index : Nat) (child : NamedNode) (record : Bool) :
    (first.guard agent target).walk target.subject.ancestors index child
        record =
      (second.guard agent target).walk target.subject.ancestors index child
        record := by
  refine Guard.walk_congr (fun start => agree.decideFrom agent start .append)
    (fun ancestor member => ?_) index child record
  rw [World.guard_sees_ancestor first agent member,
    World.guard_sees_ancestor second agent member]
  exact agree.ancestors ancestor member

/-- The refusals after the walk are of another kind. -/
theorem Guard.authorizeWalk_eq_unauthorized
    {guard : Guard space} {denial : Denial}
    (unauthorized : denial.IsUnauthorized) :
    guard.authorizeWalk = .error denial ↔
      guard.walk guard.target.subject.ancestors 0 guard.target.node
        guard.isMember = .error denial := by
  unfold authorizeWalk
  dsimp only
  cases walked :
      guard.walk guard.target.subject.ancestors 0 guard.target.node
        guard.isMember with
  | error other =>
      exact Iff.rfl
  | ok walk =>
      dsimp only [bind, Except.bind]
      have differs :
          denial ≠ .auxSubjectMissing ∧ denial ≠ .slashPair := by
        rcases unauthorized with rfl | rfl
        · decide
        · decide
      constructor
      · intro refused
        split at refused
        · cases refused
          exact (differs.1 rfl).elim
        · generalize (if guard.isMember = true then
              guard.target.subject :: walk.creations
            else
              walk.creations) = creations at refused
          split at refused
          · cases refused
            exact (differs.2 rfl).elim
          · cases refused
      · intro impossible
        cases impossible

theorem eval_probeAndMaterialize_refused
    {world : World} {agent : Agent} {denial : Denial}
    (refusal : denial.IsRefusal) :
    (Program.eval backend (probeAndMaterialize agent target) world).1 =
        .error denial ↔
      (world.guard agent target).authorizeWalk = .error denial := by
  unfold probeAndMaterialize
  rw [Program.eval_bind_ok (eval_probe world agent target)]
  constructor
  · intro ends
    have ran :
        (Program.run backend (world.guard agent target).materialize []
          world).result = .error denial := by
      rw [Program.run_nil]
      exact ends
    exact Guard.refused_of_materialize refusal ran
  · intro refused
    rw [Guard.materialize_of_refused refused]
    rfl

end Agreement

/--
A `materialize` that ends in a refusal has only queried the stores; and one
that is denied for want of authorization is denied alike in every world with
the same ACLs along the chain and the same ancestors.
-/
theorem denied_walk_silent (agent : Agent) (target : Target space) :
    (∀ (denial : Denial) (faults : List (Option Text)) (world : World),
        denial.IsRefusal →
          (Program.run backend (probeAndMaterialize agent target) faults
            world).result = .error denial →
          ∀ call ∈ Program.issued backend (probeAndMaterialize agent target)
              faults world,
            call.Reads) ∧
      ∀ (first second : World), first.SameChain second target →
        ∀ denial : Denial, denial.IsUnauthorized →
          ((Program.eval backend (probeAndMaterialize agent target)
              first).1 = .error denial ↔
            (Program.eval backend (probeAndMaterialize agent target)
              second).1 = .error denial) := by
  refine ⟨fun denial faults world refusal ends =>
    issued_of_refusal refusal ends, ?_⟩
  intro first second agree denial unauthorized
  rw [eval_probeAndMaterialize_refused unauthorized.isRefusal,
    eval_probeAndMaterialize_refused unauthorized.isRefusal,
    Guard.authorizeWalk_eq_unauthorized unauthorized,
    Guard.authorizeWalk_eq_unauthorized unauthorized, agree.isMember agent]
  change (first.guard agent target).walk target.subject.ancestors _ _ _ = _ ↔
    (second.guard agent target).walk target.subject.ancestors _ _ _ = _
  rw [agree.walk agent]
  exact Iff.rfl

end

end Quadpod
