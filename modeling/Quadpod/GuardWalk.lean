import Quadpod.NearestAcl

namespace Quadpod

/-!
# The walk of `materialize`

Which containers a write creates or links, and what was decided about each of
them before the first write.  The walk climbs from the target and stops at the
first container that exists and has nothing new to record.
-/

variable [IriSyntax] {space : StorageSpace}

/-- What a walk that started at `url` decided. -/
structure WalkSpec
    (world : World) (agent : Agent) (url : ResourceUrl space)
    (record : Bool) (walk : Guard.Walk space) : Prop where
  above : ∀ step ∈ walk.plan, step.1 ∈ url.ancestors
  authorized :
    ∀ step ∈ walk.plan,
      ∃ decision,
        world.decision agent step.1.resource .append = .ok decision
  settled :
    ∀ step ∈ walk.plan,
      world.present step.1.node = true ∨ step.1.resource ∈ walk.creations
  created :
    ∀ member ∈ walk.creations,
      (∃ step ∈ walk.plan, step.1.resource = member) ∧
        world.present member.node = false
  linked :
    ∀ container child,
      (container, some child) ∈ walk.plan →
      ∃ member,
        child = member.node ∧ member.parent = some container ∧
          (member = url ∧ record = true ∨ member ∈ walk.creations)
  recorded :
    ∀ member container,
      member = url ∧ record = true ∨ member ∈ walk.creations →
      member.parent = some container →
      (container, some member.node) ∈ walk.plan

/-! ## Chains and positions -/

theorem ResourceUrl.chain_of_parent
    {url : ResourceUrl space} {container : ContainerUrl space}
    (isParent : url.parent = some container) :
    url.chain = url :: container.resource.chain := by
  rw [chain, ancestors_eq, isParent]
  rfl

theorem ResourceUrl.ancestors_of_parent
    {url : ResourceUrl space} {container : ContainerUrl space}
    (isParent : url.parent = some container) :
    url.ancestors = container :: container.resource.ancestors := by
  rw [ancestors_eq, isParent]

/-- The decision about the element a position of the chain starts at. -/
theorem World.guard_decideFrom_chain
    {world : World} {agent : Agent} {target : Target space}
    {url : ResourceUrl space} {index : Nat} {required : Mode}
    (position : target.subject.chain.drop index = url.chain) :
    (world.guard agent target).decideFrom index required =
      world.decision agent url required := by
  rw [world.guard_decideFrom, position]
  rfl

/-! ## The three ways a step of the walk ends -/

namespace WalkSpec

variable {world : World} {agent : Agent} {url : ResourceUrl space}
variable {record : Bool} {container : ContainerUrl space} {child : NamedNode}

/-- The walk stops: nothing is above, or what is above has nothing to record. -/
theorem stopped (nothingAbove : record = true → url.parent = none) :
    WalkSpec world agent url record ⟨[], []⟩ := by
  refine ⟨by simp, by simp, by simp, by simp, by simp, ?_⟩
  rintro member parent (⟨rfl, isRecorded⟩ | inNil) hasParent
  · rw [nothingAbove isRecorded] at hasParent
    cases hasParent
  · cases inNil

/-- What a step records is the element the walk came from. -/
private theorem link_of_step
    (isParent : url.parent = some container)
    (isChild : record = true → child = url.node)
    {other : ContainerUrl space} {linked : NamedNode}
    (isStep :
      (other, some linked) =
        (container, if record = true then some child else none)) :
    linked = url.node ∧ url.parent = some other ∧ record = true := by
  rw [Prod.mk.injEq] at isStep
  obtain ⟨rfl, isLinked⟩ := isStep
  split at isLinked
  · next isRecorded =>
      cases isLinked
      exact ⟨isChild isRecorded, isParent, isRecorded⟩
  · cases isLinked

private theorem step_of_record
    (isChild : record = true → child = url.node)
    (isRecorded : record = true) :
    (container, some url.node) =
      (container, if record = true then some child else none) := by
  rw [if_pos isRecorded, isChild isRecorded]

/-- The walk ends at a container that exists. -/
theorem reached
    {decision : Decision}
    (isParent : url.parent = some container)
    (isChild : record = true → child = url.node)
    (decided :
      world.decision agent container.resource .append = .ok decision)
    (isPresent : world.present container.node = true) :
    WalkSpec world agent url record
      ⟨[], [(container, if record = true then some child else none)]⟩ := by
  refine
    { above := ?_, authorized := ?_, settled := ?_, created := by simp,
      linked := ?_, recorded := ?_ }
  · intro step isStep
    obtain rfl := List.mem_singleton.mp isStep
    simp [ResourceUrl.ancestors_of_parent isParent]
  · intro step isStep
    obtain rfl := List.mem_singleton.mp isStep
    exact ⟨decision, decided⟩
  · intro step isStep
    obtain rfl := List.mem_singleton.mp isStep
    exact Or.inl isPresent
  · intro other linked isStep
    obtain ⟨isLinked, hasParent, isRecorded⟩ :=
      link_of_step isParent isChild (List.mem_singleton.mp isStep)
    exact ⟨url, isLinked, hasParent, Or.inl ⟨rfl, isRecorded⟩⟩
  · rintro member parent (⟨rfl, isRecorded⟩ | inNil) hasParent
    · rw [isParent, Option.some.injEq] at hasParent
      subst hasParent
      exact List.mem_singleton.mpr (step_of_record isChild isRecorded)
    · cases inNil

/-- The walk creates a container and goes on above it. -/
theorem climbed
    {decision : Decision} {rest : Guard.Walk space}
    (isParent : url.parent = some container)
    (isChild : record = true → child = url.node)
    (decided :
      world.decision agent container.resource .append = .ok decision)
    (isAbsent : world.present container.node = false)
    (higher : WalkSpec world agent container.resource true rest) :
    WalkSpec world agent url record
      ⟨container.resource :: rest.creations,
        (container, if record = true then some child else none) ::
          rest.plan⟩ := by
  have isAbove := ResourceUrl.ancestors_of_parent isParent
  refine
    { above := ?_, authorized := ?_, settled := ?_, created := ?_,
      linked := ?_, recorded := ?_ }
  · intro step isStep
    rcases List.mem_cons.mp isStep with rfl | inRest
    · simp [isAbove]
    · simp [isAbove, higher.above step inRest]
  · intro step isStep
    rcases List.mem_cons.mp isStep with rfl | inRest
    · exact ⟨decision, decided⟩
    · exact higher.authorized step inRest
  · intro step isStep
    rcases List.mem_cons.mp isStep with rfl | inRest
    · exact Or.inr List.mem_cons_self
    · rcases higher.settled step inRest with isPresent | isCreated
      · exact Or.inl isPresent
      · exact Or.inr (List.mem_cons_of_mem _ isCreated)
  · intro member isCreated
    rcases List.mem_cons.mp isCreated with rfl | inRest
    · exact ⟨⟨_, List.mem_cons_self, rfl⟩, isAbsent⟩
    · obtain ⟨⟨step, inPlan, same⟩, absent⟩ := higher.created member inRest
      exact ⟨⟨step, List.mem_cons_of_mem _ inPlan, same⟩, absent⟩
  · intro other linked isStep
    rcases List.mem_cons.mp isStep with isFirst | inRest
    · obtain ⟨isLinked, hasParent, isRecorded⟩ :=
        link_of_step isParent isChild isFirst
      exact ⟨url, isLinked, hasParent, Or.inl ⟨rfl, isRecorded⟩⟩
    · obtain ⟨member, isLinked, hasParent, isMember⟩ :=
        higher.linked other linked inRest
      refine ⟨member, isLinked, hasParent, Or.inr ?_⟩
      rcases isMember with ⟨rfl, _⟩ | isCreated
      · exact List.mem_cons_self
      · exact List.mem_cons_of_mem _ isCreated
  · rintro member parent (⟨rfl, isRecorded⟩ | inCons) hasParent
    · rw [isParent, Option.some.injEq] at hasParent
      subst hasParent
      rw [step_of_record isChild isRecorded]
      exact List.mem_cons_self
    · refine List.mem_cons_of_mem _
        (higher.recorded member parent ?_ hasParent)
      rcases List.mem_cons.mp inCons with rfl | isCreated
      · exact Or.inl ⟨rfl, rfl⟩
      · exact Or.inr isCreated

end WalkSpec

/-- A walk that was not denied decided about everything it plans. -/
theorem World.walk_spec
    {world : World} {agent : Agent} {target : Target space}
    (url : ResourceUrl space) {index : Nat} {child : NamedNode}
    {record : Bool} {walk : Guard.Walk space}
    (position : target.subject.chain.drop index = url.chain)
    (isChild : record = true → child = url.node)
    (walked :
      (world.guard agent target).walk url.ancestors index child record =
        .ok walk) :
    WalkSpec world agent url record walk := by
  induction size : url.path.length using Nat.strong_induction_on
    generalizing url index child record walk with
  | _ size inductionHypothesis =>
      cases isParent : url.parent with
      | none =>
          rw [ResourceUrl.ancestors_eq, isParent] at walked
          cases walked
          exact .stopped fun _ => isParent
      | some container =>
          have higher :
              target.subject.chain.drop (index + 1) =
                container.resource.chain := by
            rw [← List.drop_drop, position,
              ResourceUrl.chain_of_parent isParent]
            rfl
          have inChain : container.resource ∈ target.subject.chain := by
            refine List.mem_of_mem_drop (i := index + 1) ?_
            rw [higher]
            exact List.mem_cons_self
          have existed :
              (world.guard agent target).present.contains
                  (graphIri container) =
                world.present container.node :=
            world.guard_present agent target
              (World.node_mem_candidates target inChain)
          rw [ResourceUrl.ancestors_of_parent isParent, Guard.walk,
            existed] at walked
          dsimp only at walked
          split at walked
          · next skipped =>
              cases walked
              simp only [Bool.and_eq_true, Bool.not_eq_true'] at skipped
              refine .stopped fun isRecorded => ?_
              rw [skipped.2] at isRecorded
              cases isRecorded
          · rw [World.guard_decideFrom_chain higher] at walked
            cases decided :
                world.decision agent container.resource .append with
            | error denial =>
                rw [decided] at walked
                cases walked
            | ok decision =>
                rw [decided] at walked
                dsimp only [bind, Except.bind] at walked
                split at walked
                · next isPresent =>
                    cases walked
                    exact .reached isParent isChild decided isPresent
                · next isAbsent =>
                    cases recursion :
                        (world.guard agent target).walk
                          container.resource.ancestors (index + 1)
                          container.node true with
                    | error denial =>
                        rw [recursion] at walked
                        cases walked
                    | ok rest =>
                        rw [recursion] at walked
                        cases walked
                        have shorter := ResourceUrl.length_parent isParent
                        exact .climbed isParent isChild decided
                          (Bool.eq_false_iff.mpr isAbsent)
                          (inductionHypothesis
                            container.resource.path.length (by omega)
                            container.resource higher (fun _ => rfl)
                            recursion rfl)

/-! ## Everything `materialize` decided -/

/-- What was decided about a target before its first write. -/
structure Materializes
    (world : World) (agent : Agent) (target : Target space)
    (walk : Guard.Walk space) : Prop where
  above : ∀ step ∈ walk.plan, step.1 ∈ target.subject.ancestors
  authorized :
    ∀ step ∈ walk.plan,
      ∃ decision,
        world.decision agent step.1.resource .append = .ok decision
  settled :
    ∀ step ∈ walk.plan,
      world.present step.1.node = true ∨ step.1.resource ∈ walk.creations
  created :
    ∀ member ∈ walk.creations,
      member ∈ target.subject.chain ∧ world.present member.node = false
  planned :
    ∀ member ∈ walk.creations,
      (member = target.subject ∧ target.isAux = false) ∨
        ∃ step ∈ walk.plan, step.1.resource = member
  unpaired :
    ∀ member ∈ walk.creations,
      ∀ counterpart,
        member.slashCounterpart = some counterpart →
        world.present counterpart.node = false
  linked :
    ∀ container child,
      (container, some child) ∈ walk.plan →
      ∃ member ∈ walk.creations,
        child = member.node ∧ member.parent = some container
  recorded :
    ∀ member ∈ walk.creations,
      ∀ container,
        member.parent = some container →
        (container, some member.node) ∈ walk.plan
  targetSettled :
    target.isAux = false →
    world.present target.node = true ∨ target.subject ∈ walk.creations
  subjectPresent :
    target.isAux = true → world.present target.subject.node = true

theorem Target.node_eq_subject
    {target : Target space} (notAux : target.isAux = false) :
    target.node = target.subject.node := by
  cases target with
  | resource url leaf =>
      rfl
  | container url =>
      rfl
  | aux url =>
      cases notAux

theorem World.guard_isMember
    (world : World) (agent : Agent) (target : Target space) :
    (world.guard agent target).isMember =
      (!target.isAux && !world.present target.node) := by
  rw [← world.guard_targetExists agent]
  rfl

theorem World.guard_counterpartPresent
    {world : World} {agent : Agent} {target : Target space}
    {url counterpart : ResourceUrl space}
    (inChain : url ∈ target.subject.chain)
    (pair : url.slashCounterpart = some counterpart) :
    (world.guard agent target).counterpartPresent url =
      world.present counterpart.node := by
  rw [Guard.counterpartPresent, pair, Option.any_some]
  exact world.guard_present agent target
    (World.counterpart_mem_candidates target inChain pair)

/-- The walk and the two refusals of `materialize`. -/
theorem Guard.authorizeWalk_eq_ok
    {guard : Guard space} {walk : Guard.Walk space}
    (walked : guard.authorizeWalk = .ok walk) :
    ∃ rest : Guard.Walk space,
      guard.walk guard.target.subject.ancestors 0 guard.target.node
          guard.isMember = .ok rest ∧
        walk.plan = rest.plan ∧
        walk.creations =
          (if guard.isMember then
            guard.target.subject :: rest.creations
          else
            rest.creations) ∧
        (guard.target.isAux = true →
          guard.present.contains (graphIri guard.target.subject) = true) ∧
        walk.creations.any guard.counterpartPresent = false := by
  unfold authorizeWalk at walked
  dsimp only at walked
  cases climbed :
      guard.walk guard.target.subject.ancestors 0 guard.target.node
        guard.isMember with
  | error denial =>
      rw [climbed] at walked
      cases walked
  | ok rest =>
      rw [climbed] at walked
      dsimp only [bind, Except.bind] at walked
      split at walked
      · cases walked
      · next subjectKnown =>
          generalize isCreations :
              (if guard.isMember = true then
                guard.target.subject :: rest.creations
              else
                rest.creations) = creations at walked
          split at walked
          · cases walked
          · next unpaired =>
              cases walked
              refine ⟨rest, rfl, rfl, isCreations.symm, ?_,
                Bool.eq_false_iff.mpr unpaired⟩
              intro isAux
              rw [isAux, Bool.true_and, Bool.not_eq_true',
                Bool.not_eq_false] at subjectKnown
              exact subjectKnown

/-- A `materialize` that was not denied decided about all it does. -/
theorem World.materializes
    {world : World} {agent : Agent} {target : Target space}
    {walk : Guard.Walk space}
    (walked : (world.guard agent target).authorizeWalk = .ok walk) :
    Materializes world agent target walk := by
  obtain ⟨rest, climbed, samePlan, creations, subjectKnown, unpaired⟩ :=
    Guard.authorizeWalk_eq_ok walked
  rw [world.guard_isMember] at climbed creations
  have isUrl :
      (!target.isAux && !world.present target.node) = true →
      target.node = target.subject.node := by
    intro isMember
    simp only [Bool.and_eq_true, Bool.not_eq_true'] at isMember
    exact Target.node_eq_subject isMember.1
  have spec : WalkSpec world agent target.subject
      (!target.isAux && !world.present target.node) rest :=
    World.walk_spec target.subject (List.drop_zero) isUrl climbed
  have isCreation :
      ∀ member,
        member ∈ walk.creations ↔
          (member = target.subject ∧
            (!target.isAux && !world.present target.node) = true) ∨
          member ∈ rest.creations := by
    intro member
    rw [creations]
    split
    · next isMember =>
        rw [List.mem_cons]
        simp only [isMember, and_true]
        exact Iff.rfl
    · next notMember =>
        simp [notMember]
  have inChain :
      ∀ member ∈ walk.creations,
        member ∈ target.subject.chain ∧
          world.present member.node = false := by
    intro member isCreated
    rcases (isCreation member).mp isCreated with ⟨rfl, isMember⟩ | inRest
    · refine ⟨List.mem_cons_self, ?_⟩
      rw [← isUrl isMember]
      simp only [Bool.and_eq_true, Bool.not_eq_true'] at isMember
      exact isMember.2
    · obtain ⟨⟨step, inPlan, rfl⟩, absent⟩ := spec.created member inRest
      exact ⟨List.mem_cons_of_mem _ (List.mem_map_of_mem
        (spec.above step inPlan)), absent⟩
  refine
    { above := ?_, authorized := ?_, settled := ?_, created := inChain,
      planned := ?_, unpaired := ?_, linked := ?_, recorded := ?_, targetSettled := ?_,
      subjectPresent := ?_ }
  · rw [samePlan]
    exact spec.above
  · rw [samePlan]
    exact spec.authorized
  · intro step isStep
    rw [samePlan] at isStep
    rcases spec.settled step isStep with isPresent | isCreated
    · exact Or.inl isPresent
    · exact Or.inr ((isCreation _).mpr (Or.inr isCreated))
  · intro member isCreated
    rw [samePlan]
    rcases (isCreation member).mp isCreated with ⟨rfl, isMember⟩ | inRest
    · simp only [Bool.and_eq_true, Bool.not_eq_true'] at isMember
      exact Or.inl ⟨rfl, isMember.1⟩
    · exact Or.inr (spec.created member inRest).1
  · intro member isCreated counterpart pair
    rw [← World.guard_counterpartPresent (inChain member isCreated).1 pair]
    rw [List.any_eq_false] at unpaired
    exact Bool.eq_false_iff.mpr (unpaired member isCreated)
  · intro container child isStep
    rw [samePlan] at isStep
    obtain ⟨member, isChild, isParent, isMember⟩ :=
      spec.linked container child isStep
    exact ⟨member, (isCreation member).mpr isMember, isChild, isParent⟩
  · intro member isCreated container isParent
    rw [samePlan]
    exact spec.recorded member container ((isCreation member).mp isCreated)
      isParent
  · intro notAux
    by_cases isPresent : world.present target.node = true
    · exact Or.inl isPresent
    · refine Or.inr ((isCreation _).mpr (Or.inl ⟨rfl, ?_⟩))
      simp [notAux, isPresent]
  · intro isAux
    have known := subjectKnown isAux
    exact world.present_of_guard agent target known

end Quadpod
