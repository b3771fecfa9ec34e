import Quadpod.HttpReply
import Quadpod.ResolvedPaths

namespace Quadpod

/-!
# The URL of a posted child

`post_impl` builds a path out of its container's path and a name, and resolves
it like any other.  The name has no slash in it, so what it resolves to is never
an auxiliary and always a direct member of the container.
-/

variable [IriSyntax] {space : StorageSpace}

/-! ## What resolving gives -/

theorem ResourceUrl.subject_toTarget (url : ResourceUrl space) :
    url.toTarget.subject = url := by
  unfold toTarget
  split
  · rfl
  · rfl

theorem ResourceUrl.toTarget_ne_aux
    (url : ResourceUrl space) (aux : AuxUrl space) :
    url.toTarget ≠ .aux aux := by
  unfold toTarget
  split <;> exact fun same => by cases same

theorem ResourceUrl.node_toTarget (url : ResourceUrl space) :
    url.toTarget.node = url.node := by
  unfold toTarget
  split
  · rfl
  · rfl

theorem classify_eq_ok
    {path : Text} {target : Target space}
    (classified : classify space path = .ok target) :
    space.resolve path = .ok target := by
  unfold classify at classified
  cases resolved : space.resolve path with
  | ok value =>
      rw [resolved] at classified
      cases classified
      rfl
  | error error =>
      rw [resolved] at classified
      cases classified

/-! ## Names of children -/

theorem ContainerUrl.exists_segments
    (container : ContainerUrl space) :
    ∃ segments,
      (∀ segment ∈ segments, GoodSegment segment) ∧
        firstSegment segments [] ∉ reservedSegments ∧
        container.resource.path = containerPath segments := by
  obtain ⟨segments, leaf, good, goodLeaf, notReserved, shape⟩ :=
    container.resource.addressable.exists_normalForm
  have ends := Text.endsWith_iff.mp container.slash
  rcases List.eq_nil_or_concat leaf with rfl | ⟨front, last, isConcat⟩
  · exact ⟨segments, good, notReserved, by simpa using shape⟩
  · obtain ⟨start, isEnd⟩ := ends
    rw [shape, isConcat, List.concat_eq_append, ← List.append_assoc] at isEnd
    have lastSlash := (List.append_inj' isEnd rfl).2
    rw [List.singleton_inj] at lastSlash
    refine (goodLeaf.slashFree ?_).elim
    simp [isConcat, ← lastSlash]

/-- What follows a container's slash is never below the auxiliary segment. -/
theorem ContainerUrl.not_aux_child
    (container : ContainerUrl space)
    {name ending rest : Text}
    (slashFree : '/' ∉ name)
    (isEnding : ending = [] ∨ ending = ['/'])
    (remainder :
      segmentRemainder (container.resource.path ++ (name ++ ending))
        auxSegment = some rest) :
    AuxKind.splitSuffix rest = none := by
  obtain ⟨segments, good, notReserved, shape⟩ := container.exists_segments
  have auxSlashFree : '/' ∉ auxSegment := by decide
  have isFirst :
      (segmentRemainder (container.resource.path ++ (name ++ ending))
        auxSegment).isSome = true := by
    rw [remainder]
    rfl
  rw [shape] at isFirst remainder
  unfold containerPath at isFirst remainder
  rw [List.cons_append] at isFirst remainder
  rw [segmentRemainder_isSome auxSlashFree, Text.head?_split,
    Option.some.injEq] at isFirst
  cases segments with
  | cons first others =>
      have firstFree := (good first (by simp)).slashFree
      have headIsFirst : first = auxSegment := by
        rw [← isFirst, List.flatMap_cons, List.append_assoc, List.append_assoc,
          List.takeWhile_append_of_pos]
        · simp
        · intro c member
          simpa using fun same : c = '/' => firstFree (same ▸ member)
      refine (notReserved ?_).elim
      simp [firstSegment, headIsFirst, reservedSegments]
  | nil =>
      have nameIsAux : name = auxSegment := by
        rw [← isFirst, List.flatMap_nil, List.nil_append,
          List.takeWhile_append_of_pos]
        · rcases isEnding with rfl | rfl
          · simp
          · simp
        · intro c member
          simpa using fun same : c = '/' => slashFree (same ▸ member)
      have restIsEnding : rest = ending := by
        rw [nameIsAux, List.flatMap_nil, List.nil_append] at remainder
        unfold segmentRemainder at remainder
        simp only [Option.bind_eq_bind, Option.bind_eq_some_iff,
          Text.stripPrefix_eq_some] at remainder
        obtain ⟨rooted, isRooted, stripped, isStripped, kept⟩ := remainder
        split at kept
        · cases kept
          simp only [List.cons_append, List.nil_append, List.cons.injEq,
            true_and] at isRooted
          rw [isStripped] at isRooted
          exact (List.append_cancel_left isRooted).symm
        · cases kept
      rcases isEnding with rfl | rfl
      · rw [restIsEnding]
        decide
      · rw [restIsEnding]
        decide

/-- A child's path resolves to a direct member of its container. -/
theorem ContainerUrl.resolve_child
    {container : ContainerUrl space}
    {name ending : Text} {child : Target space}
    (nonempty : name ≠ [])
    (slashFree : '/' ∉ name)
    (isEnding : ending = [] ∨ ending = ['/'])
    (classified :
      classify space (container.resource.path ++ (name ++ ending)) =
        .ok child) :
    ∃ url : ResourceUrl space,
      child = url.toTarget ∧ url.parent = some container ∧
        url.path = container.resource.path ++ (name ++ ending) := by
  rcases StorageSpace.resolve_cases (classify_eq_ok classified) with
      ⟨url, isPath, isTarget⟩ | ⟨url, kind, isPath, _⟩
  · refine ⟨url, isTarget, ?_, isPath⟩
    obtain ⟨segments, good, _, shape⟩ := container.exists_segments
    rw [ResourceUrl.parent_eq_some, isPath, shape]
    constructor
    · intro isRoot
      have lengths := congrArg List.length isRoot
      have positive := List.length_pos_of_ne_nil nonempty
      simp only [containerPath, List.length_append, List.length_cons,
        List.length_nil] at lengths
      omega
    · rcases isEnding with rfl | rfl
      · rw [List.append_nil, parentPath_leaf nonempty slashFree]
      · rw [← List.append_assoc, ← containerPath_concat,
          parentPath_container slashFree]
  · have remainder := url.segmentRemainder_auxPath kind
    rw [← isPath] at remainder
    have unsplit := container.not_aux_child slashFree isEnding remainder
    rw [AuxKind.splitSuffix_append] at unsplit
    cases unsplit

omit [IriSyntax] in
theorem childName_nonempty (slug : Option Text) (uuid : Uuid) :
    childName slug uuid ≠ [] := by
  unfold childName
  dsimp only
  split
  · exact uuid.nonempty
  · next kept =>
      intro isEmpty
      rw [isEmpty] at kept
      exact kept rfl

omit [IriSyntax] in
theorem uuid_slashFree (uuid : Uuid) : '/' ∉ uuid.text := by
  intro member
  rcases uuid.plain '/' member with alphanumeric | hyphen
  · revert alphanumeric
    decide
  · cases hyphen

omit [IriSyntax] in
theorem childName_slashFree (slug : Option Text) (uuid : Uuid) :
    '/' ∉ childName slug uuid := by
  unfold childName
  dsimp only
  split
  · exact uuid_slashFree uuid
  · intro member
    have kept := (List.mem_filter.mp member).2
    revert kept
    decide

end Quadpod
