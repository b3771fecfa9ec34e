import Quadpod.ResolvedPaths

namespace Quadpod

/-!
# The classification of paths

`resolve` strips a reserved prefix and a suffix and checks what is left again.
A path it accepts is therefore the path of a resource or a container, or the
auxiliary path of one, and never both: the first segment decides.
-/

variable [IriSyntax] {space : StorageSpace}

/-- The first segment of a path. -/
def firstName (path : Text) : Text :=
  (Text.split '/' (path.drop 1)).headD []

/-! ## The first segment -/

omit [IriSyntax] in
theorem segmentRemainder_isSome_iff_firstName
    {path segment : Text} (rooted : Text.startsWith ['/'] path = true)
    (reserved : segment ∈ reservedSegments) :
    (segmentRemainder path segment).isSome = true ↔
      firstName path = segment := by
  have slashFree : '/' ∉ segment := by
    revert segment
    decide
  obtain ⟨rest, rfl⟩ := Text.startsWith_iff.mp rooted
  rw [List.singleton_append, segmentRemainder_isSome slashFree, firstName,
    List.drop_succ_cons, List.drop_zero]
  cases pieces : Text.split '/' rest with
  | nil =>
      exact (Text.split_ne_nil '/' rest pieces).elim
  | cons first others =>
      simp

omit [IriSyntax] in
/-- A path is reserved when its first segment is. -/
theorem reservedSegment_eq_none_iff_firstName
    {path : Text} (rooted : Text.startsWith ['/'] path = true) :
    reservedSegment path = none ↔ firstName path ∉ reservedSegments := by
  unfold reservedSegment
  rw [List.find?_eq_none]
  constructor
  · intro none member
    exact none _ member
      ((segmentRemainder_isSome_iff_firstName rooted member).mpr rfl)
  · intro notReserved segment member found
    rw [(segmentRemainder_isSome_iff_firstName rooted member).mp found]
      at notReserved
    exact notReserved member

/-! ## What a path resolves to -/

/-- The path of a resource or container resolves to it. -/
theorem StorageSpace.resolve_path (url : ResourceUrl space) :
    space.resolve url.path = .ok url.toTarget := by
  have notReserved :
      ∀ segment ∈ reservedSegments,
        (segmentRemainder url.path segment).isSome = false := by
    intro segment member
    have unreserved := url.addressable.unreserved
    rw [reservedSegment, List.find?_eq_none] at unreserved
    simpa using unreserved segment member
  have notWellKnown := notReserved wellKnownSegment (by decide)
  have notAux := notReserved auxSegment (by decide)
  unfold resolve
  rw [dif_pos url.addressable.rooted, dif_pos url.addressable.stable,
    dif_neg (by simp [notWellKnown])]
  split
  · next rest remainder =>
      rw [remainder] at notAux
      cases notAux
  · rw [StorageSpace.resource_path]
    rfl

theorem ResourceUrl.isAux_toTarget (url : ResourceUrl space) :
    url.toTarget.isAux = false := by
  unfold toTarget
  split
  · rfl
  · rfl

theorem ResourceUrl.toTarget_injective :
    Function.Injective (toTarget : ResourceUrl space → Target space) := by
  intro first second same
  apply iri_injective
  rw [← graphIri_toTarget, ← graphIri_toTarget, same]

/-- An auxiliary is resolved at the auxiliary path of its subject. -/
theorem StorageSpace.resolve_eq_aux_iff
    {path : Text} {aux : AuxUrl space} :
    space.resolve path = .ok (.aux aux) ↔
      path = aux.subject.auxPath aux.kind := by
  constructor
  · intro resolves
    rcases resolve_cases resolves with
      ⟨url, _, isTarget⟩ | ⟨url, kind, isPath, isTarget⟩
    · have notAux := url.isAux_toTarget
      rw [← isTarget] at notAux
      cases notAux
    · cases isTarget
      exact isPath
  · rintro rfl
    rw [resolve_auxPath, ← aux.eq_aux]

/-- What resolves to no auxiliary is the resource or container at the path. -/
theorem StorageSpace.exists_url_of_resolve
    {path : Text} {target : Target space}
    (resolves : space.resolve path = .ok target)
    (notAux : target.isAux = false) :
    ∃ url : ResourceUrl space, url.path = path ∧ target = url.toTarget := by
  rcases resolve_cases resolves with ordinary | ⟨url, kind, _, isTarget⟩
  · exact ordinary
  · rw [isTarget] at notAux
    cases notAux

/-- The IRI of a target is the base and the path without its slash. -/
theorem StorageSpace.graphIri_eq_base
    {path : Text} {target : Target space}
    (resolves : space.resolve path = .ok target) :
    graphIri target = space.base ++ path.drop 1 := by
  obtain ⟨rest, rfl⟩ :=
    Text.startsWith_iff.mp (rooted_of_resolve resolves).1
  rw [graphIri_of_resolve resolves, ← space.origin_append]
  simp

/--
`resolve` names a target by its path, so distinct paths have distinct targets;
it gives an auxiliary exactly at the auxiliary path of a resource or container
it accepts, and its subject is that one; and the reserved segments hold
neither a resource nor a container, nor the subject of an auxiliary.
-/
theorem StorageSpace.resolve_classifies (space : StorageSpace) :
    (∀ path target,
        space.resolve path = .ok target →
          graphIri target = space.base ++ path.drop 1 ∧
            Text.startsWith ['/'] path = true) ∧
      (∀ first second firstTarget secondTarget,
        space.resolve first = .ok firstTarget →
          space.resolve second = .ok secondTarget →
          graphIri firstTarget = graphIri secondTarget → first = second) ∧
      (∀ path kind subjectPath,
        (∃ aux : AuxUrl space,
            space.resolve path = .ok (.aux aux) ∧ aux.kind = kind ∧
              aux.subject.path = subjectPath) ↔
          path = '/' :: auxSegment ++ subjectPath ++ kind.suffix ∧
            ∃ target,
              space.resolve subjectPath = .ok target ∧
                target.isAux = false) ∧
      (∀ path kind (url : ResourceUrl space),
        space.resolve path = .ok url.toTarget →
          space.resolve ('/' :: auxSegment ++ path ++ kind.suffix) =
              .ok (.aux (url.aux kind)) ∧
            graphIri (url.aux kind) =
              space.origin ++ ('/' :: auxSegment ++ path ++ kind.suffix)) ∧
      (∀ path target,
        space.resolve path = .ok target →
          firstName path ∈ reservedSegments → target.isAux = true) ∧
      (∀ path (aux : AuxUrl space),
        space.resolve path = .ok (.aux aux) →
          firstName aux.subject.path ∉ reservedSegments) := by
  refine ⟨fun path target resolves => ?_, ?_, fun path kind subjectPath => ?_,
    fun path kind url resolves => ?_, fun path target resolves reserved => ?_,
    fun path aux _ => ?_⟩
  · exact ⟨graphIri_eq_base resolves, (rooted_of_resolve resolves).1⟩
  · intro first second firstTarget secondTarget firstResolves secondResolves
      same
    rw [graphIri_of_resolve firstResolves, graphIri_of_resolve secondResolves]
      at same
    exact List.append_cancel_left same
  · constructor
    · rintro ⟨aux, resolves, rfl, rfl⟩
      exact ⟨resolve_eq_aux_iff.mp resolves, aux.subject.toTarget,
        resolve_path aux.subject, aux.subject.isAux_toTarget⟩
    · rintro ⟨isPath, target, resolves, notAux⟩
      obtain ⟨url, rfl, _⟩ := exists_url_of_resolve resolves notAux
      refine ⟨url.aux kind, ?_, rfl, rfl⟩
      rw [isPath]
      exact resolve_auxPath url kind
  · obtain ⟨other, rfl, isTarget⟩ :=
      exists_url_of_resolve resolves url.isAux_toTarget
    rw [← ResourceUrl.toTarget_injective isTarget]
    exact ⟨resolve_auxPath url kind, ResourceUrl.auxIri_eq url kind⟩
  · rcases resolve_cases resolves with
      ⟨url, rfl, _⟩ | ⟨url, kind, _, isTarget⟩
    · have unreserved := url.addressable.unreserved
      rw [reservedSegment_eq_none_iff_firstName url.addressable.rooted]
        at unreserved
      exact (unreserved reserved).elim
    · rw [isTarget]
      rfl
  · have unreserved := aux.subject.addressable.unreserved
    rwa [reservedSegment_eq_none_iff_firstName aux.subject.addressable.rooted]
      at unreserved

end Quadpod
