import Quadpod.Space

namespace Quadpod

/-!
# The IRI of a resolved path

`StorageSpace::resolve` builds the IRI of its target out of the path it was
given: whatever the path resolves to is named by the pod's origin followed by
that path, byte for byte.  Distinct paths therefore never name one target.
-/

variable [IriSyntax] {space : StorageSpace}

omit [IriSyntax] in
/-- What follows a reserved first segment, put back behind it. -/
theorem eq_of_segmentRemainder
    {path segment rest : Text}
    (remainder : segmentRemainder path segment = some rest) :
    path = '/' :: segment ++ rest := by
  unfold segmentRemainder at remainder
  simp only [Option.bind_eq_bind, Option.bind_eq_some_iff] at remainder
  obtain ⟨rooted, isRooted, stripped, isStripped, kept⟩ := remainder
  split at kept
  · cases kept
    rw [Text.stripPrefix_eq_some.mp isRooted,
      Text.stripPrefix_eq_some.mp isStripped]
    rfl
  · cases kept

omit [IriSyntax] in
/-- An auxiliary's path is its subject's followed by the suffix. -/
theorem AuxKind.eq_of_splitSuffix
    {rest subjectPath : Text} {kind : AuxKind}
    (splits : AuxKind.splitSuffix rest = some (kind, subjectPath)) :
    rest = subjectPath ++ kind.suffix := by
  obtain ⟨candidate, _, found⟩ := List.exists_of_findSome?_eq_some splits
  obtain ⟨subject, strips, same⟩ := Option.map_eq_some_iff.mp found
  cases same
  exact Text.stripSuffix_eq_some.mp strips

/-- What a resource is needed for was done with the one of that path. -/
theorem StorageSpace.resource_bind_eq_ok
    {path : Text} {addressable : Addressable path} {α : Type}
    {next : ResourceUrl space → Except SpaceError α} {result : α}
    (accepted : space.resource path addressable >>= next = .ok result) :
    ∃ url : ResourceUrl space, url.path = path ∧ next url = .ok result := by
  unfold resource at accepted
  dsimp only at accepted
  split at accepted
  · exact ⟨_, rfl, accepted⟩
  · cases accepted

theorem ResourceUrl.graphIri_toTarget (url : ResourceUrl space) :
    graphIri url.toTarget = url.iri := by
  unfold toTarget
  split
  · rfl
  · rfl

/-- The path of a resource's auxiliary. -/
def ResourceUrl.auxPath (url : ResourceUrl space) (kind : AuxKind) : Text :=
  '/' :: auxSegment ++ url.path ++ kind.suffix

theorem ResourceUrl.auxIri_eq (url : ResourceUrl space) (kind : AuxKind) :
    (url.aux kind).iri = space.origin ++ url.auxPath kind := by
  change url.auxIri kind = _
  rw [auxIri, origin_eq, auxPath]
  simp

/-- A resource or container at the path, or the auxiliary of one. -/
theorem StorageSpace.resolve_cases
    {path : Text} {target : Target space}
    (resolves : space.resolve path = .ok target) :
    (∃ url : ResourceUrl space, url.path = path ∧ target = url.toTarget) ∨
      ∃ (url : ResourceUrl space) (kind : AuxKind),
        path = url.auxPath kind ∧ target = .aux (url.aux kind) := by
  unfold resolve at resolves
  split at resolves
  · split at resolves
    · split at resolves
      · cases resolves
      · split at resolves
        · next rest remainder =>
            split at resolves
            · cases resolves
            · next kind subjectPath splits =>
                split at resolves
                · split at resolves
                  · obtain ⟨subject, isPath, placed⟩ :=
                      StorageSpace.resource_bind_eq_ok resolves
                    dsimp only at placed
                    split at placed
                    · cases placed
                      refine Or.inr ⟨subject, kind, ?_, rfl⟩
                      rw [ResourceUrl.auxPath, isPath,
                        eq_of_segmentRemainder remainder,
                        AuxKind.eq_of_splitSuffix splits]
                      simp
                    · cases placed
                  · cases resolves
                · cases resolves
        · obtain ⟨url, isPath, placed⟩ :=
            StorageSpace.resource_bind_eq_ok resolves
          cases placed
          exact Or.inl ⟨url, isPath, rfl⟩
    · cases resolves
  · cases resolves

/-- What a path resolves to is named by that path. -/
theorem StorageSpace.graphIri_of_resolve
    {path : Text} {target : Target space}
    (resolves : space.resolve path = .ok target) :
    graphIri target = space.origin ++ path := by
  rcases resolve_cases resolves with
    ⟨url, rfl, rfl⟩ | ⟨url, kind, rfl, rfl⟩
  · rw [ResourceUrl.graphIri_toTarget, url.iriPath]
  · exact url.auxIri_eq kind

theorem StorageSpace.rooted_of_resolve
    {path : Text} {target : Target space}
    (resolves : space.resolve path = .ok target) :
    Text.startsWith ['/'] path = true ∧
      isNormalizationStable path = true := by
  unfold resolve at resolves
  split at resolves
  · next rooted =>
      split at resolves
      · next stable =>
          exact ⟨rooted, stable⟩
      · cases resolves
  · cases resolves

/-! ## The path of an auxiliary -/

omit [IriSyntax] in
theorem goodSegment_suffix
    {leaf : Text} (goodLeaf : GoodLeaf leaf) (kind : AuxKind) :
    GoodSegment (leaf ++ kind.suffix) := by
  cases kind
  refine ⟨?_, ?_, ?_, ?_⟩
  · simp [AuxKind.suffix]
  · have slashFree := goodLeaf.slashFree
    simp [AuxKind.suffix, AuxKind.name, slashFree]
  · have hashFree := goodLeaf.hashFree
    simp [AuxKind.suffix, AuxKind.name, hashFree]
  · rw [isDotSegment, Bool.or_eq_false_iff]
    constructor
    · rw [beq_eq_false_iff_ne]
      intro same
      have lengths := congrArg List.length same
      simp [AuxKind.suffix, AuxKind.name] at lengths
    · rw [beq_eq_false_iff_ne]
      intro same
      have lengths := congrArg List.length same
      simp [AuxKind.suffix, AuxKind.name] at lengths

/-- An auxiliary's path is stable, as its subject's is. -/
theorem ResourceUrl.auxPath_stable (url : ResourceUrl space) (kind : AuxKind) :
    isNormalizationStable (url.auxPath kind) = true := by
  obtain ⟨segments, leaf, good, goodLeaf, _, isPath⟩ :=
    url.addressable.exists_normalForm
  have shape :
      url.auxPath kind =
        containerPath (auxSegment :: segments) ++ (leaf ++ kind.suffix) := by
    rw [auxPath, isPath]
    simp [containerPath]
  rw [shape]
  refine isNormalizationStable_of_segments ?_
    (Or.inr (goodSegment_suffix goodLeaf kind))
  intro segment member
  rcases List.mem_cons.mp member with rfl | isSegment
  · exact ⟨by decide, by decide, by decide, by decide⟩
  · exact good segment isSegment

theorem StorageSpace.resource_path (url : ResourceUrl space) :
    space.resource url.path url.addressable = .ok url := by
  have valid : IriSyntax.valid (space.base ++ url.path.drop 1) = true := by
    rw [← url.iri_eq_base]
    exact url.valid
  unfold resource
  dsimp only
  rw [dif_pos valid]
  exact congrArg Except.ok (ResourceUrl.ext_path rfl)

theorem ResourceUrl.segmentRemainder_auxPath
    (url : ResourceUrl space) (kind : AuxKind) :
    segmentRemainder (url.auxPath kind) auxSegment =
      some (url.path ++ kind.suffix) := by
  obtain ⟨tail, isPath⟩ := url.path_eq_cons
  have rooted :
      Text.stripPrefix ['/'] (url.auxPath kind) =
        some (auxSegment ++ (url.path ++ kind.suffix)) := by
    rw [Text.stripPrefix_eq_some, ResourceUrl.auxPath]
    simp
  rw [segmentRemainder, rooted, Option.bind_eq_bind, Option.bind_some,
    Text.stripPrefix_append, Option.bind_some, isPath]
  rfl

omit [IriSyntax] in
theorem AuxKind.splitSuffix_append (kind : AuxKind) (path : Text) :
    AuxKind.splitSuffix (path ++ kind.suffix) = some (kind, path) := by
  cases kind
  simp [AuxKind.splitSuffix, AuxKind.all, Text.stripSuffix_append]

/-- The path of an auxiliary resolves to it. -/
theorem StorageSpace.resolve_auxPath
    (url : ResourceUrl space) (kind : AuxKind) :
    space.resolve (url.auxPath kind) = .ok (.aux (url.aux kind)) := by
  have remainder := url.segmentRemainder_auxPath kind
  have notWellKnown :
      (segmentRemainder (url.auxPath kind) wellKnownSegment).isSome =
        false := by
    cases found : segmentRemainder (url.auxPath kind) wellKnownSegment with
    | none =>
        rfl
    | some rest =>
        have shape := eq_of_segmentRemainder found
        rw [ResourceUrl.auxPath] at shape
        cases shape
  have splits := AuxKind.splitSuffix_append kind url.path
  unfold resolve
  rw [dif_pos (by simp [ResourceUrl.auxPath]),
    dif_pos (url.auxPath_stable kind), dif_neg (by simp [notWellKnown])]
  split
  · next rest isRest =>
      rw [remainder] at isRest
      cases isRest
      split
      · next isNone =>
          rw [splits] at isNone
          cases isNone
      · next foundKind foundPath isSplit =>
          rw [splits] at isSplit
          cases isSplit
          rw [dif_pos url.addressable.unreserved,
            dif_pos url.addressable.stable, StorageSpace.resource_path]
          exact if_pos (url.aux kind).valid
  · next isNone =>
      rw [remainder] at isNone
      cases isNone

end Quadpod
