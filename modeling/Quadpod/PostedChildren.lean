import Quadpod.ContainmentCoherence
import Quadpod.PathClassification
import Quadpod.ReferencePod
import Quadpod.ServedRepresentations
import Quadpod.SkolemBijection

namespace Quadpod

open AtomicProgram

/-!
# The child a request settles on

`post_impl` takes the name of the child from the `Slug` header, character by
character, and falls back to a UUID; a name that is taken is tried once more
with a UUID at its end.  Whatever the headers say, the child lies directly in
the container of the request, and neither it nor its counterpart with or without
the slash was there before.
-/

variable [IriSyntax] {space : StorageSpace}

/-! ## Names -/

/-- Characters of a name and slashes can be added to an IRI below a base. -/
def NamesExtendIris : Prop :=
  ∀ base path tail : Text,
    IriSyntax.valid base = true →
    ['/'] <:+ base →
    (∀ c ∈ tail, isNameChar c = true ∨ c = '/') →
    IriSyntax.valid (base ++ path) = true →
    IriSyntax.valid (base ++ path ++ tail) = true

omit [IriSyntax] in
theorem isNameChar_of_uuid (uuid : Uuid) :
    ∀ c ∈ uuid.text, isNameChar c = true := by
  intro c member
  rcases uuid.plain c member with alphanumeric | rfl
  · simp [isNameChar, alphanumeric]
  · decide

omit [IriSyntax] in
theorem isNameChar_of_childName (slug : Option Text) (uuid : Uuid) :
    ∀ c ∈ childName slug uuid, isNameChar c = true := by
  unfold childName
  dsimp only
  split
  · exact isNameChar_of_uuid uuid
  · intro c member
    exact (List.mem_filter.mp member).2

omit [IriSyntax] in
/-- A UUID has no dot in it. -/
theorem isDotSegment_uuid (uuid : Uuid) : isDotSegment uuid.text = false := by
  have dotFree : '.' ∉ uuid.text := by
    intro member
    rcases uuid.plain '.' member with alphanumeric | hyphen
    · revert alphanumeric
      decide
    · cases hyphen
  unfold isDotSegment
  rw [Bool.or_eq_false_iff, beq_eq_false_iff_ne, beq_eq_false_iff_ne]
  constructor
  · intro isDot
    rw [isDot] at dotFree
    exact dotFree (by decide)
  · intro isDots
    rw [isDots] at dotFree
    exact dotFree (by decide)

omit [IriSyntax] in
theorem isDotSegment_childName (slug : Option Text) (uuid : Uuid) :
    isDotSegment (childName slug uuid) = false := by
  unfold childName
  dsimp only
  split
  · exact isDotSegment_uuid uuid
  · next kept =>
      rw [Bool.or_eq_true, not_or] at kept
      exact Bool.eq_false_iff.mpr kept.2

omit [IriSyntax] in
theorem goodSegment_of_nameChars {name : Text}
    (nonempty : name ≠ [])
    (characters : ∀ c ∈ name, isNameChar c = true)
    (notDot : isDotSegment name = false) :
    GoodSegment name where
  nonempty := nonempty
  slashFree member := by
    have isChar := characters '/' member
    revert isChar
    decide
  hashFree member := by
    have isChar := characters '#' member
    revert isChar
    decide
  notDot := notDot

omit [IriSyntax] in
/-- The first name is a segment. -/
theorem goodSegment_childName (slug : Option Text) (uuid : Uuid) :
    GoodSegment (childName slug uuid) :=
  goodSegment_of_nameChars (childName_nonempty slug uuid)
    (isNameChar_of_childName slug uuid) (isDotSegment_childName slug uuid)

/-- The name of the second try. -/
def retriedName (slug : Option Text) (draws : Draws) : Text :=
  childName slug draws.childName ++ '-' :: draws.retryName.text

omit [IriSyntax] in
theorem isNameChar_of_retriedName (slug : Option Text) (draws : Draws) :
    ∀ c ∈ retriedName slug draws, isNameChar c = true := by
  intro c member
  rw [retriedName, List.mem_append, List.mem_cons] at member
  rcases member with inName | rfl | inUuid
  · exact isNameChar_of_childName _ _ c inName
  · decide
  · exact isNameChar_of_uuid _ c inUuid

omit [IriSyntax] in
theorem hyphen_mem_retriedName (slug : Option Text) (draws : Draws) :
    '-' ∈ retriedName slug draws := by
  simp [retriedName]

omit [IriSyntax] in
/-- The second name is a segment, and never a reserved one. -/
theorem goodSegment_retriedName (slug : Option Text) (draws : Draws) :
    GoodSegment (retriedName slug draws) := by
  have hyphen := hyphen_mem_retriedName slug draws
  refine goodSegment_of_nameChars (List.ne_nil_of_mem hyphen)
    (isNameChar_of_retriedName slug draws) ?_
  unfold isDotSegment
  rw [Bool.or_eq_false_iff, beq_eq_false_iff_ne, beq_eq_false_iff_ne]
  constructor
  · intro isDot
    rw [isDot] at hyphen
    revert hyphen
    decide
  · intro isDots
    rw [isDots] at hyphen
    revert hyphen
    decide

omit [IriSyntax] in
/-- A UUID in the usual form makes the second name longer than any reserved. -/
theorem retriedName_not_reserved
    (slug : Option Text) {draws : Draws}
    (usual : draws.retryName.Hyphenated) :
    retriedName slug draws ∉ reservedSegments := by
  intro reserved
  have long : draws.retryName.text.length = 36 := by
    have lengths := congrArg List.length usual
    rw [List.length_map] at lengths
    exact lengths
  have short :
      ∀ segment ∈ reservedSegments, segment.length ≤ 11 := by
    decide
  have isShort := short _ reserved
  simp only [retriedName, List.length_append, List.length_cons] at isShort
  omega

/-! ## Paths -/

theorem ContainerUrl.eq_root
    {container : ContainerUrl space} (isRoot : container.resource.path = ['/']) :
    container = space.root :=
  ContainerUrl.ext_resource (ResourceUrl.ext_path isRoot)

/-- A name that is not reserved where it stands is the name of a child. -/
theorem ContainerUrl.classify_child
    (namesExtend : NamesExtendIris) (container : ContainerUrl space)
    {name ending : Text} (good : GoodSegment name)
    (characters : ∀ c ∈ name, isNameChar c = true)
    (isEnding : ending = [] ∨ ending = ['/'])
    (notReserved : ¬ (container = space.root ∧ name ∈ reservedSegments)) :
    ∃ url : ResourceUrl space,
      classify space (container.resource.path ++ (name ++ ending)) =
          .ok url.toTarget ∧
        url.path = container.resource.path ++ (name ++ ending) := by
  obtain ⟨segments, goodSegments, unreserved, shape⟩ :=
    container.exists_segments
  have start : firstSegment segments name ∉ reservedSegments := by
    cases segments with
    | nil =>
        intro reserved
        exact notReserved ⟨ContainerUrl.eq_root shape, reserved⟩
    | cons first rest =>
        exact unreserved
  have addressable :
      Addressable (container.resource.path ++ (name ++ ending)) := by
    obtain ⟨leaf, folder⟩ := Addressable.of_pair goodSegments good start
    rw [shape]
    rcases isEnding with rfl | rfl
    · rw [List.append_nil]
      exact leaf
    · rw [containerPath_concat, List.append_assoc] at folder
      exact folder
  have valid :
      IriSyntax.valid (container.resource.iri ++ (name ++ ending)) = true := by
    have below := container.resource.valid
    rw [container.resource.iri_eq_base] at below ⊢
    refine namesExtend _ _ _ space.valid
      (Text.endsWith_iff.mp space.trailingSlash) ?_ below
    intro c member
    rcases List.mem_append.mp member with inName | inEnding
    · exact Or.inl (characters c inName)
    · rcases isEnding with rfl | rfl
      · cases inEnding
      · exact Or.inr (List.mem_singleton.mp inEnding)
  let url : ResourceUrl space :=
    { path := container.resource.path ++ (name ++ ending)
      iri := container.resource.iri ++ (name ++ ending)
      addressable := addressable
      iriPath := by rw [container.resource.iriPath, List.append_assoc]
      valid := valid }
  refine ⟨url, ?_, rfl⟩
  have resolved : space.resolve url.path = .ok url.toTarget :=
    StorageSpace.resolve_path url
  unfold classify
  rw [resolved]
  rfl

/-- A reserved name right below the root is refused. -/
theorem classify_reserved
    {name ending : Text} (reserved : name ∈ reservedSegments)
    (isEnding : ending = [] ∨ ending = ['/']) :
    classify space (space.root.resource.path ++ (name ++ ending)) =
      .error (.ofStatus 404) := by
  have refused :
      space.resolve ('/' :: (name ++ ending)) = .error .reserved := by
    simp only [reservedSegments, List.mem_cons, List.not_mem_nil,
      or_false] at reserved
    unfold StorageSpace.resolve
    rcases reserved with rfl | rfl
    · have shape :
          Text.startsWith ['/'] ('/' :: (auxSegment ++ ending)) = true ∧
            isNormalizationStable ('/' :: (auxSegment ++ ending)) = true ∧
            (segmentRemainder ('/' :: (auxSegment ++ ending))
              wellKnownSegment).isSome = false ∧
            segmentRemainder ('/' :: (auxSegment ++ ending)) auxSegment =
              some ending ∧
            AuxKind.splitSuffix ending = none := by
        rcases isEnding with rfl | rfl
        · decide
        · decide
      obtain ⟨rooted, stable, notWellKnown, remainder, unsplit⟩ := shape
      rw [dif_pos rooted, dif_pos stable, dif_neg (by simp [notWellKnown])]
      split
      · next rest isRest =>
          rw [remainder] at isRest
          cases isRest
          split
          · rfl
          · next kind subject splits =>
              rw [unsplit] at splits
              cases splits
      · next missing =>
          rw [remainder] at missing
          cases missing
    · have shape :
          Text.startsWith ['/'] ('/' :: (wellKnownSegment ++ ending)) = true ∧
            isNormalizationStable ('/' :: (wellKnownSegment ++ ending)) =
              true ∧
            (segmentRemainder ('/' :: (wellKnownSegment ++ ending))
              wellKnownSegment).isSome = true := by
        rcases isEnding with rfl | rfl
        · decide
        · decide
      rw [dif_pos shape.1, dif_pos shape.2.1, dif_pos shape.2.2]
  unfold classify
  have isPath :
      space.root.resource.path ++ (name ++ ending) = '/' :: (name ++ ending) :=
    rfl
  rw [isPath, refused]
  rfl

/-! ## What is settled on -/

section Settling

variable {world : World}

/-- Below the root there is a counterpart with or without the slash. -/
theorem ResourceUrl.exists_slashCounterpart
    {url : ResourceUrl space} {container : ContainerUrl space}
    (isParent : url.parent = some container) :
    ∃ counterpart, url.slashCounterpart = some counterpart := by
  have notRoot : url.path ≠ ['/'] := (ResourceUrl.parent_eq_some.mp isParent).1
  unfold slashCounterpart
  split
  · next strips =>
      exact (notRoot (Text.stripSuffix_eq_some.mp strips)).elim
  · exact ⟨_, rfl⟩
  · exact ⟨_, rfl⟩

/-- Neither a URL nor its counterpart exists. -/
def World.PairAbsent (world : World) (url : ResourceUrl space) : Prop :=
  world.present url.node = false ∧
    ∃ counterpart,
      url.slashCounterpart = some counterpart ∧
        world.present counterpart.node = false

theorem Guard.isTaken_eq
    {guard : Guard space} {url : ResourceUrl space}
    (isTarget : guard.target = url.toTarget) :
    guard.isTaken = (guard.targetExists || guard.counterpartPresent url) := by
  unfold isTaken
  unfold ResourceUrl.toTarget at isTarget
  by_cases slash : Text.endsWith ['/'] url.path = true
  · rw [dif_pos slash] at isTarget
    rw [isTarget]
  · rw [dif_neg slash] at isTarget
    rw [isTarget]

/-- A child that is not taken is absent, and so is its counterpart. -/
theorem World.pairAbsent_of_not_taken
    {agent : Agent} {url : ResourceUrl space} {container : ContainerUrl space}
    (isParent : url.parent = some container)
    (free : (world.guard agent url.toTarget).isTaken = false) :
    world.PairAbsent url := by
  obtain ⟨counterpart, pair⟩ := ResourceUrl.exists_slashCounterpart isParent
  have inChain : url ∈ url.toTarget.subject.chain := by
    rw [url.subject_toTarget]
    exact List.mem_cons_self
  rw [Guard.isTaken_eq rfl, Bool.or_eq_false_iff, world.guard_targetExists,
    url.node_toTarget, World.guard_counterpartPresent inChain pair] at free
  exact ⟨free.1, counterpart, pair, free.2⟩

/-- A UUID in the path keeps a URL and its counterpart apart from all others. -/
theorem World.pairAbsent_of_fresh
    {request : Request} {url : ResourceUrl space}
    {container : ContainerUrl space}
    (isParent : url.parent = some container)
    (fresh : world.FreshRetry space request)
    {front ending : Text} (isEnding : ending = [] ∨ ending = ['/'])
    (isPath : url.path = front ++ request.draws.retryName.text ++ ending) :
    world.PairAbsent url := by
  have absent :
      ∀ other : ResourceUrl space,
        request.draws.retryName.text <:+: other.path →
          world.present other.node = false := by
    intro other contains
    exact Bool.eq_false_iff.mpr fun isPresent =>
      fresh other isPresent contains
  obtain ⟨counterpart, pair⟩ := ResourceUrl.exists_slashCounterpart isParent
  refine ⟨absent url ⟨front, ending, isPath.symm⟩, counterpart, pair,
    absent counterpart ?_⟩
  rcases ResourceUrl.slashCounterpart_eq_some.mp pair with added | removed
  · rw [added, isPath]
    exact ⟨front, ending ++ ['/'], by simp⟩
  · rw [isPath] at removed
    rcases isEnding with rfl | rfl
    · obtain ⟨start, last, isConcat⟩ :=
        (List.eq_nil_or_concat request.draws.retryName.text).resolve_left
          request.draws.retryName.nonempty
      rw [List.append_nil, isConcat, List.concat_eq_append,
        ← List.append_assoc] at removed
      have isSlash := List.singleton_inj.mp (List.append_inj' removed rfl).2
      refine (uuid_slashFree request.draws.retryName ?_).elim
      rw [isConcat, ← isSlash]
      simp
    · have isShorter := List.append_cancel_right removed
      exact ⟨front, [], by rw [List.append_nil]; exact isShorter⟩

/--
The child a `POST` settles on is a resource or a container directly in the
container of the request, and neither it nor its counterpart with or without the
slash existed; unless the name is reserved right below the root, where the
request is refused.
-/
theorem posted_child_settles
    (namesExtend : NamesExtendIris) (request : Request)
    (usual : request.draws.retryName.Hyphenated)
    (fresh : world.FreshRetry space request) (parent : ContainerUrl space) :
    (∃ url : ResourceUrl space,
        Program.eval backend
            (allocateChild request.agent parent request.headers request.draws)
            world =
          (.ok (world.guard request.agent url.toTarget, url.toTarget),
            world) ∧
          url.parent = some parent ∧ world.PairAbsent url) ∨
      (parent = space.root ∧
        childName (request.headers.str? .slug) request.draws.childName ∈
          reservedSegments ∧
        Program.eval backend
            (allocateChild request.agent parent request.headers request.draws)
            world =
          (.error (.ofStatus 404), world)) := by
  have isEnding := childEnding_cases request.headers
  let name := childName (request.headers.str? .slug) request.draws.childName
  by_cases reserved : parent = space.root ∧ name ∈ reservedSegments
  · refine Or.inr ⟨reserved.1, reserved.2, ?_⟩
    have refused :
        classify space (parent.resource.path ++ name ++
          childEnding request.headers) = .error (.ofStatus 404) := by
      rw [reserved.1, List.append_assoc]
      exact classify_reserved reserved.2 isEnding
    unfold childEnding at refused
    unfold allocateChild
    dsimp only
    rw [refused]
    rfl
  · refine Or.inl ?_
    have good : GoodSegment name := goodSegment_childName _ _
    obtain ⟨url, classified, isPath⟩ :=
      parent.classify_child namesExtend good (isNameChar_of_childName _ _)
        isEnding reserved
    obtain ⟨_, isTarget, isParent, _⟩ :=
      ContainerUrl.resolve_child good.nonempty good.slashFree isEnding
        classified
    rw [← ResourceUrl.toTarget_injective isTarget] at isParent
    rw [← List.append_assoc] at classified
    by_cases taken :
        (world.guard request.agent url.toTarget).isTaken = true
    · have goodRetry : GoodSegment
          (retriedName (request.headers.str? .slug) request.draws) :=
        goodSegment_retriedName _ _
      obtain ⟨second, again, isSecond⟩ :=
        parent.classify_child namesExtend goodRetry
          (isNameChar_of_retriedName _ _) isEnding
          fun isReserved => retriedName_not_reserved _ usual isReserved.2
      obtain ⟨_, secondTarget, secondParent, _⟩ :=
        ContainerUrl.resolve_child goodRetry.nonempty goodRetry.slashFree
          isEnding again
      rw [← ResourceUrl.toTarget_injective secondTarget] at secondParent
      have contains :
          second.path =
            parent.resource.path ++ (name ++ ['-']) ++
              request.draws.retryName.text ++ childEnding request.headers := by
        rw [isSecond, retriedName]
        simp [name]
      refine ⟨second, ?_, secondParent,
        World.pairAbsent_of_fresh secondParent fresh isEnding contains⟩
      unfold childEnding at classified again
      unfold retriedName at again
      unfold allocateChild
      dsimp only
      rw [classified, Program.eval_bind_ok
        (Program.eval_ofExcept backend (.ok url.toTarget) world),
        Program.eval_bind_ok (eval_probeFor world _ _), if_pos taken, again,
        Program.eval_bind_ok
          (Program.eval_ofExcept backend (.ok second.toTarget) world),
        Program.eval_bind_ok (eval_probeFor world _ _)]
      rfl
    · refine ⟨url, ?_, isParent,
        World.pairAbsent_of_not_taken isParent (Bool.eq_false_iff.mpr taken)⟩
      unfold childEnding at classified
      unfold allocateChild
      dsimp only
      rw [classified, Program.eval_bind_ok
        (Program.eval_ofExcept backend (.ok url.toTarget) world),
        Program.eval_bind_ok (eval_probeFor world _ _), if_neg taken]
      rfl

end Settling

end Quadpod

namespace Quadpod.Reference

open AtomicProgram

theorem namesExtendIris : NamesExtendIris := by
  intro base path tail isBase _ characters isShorter
  have below := iriValid_iff.mp isShorter
  refine iriValid_iff.mpr ⟨List.mem_append_left _ below.1, ?_⟩
  intro c member
  rcases List.mem_append.mp member with inFront | inTail
  · exact below.2 c inFront
  · by_cases isUnderscore : c = '_'
    · subst isUnderscore
      decide
    · refine iriChar_of_isPlain ?_
      have isName := characters c inTail
      simp only [isNameChar, Bool.or_eq_true, beq_iff_eq] at isName
      simp only [isPlain, Bool.or_eq_true, beq_iff_eq]
      tauto

/-- A world in which nothing exists but `/note`. -/
def onlyNote : World :=
  { World.empty with
    graphs :=
      Function.update World.empty.graphs (sysGraphOf note.iri)
        (GraphStore.Graph.empty.insert (presenceMarker note.node)) }

theorem eq_note_of_present {url : ResourceUrl podSpace}
    (isPresent : onlyNote.present url.node = true) : url = note := by
  rw [World.present_iff] at isPresent
  by_cases isNote : sysGraphOf url.iri = sysGraphOf note.iri
  · exact ResourceUrl.iri_injective (sysGraphOf_injective isNote)
  · have isEmpty :
        onlyNote.graphs (sysGraphOf url.node.iri) =
          World.empty.graphs (sysGraphOf url.node.iri) :=
      Function.update_of_ne isNote _ _
    rw [isEmpty] at isPresent
    exact (GraphStore.Graph.not_mem_empty _ isPresent).elim

/-- Someone posts to the root with the name that is taken. -/
def postNote : Request where
  method := .post
  path := "/".toList
  agent := ownerAgent
  headers := [(.slug, some "note".toList)]
  body := []
  draws := { draws with retryName := repeatedUuid 1 }

theorem freshRetry_postNote : onlyNote.FreshRetry podSpace postNote := by
  intro url isPresent isInfix
  rw [eq_note_of_present isPresent] at isInfix
  have lengths := isInfix.length_le
  revert lengths
  decide

/-- The post settles beside the note. -/
theorem postNote_settles :
    ∃ url : ResourceUrl podSpace,
      Program.eval backend
          (allocateChild postNote.agent podSpace.root postNote.headers
            postNote.draws) onlyNote =
        (.ok (onlyNote.guard postNote.agent url.toTarget, url.toTarget),
          onlyNote) ∧
        url.parent = some podSpace.root ∧ onlyNote.PairAbsent url := by
  have usual : postNote.draws.retryName.Hyphenated := by
    unfold Uuid.Hyphenated
    decide
  refine (posted_child_settles namesExtendIris postNote usual
    freshRetry_postNote podSpace.root).resolve_right ?_
  rintro ⟨_, reserved, _⟩
  revert reserved
  decide

end Quadpod.Reference
