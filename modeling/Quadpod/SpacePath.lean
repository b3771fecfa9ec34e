import Quadpod.Text

namespace Quadpod

/-!
# Request paths

The checks `StorageSpace::resolve` makes on a raw path, and the normal form of
the paths that pass them: a list of names, each followed by a slash, and
optionally one last name that is not.  Parent, ancestors and the other half of a
trailing-slash pair are read off this form.
-/

/-- `AUX_SEGMENT` -/
def auxSegment : Text := ".aux".toList

/-- `WELL_KNOWN_SEGMENT` -/
def wellKnownSegment : Text := ".well-known".toList

/-- `RESERVED_SEGMENTS` -/
def reservedSegments : List Text := [auxSegment, wellKnownSegment]

/-- A segment that path normalization resolves. -/
def isDotSegment (segment : Text) : Bool :=
  segment == ".".toList || segment == "..".toList

/-- `StorageSpace::is_normalization_stable` -/
def isNormalizationStable (requestPath : Text) : Bool :=
  if requestPath.contains '#' then
    false
  else
    let rest := requestPath.drop 1
    if rest.isEmpty then
      true
    else
      let segments := Text.split '/' rest
      let initOk :=
        segments.dropLast.all fun segment =>
          !segment.isEmpty && !isDotSegment segment
      let lastOk :=
        segments.getLast?.all fun segment =>
          segment.isEmpty || !isDotSegment segment
      initOk && lastOk

/-- `StorageSpace::segment_remainder` -/
def segmentRemainder (requestPath segment : Text) : Option Text := do
  let rooted ← Text.stripPrefix ['/'] requestPath
  let rest ← Text.stripPrefix segment rooted
  if rest.isEmpty || Text.startsWith ['/'] rest then some rest else none

/-- `StorageSpace::reserved_segment` -/
def reservedSegment (requestPath : Text) : Option Text :=
  reservedSegments.find? fun segment =>
    (segmentRemainder requestPath segment).isSome

/-- The path of the parent container: up to the last slash but a final one. -/
def parentPath (path : Text) : Text :=
  ((Text.stripSuffix ['/'] path).getD path).rdropWhile (· ≠ '/')

/-! ## The normal form -/

/-- A name that can stand between two slashes of a stable path. -/
structure GoodSegment (segment : Text) : Prop where
  nonempty : segment ≠ []
  slashFree : '/' ∉ segment
  hashFree : '#' ∉ segment
  notDot : isDotSegment segment = false

/-- The container path through a list of names. -/
def containerPath (segments : List Text) : Text :=
  '/' :: segments.flatMap (· ++ ['/'])

/-- What a last name without a slash may be: nothing, for a container. -/
def GoodLeaf (leaf : Text) : Prop :=
  leaf = [] ∨ GoodSegment leaf

namespace GoodLeaf

theorem slashFree {leaf : Text} (good : GoodLeaf leaf) : '/' ∉ leaf := by
  rcases good with rfl | good
  · exact List.not_mem_nil
  · exact good.slashFree

theorem hashFree {leaf : Text} (good : GoodLeaf leaf) : '#' ∉ leaf := by
  rcases good with rfl | good
  · exact List.not_mem_nil
  · exact good.hashFree

end GoodLeaf

@[simp] theorem containerPath_nil : containerPath [] = ['/'] :=
  rfl

theorem containerPath_concat (segments : List Text) (name : Text) :
    containerPath (segments ++ [name]) =
      containerPath segments ++ name ++ ['/'] := by
  simp [containerPath]

/-- The text of a container path always ends in its last slash. -/
theorem containerPath_eq_concat (segments : List Text) :
    ∃ front, containerPath segments = front ++ ['/'] := by
  rcases List.eq_nil_or_concat segments with rfl | ⟨front, last, rfl⟩
  · exact ⟨[], rfl⟩
  · rw [List.concat_eq_append, containerPath_concat]
    exact ⟨_, rfl⟩

/-- Splitting a path in normal form gives its names back. -/
theorem split_containerPath
    {segments : List Text}
    {leaf : Text}
    (slashFree : ∀ segment ∈ segments, '/' ∉ segment)
    (leafSlashFree : '/' ∉ leaf) :
    Text.split '/' (segments.flatMap (· ++ ['/']) ++ leaf) =
      segments ++ [leaf] := by
  induction segments with
  | nil =>
      simpa using Text.split_of_not_mem leafSlashFree
  | cons segment rest inductionHypothesis =>
      have headFree := slashFree segment (by simp)
      have restFree : ∀ other ∈ rest, '/' ∉ other :=
        fun other member => slashFree other (by simp [member])
      simp only [List.flatMap_cons, List.append_assoc, List.cons_append,
        List.nil_append]
      rw [Text.split_append_cons, Text.split_of_not_mem headFree,
        inductionHypothesis restFree, List.singleton_append]

/-- A text is its pieces put back together, a slash after all but the last. -/
theorem flatMap_split (text : Text) :
    (Text.split '/' text).dropLast.flatMap (· ++ ['/']) ++
      (Text.split '/' text).getLast (Text.split_ne_nil '/' text) = text := by
  have rejoin :
      ∀ (pieces : List Text) (nonempty : pieces ≠ []),
        pieces.dropLast.flatMap (· ++ ['/']) ++ pieces.getLast nonempty =
          ['/'].intercalate pieces := by
    intro pieces nonempty
    induction pieces with
    | nil =>
        exact (nonempty rfl).elim
    | cons piece rest inductionHypothesis =>
        cases rest with
        | nil =>
            simp
        | cons next others =>
            rw [List.dropLast_cons_cons, List.flatMap_cons,
              List.getLast_cons (List.cons_ne_nil next others),
              List.append_assoc, inductionHypothesis (by simp)]
            simp [List.intercalate]
  rw [rejoin]
  exact List.intercalate_splitOn '/'

/-- Every stable path has a normal form. -/
theorem exists_segments
    {path : Text}
    (rooted : Text.startsWith ['/'] path = true)
    (stable : isNormalizationStable path = true) :
    ∃ segments leaf,
      (∀ segment ∈ segments, GoodSegment segment) ∧
        GoodLeaf leaf ∧
        path = containerPath segments ++ leaf := by
  obtain ⟨rest, rfl⟩ := Text.startsWith_iff.mp rooted
  rw [List.singleton_append] at stable ⊢
  unfold isNormalizationStable at stable
  by_cases hash : '#' ∈ '/' :: rest
  · simp [hash] at stable
  have restHash : '#' ∉ rest := fun member => hash (by simp [member])
  by_cases isRoot : rest = []
  · subst isRoot
    exact ⟨[], [], by simp, Or.inl rfl, rfl⟩
  have notHash : ('/' :: rest).contains '#' = false := by
    simpa using hash
  simp only [notHash, Bool.false_eq_true, ↓reduceIte, List.drop_succ_cons,
    List.drop_zero, List.isEmpty_iff, isRoot, Bool.and_eq_true,
    List.all_eq_true, Bool.not_eq_true'] at stable
  have hashFree :
      ∀ piece ∈ Text.split '/' rest, '#' ∉ piece := by
    intro piece member inPiece
    apply restHash
    rw [← flatMap_split rest, List.mem_append, List.mem_flatMap]
    rw [← List.dropLast_append_getLast (Text.split_ne_nil '/' rest),
      List.mem_append, List.mem_singleton] at member
    rcases member with isInit | rfl
    · exact Or.inl ⟨piece, isInit, by simp [inPiece]⟩
    · exact Or.inr inPiece
  refine ⟨(Text.split '/' rest).dropLast,
    (Text.split '/' rest).getLast (Text.split_ne_nil '/' rest), ?_, ?_, ?_⟩
  · intro segment member
    have inSplit := List.dropLast_subset _ member
    have checks := stable.1 segment member
    exact
      { nonempty := by
          rintro rfl
          simp at checks
        slashFree := Text.not_mem_of_mem_split inSplit
        hashFree := hashFree segment inSplit
        notDot := checks.2 }
  · have inSplit := List.getLast_mem (Text.split_ne_nil '/' rest)
    have checks := stable.2
    rw [List.getLast?_eq_some_getLast (Text.split_ne_nil '/' rest)] at checks
    by_cases leafEmpty :
        (Text.split '/' rest).getLast (Text.split_ne_nil '/' rest) = []
    · exact Or.inl leafEmpty
    · refine Or.inr ⟨leafEmpty, Text.not_mem_of_mem_split inSplit,
        hashFree _ inSplit, ?_⟩
      simpa [leafEmpty] using checks
  · rw [containerPath, List.cons_append, flatMap_split]

/-- A path in normal form is stable. -/
theorem isNormalizationStable_of_segments
    {segments : List Text}
    {leaf : Text}
    (good : ∀ segment ∈ segments, GoodSegment segment)
    (goodLeaf : GoodLeaf leaf) :
    isNormalizationStable (containerPath segments ++ leaf) = true := by
  have hashFree :
      '#' ∉ segments.flatMap (· ++ ['/']) ++ leaf := by
    intro member
    rw [List.mem_append, List.mem_flatMap] at member
    rcases member with ⟨segment, inSegments, inSegment⟩ | inLeaf
    · rw [List.mem_append, List.mem_singleton] at inSegment
      rcases inSegment with inName | isSlash
      · exact (good segment inSegments).hashFree inName
      · exact absurd isSlash (by decide)
    · exact goodLeaf.hashFree inLeaf
  have notHash :
      ('/' :: (segments.flatMap (· ++ ['/']) ++ leaf)).contains '#' =
        false := by
    simpa using hashFree
  have pieces :=
    split_containerPath (fun segment member => (good segment member).slashFree)
      goodLeaf.slashFree
  unfold isNormalizationStable
  rw [containerPath, List.cons_append]
  simp only [notHash, Bool.false_eq_true, ↓reduceIte, List.drop_succ_cons,
    List.drop_zero]
  split
  · rfl
  · rw [pieces, List.dropLast_concat, List.getLast?_concat]
    simp only [Bool.and_eq_true, List.all_eq_true, Option.all_some,
      Bool.not_eq_true', List.isEmpty_eq_false_iff, Bool.or_eq_true,
      List.isEmpty_iff]
    refine ⟨fun segment member => ?_, ?_⟩
    · exact ⟨(good segment member).nonempty, (good segment member).notDot⟩
    · rcases goodLeaf with leafEmpty | goodName
      · exact Or.inl leafEmpty
      · exact Or.inr goodName.notDot

/-- When a path has a remainder after a first segment. -/
theorem segmentRemainder_isSome_iff {segment text : Text} :
    (segmentRemainder ('/' :: text) segment).isSome = true ↔
      ∃ rest, text = segment ++ rest ∧ (rest = [] ∨ ['/'] <+: rest) := by
  have rooted : Text.stripPrefix ['/'] ('/' :: text) = some text :=
    Text.stripPrefix_append ['/'] text
  unfold segmentRemainder
  simp only [rooted, Option.bind_eq_bind, Option.bind_some,
    Option.isSome_iff_exists, Option.bind_eq_some_iff,
    Text.stripPrefix_eq_some]
  constructor
  · rintro ⟨result, rest, shape, kept⟩
    refine ⟨rest, shape, ?_⟩
    by_contra neither
    simp only [not_or] at neither
    simp [neither] at kept
  · rintro ⟨rest, shape, ends⟩
    exact ⟨rest, rest, shape, by simpa [or_iff_not_imp_left] using ends⟩

/-- A slash-free segment is the first one exactly when the first piece is it. -/
theorem segmentRemainder_isSome
    {segment text : Text}
    (slashFree : '/' ∉ segment) :
    (segmentRemainder ('/' :: text) segment).isSome = true ↔
      (Text.split '/' text).head? = some segment := by
  rw [segmentRemainder_isSome_iff, Text.head?_split, Option.some.injEq]
  constructor
  · rintro ⟨rest, rfl, ends⟩
    rw [List.takeWhile_append_of_pos]
    · rcases ends with rfl | ⟨others, rfl⟩
      · simp
      · simp
    · intro c member
      simpa using fun same : c = '/' => slashFree (same ▸ member)
  · intro isHead
    refine ⟨text.dropWhile (· ≠ '/'), ?_, ?_⟩
    · rw [← isHead, List.takeWhile_append_dropWhile]
    · cases remainder : text.dropWhile (· ≠ '/') with
      | nil =>
          exact Or.inl rfl
      | cons first others =>
          have stops := List.head?_dropWhile_not (· ≠ '/') text
          rw [remainder] at stops
          simp only [List.head?_cons, ne_eq, decide_not, Bool.not_eq_false',
            decide_eq_true_eq] at stops
          exact Or.inr ⟨others, by simp [stops]⟩

/-- The first name of a path in normal form, empty for the root. -/
def firstSegment (segments : List Text) (leaf : Text) : Text :=
  segments.headD leaf

/-- A path in normal form is reserved when its first name is. -/
theorem reservedSegment_eq_none_iff
    {segments : List Text}
    {leaf : Text}
    (good : ∀ segment ∈ segments, GoodSegment segment)
    (goodLeaf : GoodLeaf leaf) :
    reservedSegment (containerPath segments ++ leaf) = none ↔
      firstSegment segments leaf ∉ reservedSegments := by
  have pieces :=
    split_containerPath (fun segment member => (good segment member).slashFree)
      goodLeaf.slashFree
  have isFirst :
      ∀ segment ∈ reservedSegments,
        ((segmentRemainder (containerPath segments ++ leaf)
            segment).isSome = true ↔
          firstSegment segments leaf = segment) := by
    intro segment member
    have slashFree : '/' ∉ segment := by
      revert segment
      decide
    rw [containerPath, List.cons_append, segmentRemainder_isSome slashFree,
      pieces]
    cases segments with
    | nil =>
        simp [firstSegment]
    | cons name rest =>
        simp [firstSegment]
  unfold reservedSegment
  rw [List.find?_eq_none]
  constructor
  · intro none member
    exact none _ member ((isFirst _ member).mpr rfl)
  · intro notReserved segment member found
    apply notReserved
    rw [(isFirst segment member).mp found]
    exact member

/-! ## Parents and pairs in normal form -/

/-- The parent of a path that ends in a name is the container before it. -/
theorem parentPath_leaf
    {segments : List Text}
    {leaf : Text}
    (nonempty : leaf ≠ [])
    (slashFree : '/' ∉ leaf) :
    parentPath (containerPath segments ++ leaf) =
      containerPath segments := by
  obtain ⟨front, shape⟩ := containerPath_eq_concat segments
  have notSlash : ¬ ['/'] <:+ containerPath segments ++ leaf := by
    rintro ⟨rest, ends⟩
    rcases List.eq_nil_or_concat leaf with isNil | ⟨start, last, isConcat⟩
    · exact nonempty isNil
    · rw [isConcat, List.concat_eq_append, ← List.append_assoc] at ends
      have lastSlash := (List.append_inj' ends rfl).2
      rw [List.singleton_inj] at lastSlash
      apply slashFree
      simp [isConcat, ← lastSlash]
  unfold parentPath
  rw [Text.stripSuffix_eq_none.mpr notSlash, Option.getD_none, shape,
    List.append_assoc, List.singleton_append,
    Text.rdropWhile_ne_append_cons slashFree]

/-- The parent of a container is the container before its last name. -/
theorem parentPath_container
    {segments : List Text}
    {name : Text}
    (slashFree : '/' ∉ name) :
    parentPath (containerPath (segments ++ [name])) =
      containerPath segments := by
  obtain ⟨front, shape⟩ := containerPath_eq_concat segments
  unfold parentPath
  rw [containerPath_concat, Text.stripSuffix_append, Option.getD_some, shape,
    List.append_assoc, List.singleton_append,
    Text.rdropWhile_ne_append_cons slashFree]

/-! ## Addressable paths -/

/-- What `resolve` has checked of every path in the resource space. -/
structure Addressable (path : Text) : Prop where
  rooted : Text.startsWith ['/'] path = true
  stable : isNormalizationStable path = true
  unreserved : reservedSegment path = none

namespace Addressable

variable {path : Text}

/-- The names of an addressable path. -/
theorem exists_normalForm (addressable : Addressable path) :
    ∃ segments leaf,
      (∀ segment ∈ segments, GoodSegment segment) ∧
        GoodLeaf leaf ∧
        firstSegment segments leaf ∉ reservedSegments ∧
        path = containerPath segments ++ leaf := by
  obtain ⟨segments, leaf, good, goodLeaf, rfl⟩ :=
    exists_segments addressable.rooted addressable.stable
  exact ⟨segments, leaf, good, goodLeaf,
    (reservedSegment_eq_none_iff good goodLeaf).mp addressable.unreserved,
    rfl⟩

/-- Names none of which is reserved in first place form an addressable path. -/
theorem of_normalForm
    {segments : List Text}
    {leaf : Text}
    (good : ∀ segment ∈ segments, GoodSegment segment)
    (goodLeaf : GoodLeaf leaf)
    (notReserved : firstSegment segments leaf ∉ reservedSegments) :
    Addressable (containerPath segments ++ leaf) where
  rooted := by simp [containerPath]
  stable := isNormalizationStable_of_segments good goodLeaf
  unreserved := (reservedSegment_eq_none_iff good goodLeaf).mpr notReserved

/-- The root, a container below another one, or a leaf in a container. -/
theorem cases_normalForm (addressable : Addressable path) :
    path = ['/'] ∨
      ∃ segments name,
        (∀ segment ∈ segments, GoodSegment segment) ∧
          GoodSegment name ∧
          firstSegment segments name ∉ reservedSegments ∧
          (path = containerPath segments ++ name ∨
            path = containerPath (segments ++ [name])) := by
  obtain ⟨segments, leaf, good, goodLeaf, notReserved, shape⟩ :=
    addressable.exists_normalForm
  rcases goodLeaf with rfl | goodName
  · rcases List.eq_nil_or_concat segments with rfl | ⟨front, last, rfl⟩
    · exact Or.inl (by simpa using shape)
    · rw [List.concat_eq_append] at good notReserved shape
      refine Or.inr ⟨front, last, ?_, good last (by simp), ?_, ?_⟩
      · intro segment member
        exact good segment (by simp [member])
      · cases front with
        | nil =>
            simpa [firstSegment] using notReserved
        | cons first rest =>
            simpa [firstSegment] using notReserved
      · exact Or.inr (by simpa using shape)
  · exact Or.inr ⟨segments, leaf, good, goodName, notReserved, Or.inl shape⟩

/-- The containers on the way to a name are addressable with it. -/
theorem of_container
    {segments : List Text}
    {name : Text}
    (good : ∀ segment ∈ segments, GoodSegment segment)
    (notReserved : firstSegment segments name ∉ reservedSegments) :
    Addressable (containerPath segments) := by
  have start : firstSegment segments [] ∉ reservedSegments := by
    cases segments with
    | nil =>
        decide
    | cons first rest =>
        simpa [firstSegment] using notReserved
  simpa using of_normalForm good (Or.inl rfl) start

/-- Both halves of a trailing-slash pair are addressable together. -/
theorem of_pair
    {segments : List Text}
    {name : Text}
    (good : ∀ segment ∈ segments, GoodSegment segment)
    (goodName : GoodSegment name)
    (notReserved : firstSegment segments name ∉ reservedSegments) :
    Addressable (containerPath segments ++ name) ∧
      Addressable (containerPath (segments ++ [name])) := by
  refine ⟨of_normalForm good (Or.inr goodName) notReserved, ?_⟩
  have allGood : ∀ segment ∈ segments ++ [name], GoodSegment segment := by
    intro segment member
    rw [List.mem_append, List.mem_singleton] at member
    rcases member with inFront | rfl
    · exact good segment inFront
    · exact goodName
  have start : firstSegment (segments ++ [name]) [] ∉ reservedSegments := by
    cases segments with
    | nil =>
        simpa [firstSegment] using notReserved
    | cons first rest =>
        simpa [firstSegment] using notReserved
  simpa using of_normalForm allGood (Or.inl rfl) start

/-- The root is addressable. -/
theorem root : Addressable ['/'] :=
  ⟨by decide, by decide, by decide⟩

/-- The parent of an addressable path is addressable. -/
theorem parent
    (addressable : Addressable path) (notRoot : path ≠ ['/']) :
    Addressable (parentPath path) := by
  rcases addressable.cases_normalForm with
      isRoot | ⟨segments, name, good, goodName, notReserved, shape⟩
  · exact (notRoot isRoot).elim
  · rcases shape with rfl | rfl
    · rw [parentPath_leaf goodName.nonempty goodName.slashFree]
      exact of_container good notReserved
    · rw [parentPath_container goodName.slashFree]
      exact of_container good notReserved

/-- Removing the final slash of a container other than the root. -/
theorem withoutSlash
    {stripped : Text}
    (addressable : Addressable path)
    (strips : Text.stripSuffix ['/'] path = some stripped)
    (notRoot : stripped ≠ []) :
    Addressable stripped := by
  have ends := Text.stripSuffix_eq_some.mp strips
  rcases addressable.cases_normalForm with
      rfl | ⟨segments, name, good, goodName, notReserved, shape⟩
  · have empty : [] ++ ['/'] = stripped ++ ['/'] := ends
    exact (notRoot (List.append_cancel_right empty).symm).elim
  · rcases shape with rfl | rfl
    · rcases List.eq_nil_or_concat name with isNil | ⟨front, last, isConcat⟩
      · exact (goodName.nonempty isNil).elim
      · rw [isConcat, List.concat_eq_append, ← List.append_assoc] at ends
        have lastSlash := (List.append_inj' ends rfl).2
        rw [List.singleton_inj] at lastSlash
        exact (goodName.slashFree (by simp [isConcat, lastSlash])).elim
    · rw [containerPath_concat] at ends
      rw [← List.append_cancel_right ends]
      exact (of_pair good goodName notReserved).1

/-- Adding a slash to a path that has none at its end. -/
theorem withSlash
    (addressable : Addressable path)
    (noSlash : Text.stripSuffix ['/'] path = none) :
    Addressable (path ++ ['/']) := by
  rcases addressable.cases_normalForm with
      rfl | ⟨segments, name, good, goodName, notReserved, shape⟩
  · cases noSlash
  · rcases shape with rfl | rfl
    · rw [← containerPath_concat]
      exact (of_pair good goodName notReserved).2
    · rw [containerPath_concat, Text.stripSuffix_append] at noSlash
      cases noSlash

/-- A name is followed by at most one slash. -/
theorem not_endsWith_of_slash
    (addressable : Addressable (path ++ ['/'])) :
    ¬ ['/'] <:+ path := by
  rintro ⟨front, rfl⟩
  rcases addressable.cases_normalForm with
      isRoot | ⟨segments, name, good, goodName, notReserved, shape⟩
  · have twoSlashes := congrArg List.length isRoot
    simp at twoSlashes
  · have notLast : ∀ text, name ≠ text ++ ['/'] := by
      rintro text rfl
      exact goodName.slashFree (by simp)
    rcases List.eq_nil_or_concat name with isNil | ⟨start, last, isConcat⟩
    · exact goodName.nonempty isNil
    rw [List.concat_eq_append] at isConcat
    rcases shape with shape | shape
    · rw [isConcat, ← List.append_assoc] at shape
      have lastSlash := (List.append_inj' shape rfl).2
      rw [List.singleton_inj] at lastSlash
      exact notLast start (by rw [isConcat, lastSlash])
    · rw [containerPath_concat] at shape
      have inner := List.append_cancel_right shape
      rw [isConcat, ← List.append_assoc] at inner
      have lastSlash := (List.append_inj' inner rfl).2
      rw [List.singleton_inj] at lastSlash
      exact notLast start (by rw [isConcat, lastSlash])

/-- A parent path is shorter. -/
theorem length_parentPath
    (addressable : Addressable path) (notRoot : path ≠ ['/']) :
    (parentPath path).length < path.length := by
  rcases addressable.cases_normalForm with
      isRoot | ⟨segments, name, good, goodName, notReserved, shape⟩
  · exact (notRoot isRoot).elim
  · have nonempty := List.length_pos_of_ne_nil goodName.nonempty
    rcases shape with rfl | rfl
    · rw [parentPath_leaf goodName.nonempty goodName.slashFree,
        List.length_append]
      omega
    · rw [parentPath_container goodName.slashFree, containerPath_concat]
      simp only [List.length_append]
      omega

end Addressable

end Quadpod
