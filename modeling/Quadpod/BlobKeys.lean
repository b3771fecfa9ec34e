import Quadpod.ContainmentCoherence

namespace Quadpod

open AtomicProgram
open GraphStore

/-!
# The keys of stored objects

The key of a binary is its path, encoded segment by segment, so no two resources
share one.  That no key lies below another, as a directory lies above a file, is
no property of paths: a leaf `/a` and a leaf `/a/b` are both addressable.  It
holds of what is stored, because an object belongs to a leaf that exists, every
container above that leaf exists, and no leaf exists beside its container.
-/

variable [IriSyntax] [ObjectPath] {space : StorageSpace}

/--
A segment that is encoded without an escape is encoded as itself: what
`object_store` replaces in a segment it replaces by a percent escape.
-/
def ObjectPath.EscapesVisibly : Prop :=
  ∀ segment,
    '%' ∉ ObjectPath.encode segment → ObjectPath.encode segment = segment

/-- One key lies above another, as a directory lies above a file. -/
def BlobKey.Above (first second : BlobKey) : Prop :=
  first.path ++ ['/'] <+: second.path

/-! ## Keys and paths -/

omit [IriSyntax] [ObjectPath] in
/-- A text is known by its pieces. -/
theorem Text.split_injective (separator : Char) :
    Function.Injective (Text.split separator) := by
  intro first second same
  have rejoined :=
    congrArg (fun pieces => [separator].intercalate pieces) same
  simpa only [Text.split, List.intercalate_splitOn] using rejoined

/-- The key of a leaf is its path without the first slash, encoded. -/
theorem BlobKey.split_of_leaf
    {url : ResourceUrl space} {key : BlobKey}
    (leaf : Text.endsWith ['/'] url.path = false)
    (keyed : BlobKey.of url = some key) :
    ∃ relative,
      url.path = '/' :: relative ∧
        Text.split '/' key.path =
          (Text.split '/' relative).map ObjectPath.encode := by
  obtain ⟨relative, shape, ⟨rfl, _⟩ | ⟨_, splits⟩⟩ := of_eq_some keyed
  · rw [shape] at leaf
    cases leaf
  · exact ⟨relative, shape, splits⟩

omit [ObjectPath] in
/-- The names in the path of a leaf. -/
theorem ResourceUrl.goodSegment_of_leaf
    {url : ResourceUrl space} {relative name : Text}
    (leaf : Text.endsWith ['/'] url.path = false)
    (shape : url.path = '/' :: relative)
    (member : name ∈ Text.split '/' relative) :
    GoodSegment name := by
  obtain ⟨segments, last, good, goodLeaf, _, normal⟩ :=
    url.addressable.exists_normalForm
  have slashFree : ∀ segment ∈ segments, '/' ∉ segment :=
    fun segment isSegment => (good segment isSegment).slashFree
  have isRelative : relative = segments.flatMap (· ++ ['/']) ++ last := by
    rw [shape, containerPath, List.cons_append, List.cons.injEq] at normal
    exact normal.2
  rw [isRelative, split_containerPath slashFree goodLeaf.slashFree] at member
  rcases List.mem_append.mp member with isSegment | isLast
  · exact good name isSegment
  · rw [List.mem_singleton.mp isLast]
    rcases goodLeaf with rfl | goodName
    · rw [normal, List.append_nil] at leaf
      obtain ⟨front, ends⟩ := containerPath_eq_concat segments
      rw [ends] at leaf
      have isSlash : Text.endsWith ['/'] (front ++ ['/']) = true :=
        Text.endsWith_iff.mpr (List.suffix_append _ _)
      rw [isSlash] at leaf
      cases leaf
    · exact goodName

/-- No segment of a key is empty or relative. -/
theorem BlobKey.segment_of_leaf
    (escapes : ObjectPath.EscapesVisibly)
    {url : ResourceUrl space} {key : BlobKey} {segment : Text}
    (leaf : Text.endsWith ['/'] url.path = false)
    (keyed : BlobKey.of url = some key)
    (member : segment ∈ Text.split '/' key.path) :
    segment ≠ [] ∧ isDotSegment segment = false := by
  obtain ⟨relative, shape, splits⟩ := split_of_leaf leaf keyed
  rw [splits] at member
  obtain ⟨name, isName, rfl⟩ := List.mem_map.mp member
  have good := url.goodSegment_of_leaf leaf shape isName
  refine ⟨ObjectPath.encode_ne_nil good.nonempty, ?_⟩
  cases isDot : isDotSegment (ObjectPath.encode name) with
  | false =>
      rfl
  | true =>
      have unescaped : '%' ∉ ObjectPath.encode name := by
        simp only [isDotSegment, Bool.or_eq_true, beq_iff_eq] at isDot
        rcases isDot with isOne | isTwo
        · rw [isOne]
          decide
        · rw [isTwo]
          decide
      rw [escapes name unescaped, good.notDot] at isDot
      cases isDot

/-- A key above another is the key of a path above the other's. -/
theorem BlobKey.Above.path
    {first second : ResourceUrl space} {firstKey secondKey : BlobKey}
    (above : firstKey.Above secondKey)
    (firstLeaf : Text.endsWith ['/'] first.path = false)
    (secondLeaf : Text.endsWith ['/'] second.path = false)
    (firstKeyed : BlobKey.of first = some firstKey)
    (secondKeyed : BlobKey.of second = some secondKey) :
    first.path ++ ['/'] <+: second.path := by
  obtain ⟨firstPath, firstShape, firstSplit⟩ :=
    split_of_leaf firstLeaf firstKeyed
  obtain ⟨secondPath, secondShape, secondSplit⟩ :=
    split_of_leaf secondLeaf secondKeyed
  obtain ⟨rest, joined⟩ := above
  rw [List.append_assoc, List.singleton_append] at joined
  rw [← joined, Text.split_append_cons, firstSplit] at secondSplit
  obtain ⟨front, back, isSplit, isFront, isBack⟩ :=
    List.map_eq_append_iff.mp secondSplit.symm
  have sameFront : front = Text.split '/' firstPath :=
    List.map_injective_iff.mpr ObjectPath.injective isFront
  have nonempty : back ≠ [] := by
    rintro rfl
    exact Text.split_ne_nil '/' rest isBack.symm
  have slashFree : ∀ piece ∈ back, '/' ∉ piece := by
    intro piece member
    have inSplit : piece ∈ Text.split '/' secondPath := by
      rw [isSplit]
      exact List.mem_append_right _ member
    exact Text.not_mem_of_mem_split inSplit
  have rejoined :
      secondPath = firstPath ++ '/' :: ['/'].intercalate back := by
    apply Text.split_injective '/'
    have split :
        Text.split '/' (['/'].intercalate back) = back :=
      List.splitOn_intercalate '/' slashFree nonempty
    rw [Text.split_append_cons, split, isSplit, sameFront]
  refine ⟨['/'].intercalate back, ?_⟩
  rw [firstShape, secondShape, rejoined]
  simp

/-! ## Containers above -/

omit [IriSyntax] [ObjectPath] in
/-- Taking the last segment away keeps what ends in a slash before it. -/
theorem lt_parentPath_of_prefix
    {front path : Text}
    (above : front ++ ['/'] <+: path)
    (notWhole : front ++ ['/'] ≠ path) :
    front ++ ['/'] <+: parentPath path := by
  have keeps (rest : Text) :
      front ++ ['/'] <+:
        (front ++ '/' :: rest).rdropWhile (· ≠ '/') := by
    induction rest using List.reverseRecOn with
    | nil =>
        rw [List.rdropWhile_concat_neg _ _ _ (by simp)]
    | append_singleton rest last inductionHypothesis =>
        rw [← List.cons_append, ← List.append_assoc]
        by_cases isSlash : last = '/'
        · rw [List.rdropWhile_concat_neg _ _ _ (by simp [isSlash]),
            List.append_assoc]
          exact ⟨rest ++ [last], by simp⟩
        · rw [List.rdropWhile_concat_pos _ _ _ (by simp [isSlash])]
          exact inductionHypothesis
  obtain ⟨rest, rfl⟩ := above
  rcases List.eq_nil_or_concat rest with rfl | ⟨start, last, rfl⟩
  · exact (notWhole (List.append_nil _).symm).elim
  · rw [List.concat_eq_append, List.append_assoc, List.singleton_append]
    unfold parentPath
    cases stripped : Text.stripSuffix ['/'] (front ++ '/' :: (start ++ [last])) with
    | none =>
        exact keeps (start ++ [last])
    | some kept =>
        have shape := Text.stripSuffix_eq_some.mp stripped
        rw [← List.cons_append, ← List.append_assoc] at shape
        rw [Option.getD_some, ← (List.append_inj' shape rfl).1]
        exact keeps start

section Existence

variable {world : World}

omit [ObjectPath] in
/-- Whatever exists has every container above it. -/
theorem exists_container_above
    (coherent :
      ContainmentTree.Coherent (containmentShape space)
        (world.listing space))
    {front : Text} {url : ResourceUrl space}
    (isPresent : world.present url.node = true)
    (above : front ++ ['/'] <+: url.path) :
    ∃ container : ResourceUrl space,
      container.path = front ++ ['/'] ∧
        world.present container.node = true := by
  induction length : url.path.length using Nat.strongRecOn
    generalizing url with
  | ind length inductionHypothesis =>
      by_cases isWhole : front ++ ['/'] = url.path
      · exact ⟨url, isWhole.symm, isPresent⟩
      · have isAbove := lt_parentPath_of_prefix above isWhole
        cases isParent : url.parent with
        | none =>
            rw [ResourceUrl.parent_eq_none.mp isParent] at above isWhole
            refine (isWhole (above.eq_of_length_le ?_)).elim
            simp
        | some container =>
            have samePath := (ResourceUrl.parent_eq_some.mp isParent).2
            have parentPresent :
                world.present container.resource.node = true :=
              (coherent.listed url container.resource isPresent
                (by simp [containmentShape, isParent])).1
            refine inductionHypothesis _ ?_ parentPresent ?_ rfl
            · rw [← length]
              exact ResourceUrl.length_parent isParent
            · rw [samePath]
              exact isAbove

end Existence

/-! ## What is stored -/

/-- Every object belongs to a leaf that exists. -/
def World.ObjectsOwned (world : World) (space : StorageSpace) : Prop :=
  ∀ key,
    world.blobs key ≠ none →
    ∃ url : ResourceUrl space,
      Text.endsWith ['/'] url.path = false ∧
        BlobKey.of url = some key ∧
        world.present url.node = true

omit [ObjectPath] in
/-- An object is put by a call that puts it. -/
theorem stored_of_performs
    {mayFail : Prop} {world reached : World} {calls : List Call}
    {key : BlobKey}
    (performs : backend.Performs mayFail world calls reached)
    (stored : reached.blobs key ≠ none) :
    world.blobs key ≠ none ∨ ∃ bytes, Call.blobPut key bytes ∈ calls := by
  refine performs.invariant
    (fun middle =>
      middle.blobs key ≠ none →
      world.blobs key ≠ none ∨ ∃ bytes, Call.blobPut key bytes ∈ calls)
    Or.inl ?_ stored
  intro middle call member before isStored
  rw [backend_blobs] at isStored
  cases call with
  | blobPut other bytes =>
      by_cases isKey : key = other
      · subst isKey
        exact Or.inr ⟨bytes, member⟩
      · refine before ?_
        rwa [Call.objects, Function.update_of_ne isKey] at isStored
  | blobDelete other =>
      by_cases isKey : key = other
      · subst isKey
        rw [Call.objects, Function.update_self] at isStored
        exact (isStored rfl).elim
      · refine before ?_
        rwa [Call.objects, Function.update_of_ne isKey] at isStored
  | _ =>
      exact before isStored

section Writes

variable [Sha256] {mayFail : Prop}

/-- Only the write of a binary puts an object. -/
theorem StorageWrite.eq_blob_of_puts
    {world : World} {write : StorageWrite space} {key : BlobKey}
    {bytes : Bytes}
    (member : Call.blobPut key bytes ∈ write.calls world) :
    ∃ url mediaType, write = .blob url key bytes mediaType := by
  cases write with
  | dataset url body mediaType =>
      simp [calls, deleteBlobCalls] at member
  | blob url other otherBytes mediaType =>
      simp [calls] at member
      obtain ⟨rfl, rfl⟩ := member
      exact ⟨url, mediaType, rfl⟩
  | container url triples =>
      simp [calls, ensureCall] at member
  | auxiliary url triples =>
      simp [calls] at member
  | patch target change =>
      cases target with
      | container url =>
          simp [calls, ensureCall, modifyCall] at member
      | resource url leaf =>
          simp [calls, modifyCall] at member
      | aux url =>
          simp [calls, modifyCall] at member
  | deleteAuxiliary url =>
      simp [calls] at member
  | deleteSubject url =>
      simp [calls, deleteBlobCalls] at member
  | nothing =>
      cases member

/-- A plan and a write of a binary store the object of what they mark. -/
theorem Staged.stored
    {world reached : World}
    {plan : List (ContainerUrl space × Option NamedNode)}
    {admits : World → StorageWrite space → Prop}
    {key : BlobKey}
    (staged : Staged False world plan admits reached)
    (leaves :
      ∀ started url given bytes mediaType,
        admits started (.blob url given bytes mediaType) →
        Text.endsWith ['/'] url.path = false ∧ BlobKey.of url = some given)
    (stored : reached.blobs key ≠ none) :
    world.blobs key ≠ none ∨
      ∃ url : ResourceUrl space,
        Text.endsWith ['/'] url.path = false ∧
          BlobKey.of url = some key ∧
          reached.present url.node = true := by
  have planned :
      (backend.after world (planCalls plan)).blobs key =
        world.blobs key := by
    have performs :
        backend.Performs False world (planCalls plan)
          (backend.after world (planCalls plan)) :=
      backend.performs_all world _
    refine Performs.blobs_eq performs fun call member isKey => ?_
    rw [keys_planCalls member] at isKey
    cases isKey
  rcases staged with ⟨impossible, _⟩ | ⟨write, admitted, performs⟩
  · exact impossible.elim
  · rcases stored_of_performs performs stored with old | ⟨bytes, member⟩
    · rw [planned] at old
      exact Or.inl old
    · obtain ⟨url, mediaType, rfl⟩ := StorageWrite.eq_blob_of_puts member
      obtain ⟨leaf, keyed⟩ := leaves _ _ _ _ _ admitted
      refine Or.inr ⟨url, leaf, keyed, ?_⟩
      rw [performs.eq_after not_false]
      exact present_after_blob _ url key bytes mediaType

omit [Sha256] in
theorem BodyWrite.leaf_of_blob
    {fresh : Nat → Uuid} {kept : List Triple} {repr : Repr}
    {target : Target space} {url : ResourceUrl space} {key : BlobKey}
    {bytes : Bytes} {mediaType : MediaType}
    (isWrite :
      BodyWrite fresh kept repr target (.blob url key bytes mediaType)) :
    Text.endsWith ['/'] url.path = false ∧ BlobKey.of url = some key := by
  cases isWrite with
  | blob url leaf key bytes mediaType keyed =>
      exact ⟨leaf, keyed⟩

/-- Deleting a subject deletes its object. -/
theorem not_stored_after_deleteSubject
    {world reached : World} {url : ResourceUrl space} {key : BlobKey}
    (keyed : BlobKey.of url = some key)
    (performs :
      backend.Performs False world
        ((StorageWrite.deleteSubject url).calls world) reached) :
    reached.blobs key = none := by
  rw [performs.eq_after not_false]
  simp [StorageWrite.calls, deleteBlobCalls, keyed, Machine.after,
    Call.objects]

section Requests

variable [RdfParser] [N3Parser] {storeVersion : RdfVersion}
variable {world reached : World} {request : Request} {target : Target space}

/-- A request stores no object but that of a leaf it marks. -/
theorem RequestEffect.stored
    {key : BlobKey}
    (effect : RequestEffect False storeVersion world request target reached)
    (stored : reached.blobs key ≠ none) :
    world.blobs key ≠ none ∨
      ∃ url : ResourceUrl space,
        Text.endsWith ['/'] url.path = false ∧
          BlobKey.of url = some key ∧
          reached.present url.node = true := by
  have unput {write : StorageWrite space}
      (performs :
        backend.Performs False world (write.calls world) reached)
      (notBlob :
        ∀ url bytes mediaType, write ≠ .blob url key bytes mediaType) :
      world.blobs key ≠ none := by
    rcases stored_of_performs performs stored with old | ⟨bytes, member⟩
    · exact old
    · obtain ⟨url, mediaType, isBlob⟩ := StorageWrite.eq_blob_of_puts member
      exact (notBlob url bytes mediaType isBlob).elim
  cases effect with
  | unchanged =>
      exact Or.inl stored
  | put isPut authorized walked staged =>
      refine staged.stored ?_ stored
      rintro started url given bytes mediaType ⟨repr, _, isWrite⟩
      exact isWrite.leaf_of_blob
  | post isPost onContainer authorized allocated walked staged =>
      refine staged.stored ?_ stored
      rintro started url given bytes mediaType ⟨repr, _, isWrite⟩
      exact isWrite.leaf_of_blob
  | create isPatch authorized parsed granted absent contained ground walked
        staged =>
      refine staged.stored ?_ stored
      rintro started url given bytes mediaType isWrite
      cases isWrite
  | patch isPatch authorized parsed granted targetPresent contained changes
        performs =>
      exact Or.inl (unput performs fun _ _ _ isBlob => by cases isBlob)
  | deleteAux isDelete onAux authorized performs =>
      exact Or.inl (unput performs fun _ _ _ isBlob => by cases isBlob)
  | deleteSubject isDelete notAux authorized parentAuthorized auxAuthorized
        unused performs =>
      exact Or.inl (unput performs fun _ _ _ isBlob => by cases isBlob)

/-- What a request deletes leaves no object. -/
theorem RequestEffect.not_stored_of_deletes
    {key : BlobKey}
    (effect : RequestEffect False storeVersion world request target reached)
    (owned : world.RegistersOwn space)
    (isDelete : request.method = .delete)
    (isPresent : world.present target.subject.node = true)
    (isGone : reached.present target.subject.node = false)
    (keyed : BlobKey.of target.subject = some key) :
    reached.blobs key = none := by
  cases effect with
  | unchanged =>
      rw [isPresent] at isGone
      cases isGone
  | put isPut authorized walked staged =>
      rw [isDelete] at isPut
      cases isPut
  | post isPost onContainer authorized allocated walked staged =>
      rw [isDelete] at isPost
      cases isPost
  | create isPatch authorized parsed granted absent contained ground walked
        staged =>
      rw [isDelete] at isPatch
      cases isPatch
  | patch isPatch authorized parsed granted targetPresent contained changes
        performs =>
      rw [isDelete] at isPatch
      cases isPatch
  | @deleteAux decision url _ isDelete onAux authorized performs =>
      have neutral :
          (StorageWrite.deleteAuxiliary url).Neutral world reached :=
        StorageWrite.neutral_of_untouched owned performs rfl fun other =>
          url.not_owns_resource other
      rw [(neutral.present target.subject).mpr (Or.inl isPresent)] at isGone
      cases isGone
  | deleteSubject isDelete notAux authorized parentAuthorized auxAuthorized
        unused performs =>
      exact not_stored_after_deleteSubject keyed performs

theorem RequestEffect.objectsOwned
    (effect : RequestEffect False storeVersion world request target reached)
    (owned : world.RegistersOwn space)
    (coherent :
      ContainmentTree.Coherent (containmentShape space)
        (world.listing space))
    (fresh : world.FreshRetry space request)
    (objects : world.ObjectsOwned space) :
    reached.ObjectsOwned space := by
  intro key stored
  rcases effect.stored stored with old | new
  · obtain ⟨url, leaf, keyed, isPresent⟩ := objects key old
    refine ⟨url, leaf, keyed, ?_⟩
    rcases effect.listing owned coherent fresh with
        ⟨created, _, creates⟩ | ⟨isDelete, deletes⟩
    · exact (creates.present url).mpr (Or.inl isPresent)
    · refine (deletes.present url).mpr ⟨isPresent, ?_⟩
      rintro rfl
      have isGone : reached.present target.subject.node = false := by
        cases isThere : reached.present target.subject.node with
        | false =>
            rfl
        | true =>
            exact (((deletes.present target.subject).mp isThere).2 rfl).elim
      exact stored (effect.not_stored_of_deletes owned isDelete isPresent
        isGone keyed)
  · exact new

end Requests

end Writes

/-! ## Runs -/

section Reachable

variable [Sha256] [QuadText]
variable [RdfParser] [RdfSerializer] [ShapeEngine] [N3Parser]
variable {storeVersion : RdfVersion} {world : World}

omit [QuadText] [RdfSerializer] [ShapeEngine] [N3Parser] in
/-- A provisioned pod stores no object. -/
theorem Provisioned.objectsOwned (provisioned : Provisioned space world) :
    world.ObjectsOwned space := by
  have unstored : ∀ key, world.blobs key = none := by
    refine provisioned.invariant (fun world => ∀ key, world.blobs key = none)
      (fun _ => rfl) ?_
    rintro world call (rfl | ⟨fresh, triples, _, member⟩) before key
    · exact before key
    · obtain rfl := List.mem_singleton.mp member
      exact before key
  intro key stored
  exact (stored (unstored key)).elim

/-- Every object of a reachable world belongs to a leaf that exists. -/
theorem Reachable.objectsOwned
    (reachable :
      Reachable space storeVersion (Provisioned space)
        (answeredRequest space) world) :
    world.ObjectsOwned space := by
  have both :
      world.RegistersOwn space ∧
        ContainmentTree.Coherent (containmentShape space)
          (world.listing space) ∧
        world.ObjectsOwned space := by
    refine reachable.invariant
      (fun world =>
        world.RegistersOwn space ∧
          ContainmentTree.Coherent (containmentShape space)
            (world.listing space) ∧
          world.ObjectsOwned space) ?_ ?_
    · intro world provisioned
      exact ⟨provisioned.registersOwn, provisioned.coherent,
        provisioned.objectsOwned⟩
    · rintro world request faults ⟨owned, coherent, objects⟩ answered
      refine ⟨registersOwn_afterRequest request faults owned,
        coherent_afterRequest owned coherent answered, ?_⟩
      rcases afterRequest_cases False (Or.inr answered.1) with
          same | ⟨target, _, effect⟩
      · rw [same]
        exact objects
      · exact effect.objectsOwned owned coherent answered.2 objects
  exact both.2.2

/--
Distinct leaves have distinct keys, no key has an empty or relative segment, and
in every world a provisioned pod reaches by requests whose store calls are all
answered no stored object lies above another.
-/
theorem blobKeys_injective_and_flat
    (escapes : ObjectPath.EscapesVisibly) :
    (∀ (first second : ResourceUrl space) (firstKey secondKey : BlobKey),
        Text.endsWith ['/'] first.path = false →
        Text.endsWith ['/'] second.path = false →
        BlobKey.of first = some firstKey →
        BlobKey.of second = some secondKey →
        first ≠ second →
        firstKey ≠ secondKey) ∧
      (∀ (url : ResourceUrl space) (key : BlobKey),
        Text.endsWith ['/'] url.path = false →
        BlobKey.of url = some key →
        ∀ segment ∈ Text.split '/' key.path,
          segment ≠ [] ∧
            segment ≠ ".".toList ∧
            segment ≠ "..".toList) ∧
      (∀ world,
        Reachable space storeVersion (Provisioned space)
          (answeredRequest space) world →
        ∀ first second : BlobKey,
          world.blobs first ≠ none →
          world.blobs second ≠ none →
          ¬ first.Above second) := by
  refine ⟨?_, ?_, ?_⟩
  · rintro first second firstKey secondKey _ _ firstKeyed secondKeyed distinct
      rfl
    exact distinct (BlobKey.of_injective firstKeyed secondKeyed)
  · intro url key leaf keyed segment member
    obtain ⟨nonempty, notDot⟩ :=
      BlobKey.segment_of_leaf escapes leaf keyed member
    simp only [isDotSegment, Bool.or_eq_false_iff, beq_eq_false_iff_ne]
      at notDot
    exact ⟨nonempty, notDot⟩
  · intro world reachable firstKey secondKey firstStored secondStored above
    obtain ⟨first, firstLeaf, firstKeyed, firstPresent⟩ :=
      reachable.objectsOwned firstKey firstStored
    obtain ⟨second, secondLeaf, secondKeyed, secondPresent⟩ :=
      reachable.objectsOwned secondKey secondStored
    obtain ⟨container, pair, containerPresent⟩ :=
      exists_container_above reachable.coherent secondPresent
        (above.path firstLeaf secondLeaf firstKeyed secondKeyed)
    exact reachable.noSlashPair first container pair
      ⟨firstPresent, containerPresent⟩

end Reachable

end Quadpod

namespace Quadpod.Reference

/-- The owner stores three bytes. -/
def putBytes : Request where
  method := .put
  path := "/note".toList
  agent := ownerAgent
  headers := [(.contentType, some "text/plain".toList)]
  body := [1, 2, 3]
  draws := draws

/-- The world after the bytes were stored. -/
def bytesWorld : World :=
  afterRequest podSpace .rdf12 putBytes [] freshWorld

theorem escapesVisibly : ObjectPath.EscapesVisibly := by
  intro segment unescaped
  change segment.flatMap encodeChar = segment
  change '%' ∉ segment.flatMap encodeChar at unescaped
  induction segment with
  | nil =>
      rfl
  | cons c rest inductionHypothesis =>
      rw [List.flatMap_cons, List.mem_append, not_or] at unescaped
      rw [List.flatMap_cons, inductionHypothesis unescaped.2]
      have unchanged : encodeChar c = [c] := by
        unfold encodeChar at unescaped ⊢
        split at unescaped
        · exact (unescaped.1 (by simp)).elim
        · split at unescaped
          · exact (unescaped.1 (by simp)).elim
          · simp [*]
      rw [unchanged]
      rfl

theorem answeredRequest_putBytes :
    answeredRequest podSpace freshWorld putBytes [] := by
  refine ⟨by simp, ?_⟩
  intro url isPresent
  rw [provisioned_freshWorld.present_root isPresent]
  decide

/-- A pod in which an object is stored. -/
theorem blobKeys_flat_bytesWorld :
    bytesWorld.blobs ⟨"note".toList⟩ = some [1, 2, 3] ∧
      ∀ other : BlobKey,
        bytesWorld.blobs other ≠ none →
        ¬ BlobKey.Above ⟨"note".toList⟩ other := by
  have stored : bytesWorld.blobs ⟨"note".toList⟩ = some [1, 2, 3] := by
    decide +kernel
  have reachable :
      Reachable podSpace .rdf12 (Provisioned podSpace)
        (answeredRequest podSpace) bytesWorld :=
    .request freshWorld putBytes []
      (.start freshWorld provisioned_freshWorld) answeredRequest_putBytes
  refine ⟨stored, fun other otherStored => ?_⟩
  refine (blobKeys_injective_and_flat escapesVisibly).2.2 bytesWorld reachable
    _ other ?_ otherStored
  rw [stored]
  exact Option.some_ne_none _

end Quadpod.Reference
