import Quadpod.PathClassification

namespace Quadpod

/-!
# URLs derived from URLs

`parent`, `ancestors` and `slash_counterpart` build URLs by cutting and joining
texts, without the checks of `resolve`.  Each of them is a URL `resolve` gives
for its path, and the ancestors are the prefixes of the path that end in a
slash.
-/

/-! ## The prefixes of a path -/

/-- The proper prefixes of a path that end in a slash, longest first. -/
def containerPrefixes (path : Text) : List Text :=
  (path.inits.dropLast.filter (Text.endsWith ['/'])).reverse

theorem inits_ne_nil (text : Text) : text.inits ≠ [] := by
  cases text <;> simp

/-- The proper prefixes of a text, and of the text with more behind it. -/
theorem dropLast_inits_append {front back : Text} (goesOn : back ≠ []) :
    (front ++ back).inits.dropLast =
      front.inits.dropLast ++
        front :: back.inits.tail.dropLast.map (front ++ ·) := by
  induction front with
  | nil =>
      cases back with
      | nil =>
          exact (goesOn rfl).elim
      | cons c rest =>
          rw [List.nil_append, List.inits_cons,
            List.dropLast_cons_of_ne_nil (by simp [inits_ne_nil])]
          simp [Function.comp_def]
  | cons c rest inductionHypothesis =>
      rw [List.cons_append, List.inits_cons, List.inits_cons,
        List.dropLast_cons_of_ne_nil (by simp [inits_ne_nil]),
        List.dropLast_cons_of_ne_nil (by simp [inits_ne_nil]),
        ← List.map_dropLast, ← List.map_dropLast, inductionHypothesis]
      simp [Function.comp_def]

/-- Up to its slash, a name has no prefix that ends in one. -/
theorem filter_inits_of_name
    {front name slash : Text}
    (slashFree : '/' ∉ name) (isSlash : slash = [] ∨ slash = ['/']) :
    ((name ++ slash).inits.tail.dropLast.map (front ++ ·)).filter
      (Text.endsWith ['/']) = [] := by
  rw [List.filter_eq_nil_iff]
  intro text member ends
  obtain ⟨start, inStart, rfl⟩ := List.mem_map.mp member
  have isStart : start ∈ name.inits.tail := by
    rcases isSlash with rfl | rfl
    · rw [List.append_nil] at inStart
      exact List.dropLast_subset _ inStart
    · rw [List.inits_append, List.tail_append_of_ne_nil (inits_ne_nil name)]
        at inStart
      simpa using inStart
  cases name with
  | nil =>
      cases isStart
  | cons c rest =>
      rw [List.inits_cons, List.tail_cons] at isStart
      obtain ⟨others, isOthers, rfl⟩ := List.mem_map.mp isStart
      obtain ⟨before, isText⟩ := Text.endsWith_iff.mp ends
      have isLast := congrArg List.getLast? isText
      rw [List.getLast?_append_of_ne_nil _ (by simp),
        List.getLast?_append_of_ne_nil _ (by simp)] at isLast
      have isEnd := List.mem_of_getLast? isLast.symm
      have isPrefix := (List.mem_inits others rest).mp isOthers
      refine slashFree ?_
      rcases List.mem_cons.mp isEnd with isFirst | isOther
      · exact List.mem_cons.mpr (Or.inl isFirst)
      · exact List.mem_cons_of_mem _ (isPrefix.subset isOther)

/-- A path below a container has the container and its prefixes. -/
theorem containerPrefixes_append
    {front name slash : Text}
    (ends : Text.endsWith ['/'] front = true)
    (nonempty : name ≠ []) (slashFree : '/' ∉ name)
    (isSlash : slash = [] ∨ slash = ['/']) :
    containerPrefixes (front ++ (name ++ slash)) =
      front :: containerPrefixes front := by
  have goesOn : name ++ slash ≠ [] := fun isNil =>
    nonempty (List.append_eq_nil_iff.mp isNil).1
  rw [containerPrefixes, dropLast_inits_append goesOn, List.filter_append,
    List.filter_cons_of_pos ends, filter_inits_of_name slashFree isSlash,
    List.reverse_append, List.reverse_singleton, List.singleton_append,
    containerPrefixes]

variable [IriSyntax] {space : StorageSpace}

namespace ResourceUrl

/-! ## The loop of `ancestors` -/

/--
A run of the loop of `ResourceUrl::ancestors`: what it returns from the current
URL and the containers pushed so far.
-/
inductive AncestorLoop :
    ResourceUrl space → List (ContainerUrl space) →
      List (ContainerUrl space) → Prop where
  | stop {current : ResourceUrl space} {out : List (ContainerUrl space)}
      (noParent : current.parent = none) :
      AncestorLoop current out out
  | push {current : ResourceUrl space} {out found : List (ContainerUrl space)}
      {container : ContainerUrl space}
      (isParent : current.parent = some container)
      (more : AncestorLoop container.resource (out ++ [container]) found) :
      AncestorLoop current out found

theorem AncestorLoop.found_eq
    {current : ResourceUrl space} {out found : List (ContainerUrl space)}
    (runs : AncestorLoop current out found) :
    found = out ++ current.ancestors := by
  induction runs with
  | stop noParent =>
      rw [ancestors_eq, noParent, List.append_nil]
  | @push current out found container isParent more inductionHypothesis =>
      rw [inductionHypothesis, current.ancestors_eq, isParent]
      simp

/-- The loop ends: every parent is shorter than its member. -/
theorem ancestorLoop_ancestors
    (current : ResourceUrl space) (out : List (ContainerUrl space)) :
    AncestorLoop current out (out ++ current.ancestors) := by
  induction length : current.path.length using Nat.strong_induction_on
    generalizing current out with
  | h bound inductionHypothesis =>
      cases isParent : current.parent with
      | none =>
          rw [ancestors_eq, isParent, List.append_nil]
          exact .stop isParent
      | some container =>
          have shorter := length_parent isParent
          have more :=
            inductionHypothesis container.resource.path.length
              (length ▸ shorter) container.resource (out ++ [container]) rfl
          rw [List.append_assoc] at more
          rw [ancestors_eq, isParent]
          exact .push isParent more

/-! ## The ancestors -/

/-- What follows a parent in the path: a name, and a slash for a container. -/
theorem path_below_parent
    {url : ResourceUrl space} {container : ContainerUrl space}
    (isParent : url.parent = some container) :
    ∃ name slash,
      url.path = container.resource.path ++ (name ++ slash) ∧
        name ≠ [] ∧ '/' ∉ name ∧ (slash = [] ∨ slash = ['/']) := by
  obtain ⟨notRoot, samePath⟩ := parent_eq_some.mp isParent
  rcases url.addressable.cases_normalForm with
      isRoot | ⟨segments, name, _, goodName, _, shape⟩
  · exact (notRoot isRoot).elim
  · rcases shape with shape | shape
    · refine ⟨name, [], ?_, goodName.nonempty, goodName.slashFree, Or.inl rfl⟩
      rw [samePath, shape,
        parentPath_leaf goodName.nonempty goodName.slashFree, List.append_nil]
    · refine ⟨name, ['/'], ?_, goodName.nonempty, goodName.slashFree,
        Or.inr rfl⟩
      rw [samePath, shape, parentPath_container goodName.slashFree,
        containerPath_concat, List.append_assoc]

/-- The ancestors are the prefixes of the path that end in a slash. -/
theorem ancestors_paths (url : ResourceUrl space) :
    url.ancestors.map (fun container => container.resource.path) =
      containerPrefixes url.path := by
  induction length : url.path.length using Nat.strong_induction_on
    generalizing url with
  | h bound inductionHypothesis =>
      rw [ancestors_eq]
      cases isParent : url.parent with
      | none =>
          rw [parent_eq_none.mp isParent]
          rfl
      | some container =>
          have shorter := length_parent isParent
          obtain ⟨name, slash, isPath, nonempty, slashFree, isSlash⟩ :=
            path_below_parent isParent
          rw [List.map_cons,
            inductionHypothesis container.resource.path.length
              (length ▸ shorter) container.resource rfl, isPath,
            containerPrefixes_append container.slash nonempty slashFree
              isSlash]

/-- The chain of ancestors ends at the root. -/
theorem getLast?_ancestors
    {url : ResourceUrl space} (notRoot : url.path ≠ ['/']) :
    url.ancestors.getLast? = some space.root := by
  induction length : url.path.length using Nat.strong_induction_on
    generalizing url with
  | h bound inductionHypothesis =>
      rw [ancestors_eq]
      cases isParent : url.parent with
      | none =>
          exact (notRoot (parent_eq_none.mp isParent)).elim
      | some container =>
          have shorter := length_parent isParent
          by_cases isTop : container.resource.path = ['/']
          · have isRoot : container = space.root :=
              ContainerUrl.resource_injective (ext_path isTop)
            dsimp only
            rw [ancestors_eq, parent_eq_none.mpr isTop, isRoot]
            rfl
          · have ends :=
              inductionHypothesis container.resource.path.length
                (length ▸ shorter) isTop rfl
            have more : container.resource.ancestors ≠ [] := by
              intro isNil
              rw [isNil] at ends
              cases ends
            dsimp only
            rw [List.getLast?_cons, ends]
            rfl

/-! ## Derived URLs resolve to themselves -/

theorem resolve_container (container : ContainerUrl space) :
    space.resolve container.resource.path = .ok (.container container) := by
  rw [StorageSpace.resolve_path, toTarget, dif_pos container.slash]

theorem slashCounterpart_eq_none {url : ResourceUrl space} :
    url.slashCounterpart = none ↔ url = space.root.resource := by
  constructor
  · intro noPair
    unfold slashCounterpart at noPair
    split at noPair
    · next strips =>
        exact ext_path (Text.stripSuffix_eq_some.mp strips)
    · cases noPair
    · cases noPair
  · rintro rfl
    rfl

/--
`ancestors` ends, at the root, with the prefixes of the path that end in a
slash; parents, ancestors and the other half of a pair are resources and
containers of the space, the ones `resolve` finds at their paths; and only the
root has no other half, while every other URL is the other half of its own.
-/
theorem derived_urls_within_space (url : ResourceUrl space) :
    (∀ found, AncestorLoop url [] found ↔ found = url.ancestors) ∧
      url.ancestors.map (fun container => container.resource.path) =
        containerPrefixes url.path ∧
      (url ≠ space.root.resource →
        url.ancestors.getLast? = some space.root) ∧
      (∀ container : ContainerUrl space,
        url.parent = some container ∨ container ∈ url.ancestors →
          space.resolve container.resource.path =
            .ok (.container container)) ∧
      (∀ other, url.slashCounterpart = some other →
        space.resolve other.path = .ok other.toTarget ∧
          other.toTarget.isAux = false ∧
          other.slashCounterpart = some url) ∧
      (url.slashCounterpart = none ↔ url = space.root.resource) := by
  refine ⟨fun found => ⟨fun runs => runs.found_eq, ?_⟩, url.ancestors_paths,
    fun notRoot => ?_, fun container _ => resolve_container container,
    fun other pair => ?_, slashCounterpart_eq_none⟩
  · rintro rfl
    exact url.ancestorLoop_ancestors []
  · exact getLast?_ancestors fun isRoot => notRoot (ext_path isRoot)
  · exact ⟨StorageSpace.resolve_path other, other.isAux_toTarget,
      slashCounterpart_symm pair⟩

end ResourceUrl

end Quadpod
