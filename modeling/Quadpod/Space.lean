import Quadpod.RdfTerm
import Quadpod.SpacePath

namespace Quadpod

/-!
# The URL space of a pod

`space.rs`: which URLs exist, what they mean, and how they relate.  The source
keeps its constructors private so that a URL can only come out of `resolve` and
the derivations below; here each URL type carries what `resolve` checked, so a
URL that was not checked cannot be built.
-/

/-- `SpaceError` -/
inductive SpaceError where
  | notAbsolute
  | noTrailingSlash
  | invalidBaseIri
  | invalidResourceIri
  | reserved
  | notRooted
  | notNormalized
  deriving DecidableEq

/-- `AuxKind` -/
inductive AuxKind where
  | acl
  deriving DecidableEq

namespace AuxKind

/-- `AuxKind::ALL` -/
def all : List AuxKind := [.acl]

/-- `AuxKind::name` -/
def name : AuxKind → Text
  | .acl => "acl".toList

/-- `AuxKind::suffix` -/
def suffix (kind : AuxKind) : Text :=
  '.' :: kind.name

/-- `AuxKind::split_suffix` -/
def splitSuffix (rest : Text) : Option (AuxKind × Text) :=
  all.findSome? fun kind =>
    (Text.stripSuffix kind.suffix rest).map fun subject => (kind, subject)

theorem mem_all (kind : AuxKind) : kind ∈ all := by
  cases kind
  decide

theorem suffix_isPlain (kind : AuxKind) :
    kind.suffix.all isPlain = true := by
  cases kind
  decide

end AuxKind

/-- A base URI `StorageSpace::new` accepted. -/
structure StorageSpace [IriSyntax] where
  base : Text
  absolute :
    (Text.startsWith "http://".toList base ||
      Text.startsWith "https://".toList base) = true
  trailingSlash : Text.endsWith ['/'] base = true
  valid : IriSyntax.valid base = true

variable [IriSyntax]

/-- `StorageSpace::new` -/
def StorageSpace.new (base : Text) : Except SpaceError StorageSpace :=
  if absolute :
      (Text.startsWith "http://".toList base ||
        Text.startsWith "https://".toList base) = true then
    if trailingSlash : Text.endsWith ['/'] base = true then
      if valid : IriSyntax.valid base = true then
        .ok ⟨base, absolute, trailingSlash, valid⟩
      else
        .error .invalidBaseIri
    else
      .error .noTrailingSlash
  else
    .error .notAbsolute

/-- The base without its final slash: a path is appended to it. -/
def StorageSpace.origin (space : StorageSpace) : Text :=
  space.base.dropLast

theorem StorageSpace.origin_append (space : StorageSpace) :
    space.origin ++ ['/'] = space.base := by
  obtain ⟨front, ends⟩ := Text.endsWith_iff.mp space.trailingSlash
  rw [origin, ← ends, List.dropLast_concat]

/-- `ResourceUrl`: a URL in the resource space, the user's data. -/
structure ResourceUrl (space : StorageSpace) where
  path : Text
  iri : Text
  addressable : Addressable path
  iriPath : iri = space.origin ++ path
  valid : IriSyntax.valid iri = true

theorem ResourceUrl.ext_path
    {space : StorageSpace} {first second : ResourceUrl space}
    (same : first.path = second.path) : first = second := by
  have sameIri : first.iri = second.iri := by
    rw [first.iriPath, second.iriPath, same]
  cases first
  cases second
  cases same
  cases sameIri
  rfl

instance (space : StorageSpace) : DecidableEq (ResourceUrl space) :=
  fun first second =>
    decidable_of_iff (first.path = second.path)
      ⟨ResourceUrl.ext_path, congrArg ResourceUrl.path⟩

/-- `ContainerUrl`: a `ResourceUrl` whose path ends in a slash. -/
structure ContainerUrl (space : StorageSpace) where
  resource : ResourceUrl space
  slash : Text.endsWith ['/'] resource.path = true
  deriving DecidableEq

namespace ResourceUrl

variable {space : StorageSpace}

/-- The IRI with its path stripped off again. -/
def origin (url : ResourceUrl space) : Text :=
  (Text.stripSuffix url.path url.iri).getD []

@[simp] theorem origin_eq (url : ResourceUrl space) :
    url.origin = space.origin := by
  rw [origin, url.iriPath, Text.stripSuffix_append, Option.getD_some]

/-- Distinct URLs have distinct IRIs. -/
theorem iri_injective :
    Function.Injective (iri : ResourceUrl space → Text) := by
  intro first second same
  apply ext_path
  rw [first.iriPath, second.iriPath] at same
  exact List.append_cancel_left same

theorem path_eq_cons (url : ResourceUrl space) :
    ∃ rest, url.path = '/' :: rest := by
  obtain ⟨rest, shape⟩ := Text.startsWith_iff.mp url.addressable.rooted
  exact ⟨rest, shape.symm⟩

/-- The IRI as `resource` builds it: the base and the path without its slash. -/
theorem iri_eq_base (url : ResourceUrl space) :
    url.iri = space.base ++ url.path.drop 1 := by
  obtain ⟨rest, shape⟩ := url.path_eq_cons
  rw [url.iriPath, shape, ← space.origin_append]
  simp

end ResourceUrl

/-- `StorageSpace::resource` -/
def StorageSpace.resource
    (space : StorageSpace)
    (requestPath : Text)
    (addressable : Addressable requestPath) :
    Except SpaceError (ResourceUrl space) :=
  let iri := space.base ++ requestPath.drop 1
  if valid : IriSyntax.valid iri = true then
    .ok
      { path := requestPath
        iri := iri
        addressable := addressable
        iriPath := by
          obtain ⟨rest, shape⟩ := Text.startsWith_iff.mp addressable.rooted
          simp only [iri]
          rw [← shape, ← space.origin_append]
          simp
        valid := valid }
  else
    .error .invalidResourceIri

namespace ResourceUrl

variable {space : StorageSpace}

/-- The URL as an RDF term. -/
def node (url : ResourceUrl space) : NamedNode :=
  ⟨url.iri, url.valid⟩

@[simp] theorem node_iri (url : ResourceUrl space) :
    url.node.iri = url.iri :=
  rfl

/-- `ResourceUrl::as_container` -/
def asContainer (url : ResourceUrl space) : Option (ContainerUrl space) :=
  if slash : Text.endsWith ['/'] url.path = true then
    some ⟨url, slash⟩
  else
    none

private theorem valid_parent
    (url : ResourceUrl space) (notRoot : url.path ≠ ['/']) :
    IriSyntax.valid (space.origin ++ parentPath url.path) = true := by
  have ends := Text.endsWith_iff.mp space.trailingSlash
  have valid := url.valid
  rw [url.iriPath] at valid
  have truncated :
      ∀ (segments : List Text) (rest : Text),
        IriSyntax.valid
            (space.origin ++ (containerPath segments ++ rest)) = true →
          IriSyntax.valid (space.origin ++ containerPath segments) = true := by
    intro segments rest whole
    rcases List.eq_nil_or_concat segments with rfl | ⟨front, last, rfl⟩
    · rw [containerPath_nil, space.origin_append]
      exact space.valid
    · rw [List.concat_eq_append, containerPath_concat, containerPath] at *
      have cut :=
        IriSyntax.truncate space.base (front.flatMap (· ++ ['/']) ++ last) rest
          space.valid ends
      rw [← space.origin_append] at cut
      simp only [List.append_assoc, List.cons_append,
        List.nil_append] at cut whole ⊢
      exact cut whole
  rcases url.addressable.cases_normalForm with
      isRoot | ⟨segments, name, good, goodName, notReserved, shape⟩
  · exact (notRoot isRoot).elim
  · rcases shape with shape | shape
    · rw [shape] at valid ⊢
      rw [parentPath_leaf goodName.nonempty goodName.slashFree]
      exact truncated segments _ valid
    · rw [shape] at valid ⊢
      rw [parentPath_container goodName.slashFree]
      rw [containerPath_concat, List.append_assoc] at valid
      exact truncated segments _ valid

private theorem valid_withoutSlash
    (url : ResourceUrl space)
    {stripped : Text}
    (strips : Text.stripSuffix ['/'] url.path = some stripped)
    (notRoot : stripped ≠ []) :
    IriSyntax.valid (space.origin ++ stripped) = true := by
  have ends := Text.endsWith_iff.mp space.trailingSlash
  have valid := url.valid
  have whole := Text.stripSuffix_eq_some.mp strips
  obtain ⟨rest, rooted⟩ := url.path_eq_cons
  rw [url.iriPath, whole] at valid
  rw [whole] at rooted
  cases stripped with
  | nil =>
      exact (notRoot rfl).elim
  | cons first others =>
      simp only [List.cons_append, List.cons.injEq] at rooted
      rw [rooted.1] at valid ⊢
      have cut := IriSyntax.unslash space.base others space.valid ends
      rw [← space.origin_append] at cut
      simp only [List.append_assoc, List.cons_append,
        List.nil_append] at cut valid ⊢
      exact cut valid

private theorem valid_withSlash (url : ResourceUrl space) :
    IriSyntax.valid (space.origin ++ (url.path ++ ['/'])) = true := by
  have ends := Text.endsWith_iff.mp space.trailingSlash
  have valid := url.valid
  obtain ⟨rest, rooted⟩ := url.path_eq_cons
  rw [url.iriPath, rooted] at valid
  rw [rooted]
  have longer :=
    IriSyntax.extend space.base rest ['/'] space.valid ends (by decide)
  rw [← space.origin_append] at longer
  simp only [List.append_assoc, List.cons_append,
    List.nil_append] at longer valid ⊢
  exact longer valid

/-- `ResourceUrl::slash_counterpart` -/
def slashCounterpart (url : ResourceUrl space) :
    Option (ResourceUrl space) :=
  match strips : Text.stripSuffix ['/'] url.path with
  | some [] => none
  | some (first :: rest) =>
      some
        { path := first :: rest
          iri := url.origin ++ first :: rest
          addressable :=
            url.addressable.withoutSlash strips (List.cons_ne_nil first rest)
          iriPath := by rw [origin_eq]
          valid := by
            rw [origin_eq]
            exact url.valid_withoutSlash strips (List.cons_ne_nil first rest) }
  | none =>
      some
        { path := url.path ++ ['/']
          iri := url.origin ++ (url.path ++ ['/'])
          addressable := url.addressable.withSlash strips
          iriPath := by rw [origin_eq]
          valid := by
            rw [origin_eq]
            exact url.valid_withSlash }

private theorem parentPath_endsWith
    (url : ResourceUrl space) (notRoot : url.path ≠ ['/']) :
    Text.endsWith ['/'] (parentPath url.path) = true := by
  rw [Text.endsWith_iff]
  rcases url.addressable.cases_normalForm with
      isRoot | ⟨segments, name, good, goodName, notReserved, shape⟩
  · exact (notRoot isRoot).elim
  · obtain ⟨front, ends⟩ := containerPath_eq_concat segments
    rcases shape with shape | shape
    · rw [shape, parentPath_leaf goodName.nonempty goodName.slashFree, ends]
      exact List.suffix_append front ['/']
    · rw [shape, parentPath_container goodName.slashFree, ends]
      exact List.suffix_append front ['/']

/-- `ResourceUrl::parent` -/
def parent (url : ResourceUrl space) : Option (ContainerUrl space) :=
  if isRoot : url.path = ['/'] then
    none
  else
    some
      { resource :=
          { path := parentPath url.path
            iri := url.origin ++ parentPath url.path
            addressable := url.addressable.parent isRoot
            iriPath := by rw [origin_eq]
            valid := by
              rw [origin_eq]
              exact url.valid_parent isRoot }
        slash := url.parentPath_endsWith isRoot }

/-- The loop of `ResourceUrl::ancestors`, at most `bound` times. -/
def ancestorsWithin :
    Nat → ResourceUrl space → List (ContainerUrl space)
  | 0, _ => []
  | bound + 1, url =>
      match url.parent with
      | none => []
      | some container =>
          container :: ancestorsWithin bound container.resource

/-- `ResourceUrl::ancestors`: every container up to the root, nearest first. -/
def ancestors (url : ResourceUrl space) : List (ContainerUrl space) :=
  ancestorsWithin url.path.length url

/-! ### How the derivations relate -/

theorem parent_eq_none {url : ResourceUrl space} :
    url.parent = none ↔ url.path = ['/'] := by
  unfold parent
  split
  · next isRoot =>
      exact ⟨fun _ => isRoot, fun _ => rfl⟩
  · next notRoot =>
      exact ⟨fun impossible => (by cases impossible),
        fun isRoot => (notRoot isRoot).elim⟩

theorem parent_eq_some
    {url : ResourceUrl space} {container : ContainerUrl space} :
    url.parent = some container ↔
      url.path ≠ ['/'] ∧ container.resource.path = parentPath url.path := by
  unfold parent
  split
  · next isRoot =>
      simp [isRoot]
  · next notRoot =>
      rw [Option.some.injEq]
      constructor
      · rintro rfl
        exact ⟨notRoot, rfl⟩
      · rintro ⟨_, samePath⟩
        obtain ⟨resource, slash⟩ := container
        rw [ContainerUrl.mk.injEq]
        exact ext_path samePath.symm

/-- A parent lies strictly higher. -/
theorem length_parent
    {url : ResourceUrl space} {container : ContainerUrl space}
    (isParent : url.parent = some container) :
    container.resource.path.length < url.path.length := by
  obtain ⟨notRoot, samePath⟩ := parent_eq_some.mp isParent
  rw [samePath]
  exact url.addressable.length_parentPath notRoot

theorem ancestorsWithin_eq
    {bound : Nat} {url : ResourceUrl space}
    (enough : url.path.length ≤ bound) :
    ancestorsWithin bound url = url.ancestors := by
  have stable :
      ∀ first second (url : ResourceUrl space),
        url.path.length ≤ first →
        url.path.length ≤ second →
        ancestorsWithin first url = ancestorsWithin second url := by
    intro first
    induction first with
    | zero =>
        intro second url small _
        obtain ⟨rest, shape⟩ := url.path_eq_cons
        simp [shape] at small
    | succ first inductionHypothesis =>
        intro second url firstEnough secondEnough
        cases second with
        | zero =>
            obtain ⟨rest, shape⟩ := url.path_eq_cons
            simp [shape] at secondEnough
        | succ second =>
            rw [ancestorsWithin, ancestorsWithin]
            cases isParent : url.parent with
            | none =>
                rfl
            | some container =>
                have shorter := length_parent isParent
                simp only [List.cons.injEq, true_and]
                exact inductionHypothesis second container.resource
                  (by omega) (by omega)
  exact stable bound _ url enough (le_refl _)

/-- The ancestors are the parent and its ancestors. -/
theorem ancestors_eq (url : ResourceUrl space) :
    url.ancestors =
      match url.parent with
      | none => []
      | some container => container :: container.resource.ancestors := by
  have unfolded : url.ancestors = ancestorsWithin (url.path.length + 1) url :=
    (ancestorsWithin_eq (Nat.le_succ _)).symm
  rw [unfolded, ancestorsWithin]
  cases isParent : url.parent with
  | none =>
      rfl
  | some container =>
      have shorter := length_parent isParent
      simp only [List.cons.injEq, true_and]
      exact ancestorsWithin_eq (by omega)

/-- The pair of a URL adds a slash or removes it; the root has none. -/
theorem slashCounterpart_eq_some
    {url other : ResourceUrl space} :
    url.slashCounterpart = some other ↔
      other.path = url.path ++ ['/'] ∨ url.path = other.path ++ ['/'] := by
  obtain ⟨otherRest, otherRooted⟩ := other.path_eq_cons
  unfold slashCounterpart
  split
  · next strips =>
      have isRoot := Text.stripSuffix_eq_some.mp strips
      rw [List.nil_append] at isRoot
      constructor
      · intro impossible
        cases impossible
      · intro related
        rw [isRoot] at related
        rcases related with added | removed
        · have twice := other.addressable
          rw [added] at twice
          exact (twice.not_endsWith_of_slash (List.suffix_refl _)).elim
        · rw [otherRooted] at removed
          simp at removed
  · next first rest strips =>
      have whole := Text.stripSuffix_eq_some.mp strips
      rw [Option.some.injEq]
      constructor
      · rintro rfl
        exact Or.inr whole
      · rintro (added | removed)
        · have twice := other.addressable
          rw [added] at twice
          refine (twice.not_endsWith_of_slash ?_).elim
          rw [whole]
          exact List.suffix_append _ _
        · apply ext_path
          rw [whole] at removed
          exact List.append_cancel_right removed
  · next strips =>
      have noSlash := Text.stripSuffix_eq_none.mp strips
      rw [Option.some.injEq]
      constructor
      · rintro rfl
        exact Or.inl rfl
      · rintro (added | removed)
        · exact ext_path added.symm
        · exact (noSlash ⟨_, removed.symm⟩).elim

/-- Being the two halves of a pair is symmetric. -/
theorem slashCounterpart_symm
    {url other : ResourceUrl space}
    (pair : url.slashCounterpart = some other) :
    other.slashCounterpart = some url := by
  rw [slashCounterpart_eq_some] at pair ⊢
  exact pair.symm

end ResourceUrl

/-! ## Auxiliaries and targets -/

/-- The IRI of a resource's auxiliary, as `ResourceUrl::aux` formats it. -/
def ResourceUrl.auxIri
    {space : StorageSpace} (url : ResourceUrl space) (kind : AuxKind) : Text :=
  url.origin ++ ['/'] ++ auxSegment ++ url.path ++ kind.suffix

/-- `AuxUrl`: a URL in the reserved auxiliary space, carrying its subject. -/
structure AuxUrl (space : StorageSpace) where
  kind : AuxKind
  subject : ResourceUrl space
  iri : Text
  iriSubject : iri = subject.auxIri kind
  deriving DecidableEq

/-- `ResourceUrl::aux` -/
def ResourceUrl.aux
    {space : StorageSpace} (url : ResourceUrl space) (kind : AuxKind) :
    AuxUrl space where
  kind := kind
  subject := url
  iri := url.auxIri kind
  iriSubject := rfl

/-- `Target`: what a request addresses; a resource is never a container. -/
inductive Target (space : StorageSpace) where
  | resource
      (url : ResourceUrl space)
      (leaf : Text.endsWith ['/'] url.path = false)
  | container (url : ContainerUrl space)
  | aux (url : AuxUrl space)
  deriving DecidableEq

/-- `matches!(target, Target::Aux(_))` -/
def Target.isAux {space : StorageSpace} : Target space → Bool
  | .aux _ => true
  | _ => false

namespace AuxUrl

variable {space : StorageSpace}

theorem eq_aux (url : AuxUrl space) : url = url.subject.aux url.kind := by
  obtain ⟨kind, subject, iri, rfl⟩ := url
  rfl

theorem valid (url : AuxUrl space) : IriSyntax.valid url.iri = true := by
  have ends := Text.endsWith_iff.mp space.trailingSlash
  have subjectValid := url.subject.valid
  obtain ⟨rest, rooted⟩ := url.subject.path_eq_cons
  rw [url.subject.iriPath, rooted] at subjectValid
  have placed :=
    IriSyntax.descend space.base auxSegment rest space.valid ends (by decide)
  have extended :=
    IriSyntax.extend space.base (auxSegment ++ '/' :: rest) url.kind.suffix
      space.valid ends url.kind.suffix_isPlain
  rw [url.iriSubject, ResourceUrl.auxIri, ResourceUrl.origin_eq, rooted]
  rw [← space.origin_append] at placed extended
  simp only [List.append_assoc, List.cons_append,
    List.nil_append] at placed extended subjectValid ⊢
  exact extended (placed subjectValid)

/-- The URL as an RDF term. -/
def node (url : AuxUrl space) : NamedNode :=
  ⟨url.iri, url.valid⟩

end AuxUrl

namespace ContainerUrl

variable {space : StorageSpace}

/-- The URL as an RDF term. -/
def node (url : ContainerUrl space) : NamedNode :=
  url.resource.node

theorem resource_injective :
    Function.Injective (resource : ContainerUrl space → _) := by
  intro first second same
  cases first
  cases second
  cases same
  rfl

end ContainerUrl

/-- The trait `space::GraphName`: anything addressable as a named graph. -/
class GraphUrl (Url : Type) where
  graphNode : Url → NamedNode

/-- The trait `DirectlyWritable`. -/
class DirectlyWritable (Url : Type) extends GraphUrl Url

/-- The trait `DirectlyDeletable`. -/
class DirectlyDeletable (Url : Type) extends GraphUrl Url

instance (space : StorageSpace) : DirectlyWritable (ResourceUrl space) where
  graphNode := ResourceUrl.node

instance (space : StorageSpace) : DirectlyWritable (ContainerUrl space) where
  graphNode := ContainerUrl.node

instance (space : StorageSpace) : DirectlyDeletable (AuxUrl space) where
  graphNode := AuxUrl.node

/-- `GraphName for Target` -/
def Target.node {space : StorageSpace} : Target space → NamedNode
  | .resource url _ => url.node
  | .container url => url.node
  | .aux url => url.node

instance (space : StorageSpace) : GraphUrl (Target space) where
  graphNode := Target.node

/-- `GraphName::graph_iri` -/
def graphIri {Url : Type} [GraphUrl Url] (url : Url) : Text :=
  (GraphUrl.graphNode url).iri

/-! ## Resolving a request path -/

omit [IriSyntax] in
private theorem rooted_of_splitSuffix
    {requestPath rest subjectPath : Text}
    {kind : AuxKind}
    (remainder : segmentRemainder requestPath auxSegment = some rest)
    (splits : AuxKind.splitSuffix rest = some (kind, subjectPath)) :
    Text.startsWith ['/'] subjectPath = true := by
  have ends : rest = subjectPath ++ kind.suffix := by
    obtain ⟨candidate, _, found⟩ := List.exists_of_findSome?_eq_some splits
    obtain ⟨subject, strips, same⟩ := Option.map_eq_some_iff.mp found
    cases same
    exact Text.stripSuffix_eq_some.mp strips
  have starts : rest = [] ∨ ['/'] <+: rest := by
    unfold segmentRemainder at remainder
    simp only [Option.bind_eq_bind, Option.bind_eq_some_iff] at remainder
    obtain ⟨rooted, _, stripped, _, kept⟩ := remainder
    split at kept
    · next ok =>
        cases kept
        simpa [or_iff_not_imp_left] using ok
    · cases kept
  rw [Text.startsWith_iff]
  cases kind
  cases subjectPath with
  | nil =>
      rw [ends] at starts
      revert starts
      decide
  | cons first others =>
      rcases starts with isNil | ⟨tail, isCons⟩
      · rw [ends] at isNil
        cases isNil
      · rw [ends] at isCons
        simp only [List.cons_append, List.nil_append,
          List.cons.injEq] at isCons
        exact ⟨others, by simp [← isCons.1]⟩

omit [IriSyntax] in
private theorem reservedSegment_eq_none
    {requestPath : Text}
    (notAux : segmentRemainder requestPath auxSegment = none)
    (notWellKnown :
      (segmentRemainder requestPath wellKnownSegment).isSome = false) :
    reservedSegment requestPath = none := by
  simp [reservedSegment, reservedSegments, notAux, notWellKnown]

/-- A leaf or a container, by its final slash. -/
def ResourceUrl.toTarget
    {space : StorageSpace} (url : ResourceUrl space) : Target space :=
  if slash : Text.endsWith ['/'] url.path = true then
    .container ⟨url, slash⟩
  else
    .resource url (Bool.eq_false_iff.mpr slash)

/-- `StorageSpace::resolve` -/
def StorageSpace.resolve
    (space : StorageSpace) (requestPath : Text) :
    Except SpaceError (Target space) :=
  if rooted : Text.startsWith ['/'] requestPath = true then
    if stable : isNormalizationStable requestPath = true then
      if wellKnown :
          (segmentRemainder requestPath wellKnownSegment).isSome = true then
        .error .reserved
      else
        match remainder : segmentRemainder requestPath auxSegment with
        | some rest =>
            match splits : AuxKind.splitSuffix rest with
            | none => .error .reserved
            | some (kind, subjectPath) =>
                if unreserved : reservedSegment subjectPath = none then
                  if subjectStable :
                      isNormalizationStable subjectPath = true then do
                    let subject ←
                      space.resource subjectPath
                        ⟨rooted_of_splitSuffix remainder splits,
                          subjectStable, unreserved⟩
                    let url := subject.aux kind
                    if IriSyntax.valid url.iri then
                      .ok (.aux url)
                    else
                      .error .invalidResourceIri
                  else
                    .error .notNormalized
                else
                  .error .reserved
        | none => do
            let resource ←
              space.resource requestPath
                ⟨rooted, stable,
                  reservedSegment_eq_none remainder (by simpa using wellKnown)⟩
            .ok resource.toTarget
    else
      .error .notNormalized
  else
    .error .notRooted

/-- `StorageSpace::root` -/
def StorageSpace.root (space : StorageSpace) : ContainerUrl space where
  resource :=
    { path := ['/']
      iri := space.base
      addressable := .root
      iriPath := space.origin_append.symm
      valid := space.valid }
  slash := rfl

end Quadpod
