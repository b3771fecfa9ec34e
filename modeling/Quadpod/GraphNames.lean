import Quadpod.Container

namespace Quadpod

/-!
# Which graph belongs to whom

The store is one flat map of names to graphs.  A resource owns its own graph, its
system graph and its shelves, an auxiliary its own graph and its system graph.
The names of different kinds never meet, and two URLs never share a name, except
that two shelves may share one when the hash collides.
-/

variable [IriSyntax] {space : StorageSpace}

/-! ## The kinds of names -/

/-- A name in the URL space of a pod. -/
def IsHttp (name : Text) : Prop :=
  "http".toList <+: name

omit [IriSyntax] in
theorem not_isHttp_sysGraphOf (iri : Text) : ¬ IsHttp (sysGraphOf iri) := by
  rintro ⟨rest, shape⟩
  cases shape

omit [IriSyntax] in
theorem sysGraphOf_injective : Function.Injective sysGraphOf := by
  intro first second same
  exact List.append_cancel_left same

theorem isHttp_base_append (space : StorageSpace) (rest : Text) :
    IsHttp (space.base ++ rest) := by
  have absolute := space.absolute
  simp only [Bool.or_eq_true, Text.startsWith_iff] at absolute
  have lead : "http".toList <+: space.base := by
    rcases absolute with plain | secure
    · exact List.IsPrefix.trans (by decide) plain
    · exact List.IsPrefix.trans (by decide) secure
  exact lead.trans (List.prefix_append _ _)

theorem ResourceUrl.isHttp (url : ResourceUrl space) : IsHttp url.iri := by
  rw [url.iri_eq_base]
  exact isHttp_base_append space _

theorem AuxUrl.iri_eq (url : AuxUrl space) :
    url.iri =
      space.origin ++
        ('/' :: auxSegment ++ url.subject.path ++ url.kind.suffix) := by
  rw [url.iriSubject, ResourceUrl.auxIri, ResourceUrl.origin_eq]
  simp

theorem AuxUrl.isHttp (url : AuxUrl space) : IsHttp url.iri := by
  have shape :
      url.iri =
        space.base ++ (auxSegment ++ url.subject.path ++ url.kind.suffix) := by
    rw [url.iri_eq, ← space.origin_append]
    simp
  rw [shape]
  exact isHttp_base_append space _

theorem Target.isHttp (target : Target space) : IsHttp (graphIri target) := by
  cases target with
  | resource url leaf =>
      exact url.isHttp
  | container url =>
      exact url.resource.isHttp
  | aux url =>
      exact url.isHttp

/-- The name of the shelf for a named graph of a resource. -/
def shelfIri [Sha256] (resource graphName : Text) : Text :=
  shelfPrefix ++ Sha256.hexDigest (shelfPreimage resource graphName)

@[simp] theorem ShelfKey.graphIri_of [Sha256]
    (resource : ResourceUrl space) (name : NamedNode) :
    (ShelfKey.of resource name).graphIri =
      shelfIri resource.iri name.iri :=
  rfl

@[simp] theorem ShelfKey.node_iri_of [Sha256]
    (resource : ResourceUrl space) (name : NamedNode) :
    (ShelfKey.of resource name).node.iri =
      shelfIri resource.iri name.iri :=
  rfl

omit [IriSyntax] in
theorem not_isHttp_shelfIri [Sha256] (resource name : Text) :
    ¬ IsHttp (shelfIri resource name) := by
  rintro ⟨rest, shape⟩
  cases shape

omit [IriSyntax] in
theorem shelfIri_ne_sysGraphOf [Sha256] (resource name iri : Text) :
    shelfIri resource name ≠ sysGraphOf iri := by
  intro same
  cases same

/-! ## Distinct URLs, distinct names -/

/-- A resource and an auxiliary never share an IRI. -/
theorem ResourceUrl.iri_ne_aux (url : ResourceUrl space) (aux : AuxUrl space) :
    url.iri ≠ aux.iri := by
  intro same
  rw [url.iriPath, aux.iri_eq] at same
  have samePath := List.append_cancel_left same
  have unreserved := url.addressable.unreserved
  rw [samePath] at unreserved
  obtain ⟨rest, rooted⟩ := aux.subject.path_eq_cons
  have remainder :
      (segmentRemainder
          ('/' :: (auxSegment ++ (aux.subject.path ++ aux.kind.suffix)))
          auxSegment).isSome = true :=
    segmentRemainder_isSome_iff.mpr
      ⟨_, rfl, Or.inr ⟨rest ++ aux.kind.suffix, by simp [rooted]⟩⟩
  unfold reservedSegment at unreserved
  rw [List.find?_eq_none] at unreserved
  apply unreserved auxSegment (by simp [reservedSegments])
  simpa using remainder

/-- Two auxiliaries never share an IRI. -/
theorem AuxUrl.iri_injective :
    Function.Injective (iri : AuxUrl space → Text) := by
  intro first second same
  have sameKind : first.kind = second.kind := by
    cases first.kind
    cases second.kind
    rfl
  have samePath : first.subject.path = second.subject.path := by
    rw [first.iri_eq, second.iri_eq, sameKind] at same
    exact List.append_cancel_left
      (List.append_cancel_right (List.append_cancel_left same))
  rw [first.eq_aux, second.eq_aux, ResourceUrl.ext_path samePath, sameKind]

theorem ResourceUrl.node_injective :
    Function.Injective (node : ResourceUrl space → NamedNode) := by
  intro first second same
  exact ResourceUrl.iri_injective (congrArg NamedNode.iri same)

theorem AuxUrl.node_injective :
    Function.Injective (node : AuxUrl space → NamedNode) := by
  intro first second same
  exact AuxUrl.iri_injective (congrArg NamedNode.iri same)

/-! ## Ownership -/

/-- The graphs that belong to a resource. -/
def ResourceUrl.Owns [Sha256] (url : ResourceUrl space) (name : Text) : Prop :=
  name = url.iri ∨ name = sysGraphOf url.iri ∨
    ∃ graphName, name = shelfIri url.iri graphName

/-- The graphs that belong to an auxiliary. -/
def AuxUrl.Owns (url : AuxUrl space) (name : Text) : Prop :=
  name = url.iri ∨ name = sysGraphOf url.iri

/-- What a resource owns among graph IRIs and system graphs is its own. -/
theorem ResourceUrl.Owns.eq_of_iri [Sha256]
    {url other : ResourceUrl space}
    (owns : url.Owns other.iri ∨ url.Owns (sysGraphOf other.iri)) :
    url = other := by
  rcases owns with owns | owns
  · rcases owns with same | same | ⟨graphName, same⟩
    · exact ResourceUrl.iri_injective same.symm
    · exact (not_isHttp_sysGraphOf _ (same ▸ other.isHttp)).elim
    · exact (not_isHttp_shelfIri _ _ (same ▸ other.isHttp)).elim
  · rcases owns with same | same | ⟨graphName, same⟩
    · exact (not_isHttp_sysGraphOf _ (same ▸ url.isHttp)).elim
    · exact ResourceUrl.iri_injective (sysGraphOf_injective same).symm
    · exact (shelfIri_ne_sysGraphOf _ _ _ same.symm).elim

/-- A resource owns nothing of an auxiliary. -/
theorem ResourceUrl.not_owns_aux [Sha256]
    (url : ResourceUrl space) (aux : AuxUrl space) :
    ¬ url.Owns aux.iri ∧ ¬ url.Owns (sysGraphOf aux.iri) := by
  constructor
  · rintro (same | same | ⟨graphName, same⟩)
    · exact url.iri_ne_aux aux same.symm
    · exact not_isHttp_sysGraphOf _ (same ▸ aux.isHttp)
    · exact not_isHttp_shelfIri _ _ (same ▸ aux.isHttp)
  · rintro (same | same | ⟨graphName, same⟩)
    · exact not_isHttp_sysGraphOf _ (same ▸ url.isHttp)
    · exact url.iri_ne_aux aux (sysGraphOf_injective same).symm
    · exact shelfIri_ne_sysGraphOf _ _ _ same.symm

/-- What an auxiliary owns among graph IRIs and system graphs is its own. -/
theorem AuxUrl.Owns.eq_of_iri
    {url other : AuxUrl space}
    (owns : url.Owns other.iri ∨ url.Owns (sysGraphOf other.iri)) :
    url = other := by
  rcases owns with owns | owns
  · rcases owns with same | same
    · exact AuxUrl.iri_injective same.symm
    · exact (not_isHttp_sysGraphOf _ (same ▸ other.isHttp)).elim
  · rcases owns with same | same
    · exact (not_isHttp_sysGraphOf _ (same ▸ url.isHttp)).elim
    · exact AuxUrl.iri_injective (sysGraphOf_injective same).symm

/-- An auxiliary owns nothing of a resource. -/
theorem AuxUrl.not_owns_resource
    (aux : AuxUrl space) (url : ResourceUrl space) :
    ¬ aux.Owns url.iri ∧ ¬ aux.Owns (sysGraphOf url.iri) := by
  constructor
  · rintro (same | same)
    · exact url.iri_ne_aux aux same
    · exact not_isHttp_sysGraphOf _ (same ▸ url.isHttp)
  · rintro (same | same)
    · exact not_isHttp_sysGraphOf _ (same ▸ aux.isHttp)
    · exact url.iri_ne_aux aux (sysGraphOf_injective same)

/-! ## Objects -/

section Objects

variable [ObjectPath]

omit [ObjectPath] in
/-- The names on a path, which an object's key is made of. -/
theorem ResourceUrl.exists_names (url : ResourceUrl space) :
    ∃ segments leaf,
      (∀ segment ∈ segments, GoodSegment segment) ∧ GoodLeaf leaf ∧
        url.path = containerPath segments ++ leaf ∧
        url.path.dropWhile (· = '/') =
          segments.flatMap (· ++ ['/']) ++ leaf := by
  obtain ⟨segments, leaf, good, goodLeaf, _, shape⟩ :=
    url.addressable.exists_normalForm
  refine ⟨segments, leaf, good, goodLeaf, shape, ?_⟩
  rw [shape, containerPath, List.cons_append,
    List.dropWhile_cons_of_pos (by simp)]
  have stops :
      ∀ (name rest : Text),
        GoodSegment name →
        (name ++ rest).dropWhile (· = '/') = name ++ rest := by
    intro name rest goodName
    cases name with
    | nil =>
        exact (goodName.nonempty rfl).elim
    | cons first others =>
        have notSlash : first ≠ '/' := fun same =>
          goodName.slashFree (by simp [same])
        rw [List.cons_append, List.dropWhile_cons_of_neg (by simpa using notSlash)]
  cases segments with
  | nil =>
      rcases goodLeaf with rfl | goodName
      · rfl
      · simpa using stops leaf [] goodName
  | cons first others =>
      rw [List.flatMap_cons, List.append_assoc, List.append_assoc]
      exact stops first _ (good first (by simp))

omit [IriSyntax] in
theorem ObjectPath.encode_ne_nil
    {segment : Text} (nonempty : segment ≠ []) :
    ObjectPath.encode segment ≠ [] := by
  intro isEmpty
  exact nonempty (ObjectPath.injective (isEmpty.trans ObjectPath.empty.symm))

/-- The key of a resource is its names, encoded and joined; the root has none. -/
theorem BlobKey.of_eq_some
    {url : ResourceUrl space} {key : BlobKey}
    (keyed : BlobKey.of url = some key) :
    ∃ relative,
      url.path = '/' :: relative ∧
        ((relative = [] ∧ key.path = []) ∨
          (key.path ≠ [] ∧
            Text.split '/' key.path =
              (Text.split '/' relative).map ObjectPath.encode)) := by
  obtain ⟨segments, leaf, good, goodLeaf, shape, relative⟩ := url.exists_names
  have slashFree : ∀ segment ∈ segments, '/' ∉ segment :=
    fun segment member => (good segment member).slashFree
  have pieces := split_containerPath slashFree goodLeaf.slashFree
  refine ⟨segments.flatMap (· ++ ['/']) ++ leaf, shape, ?_⟩
  unfold BlobKey.of at keyed
  dsimp only at keyed
  rw [relative, pieces] at keyed
  split at keyed
  · cases keyed
  · next notContainer =>
      split at keyed
      · cases keyed
      · split at keyed
        · cases keyed
        · cases keyed
          rcases goodLeaf with rfl | goodName
          · rcases List.eq_nil_or_concat segments with
                rfl | ⟨front, last, rfl⟩
            · left
              simp [ObjectPath.empty]
            · refine (notContainer (Text.endsWith_iff.mpr ?_)).elim
              rw [List.concat_eq_append, List.flatMap_append,
                List.flatMap_singleton, List.append_nil, ← List.append_assoc]
              exact List.suffix_append _ _
          · right
            have nonempty :
                ∀ name ∈ segments ++ [leaf], name ≠ [] := by
              intro name member
              rcases List.mem_append.mp member with isSegment | isLeaf
              · exact (good name isSegment).nonempty
              · rw [List.mem_singleton.mp isLeaf]
                exact goodName.nonempty
            have allKept :
                ((segments ++ [leaf]).map ObjectPath.encode).filter
                    (fun part => !part.isEmpty) =
                  (segments ++ [leaf]).map ObjectPath.encode := by
              rw [List.filter_eq_self]
              intro part member
              obtain ⟨name, isName, rfl⟩ := List.mem_map.mp member
              simpa using ObjectPath.encode_ne_nil (nonempty name isName)
            have rejoined :
                Text.split '/'
                    (['/'].intercalate
                      ((segments ++ [leaf]).map ObjectPath.encode)) =
                  (segments ++ [leaf]).map ObjectPath.encode := by
              refine List.splitOn_intercalate '/' ?_ (by simp)
              intro part member
              obtain ⟨name, _, rfl⟩ := List.mem_map.mp member
              exact ObjectPath.slashFree name
            rw [allKept, pieces]
            refine ⟨?_, rejoined⟩
            intro isEmpty
            dsimp only at isEmpty
            rw [isEmpty] at rejoined
            have single : [[]] = (segments ++ [leaf]).map ObjectPath.encode :=
              rejoined
            obtain ⟨name, isName, isNil⟩ :=
              List.mem_map.mp (single ▸ List.mem_singleton.mpr rfl)
            exact ObjectPath.encode_ne_nil (nonempty name isName) isNil

/-- No two resources share an object. -/
theorem BlobKey.of_injective
    {first second : ResourceUrl space} {key : BlobKey}
    (firstKeyed : BlobKey.of first = some key)
    (secondKeyed : BlobKey.of second = some key) :
    first = second := by
  obtain ⟨firstPath, firstShape, firstCases⟩ := of_eq_some firstKeyed
  obtain ⟨secondPath, secondShape, secondCases⟩ := of_eq_some secondKeyed
  apply ResourceUrl.ext_path
  rw [firstShape, secondShape]
  rcases firstCases with ⟨rfl, isEmpty⟩ | ⟨nonempty, firstSplit⟩
  · rcases secondCases with ⟨rfl, _⟩ | ⟨nonempty, _⟩
    · rfl
    · exact (nonempty isEmpty).elim
  · rcases secondCases with ⟨rfl, isEmpty⟩ | ⟨_, secondSplit⟩
    · exact (nonempty isEmpty).elim
    · have sameSplit :
          Text.split '/' firstPath = Text.split '/' secondPath :=
        List.map_injective_iff.mpr ObjectPath.injective
          (firstSplit.symm.trans secondSplit)
      have rejoined :=
        congrArg (fun pieces => ['/'].intercalate pieces) sameSplit
      simp only [Text.split, List.intercalate_splitOn] at rejoined
      rw [rejoined]

end Objects

end Quadpod
