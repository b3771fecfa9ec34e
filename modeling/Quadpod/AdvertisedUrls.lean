import Quadpod.HttpReply
import Quadpod.PercentEncoding
import Quadpod.ReferencePod
import Quadpod.ResolvedPaths

namespace Quadpod

open PercentEncoding

/-!
# Following the URLs the server advertises

A handler sees its path percent-decoded, the target's IRI is built from that
text, and `Location` and the ACL link send the IRI out as it is.  Whoever
requests it has it decoded again, and cut at a question mark.  The advertised
URLs therefore lead back to what they were sent for only where there is nothing
to decode and nothing to cut.
-/

variable [IriSyntax] {space : StorageSpace}

/-! ## Requesting a URL -/

/--
The path a handler is given for a path on the wire: the wildcard behind the
first slash is percent-decoded once and must be UTF-8.
-/
def handlerPath (wire : Text) : Option Text := do
  let rest ← Text.stripPrefix ['/'] wire
  let decoded ← decodeText rest
  some ('/' :: decoded)

/-- What a path on the wire addresses. -/
def StorageSpace.resolveWire (space : StorageSpace) (wire : Text) :
    Option (Target space) := do
  let path ← handlerPath wire
  (space.resolve path).toOption

/-- A URL without its query and its fragment. -/
def beforeQuery (url : Text) : Text :=
  url.takeWhile fun c => c ≠ '?' && c ≠ '#'

/-- What requesting a URL below the pod's base addresses. -/
def StorageSpace.follow (space : StorageSpace) (url : Text) :
    Option (Target space) := do
  let wire ← Text.stripPrefix space.origin (beforeQuery url)
  space.resolveWire wire

omit [IriSyntax] in
theorem decode_of_handlerPath {wire path : Text}
    (given : handlerPath wire = some path) :
    decode (Text.utf8 wire) = Text.utf8 path := by
  simp only [handlerPath, Option.bind_eq_bind, Option.bind_eq_some_iff,
    Option.some.injEq] at given
  obtain ⟨rest, isRooted, decoded, decodes, rfl⟩ := given
  rw [Text.stripPrefix_eq_some.mp isRooted, Text.utf8_append]
  change decode (47 :: Text.utf8 rest) = 47 :: Text.utf8 decoded
  rw [decode_cons_of_ne _ (by decide), decodeText_eq_some.mp decodes]

omit [IriSyntax] in
theorem handlerPath_of_noEscape {path : Text}
    (rooted : Text.startsWith ['/'] path = true)
    (noEscape : decode (Text.utf8 path) = Text.utf8 path) :
    handlerPath path = some path := by
  obtain ⟨rest, rfl⟩ := Text.startsWith_iff.mp rooted
  rw [Text.utf8_append] at noEscape
  change decode (47 :: Text.utf8 rest) = 47 :: Text.utf8 rest at noEscape
  rw [decode_cons_of_ne _ (by decide), List.cons.injEq] at noEscape
  rw [handlerPath, Text.stripPrefix_append, Option.bind_eq_bind,
    Option.bind_some, decodeText_eq_some.mpr noEscape.2]
  rfl

omit [IriSyntax] in
/-- A URL is cut nowhere exactly if it has no query and no fragment. -/
theorem beforeQuery_eq_self_iff {url : Text} :
    beforeQuery url = url ↔ '?' ∉ url ∧ '#' ∉ url := by
  rw [beforeQuery, List.takeWhile_eq_self_iff]
  constructor
  · intro allPlain
    constructor
    · intro member
      simpa using allPlain '?' member
    · intro member
      simpa using allPlain '#' member
  · rintro ⟨noQuery, noFragment⟩ c member
    have notQuery : c ≠ '?' := by
      rintro rfl
      exact noQuery member
    have notFragment : c ≠ '#' := by
      rintro rfl
      exact noFragment member
    simp [notQuery, notFragment]

/-! ## What is advertised -/

/--
The `Location` of a create leads to the target, and the ACL link, which an
auxiliary does not have, leads to the target's ACL.
-/
def Target.AdvertisesItself (target : Target space) : Prop :=
  (∃ location,
    (Response.created target).header "location".toList = some location ∧
      space.follow location = some target) ∧
    (target.isAux = false →
      ∃ url,
        Response.auxLinks target =
            some ('<' :: url ++ ">; rel=\"acl\"".toList) ∧
          space.follow url = some (.aux (target.subject.aux .acl)))

/-- There is nothing in the path to decode again, and nothing to cut a URL at. -/
def StorageSpace.Verbatim (space : StorageSpace) (path : Text) : Prop :=
  ('?' ∉ space.base ∧ '#' ∉ space.base) ∧
    '?' ∉ path ∧ ¬ HasEscape (Text.utf8 path)

theorem created_location (target : Target space) :
    (Response.created target).header "location".toList =
      some (graphIri target) := by
  unfold Response.created Response.withAuxLinks
  split
  · rfl
  · rfl

theorem auxLinks_eq_some {target : Target space}
    (notAux : target.isAux = false) :
    Response.auxLinks target =
      some ('<' :: (target.subject.aux .acl).iri ++
        ">; rel=\"acl\"".toList) := by
  cases target with
  | aux url =>
      cases notAux
  | resource url leaf =>
      simp [Response.auxLinks, AuxKind.all, AuxKind.name]
  | container url =>
      simp [Response.auxLinks, AuxKind.all, AuxKind.name]

/-! ## When the URLs lead back -/

/-- A URL with nothing to cut or decode is followed to its own path. -/
theorem StorageSpace.follow_verbatim
    {path : Text} {target : Target space}
    (noQuery : '?' ∉ space.base ∧ '#' ∉ space.base)
    (pathPlain : '?' ∉ path ∧ '#' ∉ path)
    (noEscape : decode (Text.utf8 path) = Text.utf8 path)
    (resolves : space.resolve path = .ok target) :
    space.follow (space.origin ++ path) = some target := by
  have uncut :
      beforeQuery (space.origin ++ path) = space.origin ++ path := by
    rw [← space.origin_append] at noQuery
    rw [beforeQuery_eq_self_iff]
    simp only [List.mem_append, not_or] at noQuery ⊢
    exact ⟨⟨noQuery.1.1, pathPlain.1⟩, noQuery.2.1, pathPlain.2⟩
  have rooted := (StorageSpace.rooted_of_resolve resolves).1
  rw [follow, uncut, Text.stripPrefix_append, Option.bind_eq_bind,
    Option.bind_some, resolveWire, handlerPath_of_noEscape rooted noEscape,
    Option.bind_eq_bind, Option.bind_some, resolves]
  rfl

/-- What a followed URL came from has nothing to cut or decode. -/
theorem StorageSpace.verbatim_of_follow
    {path : Text} {target : Target space}
    (resolves : space.resolve path = .ok target)
    (follows : space.follow (space.origin ++ path) = some target) :
    space.Verbatim path := by
  simp only [follow, resolveWire, Option.bind_eq_bind,
    Option.bind_eq_some_iff] at follows
  obtain ⟨wire, isCut, again, given, resolvesAgain⟩ := follows
  have cut := Text.stripPrefix_eq_some.mp isCut
  have samePath : again = path := by
    cases found : space.resolve again with
    | error error =>
        rw [found] at resolvesAgain
        cases resolvesAgain
    | ok other =>
        rw [found] at resolvesAgain
        cases resolvesAgain
        have sameIri :=
          (StorageSpace.graphIri_of_resolve found).symm.trans
            (StorageSpace.graphIri_of_resolve resolves)
        exact List.append_cancel_left sameIri
  subst samePath
  have decodes := decode_of_handlerPath given
  obtain ⟨more, isPrefix⟩ : wire <+: again := by
    have front : beforeQuery (space.origin ++ again) <+: space.origin ++ again :=
      List.takeWhile_prefix _
    rw [cut] at front
    exact (List.prefix_append_right_inj _).mp front
  have noMore : more = [] := by
    have shorter := length_decode_le (Text.utf8 wire)
    rw [decodes, ← isPrefix, Text.utf8_append, List.length_append] at shorter
    apply Text.utf8_injective
    exact List.length_eq_zero_iff.mp (by omega)
  subst noMore
  rw [List.append_nil] at isPrefix
  subst isPrefix
  have plain := beforeQuery_eq_self_iff.mp cut
  simp only [List.mem_append, not_or] at plain
  refine ⟨?_, plain.1.2, (decode_eq_self_iff _).mp decodes⟩
  rw [← space.origin_append]
  simp [plain.1.1, plain.2.1]

omit [IriSyntax] in
theorem hashFree_of_stable {path : Text}
    (stable : isNormalizationStable path = true) : '#' ∉ path := by
  intro member
  unfold isNormalizationStable at stable
  rw [if_pos (List.contains_iff_mem.mpr member)] at stable
  cases stable

/-- The path of an auxiliary has nothing to decode if its subject's has not. -/
theorem ResourceUrl.decode_auxPath
    (url : ResourceUrl space) (kind : AuxKind)
    (noEscape : decode (Text.utf8 url.path) = Text.utf8 url.path) :
    decode (Text.utf8 (url.auxPath kind)) = Text.utf8 (url.auxPath kind) := by
  obtain ⟨rest, isPath⟩ := url.path_eq_cons
  have restDecodes : decode (Text.utf8 rest) = Text.utf8 rest := by
    rw [isPath] at noEscape
    change decode (47 :: Text.utf8 rest) = 47 :: Text.utf8 rest at noEscape
    rw [decode_cons_of_ne _ (by decide), List.cons.injEq] at noEscape
    exact noEscape.2
  have shape :
      Text.utf8 (url.auxPath kind) =
        Text.utf8 ('/' :: auxSegment) ++
          47 :: (Text.utf8 rest ++ 46 :: Text.utf8 kind.name) := by
    rw [auxPath, isPath, Text.utf8_append, Text.utf8_append]
    simp only [List.append_assoc]
    rfl
  rw [shape, decode_append_cons _ _ (by decide) (by decide),
    decode_append_cons _ _ (by decide) (by decide), restDecodes]
  cases kind
  rfl

theorem graphIri_of_not_aux {target : Target space}
    (notAux : target.isAux = false) :
    graphIri target = target.subject.iri := by
  cases target with
  | aux url =>
      cases notAux
  | resource url leaf =>
      rfl
  | container url =>
      rfl

theorem advertisesItself_iff_verbatim
    {path : Text} {target : Target space}
    (resolves : space.resolve path = .ok target) :
    target.AdvertisesItself ↔ space.Verbatim path := by
  have isIri := StorageSpace.graphIri_of_resolve resolves
  have hashFree :=
    hashFree_of_stable (StorageSpace.rooted_of_resolve resolves).2
  constructor
  · rintro ⟨⟨location, isLocation, follows⟩, _⟩
    rw [created_location, isIri, Option.some.injEq] at isLocation
    rw [← isLocation] at follows
    exact StorageSpace.verbatim_of_follow resolves follows
  · rintro ⟨noQuery, pathPlain, noEscape⟩
    rw [← decode_eq_self_iff] at noEscape
    refine ⟨⟨_, created_location target, ?_⟩, fun notAux =>
      ⟨_, auxLinks_eq_some notAux, ?_⟩⟩
    · rw [isIri]
      exact StorageSpace.follow_verbatim noQuery ⟨pathPlain, hashFree⟩
        noEscape resolves
    · have isSubject : target.subject.path = path := by
        have subjectIri := target.subject.iriPath
        rw [← graphIri_of_not_aux notAux, isIri] at subjectIri
        exact (List.append_cancel_left subjectIri).symm
      rw [← isSubject] at pathPlain hashFree noEscape
      rw [ResourceUrl.auxIri_eq]
      refine StorageSpace.follow_verbatim noQuery ⟨?_, ?_⟩
        (target.subject.decode_auxPath .acl noEscape)
        (StorageSpace.resolve_auxPath _ _)
      · simp [ResourceUrl.auxPath, auxSegment, AuxKind.suffix, AuxKind.name,
          pathPlain]
      · simp [ResourceUrl.auxPath, auxSegment, AuxKind.suffix, AuxKind.name,
          hashFree]

/--
The URLs the server advertises for the target of a request lead back to it and
to its ACL exactly if the decoded path holds no escape and no question mark, and
the base URI has neither a query nor a fragment.
-/
theorem advertises_itself_iff
    (space : StorageSpace) (wire : Text) (target : Target space)
    (resolves : space.resolveWire wire = some target) :
    target.AdvertisesItself ↔
      ∃ path, handlerPath wire = some path ∧ space.Verbatim path := by
  simp only [StorageSpace.resolveWire, Option.bind_eq_bind,
    Option.bind_eq_some_iff] at resolves
  obtain ⟨path, given, isTarget⟩ := resolves
  have resolvesPath : space.resolve path = .ok target := by
    cases found : space.resolve path with
    | error error =>
        rw [found] at isTarget
        cases isTarget
    | ok other =>
        rw [found] at isTarget
        cases isTarget
        rfl
  rw [advertisesItself_iff_verbatim resolvesPath]
  constructor
  · intro verbatim
    exact ⟨path, given, verbatim⟩
  · rintro ⟨other, isOther, verbatim⟩
    rw [given, Option.some.injEq] at isOther
    rwa [isOther]

end Quadpod

namespace Quadpod.Reference

open PercentEncoding

/-- The note's URLs lead back to it. -/
theorem note_advertises_itself :
    note.toTarget.AdvertisesItself := by
  refine (advertises_itself_iff podSpace "/note".toList note.toTarget
    (by decide)).mpr ?_
  refine ⟨"/note".toList, by decide, ⟨by decide, by decide⟩,
    by decide, ?_⟩
  rw [← decode_eq_self_iff]
  decide

/-- A path with an escape in it after it was decoded. -/
def escapedNote : ResourceUrl podSpace where
  path := "/a%41".toList
  iri := "https://pod.example/a%41".toList
  addressable := ⟨by decide, by decide, by decide⟩
  iriPath := by decide
  valid := by decide

/-- The `Location` of `/a%2541` is the URL of another resource. -/
theorem escapedNote_advertises_other :
    podSpace.resolveWire "/a%2541".toList = some escapedNote.toTarget ∧
      ¬ escapedNote.toTarget.AdvertisesItself := by
  refine ⟨by decide, ?_⟩
  rintro ⟨⟨location, isLocation, follows⟩, _⟩
  rw [created_location, Option.some.injEq] at isLocation
  subst isLocation
  have elsewhere :
      podSpace.follow (graphIri escapedNote.toTarget) ≠
        some escapedNote.toTarget := by
    decide
  exact elsewhere follows

end Quadpod.Reference
