import Quadpod.DatasetStore
import Quadpod.ServedRepresentations
import Quadpod.VersionParameters

namespace Quadpod

open AtomicProgram

/-!
# Validators

A validator of a stored dataset hashes the format, the version served and the
sorted quads, one to a line.  While the digest has no collisions it therefore
determines all three, so the tags a conditional write is compared with can be
listed, and the tag that was served is among them or is not.
-/

variable [IriSyntax] [Sha256] [QuadText]

/-! ## What is hashed -/

/-- The printed quads of a stored dataset, in order. -/
def Skolemized.lines (stored : Skolemized) : List Text :=
  (stored.quads.map fun quad => QuadText.display quad.toQuad).mergeSort textLe

/-- What `Skolemized::etag` hashes, as a text. -/
def Skolemized.listing
    (stored : Skolemized) (format : Format) (served : RdfVersion) : Text :=
  format.mediaType ++ ['\n'] ++ served.label ++ ['\n'] ++
    stored.lines.flatMap (· ++ ['\n'])

omit [IriSyntax] [Sha256] [QuadText] in
theorem Format.mediaType_injective :
    Function.Injective Format.mediaType := by
  intro first second same
  cases first <;> cases second <;>
    first
    | rfl
    | exact absurd same (by decide)

omit [IriSyntax] [Sha256] [QuadText] in
theorem Format.newlineFree (format : Format) : '\n' ∉ format.mediaType := by
  cases format <;> decide

omit [IriSyntax] [Sha256] [QuadText] in
theorem RdfVersion.newlineFree (version : RdfVersion) :
    '\n' ∉ version.label := by
  cases version <;> decide

omit [Sha256] in
/-- A listing determines the format, the version and the lines. -/
theorem Skolemized.listing_inj
    {first second : Skolemized} {firstFormat secondFormat : Format}
    {firstServed secondServed : RdfVersion}
    (same :
      first.listing firstFormat firstServed =
        second.listing secondFormat secondServed) :
    firstFormat = secondFormat ∧
      firstServed = secondServed ∧
      first.lines.flatMap (· ++ ['\n']) =
        second.lines.flatMap (· ++ ['\n']) := by
  simp only [listing, List.append_assoc, List.cons_append,
    List.nil_append] at same
  obtain ⟨sameType, sameRest⟩ :=
    Text.append_cons_inj_of_not_mem firstFormat.newlineFree
      secondFormat.newlineFree same
  obtain ⟨sameLabel, sameLines⟩ :=
    Text.append_cons_inj_of_not_mem firstServed.newlineFree
      secondServed.newlineFree sameRest
  exact ⟨Format.mediaType_injective sameType,
    RdfVersion.label_injective sameLabel, sameLines⟩

omit [IriSyntax] [QuadText] in
/-- A quoted digest determines what was hashed. -/
theorem quoted_digest_inj
    (collisionFree : CollisionFree) {first second : Bytes}
    (same : blobEtag first = blobEtag second) : first = second := by
  simp only [blobEtag, List.cons_append, List.cons.injEq, true_and] at same
  exact collisionFree (List.append_cancel_right same)

theorem Skolemized.etag_inj
    (collisionFree : CollisionFree)
    {first second : Skolemized} {firstFormat secondFormat : Format}
    {firstServed secondServed : RdfVersion}
    (same :
      first.etag firstFormat firstServed =
        second.etag secondFormat secondServed) :
    first.listing firstFormat firstServed =
      second.listing secondFormat secondServed :=
  Text.utf8_injective (quoted_digest_inj collisionFree same)

/-! ## The tags a write is compared with -/

/-- The tags of a stored dataset are those at 1.1 and at its own version. -/
theorem Skolemized.etag_mem_candidates
    (collisionFree : CollisionFree)
    (stored : Skolemized) (format : Format) (served : RdfVersion) :
    stored.etag format served ∈ etagCandidates stored ↔
      served = .rdf11 ∨ served = stored.held := by
  have listed :
      ∀ versions : List RdfVersion,
        stored.etag format served ∈
            Format.all.flatMap (fun format =>
              versions.map (stored.etag format)) ↔
          served ∈ versions := by
    intro versions
    rw [List.mem_flatMap]
    constructor
    · rintro ⟨other, _, isTag⟩
      obtain ⟨version, isVersion, same⟩ := List.mem_map.mp isTag
      rw [← (listing_inj (etag_inj collisionFree same)).2.1]
      exact isVersion
    · intro isVersion
      refine ⟨format, ?_, List.mem_map.mpr ⟨served, isVersion, rfl⟩⟩
      cases format <;> decide
  unfold etagCandidates
  dsimp only
  rw [listed]
  change served ∈ (if stored.held = .rdf11 then _ else _) ↔ _
  split
  · next isPlain =>
      simp [isPlain]
  · simp [held]

omit [IriSyntax] [Sha256] [QuadText] in
/-- The lower of two versions lies strictly between only in one way. -/
theorem RdfVersion.min_listed_iff (requested held : RdfVersion) :
    (requested.min held = .rdf11 ∨ requested.min held = held) ↔
      ¬ (held = .rdf12 ∧ requested = .rdf12Basic) := by
  cases requested <;> cases held <;> decide

variable [ObjectPath] [RdfSerializer] [Quality] {space : StorageSpace}

/-- The tags of what the graph of a target holds. -/
def graphTags (target : Target space) :
    ResourceProgram (Option (List Text)) := do
  match ← getRdf target with
  | none => pure none
  | some triples =>
      match Skolemized.fromStore (asQuads triples) with
      | some ground => pure (some (etagCandidates ground))
      | none => .fail .panicked

omit [RdfSerializer] [Quality] in
/-- The current tags of a target that holds RDF. -/
theorem eval_currentTags
    {world : World} {target : Target space} {stored : Skolemized}
    (isStored : world.storedRdf target = some stored) :
    Program.eval backend (currentTags target) world =
      (.ok (some (etagCandidates stored)), world) := by
  have ofGraph :
      world.present target.node = true →
      stored = world.graphQuads (graphIri target) →
      Program.eval backend (graphTags target) world =
        (.ok (some (etagCandidates stored)), world) := by
    rintro isPresent rfl
    have read := eval_getRdf world target
    rw [isPresent, if_pos rfl] at read
    have grounded :
        Skolemized.fromStore (asQuads (world.triplesOf (graphIri target))) =
          some (world.graphQuads (graphIri target)) :=
      groundDataset_triplesOf world _
    unfold graphTags
    rw [Program.eval_bind_ok read]
    dsimp only
    rw [grounded]
    rfl
  cases target with
  | resource url leaf =>
      obtain ⟨isRdf, read⟩ := World.storedRdf_resource isStored
      have kind := eval_kindOf world url
      rw [isRdf] at kind
      unfold currentTags
      dsimp only
      rw [Program.eval_bind_ok kind]
      dsimp only
      rw [Program.eval_bind_ok read]
      rfl
  | container url =>
      obtain ⟨isPresent, same⟩ := World.storedRdf_graph (by simp) isStored
      exact ofGraph isPresent same
  | aux url =>
      obtain ⟨isPresent, same⟩ := World.storedRdf_graph (by simp) isStored
      exact ofGraph isPresent same

omit [RdfSerializer] [Quality] in
/-- When a write with `If-Match` passes the check of its preconditions. -/
theorem eval_checkConditionals
    {world : World} {target : Target space} {stored : Skolemized}
    {headers : HeaderMap} {tag : Text}
    (isStored : world.storedRdf target = some stored)
    (ifMatch : headers.str? .ifMatch = some tag)
    (notAny : headers.str? .ifNoneMatch ≠ some "*".toList) :
    (Program.eval backend (checkConditionals headers target) world).1 =
      if tag ∈ etagCandidates stored then .ok () else .error (.ofStatus 412) := by
  have conditional : headers.containsKey .ifMatch = true := by
    unfold HeaderMap.str? at ifMatch
    unfold HeaderMap.containsKey
    cases found : headers.lookup .ifMatch with
    | none =>
        rw [found] at ifMatch
        cases ifMatch
    | some value =>
        rfl
  have tags :
      Program.eval backend
          (Program.mapError putError (currentTags target)) world =
        (.ok (some (etagCandidates stored)), world) := by
    rw [Program.eval_mapError, eval_currentTags isStored]
    rfl
  unfold checkConditionals
  rw [conditional]
  simp only [Bool.not_true, Bool.false_and, Bool.false_eq_true, ↓reduceIte]
  rw [Program.eval_bind_ok tags]
  simp only [ifMatch, Option.all_some, Option.any_some, List.contains_eq_mem,
    Bool.not_eq_true', decide_eq_false_iff_not]
  by_cases isCurrent : tag ∈ etagCandidates stored
  · have notRefused :
        ¬ (decide (headers.str? .ifNoneMatch = some "*".toList) &&
          (some (etagCandidates stored)).isSome) = true := by
      rw [decide_eq_false notAny]
      exact Bool.false_ne_true
    rw [if_neg (by simpa using isCurrent), if_pos isCurrent,
      if_neg notRefused]
    rfl
  · rw [if_pos isCurrent, if_neg isCurrent]
    rfl

/-- The tag `GET` serves of a stored RDF state is the one of its selection. -/
theorem served_tag_of_stored
    {world : World} {target : Target space} {stored : Skolemized}
    {storeVersion : RdfVersion} {agent : Agent} {headers : HeaderMap}
    {response : Response} {tag : Text}
    (isStored : world.storedRdf target = some stored)
    (served :
      (Program.eval backend (getImpl storeVersion agent target headers)
        world).1 = .ok response)
    (tagged : response.header "etag".toList = some tag) :
    ∃ format requested,
      world.negotiated target headers stored = some (format, requested) ∧
        tag = stored.etag format (requested.min stored.held) := by
  obtain ⟨selection, selects, shown⟩ := getImpl_selects served (Or.inr ⟨tag, tagged⟩)
  have sameTag : tag = selection.tag :=
    Option.some.inj (tagged.symm.trans shown.tag)
  cases selects with
  | rdf isOther isNegotiated =>
      rw [isStored] at isOther
      cases isOther
      exact ⟨_, _, isNegotiated, sameTag⟩
  | blob isTarget isBinary isAcceptable isKey isThere =>
      subst isTarget
      rw [(World.storedRdf_resource isStored).1] at isBinary
      cases isBinary

/-- A write that only asks for one tag, and names a representation. -/
def HeaderMap.Matches (headers : HeaderMap) (tag : Text) : Prop :=
  headers.str? .ifMatch = some tag ∧
    headers.str? .ifNoneMatch ≠ some "*".toList

/--
The tag `GET` serves of a stored RDF state is one of the current tags, and a
write that is made with it passes the check of its preconditions in that state,
exactly when the client did not ask for 1.2-basic of a dataset that needs 1.2.
-/
theorem served_etag_current_iff
    (collisionFree : CollisionFree)
    {world : World} {target : Target space} {stored : Skolemized}
    {storeVersion : RdfVersion} {agent : Agent} {headers : HeaderMap}
    {response : Response} {tag : Text}
    (isStored : world.storedRdf target = some stored)
    (served :
      (Program.eval backend (getImpl storeVersion agent target headers)
        world).1 = .ok response)
    (tagged : response.header "etag".toList = some tag) :
    ((∃ tags,
        (Program.eval backend (currentTags target) world).1 =
            .ok (some tags) ∧
          tag ∈ tags) ∧
      ∀ write : HeaderMap,
        write.Matches tag →
        (Program.eval backend (checkConditionals write target) world).1 =
          .ok ()) ↔
      ¬ (stored.held = .rdf12 ∧
        ∃ format,
          world.negotiated target headers stored =
            some (format, .rdf12Basic)) := by
  obtain ⟨format, requested, isNegotiated, rfl⟩ :=
    served_tag_of_stored isStored served tagged
  have listed :
      stored.etag format (requested.min stored.held) ∈
          etagCandidates stored ↔
        ¬ (stored.held = .rdf12 ∧ requested = .rdf12Basic) :=
    (stored.etag_mem_candidates collisionFree format _).trans
      (RdfVersion.min_listed_iff requested stored.held)
  have condition :
      (∃ other,
        world.negotiated target headers stored =
          some (other, .rdf12Basic)) ↔
        requested = .rdf12Basic := by
    rw [isNegotiated]
    simp
  rw [condition, ← listed]
  constructor
  · rintro ⟨⟨tags, isTags, isCurrent⟩, _⟩
    rw [eval_currentTags isStored] at isTags
    cases isTags
    exact isCurrent
  · intro isCurrent
    refine ⟨⟨_, congrArg Prod.fst (eval_currentTags isStored), isCurrent⟩, ?_⟩
    rintro write ⟨ifMatch, notAny⟩
    rw [eval_checkConditionals isStored ifMatch notAny, if_pos isCurrent]

end Quadpod

namespace Quadpod.Reference

open AtomicProgram

/-- Merging sorts what the comparator orders. -/
theorem pairwise_mergeSort_of_totalOn {Entry : Type}
    {cmp : Entry → Entry → Ordering} {entries : List Entry}
    (total : TotalOn cmp entries) :
    (entries.mergeSort fun first second =>
        (cmp first second).isLE).Pairwise fun first second =>
      (cmp first second).isLE = true := by
  have attached :
      (entries.attach.mergeSort fun first second =>
        (cmp first.1 second.1).isLE).Pairwise fun first second =>
          (cmp first.1 second.1).isLE = true := by
    refine List.pairwise_mergeSort ?_ ?_ _
    · rintro ⟨first, firstMember⟩ ⟨second, secondMember⟩
        ⟨third, thirdMember⟩ lower upper
      exact total.trans first firstMember second secondMember third thirdMember
        lower upper
    · rintro ⟨first, firstMember⟩ ⟨second, secondMember⟩
      rw [total.swap first firstMember second secondMember]
      cases cmp first second <;> rfl
  have detached :
      (entries.attach.mergeSort fun first second =>
        (cmp first.1 second.1).isLE).map Subtype.val =
          entries.mergeSort fun first second => (cmp first second).isLE := by
    rw [List.map_mergeSort
      (s := fun first second => (cmp first second).isLE)
      fun _ _ _ _ => rfl, List.attach_map_subtype_val]
  rw [← detached, List.pairwise_map]
  exact attached

/-- A sort that merges. -/
@[reducible] def mergeSorting : SliceSort where
  sortBy cmp entries :=
    entries.mergeSort fun first second => (cmp first second).isLE
  perm _ entries := List.mergeSort_perm entries _
  sorted _ _ total := pairwise_mergeSort_of_totalOn total

/-- Quality values in thousandths, with at most one digit after the point. -/
scoped instance : Quality where
  toSliceSort := mergeSorting
  Value := Nat
  parse text :=
    if text = "0".toList then
      some 0
    else if text = "1".toList then
      some 1000
    else
      match Text.stripPrefix "0.".toList text with
      | some [digit] =>
          if digit.isDigit then some (100 * (digit.toNat - 48)) else none
      | _ => none
  one := 1000
  isZero value := value == 0
  isPositive value := 0 < value
  partialCmp first second := some (compare first second)
  notZero value positive := by
    cases value with
    | zero =>
        cases positive
    | succ value =>
        rfl

/-- A request for Turtle at some version. -/
def turtleAt (version : RdfVersion) : HeaderMap :=
  [(.accept, some ("text/turtle;version=".toList ++ version.label))]

theorem negotiate_turtleAt (version : RdfVersion) (format : Option Format) :
    negotiate (headerStr (turtleAt version) .accept) .graph format =
      some (.turtle, version) := by
  have ranked :
      rankedAccept (Text.trim (headerStr (turtleAt version) .accept)) =
        [acceptRange 0 (Text.trim (headerStr (turtleAt version) .accept))] := by
    refine rankedAccept_of_single ?_
    cases version <;> decide
  unfold negotiate
  simp only [ranked]
  cases version <;> rcases format with _ | (_ | _ | _ | _ | _) <;>
    rfl

/-- The resource `/note` as a target. -/
def noteTarget : Target podSpace := .resource note (by decide)

/-- The statement about a statement, as it is stored. -/
def stated : Skolemized where
  quads :=
    [⟨owner, plainPredicate,
      .triple owner plainPredicate (.namedNode owner), .defaultGraph⟩]

/-- It is what the resource holds, and the owner may read it. -/
theorem run_putStated :
    statedWorld.storedRdf noteTarget = some stated ∧
      ((statedWorld.guard ownerAgent noteTarget).authorize .read).isOk =
        true := by
  decide +kernel

theorem storedRdf_statedWorld :
    statedWorld.storedRdf noteTarget = some stated :=
  run_putStated.1

theorem granted_statedWorld :
    ((statedWorld.guard ownerAgent noteTarget).authorize .read).isOk = true :=
  run_putStated.2

theorem held_stated : stated.held = .rdf12 := by
  decide

/-- Any version of the statement about a statement can be selected. -/
theorem selects_stated
    {world : World} (isStored : world.storedRdf noteTarget = some stated)
    (version : RdfVersion) :
    world.Selects noteTarget (turtleAt version)
      (.rdf stated .turtle version) := by
  have single : storedShape stated = .graph := by decide
  have negotiated :=
    negotiate_turtleAt version
      (storedFormat (.ok (world.storedMediaType note)))
  rw [← single] at negotiated
  exact .rdf isStored negotiated

/-- What the owner may read is served. -/
theorem getImpl_granted
    {world : World} {target : Target podSpace} {headers : HeaderMap}
    {selection : Selection} {bytes : Bytes}
    (granted :
      ((world.guard ownerAgent target).authorize .read).isOk = true)
    (selects : world.Selects target headers selection)
    (isBody : selection.body = .ok bytes)
    (unconditional : headers.str? .ifNoneMatch = none) :
    ∃ response,
      (Program.eval backend (getImpl .rdf12 ownerAgent target headers)
          world).1 = .ok response ∧
        response.status = 200 ∧
        selection.Shown response := by
  cases decided : (world.guard ownerAgent target).authorize .read with
  | error denial =>
      rw [decided] at granted
      cases granted
  | ok decision =>
      exact getImpl_serves decided selects isBody unconditional

/-- A write that only asks for one tag. -/
theorem matches_single (tag : Text) :
    HeaderMap.Matches [(.ifMatch, some tag)] tag := by
  refine ⟨rfl, ?_⟩
  intro impossible
  cases impossible

/-- A client that asks for 1.2 is served a current tag. -/
theorem served_etag_current_stated :
    ∃ response tag,
      (Program.eval backend
          (getImpl .rdf12 ownerAgent noteTarget (turtleAt .rdf12))
            statedWorld).1 = .ok response ∧
        response.header "etag".toList = some tag ∧
        (Program.eval backend
          (checkConditionals [(.ifMatch, some tag)] noteTarget)
            statedWorld).1 = .ok () := by
  have selects := selects_stated storedRdf_statedWorld .rdf12
  obtain ⟨response, served, _, shown⟩ :=
    getImpl_granted granted_statedWorld selects rfl rfl
  have current :=
    (served_etag_current_iff collisionFree storedRdf_statedWorld served
      shown.tag).mpr (by
        cases selects with
        | rdf _ isNegotiated =>
            simp [isNegotiated])
  exact ⟨response, _, served, shown.tag,
    current.2 [(.ifMatch, some _)] (matches_single _)⟩

/-- A client that asks for 1.2-basic is served a tag that is never current. -/
theorem served_etag_not_current :
    ∃ response tag,
      (Program.eval backend
          (getImpl .rdf12 ownerAgent noteTarget (turtleAt .rdf12Basic))
            statedWorld).1 = .ok response ∧
        response.header "etag".toList = some tag ∧
        (∀ tags,
          (Program.eval backend (currentTags noteTarget) statedWorld).1 =
            .ok (some tags) →
          tag ∉ tags) ∧
        (Program.eval backend
          (checkConditionals [(.ifMatch, some tag)] noteTarget)
            statedWorld).1 = .error (.ofStatus 412) := by
  obtain ⟨response, served, _, shown⟩ :=
    getImpl_granted granted_statedWorld
      (selects_stated storedRdf_statedWorld .rdf12Basic) rfl rfl
  have missing :
      (Selection.rdf stated .turtle .rdf12Basic).tag ∉
        etagCandidates stated := by
    change stated.etag .turtle (RdfVersion.min .rdf12Basic stated.held) ∉ _
    rw [stated.etag_mem_candidates collisionFree, held_stated]
    decide
  refine ⟨response, _, served, shown.tag, ?_, ?_⟩
  · intro tags isTags
    rw [eval_currentTags storedRdf_statedWorld] at isTags
    cases isTags
    exact missing
  · rw [eval_checkConditionals storedRdf_statedWorld rfl
      (matches_single _).2, if_neg missing]

end Quadpod.Reference
