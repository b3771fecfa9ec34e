import Mathlib.Data.List.Perm.Basic
import Quadpod.DatasetVersions
import Quadpod.EntityTags

namespace Quadpod

open AtomicProgram

/-!
# Equal validators, equal representations

The validator of an RDF representation hashes the stored quads, while its body
is what comes out of reading blank nodes back, keeping what the format carries,
projecting and sorting again.  Each of these steps depends only on the multiset
of quads, so two representations that share a validator are the same document.
A blob is hashed as it is: the bytes that a dataset's listing consists of have
that dataset's validator and are another document.
-/

/-! ## Lines and orders -/

/-- Texts without line breaks can be told apart when each ends its line. -/
theorem flatMap_newline_inj
    {first second : List Text}
    (firstLines : ∀ line ∈ first, '\n' ∉ line)
    (secondLines : ∀ line ∈ second, '\n' ∉ line)
    (same : first.flatMap (· ++ ['\n']) = second.flatMap (· ++ ['\n'])) :
    first = second := by
  induction first generalizing second with
  | nil =>
      cases second with
      | nil =>
          rfl
      | cons line rest =>
          simp at same
  | cons line rest inductionHypothesis =>
      cases second with
      | nil =>
          simp at same
      | cons otherLine otherRest =>
          simp only [List.flatMap_cons, List.append_assoc,
            List.singleton_append] at same
          obtain ⟨sameLine, sameRest⟩ :=
            Text.append_cons_inj_of_not_mem (firstLines line (by simp))
              (secondLines otherLine (by simp)) same
          have restEqual :=
            inductionHypothesis
              (fun other member => firstLines other (by simp [member]))
              (fun other member => secondLines other (by simp [member]))
              sameRest
          rw [sameLine, restEqual]

theorem textLe_trans {first second third : Text}
    (lower : textLe first second = true) (upper : textLe second third = true) :
    textLe first third = true :=
  Std.TransOrd.isLE_trans lower upper

theorem textLe_total (first second : Text) :
    (textLe first second || textLe second first) = true := by
  rw [Bool.or_eq_true]
  by_cases isLe : (compare (Text.utf8 first) (Text.utf8 second)).isLE = true
  · exact Or.inl isLe
  · have isLt :=
      Std.OrientedCmp.lt_of_not_isLE isLe
    exact Or.inr (by rw [textLe, isLt]; rfl)

theorem textLe_antisymm {first second : Text}
    (lower : textLe first second = true) (upper : textLe second first = true) :
    first = second :=
  Text.utf8_injective
    (Std.LawfulEqOrd.eq_of_compare (Std.OrientedCmp.isLE_antisymm lower upper))

/-- Sorting by a key that tells items apart forgets their order. -/
theorem mergeSort_eq_of_perm {α : Type} {key : α → Text}
    (injective : Function.Injective key) {first second : List α}
    (perm : first.Perm second) :
    first.mergeSort (fun left right => textLe (key left) (key right)) =
      second.mergeSort (fun left right => textLe (key left) (key right)) := by
  have sorted :
      ∀ items : List α,
        (items.mergeSort fun left right =>
          textLe (key left) (key right)).Pairwise fun left right =>
            textLe (key left) (key right) = true :=
    List.pairwise_mergeSort (fun _ _ _ => textLe_trans)
      (fun _ _ => textLe_total _ _)
  refine List.Perm.eq_of_pairwise ?_ (sorted first) (sorted second) ?_
  · intro left right _ _ lower upper
    exact injective (textLe_antisymm lower upper)
  · exact (List.mergeSort_perm first _).trans
      (perm.trans (List.mergeSort_perm second _).symm)

variable [IriSyntax]

theorem GroundQuad.toQuad_injective :
    Function.Injective GroundQuad.toQuad := by
  intro first second same
  have read := fromStore_toQuad [first]
  rw [List.map_singleton, same, ← List.map_singleton,
    fromStore_toQuad [second]] at read
  cases read
  rfl

/-! ## One stored multiset -/

section Rdf

variable [QuadText]

/-- Equal lines mean equal quads, up to their order. -/
theorem Skolemized.perm_of_lines
    (displayInjective : Function.Injective (QuadText.display : Quad → Text))
    {first second : Skolemized} (same : first.lines = second.lines) :
    first.quads.Perm second.quads := by
  have printed :
      Function.Injective
        fun quad : GroundQuad => QuadText.display quad.toQuad :=
    displayInjective.comp GroundQuad.toQuad_injective
  rw [← List.map_perm_map_iff printed]
  refine (List.mergeSort_perm _ textLe).symm.trans ?_
  change first.lines.Perm _
  rw [same]
  exact List.mergeSort_perm _ textLe

theorem Skolemized.perm_of_listing
    (displayInjective : Function.Injective (QuadText.display : Quad → Text))
    (oneLine : ∀ quad : Quad, '\n' ∉ QuadText.display quad)
    {first second : Skolemized} {firstFormat secondFormat : Format}
    {firstServed secondServed : RdfVersion}
    (same :
      first.listing firstFormat firstServed =
        second.listing secondFormat secondServed) :
    firstFormat = secondFormat ∧
      firstServed = secondServed ∧ first.quads.Perm second.quads := by
  have newlineFree :
      ∀ stored : Skolemized, ∀ line ∈ stored.lines, '\n' ∉ line := by
    intro stored line member
    rw [lines, (List.mergeSort_perm _ textLe).mem_iff, List.mem_map] at member
    obtain ⟨quad, _, rfl⟩ := member
    exact oneLine quad.toQuad
  obtain ⟨sameFormat, sameServed, sameText⟩ := listing_inj same
  exact ⟨sameFormat, sameServed, perm_of_lines displayInjective
    (flatMap_newline_inj (newlineFree first) (newlineFree second) sameText)⟩

variable [RdfSerializer]

/-- A document depends only on the multiset of quads. -/
theorem Format.serialize_eq_of_perm
    (displayInjective : Function.Injective (QuadText.display : Quad → Text))
    (format : Format) {first second : Dataset}
    (perm : first.quads.Perm second.quads) :
    format.serialize first = format.serialize second := by
  unfold Format.serialize
  rw [mergeSort_eq_of_perm displayInjective perm]

omit [QuadText] [RdfSerializer] in
theorem Skolemized.deskolemize_perm
    {first second : Skolemized} (perm : first.quads.Perm second.quads) :
    first.deskolemize.quads.Perm second.deskolemize.quads :=
  perm.map _

omit [QuadText] [RdfSerializer] in
theorem Skolemized.held_eq_of_perm
    {first second : Skolemized} (perm : first.quads.Perm second.quads) :
    first.held = second.held :=
  Dataset.rdfVersion_congr fun _ => (deskolemize_perm perm).mem_iff

omit [QuadText] [RdfSerializer] in
theorem carriedBy_perm
    (format : Format) {first second : Dataset}
    (perm : first.quads.Perm second.quads) :
    (carriedBy format first).quads.Perm (carriedBy format second).quads := by
  unfold carriedBy
  split
  · exact perm
  · exact perm.filter _

/-- Two RDF selections of one validator have one body and one type. -/
theorem Selection.rdf_eq_of_listing
    (displayInjective : Function.Injective (QuadText.display : Quad → Text))
    (oneLine : ∀ quad : Quad, '\n' ∉ QuadText.display quad)
    {first second : Skolemized} {firstFormat secondFormat : Format}
    {firstRequested secondRequested : RdfVersion}
    (same :
      first.listing firstFormat (firstRequested.min first.held) =
        second.listing secondFormat (secondRequested.min second.held)) :
    (Selection.rdf first firstFormat firstRequested).body =
        (Selection.rdf second secondFormat secondRequested).body ∧
      (Selection.rdf first firstFormat firstRequested).type =
        (Selection.rdf second secondFormat secondRequested).type := by
  obtain ⟨rfl, sameServed, perm⟩ :=
    Skolemized.perm_of_listing displayInjective oneLine same
  have sameHeld := Skolemized.held_eq_of_perm perm
  have projected :
      ((carriedBy firstFormat first.deskolemize).projectTo
          (firstRequested.min first.held)).quads.Perm
        ((carriedBy firstFormat second.deskolemize).projectTo
          (firstRequested.min first.held)).quads :=
    Dataset.projectTo_perm _
      (carriedBy_perm firstFormat (Skolemized.deskolemize_perm perm))
  constructor
  · unfold body
    dsimp only
    rw [← sameServed,
      Format.serialize_eq_of_perm displayInjective firstFormat projected]
  · unfold type
    dsimp only
    rw [← sameServed, sameHeld]

end Rdf

/-! ## What one URL can show -/

variable [QuadText] [RdfSerializer] [Sha256] [ObjectPath] [Quality]
variable {space : StorageSpace}

/-- A blob whose bytes are what the validator of the other selection hashes. -/
def Selection.Forges : Selection → Selection → Prop
  | .blob bytes _, .rdf stored format requested =>
      bytes =
        Text.utf8 (stored.listing format (requested.min stored.held))
  | _, _ => False

omit [QuadText] [Sha256] in
/--
No document starts with its own media type as a line: that line is no XML and no
JSON, and no statement of the line-based formats.
-/
def SerializesDocuments : Prop :=
  ∀ (format : Format) (quads : List Quad) (text : Text),
    RdfSerializer.serialize format quads = .ok text →
    ¬ (format.mediaType ++ ['\n']) <+: text

omit [Sha256] [ObjectPath] [Quality] in
/-- A forged validator stands for another body. -/
theorem Selection.Forges.body_ne
    (documents : SerializesDocuments)
    {blob other : Selection} {bytes : Bytes}
    (forges : blob.Forges other) (isBody : other.body = .ok bytes) :
    blob.body ≠ .ok bytes := by
  cases blob with
  | rdf stored format requested =>
      exact forges.elim
  | blob forged mediaType =>
      cases other with
      | blob otherBytes otherType =>
          exact forges.elim
      | rdf stored format requested =>
          intro sameBody
          obtain ⟨text, written, isText⟩ := Selection.body_eq_ok isBody
          have isListing :
              stored.listing format (requested.min stored.held) = text := by
            apply Text.utf8_injective
            rw [← isText, ← Except.ok.inj sameBody]
            exact forges.symm
          have isDocument :
              ∃ quads, RdfSerializer.serialize format quads = .ok text := by
            unfold Format.serialize at written
            dsimp only at written
            revert written
            generalize List.mergeSort _ _ = quads
            intro written
            refine ⟨quads, ?_⟩
            cases outcome : RdfSerializer.serialize format quads with
            | error error =>
                rw [outcome] at written
                cases written
            | ok other =>
                rw [outcome] at written
                exact congrArg Except.ok (Except.ok.inj written)
          obtain ⟨quads, isDocument⟩ := isDocument
          refine documents format quads text isDocument ?_
          rw [← isListing, Skolemized.listing, List.append_assoc,
            List.append_assoc]
          exact List.prefix_append _ _

omit [RdfSerializer] [ObjectPath] [Quality] in
/-- A blob and a dataset share a validator only when the blob forges it. -/
theorem Selection.forges_iff
    (collisionFree : CollisionFree) (bytes : Bytes) (mediaType : MediaType)
    (stored : Skolemized) (format : Format) (requested : RdfVersion) :
    (Selection.blob bytes mediaType).tag =
        (Selection.rdf stored format requested).tag ↔
      (Selection.blob bytes mediaType).Forges
        (.rdf stored format requested) := by
  constructor
  · exact quoted_digest_inj collisionFree
  · exact congrArg blobEtag

/-- What a strong validator promises of two representations that share it. -/
def Selection.SameDocument (first second : Selection) : Prop :=
  first.body = second.body ∧
    (first.isRdf = true → second.isRdf = true → first.type = second.type)

omit [ObjectPath] [Quality] in
/-- The validators of two selections are strong unless one forges the other. -/
theorem Selection.sameDocument_iff
    (collisionFree : CollisionFree)
    (displayInjective : Function.Injective (QuadText.display : Quad → Text))
    (oneLine : ∀ quad : Quad, '\n' ∉ QuadText.display quad)
    (documents : SerializesDocuments)
    {first second : Selection} {firstBytes secondBytes : Bytes}
    (firstBody : first.body = .ok firstBytes)
    (secondBody : second.body = .ok secondBytes) :
    (first.tag = second.tag → first.SameDocument second) ↔
      ¬ first.Forges second ∧ ¬ second.Forges first := by
  cases first with
  | rdf stored format requested =>
      cases second with
      | rdf otherStored otherFormat otherRequested =>
          refine ⟨fun _ => ⟨id, id⟩, fun _ same => ?_⟩
          obtain ⟨sameBody, sameType⟩ :=
            rdf_eq_of_listing displayInjective oneLine
              (Skolemized.etag_inj collisionFree same)
          exact ⟨sameBody, fun _ _ => sameType⟩
      | blob bytes mediaType =>
          have forged := forges_iff collisionFree bytes mediaType stored format
            requested
          constructor
          · refine fun strong => ⟨id, fun forges => ?_⟩
            have same := strong (forged.mpr forges).symm
            exact forges.body_ne documents firstBody
              (same.1.symm.trans firstBody)
          · rintro ⟨_, honest⟩ same
            exact (honest (forged.mp same.symm)).elim
  | blob bytes mediaType =>
      cases second with
      | rdf stored format requested =>
          have forged := forges_iff collisionFree bytes mediaType stored format
            requested
          constructor
          · refine fun strong => ⟨fun forges => ?_, id⟩
            have same := strong (forged.mpr forges)
            exact forges.body_ne documents secondBody
              (same.1.trans secondBody)
          · rintro ⟨honest, _⟩ same
            exact (honest (forged.mp same)).elim
      | blob otherBytes otherType =>
          refine ⟨fun _ => ⟨id, id⟩, fun _ same => ⟨?_, fun isRdf => ?_⟩⟩
          · exact congrArg Except.ok (quoted_digest_inj collisionFree same)
          · cases isRdf

/--
Two representations of one URL, served from any two states, whose validators are
equal have the same body, and as RDF the same type, exactly when neither is a
blob that consists of the listing the other's validator is computed from.
-/
theorem equal_etags_same_representation_iff
    (collisionFree : CollisionFree)
    (displayInjective : Function.Injective (QuadText.display : Quad → Text))
    (oneLine : ∀ quad : Quad, '\n' ∉ QuadText.display quad)
    (documents : SerializesDocuments)
    {firstWorld secondWorld : World} {target : Target space}
    {storeVersion : RdfVersion} {firstAgent secondAgent : Agent}
    {firstHeaders secondHeaders : HeaderMap}
    {firstResponse secondResponse : Response}
    {firstTag secondTag : Text} {first second : Selection}
    (firstSelects : firstWorld.Selects target firstHeaders first)
    (secondSelects : secondWorld.Selects target secondHeaders second)
    (firstServed :
      (Program.eval backend
        (getImpl storeVersion firstAgent target firstHeaders)
          firstWorld).1 = .ok firstResponse)
    (secondServed :
      (Program.eval backend
        (getImpl storeVersion secondAgent target secondHeaders)
          secondWorld).1 = .ok secondResponse)
    (firstWhole : firstResponse.status = 200)
    (secondWhole : secondResponse.status = 200)
    (firstTagged : firstResponse.header "etag".toList = some firstTag)
    (secondTagged : secondResponse.header "etag".toList = some secondTag) :
    (firstTag = secondTag →
      firstResponse.body = secondResponse.body ∧
        (first.isRdf = true →
          second.isRdf = true →
          firstResponse.header "content-type".toList =
            secondResponse.header "content-type".toList)) ↔
      ¬ first.Forges second ∧ ¬ second.Forges first := by
  obtain ⟨firstSelection, firstOther, firstShown⟩ :=
    getImpl_selects firstServed (Or.inl firstWhole)
  cases firstSelects.unique firstOther
  obtain ⟨secondSelection, secondOther, secondShown⟩ :=
    getImpl_selects secondServed (Or.inl secondWhole)
  cases secondSelects.unique secondOther
  obtain ⟨firstType, firstBody⟩ := firstShown.whole firstWhole
  obtain ⟨secondType, secondBody⟩ := secondShown.whole secondWhole
  rw [← Selection.sameDocument_iff collisionFree displayInjective oneLine
      documents firstBody secondBody, Selection.SameDocument, firstBody,
    secondBody, firstType, secondType, Except.ok.injEq, Option.some.injEq,
    Option.some.inj (firstTagged.symm.trans firstShown.tag),
    Option.some.inj (secondTagged.symm.trans secondShown.tag)]

end Quadpod

namespace Quadpod.Reference

open AtomicProgram

theorem serializesDocuments : SerializesDocuments := by
  intro format quads text isDocument starts
  cases isDocument
  have opens : ∀ quad : Quad,
      (displayQuad quad).head? = some '<' ∨
        (displayQuad quad).head? = some '_' := by
    intro quad
    unfold displayQuad
    cases quad.subject with
    | namedNode node =>
        exact Or.inl rfl
    | blankNode blank =>
        exact Or.inr rfl
  cases quads with
  | nil =>
      have empty := List.prefix_nil.mp starts
      cases format <;> cases empty
  | cons quad rest =>
      have started :
          (document (quad :: rest)).head? = (displayQuad quad).head? := by
        rcases opens quad with isHead | isHead
        · obtain ⟨tail, isTail⟩ := List.head?_eq_some_iff.mp isHead
          rw [document, List.flatMap_cons, isTail]
          rfl
        · obtain ⟨tail, isTail⟩ := List.head?_eq_some_iff.mp isHead
          rw [document, List.flatMap_cons, isTail]
          rfl
      obtain ⟨tail, isWhole⟩ := starts
      rw [← isWhole] at started
      rcases opens quad with isHead | isHead
      · rw [isHead] at started
        cases format <;> cases started
      · rw [isHead] at started
        cases format <;> cases started

/-- The statement about a statement replaces another one. -/
def replacedWorld : World :=
  afterRequest podSpace .rdf12 (putStated "/note".toList) [] notedWorld

theorem run_replaced :
    replacedWorld.storedRdf noteTarget = some stated ∧
      ((replacedWorld.guard ownerAgent noteTarget).authorize .read).isOk =
        true := by
  decide +kernel

/-- The bytes that are served do not depend on what was replaced. -/
theorem equal_etags_replaced :
    ∃ first second tag,
      (Program.eval backend
          (getImpl .rdf12 ownerAgent noteTarget (turtleAt .rdf12))
            statedWorld).1 = .ok first ∧
        (Program.eval backend
          (getImpl .rdf12 ownerAgent noteTarget (turtleAt .rdf12))
            replacedWorld).1 = .ok second ∧
        first.header "etag".toList = some tag ∧
        second.header "etag".toList = some tag ∧
        first.body = second.body := by
  obtain ⟨isStored, granted⟩ := run_replaced
  have firstSelects := selects_stated storedRdf_statedWorld .rdf12
  have secondSelects := selects_stated isStored .rdf12
  obtain ⟨first, firstServed, firstWhole, firstShown⟩ :=
    getImpl_granted granted_statedWorld firstSelects rfl rfl
  obtain ⟨second, secondServed, secondWhole, secondShown⟩ :=
    getImpl_granted granted secondSelects rfl rfl
  have strong :=
    (equal_etags_same_representation_iff collisionFree displayQuad_injective
      not_mem_displayQuad serializesDocuments firstSelects secondSelects
      firstServed secondServed firstWhole secondWhole firstShown.tag
      secondShown.tag).mpr ⟨id, id⟩
  exact ⟨first, second, _, firstServed, secondServed, firstShown.tag,
    secondShown.tag, (strong rfl).1⟩

/-- The bytes the validator of the statement about a statement hashes. -/
def forgedBytes : Bytes :=
  Text.utf8 ("text/turtle\n1.2\n".toList ++ displayQuad
    ⟨.namedNode owner, plainPredicate,
      .triple (.namedNode owner) plainPredicate (.namedNode owner),
      .defaultGraph⟩ ++ ['\n'])

/-- The owner stores these bytes as a text. -/
def putForged : Request where
  method := .put
  path := "/note".toList
  agent := ownerAgent
  headers := [(.contentType, some "text/plain".toList)]
  body := forgedBytes
  draws := draws

/-- The world after they were stored. -/
def forgedWorld : World :=
  afterRequest podSpace .rdf12 putForged [] freshWorld

theorem listing_stated :
    Text.utf8 (stated.listing .turtle (RdfVersion.min .rdf12 stated.held)) =
      forgedBytes := by
  rw [held_stated, Skolemized.listing, Skolemized.lines, stated,
    List.map_singleton, List.mergeSort_singleton]
  rfl

theorem noteKey : BlobKey.of note = some ⟨"note".toList⟩ := by
  decide

/-- The blob is there, and the owner may read it. -/
theorem run_putForged :
    forgedWorld.kindOf note = .ok (some (.binary plainText)) ∧
      forgedWorld.blobs ⟨"note".toList⟩ = some forgedBytes ∧
      ((forgedWorld.guard ownerAgent noteTarget).authorize .read).isOk =
        true := by
  decide +kernel

/-- A text that is served under the validator of a dataset. -/
theorem equal_etags_forged :
    ∃ first second tag,
      (Program.eval backend
          (getImpl .rdf12 ownerAgent noteTarget (turtleAt .rdf12))
            statedWorld).1 = .ok first ∧
        (Program.eval backend (getImpl .rdf12 ownerAgent noteTarget [])
          forgedWorld).1 = .ok second ∧
        first.status = 200 ∧
        second.status = 200 ∧
        first.header "etag".toList = some tag ∧
        second.header "etag".toList = some tag ∧
        first.body ≠ second.body := by
  obtain ⟨isBinary, isThere, granted⟩ := run_putForged
  have forgedSelects :
      forgedWorld.Selects noteTarget [] (.blob forgedBytes plainText) :=
    .blob rfl isBinary rfl noteKey isThere
  obtain ⟨first, firstServed, firstWhole, firstShown⟩ :=
    getImpl_granted granted_statedWorld
      (selects_stated storedRdf_statedWorld .rdf12) rfl rfl
  obtain ⟨second, secondServed, secondWhole, secondShown⟩ :=
    getImpl_granted granted forgedSelects rfl rfl
  have forges :
      (Selection.blob forgedBytes plainText).Forges
        (.rdf stated .turtle .rdf12) :=
    listing_stated.symm
  have sameTag :=
    (Selection.forges_iff collisionFree _ _ _ _ _).mpr forges
  refine ⟨first, second, _, firstServed, secondServed, firstWhole,
    secondWhole, firstShown.tag, secondShown.tag.trans
      (congrArg some sameTag), fun same => ?_⟩
  refine forges.body_ne serializesDocuments (firstShown.whole firstWhole).2 ?_
  rw [same]
  exact (secondShown.whole secondWhole).2

end Quadpod.Reference
