import Quadpod.NegotiatedFormats
import Quadpod.VersionParameters

namespace Quadpod

/-!
# Ranges that go unanswered

`negotiate` answers a range by its name, or a wildcard out of a short list:
Turtle, JSON-LD, and for `*/*` what is stored.  A range with a parameter that
has no value is passed over, and so is a wildcard whose short list is refused,
although other formats would do.
-/

section Passes

variable [Quality]

/-- An entry that both passes look at. -/
structure AcceptRange.Considered (entry : AcceptRange) : Prop where
  notZero : Quality.isZero entry.quality = false
  valued : ∀ piece ∈ versionPieces entry.whole, Valued piece
  known : ∀ piece ∈ versionPieces entry.whole, VersionKnown piece

theorem AcceptRange.considered_iff (entry : AcceptRange) :
    entry.Considered ↔
      Quality.isZero entry.quality = false ∧
        (RdfVersion.fromMediaType entry.whole).isSome = true := by
  rw [RdfVersion.isSome_fromMediaType_iff]
  constructor
  · intro considered
    exact ⟨considered.notZero, fun piece member =>
      ⟨considered.valued piece member, considered.known piece member⟩⟩
  · rintro ⟨notZero, readable⟩
    exact ⟨notZero, fun piece member => (readable piece member).1,
      fun piece member => (readable piece member).2⟩

/-- A pass has an answer exactly when some entry it considers has one. -/
theorem isSome_firstServable_iff
    (candidate : Text → Option Format) (ranked : List AcceptRange) :
    (firstServable candidate ranked).isSome = true ↔
      ∃ entry ∈ ranked,
        entry.Considered ∧
          (candidate (Text.toAsciiLowercase entry.range)).isSome = true := by
  induction ranked with
  | nil =>
      simp [firstServable]
  | cons entry rest inductionHypothesis =>
      have skipped
          (unanswered :
            ¬ (entry.Considered ∧
              (candidate (Text.toAsciiLowercase entry.range)).isSome = true)) :
          (firstServable candidate rest).isSome = true ↔
            ∃ other ∈ entry :: rest,
              other.Considered ∧
                (candidate (Text.toAsciiLowercase other.range)).isSome =
                  true := by
        rw [inductionHypothesis, List.exists_mem_cons_iff]
        exact (or_iff_right unanswered).symm
      rw [AcceptRange.considered_iff] at skipped
      unfold firstServable
      split
      · next isZero =>
          refine skipped ?_
          rintro ⟨⟨notZero, _⟩, _⟩
          rw [isZero] at notZero
          cases notZero
      · next notZero =>
          split
          · next unread =>
              refine skipped ?_
              rintro ⟨⟨_, readable⟩, _⟩
              rw [unread] at readable
              cases readable
          · next version isVersion =>
              split
              · next format isFormat =>
                  refine iff_of_true rfl
                    ⟨entry, List.mem_cons_self, ?_, ?_⟩
                  · rw [AcceptRange.considered_iff, isVersion]
                    exact ⟨by simpa using notZero, rfl⟩
                  · rw [isFormat]
                    rfl
              · next unanswered =>
                  refine skipped ?_
                  rintro ⟨_, answered⟩
                  rw [unanswered] at answered
                  cases answered

/--
A range, in lower case, has an answer: `narrow` says which formats a name
stands for, and `wide` which ones a wildcard may be answered with.
-/
inductive Answered (narrow wide : Format → Prop) (stored : Option Format)
    (range : Text) : Prop where
  | named (format : Format) (isName : range = format.mediaType)
      (allowed : narrow format)
  | anything (isRange : range = "*/*".toList) (format : Format)
      (isOffered : stored = some format ∨ format ∈ fallbackFormats)
      (allowed : wide format)
  | text (isRange : range = "text/*".toList) (allowed : wide .turtle)
  | application (isRange : range = "application/*".toList) (format : Format)
      (isFallback : format ∈ fallbackFormats) (allowed : wide format)

/-- The candidate of one pass for a range in lower case. -/
def passCandidate (narrow wide : Format → Bool) (stored : Option Format)
    (range : Text) : Option Format :=
  if range = "*/*".toList then
    (stored.filter wide).or (fallbackFormats.find? wide)
  else if range = "text/*".toList then
    (some Format.turtle).filter wide
  else if range = "application/*".toList then
    fallbackFormats.find? wide
  else
    (Format.fromContentType range).filter narrow

omit [Quality] in
theorem fromContentType_mediaType (format : Format) :
    Format.fromContentType format.mediaType = some format := by
  cases format <;> decide

omit [Quality] in
theorem isSome_filter_iff {stored : Option Format} {wide : Format → Bool} :
    (stored.filter wide).isSome = true ↔
      ∃ format, stored = some format ∧ wide format = true := by
  rw [Option.isSome_iff_exists]
  exact exists_congr fun format => Option.filter_eq_some_iff

omit [Quality] in
theorem Answered.mono
    {narrow wide narrower wider : Format → Prop} {stored : Option Format}
    {range : Text} (answered : Answered narrow wide stored range)
    (names : ∀ format, narrow format → narrower format)
    (wildcards : ∀ format, wide format → wider format) :
    Answered narrower wider stored range := by
  cases answered with
  | named format isName allowed =>
      exact .named format isName (names format allowed)
  | anything isRange format isOffered allowed =>
      exact .anything isRange format isOffered (wildcards format allowed)
  | text isRange allowed =>
      exact .text isRange (wildcards .turtle allowed)
  | application isRange format isFallback allowed =>
      exact .application isRange format isFallback (wildcards format allowed)

omit [Quality] in
/-- A candidate answers its range with a format the pass admits. -/
theorem answered_of_passCandidate
    {narrow wide : Format → Bool} {stored : Option Format} {range : Text}
    {format : Format}
    (plain : Text.toAsciiLowercase (mediaTypeEssence range) = range)
    (isCandidate : passCandidate narrow wide stored range = some format) :
    Answered (fun other => other = format ∧ narrow other = true)
      (fun other => other = format ∧ wide other = true) stored range := by
  unfold passCandidate at isCandidate
  split at isCandidate
  · next isAny =>
      rcases Option.or_eq_some_iff.mp isCandidate with isStored | ⟨_, found⟩
      · obtain ⟨stands, allowed⟩ := Option.filter_eq_some_iff.mp isStored
        exact .anything isAny format (Or.inl stands) ⟨rfl, allowed⟩
      · exact .anything isAny format
          (Or.inr (List.mem_of_find?_eq_some found))
          ⟨rfl, List.find?_some found⟩
  · split at isCandidate
    · next isText =>
        obtain ⟨isTurtle, allowed⟩ := Option.filter_eq_some_iff.mp isCandidate
        cases isTurtle
        exact .text isText ⟨rfl, allowed⟩
    · split at isCandidate
      · next isApplication =>
          exact .application isApplication format
            (List.mem_of_find?_eq_some isCandidate)
            ⟨rfl, List.find?_some isCandidate⟩
      · obtain ⟨found, allowed⟩ := Option.filter_eq_some_iff.mp isCandidate
        exact .named format (fromContentType_eq_some plain found)
          ⟨rfl, allowed⟩

omit [Quality] in
/-- A range the pass can answer has a candidate. -/
theorem isSome_passCandidate
    {narrow wide : Format → Bool} {stored : Option Format} {range : Text}
    (answered : Answered (narrow · = true) (wide · = true) stored range) :
    (passCandidate narrow wide stored range).isSome = true := by
  unfold passCandidate
  cases answered with
  | named format isName allowed =>
      have notWild :
          format.mediaType ≠ "*/*".toList ∧
            format.mediaType ≠ "text/*".toList ∧
            format.mediaType ≠ "application/*".toList := by
        cases format <;> decide
      rw [isName, if_neg notWild.1, if_neg notWild.2.1,
        if_neg notWild.2.2, fromContentType_mediaType]
      exact isSome_filter_iff.mpr ⟨format, rfl, allowed⟩
  | anything isRange format isOffered allowed =>
      rw [if_pos isRange, Option.isSome_or, Bool.or_eq_true,
        isSome_filter_iff, List.find?_isSome]
      rcases isOffered with isStored | isFallback
      · exact Or.inl ⟨format, isStored, allowed⟩
      · exact Or.inr ⟨format, isFallback, allowed⟩
  | text isRange allowed =>
      rw [isRange, if_neg (by decide), if_pos rfl]
      exact isSome_filter_iff.mpr ⟨.turtle, rfl, allowed⟩
  | application isRange format isFallback allowed =>
      rw [isRange, if_neg (by decide), if_neg (by decide), if_pos rfl]
      exact List.find?_isSome.mpr ⟨format, isFallback, allowed⟩

/-! ## The two passes -/

/-- `usable`: a format that carries what a resource turned out to be. -/
def Format.carries (shape : RdfShape) (format : Format) : Bool :=
  shape = .graph || format.carriesDataset

/-- `not_rejected` -/
def notRejected (ranked : List AcceptRange) (format : Format) : Bool :=
  !(rejectedTypes ranked).contains format.mediaType

theorem notRejected_iff (ranked : List AcceptRange) (format : Format) :
    notRejected ranked format = true ↔ NotRejected ranked format := by
  unfold notRejected
  rw [Bool.not_eq_true']
  refine ⟨notRejected_of_rejectedTypes, fun allowed => ?_⟩
  rw [Bool.eq_false_iff, Ne, List.contains_iff_mem]
  intro refused
  obtain ⟨entry, isRefused, isName⟩ := List.mem_map.mp refused
  obtain ⟨member, isZero⟩ := List.mem_filter.mp isRefused
  rw [allowed entry member isName] at isZero
  cases isZero

/-- The first pass. -/
def strictPass (ranked : List AcceptRange) (shape : RdfShape)
    (stored : Option Format) : Option (Format × RdfVersion) :=
  firstServable
    (passCandidate (Format.carries shape)
      (fun format => format.carries shape && notRejected ranked format)
      stored)
    ranked

/-- The second pass. -/
def laxPass (ranked : List AcceptRange) (stored : Option Format) :
    Option (Format × RdfVersion) :=
  firstServable
    (passCandidate (notRejected ranked) (notRejected ranked) stored) ranked

theorem negotiate_eq
    {accept : Text} (present : (Text.trim accept).isEmpty = false)
    (shape : RdfShape) (stored : Option Format) :
    negotiate accept shape stored =
      (strictPass (rankedAccept (Text.trim accept)) shape stored).or
        (laxPass (rankedAccept (Text.trim accept)) stored) := by
  unfold negotiate
  dsimp only
  rw [present, if_neg (by simp)]
  rfl

theorem negotiate_isSome_of_empty
    {accept : Text} (absent : (Text.trim accept).isEmpty = true)
    (shape : RdfShape) (stored : Option Format) :
    (negotiate accept shape stored).isSome = true := by
  unfold negotiate
  dsimp only
  rw [absent, if_pos rfl, Option.isSome_map, Option.isSome_or, Bool.or_eq_true]
  refine Or.inr (List.find?_isSome.mpr ⟨.jsonLd, by simp [fallbackFormats], ?_⟩)
  simp [Format.carriesDataset]

/-- A pass answers the header exactly when it can answer some entry. -/
theorem isSome_pass_iff
    {accept : Text} {narrow wide : Format → Bool} {stored : Option Format} :
    (firstServable (passCandidate narrow wide stored)
        (rankedAccept accept)).isSome = true ↔
      ∃ entry ∈ rankedAccept accept,
        entry.Considered ∧
          Answered (narrow · = true) (wide · = true) stored
            (Text.toAsciiLowercase entry.range) := by
  rw [isSome_firstServable_iff]
  refine exists_congr fun entry => and_congr_right fun member =>
    and_congr_right fun _ => ?_
  constructor
  · intro answered
    obtain ⟨format, isCandidate⟩ := Option.isSome_iff_exists.mp answered
    exact (answered_of_passCandidate (essence_of_rankedAccept member)
      isCandidate).mono (fun other allowed => allowed.2)
        fun other allowed => allowed.2
  · exact isSome_passCandidate

/-! ## Nothing is answered although something is acceptable -/

/-- A format that some range refuses by its name. -/
def RefusedByName (ranked : List AcceptRange) (format : Format) : Prop :=
  ∃ entry ∈ ranked,
    Text.toAsciiLowercase entry.range = format.mediaType ∧
      Quality.isZero entry.quality = true

theorem not_notRejected_iff {ranked : List AcceptRange} {format : Format} :
    ¬ NotRejected ranked format ↔ RefusedByName ranked format := by
  simp only [NotRejected, RefusedByName, not_forall, exists_prop,
    Bool.not_eq_false]

/-- An entry of non-zero quality whose parameters all have a value. -/
structure AcceptRange.Offers (entry : AcceptRange) : Prop where
  notZero : Quality.isZero entry.quality = false
  valued : ∀ piece ∈ versionPieces entry.whole, Valued piece

/--
None of the entries that offer something can be answered: the formats they name
are refused elsewhere and do not carry the resource either, and the candidates
of their wildcards are refused.
-/
structure Stranded (ranked : List AcceptRange) (shape : RdfShape)
    (stored : Option Format) : Prop where
  named :
    ∀ entry ∈ ranked, entry.Offers → ∀ format : Format,
      Text.toAsciiLowercase entry.range = format.mediaType →
        format.carries shape = false ∧ RefusedByName ranked format
  text :
    ∀ entry ∈ ranked, entry.Offers →
      Text.toAsciiLowercase entry.range = "text/*".toList →
        RefusedByName ranked .turtle
  application :
    ∀ entry ∈ ranked, entry.Offers →
      Text.toAsciiLowercase entry.range = "application/*".toList →
        RefusedByName ranked .turtle ∧ RefusedByName ranked .jsonLd
  anything :
    ∀ entry ∈ ranked, entry.Offers →
      Text.toAsciiLowercase entry.range = "*/*".toList →
        RefusedByName ranked .turtle ∧ RefusedByName ranked .jsonLd ∧
          ∀ format, stored = some format → RefusedByName ranked format

/-- Both passes together. -/
theorem negotiate_eq_none_iff
    {accept : Text} (present : (Text.trim accept).isEmpty = false)
    (known :
      ∀ entry ∈ rankedAccept (Text.trim accept),
        ∀ piece ∈ versionPieces entry.whole, VersionKnown piece)
    (shape : RdfShape) (stored : Option Format) :
    negotiate accept shape stored = none ↔
      Stranded (rankedAccept (Text.trim accept)) shape stored := by
  have considered :
      ∀ entry ∈ rankedAccept (Text.trim accept),
        entry.Offers → entry.Considered := by
    intro entry member offers
    exact ⟨offers.notZero, offers.valued, known entry member⟩
  rw [negotiate_eq present, Option.or_eq_none_iff,
    ← Option.not_isSome_iff_eq_none, ← Option.not_isSome_iff_eq_none,
    strictPass, laxPass, isSome_pass_iff, isSome_pass_iff]
  constructor
  · rintro ⟨strict, lax⟩
    have refused :
        ∀ entry ∈ rankedAccept (Text.trim accept), entry.Offers →
          ∀ format,
            (notRejected (rankedAccept (Text.trim accept)) format = true →
              Answered
                (notRejected (rankedAccept (Text.trim accept)) · = true)
                (notRejected (rankedAccept (Text.trim accept)) · = true)
                stored (Text.toAsciiLowercase entry.range)) →
            RefusedByName (rankedAccept (Text.trim accept)) format := by
      intro entry member offers format answers
      rw [← not_notRejected_iff, ← notRejected_iff]
      intro allowed
      exact lax
        ⟨entry, member, considered entry member offers, answers allowed⟩
    constructor
    case named =>
      intro entry member offers format isName
      constructor
      · rw [Bool.eq_false_iff]
        intro carries
        exact strict ⟨entry, member, considered entry member offers,
          .named format isName carries⟩
      · exact refused entry member offers format fun allowed =>
          .named format isName allowed
    case text =>
      intro entry member offers isRange
      exact refused entry member offers .turtle fun allowed =>
        .text isRange allowed
    case application =>
      intro entry member offers isRange
      have short (format : Format) (isFallback : format ∈ fallbackFormats) :=
        refused entry member offers format fun allowed =>
          .application isRange format isFallback allowed
      exact ⟨short .turtle (by decide), short .jsonLd (by decide)⟩
    case anything =>
      intro entry member offers isRange
      have offered (format : Format)
          (isOffered : stored = some format ∨ format ∈ fallbackFormats) :=
        refused entry member offers format fun allowed =>
          .anything isRange format isOffered allowed
      exact ⟨offered .turtle (Or.inr (by decide)),
        offered .jsonLd (Or.inr (by decide)),
        fun format isStored => offered format (Or.inl isStored)⟩
  · intro stranded
    have notAllowed {format : Format}
        (refused :
          RefusedByName (rankedAccept (Text.trim accept)) format) :
        ¬ NotRejected (rankedAccept (Text.trim accept)) format :=
      not_notRejected_iff.mpr refused
    have unanswered :
        ∀ entry ∈ rankedAccept (Text.trim accept), entry.Considered →
          ¬ Answered
            (fun format =>
              format.carries shape = true ∨
                NotRejected (rankedAccept (Text.trim accept)) format)
            (NotRejected (rankedAccept (Text.trim accept))) stored
            (Text.toAsciiLowercase entry.range) := by
      intro entry member isConsidered answered
      have offers : entry.Offers := ⟨isConsidered.notZero, isConsidered.valued⟩
      cases answered with
      | named format isName allowed =>
          obtain ⟨notCarried, refused⟩ :=
            stranded.named entry member offers format isName
          rw [notCarried] at allowed
          exact notAllowed refused (allowed.resolve_left (by simp))
      | anything isRange format isOffered allowed =>
          obtain ⟨noTurtle, noJsonLd, noStored⟩ :=
            stranded.anything entry member offers isRange
          rcases isOffered with isStored | isFallback
          · exact notAllowed (noStored format isStored) allowed
          · simp only [fallbackFormats, List.mem_cons, List.not_mem_nil,
              or_false] at isFallback
            rcases isFallback with rfl | rfl
            · exact notAllowed noTurtle allowed
            · exact notAllowed noJsonLd allowed
      | text isRange allowed =>
          exact notAllowed (stranded.text entry member offers isRange) allowed
      | application isRange format isFallback allowed =>
          obtain ⟨noTurtle, noJsonLd⟩ :=
            stranded.application entry member offers isRange
          simp only [fallbackFormats, List.mem_cons, List.not_mem_nil,
            or_false] at isFallback
          rcases isFallback with rfl | rfl
          · exact notAllowed noTurtle allowed
          · exact notAllowed noJsonLd allowed
    constructor
    · rintro ⟨entry, member, isConsidered, answered⟩
      refine unanswered entry member isConsidered
        (answered.mono (fun format => Or.inl) fun format allowed => ?_)
      rw [Bool.and_eq_true] at allowed
      exact (notRejected_iff _ _).mp allowed.2
    · rintro ⟨entry, member, isConsidered, answered⟩
      exact unanswered entry member isConsidered
        (answered.mono
          (fun format allowed => Or.inr ((notRejected_iff _ _).mp allowed))
          fun format => (notRejected_iff _ _).mp)

/--
How a range that decides for a format can be overlooked: one of its parameters
has no value; it names a format that does not carry the resource and that
another range refuses; or it is a wildcard of whose short list all is refused.
-/
inductive AcceptRange.Overlooked (ranked : List AcceptRange)
    (shape : RdfShape) (stored : Option Format) (entry : AcceptRange) :
    Prop where
  | valueless (piece : Text) (isPiece : piece ∈ versionPieces entry.whole)
      (noValue : ¬ Valued piece)
  | contradicted (format : Format)
      (isName : Text.toAsciiLowercase entry.range = format.mediaType)
      (notCarried : format.carries shape = false)
      (refused : RefusedByName ranked format)
  | application
      (isRange : Text.toAsciiLowercase entry.range = "application/*".toList)
      (turtle : RefusedByName ranked .turtle)
      (jsonLd : RefusedByName ranked .jsonLd)
  | anything
      (isRange : Text.toAsciiLowercase entry.range = "*/*".toList)
      (turtle : RefusedByName ranked .turtle)
      (jsonLd : RefusedByName ranked .jsonLd)
      (kept : ∀ format, stored = some format → RefusedByName ranked format)

/-- A range that decides for a stranded header is overlooked. -/
theorem overlooked_of_stranded
    {ranked : List AcceptRange} {shape : RdfShape} {stored : Option Format}
    {format : Format} {deciding : AcceptRange}
    (stranded : Stranded ranked shape stored)
    (decides : Decides format.mediaType ranked deciding)
    (positive : Quality.isPositive deciding.quality = true) :
    deciding.Overlooked ranked shape stored := by
  obtain ⟨member, matching, highest⟩ := decides.mostSpecific
  by_cases valued : ∀ piece ∈ versionPieces deciding.whole, Valued piece
  · have offers : deciding.Offers := ⟨Quality.notZero _ positive, valued⟩
    by_cases isName :
        Text.toAsciiLowercase deciding.range = format.mediaType
    · obtain ⟨notCarried, refused⟩ :=
        stranded.named deciding member offers format isName
      exact .contradicted format isName notCarried refused
    · by_cases isType :
          Text.toAsciiLowercase deciding.range = format.typeRange
      · have ofApplication
            (isRange :
              Text.toAsciiLowercase deciding.range =
                "application/*".toList) :
            deciding.Overlooked ranked shape stored := by
          obtain ⟨turtle, jsonLd⟩ :=
            stranded.application deciding member offers isRange
          exact .application isRange turtle jsonLd
        cases format with
        | turtle =>
            -- The refusal of Turtle by name would have decided instead.
            obtain ⟨other, otherMember, names, _⟩ :=
              stranded.text deciding member offers isType
            have above := highest other otherMember
            have isThree :
                other.specificity Format.turtle.mediaType = 3 :=
              specificity_of_name names
            rw [isThree, specificity_of_type isType] at above
            omega
        | nTriples =>
            exact ofApplication isType
        | jsonLd =>
            exact ofApplication isType
        | triG =>
            exact ofApplication isType
        | nQuads =>
            exact ofApplication isType
      · have isAny :
            Text.toAsciiLowercase deciding.range = "*/*".toList := by
          by_contra notAny
          unfold Format.typeRange at isType
          rw [AcceptRange.specificity, if_neg isName, if_neg isType,
            if_neg notAny] at matching
          exact Nat.lt_irrefl 0 matching
        obtain ⟨turtle, jsonLd, kept⟩ :=
          stranded.anything deciding member offers isAny
        exact .anything isAny turtle jsonLd kept
  · obtain ⟨piece, isPiece, noValue⟩ :
        ∃ piece ∈ versionPieces deciding.whole, ¬ Valued piece := by
      simpa using valued
    exact .valueless piece isPiece noValue

/--
When every version that is named is known, `negotiate` has no answer only where
no format is acceptable, exactly unless in a header that is not empty a range of
positive quality that decides for a format is overlooked, and the other ranges
are stranded with it.
-/
theorem unanswered_only_unaccepted_iff
    {accept : Text}
    (known :
      ∀ entry ∈ rankedAccept (Text.trim accept),
        ∀ piece ∈ versionPieces entry.whole, VersionKnown piece)
    (shape : RdfShape) (stored : Option Format) :
    (negotiate accept shape stored = none →
        ∀ format ∈ Format.all,
          acceptAllows accept format.asMediaType = false) ↔
      ¬ ((Text.trim accept).isEmpty = false ∧
        (∃ (format : Format) (deciding : AcceptRange),
          Decides format.mediaType (rankedAccept (Text.trim accept))
              deciding ∧
            Quality.isPositive deciding.quality = true ∧
            deciding.Overlooked (rankedAccept (Text.trim accept)) shape
              stored) ∧
        Stranded (rankedAccept (Text.trim accept)) shape stored) := by
  constructor
  · rintro unaccepted
      ⟨present, ⟨format, deciding, decides, positive, _⟩, stranded⟩
    have inAll : format ∈ Format.all := by
      cases format <;> decide
    have refused :=
      unaccepted ((negotiate_eq_none_iff present known shape stored).mpr
        stranded) format inAll
    rw [acceptAllows_iff.mpr (Or.inr ⟨deciding, decides, positive⟩)] at refused
    cases refused
  · intro notStranded unanswered format inAll
    rw [Bool.eq_false_iff]
    intro accepted
    cases present : (Text.trim accept).isEmpty with
    | true =>
        have answered := negotiate_isSome_of_empty present shape stored
        rw [unanswered] at answered
        cases answered
    | false =>
        have stranded :=
          (negotiate_eq_none_iff present known shape stored).mp unanswered
        obtain ⟨deciding, decides, positive⟩ :=
          (acceptAllows_iff.mp accepted).resolve_left (by rw [present]; simp)
        exact notStranded ⟨present, ⟨format, deciding, decides, positive,
          overlooked_of_stranded stranded decides positive⟩, stranded⟩

/-! ## Formats that carry datasets -/

/-- A range, in lower case, that the first pass answers for a dataset. -/
def Lossless (ranked : List AcceptRange) (stored : Option Format)
    (range : Text) : Prop :=
  Answered (fun format => format.carriesDataset = true)
    (fun format =>
      format.carriesDataset = true ∧ NotRejected ranked format) stored range

/-- The answer carries datasets exactly when some range has such an answer. -/
theorem negotiate_lossless_iff
    {accept : Text} (present : (Text.trim accept).isEmpty = false)
    (stored : Option Format) :
    (∃ format version,
        negotiate accept .dataset stored = some (format, version) ∧
          format.carriesDataset = true) ↔
      ∃ entry ∈ rankedAccept (Text.trim accept),
        entry.Considered ∧
          Lossless (rankedAccept (Text.trim accept)) stored
            (Text.toAsciiLowercase entry.range) := by
  rw [negotiate_eq present]
  constructor
  · rintro ⟨format, version, served, carries⟩
    rcases Option.or_eq_some_iff.mp served with strict | ⟨_, lax⟩
    · have answered : (strictPass (rankedAccept (Text.trim accept)) .dataset
          stored).isSome = true := by
        rw [strict]
        rfl
      rw [strictPass, isSome_pass_iff] at answered
      obtain ⟨entry, member, considered, isAnswered⟩ := answered
      refine ⟨entry, member, considered,
        isAnswered.mono (fun other allowed => allowed) fun other allowed => ?_⟩
      rw [Bool.and_eq_true] at allowed
      exact ⟨allowed.1, (notRejected_iff _ _).mp allowed.2⟩
    · obtain ⟨entry, member, notZero, isVersion, isCandidate⟩ :=
        exists_of_firstServable lax
      refine ⟨entry, member, ?_,
        (answered_of_passCandidate (essence_of_rankedAccept member)
          isCandidate).mono ?_ ?_⟩
      · rw [AcceptRange.considered_iff, isVersion]
        exact ⟨notZero, rfl⟩
      · rintro other ⟨rfl, _⟩
        exact carries
      · rintro other ⟨rfl, allowed⟩
        exact ⟨carries, (notRejected_iff _ _).mp allowed⟩
  · rintro ⟨entry, member, considered, lossless⟩
    have answered : (strictPass (rankedAccept (Text.trim accept)) .dataset
        stored).isSome = true := by
      rw [strictPass, isSome_pass_iff]
      refine ⟨entry, member, considered,
        lossless.mono (fun other allowed => allowed) ?_⟩
      rintro other ⟨carries, allowed⟩
      rw [Bool.and_eq_true]
      exact ⟨carries, (notRejected_iff _ _).mpr allowed⟩
    obtain ⟨⟨format, version⟩, isServed⟩ :=
      Option.isSome_iff_exists.mp answered
    refine ⟨format, version, ?_, ?_⟩
    · rw [isServed]
      rfl
    · obtain ⟨other, otherMember, _, _, isCandidate⟩ :=
        exists_of_firstServable isServed
      have isAnswered :=
        answered_of_passCandidate (essence_of_rankedAccept otherMember)
          isCandidate
      cases isAnswered with
      | named found isName allowed =>
          rw [← allowed.1]
          exact allowed.2
      | anything isRange found isOffered allowed =>
          rw [← allowed.1]
          exact (Bool.and_eq_true_iff.mp allowed.2).1
      | text isRange allowed =>
          rw [← allowed.1]
          exact (Bool.and_eq_true_iff.mp allowed.2).1
      | application isRange found isFallback allowed =>
          rw [← allowed.1]
          exact (Bool.and_eq_true_iff.mp allowed.2).1

/--
Some entry of a quality other than zero, with a known version or none, names a
format that carries datasets.
-/
def NamesLossless (ranked : List AcceptRange) : Prop :=
  ∃ entry ∈ ranked,
    Quality.isZero entry.quality = false ∧
      (∀ piece ∈ versionPieces entry.whole, VersionKnown piece) ∧
      ∃ format : Format,
        Text.toAsciiLowercase entry.range = format.mediaType ∧
          format.carriesDataset = true

/-- A header that names a format is not empty. -/
theorem present_of_names
    {accept : Text} {entry : AcceptRange} {format : Format}
    (member : entry ∈ rankedAccept accept)
    (isName : Text.toAsciiLowercase entry.range = format.mediaType) :
    accept.isEmpty = false := by
  cases accept with
  | cons first rest =>
      rfl
  | nil =>
      obtain ⟨position, inRange, rfl⟩ :=
        List.mem_mapIdx.mp (mem_rankedAccept.mp member)
      have isNil : (Text.split ',' []).length = 1 := rfl
      have isFirst : position = 0 := by omega
      subst isFirst
      have isEmpty : ([] : Text) = format.mediaType := isName
      revert isEmpty
      cases format <;> decide

/--
A header that names a format that carries datasets is answered with one that
does, exactly when some entry whose parameters all have a value names one, or is
a wildcard with a candidate that carries datasets and is not refused.
-/
theorem named_lossless_answered_iff
    (accept : Text) (stored : Option Format) :
    (NamesLossless (rankedAccept (Text.trim accept)) →
        ∃ answer version,
          negotiate accept .dataset stored = some (answer, version) ∧
            answer.carriesDataset = true) ↔
      (NamesLossless (rankedAccept (Text.trim accept)) →
        ∃ entry ∈ rankedAccept (Text.trim accept),
          entry.Considered ∧
            Lossless (rankedAccept (Text.trim accept)) stored
              (Text.toAsciiLowercase entry.range)) := by
  refine imp_congr_right fun ⟨entry, member, _, _, format, isName, _⟩ => ?_
  exact negotiate_lossless_iff (present_of_names member isName) stored

end Passes

theorem versionKnown_of_none {piece : Text}
    (unnamed : versionValue piece = none) : VersionKnown piece := by
  intro value named
  rw [unnamed] at named
  cases named

end Quadpod

namespace Quadpod.Reference

/-- Anything but Turtle and JSON-LD. -/
def neitherHeader : Text :=
  "*/*,text/turtle;q=0,application/ld+json;q=0".toList

theorem rankedAccept_neitherHeader :
    rankedAccept (Text.trim neitherHeader) =
      [acceptRange 0 "*/*".toList, acceptRange 1 "text/turtle;q=0".toList,
        acceptRange 2 "application/ld+json;q=0".toList] := by
  have isSplit :
      Text.split ',' (Text.trim neitherHeader) =
        ["*/*".toList, "text/turtle;q=0".toList,
          "application/ld+json;q=0".toList] := by
    decide
  rw [rankedAccept, acceptEntries, isSplit]
  refine List.mergeSort_of_pairwise ?_
  decide

theorem known_neitherHeader :
    ∀ entry ∈ rankedAccept (Text.trim neitherHeader),
      ∀ piece ∈ versionPieces entry.whole, VersionKnown piece := by
  have unnamed :
      ∀ entry ∈ [acceptRange 0 "*/*".toList,
          acceptRange 1 "text/turtle;q=0".toList,
          acceptRange 2 "application/ld+json;q=0".toList],
        ∀ piece ∈ versionPieces entry.whole, versionValue piece = none := by
    decide
  rw [rankedAccept_neitherHeader]
  intro entry member piece isPiece
  exact versionKnown_of_none (unnamed entry member piece isPiece)

/-- N-Triples is acceptable, and nothing is served. -/
theorem neitherHeader_unanswered :
    ¬ ∀ (accept : Text) (shape : RdfShape) (stored : Option Format),
      (∀ entry ∈ rankedAccept (Text.trim accept),
        ∀ piece ∈ versionPieces entry.whole, VersionKnown piece) →
      negotiate accept shape stored = none →
        ∀ format ∈ Format.all,
          acceptAllows accept format.asMediaType = false := by
  intro claimed
  have unanswered : negotiate neitherHeader .graph none = none := by
    unfold negotiate
    simp only [rankedAccept_neitherHeader]
    decide
  have accepted :
      acceptAllows neitherHeader Format.nTriples.asMediaType = true := by
    unfold acceptAllows
    simp only [rankedAccept_neitherHeader]
    decide
  have refused :=
    claimed neitherHeader .graph none known_neitherHeader unanswered .nTriples
      (by decide)
  rw [accepted] at refused
  cases refused

/-- With N-Triples stored, the same header is answered. -/
theorem neitherHeader_stored :
    (∀ entry ∈ rankedAccept (Text.trim neitherHeader),
        ∀ piece ∈ versionPieces entry.whole, VersionKnown piece) ∧
      (negotiate neitherHeader .graph (some .nTriples) = none →
        ∀ format ∈ Format.all,
          acceptAllows neitherHeader format.asMediaType = false) := by
  refine ⟨known_neitherHeader,
    (unanswered_only_unaccepted_iff known_neitherHeader .graph
      (some .nTriples)).mpr ?_⟩
  rintro ⟨_, _, stranded⟩
  have offers : (acceptRange 0 "*/*".toList).Offers := by
    refine ⟨rfl, ?_⟩
    unfold Valued
    decide
  have refused :=
    stranded.anything (acceptRange 0 "*/*".toList)
      (by rw [rankedAccept_neitherHeader]; exact List.mem_cons_self) offers
      (by decide)
  refine not_notRejected_iff.mpr (refused.2.2 .nTriples rfl) ?_
  rw [rankedAccept_neitherHeader]
  unfold NotRejected
  decide

/-- TriG with an empty parameter, or Turtle. -/
def emptyParameterHeader : Text := "application/trig;,text/turtle".toList

theorem rankedAccept_emptyParameterHeader :
    rankedAccept (Text.trim emptyParameterHeader) =
      [acceptRange 0 "application/trig;".toList,
        acceptRange 1 "text/turtle".toList] := by
  have isSplit :
      Text.split ',' (Text.trim emptyParameterHeader) =
        ["application/trig;".toList, "text/turtle".toList] := by
    decide
  rw [rankedAccept, acceptEntries, isSplit]
  refine List.mergeSort_of_pairwise ?_
  decide

/-- The dataset is served as Turtle, although TriG is named. -/
theorem emptyParameterHeader_lossy :
    NamesLossless (rankedAccept (Text.trim emptyParameterHeader)) ∧
      negotiate emptyParameterHeader .dataset none = some (.turtle, .rdf11) ∧
      Format.turtle.carriesDataset = false := by
  refine ⟨?_, ?_, rfl⟩
  · rw [rankedAccept_emptyParameterHeader]
    refine ⟨_, List.mem_cons_self, rfl, ?_, .triG, by decide, rfl⟩
    have unnamed :
        ∀ piece ∈ versionPieces
            (acceptRange 0 "application/trig;".toList).whole,
          versionValue piece = none := by
      decide
    exact fun piece isPiece => versionKnown_of_none (unnamed piece isPiece)
  · unfold negotiate
    simp only [rankedAccept_emptyParameterHeader]
    decide

end Quadpod.Reference
