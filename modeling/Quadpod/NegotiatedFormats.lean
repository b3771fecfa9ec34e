import Quadpod.AcceptRanking

namespace Quadpod

/-!
# What the client accepts

Two readers of one `Accept` header: `accept_allows` lets the most specific
range decide, and `negotiate` takes the ranges by rank and serves the first it
can.  A format that is served is accepted by the first reader as well, except
where `application/*` is answered with Turtle, the first choice of every
wildcard but `text/*`.
-/

/-! ## Lower case -/

/-- A character in lower case is itself, unless it was an ASCII capital. -/
theorem toLower_cases (c : Char) :
    c.toLower = c ∨
      (65 ≤ c.toNat ∧ c.toNat ≤ 90 ∧ c.toLower.toNat = c.toNat + 32) := by
  unfold Char.toLower
  split
  · next upper =>
      right
      have low : 65 ≤ c.toNat := upper.1
      have high : c.toNat ≤ 90 := upper.2
      refine ⟨low, high, ?_⟩
      change (c.val + 32).toNat = c.toNat + 32
      rw [UInt32.toNat_add]
      change (c.toNat + 32) % 2 ^ 32 = c.toNat + 32
      omega
  · exact Or.inl rfl

theorem isWhitespace_toLower (c : Char) :
    Text.isWhitespace c.toLower = Text.isWhitespace c := by
  rcases toLower_cases c with same | ⟨low, high, isLower⟩
  · rw [same]
  · have upper : Text.isWhitespace c = false := by
      simp [Text.isWhitespace]
      omega
    have lower : Text.isWhitespace c.toLower = false := by
      simp [Text.isWhitespace, isLower]
      omega
    rw [upper, lower]

theorem toLower_eq_semicolon {c : Char} (same : c.toLower = ';') :
    c = ';' := by
  rcases toLower_cases c with unchanged | ⟨low, high, isLower⟩
  · rw [← unchanged]
    exact same
  · rw [same] at isLower
    have isCode : ';'.toNat = 59 := rfl
    omega

theorem toLower_toLower (c : Char) : c.toLower.toLower = c.toLower := by
  rcases toLower_cases c.toLower with same | ⟨low, high, isLower⟩
  · exact same
  · rcases toLower_cases c with unchanged | ⟨_, _, wasUpper⟩
    · rw [unchanged, unchanged]
    · omega

theorem trim_toAsciiLowercase (text : Text) :
    Text.trim (Text.toAsciiLowercase text) =
      Text.toAsciiLowercase (Text.trim text) := by
  have blind : Text.isWhitespace ∘ Char.toLower = Text.isWhitespace :=
    funext isWhitespace_toLower
  unfold Text.trim Text.toAsciiLowercase List.rdropWhile
  rw [List.dropWhile_map, blind, ← List.map_reverse, List.dropWhile_map, blind,
    List.map_reverse]

/-- The media range of a part of the header has no parameters left. -/
theorem essence_of_acceptRange [Quality] (position : Nat) (part : Text) :
    Text.toAsciiLowercase (mediaTypeEssence
        (Text.toAsciiLowercase (acceptRange position part).range)) =
      Text.toAsciiLowercase (acceptRange position part).range := by
  have isRange :
      (acceptRange position part).range =
        Text.trim (part.takeWhile (· ≠ ';')) := by
    have isHead := Text.head?_split ';' part
    unfold acceptRange
    rw [List.headD_eq_head?_getD, isHead]
    rfl
  have noSemicolon : ';' ∉ (acceptRange position part).range := by
    intro member
    rw [isRange, Text.trim] at member
    have kept := (List.dropWhile_suffix _).subset
      ((List.rdropWhile_prefix _ _).subset member)
    simpa using List.mem_takeWhile_imp kept
  have lowered :
      ';' ∉ Text.toAsciiLowercase (acceptRange position part).range := by
    intro member
    obtain ⟨c, isMember, isLower⟩ := List.mem_map.mp member
    rw [toLower_eq_semicolon isLower] at isMember
    exact noSemicolon isMember
  have trimmed :
      Text.trim (acceptRange position part).range =
        (acceptRange position part).range := by
    rw [isRange, Text.trim_trim]
  unfold mediaTypeEssence
  rw [Text.split_of_not_mem lowered, List.headD_cons, trim_toAsciiLowercase,
    trimmed, Text.toAsciiLowercase, Text.toAsciiLowercase, List.map_map]
  exact List.map_congr_left fun c _ => toLower_toLower c

/-! ## Quality values in order -/

section Numbers

variable [Quality]

/-- A quality value that is zero or more. -/
def AcceptRange.Signed (entry : AcceptRange) : Prop :=
  Quality.isZero entry.quality = true ∨ Quality.isPositive entry.quality = true

variable {magnitude : Quality.Value → Option Int}

theorem AcceptRange.Signed.magnitude_eq
    (numeric : NumericQuality magnitude) {entry : AcceptRange}
    (signed : entry.Signed) :
    ∃ value, magnitude entry.quality = some value := by
  rcases signed with zero | positive
  · rw [numeric.isZero, beq_iff_eq] at zero
    exact ⟨0, zero⟩
  · rw [numeric.isPositive, Option.any_eq_true] at positive
    obtain ⟨value, isValue, _⟩ := positive
    exact ⟨value, isValue⟩

/-! ## The deciding range -/

/-- How specifically a range names a media type. -/
def AcceptRange.specificity (essence : Text) (entry : AcceptRange) : Nat :=
  if Text.toAsciiLowercase entry.range = essence then
    3
  else if Text.toAsciiLowercase entry.range =
      (Text.split '/' essence).headD [] ++ "/*".toList then
    2
  else if Text.toAsciiLowercase entry.range = "*/*".toList then
    1
  else
    0

theorem bestRange_cons (essence : Text) (entry : AcceptRange)
    (rest : List AcceptRange) (best : Option (Nat × Quality.Value)) :
    bestRange essence (entry :: rest) best =
      if 0 < entry.specificity essence &&
          best.all (fun found => found.1 < entry.specificity essence) then
        bestRange essence rest
          (some (entry.specificity essence, entry.quality))
      else
        bestRange essence rest best :=
  rfl

/--
The range that decides for a media type: the first of those that name it most
specifically.
-/
structure Decides (essence : Text) (ranked : List AcceptRange)
    (deciding : AcceptRange) : Prop where
  matching : 0 < deciding.specificity essence
  first :
    ∃ before after,
      ranked = before ++ deciding :: after ∧
        (∀ entry ∈ before,
          entry.specificity essence < deciding.specificity essence) ∧
        ∀ entry ∈ after,
          entry.specificity essence ≤ deciding.specificity essence

/-- A range of the highest specificity for a media type. -/
structure MostSpecific (essence : Text) (ranked : List AcceptRange)
    (entry : AcceptRange) : Prop where
  member : entry ∈ ranked
  matching : 0 < entry.specificity essence
  highest :
    ∀ other ∈ ranked,
      other.specificity essence ≤ entry.specificity essence

theorem Decides.mostSpecific
    {essence : Text} {ranked : List AcceptRange} {deciding : AcceptRange}
    (decides : Decides essence ranked deciding) :
    MostSpecific essence ranked deciding := by
  obtain ⟨matching, before, after, rfl, lower, upper⟩ := decides
  refine ⟨by simp, matching, fun other member => ?_⟩
  rcases List.mem_append.mp member with inBefore | inRest
  · exact Nat.le_of_lt (lower other inBefore)
  · rcases List.mem_cons.mp inRest with rfl | inAfter
    · exact Nat.le_refl _
    · exact upper other inAfter

/-- Of the ranges that match a media type, if there are any, one decides. -/
theorem exists_decides
    {essence : Text} {ranked : List AcceptRange} {matched : AcceptRange}
    (member : matched ∈ ranked)
    (matching : 0 < matched.specificity essence) :
    ∃ deciding, Decides essence ranked deciding := by
  induction ranked generalizing matched with
  | nil =>
      cases member
  | cons entry rest inductionHypothesis =>
      by_cases inRest : ∃ other ∈ rest, 0 < other.specificity essence
      · obtain ⟨other, otherMember, otherMatching⟩ := inRest
        obtain ⟨deciding, decides⟩ :=
          inductionHypothesis otherMember otherMatching
        by_cases higher :
            deciding.specificity essence ≤ entry.specificity essence
        · refine ⟨entry, Nat.lt_of_lt_of_le decides.matching higher, [], rest,
            rfl, by simp, fun later laterMember => ?_⟩
          exact Nat.le_trans
            (decides.mostSpecific.highest later laterMember) higher
        · obtain ⟨isMatching, before, after, rfl, lower, upper⟩ := decides
          refine ⟨deciding, isMatching, entry :: before, after, rfl, ?_, upper⟩
          intro earlier earlierMember
          rcases List.mem_cons.mp earlierMember with rfl | inBefore
          · exact Nat.lt_of_not_le higher
          · exact lower earlier inBefore
      · rcases List.mem_cons.mp member with rfl | isRest
        · refine ⟨matched, matching, [], rest, rfl, by simp, ?_⟩
          intro later laterMember
          have unmatched : ¬ 0 < later.specificity essence :=
            fun isMatching => inRest ⟨later, laterMember, isMatching⟩
          omega
        · exact (inRest ⟨matched, isRest, matching⟩).elim

/-- Ranges that are no more specific leave the decision as it is. -/
theorem bestRange_keep
    {essence : Text} {ranked : List AcceptRange} {found : Nat × Quality.Value}
    (bounded : ∀ entry ∈ ranked, entry.specificity essence ≤ found.1) :
    bestRange essence ranked (some found) = some found := by
  induction ranked with
  | nil =>
      rfl
  | cons entry rest inductionHypothesis =>
      have notHigher : ¬ found.1 < entry.specificity essence :=
        Nat.not_lt.mpr (bounded entry List.mem_cons_self)
      rw [bestRange_cons]
      simp only [Option.all_some, decide_eq_false notHigher, Bool.and_false]
      exact inductionHypothesis fun other member =>
        bounded other (List.mem_cons_of_mem entry member)

/-- The decision is that of the range that decides. -/
theorem bestRange_decides
    {essence : Text} {before after : List AcceptRange} {deciding : AcceptRange}
    (matching : 0 < deciding.specificity essence)
    (lower :
      ∀ entry ∈ before,
        entry.specificity essence < deciding.specificity essence)
    (upper :
      ∀ entry ∈ after,
        entry.specificity essence ≤ deciding.specificity essence)
    {best : Option (Nat × Quality.Value)}
    (below :
      best.all (fun found => found.1 < deciding.specificity essence) = true) :
    bestRange essence (before ++ deciding :: after) best =
      some (deciding.specificity essence, deciding.quality) := by
  induction before generalizing best with
  | nil =>
      rw [List.nil_append, bestRange_cons, below, decide_eq_true matching]
      exact bestRange_keep upper
  | cons entry rest inductionHypothesis =>
      have restLower := fun other member =>
        lower other (List.mem_cons_of_mem entry member)
      rw [List.cons_append, bestRange_cons]
      split
      · refine inductionHypothesis restLower ?_
        exact decide_eq_true (lower entry List.mem_cons_self)
      · exact inductionHypothesis restLower below

/-- Without a range that matches nothing is decided. -/
theorem bestRange_unmatched
    {essence : Text} {ranked : List AcceptRange}
    (unmatched : ∀ entry ∈ ranked, entry.specificity essence = 0) :
    bestRange essence ranked none = none := by
  induction ranked with
  | nil =>
      rfl
  | cons entry rest inductionHypothesis =>
      rw [bestRange_cons, unmatched entry List.mem_cons_self]
      exact inductionHypothesis fun other member =>
        unmatched other (List.mem_cons_of_mem entry member)

/-- A media type is admitted when the range that decides for it is positive. -/
theorem any_bestRange_iff {essence : Text} {ranked : List AcceptRange} :
    ((bestRange essence ranked none).any fun found =>
        Quality.isPositive found.2) = true ↔
      ∃ deciding,
        Decides essence ranked deciding ∧
          Quality.isPositive deciding.quality = true := by
  constructor
  · intro admitted
    by_cases matched : ∃ entry ∈ ranked, 0 < entry.specificity essence
    · obtain ⟨entry, member, matching⟩ := matched
      obtain ⟨deciding, decides⟩ := exists_decides member matching
      obtain ⟨isMatching, before, after, rfl, lower, upper⟩ := decides
      rw [bestRange_decides isMatching lower upper rfl] at admitted
      exact ⟨deciding, ⟨isMatching, before, after, rfl, lower, upper⟩,
        admitted⟩
    · have unmatched :
          ∀ entry ∈ ranked, entry.specificity essence = 0 := by
        intro entry member
        by_contra isMatching
        exact matched ⟨entry, member, Nat.pos_of_ne_zero isMatching⟩
      rw [bestRange_unmatched unmatched] at admitted
      cases admitted
  · rintro ⟨deciding, ⟨matching, before, after, rfl, lower, upper⟩, positive⟩
    rw [bestRange_decides matching lower upper rfl]
    exact positive

end Numbers

/-! ## The range that is served -/

/-- The media type of a format. -/
def Format.asMediaType (format : Format) : MediaType where
  raw := format.mediaType
  trimmed := by cases format <;> decide
  accepted := by cases format <;> decide

/-- The wildcard of a format's type. -/
def Format.typeRange (format : Format) : Text :=
  (Text.split '/' format.mediaType).headD [] ++ "/*".toList

section Negotiation

variable [Quality]

/-- A format that no range refuses by its name. -/
def NotRejected (ranked : List AcceptRange) (format : Format) : Prop :=
  ∀ entry ∈ ranked,
    Text.toAsciiLowercase entry.range = format.mediaType →
      Quality.isZero entry.quality = false

/-- How a range, in lower case, comes to be answered with a format. -/
inductive ServedFor (ranked : List AcceptRange) (range : Text)
    (format : Format) : Prop where
  | named (isName : range = format.mediaType)
  | anything (isRange : range = "*/*".toList)
      (allowed : NotRejected ranked format)
  | text (isRange : range = "text/*".toList) (isTurtle : format = .turtle)
      (allowed : NotRejected ranked format)
  | application (isRange : range = "application/*".toList)
      (isFallback : format ∈ fallbackFormats)
      (allowed : NotRejected ranked format)

omit [Quality] in
theorem fromContentType_eq_some {range : Text} {format : Format}
    (plain : Text.toAsciiLowercase (mediaTypeEssence range) = range)
    (found : Format.fromContentType range = some format) :
    range = format.mediaType := by
  have isType := List.find?_some found
  rw [beq_iff_eq, plain] at isType
  exact isType.symm

theorem exists_of_firstServable
    {candidate : Text → Option Format} {ranked : List AcceptRange}
    {format : Format} {version : RdfVersion}
    (served : firstServable candidate ranked = some (format, version)) :
    ∃ entry ∈ ranked,
      Quality.isZero entry.quality = false ∧
        RdfVersion.fromMediaType entry.whole = some version ∧
        candidate (Text.toAsciiLowercase entry.range) = some format := by
  induction ranked with
  | nil =>
      cases served
  | cons entry rest inductionHypothesis =>
      have later :
          firstServable candidate rest = some (format, version) →
            ∃ other ∈ entry :: rest,
              Quality.isZero other.quality = false ∧
                RdfVersion.fromMediaType other.whole = some version ∧
                candidate (Text.toAsciiLowercase other.range) =
                  some format := by
        intro servedLater
        obtain ⟨other, member, found⟩ := inductionHypothesis servedLater
        exact ⟨other, List.mem_cons_of_mem entry member, found⟩
      unfold firstServable at served
      split at served
      · exact later served
      · next notZero =>
          split at served
          · exact later served
          · next isVersion =>
              split at served
              · next found isFound =>
                  cases served
                  exact ⟨entry, List.mem_cons_self, by simpa using notZero,
                    isVersion, isFound⟩
              · exact later served

/-- The media types that `negotiate` takes for refused. -/
def rejectedTypes (ranked : List AcceptRange) : List Text :=
  (ranked.filter fun entry =>
    Quality.isZero entry.quality &&
      !Text.endsWith "/*".toList entry.range).map fun entry =>
        Text.toAsciiLowercase entry.range

omit [Quality] in
/-- The range that names a format is no wildcard. -/
theorem not_endsWith_of_names {range : Text} {format : Format}
    (isName : Text.toAsciiLowercase range = format.mediaType) :
    Text.endsWith "/*".toList range = false := by
  rw [Bool.eq_false_iff]
  intro wildcard
  obtain ⟨front, rfl⟩ := Text.endsWith_iff.mp wildcard
  have ends : Text.endsWith "/*".toList format.mediaType = true := by
    rw [← isName, Text.endsWith_iff, Text.toAsciiLowercase, List.map_append]
    exact List.suffix_append _ _
  revert ends
  cases format <;> decide

theorem notRejected_of_rejectedTypes
    {ranked : List AcceptRange} {format : Format}
    (absent : (rejectedTypes ranked).contains format.mediaType = false) :
    NotRejected ranked format := by
  intro entry member isName
  by_contra notFalse
  rw [Bool.not_eq_false] at notFalse
  have refused : format.mediaType ∈ rejectedTypes ranked := by
    rw [← isName]
    refine List.mem_map_of_mem (List.mem_filter.mpr ⟨member, ?_⟩)
    rw [notFalse, not_endsWith_of_names isName]
    rfl
  rw [List.contains_iff_mem.mpr refused] at absent
  cases absent

/-- The candidates of one pass, whichever formats the pass can use. -/
theorem servedFor_of_candidate
    {ranked : List AcceptRange} {stored : Option Format}
    {usable : Format → Bool} {range : Text} {format : Format}
    (allowed : ∀ other, usable other = true → NotRejected ranked other)
    (plain : Text.toAsciiLowercase (mediaTypeEssence range) = range)
    {named : Option Format}
    (isNamed :
      ∀ other, named = some other →
        Format.fromContentType range = some other)
    (isCandidate :
      (if range = "*/*".toList then
          (stored.filter usable).or (fallbackFormats.find? usable)
        else if range = "text/*".toList then
          (some Format.turtle).filter usable
        else if range = "application/*".toList then
          fallbackFormats.find? usable
        else
          named) = some format) :
    ServedFor ranked range format := by
  have ofFallback :
      fallbackFormats.find? usable = some format →
        format ∈ fallbackFormats ∧ usable format = true := by
    intro found
    exact ⟨List.mem_of_find?_eq_some found, List.find?_some found⟩
  split at isCandidate
  · next isAny =>
      refine .anything isAny (allowed format ?_)
      rcases Option.or_eq_some_iff.mp isCandidate with isStored | ⟨_, found⟩
      · exact (Option.filter_eq_some_iff.mp isStored).2
      · exact (ofFallback found).2
  · split at isCandidate
    · next isText =>
        obtain ⟨isTurtle, isUsable⟩ :=
          Option.filter_eq_some_iff.mp isCandidate
        cases isTurtle
        exact .text isText rfl (allowed .turtle isUsable)
    · split at isCandidate
      · next isApplication =>
          obtain ⟨isFallback, isUsable⟩ := ofFallback isCandidate
          exact .application isApplication isFallback (allowed format isUsable)
      · exact .named
          (fromContentType_eq_some plain (isNamed format isCandidate))

theorem essence_of_rankedAccept {accept : Text} {entry : AcceptRange}
    (member : entry ∈ rankedAccept accept) :
    Text.toAsciiLowercase
        (mediaTypeEssence (Text.toAsciiLowercase entry.range)) =
      Text.toAsciiLowercase entry.range := by
  obtain ⟨position, inRange, rfl⟩ :=
    List.mem_mapIdx.mp (mem_rankedAccept.mp member)
  exact essence_of_acceptRange position _

/-- A negotiated format was served for a range that is not refused. -/
theorem servedFor_of_negotiate
    {accept : Text} {shape : RdfShape} {stored : Option Format}
    {format : Format} {version : RdfVersion}
    (present : (Text.trim accept).isEmpty = false)
    (negotiated :
      negotiate accept shape stored = some (format, version)) :
    ∃ entry ∈ rankedAccept (Text.trim accept),
      Quality.isZero entry.quality = false ∧
        ServedFor (rankedAccept (Text.trim accept))
          (Text.toAsciiLowercase entry.range) format := by
  unfold negotiate at negotiated
  dsimp only at negotiated
  rw [present, if_neg (by simp)] at negotiated
  rcases Option.or_eq_some_iff.mp negotiated with strict | ⟨_, lax⟩
  · obtain ⟨entry, member, notZero, _, isCandidate⟩ :=
      exists_of_firstServable strict
    refine ⟨entry, member, notZero, servedFor_of_candidate ?_
      (essence_of_rankedAccept member) ?_ isCandidate⟩
    · intro other isUsable
      rw [Bool.and_eq_true, Bool.not_eq_true'] at isUsable
      exact notRejected_of_rejectedTypes isUsable.2
    · intro other isNamed
      exact (Option.filter_eq_some_iff.mp isNamed).1
  · obtain ⟨entry, member, notZero, _, isCandidate⟩ :=
      exists_of_firstServable lax
    refine ⟨entry, member, notZero, servedFor_of_candidate ?_
      (essence_of_rankedAccept member) ?_ isCandidate⟩
    · intro other isUsable
      rw [Bool.not_eq_true'] at isUsable
      exact notRejected_of_rejectedTypes isUsable
    · intro other isNamed
      exact (Option.filter_eq_some_iff.mp isNamed).1

/-! ## The two readers agree -/

theorem acceptAllows_iff {accept : Text} {format : Format} :
    acceptAllows accept format.asMediaType = true ↔
      (Text.trim accept).isEmpty = true ∨
        ∃ deciding,
          Decides format.mediaType (rankedAccept (Text.trim accept))
              deciding ∧
            Quality.isPositive deciding.quality = true := by
  have essence :
      Text.toAsciiLowercase (mediaTypeEssence format.asMediaType.raw) =
        format.mediaType := by
    cases format <;> decide
  unfold acceptAllows
  dsimp only
  rw [essence]
  split
  · next isEmpty =>
      exact iff_of_true rfl (Or.inl isEmpty)
  · next present =>
      rw [any_bestRange_iff]
      exact (or_iff_right present).symm

/--
Where the entries are ordered totally, one positive range among the most
specific is enough, if these are all zero or more.
-/
theorem acceptAllows_of_mostSpecific
    {magnitude : Quality.Value → Option Int}
    (numeric : NumericQuality magnitude) {accept : Text}
    (undivided : UndividedByNan (acceptEntries (Text.trim accept)))
    {format : Format}
    (signed :
      ∀ entry,
        MostSpecific format.mediaType (rankedAccept (Text.trim accept))
            entry →
          entry.Signed)
    {entry : AcceptRange}
    (most :
      MostSpecific format.mediaType (rankedAccept (Text.trim accept)) entry)
    (positive : Quality.isPositive entry.quality = true) :
    acceptAllows accept format.asMediaType = true := by
  have ordered :=
    pairwise_rankedAccept numeric
      (ranksTotally_of_undividedByNan numeric undivided)
  obtain ⟨deciding, decides⟩ := exists_decides most.member most.matching
  refine acceptAllows_iff.mpr (Or.inr ⟨deciding, decides, ?_⟩)
  have decidingMost := decides.mostSpecific
  obtain ⟨_, before, after, isSplit, lower, _⟩ := decides
  have member := most.member
  rw [isSplit, List.mem_append, List.mem_cons] at member
  rcases member with inBefore | rfl | inAfter
  · have below := lower entry inBefore
    have above := most.highest deciding decidingMost.member
    omega
  · exact positive
  · rw [isSplit, List.pairwise_append, List.pairwise_cons] at ordered
    have less := ordered.2.1.1 entry inAfter
    obtain ⟨left, isLeft⟩ :=
      AcceptRange.Signed.magnitude_eq numeric (signed deciding decidingMost)
    obtain ⟨right, isRight⟩ :=
      AcceptRange.Signed.magnitude_eq numeric (signed entry most)
    rw [AcceptRange.cmp_eq_lt_iff numeric, isLeft, isRight] at less
    rw [numeric.isPositive, isRight, Option.any_some,
      decide_eq_true_iff] at positive
    rw [numeric.isPositive, isLeft, Option.any_some, decide_eq_true_iff]
    simp only [magnitudesRank] at less
    omega

section Specificity

variable {format : Format} {entry : AcceptRange}

theorem specificity_of_name
    (isName : Text.toAsciiLowercase entry.range = format.mediaType) :
    entry.specificity format.mediaType = 3 := by
  unfold AcceptRange.specificity
  rw [if_pos isName]

theorem specificity_of_type
    (isType : Text.toAsciiLowercase entry.range = format.typeRange) :
    entry.specificity format.mediaType = 2 := by
  have notName : ¬ format.typeRange = format.mediaType := by
    cases format <;> decide
  unfold AcceptRange.specificity
  rw [isType, if_neg notName]
  exact if_pos rfl

theorem specificity_of_any
    (isAny : Text.toAsciiLowercase entry.range = "*/*".toList) :
    entry.specificity format.mediaType = 1 := by
  unfold AcceptRange.specificity
  rw [isAny]
  cases format <;> decide

theorem specificity_le_three :
    entry.specificity format.mediaType ≤ 3 := by
  unfold AcceptRange.specificity
  split
  · exact Nat.le_refl 3
  · split
    · omega
    · split
      · omega
      · omega

theorem specificity_le_two
    (notName : Text.toAsciiLowercase entry.range ≠ format.mediaType) :
    entry.specificity format.mediaType ≤ 2 := by
  unfold AcceptRange.specificity
  rw [if_neg notName]
  split
  · exact Nat.le_refl 2
  · split
    · omega
    · omega

theorem specificity_le_one
    (notName : Text.toAsciiLowercase entry.range ≠ format.mediaType)
    (notType : Text.toAsciiLowercase entry.range ≠ format.typeRange) :
    entry.specificity format.mediaType ≤ 1 := by
  unfold Format.typeRange at notType
  unfold AcceptRange.specificity
  rw [if_neg notName, if_neg notType]
  split
  · exact Nat.le_refl 1
  · omega

end Specificity

/--
A format that no range names, whose type is refused as a whole, in a header that
accepts anything: the list of the rejected names does not see that refusal.
-/
structure RefusedByTypeOnly (ranked : List AcceptRange) (format : Format) :
    Prop where
  anything :
    ∃ entry ∈ ranked,
      Text.toAsciiLowercase entry.range = "*/*".toList ∧
        Quality.isZero entry.quality = false
  unnamed :
    ∀ entry ∈ ranked,
      Text.toAsciiLowercase entry.range ≠ format.mediaType
  typed :
    ∃ entry ∈ ranked,
      Text.toAsciiLowercase entry.range = format.typeRange
  refused :
    ∀ entry ∈ ranked,
      Text.toAsciiLowercase entry.range = format.typeRange →
        Quality.isPositive entry.quality = false

/--
The ranges whose qualities decide on a format that is served: the most specific
ones, and those of `application/*` for Turtle.
-/
def Decisive (ranked : List AcceptRange) (format : Format)
    (entry : AcceptRange) : Prop :=
  MostSpecific format.mediaType ranked entry ∨
    (format = .turtle ∧ entry ∈ ranked ∧
      Text.toAsciiLowercase entry.range = "application/*".toList)

section Ranges

variable {ranked : List AcceptRange} {format : Format} {entry : AcceptRange}

theorem mostSpecific_of_name
    (member : entry ∈ ranked)
    (isName : Text.toAsciiLowercase entry.range = format.mediaType) :
    MostSpecific format.mediaType ranked entry := by
  have isThree := specificity_of_name isName
  refine ⟨member, by omega, fun other _ => ?_⟩
  rw [isThree]
  exact specificity_le_three

theorem mostSpecific_of_type
    (unnamed :
      ∀ other ∈ ranked,
        Text.toAsciiLowercase other.range ≠ format.mediaType)
    (member : entry ∈ ranked)
    (isType : Text.toAsciiLowercase entry.range = format.typeRange) :
    MostSpecific format.mediaType ranked entry := by
  have isTwo := specificity_of_type isType
  refine ⟨member, by omega, fun other otherMember => ?_⟩
  rw [isTwo]
  exact specificity_le_two (unnamed other otherMember)

theorem mostSpecific_of_any
    (unnamed :
      ∀ other ∈ ranked,
        Text.toAsciiLowercase other.range ≠ format.mediaType)
    (untyped :
      ∀ other ∈ ranked,
        Text.toAsciiLowercase other.range ≠ format.typeRange)
    (member : entry ∈ ranked)
    (isAny : Text.toAsciiLowercase entry.range = "*/*".toList) :
    MostSpecific format.mediaType ranked entry := by
  have isOne : entry.specificity format.mediaType = 1 :=
    specificity_of_any isAny
  refine ⟨member, by omega, fun other otherMember => ?_⟩
  rw [isOne]
  exact specificity_le_one (unnamed other otherMember)
    (untyped other otherMember)

end Ranges

theorem AcceptRange.Signed.positive
    {entry : AcceptRange} (signed : entry.Signed)
    (notZero : Quality.isZero entry.quality = false) :
    Quality.isPositive entry.quality = true := by
  rcases signed with zero | positive
  · rw [notZero] at zero
    cases zero
  · exact positive

/--
A format that is negotiated is one the header accepts, or it is the Turtle that
answers `application/*`: where the entries are ordered totally and the ranges
that decide on the format have a quality of zero or more, but for a format that
only `*/*` reaches while its type is refused.
-/
theorem negotiated_is_accepted
    {magnitude : Quality.Value → Option Int}
    (numeric : NumericQuality magnitude)
    {accept : Text} {shape : RdfShape} {stored : Option Format}
    {format : Format} {version : RdfVersion}
    (undivided : UndividedByNan (acceptEntries (Text.trim accept)))
    (signed :
      ∀ entry,
        Decisive (rankedAccept (Text.trim accept)) format entry →
          entry.Signed)
    (negotiated : negotiate accept shape stored = some (format, version))
    (notRefused :
      ¬ RefusedByTypeOnly (rankedAccept (Text.trim accept)) format) :
    acceptAllows accept format.asMediaType = true ∨
      (format = .turtle ∧
        ∃ entry ∈ rankedAccept (Text.trim accept),
          Text.toAsciiLowercase entry.range = "application/*".toList ∧
            Quality.isPositive entry.quality = true) := by
  cases present : (Text.trim accept).isEmpty with
  | true =>
      exact Or.inl (acceptAllows_iff.mpr (Or.inl present))
  | false =>
      obtain ⟨entry, member, notZero, served⟩ :=
        servedFor_of_negotiate present negotiated
      have decides {other : AcceptRange}
          (most :
            MostSpecific format.mediaType (rankedAccept (Text.trim accept))
              other)
          (otherNotZero : Quality.isZero other.quality = false) :
          acceptAllows accept format.asMediaType = true :=
        acceptAllows_of_mostSpecific numeric undivided
          (fun third thirdMost => signed third (Or.inl thirdMost)) most
          ((signed other (Or.inl most)).positive otherNotZero)
      by_cases named :
          ∃ other ∈ rankedAccept (Text.trim accept),
            Text.toAsciiLowercase other.range = format.mediaType
      · obtain ⟨other, otherMember, isName⟩ := named
        have ofAllowed
            (allowed :
              NotRejected (rankedAccept (Text.trim accept)) format) :
            acceptAllows accept format.asMediaType = true :=
          decides (mostSpecific_of_name otherMember isName)
            (allowed other otherMember isName)
        left
        cases served with
        | named isServed =>
            exact decides (mostSpecific_of_name member isServed) notZero
        | anything _ allowed =>
            exact ofAllowed allowed
        | text _ _ allowed =>
            exact ofAllowed allowed
        | application _ _ allowed =>
            exact ofAllowed allowed
      · have unnamed :
            ∀ other ∈ rankedAccept (Text.trim accept),
              Text.toAsciiLowercase other.range ≠ format.mediaType :=
          fun other otherMember isName => named ⟨other, otherMember, isName⟩
        cases served with
        | named isServed =>
            exact (unnamed entry member isServed).elim
        | anything isRange allowed =>
            left
            by_cases typed :
                ∃ other ∈ rankedAccept (Text.trim accept),
                  Text.toAsciiLowercase other.range = format.typeRange
            · by_contra notAccepted
              refine notRefused ⟨⟨entry, member, isRange, notZero⟩, unnamed,
                typed, fun other otherMember isType => ?_⟩
              rw [Bool.eq_false_iff]
              intro positive
              exact notAccepted (acceptAllows_of_mostSpecific numeric undivided
                (fun third thirdMost => signed third (Or.inl thirdMost))
                (mostSpecific_of_type unnamed otherMember isType) positive)
            · exact decides
                (mostSpecific_of_any unnamed
                  (fun other otherMember isType =>
                    typed ⟨other, otherMember, isType⟩) member isRange)
                notZero
        | text isRange isTurtle allowed =>
            subst isTurtle
            exact Or.inl (decides
              (mostSpecific_of_type unnamed member isRange) notZero)
        | application isRange isFallback allowed =>
            simp only [fallbackFormats, List.mem_cons, List.not_mem_nil,
              or_false] at isFallback
            rcases isFallback with rfl | rfl
            · have isSigned :=
                signed entry (Or.inr ⟨rfl, member, isRange⟩)
              exact Or.inr
                ⟨rfl, entry, member, isRange, isSigned.positive notZero⟩
            · exact Or.inl (decides
                (mostSpecific_of_type unnamed member isRange) notZero)

end Negotiation

end Quadpod

namespace Quadpod.Reference

theorem numericQuality :
    NumericQuality fun value : Nat => some ((value : Int)) where
  partialCmp first second := congrArg some (compare_natCast first second)
  isZero value := by
    have same :
        ∀ number : Nat, (number == 0) = (some (number : Int) == some 0) := by
      intro number
      cases number <;> rfl
    exact same value
  isPositive value := by
    have same :
        ∀ number : Nat,
          decide (0 < number) = decide (0 < (number : Int)) := by
      intro number
      simp
    exact same value

/-- A header that accepts any application type. -/
def anyApplication : Text := "application/*".toList

theorem rankedAccept_anyApplication :
    rankedAccept (Text.trim anyApplication) =
      [acceptRange 0 (Text.trim anyApplication)] :=
  rankedAccept_of_single (by decide)

/-- A graph is served as Turtle to a client that asked for `application/*`. -/
theorem application_served_turtle :
    ¬ ∀ (accept : Text) (shape : RdfShape) (stored : Option Format)
        (format : Format) (version : RdfVersion),
      negotiate accept shape stored = some (format, version) →
        acceptAllows accept format.asMediaType = true := by
  intro claimed
  have negotiated :
      negotiate anyApplication .graph none = some (.turtle, .rdf11) := by
    unfold negotiate
    simp only [rankedAccept_anyApplication]
    rfl
  have refused :
      acceptAllows anyApplication Format.turtle.asMediaType = false := by
    unfold acceptAllows
    simp only [rankedAccept_anyApplication]
    rfl
  have accepted := claimed anyApplication .graph none .turtle .rdf11 negotiated
  rw [refused] at accepted
  cases accepted

/-- A header that refuses every text type but Turtle. -/
def onlyTurtle : Text := "text/turtle,text/*;q=0".toList

theorem acceptEntries_onlyTurtle :
    acceptEntries (Text.trim onlyTurtle) =
      [acceptRange 0 "text/turtle".toList,
        acceptRange 1 "text/*;q=0".toList] := by
  have isSplit :
      Text.split ',' (Text.trim onlyTurtle) =
        ["text/turtle".toList, "text/*;q=0".toList] := by
    decide
  rw [acceptEntries, isSplit]
  rfl

theorem rankedAccept_onlyTurtle :
    rankedAccept (Text.trim onlyTurtle) =
      [acceptRange 0 "text/turtle".toList,
        acceptRange 1 "text/*;q=0".toList] := by
  rw [rankedAccept, acceptEntries_onlyTurtle]
  refine List.mergeSort_of_pairwise ?_
  decide

/-- Turtle is served by its name, and accepted. -/
theorem onlyTurtle_served_turtle :
    negotiate onlyTurtle .graph none = some (.turtle, .rdf11) ∧
      (acceptAllows onlyTurtle Format.turtle.asMediaType = true ∨
        (Format.turtle = .turtle ∧
          ∃ entry ∈ rankedAccept (Text.trim onlyTurtle),
            Text.toAsciiLowercase entry.range = "application/*".toList ∧
              Quality.isPositive entry.quality = true)) := by
  have signed (entry : AcceptRange)
      (member : entry ∈ rankedAccept (Text.trim onlyTurtle)) :
      entry.Signed := by
    rw [rankedAccept_onlyTurtle] at member
    simp only [List.mem_cons, List.not_mem_nil, or_false] at member
    rcases member with rfl | rfl
    · exact Or.inr rfl
    · exact Or.inl rfl
  have negotiated :
      negotiate onlyTurtle .graph none = some (.turtle, .rdf11) := by
    unfold negotiate
    simp only [rankedAccept_onlyTurtle]
    decide
  refine ⟨negotiated,
    negotiated_is_accepted numericQuality ?_ ?_ negotiated ?_⟩
  · rw [acceptEntries_onlyTurtle]
    unfold UndividedByNan AcceptRange.IsNan
    decide
  · rintro entry (most | ⟨_, member, _⟩)
    · exact signed entry most.member
    · exact signed entry member
  · intro refused
    refine refused.unnamed (acceptRange 0 "text/turtle".toList) ?_
      (by decide)
    rw [rankedAccept_onlyTurtle]
    exact List.mem_cons_self

end Quadpod.Reference
