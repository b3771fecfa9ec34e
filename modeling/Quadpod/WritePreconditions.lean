import Quadpod.EntityTags

namespace Quadpod

open AtomicProgram

/-!
# Write preconditions

`check_conditionals` compares the text of `If-Match` as a whole with each
current tag, and reads nothing of `If-None-Match` but `*`.  RFC 9110 gives both
fields a grammar: `*`, or a list of entity tags.  The two readings agree on a
single tag, and the module says which other fields they agree on.
-/

/-! ## The grammar of the two fields -/

/-- `etagc`: a visible character other than the quote, or `obs-text`. -/
def isEtagChar (c : Char) : Bool :=
  c == '!' || ('#' ≤ c && c ≤ '~') || (0x80 ≤ c.toNat && c.toNat ≤ 0xFF)

/-- `entity-tag` -/
structure EntityTag where
  weak : Bool
  content : Text
  wellFormed : ∀ c ∈ content, isEtagChar c = true

namespace EntityTag

/-- The part of a tag that is compared: its text between quotes. -/
def quoted (tag : EntityTag) : Text :=
  '"' :: tag.content ++ ['"']

/-- A tag as it is written. -/
def text (tag : EntityTag) : Text :=
  if tag.weak then 'W' :: '/' :: tag.quoted else tag.quoted

/-- The strong comparison: neither tag is weak, and they are the same. -/
def StronglyMatches (tag : EntityTag) (current : Text) : Prop :=
  tag.weak = false ∧ tag.quoted = current

/-- The weak comparison: the same between quotes, weak or not. -/
def WeaklyMatches (tag : EntityTag) (current : Text) : Prop :=
  tag.quoted = current ∨ 'W' :: '/' :: tag.quoted = current

end EntityTag

/-- What separates two members of a list: a comma, with blanks around it. -/
structure ListSeparator where
  before : Text
  after : Text
  blanks : ∀ c ∈ before ++ after, c = ' ' ∨ c = '\t'

/-- The text of a separator. -/
def ListSeparator.text (separator : ListSeparator) : Text :=
  separator.before ++ ',' :: separator.after

/-- The value of `If-Match` or `If-None-Match`. -/
inductive TagCondition where
  | any
  | listed (first : EntityTag) (rest : List (ListSeparator × EntityTag))

namespace TagCondition

/-- The tags a condition lists. -/
def tags : TagCondition → List EntityTag
  | .any => []
  | .listed first rest => first :: rest.map Prod.snd

/-- A condition as it is written. -/
def text : TagCondition → Text
  | .any => ['*']
  | .listed first rest =>
      first.text ++ rest.flatMap fun member =>
        member.1.text ++ member.2.text

/-- The bytes `HeaderValue::to_str` accepts. -/
def isVisibleAscii (c : Char) : Bool :=
  (' ' ≤ c && c ≤ '~') || c == '\t'

/-- A condition that `HeaderValue::to_str` makes a text of. -/
def Readable (condition : TagCondition) : Prop :=
  ∀ c ∈ condition.text, isVisibleAscii c = true

instance (condition : TagCondition) : Decidable condition.Readable :=
  List.decidableBAll _ condition.text

/-- A condition as a field of a request. -/
def headerValue (condition : TagCondition) : Option Text :=
  if condition.Readable then some condition.text else none

/-- A condition that names one tag. -/
def IsSingle (condition : TagCondition) : Prop :=
  ∃ tag, condition = .listed tag []

end TagCondition

/-! ## What RFC 9110 refuses -/

variable [IriSyntax] [Sha256] [QuadText]

/-- What a target holds. -/
inductive TargetState where
  | absent
  | rdf (stored : Skolemized)
  | binary (bytes : Bytes)

/-- The tags of the representations a target has. -/
def TargetState.tags : TargetState → Option (List Text)
  | .absent => none
  | .rdf stored => some (etagCandidates stored)
  | .binary bytes => some [blobEtag bytes]

/-- The tag is one of the state's. -/
def TargetState.HasTag (state : TargetState) (tag : Text) : Prop :=
  ∃ tags, state.tags = some tags ∧ tag ∈ tags

/-- `If-Match` evaluates to false. -/
def IfMatchFails (state : TargetState) (condition : TagCondition) : Prop :=
  state = .absent ∨
    (condition ≠ .any ∧
      ¬ ∃ tag ∈ condition.tags, ∃ current,
        state.HasTag current ∧ tag.StronglyMatches current)

/-- `If-None-Match` evaluates to false. -/
def IfNoneMatchFails (state : TargetState) (condition : TagCondition) : Prop :=
  (condition = .any ∧ state ≠ .absent) ∨
    ∃ tag ∈ condition.tags, ∃ current,
      state.HasTag current ∧ tag.WeaklyMatches current

/-- A write RFC 9110 refuses with 412. -/
def PreconditionFails
    (state : TargetState) (ifMatch ifNoneMatch : Option TagCondition) : Prop :=
  (∃ condition, ifMatch = some condition ∧ IfMatchFails state condition) ∨
    ∃ condition, ifNoneMatch = some condition ∧
      IfNoneMatchFails state condition

/-! ## Where the code reads otherwise -/

/--
`If-Match` is `*` or a list of several tags, and the target meets it, as it
meets `If-None-Match`.
-/
def MetInAnotherForm
    (state : TargetState) (ifMatch ifNoneMatch : Option TagCondition) : Prop :=
  (∃ condition,
    ifMatch = some condition ∧
      condition.Readable ∧
      ¬ condition.IsSingle ∧
      ¬ IfMatchFails state condition) ∧
    ∀ condition, ifNoneMatch = some condition →
      ¬ IfNoneMatchFails state condition

/--
Nothing the code reads fails: `If-Match` is one tag the target has, if it is
text, and `If-None-Match` is `*` of an absent target only.  What it does not
read does: an `If-Match` that is not text, or the tags of `If-None-Match`.
-/
def FailsUnread
    (state : TargetState) (ifMatch ifNoneMatch : Option TagCondition) : Prop :=
  (∀ condition, ifMatch = some condition → condition.Readable →
    condition.IsSingle ∧ ¬ IfMatchFails state condition) ∧
    (ifNoneMatch = some .any → state = .absent) ∧
    ((∃ condition, ifMatch = some condition ∧
        ¬ condition.Readable ∧ IfMatchFails state condition) ∨
      ∃ condition, ifNoneMatch = some condition ∧
        condition ≠ .any ∧ IfNoneMatchFails state condition)

/-! ## Texts of tags -/

theorem TargetState.any_contains_iff (state : TargetState) (tag : Text) :
    (state.tags.any fun tags => tags.contains tag) = true ↔
      state.HasTag tag := by
  cases isTags : state.tags with
  | none => simp [HasTag, isTags]
  | some tags => simp [HasTag, isTags]

theorem TargetState.unmatched_iff
    (state : TargetState) {sent : Option Text} :
    (!sent.all fun tag => state.tags.any fun tags => tags.contains tag) =
        true ↔
      ∃ text, sent = some text ∧ ¬ state.HasTag text := by
  cases sent with
  | none => simp
  | some text =>
      rw [Option.all_some, Bool.not_eq_true', ← Bool.not_eq_true,
        state.any_contains_iff]
      simp

theorem TargetState.tags_isSome_iff (state : TargetState) :
    state.tags.isSome = true ↔ state ≠ .absent := by
  cases state <;> simp [tags]

omit [IriSyntax] in
theorem blobEtag_shape (bytes : Bytes) :
    ∃ digest : Text,
      blobEtag bytes = '"' :: digest ++ ['"'] ∧
        ∀ c ∈ digest, c.isAlphanum = true :=
  ⟨_, rfl, Sha256.hex bytes⟩

/-- A current tag is a hexadecimal digest between quotes. -/
theorem TargetState.tag_shape
    {state : TargetState} {tag : Text} (hasTag : state.HasTag tag) :
    ∃ digest : Text,
      tag = '"' :: digest ++ ['"'] ∧
        ∀ c ∈ digest, c.isAlphanum = true := by
  obtain ⟨tags, isTags, isCurrent⟩ := hasTag
  cases state with
  | absent =>
      cases isTags
  | rdf stored =>
      cases isTags
      simp only [etagCandidates, List.mem_flatMap, List.mem_map] at isCurrent
      obtain ⟨format, _, version, _, rfl⟩ := isCurrent
      exact ⟨_, rfl, Sha256.hex _⟩
  | binary bytes =>
      cases isTags
      obtain rfl := List.mem_singleton.mp isCurrent
      exact blobEtag_shape bytes

/-- A current tag has a quote at each end and no other. -/
theorem TargetState.count_quotes
    {state : TargetState} {tag : Text} (hasTag : state.HasTag tag) :
    tag.count '"' = 2 := by
  obtain ⟨digest, rfl, isHex⟩ := tag_shape hasTag
  have noQuote : digest.count '"' = 0 := by
    refine List.count_eq_zero.mpr fun isQuote => ?_
    exact absurd (isHex _ isQuote) (by decide)
  simp [noQuote]

omit [IriSyntax] [Sha256] [QuadText] in
/-- Every written tag has two quotes at least. -/
theorem EntityTag.count_quotes (tag : EntityTag) :
    2 ≤ tag.text.count '"' := by
  have quotes : 2 ≤ tag.quoted.count '"' := by
    simp [quoted]
  unfold text
  split
  · exact Nat.le_trans quotes
      (List.Sublist.count_le _ (((List.Sublist.refl _).cons _).cons _))
  · exact quotes

omit [IriSyntax] [Sha256] [QuadText] in
theorem EntityTag.head_text (tag : EntityTag) :
    tag.text.head? = some (if tag.weak then 'W' else '"') := by
  unfold text quoted
  split <;> rfl

omit [IriSyntax] [Sha256] [QuadText] in
theorem TagCondition.head_listed
    (first : EntityTag) (rest : List (ListSeparator × EntityTag)) :
    (TagCondition.listed first rest).text.head? =
      some (if first.weak then 'W' else '"') := by
  rw [text, List.head?_append, first.head_text]
  rfl

omit [IriSyntax] [Sha256] [QuadText] in
theorem TagCondition.text_single
    {tag : EntityTag} (isStrong : tag.weak = false) :
    (TagCondition.listed tag []).text = tag.quoted := by
  simp [text, EntityTag.text, isStrong]

omit [IriSyntax] [Sha256] [QuadText] in
/-- Two written tags have four quotes at least. -/
theorem TagCondition.count_quotes_several
    (first : EntityTag) (member : ListSeparator × EntityTag)
    (others : List (ListSeparator × EntityTag)) :
    4 ≤ (TagCondition.listed first (member :: others)).text.count '"' := by
  have firstQuotes := first.count_quotes
  have memberQuotes := member.2.count_quotes
  simp only [text, List.flatMap_cons, List.count_append]
  omega

/-- A condition whose text is a current tag is that tag alone. -/
theorem TargetState.single_of_hasTag_text
    {state : TargetState} {condition : TagCondition}
    (hasTag : state.HasTag condition.text) :
    ∃ tag, condition = .listed tag [] ∧ tag.weak = false := by
  obtain ⟨digest, sameText, _⟩ := tag_shape hasTag
  cases condition with
  | any =>
      cases sameText
  | listed first rest =>
      have isStrong : first.weak = false := by
        have head := TagCondition.head_listed first rest
        rw [sameText] at head
        cases isWeak : first.weak with
        | false => rfl
        | true =>
            rw [isWeak] at head
            cases head
      cases rest with
      | nil =>
          exact ⟨first, rfl, isStrong⟩
      | cons member others =>
          have quotes := count_quotes hasTag
          have more := TagCondition.count_quotes_several first member others
          omega

/-- The code finds a condition among the current tags if it is one of them. -/
theorem TargetState.hasTag_text_iff
    (state : TargetState) (condition : TagCondition) :
    state.HasTag condition.text ↔
      condition.IsSingle ∧ ¬ IfMatchFails state condition := by
  constructor
  · intro hasTag
    obtain ⟨tag, rfl, isStrong⟩ := single_of_hasTag_text hasTag
    refine ⟨⟨tag, rfl⟩, ?_⟩
    rintro (rfl | ⟨_, noMatch⟩)
    · obtain ⟨tags, impossible, _⟩ := hasTag
      cases impossible
    · exact noMatch ⟨tag, List.mem_cons_self, _, hasTag, isStrong,
        (TagCondition.text_single isStrong).symm⟩
  · rintro ⟨⟨tag, rfl⟩, isMet⟩
    have isMatched :
        ∃ current, state.HasTag current ∧ tag.StronglyMatches current := by
      refine Classical.byContradiction fun noMatch => ?_
      refine isMet (Or.inr ⟨by simp, ?_⟩)
      rintro ⟨other, isListed, matched⟩
      obtain rfl := List.mem_singleton.mp isListed
      exact noMatch matched
    obtain ⟨current, hasTag, isStrong, rfl⟩ := isMatched
    rw [TagCondition.text_single isStrong]
    exact hasTag

omit [IriSyntax] [Sha256] [QuadText] in
/-- `*` is read, and nothing else is read as it. -/
theorem TagCondition.headerValue_any_iff (condition : TagCondition) :
    condition.headerValue = some "*".toList ↔ condition = .any := by
  constructor
  · intro isStar
    cases condition with
    | any => rfl
    | listed first rest =>
        unfold headerValue at isStar
        split at isStar
        · have head := head_listed first rest
          rw [Option.some.inj isStar] at head
          split at head <;> exact absurd head (by decide)
        · cases isStar
  · rintro rfl
    have isReadable : TagCondition.any.Readable := by
      decide
    rw [headerValue, if_pos isReadable]
    rfl

/-! ## What the code refuses -/

variable [ObjectPath] {space : StorageSpace}

/--
The state a target is in.  A binary resource whose bytes are gone has no
representation left, as an absent target has none.
-/
inductive World.InState (world : World) :
    Target space → TargetState → Prop where
  | absent {target : Target space} :
      world.present target.node = false → world.InState target .absent
  | rdf {target : Target space} {stored : Skolemized} :
      world.storedRdf target = some stored →
      world.InState target (.rdf stored)
  | binary {url : ResourceUrl space}
      {leaf : Text.endsWith ['/'] url.path = false}
      {mediaType : MediaType} {key : BlobKey} {bytes : Bytes} :
      world.kindOf url = .ok (some (.binary mediaType)) →
      BlobKey.of url = some key →
      world.blobs key = some bytes →
      world.InState (.resource url leaf) (.binary bytes)
  | lost {url : ResourceUrl space}
      {leaf : Text.endsWith ['/'] url.path = false}
      {mediaType : MediaType} :
      world.kindOf url = .ok (some (.binary mediaType)) →
      (BlobKey.of url).bind world.blobs = none →
      world.InState (.resource url leaf) .absent

/-- The tags of a binary resource are the one of its bytes. -/
theorem eval_currentTags_binary
    {world : World} {url : ResourceUrl space}
    {leaf : Text.endsWith ['/'] url.path = false} {mediaType : MediaType}
    (isBinary : world.kindOf url = .ok (some (.binary mediaType))) :
    Program.eval backend (currentTags (.resource url leaf)) world =
      (.ok (((BlobKey.of url).bind world.blobs).map
        fun bytes => [blobEtag bytes]), world) := by
  have kind := eval_kindOf world url
  rw [isBinary] at kind
  unfold currentTags
  dsimp only
  rw [Program.eval_bind_ok kind]
  dsimp only
  cases isKey : BlobKey.of url with
  | none => rfl
  | some key =>
      dsimp only
      rw [StoreProgram.eval_issue_bind rfl]
      rfl

/-- The tags of an absent target: it has none. -/
theorem eval_currentTags_absent
    {world : World} {target : Target space}
    (isAbsent : world.present target.node = false) :
    Program.eval backend (currentTags target) world = (.ok none, world) := by
  have ofGraph :
      Program.eval backend (graphTags target) world = (.ok none, world) := by
    have read := eval_getRdf world target
    rw [isAbsent] at read
    unfold graphTags
    rw [Program.eval_bind_ok read]
    rfl
  cases target with
  | resource url leaf =>
      have isMissing : world.present url.node = false := isAbsent
      have kind := eval_kindOf world url
      rw [World.kindOf, if_neg (by simp [isMissing])] at kind
      unfold currentTags
      dsimp only
      rw [Program.eval_bind_ok kind]
      dsimp only
      rw [Program.eval_bind_ok (eval_getDataset_absent isAbsent)]
      rfl
  | container url =>
      exact ofGraph
  | aux url =>
      exact ofGraph

/-- `current_tags` reads the tags of the state. -/
theorem eval_currentTags_inState
    {world : World} {target : Target space} {state : TargetState}
    (inState : world.InState target state) :
    Program.eval backend (currentTags target) world =
      (.ok state.tags, world) := by
  cases inState with
  | rdf isStored =>
      exact eval_currentTags isStored
  | absent isAbsent =>
      exact eval_currentTags_absent isAbsent
  | binary isBinary isKey isThere =>
      rw [eval_currentTags_binary isBinary, isKey, Option.bind_some, isThere]
      rfl
  | lost isBinary isLost =>
      rw [eval_currentTags_binary isBinary, isLost]
      rfl

/-- What `check_conditionals` refuses, once the tags are read. -/
theorem checkConditionals_refuses_iff
    {world : World} {target : Target space} {state : TargetState}
    (inState : world.InState target state) (headers : HeaderMap) :
    (Program.eval backend (checkConditionals headers target) world).1 =
        .error (.ofStatus 412) ↔
      (∃ text, headers.str? .ifMatch = some text ∧ ¬ state.HasTag text) ∨
        (headers.str? .ifNoneMatch = some "*".toList ∧ state ≠ .absent) := by
  have tags :
      Program.eval backend
          (Program.mapError putError (currentTags target)) world =
        (.ok state.tags, world) := by
    rw [Program.eval_mapError, eval_currentTags_inState inState]
    rfl
  unfold checkConditionals
  split
  · next unconditional =>
      simp only [HeaderMap.containsKey, Bool.and_eq_true, Bool.not_eq_true',
        Option.isSome_eq_false_iff, Option.isNone_iff_eq_none]
        at unconditional
      have noMatch : headers.str? .ifMatch = none := by
        rw [HeaderMap.str?, unconditional.1]
        rfl
      have noNoneMatch : headers.str? .ifNoneMatch = none := by
        rw [HeaderMap.str?, unconditional.2]
        rfl
      rw [noMatch, noNoneMatch]
      simp [Program.pure_eq, Program.eval_done]
  · rw [Program.eval_bind_ok tags]
    dsimp only
    split
    · next unmatched =>
        refine iff_of_true rfl (Or.inl ?_)
        exact state.unmatched_iff.mp unmatched
    · next matched =>
        have met :
            ¬ ∃ text, headers.str? .ifMatch = some text ∧
              ¬ state.HasTag text :=
          fun unmet => matched (state.unmatched_iff.mpr unmet)
        split
        · next refused =>
            refine iff_of_true rfl (Or.inr ?_)
            simpa [state.tags_isSome_iff] using refused
        · next passed =>
            refine iff_of_false (by simp [Program.pure_eq]) ?_
            rintro (unmet | isThere)
            · exact met unmet
            · refine passed ?_
              simpa [state.tags_isSome_iff] using isThere

/-! ## When the two readings agree -/

/-- What the code refuses, by the conditions it was sent. -/
def CodeRefuses
    (state : TargetState) (ifMatch ifNoneMatch : Option TagCondition) : Prop :=
  (∃ condition, ifMatch = some condition ∧ condition.Readable ∧
    ¬ (condition.IsSingle ∧ ¬ IfMatchFails state condition)) ∨
    (ifNoneMatch = some .any ∧ state ≠ .absent)

/-- The headers of two conditions are refused as the conditions are. -/
theorem checkConditionals_refuses_conditions
    {world : World} {target : Target space} {state : TargetState}
    (inState : world.InState target state)
    {headers : HeaderMap} {ifMatch ifNoneMatch : Option TagCondition}
    (isMatch :
      headers.lookup .ifMatch = ifMatch.map TagCondition.headerValue)
    (isNoneMatch :
      headers.lookup .ifNoneMatch =
        ifNoneMatch.map TagCondition.headerValue) :
    (Program.eval backend (checkConditionals headers target) world).1 =
        .error (.ofStatus 412) ↔
      CodeRefuses state ifMatch ifNoneMatch := by
  have matchText (text : Text) :
      headers.str? .ifMatch = some text ↔
        ∃ condition, ifMatch = some condition ∧ condition.Readable ∧
          condition.text = text := by
    rw [HeaderMap.str?, isMatch]
    cases ifMatch with
    | none => simp
    | some condition => simp [TagCondition.headerValue]
  have noneMatchText :
      headers.str? .ifNoneMatch = some "*".toList ↔
        ifNoneMatch = some .any := by
    rw [HeaderMap.str?, isNoneMatch]
    cases ifNoneMatch with
    | none => simp
    | some condition =>
        rw [Option.map_some, Option.join_some,
          condition.headerValue_any_iff, Option.some.injEq]
  rw [checkConditionals_refuses_iff inState, noneMatchText]
  refine or_congr ?_ Iff.rfl
  constructor
  · rintro ⟨text, isText, isMissing⟩
    obtain ⟨condition, isCondition, isReadable, rfl⟩ := (matchText _).mp isText
    rw [state.hasTag_text_iff] at isMissing
    exact ⟨condition, isCondition, isReadable, isMissing⟩
  · rintro ⟨condition, isCondition, isReadable, isMissing⟩
    rw [← state.hasTag_text_iff] at isMissing
    exact ⟨_, (matchText _).mpr ⟨condition, isCondition, isReadable, rfl⟩,
      isMissing⟩

omit [ObjectPath] in
theorem ifNoneMatchFails_any_iff (state : TargetState) :
    IfNoneMatchFails state .any ↔ state ≠ .absent := by
  simp [IfNoneMatchFails, TagCondition.tags]

omit [ObjectPath] in
/-- What is refused without need. -/
theorem refused_needlessly_iff
    (state : TargetState) (ifMatch ifNoneMatch : Option TagCondition) :
    CodeRefuses state ifMatch ifNoneMatch ∧
        ¬ PreconditionFails state ifMatch ifNoneMatch ↔
      MetInAnotherForm state ifMatch ifNoneMatch := by
  constructor
  · rintro ⟨refused, isMet⟩
    have metNone :
        ∀ condition, ifNoneMatch = some condition →
          ¬ IfNoneMatchFails state condition :=
      fun condition isCondition fails =>
        isMet (Or.inr ⟨condition, isCondition, fails⟩)
    refine ⟨?_, metNone⟩
    obtain ⟨condition, isCondition, isReadable, unread⟩ | ⟨isAny, isThere⟩ :=
      refused
    · have metMatch : ¬ IfMatchFails state condition :=
        fun fails => isMet (Or.inl ⟨condition, isCondition, fails⟩)
      exact ⟨condition, isCondition, isReadable,
        fun isSingle => unread ⟨isSingle, metMatch⟩, metMatch⟩
    · exact (metNone _ isAny
        ((ifNoneMatchFails_any_iff state).mpr isThere)).elim
  · rintro ⟨⟨condition, isCondition, isReadable, notSingle, metMatch⟩, metNone⟩
    refine ⟨Or.inl ⟨condition, isCondition, isReadable,
      fun single => notSingle single.1⟩, ?_⟩
    rintro (⟨other, isOther, fails⟩ | ⟨other, isOther, fails⟩)
    · rw [isCondition] at isOther
      cases isOther
      exact metMatch fails
    · exact metNone other isOther fails

omit [ObjectPath] in
/-- What goes through that should not. -/
theorem passed_wrongly_iff
    (state : TargetState) (ifMatch ifNoneMatch : Option TagCondition) :
    ¬ CodeRefuses state ifMatch ifNoneMatch ∧
        PreconditionFails state ifMatch ifNoneMatch ↔
      FailsUnread state ifMatch ifNoneMatch := by
  constructor
  · rintro ⟨passed, fails⟩
    have readMatch :
        ∀ condition, ifMatch = some condition → condition.Readable →
          condition.IsSingle ∧ ¬ IfMatchFails state condition :=
      fun condition isCondition isReadable =>
        Classical.byContradiction fun unread =>
          passed (Or.inl ⟨condition, isCondition, isReadable, unread⟩)
    have readNone : ifNoneMatch = some .any → state = .absent :=
      fun isAny =>
        Classical.byContradiction fun isThere =>
          passed (Or.inr ⟨isAny, isThere⟩)
    refine ⟨readMatch, readNone, ?_⟩
    obtain ⟨condition, isCondition, fails⟩ | ⟨condition, isCondition, fails⟩ :=
      fails
    · exact Or.inl ⟨condition, isCondition,
        fun isReadable => (readMatch condition isCondition isReadable).2 fails,
        fails⟩
    · refine Or.inr ⟨condition, isCondition, ?_, fails⟩
      rintro rfl
      exact (ifNoneMatchFails_any_iff state).mp fails (readNone isCondition)
  · rintro ⟨readMatch, readNone, fails⟩
    constructor
    · rintro (⟨condition, isCondition, isReadable, unread⟩ | ⟨isAny, isThere⟩)
      · exact unread (readMatch condition isCondition isReadable)
      · exact isThere (readNone isAny)
    · obtain ⟨condition, isCondition, _, fails⟩ |
          ⟨condition, isCondition, _, fails⟩ := fails
      · exact Or.inl ⟨condition, isCondition, fails⟩
      · exact Or.inr ⟨condition, isCondition, fails⟩

/--
`check_conditionals` refuses what RFC 9110 refuses and nothing else, except
where a condition the target meets is written as `*` or as several tags, and
where only what the code does not read fails.
-/
theorem preconditions_follow_rfc_iff
    {world : World} {target : Target space} {state : TargetState}
    (inState : world.InState target state)
    {headers : HeaderMap} {ifMatch ifNoneMatch : Option TagCondition}
    (isMatch :
      headers.lookup .ifMatch = ifMatch.map TagCondition.headerValue)
    (isNoneMatch :
      headers.lookup .ifNoneMatch =
        ifNoneMatch.map TagCondition.headerValue) :
    ((Program.eval backend (checkConditionals headers target) world).1 =
        .error (.ofStatus 412) ↔
      PreconditionFails state ifMatch ifNoneMatch) ↔
      ¬ MetInAnotherForm state ifMatch ifNoneMatch ∧
        ¬ FailsUnread state ifMatch ifNoneMatch := by
  rw [checkConditionals_refuses_conditions inState isMatch isNoneMatch,
    ← refused_needlessly_iff, ← passed_wrongly_iff]
  constructor
  · intro agree
    exact ⟨fun needless => needless.2 (agree.mp needless.1),
      fun wrongly => wrongly.1 (agree.mpr wrongly.2)⟩
  · rintro ⟨notNeedless, notWrongly⟩
    constructor
    · intro refused
      exact Classical.byContradiction fun isMet =>
        notNeedless ⟨refused, isMet⟩
    · intro fails
      exact Classical.byContradiction fun passed =>
        notWrongly ⟨passed, fails⟩

end Quadpod

namespace Quadpod.Reference

open AtomicProgram

/-- The note is in the state that was put. -/
theorem inState_statedWorld :
    statedWorld.InState noteTarget (.rdf stated) :=
  .rdf storedRdf_statedWorld

/-- The headers of a write that must create, and of one that must replace. -/
def createOnly : HeaderMap := [(.ifNoneMatch, some "*".toList)]

def replaceOnly : HeaderMap := [(.ifMatch, some "*".toList)]

/-- A write that must create is refused of a resource that is there. -/
theorem createOnly_refused :
    (Program.eval backend (checkConditionals createOnly noteTarget)
      statedWorld).1 = .error (.ofStatus 412) := by
  have noMatch :
      createOnly.lookup .ifMatch =
        Option.map TagCondition.headerValue none :=
    rfl
  have isAny :
      createOnly.lookup .ifNoneMatch =
        (some TagCondition.any).map TagCondition.headerValue :=
    rfl
  have agree :=
    (preconditions_follow_rfc_iff inState_statedWorld noMatch isAny).mpr
  refine (agree ⟨?_, ?_⟩).mpr (Or.inr ⟨.any, rfl, Or.inl ⟨rfl, ?_⟩⟩)
  · rintro ⟨⟨condition, impossible, _⟩, _⟩
    cases impossible
  · rintro ⟨_, isAbsent, _⟩
    exact absurd (isAbsent rfl) (by simp)
  · simp

/-- A write that must replace is refused of a resource that is there. -/
theorem replaceOnly_refused :
    statedWorld.InState noteTarget (.rdf stated) ∧
      replaceOnly.lookup .ifMatch =
        (some TagCondition.any).map TagCondition.headerValue ∧
      replaceOnly.lookup .ifNoneMatch = none ∧
      (Program.eval backend (checkConditionals replaceOnly noteTarget)
        statedWorld).1 = .error (.ofStatus 412) ∧
      ¬ PreconditionFails (.rdf stated) (some .any) none := by
  have isAny :
      replaceOnly.lookup .ifMatch =
        (some TagCondition.any).map TagCondition.headerValue :=
    rfl
  have noNoneMatch :
      replaceOnly.lookup .ifNoneMatch =
        Option.map TagCondition.headerValue none :=
    rfl
  have notSingle : ¬ TagCondition.any.IsSingle := by
    rintro ⟨tag, impossible⟩
    cases impossible
  have isMet : ¬ IfMatchFails (.rdf stated) .any := by
    simp [IfMatchFails]
  have needless :=
    (refused_needlessly_iff (.rdf stated) (some .any) none).mpr
      ⟨⟨.any, rfl, by decide, notSingle, isMet⟩, by simp⟩
  exact ⟨inState_statedWorld, isAny, noNoneMatch,
    (checkConditionals_refuses_conditions inState_statedWorld isAny
      noNoneMatch).mpr needless.1,
    needless.2⟩

end Quadpod.Reference
