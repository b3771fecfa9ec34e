import Quadpod.FieldSyntax
import Quadpod.VersionParameters

namespace Quadpod

/-!
# The version parameter by its grammar

A media type has tokens or quoted strings as the values of its parameters, and
may have parameters that are empty.  `RdfVersion::from_media_type` cuts it at
every semicolon and every first equals sign, so an empty parameter, a quoted
version and a semicolon inside a quoted value are read otherwise than written.
-/

/-! ## The grammar -/

/-- `parameter` -/
structure Parameter where
  name : Token
  value : ParameterValue

namespace Parameter

/-- The parameter as it is written. -/
def text (parameter : Parameter) : Text :=
  parameter.name.text ++ '=' :: parameter.value.text

/-- Names of parameters have no case. -/
def isVersion (parameter : Parameter) : Bool :=
  Text.eqIgnoreAsciiCase parameter.name.text "version".toList

end Parameter

/-- What follows a semicolon: a parameter, or nothing. -/
structure ParameterSlot where
  before : Blanks
  after : Blanks
  parameter : Option Parameter

namespace ParameterSlot

/-- The parameter of a slot, as it is written. -/
def body (slot : ParameterSlot) : Text :=
  (slot.parameter.map Parameter.text).getD []

/-- A slot as it is written. -/
def text (slot : ParameterSlot) : Text :=
  slot.before.text ++ ';' :: (slot.after.text ++ slot.body)

/-- What is left of a slot after a semicolon inside its quoted value. -/
def quotedPieces (slot : ParameterSlot) : List Text :=
  (Text.split ';' slot.body).drop 1

end ParameterSlot

/-- `media-type` -/
structure MediaTypeSyntax where
  type : Token
  subtype : Token
  slots : List ParameterSlot

namespace MediaTypeSyntax

/-- A media type as it is written. -/
def text (mediaType : MediaTypeSyntax) : Text :=
  mediaType.type.text ++ '/' :: mediaType.subtype.text ++
    mediaType.slots.flatMap ParameterSlot.text

/-- What the version parameters say. -/
def versions (mediaType : MediaTypeSyntax) : List Text :=
  ((mediaType.slots.filterMap ParameterSlot.parameter).filter
    Parameter.isVersion).map (·.value.value)

/-- What the pieces between semicolons read as the version, in order. -/
def readings (mediaType : MediaTypeSyntax) : List Text :=
  mediaType.slots.flatMap fun slot =>
    (Text.split ';' slot.body).filterMap versionValue

/-- A version parameter says something else than one of the three labels. -/
def Unrecognised (mediaType : MediaTypeSyntax) : Prop :=
  ∃ value ∈ mediaType.versions, ∀ version : RdfVersion, value ≠ version.label

/-- The version parameters all name one version. -/
def Names (mediaType : MediaTypeSyntax) (version : RdfVersion) : Prop :=
  mediaType.versions ≠ [] ∧
    ∀ value ∈ mediaType.versions, value = version.label

/-- An answer that is right for a media type. -/
structure ReadBy
    (mediaType : MediaTypeSyntax) (answer : Option RdfVersion) : Prop where
  absent : mediaType.versions = [] → answer = some .rdf11
  named : ∀ version, mediaType.Names version → answer = some version
  refused : answer = none → mediaType.Unrecognised

/--
A media type whose pieces say what its parameters say: no parameter is empty, no
version is quoted, what a quoted value has after a semicolon can be read as a
parameter too, and what is read last is the version that is named, or 1.1.
-/
structure SaidInPieces (mediaType : MediaTypeSyntax) : Prop where
  filled : ∀ slot ∈ mediaType.slots, slot.parameter.isSome = true
  bare :
    ∀ slot ∈ mediaType.slots, ∀ parameter, slot.parameter = some parameter →
      parameter.isVersion = true →
      ∃ token, parameter.value = .token token
  pieces :
    ∀ slot ∈ mediaType.slots, ∀ piece ∈ slot.quotedPieces,
      Valued piece ∧ VersionKnown piece
  last :
    ∀ value, mediaType.readings.getLast? = some value →
      (mediaType.versions = [] → value = RdfVersion.rdf11.label) ∧
        ∀ version, mediaType.Names version → value = version.label

end MediaTypeSyntax

/-! ## The pieces of a media type -/

theorem valued_trim (piece : Text) :
    Valued (Text.trim piece) ↔ Valued piece := by
  rw [Valued, Valued, Text.trim_trim]

theorem versionValue_trim (piece : Text) :
    versionValue (Text.trim piece) = versionValue piece := by
  rw [versionValue, versionValue, Text.trim_trim]

theorem versionKnown_trim (piece : Text) :
    VersionKnown (Text.trim piece) ↔ VersionKnown piece := by
  rw [VersionKnown, VersionKnown, versionValue_trim]

/-- The pieces of the slots that follow a text. -/
theorem map_trim_split_slots (slots : List ParameterSlot) (lead : Text) :
    (Text.split ';' (lead ++ slots.flatMap ParameterSlot.text)).map Text.trim =
      (Text.split ';' lead).map Text.trim ++
        slots.flatMap fun slot =>
          (Text.split ';' slot.body).map Text.trim := by
  induction slots generalizing lead with
  | nil =>
      simp
  | cons slot rest inductionHypothesis =>
      have cut :
          lead ++ (slot :: rest).flatMap ParameterSlot.text =
            (lead ++ slot.before.text) ++
              ';' :: ((slot.after.text ++ slot.body) ++
                rest.flatMap ParameterSlot.text) := by
        simp [ParameterSlot.text]
      have front :
          (Text.split ';' (lead ++ slot.before.text)).map Text.trim =
            (Text.split ';' lead).map Text.trim := by
        have noLead : ∀ c ∈ ([] : Text), Text.isWhitespace c = true := by
          simp
        simpa using Text.map_trim_split_blanks noLead
          slot.before.isWhitespace (by decide) lead
      have back :
          (Text.split ';' (slot.after.text ++ slot.body)).map Text.trim =
            (Text.split ';' slot.body).map Text.trim := by
        have noTail : ∀ c ∈ ([] : Text), Text.isWhitespace c = true := by
          simp
        simpa using Text.map_trim_split_blanks slot.after.isWhitespace
          noTail (by decide) slot.body
      rw [cut, Text.split_append_cons, List.map_append, front,
        inductionHypothesis, back, List.flatMap_cons]

/-- The pieces of a media type are those of its slots. -/
theorem MediaTypeSyntax.map_trim_versionPieces (mediaType : MediaTypeSyntax) :
    (versionPieces mediaType.text).map Text.trim =
      mediaType.slots.flatMap fun slot =>
        (Text.split ';' slot.body).map Text.trim := by
  have noSemicolon :
      ';' ∉ mediaType.type.text ++ '/' :: mediaType.subtype.text := by
    have notType := mediaType.type.not_mem (c := ';') (by decide)
    have notSubtype := mediaType.subtype.not_mem (c := ';') (by decide)
    simp [notType, notSubtype]
  rw [versionPieces, List.map_drop, text, map_trim_split_slots,
    Text.split_of_not_mem noSemicolon]
  rfl

/-- What holds of every piece holds of every piece of a slot. -/
theorem MediaTypeSyntax.forall_versionPieces_iff
    (mediaType : MediaTypeSyntax) :
    (∀ piece ∈ versionPieces mediaType.text,
        Valued piece ∧ VersionKnown piece) ↔
      ∀ slot ∈ mediaType.slots, ∀ piece ∈ Text.split ';' slot.body,
        Valued piece ∧ VersionKnown piece := by
  have trimmed :
      (∀ piece ∈ (versionPieces mediaType.text).map Text.trim,
          Valued piece ∧ VersionKnown piece) ↔
        ∀ slot ∈ mediaType.slots, ∀ piece ∈ Text.split ';' slot.body,
          Valued piece ∧ VersionKnown piece := by
    rw [mediaType.map_trim_versionPieces]
    constructor
    · intro all slot isSlot piece isPiece
      have both :=
        all (Text.trim piece) (List.mem_flatMap.mpr
          ⟨slot, isSlot, List.mem_map_of_mem isPiece⟩)
      rwa [valued_trim, versionKnown_trim] at both
    · intro all trimmed isTrimmed
      obtain ⟨slot, isSlot, inSlot⟩ := List.mem_flatMap.mp isTrimmed
      obtain ⟨piece, isPiece, rfl⟩ := List.mem_map.mp inSlot
      rw [valued_trim, versionKnown_trim]
      exact all slot isSlot piece isPiece
  rw [← trimmed]
  simp only [List.mem_map, forall_exists_index, and_imp,
    forall_apply_eq_imp_iff₂, valued_trim, versionKnown_trim]

/-- The readings of the pieces are those of the slots. -/
theorem MediaTypeSyntax.filterMap_versionPieces
    (mediaType : MediaTypeSyntax) :
    (versionPieces mediaType.text).filterMap versionValue =
      mediaType.readings := by
  have ofTrimmed (pieces : List Text) :
      (pieces.map Text.trim).filterMap versionValue =
        pieces.filterMap versionValue := by
    rw [List.filterMap_map]
    congr 1
    funext piece
    exact versionValue_trim piece
  rw [← ofTrimmed, mediaType.map_trim_versionPieces, List.filterMap_flatMap,
    readings]
  congr 1
  funext slot
  exact ofTrimmed _

/-! ## The first piece of a slot -/

/-- What is read of a name, an equals sign and a value. -/
theorem versionValue_name_equals (parameter : Parameter) (value : Text) :
    Valued (parameter.name.text ++ '=' :: value) ∧
      versionValue (parameter.name.text ++ '=' :: value) =
        if parameter.isVersion then some (Text.trim value) else none := by
  have noEquals : '=' ∉ parameter.name.text :=
    parameter.name.not_mem (by decide)
  have isPair :
      Text.splitOnce '=' (Text.trim (parameter.name.text ++ '=' :: value)) =
        some (parameter.name.text, value.rdropWhile Text.isWhitespace) := by
    rw [parameter.name.trim_append_equals,
      Text.splitOnce_append_cons noEquals]
  constructor
  · rw [Valued, isPair]
    rfl
  · rw [versionValue, isPair, Option.bind_some]
    dsimp only
    rw [parameter.name.trim, Text.trim_rdropWhile]
    rfl

namespace ParameterSlot

variable {slot : ParameterSlot} {parameter : Parameter}

theorem body_of_parameter (isParameter : slot.parameter = some parameter) :
    slot.body = parameter.name.text ++ '=' :: parameter.value.text := by
  rw [body, isParameter]
  rfl

/-- A slot with a token has one piece. -/
theorem split_body_token
    (isParameter : slot.parameter = some parameter) {token : Token}
    (isToken : parameter.value = .token token) :
    Text.split ';' slot.body =
      [parameter.name.text ++ '=' :: token.text] := by
  have noSemicolon : ';' ∉ parameter.name.text ++ '=' :: token.text := by
    have notName := parameter.name.not_mem (c := ';') (by decide)
    have notToken := token.not_mem (c := ';') (by decide)
    simp [notName, notToken]
  rw [body_of_parameter isParameter, isToken]
  exact Text.split_of_not_mem noSemicolon

/-- A slot with a quoted string has a first piece that opens the quotes. -/
theorem split_body_quoted
    (isParameter : slot.parameter = some parameter) {quoted : QuotedString}
    (isQuoted : parameter.value = .quoted quoted) :
    ∃ opened,
      Text.split ';' slot.body =
        (parameter.name.text ++ '=' :: '"' :: opened) ::
          slot.quotedPieces := by
  have isBody :
      slot.body =
        (parameter.name.text ++ ['=', '"']) ++ (quoted.inner ++ ['"']) := by
    rw [body_of_parameter isParameter, isQuoted]
    simp [ParameterValue.text, QuotedString.text]
  have noSemicolon : ';' ∉ parameter.name.text ++ ['=', '"'] := by
    have notName := parameter.name.not_mem (c := ';') (by decide)
    simp [notName]
  rw [quotedPieces, isBody]
  by_cases member : ';' ∈ quoted.inner ++ ['"']
  · obtain ⟨opened, rest, isCut, absent⟩ := List.eq_append_cons_of_mem member
    refine ⟨opened, ?_⟩
    have isFirst : ';' ∉ parameter.name.text ++ ['=', '"'] ++ opened := by
      simpa [absent] using noSemicolon
    rw [isCut, ← List.append_assoc, Text.split_append_cons,
      Text.split_of_not_mem isFirst]
    simp
  · refine ⟨quoted.inner ++ ['"'], ?_⟩
    rw [Text.split_of_not_mem (by simpa [member] using noSemicolon)]
    simp

end ParameterSlot

/-- A label does not begin with a quote. -/
theorem quoted_ne_label (opened : Text) (version : RdfVersion) :
    Text.trim ('"' :: opened) ≠ version.label := by
  have isKept :
      Text.trim ('"' :: opened) =
        '"' :: opened.rdropWhile Text.isWhitespace := by
    have notBlank : Text.isWhitespace '"' = false := by
      decide
    rw [Text.trim, List.dropWhile_cons_of_neg (by simp [notBlank])]
    exact Text.rdropWhile_append_cons notBlank [] opened
  have begins : version.label.head? = some '1' := by
    cases version <;> rfl
  intro same
  rw [← same, isKept, List.head?_cons] at begins
  exact absurd (Option.some.inj begins) (by decide)

/-! ## When the version is read as it is written -/

namespace MediaTypeSyntax

variable {mediaType : MediaTypeSyntax}

theorem mem_versions
    {slot : ParameterSlot} (isSlot : slot ∈ mediaType.slots)
    {parameter : Parameter} (isParameter : slot.parameter = some parameter)
    (isVersion : parameter.isVersion = true) :
    parameter.value.value ∈ mediaType.versions := by
  refine List.mem_map_of_mem (List.mem_filter.mpr ⟨?_, isVersion⟩)
  exact List.mem_filterMap.mpr ⟨slot, isSlot, isParameter⟩

/-- Every piece of such a media type can be read. -/
theorem SaidInPieces.readable
    (said : mediaType.SaidInPieces) (recognised : ¬ mediaType.Unrecognised) :
    ∀ slot ∈ mediaType.slots, ∀ piece ∈ Text.split ';' slot.body,
      Valued piece ∧ VersionKnown piece := by
  intro slot isSlot piece isPiece
  obtain ⟨parameter, isParameter⟩ :=
    Option.isSome_iff_exists.mp (said.filled slot isSlot)
  cases isValue : parameter.value with
  | token token =>
      rw [ParameterSlot.split_body_token isParameter isValue,
        List.mem_singleton] at isPiece
      obtain ⟨valued, value⟩ := versionValue_name_equals parameter token.text
      rw [isPiece]
      refine ⟨valued, ?_⟩
      intro named isNamed
      rw [value] at isNamed
      split at isNamed
      · next isVersion =>
          cases isNamed
          have isMember := mem_versions isSlot isParameter isVersion
          rw [isValue] at isMember
          rw [token.trim]
          exact Classical.byContradiction fun unknown =>
            recognised ⟨_, isMember, fun version isLabel =>
              unknown ⟨version, isLabel⟩⟩
      · cases isNamed
  | quoted quoted =>
      obtain ⟨opened, isSplit⟩ :=
        ParameterSlot.split_body_quoted isParameter isValue
      rw [isSplit, List.mem_cons] at isPiece
      obtain rfl | isQuoted := isPiece
      · obtain ⟨valued, value⟩ :=
          versionValue_name_equals parameter ('"' :: opened)
        refine ⟨valued, ?_⟩
        intro named isNamed
        rw [value] at isNamed
        split at isNamed
        · next isVersion =>
            obtain ⟨token, isToken⟩ :=
              said.bare slot isSlot parameter isParameter isVersion
            rw [isValue] at isToken
            cases isToken
        · cases isNamed
      · exact said.pieces slot isSlot piece isQuoted

/-- A version parameter that is a token is read. -/
theorem readings_ne_nil
    (said : mediaType.SaidInPieces) (named : mediaType.versions ≠ []) :
    mediaType.readings ≠ [] := by
  obtain ⟨value, isValue⟩ := List.exists_mem_of_ne_nil _ named
  obtain ⟨parameter, isVersion, rfl⟩ := List.mem_map.mp isValue
  obtain ⟨isParameter, isVersion⟩ := List.mem_filter.mp isVersion
  obtain ⟨slot, isSlot, isParameter⟩ := List.mem_filterMap.mp isParameter
  obtain ⟨token, isToken⟩ :=
    said.bare slot isSlot parameter isParameter isVersion
  have isReading : Text.trim token.text ∈ mediaType.readings := by
    refine List.mem_flatMap.mpr ⟨slot, isSlot, ?_⟩
    refine List.mem_filterMap.mpr
      ⟨parameter.name.text ++ '=' :: token.text, ?_, ?_⟩
    · rw [ParameterSlot.split_body_token isParameter isToken]
      exact List.mem_singleton_self _
    · rw [(versionValue_name_equals parameter token.text).2, if_pos isVersion]
  exact List.ne_nil_of_mem isReading

/-- A media type whose pieces can all be read says the same in pieces. -/
theorem saidInPieces_of_readable
    (readable :
      ∀ slot ∈ mediaType.slots, ∀ piece ∈ Text.split ';' slot.body,
        Valued piece ∧ VersionKnown piece)
    (last :
      ∀ value, mediaType.readings.getLast? = some value →
        (mediaType.versions = [] → value = RdfVersion.rdf11.label) ∧
          ∀ version, mediaType.Names version → value = version.label) :
    mediaType.SaidInPieces where
  filled := by
    intro slot isSlot
    cases isParameter : slot.parameter with
    | some parameter => rfl
    | none =>
        have isEmpty : slot.body = [] := by
          rw [ParameterSlot.body, isParameter]
          rfl
        have isPiece : [] ∈ Text.split ';' slot.body := by
          simp [isEmpty, Text.split]
        cases (readable slot isSlot [] isPiece).1
  bare := by
    intro slot isSlot parameter isParameter isVersion
    cases isValue : parameter.value with
    | token token => exact ⟨token, rfl⟩
    | quoted quoted =>
        obtain ⟨opened, isSplit⟩ :=
          ParameterSlot.split_body_quoted isParameter isValue
        have known := (readable slot isSlot _ (by
          rw [isSplit]
          exact List.mem_cons_self)).2
        have value := (versionValue_name_equals parameter ('"' :: opened)).2
        rw [if_pos isVersion] at value
        obtain ⟨version, isLabel⟩ := known _ value
        exact (quoted_ne_label opened version isLabel).elim
  pieces := by
    intro slot isSlot piece isPiece
    exact readable slot isSlot piece (List.mem_of_mem_drop isPiece)
  last := last

theorem readBy_of_unrecognised
    (unrecognised : mediaType.Unrecognised) (answer : Option RdfVersion) :
    mediaType.ReadBy answer := by
  obtain ⟨value, isValue, unknown⟩ := unrecognised
  refine ⟨fun unnamed => ?_, fun version names => ?_,
    fun _ => ⟨value, isValue, unknown⟩⟩
  · rw [unnamed] at isValue
    cases isValue
  · exact (unknown version (names.2 value isValue)).elim

/-- The answer where every piece can be read: what is read last. -/
theorem answer_of_readable
    (readable :
      ∀ piece ∈ versionPieces mediaType.text,
        Valued piece ∧ VersionKnown piece) :
    RdfVersion.fromMediaType mediaType.text =
      some ((mediaType.readings.getLast?.bind RdfVersion.ofLabel).getD
        .rdf11) := by
  rw [RdfVersion.fromMediaType_known
      (fun piece member => (readable piece member).1)
      (fun piece member => (readable piece member).2),
    RdfVersion.lastNamed, mediaType.filterMap_versionPieces]

/-- What is read last is a label. -/
theorem known_of_last
    (readable :
      ∀ piece ∈ versionPieces mediaType.text,
        Valued piece ∧ VersionKnown piece)
    {value : Text} (isLast : mediaType.readings.getLast? = some value) :
    ∃ version : RdfVersion, value = version.label := by
  have isReading := List.mem_of_getLast? isLast
  rw [← mediaType.filterMap_versionPieces] at isReading
  obtain ⟨piece, isPiece, isValue⟩ := List.mem_filterMap.mp isReading
  exact (readable piece isPiece).2 value isValue

/--
`from_media_type` answers by the grammar exactly when a version parameter names
no version it knows, or the media type says the same in pieces.
-/
theorem version_read_iff (mediaType : MediaTypeSyntax) :
    mediaType.ReadBy (RdfVersion.fromMediaType mediaType.text) ↔
      mediaType.Unrecognised ∨ mediaType.SaidInPieces := by
  constructor
  · intro isRead
    refine Classical.or_iff_not_imp_left.mpr fun recognised => ?_
    have answered :
        (RdfVersion.fromMediaType mediaType.text).isSome = true := by
      rw [Option.isSome_iff_ne_none]
      exact fun isNone => recognised (isRead.refused isNone)
    have readable := (RdfVersion.isSome_fromMediaType_iff _).mp answered
    have answer := answer_of_readable readable
    refine saidInPieces_of_readable
      (mediaType.forall_versionPieces_iff.mp readable) ?_
    intro value isLast
    obtain ⟨version, rfl⟩ := known_of_last readable isLast
    rw [isLast, Option.bind_some, RdfVersion.ofLabel_eq_some.mpr rfl] at answer
    constructor
    · intro unnamed
      rw [isRead.absent unnamed] at answer
      exact congrArg RdfVersion.label (Option.some.inj answer).symm
    · intro other names
      rw [isRead.named other names] at answer
      exact congrArg RdfVersion.label (Option.some.inj answer).symm
  · intro condition
    by_cases unrecognised : mediaType.Unrecognised
    · exact readBy_of_unrecognised unrecognised _
    · have said := condition.resolve_left unrecognised
      have readable :=
        mediaType.forall_versionPieces_iff.mpr (said.readable unrecognised)
      have answer := answer_of_readable readable
      rw [answer]
      cases isLast : mediaType.readings.getLast? with
      | none =>
          rw [List.getLast?_eq_none_iff] at isLast
          refine ⟨fun _ => rfl, fun version names => ?_, fun impossible => ?_⟩
          · exact (readings_ne_nil said names.1 isLast).elim
          · cases impossible
      | some value =>
          have agrees := said.last value isLast
          obtain ⟨version, rfl⟩ := known_of_last readable isLast
          rw [Option.bind_some, RdfVersion.ofLabel_eq_some.mpr rfl]
          refine ⟨fun unnamed => ?_, fun other names => ?_,
            fun impossible => ?_⟩
          · rw [RdfVersion.label_injective (agrees.1 unnamed)]
            rfl
          · rw [RdfVersion.label_injective (agrees.2 other names)]
            rfl
          · cases impossible

end MediaTypeSyntax

end Quadpod

namespace Quadpod.Reference

theorem isToken_textTurtle :
    isToken "text".toList = true ∧
      isToken "turtle".toList = true ∧
      isToken "version".toList = true := by
  decide

theorem wellFormed_label :
    ∀ c ∈ [QuotedChar.plain '1', .plain '.', .plain '2'], c.WellFormed := by
  simp [QuotedChar.WellFormed, isQdtext]

/-- A media type with its version in quotes. -/
def quotedVersion : MediaTypeSyntax where
  type := ⟨"text".toList, isToken_textTurtle.1⟩
  subtype := ⟨"turtle".toList, isToken_textTurtle.2.1⟩
  slots :=
    [{ before := .none
       after := .none
       parameter := some
        { name := ⟨"version".toList, isToken_textTurtle.2.2⟩
          value := .quoted
            ⟨[.plain '1', .plain '.', .plain '2'], wellFormed_label⟩ } }]

/-- It says 1.2, and is refused. -/
theorem quotedVersion_refused :
    quotedVersion.text = "text/turtle;version=\"1.2\"".toList ∧
      quotedVersion.Names .rdf12 ∧
      RdfVersion.fromMediaType quotedVersion.text = none ∧
      ¬ quotedVersion.ReadBy
        (RdfVersion.fromMediaType quotedVersion.text) := by
  have names : quotedVersion.Names .rdf12 := by
    refine ⟨by decide, ?_⟩
    decide
  have refused : RdfVersion.fromMediaType quotedVersion.text = none := by
    decide
  refine ⟨by decide, names, refused, fun isRead => ?_⟩
  have answered := isRead.named .rdf12 names
  rw [refused] at answered
  cases answered

end Quadpod.Reference
