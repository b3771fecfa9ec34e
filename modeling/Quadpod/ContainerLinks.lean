import Quadpod.LinkParameters

namespace Quadpod

/-!
# Requests for a container

`type_link_requests_container` cuts a `Link` value at its commas and each piece
at its semicolons, without regard to quotes.  What it finds is a request by the
grammar if neither cut falls inside a quoted string and the parameter is the
first `rel` of its link.
-/

/-! ## What the code finds -/

/-- A piece that reads as a link of relation `type` to a container type. -/
structure ContainerReading (link : Text) where
  value : TextPiece (· == ',') link
  target : Text
  parameters : Text
  isValue : Text.trim value.piece = '<' :: (target ++ '>' :: parameters)
  isContainer : target = ldpContainerIri ∨ target = ldpBasicContainerIri
  parameter : TextPiece (· == ';') parameters
  isType : isTypeParameter parameter.piece = true

/-- The name of a parameter, as the code cuts it. -/
def parameterName (piece : Text) : Text :=
  Text.trim (piece.takeWhile (· ≠ '='))

/--
A reading that the grammar does not bear out: the value is malformed, a cut
falls inside a quoted string, or the link has an earlier `rel`.
-/
inductive ContainerReading.Misleading {link : Text}
    (reading : ContainerReading link) : Prop where
  | malformed : (∀ field : LinkField, field.text ≠ link) → reading.Misleading
  | quotedValue : ¬ Outside reading.value.before → reading.Misleading
  | quotedParameter : ¬ Outside reading.parameter.before → reading.Misleading
  | cutParameter :
      ¬ Outside (reading.parameter.before ++ reading.parameter.piece) →
      reading.Misleading
  | laterRel (other : TextPiece (· == ';') reading.parameters) :
      other.before.length < reading.parameter.before.length →
      Outside other.before →
      Text.eqIgnoreAsciiCase (parameterName other.piece) "rel".toList = true →
      reading.Misleading

/-- A link of the grammar to a container type with the relation `type`. -/
def LinkValue.RequestsContainer (value : LinkValue) : Prop :=
  (value.target = ldpContainerIri ∨ value.target = ldpBasicContainerIri) ∧
    "type".toList ∈ Text.splitWhitespace value.rel

/-- A value of the field that asks for a container. -/
def LinkRequestsContainer (link : Text) : Prop :=
  ∃ field : LinkField, field.text = link ∧
    ∃ value ∈ field.values, value.RequestsContainer

theorem not_mem_container {target : Text}
    (isContainer :
      target = ldpContainerIri ∨ target = ldpBasicContainerIri) :
    '>' ∉ target := by
  obtain rfl | rfl := isContainer <;> decide

/-- The code answers yes where it finds a reading. -/
theorem typeLinkRequestsContainer_iff (link : Text) :
    typeLinkRequestsContainer link = true ↔
      Nonempty (ContainerReading link) := by
  rw [typeLinkRequestsContainer, List.any_eq_true]
  constructor
  · rintro ⟨piece, isPiece, isRequest⟩
    obtain ⟨value, rfl⟩ := TextPiece.mem_split_iff.mp isPiece
    split at isRequest
    · cases isRequest
    · next rest isRest =>
        split at isRequest
        · cases isRequest
        · next target parameters isCut =>
            simp only [Bool.and_eq_true, Bool.or_eq_true, beq_iff_eq,
              List.any_eq_true] at isRequest
            obtain ⟨isContainer, piece, isParameter, isType⟩ := isRequest
            obtain ⟨parameter, rfl⟩ := TextPiece.mem_split_iff.mp isParameter
            refine ⟨⟨value, target, parameters, ?_, isContainer, parameter,
              isType⟩⟩
            rw [Text.stripPrefix_eq_some.mp isRest,
              Text.splitOnce_eq_some isCut]
            rfl
  · rintro ⟨reading⟩
    refine ⟨_, reading.value.mem_splitOnP, ?_⟩
    have isRest :
        Text.stripPrefix ['<'] (Text.trim reading.value.piece) =
          some (reading.target ++ '>' :: reading.parameters) := by
      rw [reading.isValue]
      exact Text.stripPrefix_append ['<'] _
    have isCut :
        Text.splitOnce '>' (reading.target ++ '>' :: reading.parameters) =
          some (reading.target, reading.parameters) :=
      Text.splitOnce_append_cons (not_mem_container reading.isContainer) _
    simp only [isRest, isCut, Bool.and_eq_true, Bool.or_eq_true, beq_iff_eq,
      List.any_eq_true]
    exact ⟨reading.isContainer, _, reading.parameter.mem_splitOnP,
      reading.isType⟩

/-! ## Finding the link of a reading -/

/-- A text is what trimming leaves, with white space around it. -/
theorem exists_trim (text : Text) :
    ∃ lead tail,
      text = lead ++ (Text.trim text ++ tail) ∧
        (∀ c ∈ lead, Text.isWhitespace c = true) ∧
        ∀ c ∈ tail, Text.isWhitespace c = true := by
  refine ⟨text.takeWhile Text.isWhitespace,
    (text.dropWhile Text.isWhitespace).rtakeWhile Text.isWhitespace,
    ?_, ?_, ?_⟩
  · rw [Text.trim, List.rdropWhile_append_rtakeWhile,
      List.takeWhile_append_dropWhile]
  · exact fun c member => List.mem_takeWhile_imp member
  · exact fun c member => List.mem_rtakeWhile_imp member

theorem beginsLink_of_append {lead rest : Text}
    (blank : ∀ c ∈ lead, Text.isWhitespace c = true)
    (isLink : BeginsLink (lead ++ rest)) : BeginsLink rest := by
  induction lead with
  | nil => exact isLink
  | cons c lead inductionHypothesis =>
      refine inductionHypothesis
        (fun other member => blank other (List.mem_cons_of_mem c member)) ?_
      obtain ⟨front, link, isText, isBlank⟩ := isLink
      cases front with
      | nil =>
          rw [List.cons_append] at isText
          have isOpen : c = '<' := (List.cons.inj isText).1
          exact absurd (blank c List.mem_cons_self) (by rw [isOpen]; decide)
      | cons head front =>
          exact ⟨front, link, (List.cons.inj isText).2, fun other member =>
            isBlank other (List.mem_cons_of_mem head member)⟩

theorem not_mem_of_blank {text : Text} {c : Char}
    (blank : ∀ c ∈ text, Text.isWhitespace c = true)
    (notBlank : Text.isWhitespace c = false) : c ∉ text := by
  intro member
  rw [blank c member] at notBlank
  cases notBlank

/-- The link a piece begins with is the link of its member. -/
theorem exists_value
    {element : LinkElement} {lead target parameters rest more : Text}
    (isText :
      lead ++ '<' :: (target ++ '>' :: (parameters ++ rest)) =
        element.text ++ more)
    (leadBlank : ∀ c ∈ lead, Text.isWhitespace c = true)
    (noClose : '>' ∉ target) (closed : ClosedBy ',' more) :
    ∃ value,
      element.value = some value ∧
        value.target = target ∧
        value.slots.flatMap LinkSlot.text ++ (element.after.text ++ more) =
          parameters ++ rest := by
  cases isValue : element.value with
  | none =>
      have isBlank :
          element.text = element.before.text ++ element.after.text := by
        simp [LinkElement.text, isValue]
      have isLink : BeginsLink (element.text ++ more) :=
        ⟨lead, _, isText.symm, leadBlank⟩
      rw [isBlank, List.append_assoc] at isLink
      have inMore : BeginsLink more :=
        beginsLink_of_append element.after.isWhitespace
          (beginsLink_of_append element.before.isWhitespace isLink)
      obtain rfl | ⟨others, rfl⟩ := closed
      · obtain ⟨front, link, isNil, _⟩ := inMore
        exact absurd isNil (by simp)
      · exact (not_beginsLink_cons (by decide) (by decide) inMore).elim
  | some value =>
      have isWritten :
          element.text ++ more =
            element.before.text ++
              '<' :: (value.target ++
                '>' :: (value.slots.flatMap LinkSlot.text ++
                  (element.after.text ++ more))) := by
        simp [LinkElement.text, isValue, LinkValue.text]
      rw [isWritten] at isText
      obtain ⟨_, sameLink⟩ :=
        Text.append_cons_inj_of_not_mem
          (not_mem_of_blank leadBlank (by decide))
          (element.before.not_mem (by decide)) isText
      obtain ⟨sameTarget, sameRest⟩ :=
        Text.append_cons_inj_of_not_mem noClose value.target_not_mem.1
          sameLink
      exact ⟨value, rfl, sameTarget.symm, sameRest.symm⟩

/-- What follows a slot is blank up to the next comma or semicolon. -/
theorem cutText_slots_blank
    {slots : List LinkSlot} {tail : Text}
    (tailBlank : ∀ c ∈ cutText tail, Text.isWhitespace c = true) :
    ∀ c ∈ cutText (slots.flatMap LinkSlot.text ++ tail),
      Text.isWhitespace c = true := by
  cases slots with
  | nil => exact tailBlank
  | cons slot others =>
      have isCut :
          cutText ((slot :: others).flatMap LinkSlot.text ++ tail) =
            slot.before.text := by
        have isText :
            (slot :: others).flatMap LinkSlot.text ++ tail =
              slot.before.text ++
                ';' :: (slot.opened ++
                  (others.flatMap LinkSlot.text ++ tail)) := by
          simp [LinkSlot.text_eq]
        have isNil :
            cutText (';' :: (slot.opened ++
              (others.flatMap LinkSlot.text ++ tail))) = [] :=
          rfl
        rw [isText, cutText_append slot.before.clean, isNil, List.append_nil]
      rw [isCut]
      exact slot.before.isWhitespace

/-! ## Earlier relations -/

/-- A character of what the code takes for a name. -/
def inName (c : Char) : Bool :=
  decide (c ≠ '=') && decide (c ≠ ';')

theorem inName_of_not_mem {text : Text} (noEquals : '=' ∉ text)
    (noSemicolon : ';' ∉ text) : ∀ c ∈ text, inName c = true := by
  intro c member
  have notEquals : c ≠ '=' := by
    rintro rfl
    exact noEquals member
  have notSemicolon : c ≠ ';' := by
    rintro rfl
    exact noSemicolon member
  simp [inName, notEquals, notSemicolon]

/-- Up to the next semicolon, what follows a slot is blank. -/
theorem takeWhile_slots_blank
    (slots : List LinkSlot) (lead : Blanks) (here : Text) :
    ∀ c ∈ (slots.flatMap LinkSlot.text ++
        (lead.text ++ ';' :: here)).takeWhile inName,
      Text.isWhitespace c = true := by
  have upTo (blanks : Blanks) (rest : Text) :
      (blanks.text ++ ';' :: rest).takeWhile inName = blanks.text := by
    have isLead :=
      inName_of_not_mem (blanks.not_mem (by decide))
        (blanks.not_mem (by decide))
    rw [List.takeWhile_append_of_pos isLead,
      List.takeWhile_cons_of_neg (by decide), List.append_nil]
  cases slots with
  | nil =>
      rw [List.flatMap_nil, List.nil_append, upTo]
      exact lead.isWhitespace
  | cons slot others =>
      have isText :
          (slot :: others).flatMap LinkSlot.text ++
              (lead.text ++ ';' :: here) =
            slot.before.text ++
              ';' :: (slot.opened ++
                (others.flatMap LinkSlot.text ++
                  (lead.text ++ ';' :: here))) := by
        simp [LinkSlot.text_eq]
      rw [isText, upTo]
      exact slot.before.isWhitespace

/-- The name of a slot's parameter, as the code cuts it. -/
theorem parameterName_opened
    {slot : LinkSlot} {parameter : LinkParameter}
    (isParameter : slot.parameter = some parameter) {rest : Text}
    (restBlank :
      ∀ c ∈ rest.takeWhile inName, Text.isWhitespace c = true) :
    parameterName
        ((slot.opened ++ rest).takeWhile fun c => decide (c ≠ ';')) =
      parameter.name.text := by
  have merged (text : Text) :
      (text.takeWhile fun c => decide (c ≠ ';')).takeWhile
          (fun c => decide (c ≠ '=')) =
        text.takeWhile inName := by
    rw [List.takeWhile_takeWhile]
    congr 1
    funext c
    simp [inName]
  have isText :
      slot.opened ++ rest =
        (slot.after.text ++ (parameter.name.text ++ parameter.gap.text)) ++
          (parameter.assigned ++ rest) := by
    rw [LinkSlot.opened, LinkSlot.body, isParameter]
    simp [LinkParameter.text]
  have absent (c : Char) (notBlank : Text.isWhitespace c = false)
      (notTchar : isTchar c = false) :
      c ∉ slot.after.text ++ (parameter.name.text ++ parameter.gap.text) := by
    have notAfter := slot.after.not_mem notBlank
    have notName := parameter.name.not_mem notTchar
    have notGap := parameter.gap.not_mem notBlank
    simp [notAfter, notName, notGap]
  have isLead :=
    inName_of_not_mem (absent '=' (by decide) (by decide))
      (absent ';' (by decide) (by decide))
  have assignedBlank :
      ∀ c ∈ (parameter.assigned ++ rest).takeWhile inName,
        Text.isWhitespace c = true := by
    unfold LinkParameter.assigned
    split
    · exact restBlank
    · rw [List.cons_append, List.takeWhile_cons_of_neg (by decide)]
      simp
  rw [parameterName, merged, isText, List.takeWhile_append_of_pos isLead,
    Text.trim_append_right assignedBlank,
    Text.trim_append_left slot.after.isWhitespace,
    Text.trim_append_right parameter.gap.isWhitespace, parameter.name.trim]

/-- A relation of an earlier slot is a piece of its own. -/
theorem exists_earlier_piece
    {earlier : List LinkSlot} {lead : Blanks} {here parameters : Text}
    (isText :
      parameters =
        earlier.flatMap LinkSlot.text ++ (lead.text ++ ';' :: here))
    {slot : LinkSlot} (isEarlier : slot ∈ earlier)
    {parameter : LinkParameter}
    (isParameter : slot.parameter = some parameter) :
    ∃ other : TextPiece (· == ';') parameters,
      other.before.length <
          (earlier.flatMap LinkSlot.text ++ (lead.text ++ [';'])).length ∧
        Outside other.before ∧
        parameterName other.piece = parameter.name.text := by
  obtain ⟨first, second, rfl⟩ := List.append_of_mem isEarlier
  have isRest :
      parameters =
        (first.flatMap LinkSlot.text ++ (slot.before.text ++ [';'])) ++
          (slot.opened ++
            (second.flatMap LinkSlot.text ++
              (lead.text ++ ';' :: here))) := by
    rw [isText]
    simp [LinkSlot.text_eq]
  have isName :=
    parameterName_opened isParameter (takeWhile_slots_blank second lead here)
  generalize
      slot.opened ++
        (second.flatMap LinkSlot.text ++ (lead.text ++ ';' :: here)) = opened
    at isRest isName
  have isCut :
      parameters =
        (first.flatMap LinkSlot.text ++ (slot.before.text ++ [';'])) ++
          (opened.takeWhile (fun c => decide (c ≠ ';')) ++
            opened.dropWhile (fun c => decide (c ≠ ';'))) := by
    rw [List.takeWhile_append_dropWhile]
    exact isRest
  refine ⟨⟨_, _, _, isCut, ?_, ?_, ?_⟩, ?_, ?_, ?_⟩
  · intro c member
    simpa using List.mem_takeWhile_imp member
  · exact Or.inr ⟨first.flatMap LinkSlot.text ++ slot.before.text, ';',
      by simp, by decide⟩
  · cases isAfter : opened.dropWhile fun c => decide (c ≠ ';') with
    | nil => exact Or.inl rfl
    | cons c back =>
        have stops :=
          List.head?_dropWhile_not (fun c => decide (c ≠ ';')) opened
        rw [isAfter] at stops
        exact Or.inr ⟨c, back, rfl, by simpa using stops⟩
  · dsimp only
    rw [List.flatMap_append, List.flatMap_cons, LinkSlot.text_eq]
    simp only [List.length_append, List.length_cons]
    omega
  · refine (outside_append (outside_slots first)).mpr (outside_of_not_mem ?_)
    simpa using slot.before.not_mem (c := '"') (by decide)
  · exact isName

/-- The relation of a link is what its first `rel` says. -/
theorem LinkValue.rel_of_first
    {value : LinkValue} {earlier later : List LinkSlot} {slot : LinkSlot}
    (isSlots : value.slots = earlier ++ slot :: later)
    {parameter : LinkParameter}
    (isParameter : slot.parameter = some parameter)
    (isRel : parameter.isRel = true)
    (isFirst :
      ∀ other ∈ earlier, ∀ before, other.parameter = some before →
        before.isRel = false) :
    value.rel = parameter.said := by
  have noEarlier :
      (earlier.filterMap LinkSlot.parameter).find? LinkParameter.isRel =
        none := by
    rw [List.find?_eq_none]
    intro before member
    obtain ⟨other, isEarlier, isBefore⟩ := List.mem_filterMap.mp member
    simp [isFirst other isEarlier before isBefore]
  rw [rel, isSlots, List.filterMap_append, List.find?_append, noEarlier,
    Option.none_or, List.filterMap_cons_some isParameter,
    List.find?_cons_of_pos isRel]
  rfl

/-! ## When the code is right -/

/-- Parameters and what follows them hold no semicolon before a comma. -/
theorem comma_before_semicolon
    {blanks : Blanks} {more front back : Text} (closed : ClosedBy ',' more)
    (isText : blanks.text ++ more = front ++ ';' :: back) :
    ',' ∈ front := by
  by_contra noComma
  have notBlanks : ';' ∉ blanks.text := blanks.not_mem (by decide)
  obtain rfl | ⟨others, rfl⟩ := closed
  · rw [List.append_nil] at isText
    exact notBlanks (by simp [isText])
  · obtain ⟨middle, rfl, _⟩ | ⟨middle, isBlanks, isRest⟩ :=
      List.append_eq_append_iff.mp isText
    · next isRest =>
        cases middle with
        | nil => exact absurd (List.cons.inj isRest).1 (by decide)
        | cons c middle =>
            refine noComma ?_
            rw [← (List.cons.inj isRest).1]
            simp
    · cases middle with
      | nil => exact absurd (List.cons.inj isRest).1 (by decide)
      | cons c middle =>
          refine notBlanks ?_
          rw [isBlanks, ← (List.cons.inj isRest).1]
          simp

/-- A parameter that is read outside the quotes is the relation of its link. -/
theorem LinkValue.type_mem_rel
    {value : LinkValue} {parameters tail follow : Text}
    (isText :
      value.slots.flatMap LinkSlot.text ++ tail = parameters ++ follow)
    (parameter : TextPiece (· == ';') parameters)
    (isType : isTypeParameter parameter.piece = true)
    (beforeOutside : Outside parameter.before)
    (pieceOutside : Outside parameter.piece)
    (noComma : ',' ∉ parameters)
    (followBlank : ∀ c ∈ cutText follow, Text.isWhitespace c = true)
    (tailBlank : ∀ c ∈ cutText tail, Text.isWhitespace c = true)
    (inTail : ∀ front back, tail = front ++ ';' :: back → ',' ∈ front)
    (isFirst :
      ∀ other : TextPiece (· == ';') parameters,
        other.before.length < parameter.before.length →
        Outside other.before →
        Text.eqIgnoreAsciiCase (parameterName other.piece) "rel".toList =
          false) :
    "type".toList ∈ Text.splitWhitespace value.rel := by
  obtain ⟨before, piece, after, isParameters, clean, opens, closes⟩ :=
    parameter
  dsimp only at isType beforeOutside pieceOutside isFirst
  have cleanPiece : ',' ∉ piece ∧ ';' ∉ piece := by
    constructor
    · intro member
      exact noComma (by simp [isParameters, member])
    · intro member
      exact absurd (clean _ member) (by decide)
  have isRest :
      value.slots.flatMap LinkSlot.text ++ tail =
        before ++ (piece ++ (after ++ follow)) := by
    rw [isText, isParameters]
    simp
  have restBlank :
      ∀ c ∈ cutText (after ++ follow), Text.isWhitespace c = true := by
    obtain rfl | ⟨c, back, rfl, isSemicolon⟩ := closes
    · exact followBlank
    · rw [beq_iff_eq] at isSemicolon
      rw [isSemicolon]
      exact fun c member => absurd member (List.not_mem_nil)
  obtain rfl | ⟨front, c, rfl, isSemicolon⟩ := opens
  · have isCut := congrArg cutText isRest
    rw [List.nil_append, cutText_append cleanPiece] at isCut
    have isBlank :
        ∀ c ∈ piece ++ cutText (after ++ follow),
          Text.isWhitespace c = true := by
      rw [← isCut]
      exact cutText_slots_blank tailBlank
    have noEquals : '=' ∉ piece :=
      not_mem_of_blank (fun c member =>
        isBlank c (List.mem_append_left _ member)) (by decide)
    rw [not_isTypeParameter noEquals] at isType
    cases isType
  · rw [beq_iff_eq] at isSemicolon
    subst isSemicolon
    rw [List.append_assoc, List.singleton_append] at isRest isParameters
    obtain ⟨earlier, slot, later, isSlots, rfl, isHere⟩ :=
      exists_slot inTail isRest
        (outside_of_append_singleton (by decide) beforeOutside)
        (fun member => noComma (by
          rw [isParameters]
          exact List.mem_append_left _ member))
    obtain ⟨found, isParameter, isRel, isWord⟩ :=
      slot.exists_type isHere (cutText_slots_blank tailBlank) restBlank
        cleanPiece pieceOutside isType
    rw [rel_of_first isSlots isParameter isRel ?_]
    · exact isWord
    · intro other isEarlier parameter isOther
      rw [List.append_assoc] at isParameters
      obtain ⟨piece, isShorter, isOutside, isName⟩ :=
        exists_earlier_piece isParameters isEarlier isOther
      rw [LinkParameter.isRel, ← isName]
      exact isFirst piece (by simpa using isShorter) isOutside

/-- A reading that is not misleading is a request by the grammar. -/
theorem requests_of_reading
    {field : LinkField} (reading : ContainerReading field.text)
    (honest : ¬ reading.Misleading) :
    ∃ value ∈ field.values, value.RequestsContainer := by
  have valueOutside : Outside reading.value.before :=
    Classical.byContradiction fun quoted => honest (.quotedValue quoted)
  have parameterOutside : Outside reading.parameter.before :=
    Classical.byContradiction fun quoted => honest (.quotedParameter quoted)
  have pieceOutside : Outside reading.parameter.piece :=
    (outside_append parameterOutside).mp
      (Classical.byContradiction fun cut => honest (.cutParameter cut))
  obtain ⟨lead, trail, isPiece, leadBlank, trailBlank⟩ :=
    exists_trim reading.value.piece
  rw [reading.isValue] at isPiece
  have isHere :
      reading.value.piece ++ reading.value.after =
        lead ++ '<' :: (reading.target ++ '>' :: (reading.parameters ++
          (trail ++ reading.value.after))) := by
    rw [isPiece]
    simp
  have opens :
      reading.value.before = [] ∨
        ∃ front, reading.value.before = front ++ [','] := by
    obtain isNil | ⟨front, c, isBefore, isComma⟩ := reading.value.opens
    · exact Or.inl isNil
    · rw [beq_iff_eq] at isComma
      exact Or.inr ⟨front, by rw [isBefore, isComma]⟩
  obtain ⟨element, isElement, more, isMember, closed⟩ :=
    exists_element reading.value.isText valueOutside opens
      ⟨lead, _, isHere, leadBlank⟩
  obtain ⟨value, isValue, sameTarget, isSlots⟩ :=
    exists_value (isHere.symm.trans isMember) leadBlank
      (not_mem_container reading.isContainer) closed
  have noComma : ',' ∉ reading.parameters := by
    intro member
    have inPiece : ',' ∈ reading.value.piece := by
      rw [isPiece]
      simp [member]
    exact absurd (reading.value.clean _ inPiece) (by decide)
  have trailClean : ',' ∉ trail ∧ ';' ∉ trail :=
    ⟨not_mem_of_blank trailBlank (by decide),
      not_mem_of_blank trailBlank (by decide)⟩
  have followBlank :
      ∀ c ∈ cutText (trail ++ reading.value.after),
        Text.isWhitespace c = true := by
    have closes : ClosedBy ',' reading.value.after := by
      obtain isNil | ⟨c, back, isAfter, isComma⟩ := reading.value.closes
      · exact Or.inl isNil
      · rw [beq_iff_eq] at isComma
        exact Or.inr ⟨back, by rw [isAfter, isComma]⟩
    rw [cutText_append trailClean,
      cutText_nil_of_closedBy (Or.inl rfl) closes, List.append_nil]
    exact trailBlank
  have tailBlank :
      ∀ c ∈ cutText (element.after.text ++ more),
        Text.isWhitespace c = true := by
    rw [cutText_append element.after.clean,
      cutText_nil_of_closedBy (Or.inl rfl) closed, List.append_nil]
    exact element.after.isWhitespace
  have isWord :=
    value.type_mem_rel isSlots reading.parameter reading.isType
      parameterOutside pieceOutside noComma followBlank tailBlank
      (fun front back => comma_before_semicolon closed)
      (fun other isShorter isOutside => by
        rw [Bool.eq_false_iff]
        exact fun isRel => honest (.laterRel other isShorter isOutside isRel))
  refine ⟨value, ?_, ?_, isWord⟩
  · exact List.mem_filterMap.mpr ⟨element, isElement, isValue⟩
  · rw [sameTarget]
    exact reading.isContainer

/--
The code finds no request that the grammar does not have exactly when a value
with a misleading reading has a request by the grammar as well.
-/
theorem container_request_sound_iff (link : Text) :
    (typeLinkRequestsContainer link = true → LinkRequestsContainer link) ↔
      ((∃ reading : ContainerReading link, reading.Misleading) →
        LinkRequestsContainer link) := by
  constructor
  · rintro sound ⟨reading, _⟩
    exact sound ((typeLinkRequestsContainer_iff link).mpr ⟨reading⟩)
  · intro sound isRequest
    obtain ⟨reading⟩ := (typeLinkRequestsContainer_iff link).mp isRequest
    by_cases misleading : reading.Misleading
    · exact sound ⟨reading, misleading⟩
    · by_cases wellFormed : ∃ field : LinkField, field.text = link
      · obtain ⟨field, rfl⟩ := wellFormed
        exact ⟨field, rfl, requests_of_reading reading misleading⟩
      · rw [not_exists] at wellFormed
        exact (misleading (.malformed wellFormed)).elim

/-- Every link of a field is written outside its quoted strings. -/
theorem exists_outside_of_value
    {first : LinkElement} {rest : List LinkElement} {element : LinkElement}
    (isElement : element ∈ first :: rest) {value : LinkValue}
    (isValue : element.value = some value) :
    ∃ before after,
      (first.text ++ rest.flatMap fun element => ',' :: element.text) =
          before ++ ('<' :: (value.target ++ ['>']) ++ after) ∧
        Outside before := by
  have ofFirst (element : LinkElement) (more : Text)
      (isValue : element.value = some value) :
      ∃ before after,
        element.text ++ more =
            before ++ ('<' :: (value.target ++ ['>']) ++ after) ∧
          Outside before := by
    refine ⟨element.before.text, value.slots.flatMap LinkSlot.text ++
      (element.after.text ++ more), ?_, element.before.outside_text⟩
    simp [LinkElement.text, isValue, LinkValue.text]
  induction rest generalizing first with
  | nil =>
      obtain rfl := List.mem_singleton.mp isElement
      exact ofFirst element _ isValue
  | cons next others inductionHypothesis =>
      obtain rfl | inRest := List.mem_cons.mp isElement
      · exact ofFirst element _ isValue
      · obtain ⟨before, after, isText, isOutside⟩ :=
          inductionHypothesis inRest
        have isComma : Outside [','] := outside_of_not_mem (by decide)
        refine ⟨first.text ++ ([','] ++ before), after, ?_,
          (outside_append first.text_outside).mpr
            ((outside_append isComma).mpr isOutside)⟩
        rw [List.flatMap_cons, List.cons_append, isText]
        simp

end Quadpod

namespace Quadpod.Reference

/-- A link whose title quotes a request for a container. -/
def titledLink : Text :=
  "<x>; title=\", <http://www.w3.org/ns/ldp#Container>; rel=type\"".toList

theorem isToken_title : isToken "title".toList = true := by
  decide

/-- What the title says. -/
def quotedRequest : List QuotedChar :=
  (", <http://www.w3.org/ns/ldp#Container>; rel=type".toList).map .plain

theorem wellFormed_quotedRequest : ∀ c ∈ quotedRequest, c.WellFormed := by
  intro c member
  obtain ⟨plain, isPlain, rfl⟩ := List.mem_map.mp member
  have all :
      (", <http://www.w3.org/ns/ldp#Container>; rel=type".toList).all
        isQdtext = true := by
    decide
  exact List.all_eq_true.mp all plain isPlain

theorem isUriChar_x : ∀ c ∈ "x".toList, isUriChar c = true :=
  List.forall_mem_singleton.mpr rfl

theorem blank_space : ∀ c ∈ " ".toList, c = ' ' ∨ c = '\t' :=
  List.forall_mem_singleton.mpr (Or.inl rfl)

/-- The value as the grammar has it. -/
def titledField : LinkField where
  first :=
    { before := .none
      value := some
        { target := "x".toList
          wellFormed := isUriChar_x
          slots :=
            [{ before := .none
               after := ⟨" ".toList, blank_space⟩
               parameter := some
                { name := ⟨"title".toList, isToken_title⟩
                  gap := .none
                  value := some (.none,
                    .quoted ⟨quotedRequest, wellFormed_quotedRequest⟩) } }] }
      after := .none }
  rest := []

/-- Every container type in it stands inside the quotes. -/
theorem titledLink_quoted :
    ∀ target ∈ [ldpContainerIri, ldpBasicContainerIri],
      ∀ length < titledLink.length,
        Text.startsWith ('<' :: (target ++ ['>'])) (titledLink.drop length) =
          true →
        QuoteState.outside.after (titledLink.take length) ≠ .outside := by
  decide

/-- It is well formed, asks for nothing, and is taken for a request. -/
theorem titledLink_misread :
    titledField.text = titledLink ∧
      typeLinkRequestsContainer titledLink = true ∧
      ¬ LinkRequestsContainer titledLink := by
  refine ⟨by decide, by decide, ?_⟩
  rintro ⟨field, isText, value, isValue, isContainer, _⟩
  obtain ⟨element, isElement, isValue⟩ := List.mem_filterMap.mp isValue
  obtain ⟨before, after, isWritten, isOutside⟩ :=
    exists_outside_of_value isElement isValue
  have isLink :
      titledLink = before ++ ('<' :: (value.target ++ ['>']) ++ after) :=
    isText.symm.trans isWritten
  have isTarget :
      value.target ∈ [ldpContainerIri, ldpBasicContainerIri] := by
    simpa using isContainer
  have isShorter : before.length < titledLink.length := by
    rw [isLink]
    simp
  refine titledLink_quoted _ isTarget before.length isShorter ?_ ?_
  · rw [isLink, List.drop_left, Text.startsWith_iff]
    exact List.prefix_append _ _
  · rw [isLink, List.take_left]
    exact isOutside

end Quadpod.Reference
