import Quadpod.FieldSyntax

/-!
# Link values and their quotes

The grammar of RFC 8288 for the value of a `Link` field, and a scanner that
says which places of a text lie inside a quoted string.  Outside its quoted
strings a well-formed value has a semicolon only between parameters and a comma
only between link values, or in the target of one.
-/

namespace Quadpod

/-! ## The scanner -/

/-- Where a place of a text lies. -/
inductive QuoteState where
  | outside
  | inside
  | escaped
  deriving DecidableEq

namespace QuoteState

/-- What one character does. -/
def step : QuoteState → Char → QuoteState
  | .outside, c => if c = '"' then .inside else .outside
  | .inside, c =>
      if c = '"' then .outside else if c = '\\' then .escaped else .inside
  | .escaped, _ => .inside

/-- What a text does. -/
def after (state : QuoteState) (text : Text) : QuoteState :=
  text.foldl step state

@[simp] theorem after_nil (state : QuoteState) : state.after [] = state :=
  rfl

@[simp] theorem after_cons (state : QuoteState) (c : Char) (text : Text) :
    state.after (c :: text) = (state.step c).after text :=
  rfl

@[simp] theorem after_append (state : QuoteState) (first second : Text) :
    state.after (first ++ second) = (state.after first).after second :=
  List.foldl_append

/-- Only a quote leads inside. -/
theorem after_outside {text : Text} (noQuote : '"' ∉ text) :
    outside.after text = .outside := by
  induction text with
  | nil =>
      rfl
  | cons c rest inductionHypothesis =>
      rw [List.mem_cons, not_or] at noQuote
      rw [after_cons, step, if_neg (Ne.symm noQuote.1),
        inductionHypothesis noQuote.2]

/-- A character that is neither a quote nor escaped leads out of nothing. -/
theorem outside_of_step {state : QuoteState} {c : Char} (notQuote : c ≠ '"')
    (isOutside : state.step c = .outside) : state = .outside := by
  cases state with
  | outside => rfl
  | inside =>
      rw [step, if_neg notQuote] at isOutside
      split at isOutside <;> cases isOutside
  | escaped => cases isOutside

end QuoteState

/-- A place that is not inside a quoted string. -/
def Outside (before : Text) : Prop :=
  QuoteState.outside.after before = .outside

/-- A character that a text has inside quoted strings only. -/
def OnlyQuoted (c : Char) (text : Text) : Prop :=
  ∀ before rest, text = before ++ c :: rest → ¬ Outside before

theorem outside_nil : Outside [] :=
  rfl

theorem outside_append {first second : Text} (balanced : Outside first) :
    Outside (first ++ second) ↔ Outside second := by
  rw [Outside, QuoteState.after_append, balanced, Outside]

theorem outside_of_not_mem {text : Text} (noQuote : '"' ∉ text) :
    Outside text :=
  QuoteState.after_outside noQuote

/-- A place before a character that is not a quote is outside as that after. -/
theorem outside_of_append_singleton
    {text : Text} {c : Char} (notQuote : c ≠ '"')
    (isOutside : Outside (text ++ [c])) : Outside text := by
  rw [Outside, QuoteState.after_append] at isOutside
  exact QuoteState.outside_of_step notQuote isOutside

theorem onlyQuoted_of_not_mem {c : Char} {text : Text} (absent : c ∉ text) :
    OnlyQuoted c text := by
  intro before rest isText
  rw [isText] at absent
  exact (absent (by simp)).elim

/-- A balanced text and what follows it are scanned apart. -/
theorem onlyQuoted_append {c : Char} {first second : Text}
    (balanced : Outside first) (inFirst : OnlyQuoted c first)
    (inSecond : OnlyQuoted c second) : OnlyQuoted c (first ++ second) := by
  intro before rest isText isOutside
  obtain ⟨more, rfl, isRest⟩ | ⟨more, rfl, isRest⟩ :=
    List.append_eq_append_iff.mp isText
  · rw [outside_append balanced] at isOutside
    exact inSecond more rest isRest isOutside
  · cases more with
    | nil =>
        rw [List.append_nil] at balanced
        exact inSecond [] rest isRest.symm outside_nil
    | cons head tail =>
        cases isRest
        exact inFirst before tail rfl isOutside

/-! ## Quoted strings -/

theorem ne_of_isQdtext {c : Char} (qdtext : isQdtext c = true) :
    c ≠ '"' ∧ c ≠ '\\' := by
  constructor
  · rintro rfl
    exact absurd qdtext (by decide)
  · rintro rfl
    exact absurd qdtext (by decide)

/-- A member of a quoted string does not end it. -/
theorem QuotedChar.after_text {c : QuotedChar} (wellFormed : c.WellFormed) :
    QuoteState.inside.after c.text = .inside := by
  cases c with
  | plain c =>
      obtain ⟨notQuote, notBackslash⟩ := ne_of_isQdtext wellFormed
      simp [text, QuoteState.step, notQuote, notBackslash]
  | pair c =>
      rfl

/-- No place within the quotes is outside them. -/
theorem inside_of_prefix
    {chars : List QuotedChar} (wellFormed : ∀ c ∈ chars, c.WellFormed)
    {before rest : Text}
    (isText : chars.flatMap QuotedChar.text = before ++ rest) :
    QuoteState.inside.after before ≠ .outside := by
  induction chars generalizing before with
  | nil =>
      obtain ⟨rfl, _⟩ := List.append_eq_nil_iff.mp isText.symm
      simp
  | cons c others inductionHypothesis =>
      rw [List.flatMap_cons] at isText
      have isInside := QuotedChar.after_text (wellFormed c List.mem_cons_self)
      obtain ⟨more, rfl, isRest⟩ | ⟨more, isChar, _⟩ :=
        List.append_eq_append_iff.mp isText
      · rw [QuoteState.after_append, isInside]
        exact inductionHypothesis
          (fun other member => wellFormed other (List.mem_cons_of_mem c member))
          isRest
      · intro leaves
        rw [isChar, QuoteState.after_append, leaves] at isInside
        cases c with
        | plain c =>
            cases before with
            | nil => cases leaves
            | cons first tail =>
                obtain ⟨rfl, isNil⟩ := List.cons.inj isChar
                obtain ⟨_, rfl⟩ := List.append_eq_nil_iff.mp isNil.symm
                cases isInside
        | pair c =>
            cases before with
            | nil => cases leaves
            | cons first tail =>
                obtain ⟨rfl, isTail⟩ := List.cons.inj isChar
                cases tail with
                | nil => cases leaves
                | cons second tail =>
                    obtain ⟨rfl, isNil⟩ := List.cons.inj isTail
                    obtain ⟨_, rfl⟩ := List.append_eq_nil_iff.mp isNil.symm
                    cases isInside

/-- A quote within the quotes follows a backslash. -/
theorem backslash_before_quote
    {chars : List QuotedChar} (wellFormed : ∀ c ∈ chars, c.WellFormed)
    {before rest : Text}
    (isText : chars.flatMap QuotedChar.text = before ++ '"' :: rest) :
    ∃ front, before = front ++ ['\\'] := by
  induction chars generalizing before with
  | nil =>
      exact absurd isText.symm (by simp)
  | cons c others inductionHypothesis =>
      have othersWellFormed : ∀ other ∈ others, other.WellFormed :=
        fun other member => wellFormed other (List.mem_cons_of_mem c member)
      cases c with
      | plain c =>
          have notQuote :=
            (ne_of_isQdtext (wellFormed (.plain c) List.mem_cons_self)).1
          cases before with
          | nil =>
              exact (notQuote (List.cons.inj isText).1).elim
          | cons first tail =>
              obtain ⟨front, rfl⟩ :=
                inductionHypothesis othersWellFormed (List.cons.inj isText).2
              exact ⟨first :: front, rfl⟩
      | pair c =>
          cases before with
          | nil =>
              exact absurd (List.cons.inj isText).1 (by decide)
          | cons first tail =>
              obtain ⟨rfl, isTail⟩ := List.cons.inj isText
              cases tail with
              | nil => exact ⟨[], rfl⟩
              | cons second tail =>
                  obtain ⟨front, rfl⟩ :=
                    inductionHypothesis othersWellFormed
                      (List.cons.inj isTail).2
                  exact ⟨'\\' :: second :: front, rfl⟩

namespace QuotedString

variable (quoted : QuotedString)

theorem after_inner :
    QuoteState.inside.after quoted.inner = .inside := by
  have wellFormed := quoted.wellFormed
  unfold inner
  generalize quoted.chars = chars at wellFormed ⊢
  induction chars with
  | nil =>
      rfl
  | cons c others inductionHypothesis =>
      rw [List.flatMap_cons, QuoteState.after_append,
        QuotedChar.after_text (wellFormed c List.mem_cons_self),
        inductionHypothesis fun other member =>
          wellFormed other (List.mem_cons_of_mem c member)]

theorem outside_text : Outside quoted.text := by
  change QuoteState.inside.after (quoted.inner ++ ['"']) = .outside
  rw [QuoteState.after_append, quoted.after_inner]
  rfl

theorem onlyQuoted_text {c : Char} (notQuote : c ≠ '"') :
    OnlyQuoted c quoted.text := by
  intro before rest isText isOutside
  cases before with
  | nil =>
      exact notQuote (List.cons.inj isText).1.symm
  | cons first tail =>
      obtain ⟨rfl, isTail⟩ := List.cons.inj isText
      obtain ⟨more, rfl, isRest⟩ | ⟨more, isInner, _⟩ :=
        List.append_eq_append_iff.mp isTail
      · cases more with
        | nil => exact notQuote (List.cons.inj isRest).1.symm
        | cons head more => simp at isRest
      · exact inside_of_prefix quoted.wellFormed isInner isOutside

end QuotedString

namespace ParameterValue

variable (value : ParameterValue)

theorem outside_text : Outside value.text := by
  cases value with
  | token content =>
      exact outside_of_not_mem (content.not_mem (by decide))
  | quoted content =>
      exact content.outside_text

theorem onlyQuoted_text {c : Char} (notTchar : isTchar c = false)
    (notQuote : c ≠ '"') : OnlyQuoted c value.text := by
  cases value with
  | token content =>
      exact onlyQuoted_of_not_mem (content.not_mem notTchar)
  | quoted content =>
      exact content.onlyQuoted_text notQuote

end ParameterValue

/-! ## The grammar of link values -/

/-- `link-param`: a name, blanks, and perhaps a value after an equals sign. -/
structure LinkParameter where
  name : Token
  gap : Blanks
  value : Option (Blanks × ParameterValue)

namespace LinkParameter

/-- What follows the name and its blanks. -/
def assigned (parameter : LinkParameter) : Text :=
  match parameter.value with
  | none => []
  | some (blanks, value) => '=' :: (blanks.text ++ value.text)

/-- A parameter as it is written. -/
def text (parameter : LinkParameter) : Text :=
  parameter.name.text ++ (parameter.gap.text ++ parameter.assigned)

/-- What a parameter says. -/
def said (parameter : LinkParameter) : Text :=
  match parameter.value with
  | none => []
  | some (_, value) => value.value

/-- Names of parameters have no case. -/
def isRel (parameter : LinkParameter) : Bool :=
  Text.eqIgnoreAsciiCase parameter.name.text "rel".toList

end LinkParameter

/-- What follows a semicolon: a parameter, or nothing. -/
structure LinkSlot where
  before : Blanks
  after : Blanks
  parameter : Option LinkParameter

namespace LinkSlot

/-- The parameter of a slot, as it is written. -/
def body (slot : LinkSlot) : Text :=
  (slot.parameter.map LinkParameter.text).getD []

/-- A slot as it is written. -/
def text (slot : LinkSlot) : Text :=
  slot.before.text ++ ';' :: (slot.after.text ++ slot.body)

end LinkSlot

/-- A character of a URI reference. -/
def isUriChar (c : Char) : Bool :=
  c.isAlphanum || "-._~:/?#[]@!$&'()*+,;=%".toList.contains c

/-- `link-value` -/
structure LinkValue where
  target : Text
  wellFormed : ∀ c ∈ target, isUriChar c = true
  slots : List LinkSlot

namespace LinkValue

/-- A link value as it is written. -/
def text (value : LinkValue) : Text :=
  '<' :: (value.target ++ '>' :: value.slots.flatMap LinkSlot.text)

/-- What the first `rel` says; the grammar has readers skip the others. -/
def rel (value : LinkValue) : Text :=
  (((value.slots.filterMap LinkSlot.parameter).find?
    LinkParameter.isRel).map LinkParameter.said).getD []

end LinkValue

/-- A member of the list: a link value or nothing, with blanks around it. -/
structure LinkElement where
  before : Blanks
  value : Option LinkValue
  after : Blanks

/-- A member as it is written. -/
def LinkElement.text (element : LinkElement) : Text :=
  element.before.text ++
    ((element.value.map LinkValue.text).getD [] ++ element.after.text)

/-- `Link`: members with commas between them. -/
structure LinkField where
  first : LinkElement
  rest : List LinkElement

namespace LinkField

/-- The value of the field, as it is written. -/
def text (field : LinkField) : Text :=
  field.first.text ++ field.rest.flatMap fun element => ',' :: element.text

/-- The link values of the field. -/
def values (field : LinkField) : List LinkValue :=
  (field.first :: field.rest).filterMap LinkElement.value

end LinkField

/-! ## What stands outside the quotes -/

theorem Blanks.outside_text (blanks : Blanks) : Outside blanks.text :=
  outside_of_not_mem (blanks.not_mem (by decide))

namespace LinkSlot

variable (slot : LinkSlot)

/-- The part of a slot after its semicolon. -/
def opened : Text :=
  slot.after.text ++ slot.body

theorem text_eq : slot.text = slot.before.text ++ ';' :: slot.opened :=
  rfl

theorem assigned_outside (parameter : LinkParameter) :
    Outside parameter.assigned := by
  unfold LinkParameter.assigned
  split
  · exact outside_nil
  · next blanks value _ =>
      have isBalanced : Outside ('=' :: blanks.text) := by
        refine outside_of_not_mem ?_
        simpa using blanks.not_mem (c := '"') (by decide)
      exact (outside_append isBalanced).mpr value.outside_text

theorem assigned_onlyQuoted (parameter : LinkParameter) {c : Char}
    (notTchar : isTchar c = false) (notQuote : c ≠ '"') (notEquals : c ≠ '=')
    (noBlank : Text.isWhitespace c = false) :
    OnlyQuoted c parameter.assigned := by
  unfold LinkParameter.assigned
  split
  · exact onlyQuoted_of_not_mem (by simp)
  · next blanks value _ =>
      have isBalanced : Outside ('=' :: blanks.text) := by
        refine outside_of_not_mem ?_
        simpa using blanks.not_mem (c := '"') (by decide)
      refine onlyQuoted_append isBalanced (onlyQuoted_of_not_mem ?_)
        (value.onlyQuoted_text notTchar notQuote)
      simpa [notEquals] using blanks.not_mem noBlank

theorem body_outside : Outside slot.body := by
  unfold body
  cases slot.parameter with
  | none => exact outside_nil
  | some parameter =>
      have isName : Outside parameter.name.text :=
        outside_of_not_mem (parameter.name.not_mem (by decide))
      exact (outside_append isName).mpr
        ((outside_append parameter.gap.outside_text).mpr
          (assigned_outside parameter))

theorem body_onlyQuoted {c : Char}
    (notTchar : isTchar c = false) (notQuote : c ≠ '"') (notEquals : c ≠ '=')
    (noBlank : Text.isWhitespace c = false) :
    OnlyQuoted c slot.body := by
  unfold body
  cases slot.parameter with
  | none => exact onlyQuoted_of_not_mem (by simp)
  | some parameter =>
      have isName : Outside parameter.name.text :=
        outside_of_not_mem (parameter.name.not_mem (by decide))
      exact onlyQuoted_append isName
        (onlyQuoted_of_not_mem (parameter.name.not_mem notTchar))
        (onlyQuoted_append parameter.gap.outside_text
          (onlyQuoted_of_not_mem (parameter.gap.not_mem noBlank))
          (assigned_onlyQuoted parameter notTchar notQuote notEquals noBlank))

theorem opened_outside : Outside slot.opened :=
  (outside_append slot.after.outside_text).mpr slot.body_outside

theorem opened_onlyQuoted {c : Char}
    (notTchar : isTchar c = false) (notQuote : c ≠ '"') (notEquals : c ≠ '=')
    (noBlank : Text.isWhitespace c = false) :
    OnlyQuoted c slot.opened :=
  onlyQuoted_append slot.after.outside_text
    (onlyQuoted_of_not_mem (slot.after.not_mem noBlank))
    (slot.body_onlyQuoted notTchar notQuote notEquals noBlank)

theorem text_outside : Outside slot.text := by
  have isLead : Outside (slot.before.text ++ [';']) := by
    refine outside_of_not_mem ?_
    simpa using slot.before.not_mem (c := '"') (by decide)
  rw [text_eq, List.append_cons]
  exact (outside_append isLead).mpr slot.opened_outside

/-- A slot has no comma outside its quotes. -/
theorem text_onlyQuoted : OnlyQuoted ',' slot.text := by
  have isLead : Outside (slot.before.text ++ [';']) := by
    refine outside_of_not_mem ?_
    simpa using slot.before.not_mem (c := '"') (by decide)
  rw [text_eq, List.append_cons]
  refine onlyQuoted_append isLead (onlyQuoted_of_not_mem ?_)
    (slot.opened_onlyQuoted (by decide) (by decide) (by decide) (by decide))
  simpa using slot.before.not_mem (c := ',') (by decide)

end LinkSlot

theorem outside_slots (slots : List LinkSlot) :
    Outside (slots.flatMap LinkSlot.text) := by
  induction slots with
  | nil => exact outside_nil
  | cons slot others inductionHypothesis =>
      exact (outside_append slot.text_outside).mpr inductionHypothesis

theorem onlyQuoted_slots (slots : List LinkSlot) :
    OnlyQuoted ',' (slots.flatMap LinkSlot.text) := by
  induction slots with
  | nil => exact onlyQuoted_of_not_mem (by simp)
  | cons slot others inductionHypothesis =>
      exact onlyQuoted_append slot.text_outside slot.text_onlyQuoted
        inductionHypothesis

theorem plain_of_isUriChar {c : Char} (uriChar : isUriChar c = true) :
    c ≠ '<' ∧ c ≠ '>' ∧ c ≠ '"' ∧ Text.isWhitespace c = false := by
  refine ⟨?_, ?_, ?_, ?_⟩
  · rintro rfl
    exact absurd uriChar (by decide)
  · rintro rfl
    exact absurd uriChar (by decide)
  · rintro rfl
    exact absurd uriChar (by decide)
  · rw [isUriChar, Bool.or_eq_true] at uriChar
    obtain alphanum | listed := uriChar
    · have visible := visible_of_isAlphanum alphanum
      simp only [Text.isWhitespace, Bool.or_eq_false_iff,
        Bool.and_eq_false_iff, decide_eq_false_iff_not, List.contains_eq_mem,
        List.mem_cons, List.not_mem_nil, or_false, not_or]
      omega
    · have marks :
          "-._~:/?#[]@!$&'()*+,;=%".toList.all
            (fun mark => !Text.isWhitespace mark) = true := by
        decide
      have isMark := List.all_eq_true.mp marks c (by simpa using listed)
      exact (Bool.not_eq_true' _).mp isMark

namespace LinkValue

theorem target_not_mem (value : LinkValue) :
    '>' ∉ value.target ∧ '"' ∉ value.target := by
  constructor
  · intro member
    exact (plain_of_isUriChar (value.wellFormed _ member)).2.1 rfl
  · intro member
    exact (plain_of_isUriChar (value.wellFormed _ member)).2.2.1 rfl

theorem text_outside (value : LinkValue) : Outside value.text := by
  have isLead : Outside ('<' :: (value.target ++ ['>'])) := by
    refine outside_of_not_mem ?_
    simpa using value.target_not_mem.2
  have isText :
      value.text =
        '<' :: (value.target ++ ['>']) ++
          value.slots.flatMap LinkSlot.text := by
    simp [text]
  rw [isText]
  exact (outside_append isLead).mpr (outside_slots value.slots)

end LinkValue

namespace LinkElement

theorem text_outside (element : LinkElement) : Outside element.text := by
  refine (outside_append element.before.outside_text).mpr ?_
  cases element.value with
  | none => exact element.after.outside_text
  | some value =>
      exact (outside_append value.text_outside).mpr element.after.outside_text

/-- A comma outside the quotes stands in the target of the link. -/
theorem comma_in_target
    {element : LinkElement} {before rest : Text}
    (isText : element.text = before ++ ',' :: rest)
    (isOutside : Outside before) :
    ∃ c more, rest = c :: more ∧ c ≠ '<' ∧ Text.isWhitespace c = false := by
  have noBlank (blanks : Blanks) : ',' ∉ blanks.text :=
    blanks.not_mem (by decide)
  cases isValue : element.value with
  | none =>
      have isBlank :
          element.text = element.before.text ++ element.after.text := by
        simp [text, isValue]
      have member : ',' ∈ element.text := by
        simp [isText]
      rw [isBlank, List.mem_append] at member
      exact (member.elim (noBlank _) (noBlank _)).elim
  | some value =>
      have isCut :
          (element.before.text ++ ['<'] ++ value.target) ++
              ('>' :: (value.slots.flatMap LinkSlot.text ++
                element.after.text)) =
            before ++ ',' :: rest := by
        rw [← isText]
        simp [text, isValue, LinkValue.text]
      have isLead : Outside (element.before.text ++ ['<'] ++ value.target) := by
        refine outside_of_not_mem ?_
        simpa [value.target_not_mem.2] using
          element.before.not_mem (c := '"') (by decide)
      have isTail :
          OnlyQuoted ',' ('>' :: (value.slots.flatMap LinkSlot.text ++
            element.after.text)) := by
        have isClose : OnlyQuoted ',' ['>'] :=
          onlyQuoted_of_not_mem (by decide)
        exact onlyQuoted_append (outside_of_not_mem (by decide)) isClose
          (onlyQuoted_append (outside_slots _) (onlyQuoted_slots _)
            (onlyQuoted_of_not_mem (noBlank _)))
      obtain ⟨more, rfl, isRest⟩ | ⟨more, isFront, isRest⟩ :=
        List.append_eq_append_iff.mp isCut
      · exact (isTail more rest isRest
          ((outside_append isLead).mp isOutside)).elim
      · cases more with
        | nil => exact absurd (List.cons.inj isRest).1 (by decide)
        | cons head more =>
            obtain ⟨rfl, rfl⟩ := List.cons.inj isRest
            have inTarget : ∀ c ∈ more, c ∈ value.target := by
              obtain ⟨front, rfl, isTarget⟩ | ⟨front, isOpen, isTarget⟩ :=
                List.append_eq_append_iff.mp isFront
              · intro c member
                rw [isTarget]
                simp [member]
              · cases front with
                | nil =>
                    intro c member
                    rw [← List.nil_append value.target, ← isTarget]
                    simp [member]
                | cons head front =>
                    obtain ⟨rfl, _⟩ := List.cons.inj isTarget
                    have member :
                        ',' ∈ element.before.text ++ ['<'] := by
                      rw [isOpen]
                      simp
                    simp [noBlank] at member
            cases more with
            | nil => exact ⟨'>', _, rfl, by decide, by decide⟩
            | cons c more =>
                have plain :=
                  plain_of_isUriChar
                    (value.wellFormed c (inTarget c List.mem_cons_self))
                exact ⟨c, _, rfl, plain.1, plain.2.2.2⟩

end LinkElement

/-! ## Finding members and slots -/

/-- What follows a member of the list: nothing, or a comma. -/
def ClosedBy (separator : Char) (rest : Text) : Prop :=
  rest = [] ∨ ∃ more, rest = separator :: more

theorem closedBy_rest (rest : List LinkElement) :
    ClosedBy ',' (rest.flatMap fun element => ',' :: element.text) := by
  cases rest with
  | nil => exact Or.inl rfl
  | cons element others => exact Or.inr ⟨_, rfl⟩

/-- A text that begins, after blanks, with a link. -/
def BeginsLink (text : Text) : Prop :=
  ∃ lead link, text = lead ++ '<' :: link ∧
    ∀ c ∈ lead, Text.isWhitespace c = true

theorem not_beginsLink_cons {c : Char} {rest : Text} (notOpen : c ≠ '<')
    (noBlank : Text.isWhitespace c = false) : ¬ BeginsLink (c :: rest) := by
  rintro ⟨lead, link, isText, isBlank⟩
  cases lead with
  | nil => exact notOpen (List.cons.inj isText).1
  | cons first lead =>
      obtain ⟨rfl, _⟩ := List.cons.inj isText
      rw [isBlank c List.mem_cons_self] at noBlank
      cases noBlank

/-- A comma outside the quotes that a link follows is not in a member. -/
theorem beyond_element
    {element : LinkElement} {rest front here : Text}
    (isText : element.text ++ rest = front ++ ',' :: here)
    (isOutside : Outside front) (isLink : BeginsLink here) :
    ∃ more, front = element.text ++ more ∧ rest = more ++ ',' :: here := by
  obtain ⟨more, isFront, isRest⟩ | ⟨more, isElement, isRest⟩ :=
    List.append_eq_append_iff.mp isText
  · exact ⟨more, isFront, isRest⟩
  · cases more with
    | nil =>
        rw [List.append_nil] at isElement
        exact ⟨[], by rw [isElement, List.append_nil], isRest.symm⟩
    | cons head more =>
        obtain ⟨rfl, rfl⟩ := List.cons.inj isRest
        obtain ⟨c, tail, rfl, notOpen, noBlank⟩ :=
          LinkElement.comma_in_target isElement isOutside
        exact (not_beginsLink_cons notOpen noBlank isLink).elim

/-- A comma outside the quotes that a link follows begins a member. -/
theorem exists_element
    {first : LinkElement} {rest : List LinkElement} {before here : Text}
    (isText :
      (first.text ++ rest.flatMap fun element => ',' :: element.text) =
        before ++ here)
    (isOutside : Outside before)
    (opens : before = [] ∨ ∃ front, before = front ++ [','])
    (isLink : BeginsLink here) :
    ∃ element ∈ first :: rest, ∃ more,
      here = element.text ++ more ∧ ClosedBy ',' more := by
  induction rest generalizing first before with
  | nil =>
      obtain rfl | ⟨front, rfl⟩ := opens
      · exact ⟨first, List.mem_cons_self, [], isText.symm, Or.inl rfl⟩
      · rw [List.append_assoc] at isText
        obtain ⟨more, _, isRest⟩ :=
          beyond_element isText
            (outside_of_append_singleton (by decide) isOutside) isLink
        exact absurd isRest.symm (by simp)
  | cons next others inductionHypothesis =>
      have inOthers (before : Text)
          (isRest :
            (next.text ++ others.flatMap fun element => ',' :: element.text) =
              before ++ here)
          (isOutside : Outside before)
          (opens : before = [] ∨ ∃ front, before = front ++ [',']) :
          ∃ element ∈ first :: next :: others, ∃ more,
            here = element.text ++ more ∧ ClosedBy ',' more := by
        obtain ⟨element, isElement, isHere⟩ :=
          inductionHypothesis isRest isOutside opens
        exact ⟨element, List.mem_cons_of_mem first isElement, isHere⟩
      obtain rfl | ⟨front, rfl⟩ := opens
      · exact ⟨first, List.mem_cons_self, _, isText.symm, closedBy_rest _⟩
      · rw [List.append_assoc] at isText
        obtain ⟨more, rfl, isRest⟩ :=
          beyond_element isText
            (outside_of_append_singleton (by decide) isOutside) isLink
        rw [List.flatMap_cons] at isRest
        cases more with
        | nil =>
            exact inOthers [] (List.cons.inj isRest).2 outside_nil
              (Or.inl rfl)
        | cons head more =>
            obtain ⟨rfl, isOther⟩ := List.cons.inj isRest
            rw [List.append_assoc, outside_append first.text_outside]
              at isOutside
            have isComma : Outside [','] := outside_of_not_mem (by decide)
            refine inOthers (more ++ [',']) ?_
              ((outside_append isComma).mp isOutside) (Or.inr ⟨more, rfl⟩)
            rw [List.append_assoc]
            exact isOther

/-- A semicolon outside the quotes begins a slot. -/
theorem exists_slot
    {slots : List LinkSlot} {tail before here : Text}
    (inTail : ∀ front back, tail = front ++ ';' :: back → ',' ∈ front)
    (isText : slots.flatMap LinkSlot.text ++ tail = before ++ ';' :: here)
    (isOutside : Outside before) (noComma : ',' ∉ before) :
    ∃ earlier slot later,
      slots = earlier ++ slot :: later ∧
        before = earlier.flatMap LinkSlot.text ++ slot.before.text ∧
        here = slot.opened ++ (later.flatMap LinkSlot.text ++ tail) := by
  induction slots generalizing before with
  | nil =>
      exact (noComma (inTail before here isText)).elim
  | cons slot others inductionHypothesis =>
      have isCut :
          slot.before.text ++
              ';' :: (slot.opened ++
                (others.flatMap LinkSlot.text ++ tail)) =
            before ++ ';' :: here := by
        rw [← isText]
        simp [LinkSlot.text_eq]
      have notBefore : ';' ∉ slot.before.text :=
        slot.before.not_mem (by decide)
      have inOthers (more : Text)
          (isRest :
            others.flatMap LinkSlot.text ++ tail = more ++ ';' :: here)
          (isOutside : Outside more) (noComma : ',' ∉ more)
          (isBefore : before = slot.text ++ more) :
          ∃ earlier found later,
            slot :: others = earlier ++ found :: later ∧
              before =
                earlier.flatMap LinkSlot.text ++ found.before.text ∧
              here =
                found.opened ++ (later.flatMap LinkSlot.text ++ tail) := by
        obtain ⟨earlier, found, later, rfl, rfl, isHere⟩ :=
          inductionHypothesis isRest isOutside noComma
        exact ⟨slot :: earlier, found, later, rfl, by simp [isBefore],
          isHere⟩
      by_cases member : ';' ∈ before
      · obtain ⟨front, back, rfl, absent⟩ := List.eq_append_cons_of_mem member
        rw [List.append_assoc] at isCut
        obtain ⟨rfl, isRest⟩ :=
          Text.append_cons_inj_of_not_mem notBefore absent isCut
        have isLead : Outside (slot.before.text ++ [';']) := by
          refine outside_of_not_mem ?_
          simpa using slot.before.not_mem (c := '"') (by decide)
        rw [List.append_cons, outside_append isLead] at isOutside
        have notBack : ',' ∉ back := fun inBack => noComma (by simp [inBack])
        obtain ⟨more, rfl, isOther⟩ | ⟨more, isOpened, isOther⟩ :=
          List.append_eq_append_iff.mp isRest
        · exact inOthers more isOther
            ((outside_append slot.opened_outside).mp isOutside)
            (fun inMore => notBack (by simp [inMore]))
            (by simp [LinkSlot.text_eq])
        · cases more with
          | nil =>
              rw [List.append_nil] at isOpened
              exact inOthers [] isOther.symm outside_nil (by simp)
                (by simp [LinkSlot.text_eq, isOpened])
          | cons head more =>
              obtain ⟨rfl, _⟩ := List.cons.inj isOther
              exact (slot.opened_onlyQuoted (by decide) (by decide)
                (by decide) (by decide) back more isOpened isOutside).elim
      · obtain ⟨rfl, isHere⟩ :=
          Text.append_cons_inj_of_not_mem notBefore member isCut
        exact ⟨[], slot, others, rfl, rfl, isHere.symm⟩

end Quadpod
