import Quadpod.Container
import Quadpod.LinkSyntax
import Quadpod.TextPieces

namespace Quadpod

/-!
# Parameters of a link as the code reads them

The code takes a parameter of a `Link` value from one semicolon to the next, cuts
it at its equals sign and strips the quotes of what follows.  A parameter that is
written without a comma or a semicolon in quotes says what is read of it.
-/

/-! ## Words of a quoted string -/

/-- A place that no backslash stands before lies between two members. -/
theorem exists_chars_of_append
    {chars : List QuotedChar} {front back : Text}
    (isText : chars.flatMap QuotedChar.text = front ++ back)
    (noBackslash : ∀ lead, front ≠ lead ++ ['\\']) :
    ∃ first second,
      chars = first ++ second ∧
        first.flatMap QuotedChar.text = front ∧
        second.flatMap QuotedChar.text = back := by
  induction chars generalizing front with
  | nil =>
      obtain ⟨rfl, rfl⟩ := List.append_eq_nil_iff.mp isText.symm
      exact ⟨[], [], rfl, rfl, rfl⟩
  | cons c others inductionHypothesis =>
      have inOthers (tail : Text)
          (isFront : front = c.text ++ tail)
          (isOthers : others.flatMap QuotedChar.text = tail ++ back) :
          ∃ first second,
            c :: others = first ++ second ∧
              first.flatMap QuotedChar.text = front ∧
              second.flatMap QuotedChar.text = back := by
        have noTail : ∀ lead, tail ≠ lead ++ ['\\'] := by
          rintro lead rfl
          exact noBackslash (c.text ++ lead) (by simp [isFront])
        obtain ⟨first, second, rfl, isFirst, isSecond⟩ :=
          inductionHypothesis isOthers noTail
        exact ⟨c :: first, second, rfl, by simp [isFirst, isFront], isSecond⟩
      cases front with
      | nil => exact ⟨[], c :: others, rfl, rfl, isText⟩
      | cons head tail =>
          cases c with
          | plain c =>
              obtain ⟨rfl, isTail⟩ := List.cons.inj isText
              exact inOthers tail rfl isTail
          | pair c =>
              obtain ⟨rfl, isTail⟩ := List.cons.inj isText
              cases tail with
              | nil => exact (noBackslash [] rfl).elim
              | cons second tail =>
                  obtain ⟨rfl, isRest⟩ := List.cons.inj isTail
                  exact inOthers tail rfl isRest

/-- Members that are written without a backslash say what is written. -/
theorem exists_chars_of_plain
    {chars : List QuotedChar} {word back : Text}
    (isText : chars.flatMap QuotedChar.text = word ++ back)
    (noBackslash : '\\' ∉ word) :
    ∃ rest,
      chars = word.map .plain ++ rest ∧
        rest.flatMap QuotedChar.text = back := by
  induction word generalizing chars with
  | nil => exact ⟨chars, rfl, isText⟩
  | cons c word inductionHypothesis =>
      rw [List.mem_cons, not_or] at noBackslash
      cases chars with
      | nil => exact absurd isText (by simp)
      | cons head others =>
          cases head with
          | plain c =>
              obtain ⟨rfl, isTail⟩ := List.cons.inj isText
              obtain ⟨rest, rfl, isRest⟩ :=
                inductionHypothesis isTail noBackslash.2
              exact ⟨rest, rfl, isRest⟩
          | pair c =>
              exact (noBackslash.1 (List.cons.inj isText).1).elim

theorem chars_eq_nil {chars : List QuotedChar}
    (isText : chars.flatMap QuotedChar.text = []) : chars = [] := by
  cases chars with
  | nil => rfl
  | cons c others =>
      cases c <;> exact absurd isText (by simp [QuotedChar.text])

/-- The last character of what is written is the last that is said. -/
theorem map_value_of_concat
    {chars : List QuotedChar} {front : Text} {c : Char}
    (isText : chars.flatMap QuotedChar.text = front ++ [c]) :
    ∃ said, chars.map QuotedChar.value = said ++ [c] := by
  obtain rfl | ⟨others, last, rfl⟩ := List.eq_nil_or_concat chars
  · exact absurd isText.symm (by simp)
  · have isLast : ∃ lead, last.text = lead ++ [last.value] := by
      cases last with
      | plain c => exact ⟨[], rfl⟩
      | pair c => exact ⟨['\\'], rfl⟩
    obtain ⟨lead, isLast⟩ := isLast
    have same :
        (others.flatMap QuotedChar.text ++ lead) ++ [last.value] =
          front ++ [c] := by
      rw [← isText]
      simp [isLast]
    have sameLast : last.value = c :=
      List.singleton_inj.mp (List.append_inj' same rfl).2
    exact ⟨others.map QuotedChar.value, by simp [sameLast]⟩

/-- A word that is written between white space is said between white space. -/
theorem QuotedString.mem_words
    {quoted : QuotedString} (found : TextPiece Text.isWhitespace quoted.inner)
    (nonempty : found.piece ≠ []) (noBackslash : '\\' ∉ found.piece) :
    found.piece ∈ Text.splitWhitespace quoted.value := by
  have notBlank : Text.isWhitespace '\\' = false := by
    decide
  have noLead : ∀ lead, found.before ≠ lead ++ ['\\'] := by
    intro lead isLead
    obtain isNil | ⟨front, c, isBefore, isBlank⟩ := found.opens
    · rw [isNil] at isLead
      exact absurd isLead (by simp)
    · rw [isBefore] at isLead
      have sameLast : c = '\\' :=
        List.singleton_inj.mp (List.append_inj' isLead rfl).2
      rw [sameLast, notBlank] at isBlank
      cases isBlank
  obtain ⟨first, second, isChars, isFirst, isSecond⟩ :=
    exists_chars_of_append found.isText noLead
  obtain ⟨rest, rfl, isRest⟩ := exists_chars_of_plain isSecond noBackslash
  have isValue :
      quoted.value =
        first.map QuotedChar.value ++
          (found.piece ++ rest.map QuotedChar.value) := by
    rw [QuotedString.value, isChars]
    simp [Function.comp_def, QuotedChar.value]
  refine TextPiece.mem_splitWhitespace_iff.mpr ⟨nonempty,
    ⟨_, found.piece, _, isValue, found.clean, ?_, ?_⟩, rfl⟩
  · obtain isNil | ⟨front, c, isBefore, isBlank⟩ := found.opens
    · rw [isNil] at isFirst
      exact Or.inl (by rw [chars_eq_nil isFirst]; rfl)
    · rw [isBefore] at isFirst
      obtain ⟨said, isSaid⟩ := map_value_of_concat isFirst
      exact Or.inr ⟨said, c, isSaid, isBlank⟩
  · obtain isNil | ⟨c, back, isAfter, isBlank⟩ := found.closes
    · rw [isNil] at isRest
      exact Or.inl (by rw [chars_eq_nil isRest]; rfl)
    · rw [isAfter] at isRest
      cases rest with
      | nil => exact absurd isRest.symm (by simp)
      | cons head others =>
          cases head with
          | plain head =>
              obtain ⟨rfl, _⟩ := List.cons.inj isRest
              exact Or.inr ⟨head, _, rfl, isBlank⟩
          | pair head =>
              rw [← (List.cons.inj isRest).1, notBlank] at isBlank
              cases isBlank

/-- What the code strips of a quoted string: its quotes, and some at its end. -/
theorem QuotedString.exists_trimMatches
    (quoted : QuotedString) :
    ∃ quotes,
      quoted.inner = Text.trimMatches '"' quoted.text ++ quotes ∧
        ∀ c ∈ quotes, c = '"' := by
  cases isInner : quoted.inner with
  | nil =>
      refine ⟨[], ?_, by simp⟩
      rw [QuotedString.text, isInner]
      rfl
  | cons c rest =>
      have notQuote : c ≠ '"' := by
        rintro rfl
        obtain ⟨lead, isLead⟩ :=
          backslash_before_quote quoted.wellFormed
            (show quoted.inner = [] ++ '"' :: rest from isInner)
        exact absurd isLead (by simp)
      have stripped :
          Text.trimMatches '"' quoted.text =
            (c :: rest).rdropWhile fun c => decide (c = '"') := by
        rw [Text.trimMatches, QuotedString.text, isInner, List.cons_append,
          List.dropWhile_cons_of_pos (by simp), List.cons_append,
          List.dropWhile_cons_of_neg (by simp [notQuote])]
        exact Text.rdropWhile_append_right (by simp) (c :: rest)
      refine ⟨(c :: rest).rtakeWhile fun c => decide (c = '"'), ?_, ?_⟩
      · rw [stripped]
        exact List.rdropWhile_append_rtakeWhile.symm
      · intro other member
        simpa using List.mem_rtakeWhile_imp member

/-- The relation the code reads in a quoted string is one it says. -/
theorem QuotedString.mem_words_of_trimMatches
    {quoted : QuotedString}
    (isRead :
      "type".toList ∈
        Text.splitWhitespace (Text.trimMatches '"' quoted.text)) :
    "type".toList ∈ Text.splitWhitespace quoted.value := by
  obtain ⟨_, found, isPiece⟩ := TextPiece.mem_splitWhitespace_iff.mp isRead
  obtain ⟨quotes, isInner, areQuotes⟩ := quoted.exists_trimMatches
  have isText :
      quoted.inner =
        found.before ++ (found.piece ++ (found.after ++ quotes)) := by
    rw [isInner]
    exact (congrArg (· ++ quotes) found.isText).trans (by simp)
  have closes :
      found.after ++ quotes = [] ∨
        ∃ c back, found.after ++ quotes = c :: back ∧
          Text.isWhitespace c = true := by
    obtain isNil | ⟨c, back, isAfter, isBlank⟩ := found.closes
    · cases quotes with
      | nil => exact Or.inl (by simp [isNil])
      | cons c others =>
          rw [areQuotes c List.mem_cons_self, isNil, List.nil_append,
            ← List.append_assoc] at isText
          obtain ⟨lead, isLead⟩ :=
            backslash_before_quote quoted.wellFormed isText
          rw [isPiece] at isLead
          have last := congrArg List.getLast? isLead
          rw [List.getLast?_append, List.getLast?_append] at last
          have isLast : "type".toList.getLast? = some 'e' := by
            decide
          rw [isLast] at last
          exact absurd last (by simp)
    · exact Or.inr ⟨c, _, by rw [isAfter]; rfl, isBlank⟩
  have isWord :=
    mem_words ⟨found.before, found.piece, _, isText, found.clean, found.opens,
      closes⟩
  rw [isPiece] at isWord
  exact isWord (by decide) (by decide)

/-! ## What a parameter reads as -/

/-- A text up to its first comma or semicolon. -/
def cutText (text : Text) : Text :=
  text.takeWhile fun c => c != ',' && c != ';'

theorem cutText_append {text : Text} (clean : ',' ∉ text ∧ ';' ∉ text)
    (rest : Text) : cutText (text ++ rest) = text ++ cutText rest := by
  refine List.takeWhile_append_of_pos fun c member => ?_
  have notComma : c ≠ ',' := fun isComma => clean.1 (isComma ▸ member)
  have notSemicolon : c ≠ ';' :=
    fun isSemicolon => clean.2 (isSemicolon ▸ member)
  simp [notComma, notSemicolon]

theorem cutText_nil_of_closedBy {c : Char} (isCut : c = ',' ∨ c = ';')
    {rest : Text} (closed : ClosedBy c rest) : cutText rest = [] := by
  obtain rfl | ⟨more, rfl⟩ := closed
  · rfl
  · obtain rfl | rfl := isCut <;> rfl

theorem Blanks.clean (blanks : Blanks) :
    ',' ∉ blanks.text ∧ ';' ∉ blanks.text :=
  ⟨blanks.not_mem (by decide), blanks.not_mem (by decide)⟩

theorem Token.clean (token : Token) : ',' ∉ token.text ∧ ';' ∉ token.text :=
  ⟨token.not_mem (by decide), token.not_mem (by decide)⟩

/-- White space after a parameter changes nothing. -/
theorem isTypeParameter_append {piece tail : Text}
    (blank : ∀ c ∈ tail, Text.isWhitespace c = true)
    (isType : isTypeParameter piece = true) :
    isTypeParameter (piece ++ tail) = true := by
  unfold isTypeParameter at isType ⊢
  split at isType
  · next name value isCut =>
      have isText := Text.splitOnce_eq_some isCut
      have isLonger :
          Text.splitOnce '=' (piece ++ tail) = some (name, value ++ tail) := by
        rw [isText, List.append_assoc, List.cons_append]
        exact Text.splitOnce_append_cons (Text.not_mem_of_splitOnce isCut) _
      rw [isLonger]
      dsimp only
      rw [Text.trim_append_right blank]
      exact isType
  · cases isType

theorem not_isTypeParameter {piece : Text} (noEquals : '=' ∉ piece) :
    isTypeParameter piece = false := by
  rw [isTypeParameter, Text.splitOnce_eq_none noEquals]

/-- What is read of a parameter that is written with a value. -/
theorem isTypeParameter_written
    {before gap blanks : Blanks} {name : Token} {value tail : Text}
    (tailBlank : ∀ c ∈ tail, Text.isWhitespace c = true)
    (isType :
      isTypeParameter
          (before.text ++ (name.text ++ (gap.text ++
            '=' :: (blanks.text ++ (value ++ tail))))) = true) :
    Text.eqIgnoreAsciiCase name.text "rel".toList = true ∧
      "type".toList ∈
        Text.splitWhitespace (Text.trimMatches '"' (Text.trim value)) := by
  have noEquals : '=' ∉ before.text ++ (name.text ++ gap.text) := by
    have notBefore := before.not_mem (c := '=') (by decide)
    have notName := name.not_mem (c := '=') (by decide)
    have notGap := gap.not_mem (c := '=') (by decide)
    simp [notBefore, notName, notGap]
  have isCut :
      Text.splitOnce '=' (before.text ++ (name.text ++ (gap.text ++
          '=' :: (blanks.text ++ (value ++ tail))))) =
        some (before.text ++ (name.text ++ gap.text),
          blanks.text ++ (value ++ tail)) := by
    rw [← Text.splitOnce_append_cons noEquals]
    simp
  rw [isTypeParameter, isCut] at isType
  dsimp only at isType
  rw [Text.trim_append_left before.isWhitespace,
    Text.trim_append_right gap.isWhitespace, name.trim,
    Text.trim_append_left blanks.isWhitespace,
    Text.trim_append_right tailBlank, Bool.and_eq_true,
    List.contains_iff_mem] at isType
  exact isType

theorem Token.trimMatches (token : Token) :
    Text.trimMatches '"' token.text = token.text := by
  have notQuote : ∀ c ∈ token.text, decide (c = '"') = false := by
    intro c member
    rw [decide_eq_false_iff_not]
    rintro rfl
    exact token.not_mem (by decide) member
  have front :
      token.text.dropWhile (fun c => decide (c = '"')) = token.text := by
    cases isText : token.text with
    | nil => rfl
    | cons first rest =>
        rw [List.dropWhile_cons_of_neg]
        simpa using notQuote first (by simp [isText])
  rw [Text.trimMatches, front, List.rdropWhile_eq_self_iff]
  intro nonempty
  rw [notQuote _ (List.getLast_mem nonempty)]
  exact Bool.false_ne_true

namespace QuotedString

variable (quoted : QuotedString)

theorem clean_text (clean : ',' ∉ quoted.inner ∧ ';' ∉ quoted.inner) :
    ',' ∉ quoted.text ∧ ';' ∉ quoted.text := by
  simp [text, clean.1, clean.2]

theorem trim_text : Text.trim quoted.text = quoted.text := by
  have notBlank : Text.isWhitespace '"' = false := by
    decide
  refine Text.trim_eq_self ?_ ?_
  · intro c isHead
    obtain rfl : '"' = c := Option.some.inj isHead
    exact notBlank
  · intro c isLast
    rw [text, List.getLast?_concat] at isLast
    obtain rfl : '"' = c := Option.some.inj isLast
    exact notBlank

/-- A quoted string with a comma or a semicolon is cut inside its quotes. -/
theorem cutText_text
    (unclean : ¬ (',' ∉ quoted.inner ∧ ';' ∉ quoted.inner)) (rest : Text) :
    cutText (quoted.text ++ rest) = '"' :: cutText quoted.inner := by
  have isShorter :
      (quoted.inner.takeWhile fun c => c != ',' && c != ';').length ≠
        quoted.inner.length := by
    intro sameLength
    have whole := (List.takeWhile_prefix _).eq_of_length sameLength
    rw [List.takeWhile_eq_self_iff] at whole
    refine unclean ⟨fun member => ?_, fun member => ?_⟩
    · exact absurd (whole _ member) (by decide)
    · exact absurd (whole _ member) (by decide)
  rw [cutText, text, List.cons_append, List.cons_append,
    List.takeWhile_cons_of_pos (by decide), List.append_assoc,
    List.takeWhile_append, if_neg isShorter]
  rfl

theorem not_outside_cut : ¬ Outside ('"' :: cutText quoted.inner) := by
  intro isOutside
  have isText :
      quoted.inner =
        cutText quoted.inner ++
          quoted.inner.dropWhile fun c => c != ',' && c != ';' :=
    List.takeWhile_append_dropWhile.symm
  exact inside_of_prefix quoted.wellFormed isText isOutside

end QuotedString

/-- What the code reads of a slot is what the slot says. -/
theorem LinkSlot.exists_type
    {slot : LinkSlot} {rest piece tail : Text}
    (isText : piece ++ tail = slot.opened ++ rest)
    (restBlank : ∀ c ∈ cutText rest, Text.isWhitespace c = true)
    (tailBlank : ∀ c ∈ cutText tail, Text.isWhitespace c = true)
    (clean : ',' ∉ piece ∧ ';' ∉ piece) (isOutside : Outside piece)
    (isType : isTypeParameter piece = true) :
    ∃ parameter,
      slot.parameter = some parameter ∧
        parameter.isRel = true ∧
        "type".toList ∈ Text.splitWhitespace parameter.said := by
  have isRead := isTypeParameter_append tailBlank isType
  have isCut := congrArg cutText isText
  rw [cutText_append clean] at isCut
  have notBlank : Text.isWhitespace '=' = false := by
    decide
  have notRest : '=' ∉ cutText rest := by
    intro member
    rw [restBlank _ member] at notBlank
    cases notBlank
  have notAfter := slot.after.not_mem notBlank
  rw [LinkSlot.opened, LinkSlot.body] at isCut
  cases isParameter : slot.parameter with
  | none =>
      simp only [isParameter, Option.map_none, Option.getD_none,
        List.append_nil] at isCut
      rw [cutText_append slot.after.clean] at isCut
      rw [isCut, not_isTypeParameter (by simp [notAfter, notRest])] at isRead
      cases isRead
  | some parameter =>
      simp only [isParameter, Option.map_some, Option.getD_some,
        LinkParameter.text, List.append_assoc] at isCut
      rw [cutText_append slot.after.clean,
        cutText_append parameter.name.clean,
        cutText_append parameter.gap.clean, LinkParameter.assigned] at isCut
      refine ⟨parameter, rfl, ?_⟩
      cases isValue : parameter.value with
      | none =>
          have notName := parameter.name.not_mem (c := '=') (by decide)
          have notGap := parameter.gap.not_mem notBlank
          rw [isValue] at isCut
          rw [isCut, not_isTypeParameter
            (by simp [notAfter, notName, notGap, notRest])] at isRead
          cases isRead
      | some assigned =>
          obtain ⟨blanks, value⟩ := assigned
          have notEquals : ',' ∉ ['='] ∧ ';' ∉ ['='] := by
            decide
          simp only [isValue] at isCut
          rw [List.cons_append, ← List.singleton_append,
            cutText_append notEquals, List.append_assoc,
            cutText_append blanks.clean, List.singleton_append] at isCut
          rw [LinkParameter.said, isValue]
          rw [isCut] at isRead
          cases value with
          | token content =>
              rw [ParameterValue.text, cutText_append content.clean] at isRead
              obtain ⟨isRel, isWord⟩ :=
                isTypeParameter_written restBlank isRead
              rw [content.trim, content.trimMatches] at isWord
              exact ⟨isRel, isWord⟩
          | quoted content =>
              by_cases cleanInner :
                  ',' ∉ content.inner ∧ ';' ∉ content.inner
              · rw [ParameterValue.text,
                  cutText_append (content.clean_text cleanInner)] at isRead
                obtain ⟨isRel, isWord⟩ :=
                  isTypeParameter_written restBlank isRead
                rw [content.trim_text] at isWord
                exact ⟨isRel, content.mem_words_of_trimMatches isWord⟩
              · have isBalanced : Outside (piece ++ cutText tail) := by
                  refine (outside_append isOutside).mpr (outside_of_not_mem ?_)
                  intro member
                  exact absurd (tailBlank _ member) (by decide)
                have isLead :
                    Outside (slot.after.text ++ (parameter.name.text ++
                      (parameter.gap.text ++ '=' :: blanks.text))) := by
                  have notAfter := slot.after.not_mem (c := '"') (by decide)
                  have notName := parameter.name.not_mem (c := '"') (by decide)
                  have notGap := parameter.gap.not_mem (c := '"') (by decide)
                  have notBlanks := blanks.not_mem (c := '"') (by decide)
                  refine outside_of_not_mem ?_
                  simp [notAfter, notName, notGap, notBlanks]
                have isInside :
                    Outside ('"' :: cutText content.inner) := by
                  rw [← outside_append isLead]
                  rw [isCut, ParameterValue.text,
                    content.cutText_text cleanInner] at isBalanced
                  simpa using isBalanced
                exact (content.not_outside_cut isInside).elim

end Quadpod
