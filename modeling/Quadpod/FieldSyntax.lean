import Quadpod.RdfFormat

/-!
# The syntax of field values

Tokens, quoted strings and the blanks around them, as RFC 9110 writes them in
the values of header fields.  A value of one of these types carries its own
well-formedness and has a text; the lemmas say what the string operations of
the source make of that text.
-/

namespace Text

/-! ## Blanks around a text -/

theorem trim_append_left
    {lead : Text} (blank : ∀ c ∈ lead, isWhitespace c = true) (text : Text) :
    trim (lead ++ text) = trim text := by
  rw [trim, List.dropWhile_append_of_pos blank, trim]

theorem rdropWhile_append_right
    {tail : Text} {p : Char → Bool} (blank : ∀ c ∈ tail, p c = true)
    (text : Text) :
    (text ++ tail).rdropWhile p = text.rdropWhile p := by
  have reversed : ∀ c ∈ tail.reverse, p c = true := by
    simpa using blank
  rw [List.rdropWhile, List.reverse_append,
    List.dropWhile_append_of_pos reversed, List.rdropWhile]

/-- What stands before a character that is kept is kept as well. -/
theorem rdropWhile_append_cons
    {p : Char → Bool} {c : Char} (kept : p c = false) (before after : Text) :
    (before ++ c :: after).rdropWhile p = before ++ c :: after.rdropWhile p := by
  have reversed :
      (before ++ c :: after).reverse.dropWhile p =
        after.reverse.dropWhile p ++ c :: before.reverse := by
    rw [List.reverse_append, List.reverse_cons, List.append_assoc,
      List.dropWhile_append]
    split
    · next isEmpty => simp [List.isEmpty_iff.mp isEmpty, kept]
    · rfl
  rw [List.rdropWhile, reversed, List.rdropWhile]
  simp

theorem trim_append_right
    {tail : Text} (blank : ∀ c ∈ tail, isWhitespace c = true) (text : Text) :
    trim (text ++ tail) = trim text := by
  rw [trim, List.dropWhile_append]
  split
  · next isEmpty =>
      have noTail : tail.dropWhile isWhitespace = [] := by
        rw [List.dropWhile_eq_nil_iff]
        exact blank
      rw [noTail, trim, List.isEmpty_iff.mp isEmpty]
  · rw [rdropWhile_append_right blank, trim]

theorem trim_rdropWhile (text : Text) :
    trim (text.rdropWhile isWhitespace) = trim text := by
  have blank : ∀ c ∈ text.rtakeWhile isWhitespace, isWhitespace c = true :=
    fun c member => List.mem_rtakeWhile_imp member
  have whole :
      text.rdropWhile isWhitespace ++ text.rtakeWhile isWhitespace = text :=
    List.rdropWhile_append_rtakeWhile
  calc
    trim (text.rdropWhile isWhitespace) =
        trim (text.rdropWhile isWhitespace ++
          text.rtakeWhile isWhitespace) :=
      (trim_append_right blank _).symm
    _ = trim text := by rw [whole]

/-- A text with no white space at either end is left as it is. -/
theorem trim_eq_self
    {text : Text}
    (front : ∀ c, text.head? = some c → isWhitespace c = false)
    (back : ∀ c, text.getLast? = some c → isWhitespace c = false) :
    trim text = text := by
  have kept : text.dropWhile isWhitespace = text := by
    cases text with
    | nil => rfl
    | cons first rest => simp [front first rfl]
  rw [trim, kept, List.rdropWhile_eq_self_iff]
  intro nonempty isBlank
  rw [back _ (List.getLast?_eq_some_getLast nonempty)] at isBlank
  cases isBlank

theorem trim_of_plain
    {text : Text} (plain : ∀ c ∈ text, isWhitespace c = false) :
    trim text = text :=
  trim_eq_self (fun c isHead => plain c (List.mem_of_mem_head? isHead))
    fun c isLast => plain c (List.mem_of_getLast? isLast)

/-! ## Cutting a text -/

theorem splitOnce_append_cons
    {separator : Char} {before : Text} (absent : separator ∉ before)
    (after : Text) :
    splitOnce separator (before ++ separator :: after) =
      some (before, after) := by
  induction before with
  | nil =>
      simp [splitOnce]
  | cons first rest inductionHypothesis =>
      rw [List.mem_cons, not_or] at absent
      simp [splitOnce, Ne.symm absent.1, inductionHypothesis absent.2]

theorem splitOnce_eq_none
    {separator : Char} {text : Text} (absent : separator ∉ text) :
    splitOnce separator text = none := by
  induction text with
  | nil =>
      rfl
  | cons first rest inductionHypothesis =>
      rw [List.mem_cons, not_or] at absent
      simp [splitOnce, Ne.symm absent.1, inductionHypothesis absent.2]

theorem splitOnce_eq_some
    {separator : Char} {text before after : Text}
    (isCut : splitOnce separator text = some (before, after)) :
    text = before ++ separator :: after := by
  induction text generalizing before with
  | nil =>
      cases isCut
  | cons first rest inductionHypothesis =>
      rw [splitOnce] at isCut
      split at isCut
      · next isSeparator =>
          cases isCut
          rw [isSeparator]
          rfl
      · obtain ⟨⟨front, back⟩, isRest, isPair⟩ :=
          Option.map_eq_some_iff.mp isCut
        cases isPair
        rw [inductionHypothesis isRest]
        rfl

theorem not_mem_of_splitOnce
    {separator : Char} {text before after : Text}
    (isCut : splitOnce separator text = some (before, after)) :
    separator ∉ before := by
  induction text generalizing before with
  | nil =>
      cases isCut
  | cons first rest inductionHypothesis =>
      rw [splitOnce] at isCut
      split at isCut
      · cases isCut
        simp
      · next notSeparator =>
          obtain ⟨⟨front, back⟩, isRest, isPair⟩ :=
            Option.map_eq_some_iff.mp isCut
          cases isPair
          simp [Ne.symm notSeparator, inductionHypothesis isRest]

/-- Blanks around a text are trimmed away from its pieces. -/
theorem map_trim_split_blanks
    {separator : Char} {lead tail : Text}
    (leadBlank : ∀ c ∈ lead, isWhitespace c = true)
    (tailBlank : ∀ c ∈ tail, isWhitespace c = true)
    (noBlank : isWhitespace separator = false) (text : Text) :
    (split separator (lead ++ text ++ tail)).map trim =
      (split separator text).map trim := by
  have notLead : separator ∉ lead := by
    intro member
    rw [leadBlank _ member] at noBlank
    cases noBlank
  have notTail : separator ∉ tail := by
    intro member
    rw [tailBlank _ member] at noBlank
    cases noBlank
  have withTail (rest : Text) :
      (split separator (rest ++ tail)).map trim =
        (split separator rest).map trim := by
    induction isLength : rest.length using Nat.strong_induction_on
      generalizing rest with
    | _ length inductionHypothesis =>
        by_cases member : separator ∈ rest
        · obtain ⟨before, after, rfl, _⟩ :=
            List.eq_append_cons_of_mem member
          rw [List.append_assoc, List.cons_append, split_append_cons,
            split_append_cons, List.map_append, List.map_append,
            inductionHypothesis _ (by simp [← isLength]; omega) after rfl]
        · have notBoth : separator ∉ rest ++ tail := by
            simp [member, notTail]
          rw [split_of_not_mem notBoth, split_of_not_mem member,
            List.map_singleton, List.map_singleton,
            trim_append_right tailBlank]
  rw [withTail]
  by_cases member : separator ∈ text
  · obtain ⟨before, after, rfl, absent⟩ := List.eq_append_cons_of_mem member
    have notBoth : separator ∉ lead ++ before := by
      simp [absent, notLead]
    rw [← List.append_assoc, split_append_cons, split_append_cons,
      split_of_not_mem notBoth, split_of_not_mem absent, List.map_append,
      List.map_append, List.map_singleton, List.map_singleton,
      trim_append_left leadBlank]
  · have notBoth : separator ∉ lead ++ text := by
      simp [member, notLead]
    rw [split_of_not_mem notBoth, split_of_not_mem member,
      List.map_singleton, List.map_singleton, trim_append_left leadBlank]

end Text

namespace Quadpod

/-! ## Blanks and tokens -/

/-- `OWS` -/
structure Blanks where
  text : Text
  blank : ∀ c ∈ text, c = ' ' ∨ c = '\t'

/-- No blanks. -/
def Blanks.none : Blanks where
  text := []
  blank := by simp

theorem Blanks.isWhitespace (blanks : Blanks) :
    ∀ c ∈ blanks.text, Text.isWhitespace c = true := by
  intro c member
  obtain rfl | rfl := blanks.blank c member <;> decide

theorem Blanks.not_mem
    (blanks : Blanks) {c : Char} (noBlank : Text.isWhitespace c = false) :
    c ∉ blanks.text := by
  intro member
  rw [blanks.isWhitespace c member] at noBlank
  cases noBlank

/-- `token` -/
structure Token where
  text : Text
  wellFormed : isToken text = true

namespace Token

theorem isTchar (token : Token) : ∀ c ∈ token.text, isTchar c = true := by
  have wellFormed := token.wellFormed
  simp only [isToken, Bool.and_eq_true, List.all_eq_true] at wellFormed
  exact wellFormed.2

theorem ne_nil (token : Token) : token.text ≠ [] := by
  have wellFormed := token.wellFormed
  simp only [isToken, Bool.and_eq_true, Bool.not_eq_true',
    List.isEmpty_eq_false_iff] at wellFormed
  exact wellFormed.1

theorem not_mem
    (token : Token) {c : Char} (notTchar : Quadpod.isTchar c = false) :
    c ∉ token.text := by
  intro member
  rw [token.isTchar c member] at notTchar
  cases notTchar

end Token

/-- A letter or digit is visible. -/
theorem visible_of_isAlphanum {c : Char} (alphanum : c.isAlphanum = true) :
    33 ≤ c.toNat ∧ c.toNat ≤ 126 := by
  have isAlphanum :
      c.isAlphanum =
        ((decide (c.val ≥ 65 ∧ c.val ≤ 90) ||
          (decide (c.val ≥ 97) && decide (c.val ≤ 122))) ||
            (decide (c.val ≥ 48) && decide (c.val ≤ 57))) :=
    rfl
  simp only [isAlphanum, Bool.or_eq_true, Bool.and_eq_true,
    decide_eq_true_eq, ge_iff_le, UInt32.le_iff_toNat_le] at alphanum
  change 33 ≤ c.val.toNat ∧ c.val.toNat ≤ 126
  rcases alphanum with (⟨low, high⟩ | ⟨low, high⟩) | ⟨low, high⟩
  · exact ⟨Nat.le_trans (by decide) low, Nat.le_trans high (by decide)⟩
  · exact ⟨Nat.le_trans (by decide) low, Nat.le_trans high (by decide)⟩
  · exact ⟨Nat.le_trans (by decide) low, Nat.le_trans high (by decide)⟩

/-- A character of a token is visible. -/
theorem visible_of_isTchar {c : Char} (tchar : isTchar c = true) :
    33 ≤ c.toNat ∧ c.toNat ≤ 126 := by
  rw [isTchar, Bool.or_eq_true] at tchar
  obtain alphanum | listed := tchar
  · exact visible_of_isAlphanum alphanum
  · have marks :
        "!#$%&'*+-.^_`|~".toList.all
          (fun mark => 33 ≤ mark.toNat ∧ mark.toNat ≤ 126) = true := by
      decide
    have isMark := List.all_eq_true.mp marks c (by simpa using listed)
    exact of_decide_eq_true isMark

theorem Token.not_isWhitespace (token : Token) :
    ∀ c ∈ token.text, Text.isWhitespace c = false := by
  intro c member
  have visible := visible_of_isTchar (token.isTchar c member)
  simp only [Text.isWhitespace, Bool.or_eq_false_iff, Bool.and_eq_false_iff,
    decide_eq_false_iff_not, List.contains_eq_mem, List.mem_cons,
    List.not_mem_nil, or_false, not_or]
  omega

/-- A token before an equals sign stays, whatever follows the sign. -/
theorem Token.trim_append_equals (token : Token) (value : Text) :
    Text.trim (token.text ++ '=' :: value) =
      token.text ++ '=' :: value.rdropWhile Text.isWhitespace := by
  have front :
      (token.text ++ '=' :: value).dropWhile Text.isWhitespace =
        token.text ++ '=' :: value := by
    cases isText : token.text with
    | nil =>
        exact (token.ne_nil isText).elim
    | cons first rest =>
        have plain := token.not_isWhitespace first (by simp [isText])
        simp [plain]
  rw [Text.trim, front, Text.rdropWhile_append_cons (by decide)]

theorem Token.trim (token : Token) : Text.trim token.text = token.text :=
  Text.trim_of_plain token.not_isWhitespace

/-! ## Quoted strings -/

/-- `obs-text` -/
def isObsText (c : Char) : Bool :=
  0x80 ≤ c.toNat && c.toNat ≤ 0xFF

/-- `qdtext` -/
def isQdtext (c : Char) : Bool :=
  c == '\t' || c == ' ' || c == '!' || ('#' ≤ c && c ≤ '[') ||
    (']' ≤ c && c ≤ '~') || isObsText c

/-- A character that may follow a backslash, in `quoted-pair`. -/
def isQuotable (c : Char) : Bool :=
  c == '\t' || (' ' ≤ c && c ≤ '~') || isObsText c

/-- One member of a quoted string. -/
inductive QuotedChar where
  | plain (c : Char)
  | pair (c : Char)

namespace QuotedChar

/-- The member as it is written. -/
def text : QuotedChar → Text
  | .plain c => [c]
  | .pair c => ['\\', c]

/-- The character it stands for. -/
def value : QuotedChar → Char
  | .plain c => c
  | .pair c => c

/-- What the grammar allows. -/
def WellFormed : QuotedChar → Prop
  | .plain c => isQdtext c = true
  | .pair c => isQuotable c = true

end QuotedChar

/-- `quoted-string` -/
structure QuotedString where
  chars : List QuotedChar
  wellFormed : ∀ c ∈ chars, c.WellFormed

namespace QuotedString

/-- What is written between the quotes. -/
def inner (quoted : QuotedString) : Text :=
  quoted.chars.flatMap QuotedChar.text

/-- The string as it is written. -/
def text (quoted : QuotedString) : Text :=
  '"' :: quoted.inner ++ ['"']

/-- What the string says. -/
def value (quoted : QuotedString) : Text :=
  quoted.chars.map QuotedChar.value

end QuotedString

/-- The value of a parameter: a token or a quoted string. -/
inductive ParameterValue where
  | token (content : Token)
  | quoted (content : QuotedString)

namespace ParameterValue

/-- The value as it is written. -/
def text : ParameterValue → Text
  | .token content => content.text
  | .quoted content => content.text

/-- What the value says. -/
def value : ParameterValue → Text
  | .token content => content.text
  | .quoted content => content.value

end ParameterValue

end Quadpod
