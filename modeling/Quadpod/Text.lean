import Mathlib.Data.List.Infix
import Mathlib.Data.List.DropRight

/-!
# Text as a list of characters

The string operations of the Rust standard library that the source uses, over
lists of Unicode scalar values.  Where Rust works on the UTF-8 bytes of a string
(`utf8`), only the injectivity of the encoding is ever needed.
-/

/-- A string: a list of Unicode scalar values. -/
abbrev Text := List Char

namespace Text

/-- `str::strip_prefix` -/
def stripPrefix (lead text : Text) : Option Text :=
  text.dropPrefix? lead

/-- `str::strip_suffix` -/
def stripSuffix (tail text : Text) : Option Text :=
  text.dropSuffix? tail

/-- `str::starts_with` -/
def startsWith (lead text : Text) : Bool :=
  lead.isPrefixOf text

/-- `str::ends_with` -/
def endsWith (tail text : Text) : Bool :=
  tail.isSuffixOf text

/-- `str::split` on one character. -/
def split (separator : Char) (text : Text) : List Text :=
  text.splitOn separator

/-- `str::split_once` on one character. -/
def splitOnce (separator : Char) : Text → Option (Text × Text)
  | [] => none
  | first :: rest =>
      if first = separator then
        some ([], rest)
      else
        (splitOnce separator rest).map fun (before, after) =>
          (first :: before, after)

/-- `char::is_whitespace`: the Unicode property `White_Space`. -/
def isWhitespace (c : Char) : Bool :=
  (0x09 ≤ c.toNat && c.toNat ≤ 0x0D) ||
    (0x2000 ≤ c.toNat && c.toNat ≤ 0x200A) ||
    [0x20, 0x85, 0xA0, 0x1680, 0x2028, 0x2029, 0x202F, 0x205F,
      0x3000].contains c.toNat

/-- `str::trim` -/
def trim (text : Text) : Text :=
  (text.dropWhile isWhitespace).rdropWhile isWhitespace

/-- `str::trim_matches` for one character. -/
def trimMatches (c : Char) (text : Text) : Text :=
  (text.dropWhile (· = c)).rdropWhile (· = c)

/-- `str::split_whitespace`: the maximal runs without white space. -/
def splitWhitespace (text : Text) : List Text :=
  (text.splitOnP isWhitespace).filter (!·.isEmpty)

/-- `str::to_ascii_lowercase`; `Char.toLower` maps ASCII letters only. -/
def toAsciiLowercase (text : Text) : Text :=
  text.map Char.toLower

/-- `str::eq_ignore_ascii_case` -/
def eqIgnoreAsciiCase (first second : Text) : Bool :=
  toAsciiLowercase first == toAsciiLowercase second

/-- The UTF-8 bytes of a text, `str::as_bytes`. -/
def utf8 (text : Text) : List UInt8 :=
  text.flatMap String.utf8EncodeChar

/-- Trimming twice is trimming once. -/
theorem trim_trim (text : Text) : trim (trim text) = trim text := by
  have front :
      ((text.dropWhile isWhitespace).rdropWhile isWhitespace).dropWhile
          isWhitespace =
        (text.dropWhile isWhitespace).rdropWhile isWhitespace := by
    obtain ⟨rest, lead⟩ :=
      List.rdropWhile_prefix isWhitespace (text.dropWhile isWhitespace)
    have stops := List.head?_dropWhile_not isWhitespace text
    rw [← lead] at stops
    cases kept : (text.dropWhile isWhitespace).rdropWhile isWhitespace with
    | nil =>
        rfl
    | cons first others =>
        rw [kept] at stops
        simp only [List.cons_append, List.head?_cons] at stops
        rw [List.dropWhile_cons_of_neg (by simp [stops])]
  rw [trim, trim, front, List.rdropWhile_idempotent]

/-- Texts with the same bytes are the same. -/
theorem utf8_injective : Function.Injective utf8 := by
  intro first second sameBytes
  have sameEncoding : first.utf8Encode = second.utf8Encode :=
    congrArg List.toByteArray sameBytes
  have decoded := List.utf8Decode?_utf8Encode (l := first)
  rw [sameEncoding, List.utf8Decode?_utf8Encode] at decoded
  simpa using decoded.symm

theorem utf8_append (first second : Text) :
    utf8 (first ++ second) = utf8 first ++ utf8 second :=
  List.flatMap_append

theorem stripPrefix_eq_some {lead text rest : Text} :
    stripPrefix lead text = some rest ↔ text = lead ++ rest := by
  rw [stripPrefix, List.dropPrefix?_eq_some_iff]
  simp

theorem stripSuffix_eq_some {tail text rest : Text} :
    stripSuffix tail text = some rest ↔ text = rest ++ tail := by
  rw [stripSuffix, List.dropSuffix?_eq_some_iff]
  simp

theorem stripPrefix_append (lead rest : Text) :
    stripPrefix lead (lead ++ rest) = some rest :=
  stripPrefix_eq_some.mpr rfl

theorem stripSuffix_append (rest tail : Text) :
    stripSuffix tail (rest ++ tail) = some rest :=
  stripSuffix_eq_some.mpr rfl

theorem stripPrefix_eq_none {lead text : Text} :
    stripPrefix lead text = none ↔ ¬ lead <+: text := by
  rw [← Option.not_isSome_iff_eq_none, Option.isSome_iff_exists]
  simp only [stripPrefix_eq_some]
  exact not_congr ⟨fun ⟨rest, shape⟩ => ⟨rest, shape.symm⟩,
    fun ⟨rest, shape⟩ => ⟨rest, shape.symm⟩⟩

theorem stripSuffix_eq_none {tail text : Text} :
    stripSuffix tail text = none ↔ ¬ tail <:+ text := by
  rw [← Option.not_isSome_iff_eq_none, Option.isSome_iff_exists]
  simp only [stripSuffix_eq_some]
  exact not_congr ⟨fun ⟨rest, shape⟩ => ⟨rest, shape.symm⟩,
    fun ⟨rest, shape⟩ => ⟨rest, shape.symm⟩⟩

@[simp] theorem startsWith_iff {lead text : Text} :
    startsWith lead text = true ↔ lead <+: text :=
  List.isPrefixOf_iff_prefix

@[simp] theorem endsWith_iff {tail text : Text} :
    endsWith tail text = true ↔ tail <:+ text :=
  List.isSuffixOf_iff_suffix

/-- Splitting at a separator that occurs splits on both sides of it. -/
theorem split_append_cons (separator : Char) (before after : Text) :
    split separator (before ++ separator :: after) =
      split separator before ++ split separator after :=
  List.splitOn_append_cons_self before after

/-- A text without the separator is one piece. -/
theorem split_of_not_mem
    {separator : Char} {text : Text} (absent : separator ∉ text) :
    split separator text = [text] :=
  List.splitOn_eq_singleton absent

theorem split_ne_nil (separator : Char) (text : Text) :
    split separator text ≠ [] :=
  List.splitOn_ne_nil separator text

/-- No piece of a split contains the separator. -/
theorem not_mem_of_mem_split
    {separator : Char} {text piece : Text}
    (member : piece ∈ split separator text) :
    separator ∉ piece := by
  induction text generalizing piece with
  | nil =>
      have isNil : piece = [] := by
        simpa [split] using member
      simp [isNil]
  | cons first rest inductionHypothesis =>
      rw [split, List.splitOn_cons_eq_if_modifyHead] at member
      by_cases isSeparator : first = separator
      · simp only [isSeparator, beq_self_eq_true, ↓reduceIte,
          List.mem_cons] at member
        rcases member with isNil | inRest
        · simp [isNil]
        · exact inductionHypothesis inRest
      · simp only [beq_eq_false_iff_ne.mpr isSeparator,
          Bool.false_eq_true, ↓reduceIte] at member
        cases pieces : split separator rest with
        | nil =>
            exact (split_ne_nil separator rest pieces).elim
        | cons head tail =>
            rw [show List.splitOn separator rest = head :: tail from pieces,
              List.modifyHead_cons, List.mem_cons] at member
            rcases member with isHead | inTail
            · subst isHead
              have headClean : separator ∉ head :=
                inductionHypothesis (by simp [pieces])
              simp [Ne.symm isSeparator, headClean]
            · exact inductionHypothesis (by simp [pieces, inTail])

/-- The first piece of a split is the text up to the first separator. -/
theorem head?_split (separator : Char) (text : Text) :
    (split separator text).head? =
      some (text.takeWhile (· ≠ separator)) := by
  induction text with
  | nil =>
      simp [split]
  | cons first rest inductionHypothesis =>
      rw [split, List.splitOn_cons_eq_if_modifyHead]
      by_cases isSeparator : first = separator
      · simp [isSeparator]
      · simp only [beq_eq_false_iff_ne.mpr isSeparator,
          Bool.false_eq_true, ↓reduceIte, List.head?_modifyHead]
        rw [show (List.splitOn separator rest).head? = _ from
          inductionHypothesis]
        simp [isSeparator]

/-- A text up to its last separator, which is kept. -/
theorem rdropWhile_ne_append_cons
    {separator : Char} {before after : Text}
    (absent : separator ∉ after) :
    (before ++ separator :: after).rdropWhile (· ≠ separator) =
      before ++ [separator] := by
  induction after using List.reverseRecOn with
  | nil =>
      rw [List.rdropWhile_concat_neg]
      simp
  | append_singleton rest last inductionHypothesis =>
      simp only [List.mem_append, List.mem_singleton, not_or] at absent
      rw [← List.cons_append, ← List.append_assoc,
        List.rdropWhile_concat_pos _ _ _ (by simpa using Ne.symm absent.2)]
      exact inductionHypothesis absent.1

/-- Two texts cut at the first occurrence of a separator are cut alike. -/
theorem append_cons_inj_of_not_mem
    {separator : Char} {first second firstRest secondRest : Text}
    (firstClean : separator ∉ first)
    (secondClean : separator ∉ second)
    (same :
      first ++ separator :: firstRest = second ++ separator :: secondRest) :
    first = second ∧ firstRest = secondRest := by
  induction first generalizing second with
  | nil =>
      cases second with
      | nil =>
          exact ⟨rfl, by simpa using same⟩
      | cons head tail =>
          simp only [List.nil_append, List.cons_append,
            List.cons.injEq] at same
          exact (secondClean (by simp [same.1])).elim
  | cons head tail inductionHypothesis =>
      cases second with
      | nil =>
          simp only [List.nil_append, List.cons_append,
            List.cons.injEq] at same
          exact (firstClean (by simp [same.1])).elim
      | cons otherHead otherTail =>
          simp only [List.cons_append, List.cons.injEq] at same
          simp only [List.mem_cons, not_or] at firstClean secondClean
          obtain ⟨sameTail, sameRest⟩ :=
            inductionHypothesis firstClean.2 secondClean.2 same.2
          exact ⟨by rw [same.1, sameTail], sameRest⟩

end Text
