import Quadpod.Text

/-!
# The pieces of a text

A text cut at its separators, with the place of each piece: what stands before
it ends with a separator, unless it is empty, and what stands after it begins
with one.
-/

/-- A piece of a text between separators, and what stands around it. -/
structure TextPiece (isSeparator : Char → Bool) (text : Text) where
  before : Text
  piece : Text
  after : Text
  isText : text = before ++ (piece ++ after)
  clean : ∀ c ∈ piece, isSeparator c = false
  opens :
    before = [] ∨ ∃ front c, before = front ++ [c] ∧ isSeparator c = true
  closes : after = [] ∨ ∃ c back, after = c :: back ∧ isSeparator c = true

namespace TextPiece

variable {isSeparator : Char → Bool}

/-- A text without separators is its only piece. -/
def whole {text : Text} (clean : ∀ c ∈ text, isSeparator c = false) :
    TextPiece isSeparator text where
  before := []
  piece := text
  after := []
  isText := by simp
  clean := clean
  opens := Or.inl rfl
  closes := Or.inl rfl

/-- The piece before the first separator. -/
def first {lead rest : Text} {c : Char}
    (clean : ∀ c ∈ lead, isSeparator c = false)
    (separates : isSeparator c = true) :
    TextPiece isSeparator (lead ++ c :: rest) where
  before := []
  piece := lead
  after := c :: rest
  isText := rfl
  clean := clean
  opens := Or.inl rfl
  closes := Or.inr ⟨c, rest, rfl, separates⟩

/-- A piece of what follows a separator. -/
def later (lead : Text) {rest : Text} {c : Char}
    (separates : isSeparator c = true) (found : TextPiece isSeparator rest) :
    TextPiece isSeparator (lead ++ c :: rest) where
  before := lead ++ c :: found.before
  piece := found.piece
  after := found.after
  isText := by
    have isText := found.isText
    simp [← isText]
  clean := found.clean
  opens := by
    refine Or.inr ?_
    obtain isNil | ⟨front, last, isBefore, isLast⟩ := found.opens
    · exact ⟨lead, c, by rw [isNil], separates⟩
    · exact ⟨lead ++ c :: front, last, by simp [isBefore], isLast⟩
  closes := found.closes

/-- A text is without separators, or has a first one. -/
theorem clean_or_cut (isSeparator : Char → Bool) (text : Text) :
    (∀ c ∈ text, isSeparator c = false) ∨
      ∃ lead c rest,
        text = lead ++ c :: rest ∧
          (∀ c ∈ lead, isSeparator c = false) ∧
          isSeparator c = true := by
  induction text with
  | nil =>
      exact Or.inl (by simp)
  | cons head tail inductionHypothesis =>
      cases separates : isSeparator head with
      | true =>
          exact Or.inr ⟨[], head, tail, rfl, by simp, separates⟩
      | false =>
          obtain clean | ⟨lead, c, rest, rfl, clean, isCut⟩ :=
            inductionHypothesis
          · exact Or.inl (by simpa [separates] using clean)
          · exact Or.inr ⟨head :: lead, c, rest, rfl,
              by simpa [separates] using clean, isCut⟩

/-- Every member of a split is a piece. -/
theorem exists_of_mem_splitOnP
    {text piece : Text} (member : piece ∈ text.splitOnP isSeparator) :
    ∃ found : TextPiece isSeparator text, found.piece = piece := by
  induction isLength : text.length using Nat.strong_induction_on
    generalizing text with
  | _ length inductionHypothesis =>
      obtain clean | ⟨lead, c, rest, rfl, clean, separates⟩ :=
        clean_or_cut isSeparator text
      · rw [List.splitOnP_eq_singleton clean, List.mem_singleton] at member
        exact ⟨whole clean, member.symm⟩
      · rw [List.splitOnP_append_cons_of_forall_mem clean c separates,
          List.mem_cons] at member
        obtain isFirst | inRest := member
        · exact ⟨first clean separates, isFirst.symm⟩
        · obtain ⟨found, isPiece⟩ :=
            inductionHypothesis rest.length (by simp [← isLength]; omega)
              inRest rfl
          exact ⟨found.later lead separates, isPiece⟩

/-- Every piece is a member of the split. -/
theorem mem_splitOnP
    {text : Text} (found : TextPiece isSeparator text) :
    found.piece ∈ text.splitOnP isSeparator := by
  obtain ⟨before, piece, after, rfl, clean, opens, closes⟩ := found
  have inRest : piece ∈ (piece ++ after).splitOnP isSeparator := by
    obtain rfl | ⟨c, back, rfl, separates⟩ := closes
    · rw [List.append_nil, List.splitOnP_eq_singleton clean]
      exact List.mem_singleton_self _
    · rw [List.splitOnP_append_cons_of_forall_mem clean c separates]
      exact List.mem_cons_self
  obtain rfl | ⟨front, c, rfl, separates⟩ := opens
  · exact inRest
  · change piece ∈ (front ++ [c] ++ (piece ++ after)).splitOnP isSeparator
    rw [List.append_assoc, List.singleton_append,
      List.splitOnP_append_cons _ _ separates]
    exact List.mem_append_right _ inRest

/-- The members of a split are the pieces. -/
theorem mem_split_iff {separator : Char} {text piece : Text} :
    piece ∈ Text.split separator text ↔
      ∃ found : TextPiece (· == separator) text, found.piece = piece := by
  constructor
  · exact exists_of_mem_splitOnP
  · rintro ⟨found, rfl⟩
    exact found.mem_splitOnP

/-- The words of a text are its pieces between white space. -/
theorem mem_splitWhitespace_iff {text word : Text} :
    word ∈ Text.splitWhitespace text ↔
      word ≠ [] ∧
        ∃ found : TextPiece Text.isWhitespace text, found.piece = word := by
  rw [Text.splitWhitespace, List.mem_filter, and_comm]
  refine and_congr (by simp) ⟨exists_of_mem_splitOnP, ?_⟩
  rintro ⟨found, rfl⟩
  exact found.mem_splitOnP

end TextPiece
