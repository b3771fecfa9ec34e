import Quadpod.PercentEncoding

/-!
# Path normalization of URLs

The path of a URL with a special scheme, as the URL standard parses it: a
backslash separates like a slash, dot segments are resolved also when their dots
are percent-encoded, and what is left is percent-encoded.  A path without dot
segments and backslashes is only percent-encoded.
-/

namespace UrlNormalization

open PercentEncoding

/-! ## The normal form -/

/-- The single-dot segments. -/
def singleDots : List Text :=
  [".".toList, "%2e".toList, "%2E".toList]

/-- The double-dot segments: two dots, each plain or percent-encoded. -/
def doubleDots : List Text :=
  singleDots.flatMap fun first => singleDots.map (first ++ ·)

/-- The path percent-encode set, of bytes. -/
def pathSet (byte : UInt8) : Bool :=
  byte ≤ 0x20 || 0x7E < byte ||
    [0x22, 0x23, 0x3C, 0x3E, 0x3F, 0x5E, 0x60, 0x7B, 0x7D].contains byte

/-- A backslash of a special URL is read as a slash. -/
def foldSlashes (text : Text) : Text :=
  text.map fun c => if c = '\\' then '/' else c

/-- One segment, after the segments done, the last one first. -/
def resolveSegment
    (done : List (List UInt8)) (segment : Text) (isLast : Bool) :
    List (List UInt8) :=
  if doubleDots.contains segment then
    if isLast then [] :: done.tail else done.tail
  else if singleDots.contains segment then
    if isLast then [] :: done else done
  else
    encode pathSet (Text.utf8 segment) :: done

/-- The segments left, the last one first. -/
def resolveSegments : List (List UInt8) → List Text → List (List UInt8)
  | done, [] => done
  | done, segment :: rest =>
      resolveSegments (resolveSegment done segment rest.isEmpty) rest

/-- The segments after a slash each. -/
def joined (segments : List (List UInt8)) : List UInt8 :=
  segments.flatMap (47 :: ·)

/-- The bytes of the path of a special URL, from the text between its authority
and its query. -/
def normalizePath (path : Text) : List UInt8 :=
  joined (resolveSegments [] (Text.split '/' (foldSlashes path)).tail).reverse

/-! ## ASCII in UTF-8 -/

/-- An ASCII byte is the whole encoding of its character. -/
theorem eq_of_mem_utf8EncodeChar {c : Char} {byte : UInt8}
    (member : byte ∈ String.utf8EncodeChar c) (ascii : byte.toNat < 128) :
    c.toNat = byte.toNat := by
  unfold String.utf8EncodeChar at member
  dsimp only at member
  split at member
  · next single =>
      rw [List.mem_singleton] at member
      rw [member, UInt8.toNat_ofNat']
      change c.val.toNat = _
      omega
  · exfalso
    split at member
    · simp only [List.mem_cons, List.not_mem_nil, or_false] at member
      rcases member with rfl | rfl <;> rw [UInt8.toNat_ofNat'] at ascii <;>
        omega
    · split at member
      · simp only [List.mem_cons, List.not_mem_nil, or_false] at member
        rcases member with rfl | rfl | rfl <;>
          rw [UInt8.toNat_ofNat'] at ascii <;> omega
      · simp only [List.mem_cons, List.not_mem_nil, or_false] at member
        rcases member with rfl | rfl | rfl | rfl <;>
          rw [UInt8.toNat_ofNat'] at ascii <;> omega

theorem utf8EncodeChar_of_ascii {c : Char} (ascii : c.toNat < 128) :
    String.utf8EncodeChar c = [UInt8.ofNat c.toNat] := by
  unfold String.utf8EncodeChar
  dsimp only
  rw [if_pos]
  · rfl
  · change c.val.toNat < 128 at ascii
    omega

/-- An ASCII byte of a text is a character of it. -/
theorem mem_utf8_iff {text : Text} {c : Char} (ascii : c.toNat < 128) :
    UInt8.ofNat c.toNat ∈ Text.utf8 text ↔ c ∈ text := by
  rw [Text.utf8, List.mem_flatMap]
  constructor
  · rintro ⟨other, member, isByte⟩
    have same := eq_of_mem_utf8EncodeChar isByte
      (by rw [UInt8.toNat_ofNat']; omega)
    rw [UInt8.toNat_ofNat', Nat.mod_eq_of_lt (by omega)] at same
    rw [← Char.toNat_inj.mp same]
    exact member
  · intro member
    refine ⟨c, member, ?_⟩
    rw [utf8EncodeChar_of_ascii ascii]
    exact List.mem_singleton_self _

theorem slash_utf8 : String.utf8EncodeChar '/' = [47] :=
  utf8EncodeChar_of_ascii (by decide)

/-! ## Segments -/

/-- The bytes of a text are cut at slashes as the text is. -/
theorem splitOn_utf8 (text : Text) :
    (Text.utf8 text).splitOn 47 = (Text.split '/' text).map Text.utf8 := by
  induction length : text.length using Nat.strong_induction_on
    generalizing text with
  | h bound inductionHypothesis =>
      by_cases member : '/' ∈ text
      · obtain ⟨before, after, rfl⟩ := List.append_of_mem member
        rw [List.length_append, List.length_cons] at length
        have isBytes :
            Text.utf8 (before ++ '/' :: after) =
              Text.utf8 before ++ 47 :: Text.utf8 after := by
          rw [Text.utf8_append, Text.utf8, Text.utf8, Text.utf8,
            List.flatMap_cons, slash_utf8]
          rfl
        rw [isBytes, List.splitOn_append_cons_self, Text.split_append_cons,
          List.map_append,
          inductionHypothesis before.length (by omega) before rfl,
          inductionHypothesis after.length (by omega) after rfl]
      · have absent : (47 : UInt8) ∉ Text.utf8 text := fun inBytes =>
          member ((mem_utf8_iff (c := '/') (by decide)).mp inBytes)
        rw [List.splitOn_eq_singleton absent, Text.split_of_not_mem member]
        rfl

/-- Decoding leaves the slashes, and may add some within a segment. -/
theorem splitOn_decode (bytes : List UInt8) :
    (decode bytes).splitOn 47 =
      (bytes.splitOn 47).flatMap fun segment =>
        (decode segment).splitOn 47 := by
  induction length : bytes.length using Nat.strong_induction_on
    generalizing bytes with
  | h bound inductionHypothesis =>
      by_cases member : (47 : UInt8) ∈ bytes
      · obtain ⟨before, after, rfl⟩ := List.append_of_mem member
        rw [List.length_append, List.length_cons] at length
        rw [decode_append_cons before after (by decide) (by decide),
          List.splitOn_append_cons_self, List.splitOn_append_cons_self,
          List.flatMap_append,
          inductionHypothesis before.length (by omega) before rfl,
          inductionHypothesis after.length (by omega) after rfl]
      · rw [List.splitOn_eq_singleton member, List.flatMap_singleton]

/-- What a segment decodes to is cut into segments of the decoded text. -/
theorem mem_split_of_decode
    {wire path segment piece : Text}
    (decodes : decode (Text.utf8 wire) = Text.utf8 path)
    (member : segment ∈ Text.split '/' wire)
    (isPiece : decode (Text.utf8 segment) = Text.utf8 piece)
    (slashFree : '/' ∉ piece) :
    piece ∈ Text.split '/' path := by
  have pieces := splitOn_decode (Text.utf8 wire)
  rw [decodes, splitOn_utf8, splitOn_utf8] at pieces
  have inPath :
      Text.utf8 piece ∈ (Text.split '/' path).map Text.utf8 := by
    rw [pieces, List.mem_flatMap]
    refine ⟨Text.utf8 segment, List.mem_map_of_mem member, ?_⟩
    rw [isPiece, splitOn_utf8, Text.split_of_not_mem slashFree]
    exact List.mem_singleton_self _
  obtain ⟨same, inSplit, isSame⟩ := List.mem_map.mp inPath
  rw [← Text.utf8_injective isSame]
  exact inSplit

/-- A character that takes no part in an escape is kept by decoding. -/
theorem mem_of_decode
    {wire path : Text} {c : Char}
    (decodes : decode (Text.utf8 wire) = Text.utf8 path)
    (ascii : c.toNat < 128) (notPercent : c ≠ '%')
    (notDigit : hexValue (UInt8.ofNat c.toNat) = none)
    (member : c ∈ wire) :
    c ∈ path := by
  have isBorder : UInt8.ofNat c.toNat ≠ percentByte := by
    intro same
    have numbers := congrArg UInt8.toNat same
    rw [UInt8.toNat_ofNat', Nat.mod_eq_of_lt (by omega)] at numbers
    exact notPercent (Char.toNat_inj.mp numbers)
  have inBytes := (mem_utf8_iff ascii).mpr member
  obtain ⟨before, after, isBytes⟩ := List.append_of_mem inBytes
  rw [isBytes, decode_append_cons before after isBorder notDigit] at decodes
  refine (mem_utf8_iff ascii).mp ?_
  rw [← decodes]
  exact List.mem_append_right _ List.mem_cons_self

/-! ## Paths without dot segments -/

theorem decode_of_singleDots :
    ∀ segment ∈ singleDots,
      decode (Text.utf8 segment) = Text.utf8 ".".toList := by
  decide

theorem decode_of_doubleDots :
    ∀ segment ∈ doubleDots,
      decode (Text.utf8 segment) = Text.utf8 "..".toList := by
  decide

theorem pathSet_keepsEscapes : KeepsEscapes pathSet := by
  intro byte
  obtain ⟨⟨⟨value, small⟩⟩⟩ := byte
  revert value
  decide +kernel

/-- Before more segments, none is the last. -/
theorem exists_resolveSegments_append
    (done : List (List UInt8)) (front : List Text) :
    ∃ between, ∀ back, back ≠ [] →
      resolveSegments done (front ++ back) = resolveSegments between back := by
  induction front generalizing done with
  | nil =>
      exact ⟨done, fun back _ => rfl⟩
  | cons segment rest inductionHypothesis =>
      obtain ⟨between, resolves⟩ :=
        inductionHypothesis (resolveSegment done segment false)
      refine ⟨between, fun back nonempty => ?_⟩
      have notLast : (rest ++ back).isEmpty = false := by
        simp [nonempty]
      rw [List.cons_append, resolveSegments, notLast, resolves back nonempty]

/-- Where no segment is a dot segment, each is encoded. -/
theorem resolveSegments_of_noDots
    {segments : List Text}
    (noDots :
      ∀ segment ∈ segments, segment ∉ singleDots ∧ segment ∉ doubleDots)
    (done : List (List UInt8)) :
    resolveSegments done segments =
      (segments.map fun segment =>
        encode pathSet (Text.utf8 segment)).reverse ++ done := by
  induction segments generalizing done with
  | nil =>
      rfl
  | cons segment rest inductionHypothesis =>
      obtain ⟨notSingle, notDouble⟩ := noDots segment List.mem_cons_self
      rw [← List.contains_iff_mem] at notSingle notDouble
      rw [resolveSegments, resolveSegment, if_neg notDouble, if_neg notSingle,
        inductionHypothesis fun other member =>
          noDots other (List.mem_cons_of_mem _ member)]
      simp

theorem joined_append (first second : List (List UInt8)) :
    joined (first ++ second) = joined first ++ joined second :=
  List.flatMap_append

theorem encode_slash (rest : Text) :
    encode pathSet (Text.utf8 ('/' :: rest)) =
      47 :: encode pathSet (Text.utf8 rest) := by
  have kept : encodeByte pathSet 47 = [47] := by decide
  rw [Text.utf8, List.flatMap_cons, slash_utf8]
  change encodeByte pathSet 47 ++ encode pathSet (Text.utf8 rest) = _
  rw [kept]
  rfl

/-- Encoded segments after a slash each are the encoded path. -/
theorem joined_encode (rest : Text) :
    joined ((Text.split '/' rest).map fun segment =>
      encode pathSet (Text.utf8 segment)) =
        encode pathSet (Text.utf8 ('/' :: rest)) := by
  induction length : rest.length using Nat.strong_induction_on
    generalizing rest with
  | h bound inductionHypothesis =>
      by_cases member : '/' ∈ rest
      · obtain ⟨before, after, rfl⟩ := List.append_of_mem member
        rw [List.length_append, List.length_cons] at length
        rw [Text.split_append_cons, List.map_append, joined_append,
          inductionHypothesis before.length (by omega) before rfl,
          inductionHypothesis after.length (by omega) after rfl,
          ← List.cons_append, Text.utf8_append, encode, encode, encode,
          List.flatMap_append]
      · rw [Text.split_of_not_mem member, encode_slash]
        exact List.append_nil _

/--
Below any path, a path without backslashes and dot segments is only
percent-encoded.
-/
theorem exists_normalizePath_below (basePath : Text) :
    ∃ front, ∀ rest : Text,
      '\\' ∉ rest →
        (∀ segment ∈ Text.split '/' rest,
          segment ∉ singleDots ∧ segment ∉ doubleDots) →
          normalizePath (basePath ++ '/' :: rest) =
            front ++ encode pathSet (Text.utf8 ('/' :: rest)) := by
  obtain ⟨between, resolves⟩ :=
    exists_resolveSegments_append []
      (Text.split '/' (foldSlashes basePath)).tail
  refine ⟨joined between.reverse, fun rest noBackslash noDots => ?_⟩
  have unfolded :
      foldSlashes (basePath ++ '/' :: rest) =
        foldSlashes basePath ++ '/' :: rest := by
    rw [foldSlashes, foldSlashes, List.map_append, List.map_cons]
    have kept : rest.map (fun c => if c = '\\' then '/' else c) = rest := by
      refine (List.map_congr_left fun c member => ?_).trans rest.map_id
      rw [if_neg]
      · rfl
      · rintro rfl
        exact noBackslash member
    rw [kept]
    rfl
  rw [normalizePath, unfolded, Text.split_append_cons,
    List.tail_append_of_ne_nil (Text.split_ne_nil _ _),
    resolves _ (Text.split_ne_nil _ _), resolveSegments_of_noDots noDots,
    List.reverse_append, List.reverse_reverse, joined_append, joined_encode]

end UrlNormalization
