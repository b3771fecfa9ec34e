import Quadpod.Text

/-!
# Percent-encoding

Decoding an escape gives one byte; anything that is no escape stands for itself,
a lone percent sign too.  Encoding replaces each byte of a set by its escape.
Texts are encoded and decoded as their UTF-8 bytes.
-/

namespace PercentEncoding

/-- `%` -/
def percentByte : UInt8 := 37

/-- `char::to_digit(16)` of an ASCII byte. -/
def hexValue (byte : UInt8) : Option UInt8 :=
  if 48 ≤ byte ∧ byte ≤ 57 then
    some (byte - 48)
  else if 65 ≤ byte ∧ byte ≤ 70 then
    some (byte - 55)
  else if 97 ≤ byte ∧ byte ≤ 102 then
    some (byte - 87)
  else
    none

/-- The byte two digits stand for, when both are digits. -/
def escaped (high low : UInt8) : Option UInt8 :=
  match hexValue high, hexValue low with
  | some high, some low => some (high * 16 + low)
  | _, _ => none

/-- `percent_encoding::percent_decode` -/
def decode : List UInt8 → List UInt8
  | byte :: high :: low :: rest =>
      match if byte = percentByte then escaped high low else none with
      | some value => value :: decode rest
      | none => byte :: decode (high :: low :: rest)
  | short => short

/-- The bytes hold a percent sign followed by two digits. -/
def HasEscape (bytes : List UInt8) : Prop :=
  ∃ before high low after,
    bytes = before ++ percentByte :: high :: low :: after ∧
      (escaped high low).isSome = true

/-! ## What decoding keeps -/

/-- A byte that starts no escape stands for itself. -/
theorem decode_cons_of_noEscape {byte : UInt8} (rest : List UInt8)
    (noEscape :
      byte = percentByte →
      ∀ high low tail,
        rest = high :: low :: tail → escaped high low = none) :
    decode (byte :: rest) = byte :: decode rest := by
  match rest with
  | [] =>
      rfl
  | [_] =>
      rfl
  | high :: low :: tail =>
      rw [decode]
      split
      · next value isEscape =>
          split at isEscape
          · next isPercent =>
              rw [noEscape isPercent high low tail rfl] at isEscape
              cases isEscape
          · cases isEscape
      · rfl

theorem decode_cons_of_ne {byte : UInt8} (rest : List UInt8)
    (notPercent : byte ≠ percentByte) :
    decode (byte :: rest) = byte :: decode rest :=
  decode_cons_of_noEscape rest fun isPercent => (notPercent isPercent).elim

theorem decode_escape {high low value : UInt8} (rest : List UInt8)
    (isEscape : escaped high low = some value) :
    decode (percentByte :: high :: low :: rest) = value :: decode rest := by
  rw [decode, if_pos rfl, isEscape]

theorem length_decode_le (bytes : List UInt8) :
    (decode bytes).length ≤ bytes.length := by
  fun_induction decode bytes with
  | case1 byte high low rest value isEscape inductionHypothesis =>
      simp only [List.length_cons]
      omega
  | case2 byte high low rest noEscape inductionHypothesis =>
      simp only [List.length_cons] at inductionHypothesis ⊢
      omega
  | case3 short isShort =>
      exact Nat.le_refl _

theorem escaped_eq_none_of_high {high : UInt8} (low : UInt8)
    (notDigit : hexValue high = none) : escaped high low = none := by
  rw [escaped, notDigit]

theorem escaped_eq_none_of_low (high : UInt8) {low : UInt8}
    (notDigit : hexValue low = none) : escaped high low = none := by
  rw [escaped, notDigit]
  cases hexValue high with
  | none =>
      rfl
  | some value =>
      rfl

/-- Decoding changes something exactly where there is an escape. -/
theorem decode_eq_self_iff (bytes : List UInt8) :
    decode bytes = bytes ↔ ¬ HasEscape bytes := by
  fun_induction decode bytes with
  | case1 byte high low rest value isEscape inductionHypothesis =>
      have shorter := length_decode_le rest
      constructor
      · intro same
        have lengths := congrArg List.length same
        simp only [List.length_cons] at lengths
        omega
      · intro noEscape
        split at isEscape
        · next isPercent =>
            subst isPercent
            exact (noEscape ⟨[], high, low, rest, rfl, by
              rw [isEscape]; rfl⟩).elim
        · cases isEscape
  | case2 byte high low rest noEscape inductionHypothesis =>
      rw [List.cons.injEq, and_iff_right rfl, inductionHypothesis,
        not_iff_not]
      constructor
      · rintro ⟨before, first, second, after, shape, isEscape⟩
        exact ⟨byte :: before, first, second, after, by rw [shape]; rfl,
          isEscape⟩
      · rintro ⟨before, first, second, after, shape, isEscape⟩
        cases before with
        | nil =>
            cases shape
            rw [if_pos rfl] at noEscape
            rw [noEscape] at isEscape
            cases isEscape
        | cons head tail =>
            rw [List.cons_append, List.cons.injEq] at shape
            exact ⟨tail, first, second, after, shape.2, isEscape⟩
  | case3 short isShort =>
      refine iff_of_true rfl ?_
      rintro ⟨before, high, low, after, shape, _⟩
      cases before with
      | nil =>
          exact isShort _ _ _ _ shape
      | cons head tail =>
          cases tail with
          | nil =>
              exact isShort _ _ _ _ shape
          | cons next rest =>
              cases rest with
              | nil =>
                  exact isShort _ _ _ _ shape
              | cons third others =>
                  exact isShort _ _ _ _ shape

/-- A byte that is part of no escape is a border of decoding. -/
theorem decode_append_cons
    {border : UInt8} (before after : List UInt8)
    (notPercent : border ≠ percentByte)
    (notDigit : hexValue border = none) :
    decode (before ++ border :: after) =
      decode before ++ border :: decode after := by
  fun_induction decode before with
  | case1 byte high low rest value isEscape inductionHypothesis =>
      simp only [List.cons_append]
      rw [decode, isEscape]
      exact congrArg (List.cons value) inductionHypothesis
  | case2 byte high low rest noEscape inductionHypothesis =>
      simp only [List.cons_append]
      rw [decode, noEscape]
      exact congrArg (List.cons byte) inductionHypothesis
  | case3 short isShort =>
      have single :
          ∀ byte,
            decode (byte :: border :: after) =
              byte :: border :: decode after := by
        intro byte
        rw [decode_cons_of_noEscape, decode_cons_of_ne after notPercent]
        rintro _ high low tail ⟨⟩
        exact escaped_eq_none_of_high _ notDigit
      match short with
      | [] =>
          exact decode_cons_of_ne after notPercent
      | [byte] =>
          exact single byte
      | [byte, next] =>
          change decode (byte :: next :: border :: after) = _
          rw [decode_cons_of_noEscape, single next]
          · rfl
          · rintro _ high low tail ⟨⟩
            exact escaped_eq_none_of_low _ notDigit
      | byte :: high :: low :: rest =>
          exact (isShort byte high low rest rfl).elim

/-! ## Texts -/

/-- `String::from_utf8` -/
def fromUtf8 (bytes : List UInt8) : Option Text :=
  bytes.toByteArray.utf8Decode?.map Array.toList

theorem fromUtf8_eq_some {bytes : List UInt8} {text : Text} :
    fromUtf8 bytes = some text ↔ bytes = Text.utf8 text := by
  constructor
  · intro decodes
    obtain ⟨characters, isSome, rfl⟩ := Option.map_eq_some_iff.mp decodes
    have encodes :=
      @ByteArray.utf8Encode_get_utf8Decode? bytes.toByteArray
        (by rw [isSome]; rfl)
    simp only [isSome, Option.get_some] at encodes
    exact List.toByteArray_inj.mp encodes.symm
  · rintro rfl
    rw [fromUtf8, Text.utf8]
    change Option.map _ text.utf8Encode.utf8Decode? = _
    rw [List.utf8Decode?_utf8Encode]
    rfl

/-- `percent_decode(..).decode_utf8()` -/
def decodeText (text : Text) : Option Text :=
  fromUtf8 (decode (Text.utf8 text))

theorem decodeText_eq_some {text decoded : Text} :
    decodeText text = some decoded ↔
      decode (Text.utf8 text) = Text.utf8 decoded :=
  fromUtf8_eq_some

/-! ## Encoding -/

/-- The digit of a value below sixteen, in upper case. -/
def hexDigit (value : UInt8) : UInt8 :=
  if value < 10 then value + 48 else value + 55

/-- A byte, escaped if it is in the set. -/
def encodeByte (encodeSet : UInt8 → Bool) (byte : UInt8) : List UInt8 :=
  if encodeSet byte then
    [percentByte, hexDigit (byte / 16), hexDigit (byte % 16)]
  else
    [byte]

/-- `percent_encoding::percent_encode` -/
def encode (encodeSet : UInt8 → Bool) (bytes : List UInt8) : List UInt8 :=
  bytes.flatMap (encodeByte encodeSet)

theorem escaped_hexDigit (byte : UInt8) :
    escaped (hexDigit (byte / 16)) (hexDigit (byte % 16)) = some byte := by
  obtain ⟨⟨⟨value, small⟩⟩⟩ := byte
  revert value
  decide +kernel

/-- A set that leaves the escapes of a text as they are. -/
def KeepsEscapes (encodeSet : UInt8 → Bool) : Prop :=
  ∀ byte,
    encodeSet byte = true → byte ≠ percentByte ∧ hexValue byte = none

variable {encodeSet : UInt8 → Bool}

theorem encode_cons (byte : UInt8) (rest : List UInt8) :
    encode encodeSet (byte :: rest) =
      encodeByte encodeSet byte ++ encode encodeSet rest :=
  rfl

/-- No escape begins before the encoding of what began none. -/
theorem escaped_encode_eq_none
    {rest : List UInt8}
    (noEscape :
      ∀ high low tail,
        rest = high :: low :: tail → escaped high low = none)
    {high low : UInt8} {tail : List UInt8}
    (shape : encode encodeSet rest = high :: low :: tail) :
    escaped high low = none := by
  have percentFirst : hexValue percentByte = none := by decide
  cases rest with
  | nil =>
      cases shape
  | cons first others =>
      rw [encode_cons, encodeByte] at shape
      split at shape
      · cases shape
        exact escaped_eq_none_of_high _ percentFirst
      · cases others with
        | nil =>
            cases shape
        | cons second rest =>
            rw [encode_cons, encodeByte] at shape
            split at shape
            · cases shape
              exact escaped_eq_none_of_low _ percentFirst
            · cases shape
              exact noEscape _ _ _ rfl

/-- A byte that starts no escape is decoded from its own encoding. -/
theorem decode_encode_cons
    {byte : UInt8} {rest : List UInt8}
    (noEscape :
      byte = percentByte →
      ∀ high low tail,
        rest = high :: low :: tail → escaped high low = none) :
    decode (encode encodeSet (byte :: rest)) =
      byte :: decode (encode encodeSet rest) := by
  rw [encode_cons, encodeByte]
  split
  · exact decode_escape _ (escaped_hexDigit byte)
  · refine decode_cons_of_noEscape _ fun isPercent high low tail shape => ?_
    exact escaped_encode_eq_none (noEscape isPercent) shape

namespace KeepsEscapes

theorem encodeByte_eq (keeps : KeepsEscapes encodeSet) {byte : UInt8}
    (isPart : byte = percentByte ∨ hexValue byte ≠ none) :
    encodeByte encodeSet byte = [byte] := by
  rw [encodeByte, if_neg]
  intro inSet
  obtain ⟨notPercent, notDigit⟩ := keeps byte inSet
  rcases isPart with isPercent | isDigit
  · exact notPercent isPercent
  · exact isDigit notDigit

/-- The three bytes of an escape are kept. -/
theorem encode_escape (keeps : KeepsEscapes encodeSet)
    {high low value : UInt8} (rest : List UInt8)
    (isEscape : escaped high low = some value) :
    encode encodeSet (percentByte :: high :: low :: rest) =
      percentByte :: high :: low :: encode encodeSet rest := by
  have highDigit : hexValue high ≠ none := by
    intro notDigit
    rw [escaped_eq_none_of_high low notDigit] at isEscape
    cases isEscape
  have lowDigit : hexValue low ≠ none := by
    intro notDigit
    rw [escaped_eq_none_of_low high notDigit] at isEscape
    cases isEscape
  rw [encode_cons, encode_cons, encode_cons,
    keeps.encodeByte_eq (Or.inl rfl), keeps.encodeByte_eq (Or.inr highDigit),
    keeps.encodeByte_eq (Or.inr lowDigit)]
  rfl

end KeepsEscapes

/-- Encoding is undone by decoding, and adds nothing to it. -/
theorem decode_encode
    (keeps : KeepsEscapes encodeSet) (bytes : List UInt8) :
    decode (encode encodeSet bytes) = decode bytes := by
  fun_induction decode bytes with
  | case1 byte high low rest value isEscape inductionHypothesis =>
      split at isEscape
      · next isPercent =>
          subst isPercent
          rw [keeps.encode_escape rest isEscape, decode_escape _ isEscape,
            inductionHypothesis]
      · cases isEscape
  | case2 byte high low rest noEscape inductionHypothesis =>
      rw [decode_encode_cons, inductionHypothesis]
      rintro rfl first second tail ⟨⟩
      rwa [if_pos rfl] at noEscape
  | case3 short isShort =>
      match short with
      | [] =>
          rfl
      | [byte] =>
          rw [decode_encode_cons]
          · rfl
          · rintro _ _ _ _ ⟨⟩
      | [byte, next] =>
          rw [decode_encode_cons, decode_encode_cons]
          · rfl
          · rintro _ _ _ _ ⟨⟩
          · rintro _ _ _ _ ⟨⟩
      | byte :: high :: low :: rest =>
          exact (isShort byte high low rest rfl).elim

end PercentEncoding
