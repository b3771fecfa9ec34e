import Quadpod.AccessToken
import Quadpod.ReferencePod

namespace Quadpod

/-!
# Credentials to evaluate

Concrete instances for the libraries credentials are read with, and credentials
to read with them.  Base64url and JSON are decoded as the documents here need it;
a digest is what is hashed.  A signature is checked against the ones that the two
keys of these credentials made: the tokens carry the ES256 signatures themselves.
-/

namespace Reference

/-- The thumbprint of the client's key. -/
def jkt : Text :=
  "zpdFevDM29lGxcezzQZu8_".toList ++ "etW8CGGxDFGsS2s9L8JTs".toList

/-- An access token for the owner, signed by the issuer's key. -/
def accessToken : Text :=
  "eyJhbGciOiJFUzI1NiIsIm".toList ++ "tpZCI6ImsxIn0.eyJpc3Mi".toList ++
    "OiJodHRwczovL2lkcC5leG".toList ++ "FtcGxlLyIsIndlYmlkIjoi".toList ++
    "aHR0cHM6Ly9pZC5leGFtcG".toList ++ "xlL21lIiwiYXVkIjoic29s".toList ++
    "aWQiLCJleHAiOjk5OTk5OT".toList ++ "k5OTksImNuZiI6eyJqa3Qi".toList ++
    "OiJ6cGRGZXZETTI5bEd4Y2".toList ++ "V6elFadThfZXRXOENHR3hE".toList ++
    "RkdzUzJzOUw4SlRzIn19.K".toList ++ "eVXcm_DiN3oqcAbPoFx0FW".toList ++
    "AAE-PTQUuUw4KbJoMCcMep".toList ++ "iLHLqNrZSNO1Fhq_9Bthes".toList ++
    "IGVSR5bXkNi8V-uYuIw".toList

/-- The header of every proof here, which carries the client's key. -/
def proofHeader : Text :=
  "eyJ0eXAiOiJkcG9wK2p3dC".toList ++ "IsImFsZyI6IkVTMjU2Iiwi".toList ++
    "andrIjp7Imt0eSI6IkVDIi".toList ++ "wiY3J2IjoiUC0yNTYiLCJ4".toList ++
    "IjoibXJhc2VPV1AteVgzY0".toList ++ "1EZUF6Y3JtVjY1OXlHaHdC".toList ++
    "Skt2dDFlOENZVlR3MCIsIn".toList ++ "kiOiI4c2NXWWFjbUFhYm9o".toList ++
    "d2RidVFZc3NzS212VWtyVG".toList ++ "s2V3VsZ0dULWZOcGs0In19.".toList

/-- A proof for a `GET` of `/note`, signed by the client's key. -/
def firstProof : Text :=
  proofHeader ++ "eyJqdGkiOiJqdGktYSIsIm".toList ++
    "h0bSI6IkdFVCIsImh0dSI6".toList ++ "Imh0dHBzOi8vcG9kLmV4YW".toList ++
    "1wbGUvbm90ZSIsImlhdCI6".toList ++ "MTAwMH0.b33cgWazgXFmdP".toList ++
    "JUlUwr534MOTpm9yFVhqB2".toList ++ "8bEGiMqc9G2mgsZ7OW-WvL".toList ++
    "41M2OKz_BIKOSiBNJYtERx".toList ++ "L0NR5Q".toList

/-- Another proof for it, a hundred seconds later. -/
def secondProof : Text :=
  proofHeader ++ "eyJqdGkiOiJqdGktYiIsIm".toList ++
    "h0bSI6IkdFVCIsImh0dSI6".toList ++ "Imh0dHBzOi8vcG9kLmV4YW".toList ++
    "1wbGUvbm90ZSIsImlhdCI6".toList ++ "MTEwMH0.AkJyXXNhotI6OO".toList ++
    "Eg92-XNm6v-a03xu2rn3rx".toList ++ "nDMaxbsdYyiD23bY72g6XF".toList ++
    "nOpR_y4iZlJEsi_EZdOD9A".toList ++ "ZerUYg".toList

/-- A proof for a `PUT` of `/note`, signed by the client's key. -/
def putProof : Text :=
  proofHeader ++ "eyJqdGkiOiJqdGktYyIsIm".toList ++
    "h0bSI6IlBVVCIsImh0dSI6".toList ++ "Imh0dHBzOi8vcG9kLmV4YW".toList ++
    "1wbGUvbm90ZSIsImlhdCI6".toList ++ "MTAwMH0.ab1E3k71PLfhH6".toList ++
    "n6xveuEIQK_XHXnHqqj-NS".toList ++ "5Sr64-xP3P62OMa8TguKjF".toList ++
    "gBKT4RnGGySX5VmLvthRhc".toList ++ "7F3Blw".toList

/-- A proof for a `DELETE` of `/note`, signed by the client's key. -/
def deleteProof : Text :=
  proofHeader ++ "eyJqdGkiOiJqdGktZCIsIm".toList ++
    "h0bSI6IkRFTEVURSIsImh0".toList ++ "dSI6Imh0dHBzOi8vcG9kLm".toList ++
    "V4YW1wbGUvbm90ZSIsImlh".toList ++ "dCI6MTAwMH0.6-Cc1R5tk3".toList ++
    "mykLJSmjkaqhjY1OqeDnjj".toList ++ "rfF8tJfmh1V4gk44Mm2bup".toList ++
    "7E04fS_eTgyFup76dLfdKt".toList ++ "XSz8f5nizg".toList

/-- The issuer's discovery document. -/
def discoveryBody : Text :=
  "\x7b\"issuer\":\"https://".toList ++ "idp.example/\",".toList ++
    "\"jwks_uri\":\"https://".toList ++ "idp.example/jwks\"\x7d".toList

/-- The issuer's key set. -/
def keySetBody : Text :=
  "\x7b\"keys\":[\x7b\"kid\":\"k1\",".toList ++
    "\"use\":\"sig\",\"alg\":".toList ++ "\"ES256\",\"kty\":\"EC\",".toList ++
    "\"crv\":\"P-256\",\"x\":".toList ++ "\"Em5sYaOmK0DdqgNnpycyZ".toList ++
    "Y1REFU_26z7XhIz3bV3R98".toList ++ "\",\"y\":\"R0Kf-tAjzMArl_y".toList ++
    "IhhfCJzFWm3L4XCc-Csr-S".toList ++ "wspBR8\"\x7d]\x7d".toList

/-! ## Base64url and JSON -/

/-- The six bits a character of base64url stands for. -/
def sextet (c : Char) : Option Nat :=
  let code := c.toNat
  if 65 ≤ code ∧ code ≤ 90 then some (code - 65)
  else if 97 ≤ code ∧ code ≤ 122 then some (code - 71)
  else if 48 ≤ code ∧ code ≤ 57 then some (code + 4)
  else if code = 45 then some 62
  else if code = 95 then some 63
  else none

/-- The bytes of a row of six-bit groups. -/
def packSextets : List Nat → Bytes
  | first :: second :: third :: fourth :: rest =>
      .ofNat (first * 4 + second / 16) ::
        .ofNat (second * 16 + third / 4) ::
        .ofNat (third * 64 + fourth) :: packSextets rest
  | [first, second, third] =>
      [.ofNat (first * 4 + second / 16), .ofNat (second * 16 + third / 4)]
  | [first, second] => [.ofNat (first * 4 + second / 16)]
  | _ => []

/-- `URL_SAFE_NO_PAD.decode` -/
def decodeBase64Url (segment : Text) : Option Bytes := do
  let sextets ← segment.mapM sextet
  pure (packSextets sextets)

mutual

/-- A JSON value without white space, escapes, fractions or signs. -/
def readJson : Nat → Text → Option (Json × Text)
  | 0, _ => none
  | fuel + 1, text =>
      match text with
      | '"' :: rest =>
          some (.string (rest.takeWhile (· ≠ '"')),
            (rest.dropWhile (· ≠ '"')).tail)
      | '\x7b' :: rest =>
          (readMembers fuel rest).map fun (members, after) =>
            (.object members, after)
      | '[' :: rest =>
          (readItems fuel rest).map fun (items, after) => (.array items, after)
      | _ =>
          let digits := text.takeWhile Char.isDigit
          if digits.isEmpty then
            none
          else
            some (.integer (digits.foldl
                (fun value c => value * 10 + (c.toNat - '0'.toNat)) 0),
              text.dropWhile Char.isDigit)

/-- The members of an object, to its closing brace. -/
def readMembers : Nat → Text → Option (List (Text × Json) × Text)
  | 0, _ => none
  | fuel + 1, text =>
      match text with
      | '\x7d' :: after => some ([], after)
      | ',' :: rest => readMembers fuel rest
      | '"' :: rest => do
          let name := rest.takeWhile (· ≠ '"')
          let (value, after) ←
            readJson fuel ((rest.dropWhile (· ≠ '"')).drop 2)
          let (members, last) ← readMembers fuel after
          pure ((name, value) :: members, last)
      | _ => none

/-- The items of an array, to its closing bracket. -/
def readItems : Nat → Text → Option (List Json × Text)
  | 0, _ => none
  | fuel + 1, text =>
      match text with
      | ']' :: after => some ([], after)
      | ',' :: rest => readItems fuel rest
      | _ => do
          let (item, after) ← readJson fuel text
          let (items, last) ← readItems fuel after
          pure (item :: items, last)

end

scoped instance : WireFormats where
  sha256 bytes := bytes
  encodeBase64Url bytes := bytes.map fun byte => .ofNat byte.toNat
  decodeBase64Url := decodeBase64Url
  parseJson bytes :=
    (readJson 64 (bytes.map fun byte => .ofNat byte.toNat)).map Prod.fst
  writeJson _ := []

/-! ## Signatures -/

/-- A member of a key, as text. -/
def keyMember (key : List (Text × Json)) (name : String) : Option Text :=
  (key.lookup name.toList).bind Json.asStr

scoped instance : Josekit where
  Jwk := List (Text × Json)
  Verifier := List (Text × Json)
  fromMap members := some members
  keyType key := (keyMember key "kty").getD []
  curve key := keyMember key "crv"
  keyId key := keyMember key "kid"
  keyUse key := keyMember key "use"
  isForKeyOperation _ _ := true
  rs256Verifier _ := none
  es256Verifier key := some key
  verify _ _ _ := false
  decodeWithVerifier token key :=
    if token = accessToken ∧ keyMember key "kid" = some "k1".toList then
      (payloadOf token).toOption.bind Json.asObject
    else
      none

/-- The `jti`, the `iat`, the method and the URL a proof claims. -/
def proofClaims (proof : Text) : Option (Text × I64 × Text × Text) := do
  let payload ← (payloadOf proof).toOption
  let jti ← (payload.get? "jti".toList).bind Json.asStr
  let iat ← (payload.get? "iat".toList).bind Json.asI64
  let htm ← (payload.get? "htm".toList).bind Json.asStr
  let htu ← (payload.get? "htu".toList).bind Json.asStr
  pure (jti, iat, htm, htu)

scoped instance : DpopVerifierCrate where
  normalizeHtu url := .ok url
  normalizeMethod method := .ok method
  verify _ _ _ proof htu htm :=
    match proofClaims proof with
    | some (jti, iat, proofMethod, proofUrl) =>
        if (proof = firstProof ∨ proof = secondProof ∨ proof = putProof ∨
              proof = deleteProof) ∧
            proofMethod = htm ∧ proofUrl = htu then
          .ok ⟨jkt, jti, iat⟩
        else
          .error "invalid DPoP proof".toList
    | none => .error "malformed DPoP proof".toList

scoped instance : UrlParser where
  path url :=
    (Text.stripPrefix "https://".toList url).map fun rest =>
      rest.dropWhile (· ≠ '/')

end Reference

end Quadpod
