import Quadpod.AuthCaches
import Quadpod.Space

namespace Quadpod

/-!
# The keys the pod signs with

`op/keys.rs` and `op/mint.rs`: a key set is loaded from a file or generated, its
first key signs, and every key is published without its private members.  A
`none` where the source returns a value is an `expect` that does not hold.
-/

/-- What the signing side uses of `josekit`. -/
class JoseSigning [Josekit] where
  Signer : Type
  generateEcKey : Nat → Except Text Josekit.Jwk
  algorithm : Josekit.Jwk → Option Text
  parameter : Josekit.Jwk → Text → Option Json
  setKeyId : Josekit.Jwk → Text → Josekit.Jwk
  setAlgorithm : Josekit.Jwk → Text → Josekit.Jwk
  toPublicKey : Josekit.Jwk → Except Text Josekit.Jwk
  toMap : Josekit.Jwk → List (Text × Json)
  es256Signer : Josekit.Jwk → Except Text Signer
  rs256Signer : Josekit.Jwk → Except Text Signer
  acceptsClaim : Text → Json → Bool
  encodeWithSigner :
    (payload header : List (Text × Json)) → Signer → Option Text

/-! ## Loading -/

/--
Why a key file is refused as malformed: what `serde_json` or `josekit` says of
it, or what `load_or_generate` does.
-/
inductive MalformedReason where
  | notJson
  | notJwk
  | josekit (message : Text)
  | other (message : Text)
  deriving DecidableEq

/-- `KeyError` -/
inductive KeyError where
  | io (path message : Text)
  | malformed (path : Text) (reason : MalformedReason)
  | empty (path : Text)
  deriving DecidableEq

/-- What reading the key file gives. -/
inductive KeyFile where
  | text (content : Text)
  | notFound
  | unreadable (message : Text)

variable [WireFormats] [Josekit] [JoseSigning]

/-- `KeySet` -/
structure KeySet where
  keys : List Josekit.Jwk

/-- `thumbprint` -/
def thumbprint (jwk : Josekit.Jwk) : Text :=
  let members : List Text :=
    if Josekit.keyType jwk = "EC".toList then
      ["crv".toList, "kty".toList, "x".toList, "y".toList]
    else
      ["e".toList, "kty".toList, "n".toList]
  let canonical := members.filterMap fun name =>
    ((JoseSigning.parameter jwk name).bind Json.asStr).map fun value =>
      (name, Json.string value)
  WireFormats.encodeBase64Url
    (WireFormats.sha256 (Text.utf8 (WireFormats.writeJson (.object canonical))))

/-- `signer_for` -/
def signerFor (jwk : Josekit.Jwk) : Except Text (JoseSigning.Signer) :=
  if JoseSigning.algorithm jwk = some "RS256".toList then
    JoseSigning.rs256Signer jwk
  else
    JoseSigning.es256Signer jwk

/-- What `josekit` refuses is malformed. -/
def orMalformed {Value : Type} (path : Text) (result : Except Text Value) :
    Except KeyError Value :=
  result.mapError fun message => .malformed path (.josekit message)

/-- One key of the file, with an identifier. -/
def loadKey (path : Text) (value : Json) : Except KeyError Josekit.Jwk :=
  match value.asObject with
  | none => .error (.malformed path (.other "key is not an object".toList))
  | some map =>
      match Josekit.fromMap map with
      | none => .error (.malformed path .notJwk)
      | some jwk =>
          if Josekit.keyType jwk = "EC".toList ∨
              Josekit.keyType jwk = "RSA".toList then do
            let _ ← orMalformed path (JoseSigning.toPublicKey jwk)
            if (Josekit.keyId jwk).isNone then
              pure (JoseSigning.setKeyId jwk (thumbprint jwk))
            else
              pure jwk
          else
            .error (.malformed path
              (.other ("unsupported key type ".toList ++
                Josekit.keyType jwk)))

/-- The key generated for a file that is not there. -/
def generateKeys (path : Text) (create : Text → Except Text Unit)
    (entropy : Nat) : Except KeyError KeySet := do
  let generated ← orMalformed path (JoseSigning.generateEcKey entropy)
  let jwk := JoseSigning.setAlgorithm generated "ES256".toList
  let jwk := JoseSigning.setKeyId jwk (thumbprint jwk)
  let body :=
    WireFormats.writeJson (.object
      [("keys".toList, .array [.object (JoseSigning.toMap jwk)])])
  (create body).mapError fun message => .io path message
  pure ⟨[jwk]⟩

/-- `KeySet::load_or_generate`, with what the file system answers. -/
def KeySet.loadOrGenerate (path : Text) (file : KeyFile)
    (create : Text → Except Text Unit) (entropy : Nat) :
    Except KeyError KeySet :=
  match file with
  | .notFound => generateKeys path create entropy
  | .unreadable message => .error (.io path message)
  | .text content =>
      match WireFormats.parseJson (Text.utf8 content) with
      | none => .error (.malformed path .notJson)
      | some parsed =>
          match parsed.get? "keys".toList with
          | some (.array raw) => do
              let keys ← raw.mapM (loadKey path)
              match keys with
              | [] => .error (.empty path)
              | first :: _ =>
                  let _ ← orMalformed path (signerFor first)
                  pure ⟨keys⟩
          | _ =>
              .error (.malformed path (.other "no `keys` array".toList))

/-! ## Publishing -/

/-- The public half of a key, with its identifier and its algorithm. -/
def publish (jwk : Josekit.Jwk) : Option Josekit.Jwk := do
  let derived ← (JoseSigning.toPublicKey jwk).toOption
  let named :=
    match Josekit.keyId jwk with
    | some kid => JoseSigning.setKeyId derived kid
    | none => derived
  pure (match JoseSigning.algorithm jwk with
    | some algorithm => JoseSigning.setAlgorithm named algorithm
    | none => named)

/-- `KeySet::public_jwks` -/
def KeySet.publicJwks (set : KeySet) : Option Json := do
  let keys ← set.keys.mapM publish
  pure (.object
    [("keys".toList,
      .array (keys.map fun key => .object (JoseSigning.toMap key)))])

/-! ## Signing -/

/-- `Map::insert` of `serde_json` -/
def insertMember (members : List (Text × Json)) (name : Text) (value : Json) :
    List (Text × Json) :=
  members.filter (·.1 ≠ name) ++ [(name, value)]

/-- `JwtPayload::set_claim` -/
def setClaim (payload : List (Text × Json)) (name : Text) (value : Json) :
    Option (List (Text × Json)) :=
  if JoseSigning.acceptsClaim name value then
    some (insertMember payload name value)
  else
    none

/-- The header of what the pod signs; `josekit` adds the algorithm. -/
def jwtHeader (kid : Text) : List (Text × Json) :=
  [("typ".toList, .string "JWT".toList), ("kid".toList, .string kid)]

/-- `KeySet::sign_jwt` -/
def KeySet.signJwt (set : KeySet) (payload : List (Text × Json)) :
    Option Text := do
  let key ← set.keys.head?
  let kid ← Josekit.keyId key
  let signer ← (signerFor key).toOption
  JoseSigning.encodeWithSigner payload (jwtHeader kid) signer

/-- `ACCESS_TOKEN_TTL_SECS` -/
def accessTokenTtlSecs : Int := 600

/-- The claims `mint_access_token` sets one by one. -/
def mintedClaims (webid jkt jti : Text) (now : I64) : List (Text × Json) :=
  [("aud".toList, .array [.string "solid".toList]),
    ("webid".toList, .string webid),
    ("cnf".toList, .object [("jkt".toList, .string jkt)]),
    ("jti".toList, .string jti),
    ("iat".toList, .integer now.value),
    ("exp".toList, .integer (now.value + accessTokenTtlSecs))]

/-- The payload of an access token; an `exp` out of range overflows. -/
def mintedPayload (issuer webid jkt jti : Text) (now : I64) :
    Option (List (Text × Json)) :=
  if now.value + accessTokenTtlSecs < 2 ^ 63 then
    let payload := insertMember [] "iss".toList (.string issuer)
    let payload := insertMember payload "sub".toList (.string webid)
    (mintedClaims webid jkt jti now).foldlM
      (fun payload claim => setClaim payload claim.1 claim.2) payload
  else
    none

/-- `mint_access_token`, with the UUID it draws. -/
def mintAccessToken [IriSyntax] (set : KeySet) (space : StorageSpace)
    (webid : NamedNode) (jkt : Text) (jti : Uuid) (now : I64) :
    Option Text := do
  let payload ←
    mintedPayload (graphIri space.root) webid.iri jkt jti.text now
  set.signJwt payload

end Quadpod
