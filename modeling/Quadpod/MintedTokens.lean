import Quadpod.OpKeys
import Quadpod.ReferenceCredentials
import Quadpod.Traversal

namespace Quadpod

/-!
# Minting and verifying agree

What `op/mint.rs` signs is what `auth/access_token.rs` reads, for every key set
that loads.  The two sides meet in the first key of the set: it is the first the
verifier finds under the identifier in the token's header, and the algorithm the
verifier derives from its type is the one its signer was built for.
-/

open AuthError

variable [WireFormats] [Josekit] [JoseSigning]

/-! ## What is assumed of the library -/

/-- A compact JWS that names a key and carries claims. -/
def CompactJws (token kid : Text) (payload : List (Text × Json)) : Prop :=
  ∃ headerPart payloadPart signaturePart header claims,
    Text.split '.' token = [headerPart, payloadPart, signaturePart] ∧
      decodeSegment headerPart = .ok header ∧
      (header.get? "kid".toList).bind Json.asStr = some kid ∧
      decodeSegment payloadPart = .ok claims ∧
      ∀ name, claims.get? name = payload.lookup name

/-- The members of a `JwtPayload`: `josekit` has checked each of them. -/
def IsPayload (payload : List (Text × Json)) : Prop :=
  ∀ claim ∈ payload, JoseSigning.acceptsClaim claim.1 claim.2 = true

/--
What a `JwtPayload` takes: an issuer, a subject and an identifier are texts, the
audience is a list of texts, a time is a number of seconds after the epoch, and
other claims are whatever they are.
-/
structure PayloadContract : Prop where
  texts :
    ∀ name value,
      name ∈ ["iss".toList, "sub".toList, "jti".toList, "webid".toList] →
      JoseSigning.acceptsClaim name (.string value) = true
  audience :
    ∀ members : List Text,
      JoseSigning.acceptsClaim "aud".toList
        (.array (members.map .string)) = true
  confirmation :
    ∀ members,
      JoseSigning.acceptsClaim "cnf".toList (.object members) = true
  times :
    ∀ name (value : Int),
      name ∈ ["iat".toList, "exp".toList] →
      value < 2 ^ 63 →
      (JoseSigning.acceptsClaim name (.integer value) = true ↔ 0 ≤ value)

/-- A verifier that accepts what a signer makes of a payload. -/
def Verifies (payload : List (Text × Json))
    (signer : JoseSigning.Signer) (verifier : Josekit.Verifier) : Prop :=
  ∀ header token,
    JoseSigning.encodeWithSigner payload header signer = some token →
    ∃ verified,
      Josekit.decodeWithVerifier token verifier = some verified ∧
        ∀ name, verified.lookup name = payload.lookup name

/--
The contract of `josekit`: setting a member of a key changes that member, a
public half is one of the same kind, each signer is of one kind, and what a
signer makes of a payload is a compact JWS that the verifier of the published
half accepts.
-/
structure SigningContract (payload : List (Text × Json)) : Prop where
  keyIdSet :
    ∀ jwk kid, Josekit.keyId (JoseSigning.setKeyId jwk kid) = some kid
  keyIdKept :
    ∀ jwk algorithm,
      Josekit.keyId (JoseSigning.setAlgorithm jwk algorithm) =
        Josekit.keyId jwk
  algorithmKept :
    ∀ jwk kid,
      JoseSigning.algorithm (JoseSigning.setKeyId jwk kid) =
        JoseSigning.algorithm jwk
  algorithmSet :
    ∀ jwk algorithm,
      JoseSigning.algorithm (JoseSigning.setAlgorithm jwk algorithm) =
        some algorithm
  kindOfNamed :
    ∀ jwk kid,
      Josekit.keyType (JoseSigning.setKeyId jwk kid) = Josekit.keyType jwk ∧
        Josekit.curve (JoseSigning.setKeyId jwk kid) = Josekit.curve jwk
  kindOfMarked :
    ∀ jwk algorithm,
      Josekit.keyType (JoseSigning.setAlgorithm jwk algorithm) =
          Josekit.keyType jwk ∧
        Josekit.curve (JoseSigning.setAlgorithm jwk algorithm) =
          Josekit.curve jwk
  kindOfPublic :
    ∀ jwk derived,
      JoseSigning.toPublicKey jwk = .ok derived →
      Josekit.keyType derived = Josekit.keyType jwk ∧
        Josekit.curve derived = Josekit.curve jwk
  publicOfNamed :
    ∀ jwk kid,
      JoseSigning.toPublicKey (JoseSigning.setKeyId jwk kid) =
        JoseSigning.toPublicKey jwk
  publicOfMarked :
    ∀ jwk algorithm,
      JoseSigning.toPublicKey (JoseSigning.setAlgorithm jwk algorithm) =
        JoseSigning.toPublicKey jwk
  serialized :
    ∀ jwk, Josekit.fromMap (JoseSigning.toMap jwk) = some jwk
  kindOfRs256 :
    ∀ jwk signer,
      JoseSigning.rs256Signer jwk = .ok signer →
      Josekit.keyType jwk = "RSA".toList
  kindOfEs256 :
    ∀ jwk signer,
      JoseSigning.es256Signer jwk = .ok signer →
      Josekit.keyType jwk = "EC".toList ∧
        Josekit.curve jwk = some "P-256".toList
  generates :
    ∀ entropy jwk kid,
      JoseSigning.generateEcKey entropy = .ok jwk →
      (∃ derived, JoseSigning.toPublicKey jwk = .ok derived) ∧
        ∃ signer,
          JoseSigning.es256Signer
            (JoseSigning.setKeyId
              (JoseSigning.setAlgorithm jwk "ES256".toList) kid) =
            .ok signer
  encodes :
    ∀ jwk signer kid,
      IsPayload payload →
      signerFor jwk = .ok signer →
      Josekit.keyId jwk = some kid →
      ∃ token,
        JoseSigning.encodeWithSigner payload (jwtHeader kid) signer =
            some token ∧
          CompactJws token kid payload
  verifiesRs256 :
    ∀ jwk signer published,
      IsPayload payload →
      JoseSigning.rs256Signer jwk = .ok signer →
      publish jwk = some published →
      ∃ verifier,
        Josekit.rs256Verifier published = some verifier ∧
          Verifies payload signer verifier
  verifiesEs256 :
    ∀ jwk signer published,
      IsPayload payload →
      JoseSigning.es256Signer jwk = .ok signer →
      publish jwk = some published →
      ∃ verifier,
        Josekit.es256Verifier published = some verifier ∧
          Verifies payload signer verifier

/-! ## Sets that load -/

/-- What loading has checked of a key set. -/
structure KeySet.Usable (set : KeySet) : Prop where
  signs :
    ∃ first rest kid signer,
      set.keys = first :: rest ∧
        Josekit.keyId first = some kid ∧
        signerFor first = .ok signer
  derives :
    ∀ key ∈ set.keys, ∃ derived, JoseSigning.toPublicKey key = .ok derived

omit [WireFormats] [JoseSigning] [Josekit] in
theorem orMalformed_eq_ok
    {Value : Type} {path : Text} {result : Except Text Value} {value : Value}
    (accepted : orMalformed path result = .ok value) :
    result = .ok value := by
  cases result with
  | error message =>
      cases accepted
  | ok given =>
      cases accepted
      rfl

section Loading

variable {payload : List (Text × Json)} (contract : SigningContract payload)

include contract

/-- A key that loads can be published, and has an identifier. -/
theorem loadKey_eq_ok
    {path : Text} {value : Json} {key : Josekit.Jwk}
    (loaded : loadKey path value = .ok key) :
    (∃ derived, JoseSigning.toPublicKey key = .ok derived) ∧
      ∃ kid, Josekit.keyId key = some kid := by
  unfold loadKey at loaded
  split at loaded
  next =>
      cases loaded
  next map _ =>
      split at loaded
      next =>
          cases loaded
      next jwk _ =>
          split at loaded
          next =>
              obtain ⟨derived, derives, loaded⟩ :=
                Traversal.ok_bind_iff.mp loaded
              have isPublic := orMalformed_eq_ok derives
              split at loaded
              next unnamed =>
                  cases loaded
                  refine ⟨⟨derived, ?_⟩, _, contract.keyIdSet _ _⟩
                  rw [contract.publicOfNamed]
                  exact isPublic
              next named =>
                  cases loaded
                  refine ⟨⟨derived, isPublic⟩, ?_⟩
                  rw [Option.isNone_iff_eq_none] at named
                  exact Option.ne_none_iff_exists'.mp named
          next =>
              cases loaded

/-- A key set that loads can sign with its first key and publish all of them. -/
theorem usable_of_load
    {path : Text} {file : KeyFile} {create : Text → Except Text Unit}
    {entropy : Nat} {set : KeySet}
    (loaded : KeySet.loadOrGenerate path file create entropy = .ok set) :
    set.Usable := by
  unfold KeySet.loadOrGenerate at loaded
  cases file with
  | notFound =>
      obtain ⟨jwk, generated, loaded⟩ :=
        Traversal.ok_bind_iff.mp loaded
      obtain ⟨_, _, loaded⟩ :=
        Traversal.ok_bind_iff.mp loaded
      cases loaded
      obtain ⟨⟨derived, isPublic⟩, signer, isSigner⟩ :=
        contract.generates entropy jwk
          (thumbprint (JoseSigning.setAlgorithm jwk "ES256".toList))
          (orMalformed_eq_ok generated)
      refine ⟨⟨_, [], _, signer, rfl, contract.keyIdSet _ _, ?_⟩, ?_⟩
      · unfold signerFor
        rw [contract.algorithmKept, contract.algorithmSet]
        rw [if_neg (by decide)]
        exact isSigner
      · intro key member
        rw [List.mem_singleton.mp member]
        refine ⟨derived, ?_⟩
        rw [contract.publicOfNamed, contract.publicOfMarked]
        exact isPublic
  | unreadable message =>
      cases loaded
  | text content =>
      dsimp only at loaded
      split at loaded
      next =>
          cases loaded
      next parsed _ =>
          split at loaded
          next raw _ =>
              obtain ⟨keys, mapped, loaded⟩ :=
                Traversal.ok_bind_iff.mp loaded
              cases keys with
              | nil =>
                  cases loaded
              | cons first rest =>
                  obtain ⟨signer, isSigner, loaded⟩ :=
                    Traversal.ok_bind_iff.mp loaded
                  cases loaded
                  have each (key : Josekit.Jwk)
                      (member : key ∈ first :: rest) :
                      (∃ derived,
                        JoseSigning.toPublicKey key = .ok derived) ∧
                        ∃ kid, Josekit.keyId key = some kid := by
                    obtain ⟨value, _, isKey⟩ :=
                      Traversal.mem_of_ok mapped member
                    exact loadKey_eq_ok contract isKey
                  obtain ⟨kid, named⟩ := (each first (by simp)).2
                  exact ⟨⟨first, rest, kid, signer, rfl, named,
                    orMalformed_eq_ok isSigner⟩,
                    fun key member => (each key member).1⟩
          next =>
              cases loaded

omit contract [WireFormats] in
/-- A key whose public half can be derived can be published. -/
theorem exists_publish
    {jwk derived : Josekit.Jwk}
    (derives : JoseSigning.toPublicKey jwk = .ok derived) :
    ∃ published, publish jwk = some published := by
  unfold publish
  rw [derives]
  exact ⟨_, rfl⟩

/-- The published half of a key. -/
theorem publish_eq_some
    {jwk derived : Josekit.Jwk} {kid : Text}
    (derives : JoseSigning.toPublicKey jwk = .ok derived)
    (named : Josekit.keyId jwk = some kid) :
    ∃ published,
      publish jwk = some published ∧
        Josekit.keyId published = some kid ∧
        Josekit.keyType published = Josekit.keyType jwk ∧
        Josekit.curve published = Josekit.curve jwk := by
  obtain ⟨sameType, sameCurve⟩ := contract.kindOfPublic jwk derived derives
  obtain ⟨namedType, namedCurve⟩ := contract.kindOfNamed derived kid
  unfold publish
  rw [derives, named]
  cases isMarked : JoseSigning.algorithm jwk with
  | none =>
      exact ⟨_, rfl, contract.keyIdSet _ _, namedType.trans sameType,
        namedCurve.trans sameCurve⟩
  | some algorithm =>
      obtain ⟨markedType, markedCurve⟩ :=
        contract.kindOfMarked (JoseSigning.setKeyId derived kid) algorithm
      refine ⟨_, rfl, ?_, ?_, ?_⟩
      · exact (contract.keyIdKept _ _).trans (contract.keyIdSet _ _)
      · exact markedType.trans (namedType.trans sameType)
      · exact markedCurve.trans (namedCurve.trans sameCurve)

/-- The verifier of a published key is the one for what its key signs. -/
theorem exists_verifierFor
    {jwk published : Josekit.Jwk} {signer : JoseSigning.Signer}
    (isPayload : IsPayload payload)
    (isSigner : signerFor jwk = .ok signer)
    (isPublished : publish jwk = some published)
    (sameType : Josekit.keyType published = Josekit.keyType jwk)
    (sameCurve : Josekit.curve published = Josekit.curve jwk) :
    ∃ verifier,
      verifierFor published = .ok verifier ∧
        Verifies payload signer verifier := by
  unfold signerFor at isSigner
  unfold verifierFor
  rw [sameType, sameCurve]
  split at isSigner
  · obtain ⟨verifier, built, verifies⟩ :=
      contract.verifiesRs256 jwk signer published isPayload isSigner
        isPublished
    refine ⟨verifier, ?_, verifies⟩
    rw [if_pos (contract.kindOfRs256 jwk signer isSigner), built]
    rfl
  · obtain ⟨verifier, built, verifies⟩ :=
      contract.verifiesEs256 jwk signer published isPayload isSigner
        isPublished
    obtain ⟨isEc, isP256⟩ := contract.kindOfEs256 jwk signer isSigner
    refine ⟨verifier, ?_, verifies⟩
    rw [isEc, isP256, if_neg (by decide), if_pos ⟨rfl, rfl⟩, built]
    rfl

end Loading

/-! ## The claims of a token -/

/-- The members of the payload of an access token, in the order they are set. -/
def mintedMembers (issuer webid jkt jti : Text) (now : I64) :
    List (Text × Json) :=
  ("iss".toList, .string issuer) :: ("sub".toList, .string webid) ::
    mintedClaims webid jkt jti now

omit [WireFormats] [Josekit] [JoseSigning] in
/-- A member with a new name is set after those that are there. -/
theorem insertMember_of_new
    {members : List (Text × Json)} {name : Text} (value : Json)
    (isNew : name ∉ members.map Prod.fst) :
    insertMember members name value = members ++ [(name, value)] := by
  unfold insertMember
  rw [List.filter_eq_self.mpr]
  intro member inMembers
  refine decide_eq_true fun same => isNew ?_
  rw [← same]
  exact List.mem_map_of_mem inMembers

omit [WireFormats] in
/-- Claims with distinct names are set one after the other. -/
theorem foldlM_setClaim
    {claims members : List (Text × Json)}
    (accepted :
      ∀ claim ∈ claims, JoseSigning.acceptsClaim claim.1 claim.2 = true)
    (distinct : ((members ++ claims).map Prod.fst).Nodup) :
    claims.foldlM (fun payload claim => setClaim payload claim.1 claim.2)
        members =
      some (members ++ claims) := by
  induction claims generalizing members with
  | nil =>
      simp
  | cons first rest inductionHypothesis =>
      have isNew : first.1 ∉ members.map Prod.fst := by
        rw [List.map_append, List.map_cons, List.nodup_append] at distinct
        intro isOld
        exact distinct.2.2 first.1 isOld first.1 (by simp) rfl
      rw [List.foldlM_cons, setClaim, if_pos (accepted first (by simp)),
        insertMember_of_new first.2 isNew]
      have others :=
        @inductionHypothesis (members ++ [first])
          (fun claim member => accepted claim (by simp [member]))
          (by simpa using distinct)
      simpa using others

omit [WireFormats] in
/-- What is minted from the epoch on is a payload. -/
theorem isPayload_mintedMembers
    {issuer webid jkt jti : Text} {now : I64}
    (takes : PayloadContract)
    (notBefore : 0 ≤ now.value)
    (fits : now.value + accessTokenTtlSecs < 2 ^ 63) :
    IsPayload (mintedMembers issuer webid jkt jti now) := by
  have issued : JoseSigning.acceptsClaim "iat".toList (.integer now.value) :=
    (takes.times _ _ (by simp) now.below).mpr notBefore
  have expires :
      JoseSigning.acceptsClaim "exp".toList
        (.integer (now.value + accessTokenTtlSecs)) :=
    (takes.times _ _ (by simp) fits).mpr
      (Int.add_nonneg notBefore (by decide))
  intro claim member
  simp only [mintedMembers, mintedClaims, List.mem_cons, List.not_mem_nil,
    or_false] at member
  rcases member with rfl | rfl | rfl | rfl | rfl | rfl | rfl | rfl
  · exact takes.texts _ _ (by simp)
  · exact takes.texts _ _ (by simp)
  · exact takes.audience ["solid".toList]
  · exact takes.texts _ _ (by simp)
  · exact takes.confirmation _
  · exact takes.texts _ _ (by simp)
  · exact issued
  · exact expires

omit [WireFormats] in
theorem mintedPayload_eq
    {issuer webid jkt jti : Text} {now : I64}
    (fits : now.value + accessTokenTtlSecs < 2 ^ 63)
    (isPayload : IsPayload (mintedMembers issuer webid jkt jti now)) :
    mintedPayload issuer webid jkt jti now =
      some (mintedMembers issuer webid jkt jti now) := by
  unfold mintedPayload
  rw [if_pos fits]
  have issued :
      insertMember [] "iss".toList (.string issuer) =
        [("iss".toList, .string issuer)] :=
    insertMember_of_new _ (by simp)
  have named :
      insertMember [("iss".toList, .string issuer)] "sub".toList
          (.string webid) =
        [("iss".toList, .string issuer), ("sub".toList, .string webid)] := by
    refine insertMember_of_new _ ?_
    change "sub".toList ∉ ["iss".toList]
    decide
  have distinct :
      ((mintedMembers issuer webid jkt jti now).map Prod.fst).Nodup := by
    change ["iss".toList, "sub".toList, "aud".toList, "webid".toList,
      "cnf".toList, "jti".toList, "iat".toList, "exp".toList].Nodup
    decide
  simp only [issued, named]
  exact foldlM_setClaim (fun claim member => isPayload claim (by
    simp [mintedMembers, member])) distinct

omit [WireFormats] in
/-- Claims of which the library refuses one are not set. -/
theorem foldlM_setClaim_eq_none
    {claims members : List (Text × Json)} {refused : Text × Json}
    (member : refused ∈ claims)
    (notAccepted : JoseSigning.acceptsClaim refused.1 refused.2 = false) :
    claims.foldlM (fun payload claim => setClaim payload claim.1 claim.2)
        members = none := by
  induction claims generalizing members with
  | nil =>
      cases member
  | cons first rest inductionHypothesis =>
      rw [List.foldlM_cons]
      cases isSet : setClaim members first.1 first.2 with
      | none =>
          rfl
      | some longer =>
          rcases List.mem_cons.mp member with rfl | inRest
          · rw [setClaim, notAccepted] at isSet
            cases isSet
          · exact inductionHypothesis inRest

omit [WireFormats] in
/-- A time before the epoch is no claim of a payload: there is no token. -/
theorem mintAccessToken_of_negative
    [IriSyntax] {set : KeySet} {space : StorageSpace} {webid : NamedNode}
    {jkt : Text} {jti : Uuid} {now : I64}
    (takes : PayloadContract)
    (before : now.value < 0) :
    mintAccessToken set space webid jkt jti now = none := by
  have refused :
      JoseSigning.acceptsClaim "iat".toList (.integer now.value) = false := by
    rw [Bool.eq_false_iff]
    intro accepted
    have notBefore :=
      (takes.times _ _ (by simp) now.below).mp accepted
    omega
  have isClaim :
      ("iat".toList, Json.integer now.value) ∈
        mintedClaims webid.iri jkt jti.text now := by
    simp [mintedClaims]
  have notSet (payload : List (Text × Json)) :
      (mintedClaims webid.iri jkt jti.text now).foldlM
        (fun payload claim => setClaim payload claim.1 claim.2) payload =
          none :=
    foldlM_setClaim_eq_none isClaim refused
  unfold mintAccessToken mintedPayload
  simp only [notSet, ite_self]
  rfl

omit [WireFormats] [Josekit] [JoseSigning] in
/-- The claims of a minted payload, until it expires. -/
theorem accessClaims_minted
    {issuer webid jkt jti : Text} {now time : I64}
    {verified : List (Text × Json)}
    (fits : now.value + accessTokenTtlSecs < 2 ^ 63)
    (same :
      ∀ name,
        verified.lookup name =
          (mintedMembers issuer webid jkt jti now).lookup name) :
    accessClaims (.object verified) time =
      if time.value < now.value + accessTokenTtlSecs then
        .ok ⟨webid, jkt, issuer, ["solid".toList]⟩
      else
        .error .expired := by
  have above := now.above
  have exp :
      (Json.object verified).get? "exp".toList =
        some (.integer (now.value + accessTokenTtlSecs)) :=
    same _
  have named :
      (Json.object verified).get? "webid".toList = some (.string webid) :=
    same _
  have bound :
      (Json.object verified).get? "cnf".toList =
        some (.object [("jkt".toList, .string jkt)]) :=
    same _
  have issued :
      (Json.object verified).get? "iss".toList = some (.string issuer) :=
    same _
  have meant :
      (Json.object verified).get? "aud".toList =
        some (.array [.string "solid".toList]) :=
    same _
  have inRange :
      Json.asI64 (.integer (now.value + accessTokenTtlSecs)) =
        some ⟨now.value + accessTokenTtlSecs,
          above.trans (Int.le_add_of_nonneg_right (by decide)), fits⟩ := by
    unfold Json.asI64
    exact dif_pos
      ⟨above.trans (Int.le_add_of_nonneg_right (by decide)), fits⟩
  unfold accessClaims
  rw [exp, Option.bind_some, inRange]
  by_cases early : time.value < now.value + accessTokenTtlSecs
  · rw [if_pos early]
    have notExpired :
        refuseIf
            ((⟨now.value + accessTokenTtlSecs,
              above.trans (Int.le_add_of_nonneg_right (by decide)),
              fits⟩ : I64) ≤ time) .expired =
          .ok () :=
      refuseIf_eq_ok_iff.mpr (Int.not_le.mpr early)
    change (refuseIf _ _ >>= _) = _
    rw [notExpired, named, bound, meant]
    change (issuerClaim _ >>= _) = _
    unfold issuerClaim
    rw [issued]
    rfl
  · rw [if_neg early]
    have isExpired :
        refuseIf
            ((⟨now.value + accessTokenTtlSecs,
              above.trans (Int.le_add_of_nonneg_right (by decide)),
              fits⟩ : I64) ≤ time) .expired =
          .error .expired :=
      if_pos (Int.not_lt.mp early)
    change (refuseIf _ _ >>= _) = _
    rw [isExpired]
    rfl

/-! ## The token against a key set -/

section Token

variable {State : Type}
variable {resolve : Text → Verification State (List Josekit.Jwk)}
variable {payload : List (Text × Json)} {token kid issuer : Text}
variable {keys : List Josekit.Jwk} {state last : State}

omit [JoseSigning] in
/-- A token is checked against the key its header names. -/
theorem verifyAccessToken_compact
    (compact : CompactJws token kid payload)
    (issued :
      payload.lookup "iss".toList = some (.string issuer))
    (resolved : (resolve issuer).perform state = (.ok keys, last))
    (time : I64) :
    (verifyAccessToken resolve token time).perform state =
      ((do
        let key ← selectKey keys (some kid)
        let verifier ← verifierFor key
        let verified ←
          okOr (Josekit.decodeWithVerifier token verifier) .badSignature
        accessClaims (.object verified) time), last) := by
  obtain ⟨headerPart, payloadPart, signaturePart, header, claims, parts,
    isHeader, isKid, isPayload, same⟩ := compact
  have isIssuer : issuerClaim claims = .ok issuer := by
    unfold issuerClaim
    rw [same, issued]
    rfl
  unfold verifyAccessToken
  rw [parts]
  simp only
  rw [isHeader, isPayload]
  simp only [Verification.perform_bind, Verification.perform_check]
  rw [isIssuer]
  simp only
  rw [resolved, isKid]
  simp only
  cases selectKey keys (some kid) with
  | error error =>
      rfl
  | ok key =>
      simp only [bind, Except.bind]
      cases verifierFor key with
      | error error =>
          rfl
      | ok verifier =>
          simp only
          cases okOr (Josekit.decodeWithVerifier token verifier)
              .badSignature with
          | error error =>
              rfl
          | ok verified =>
              rfl

end Token

omit [WireFormats] [JoseSigning] in
/-- A key set in which no key has the identifier offers none. -/
theorem selectKey_of_foreign
    {keys : List Josekit.Jwk} {kid : Text}
    (foreign : ∀ key ∈ keys, Josekit.keyId key ≠ some kid) :
    selectKey keys (some kid) = .error .missingKey := by
  have notFound :
      keys.find? (fun key => Josekit.keyId key = some kid) = none := by
    rw [List.find?_eq_none]
    intro key member isKid
    exact foreign key member (of_decide_eq_true isKid)
  unfold selectKey
  simp only
  rw [notFound]
  rfl

/-! ## Agreement -/

/--
Whatever key set loads, a token minted with it from the epoch on is verified by
the key set published for it: until it expires to exactly the WebID, the thumbprint, the
issuer and the audience it was minted with, and from then on it is refused as
expired.  Against keys none of which has the identifier of the signing key it is
always refused.
-/
theorem minted_token_verified
    [IriSyntax] {State : Type}
    {path : Text} {file : KeyFile} {create : Text → Except Text Unit}
    {entropy : Nat} {set : KeySet}
    (space : StorageSpace) (webid : NamedNode) (jkt : Text) (jti : Uuid)
    (now : I64)
    (contract :
      SigningContract
        (mintedMembers (graphIri space.root) webid.iri jkt jti.text now))
    (takes : PayloadContract)
    (loaded : KeySet.loadOrGenerate path file create entropy = .ok set)
    (notBefore : 0 ≤ now.value)
    (fits : now.value + accessTokenTtlSecs < 2 ^ 63) :
    ∃ token published,
      mintAccessToken set space webid jkt jti now = some token ∧
        (set.publicJwks.bind (·.get? "keys".toList)).bind keysFromValue =
          some published ∧
        (∀ (resolve : Text → Verification State (List Josekit.Jwk))
            (state last : State) (time : I64),
          (resolve (graphIri space.root)).perform state =
            (.ok published, last) →
          (verifyAccessToken resolve token time).perform state =
            (if time.value < now.value + accessTokenTtlSecs then
              .ok ⟨webid.iri, jkt, graphIri space.root, ["solid".toList]⟩
            else
              .error .expired, last)) ∧
        (∀ (resolve : Text → Verification State (List Josekit.Jwk))
            (state last : State) (time : I64) (keys : List Josekit.Jwk),
          (resolve (graphIri space.root)).perform state = (.ok keys, last) →
          (∀ key ∈ keys,
            Josekit.keyId key ≠ set.keys.head?.bind Josekit.keyId) →
          (verifyAccessToken resolve token time).perform state =
            (.error .missingKey, last)) := by
  have usable := usable_of_load contract loaded
  have isPayload :
      IsPayload
        (mintedMembers (graphIri space.root) webid.iri jkt jti.text now) :=
    isPayload_mintedMembers takes notBefore fits
  obtain ⟨first, rest, kid, signer, shape, named, isSigner⟩ := usable.signs
  obtain ⟨derived, derives⟩ := usable.derives first (by simp [shape])
  obtain ⟨token, encoded, compact⟩ :=
    contract.encodes first signer kid isPayload isSigner named
  obtain ⟨firstPublished, isPublished, publishedKid, sameType, sameCurve⟩ :=
    publish_eq_some contract derives named
  obtain ⟨verifier, isVerifier, verifies⟩ :=
    exists_verifierFor contract isPayload isSigner isPublished sameType
      sameCurve
  obtain ⟨verified, decoded, sameMembers⟩ := verifies _ token encoded
  have minted : mintAccessToken set space webid jkt jti now = some token := by
    unfold mintAccessToken
    rw [mintedPayload_eq fits isPayload]
    change set.signJwt _ = _
    unfold KeySet.signJwt
    rw [shape, List.head?_cons]
    simp only [Option.bind_eq_bind, Option.bind_some, named, isSigner,
      Except.toOption]
    exact encoded
  obtain ⟨others, othersPublished⟩ :
      ∃ others, rest.mapM publish = some others := by
    refine Traversal.exists_some fun key member => ?_
    obtain ⟨derived, derives⟩ := usable.derives key (by simp [shape, member])
    exact exists_publish derives
  have published : set.publicJwks = some (.object
      [("keys".toList, .array
        ((firstPublished :: others).map fun key =>
          .object (JoseSigning.toMap key)))]) := by
    unfold KeySet.publicJwks
    rw [shape, List.mapM_cons, isPublished, othersPublished]
    rfl
  refine ⟨token, firstPublished :: others, minted, ?_, ?_, ?_⟩
  · rw [published]
    exact Traversal.map_some
      (f := fun item : Json => item.asObject.bind Josekit.fromMap)
      (g := fun key => Json.object (JoseSigning.toMap key))
      (fun key => contract.serialized key) (firstPublished :: others)
  · intro resolve state last time resolved
    have selected :
        selectKey (firstPublished :: others) (some kid) =
          .ok firstPublished := by
      unfold selectKey
      simp only
      rw [List.find?_cons_of_pos (by simpa using publishedKid)]
      rfl
    rw [verifyAccessToken_compact compact rfl resolved time, selected]
    simp only [bind, Except.bind, isVerifier, decoded, okOr]
    rw [accessClaims_minted fits sameMembers]
  · intro resolve state last time keys resolved foreign
    rw [verifyAccessToken_compact compact rfl resolved time,
      selectKey_of_foreign]
    · rfl
    · rw [shape, List.head?_cons, Option.bind_some, named] at foreign
      exact foreign

end Quadpod

namespace Quadpod.OpReference

/-!
## A key file and a token

The key set of a file with one P-256 key, and the token that key signed: the
library signs and verifies nothing else here.
-/

open Reference (jkt keyMember owner podSpace)

/-- The key file. -/
def keyFileText : Text :=
  "\x7b\"keys\":[\x7b\"kid\":\"op\",".toList ++
    "\"alg\":\"ES256\",\"kty\":".toList ++ "\"EC\",\"crv\":\"P-256\",".toList ++
    "\"x\":\"oUtvTOqU0SuEgOFmD".toList ++ "V_Sh5JowL5Jch0Yp24zyfS".toList ++
    "uElI\",\"y\":\"qa1KDxFCC1N".toList ++ "vbjwjljHipqZxPyhdAjdjQ".toList ++
    "KOzMaiQAB8\",\"d\":".toList ++ "\"A3rq6vS78m3avnJWqClNx".toList ++
    "S2kjVdaEke1wlmMR95666s".toList ++ "\"\x7d]\x7d".toList

/-- The header of the token. -/
def headerText : Text :=
  "\x7b\"typ\":\"JWT\",\"kid\":".toList ++ "\"op\",\"alg\":\"ES256\"\x7d".toList

/-- The claims of the token. -/
def claimsText : Text :=
  "\x7b\"iss\":\"https://".toList ++ "pod.example/\",\"sub\":".toList ++
    "\"https://id.example/".toList ++ "me\",\"aud\":[\"solid\"],".toList ++
    "\"webid\":\"https://".toList ++ "id.example/me\",\"cnf\":".toList ++
    "\x7b\"jkt\":\"zpdFevDM29lGxc".toList ++ "ezzQZu8_etW8CGGxDFGsS2".toList ++
    "s9L8JTs\"\x7d,\"jti\":".toList ++ "\"3f0c5a52-8d5e-4c3b-9a".toList ++
    "57-0f6c0b8f7a11\",".toList ++ "\"iat\":1000,\"exp\":1600\x7d".toList

/-- The header, encoded. -/
def headerPart : Text :=
  "eyJ0eXAiOiJKV1QiLCJraW".toList ++ "QiOiJvcCIsImFsZyI6IkVT".toList ++
    "MjU2In0".toList

/-- The claims, encoded. -/
def payloadPart : Text :=
  "eyJpc3MiOiJodHRwczovL3".toList ++ "BvZC5leGFtcGxlLyIsInN1".toList ++
    "YiI6Imh0dHBzOi8vaWQuZX".toList ++ "hhbXBsZS9tZSIsImF1ZCI6".toList ++
    "WyJzb2xpZCJdLCJ3ZWJpZC".toList ++ "I6Imh0dHBzOi8vaWQuZXhh".toList ++
    "bXBsZS9tZSIsImNuZiI6ey".toList ++ "Jqa3QiOiJ6cGRGZXZETTI5".toList ++
    "bEd4Y2V6elFadThfZXRXOE".toList ++ "NHR3hERkdzUzJzOUw4SlRz".toList ++
    "In0sImp0aSI6IjNmMGM1YT".toList ++ "UyLThkNWUtNGMzYi05YTU3".toList ++
    "LTBmNmMwYjhmN2ExMSIsIm".toList ++ "lhdCI6MTAwMCwiZXhwIjox".toList ++
    "NjAwfQ".toList

/-- The signature of the two. -/
def signaturePart : Text :=
  "WZIj1Itlj_xVa0Ywwb-p70".toList ++ "JEPMk2BGO-vnIvJn2qVC00".toList ++
    "rprls9bHJWB5kI3wUhNXCx".toList ++ "9Pqv5j01DiKhtu64hCEQ".toList

/-- The token the key of the file signs for the owner. -/
def mintedToken : Text :=
  ['.'].intercalate [headerPart, payloadPart, signaturePart]

scoped instance : IriSyntax := Reference.instIriSyntax

/-- The UUID of the token. -/
def tokenId : Uuid where
  text := "3f0c5a52-8d5e-4c3b-9a57-0f6c0b8f7a11".toList
  nonempty := by decide
  plain := by simp

/-- When the token is minted. -/
def mintTime : I64 := ⟨1000, by decide, by decide⟩

/-- The members of the key. -/
def keyMembers : List (Text × Json) :=
  [("kid".toList, .string "op".toList),
    ("alg".toList, .string "ES256".toList),
    ("kty".toList, .string "EC".toList),
    ("crv".toList, .string "P-256".toList),
    ("x".toList,
      .string "oUtvTOqU0SuEgOFmDV_Sh5JowL5Jch0Yp24zyfSuElI".toList),
    ("y".toList,
      .string "qa1KDxFCC1NvbjwjljHipqZxPyhdAjdjQKOzMaiQAB8".toList),
    ("d".toList,
      .string "A3rq6vS78m3avnJWqClNxS2kjVdaEke1wlmMR95666s".toList)]

/-- The members of the header. -/
def headerMembers : List (Text × Json) :=
  [("typ".toList, .string "JWT".toList),
    ("kid".toList, .string "op".toList),
    ("alg".toList, .string "ES256".toList)]

/-- The claims of the token. -/
def tokenMembers : List (Text × Json) :=
  mintedMembers (graphIri podSpace.root) owner.iri jkt tokenId.text mintTime

/-- The JSON documents there are. -/
def parseDocument (bytes : Bytes) : Option Json :=
  if bytes = Text.utf8 keyFileText then
    some (.object [("keys".toList, .array [.object keyMembers])])
  else if bytes = Text.utf8 headerText then
    some (.object headerMembers)
  else if bytes = Text.utf8 claimsText then
    some (.object tokenMembers)
  else
    none

theorem parseDocument_keyFile :
    parseDocument (Text.utf8 keyFileText) =
      some (.object [("keys".toList, .array [.object keyMembers])]) :=
  if_pos rfl

theorem parseDocument_header :
    parseDocument (Text.utf8 headerText) = some (.object headerMembers) := by
  have notKeys : Text.utf8 headerText ≠ Text.utf8 keyFileText :=
    Text.utf8_injective.ne (by decide)
  unfold parseDocument
  rw [if_neg notKeys, if_pos rfl]

theorem parseDocument_claims :
    parseDocument (Text.utf8 claimsText) = some (.object tokenMembers) := by
  have notKeys : Text.utf8 claimsText ≠ Text.utf8 keyFileText :=
    Text.utf8_injective.ne (by decide)
  have notHeader : Text.utf8 claimsText ≠ Text.utf8 headerText :=
    Text.utf8_injective.ne (by decide)
  unfold parseDocument
  rw [if_neg notKeys, if_neg notHeader, if_pos rfl]

/-- The segments there are. -/
def decodeText (segment : Text) : Option Bytes :=
  if segment = headerPart then
    some (Text.utf8 headerText)
  else if segment = payloadPart then
    some (Text.utf8 claimsText)
  else
    none

scoped instance : WireFormats where
  sha256 bytes := bytes
  encodeBase64Url bytes := bytes.map fun byte => .ofNat byte.toNat
  decodeBase64Url := decodeText
  parseJson := parseDocument
  writeJson _ := []

scoped instance : Josekit where
  Jwk := List (Text × Json)
  Verifier := List (Text × Json)
  fromMap members := some members
  keyType key := (keyMember key "kty").getD []
  curve key := keyMember key "crv"
  keyId key := keyMember key "kid"
  keyUse key := keyMember key "use"
  isForKeyOperation _ _ := true
  rs256Verifier _ := none
  es256Verifier key := some key
  verify _ _ _ := false
  decodeWithVerifier token key :=
    if token = mintedToken ∧ keyMember key "kid" = some "op".toList then
      (payloadOf token).toOption.bind Json.asObject
    else
      none

/-- The members of a key that are public. -/
def publicMembers : List Text :=
  ["crv".toList, "e".toList, "kty".toList, "n".toList, "x".toList, "y".toList]

/-- The claims a payload takes. -/
def takesClaim (name : Text) (value : Json) : Bool :=
  if name = "iss".toList ∨ name = "sub".toList ∨ name = "jti".toList then
    value.asStr.isSome
  else if name = "aud".toList then
    match value with
    | .array members => members.all fun member => member.asStr.isSome
    | _ => value.asStr.isSome
  else if name = "iat".toList ∨ name = "exp".toList ∨
      name = "nbf".toList then
    match value with
    | .integer seconds => 0 ≤ seconds && seconds < 2 ^ 64
    | _ => false
  else
    true

scoped instance : JoseSigning where
  Signer := List (Text × Json)
  generateEcKey _ := .error "no entropy".toList
  algorithm key := keyMember key "alg"
  parameter key name := key.lookup name
  setKeyId key kid := insertMember key "kid".toList (.string kid)
  setAlgorithm key name := insertMember key "alg".toList (.string name)
  toPublicKey key := .ok (key.filter (publicMembers.contains ·.1))
  toMap key := key
  es256Signer key :=
    if keyMember key "kty" = some "EC".toList ∧
        keyMember key "crv" = some "P-256".toList ∧
        keyMember key "kid" = some "op".toList then
      .ok key
    else
      .error "no such key".toList
  rs256Signer _ := .error "no such key".toList
  acceptsClaim := takesClaim
  encodeWithSigner payload _ _ :=
    if (payload.lookup "jti".toList).bind Json.asStr = some tokenId.text then
      some mintedToken
    else
      none

theorem split_mintedToken :
    Text.split '.' mintedToken = [headerPart, payloadPart, signaturePart] := by
  refine List.splitOn_intercalate '.' ?_ (by simp)
  intro part member
  simp only [List.mem_cons, List.not_mem_nil, or_false] at member
  rcases member with rfl | rfl | rfl
  · decide
  · decide +kernel
  · decide

theorem decodeSegment_eq
    {segment : Text} {bytes : Bytes} {value : Json}
    (decoded : decodeText segment = some bytes)
    (parsed : parseDocument bytes = some value) :
    decodeSegment segment = .ok value := by
  unfold decodeSegment
  have sameDecoded : WireFormats.decodeBase64Url segment = some bytes :=
    decoded
  have sameParsed : WireFormats.parseJson bytes = some value :=
    parsed
  rw [sameDecoded]
  change AuthError.okOr (WireFormats.parseJson bytes) _ = _
  rw [sameParsed]
  rfl

theorem decodeSegment_headerPart :
    decodeSegment headerPart = .ok (.object headerMembers) :=
  decodeSegment_eq (if_pos rfl) parseDocument_header

theorem decodeSegment_payloadPart :
    decodeSegment payloadPart = .ok (.object tokenMembers) := by
  have notHeader : payloadPart ≠ headerPart := by
    decide
  have decoded : decodeText payloadPart = some (Text.utf8 claimsText) := by
    unfold decodeText
    rw [if_neg notHeader, if_pos rfl]
  exact decodeSegment_eq decoded parseDocument_claims

theorem payloadOf_mintedToken :
    payloadOf mintedToken = .ok (.object tokenMembers) := by
  unfold payloadOf
  rw [split_mintedToken]
  exact decodeSegment_payloadPart

theorem lookup_filter
    (members : List (Text × Json)) (keeps : Text → Bool) (name : Text) :
    (members.filter fun member => keeps member.1).lookup name =
      if keeps name then members.lookup name else none := by
  induction members with
  | nil =>
      simp
  | cons first rest inductionHypothesis =>
      obtain ⟨other, value⟩ := first
      by_cases isName : name = other
      · subst isName
        by_cases kept : keeps name = true
        · simp [kept]
        · simp [kept, inductionHypothesis]
      · have notSame : (name == other) = false :=
          beq_eq_false_iff_ne.mpr isName
        by_cases kept : keeps other = true
        · simp [kept, List.lookup_cons, notSame, inductionHypothesis]
        · simp [kept, List.lookup_cons, notSame, inductionHypothesis]

theorem keyMember_insertMember
    (key : List (Text × Json)) (name other : String) (value : Text) :
    keyMember (insertMember key name.toList (.string value)) other =
      if other.toList = name.toList then some value
      else keyMember key other := by
  unfold keyMember insertMember
  rw [List.lookup_append, lookup_filter key (· ≠ name.toList) other.toList]
  by_cases same : other.toList = name.toList
  · simp [same, Json.asStr]
  · have notSame : (other.toList == name.toList) = false :=
      beq_eq_false_iff_ne.mpr same
    simp [same, notSame, List.lookup_cons]

theorem keyMember_public
    (key : List (Text × Json)) (name : String)
    (isPublic : name.toList ∈ publicMembers) :
    keyMember (key.filter (publicMembers.contains ·.1)) name =
      keyMember key name := by
  unfold keyMember
  rw [lookup_filter key publicMembers.contains name.toList,
    if_pos (List.contains_iff_mem.mpr isPublic)]

theorem public_insertMember
    (key : List (Text × Json)) {name : Text} (value : Json)
    (isPrivate : name ∉ publicMembers) :
    (insertMember key name value).filter (publicMembers.contains ·.1) =
      key.filter (publicMembers.contains ·.1) := by
  unfold insertMember
  rw [List.filter_append, List.filter_filter]
  have dropped :
      [(name, value)].filter (publicMembers.contains ·.1) = [] := by
    simp [isPrivate]
  rw [dropped, List.append_nil]
  refine List.filter_congr fun member _ => ?_
  by_cases isPublic : member.1 ∈ publicMembers
  · have different : member.1 ≠ name := by
      rintro rfl
      exact isPrivate isPublic
    simp [isPublic, different]
  · simp [isPublic]

/-- Only the P-256 key with this identifier signs. -/
theorem signer_of_es256
    {jwk signer : List (Text × Json)}
    (isSigner : JoseSigning.es256Signer jwk = .ok signer) :
    keyMember jwk "kty" = some "EC".toList ∧
      keyMember jwk "crv" = some "P-256".toList ∧
      keyMember jwk "kid" = some "op".toList := by
  by_contra noKey
  have isRefused :
      JoseSigning.es256Signer jwk = .error "no such key".toList :=
    if_neg noKey
  rw [isRefused] at isSigner
  cases isSigner

theorem es256_of_signerFor
    {jwk signer : List (Text × Json)}
    (isSigner : signerFor jwk = .ok signer) :
    JoseSigning.es256Signer jwk = .ok signer := by
  unfold signerFor at isSigner
  split at isSigner
  · cases isSigner
  · exact isSigner

/-- The published half of a key keeps its identifier. -/
theorem kid_of_publish
    {jwk published : List (Text × Json)} {kid : Text}
    (named : keyMember jwk "kid" = some kid)
    (isPublished : publish jwk = some published) :
    keyMember published "kid" = some kid := by
  have isNamed : Josekit.keyId jwk = some kid := named
  unfold publish at isPublished
  rw [isNamed] at isPublished
  cases isMarked : JoseSigning.algorithm jwk with
  | none =>
      rw [isMarked] at isPublished
      cases isPublished
      exact keyMember_insertMember _ "kid" "kid" kid
  | some algorithm =>
      rw [isMarked] at isPublished
      cases isPublished
      exact (keyMember_insertMember _ "alg" "kid" algorithm).trans
        (keyMember_insertMember _ "kid" "kid" kid)

theorem encoded_tokenMembers
    (header signer : List (Text × Json)) :
    JoseSigning.encodeWithSigner tokenMembers header signer =
      some mintedToken :=
  if_pos rfl

theorem compact_mintedToken :
    CompactJws mintedToken "op".toList tokenMembers :=
  ⟨headerPart, payloadPart, signaturePart, .object headerMembers,
    .object tokenMembers, split_mintedToken, decodeSegment_headerPart, rfl,
    decodeSegment_payloadPart, fun _ => rfl⟩

theorem payloadContract : PayloadContract where
  texts name value member := by
    simp only [List.mem_cons, List.not_mem_nil, or_false] at member
    rcases member with rfl | rfl | rfl | rfl
    all_goals rfl
  audience members := by
    change (members.map Json.string).all _ = true
    simp [Json.asStr]
  confirmation _ := rfl
  times name value member below := by
    simp only [List.mem_cons, List.not_mem_nil, or_false] at member
    have small : value < 2 ^ 64 := by omega
    rcases member with rfl | rfl
    · change (decide (0 ≤ value) && decide (value < 2 ^ 64)) = true ↔ 0 ≤ value
      rw [Bool.and_eq_true, decide_eq_true_iff, decide_eq_true_iff]
      omega
    · change (decide (0 ≤ value) && decide (value < 2 ^ 64)) = true ↔ 0 ≤ value
      rw [Bool.and_eq_true, decide_eq_true_iff, decide_eq_true_iff]
      omega

/-- The library keeps its contract for every payload it has a token of. -/
theorem signingContract
    {payload : List (Text × Json)}
    (known : IsPayload payload → payload = tokenMembers) :
    SigningContract payload where
  keyIdSet jwk kid := keyMember_insertMember jwk "kid" "kid" kid
  keyIdKept jwk algorithm := keyMember_insertMember jwk "alg" "kid" algorithm
  algorithmKept jwk kid := keyMember_insertMember jwk "kid" "alg" kid
  algorithmSet jwk algorithm :=
    keyMember_insertMember jwk "alg" "alg" algorithm
  kindOfNamed jwk kid :=
    ⟨congrArg (·.getD []) (keyMember_insertMember jwk "kid" "kty" kid),
      keyMember_insertMember jwk "kid" "crv" kid⟩
  kindOfMarked jwk algorithm :=
    ⟨congrArg (·.getD []) (keyMember_insertMember jwk "alg" "kty" algorithm),
      keyMember_insertMember jwk "alg" "crv" algorithm⟩
  kindOfPublic jwk derived derives := by
    cases derives
    exact ⟨congrArg (·.getD [])
      (keyMember_public jwk "kty" (by decide)),
      keyMember_public jwk "crv" (by decide)⟩
  publicOfNamed jwk kid :=
    congrArg Except.ok (public_insertMember jwk _ (by decide))
  publicOfMarked jwk algorithm :=
    congrArg Except.ok (public_insertMember jwk _ (by decide))
  serialized _ := rfl
  kindOfRs256 jwk signer isSigner := by
    cases isSigner
  kindOfEs256 jwk signer isSigner :=
    ⟨congrArg (·.getD []) (signer_of_es256 isSigner).1,
      (signer_of_es256 isSigner).2.1⟩
  generates entropy jwk kid generated := by
    cases generated
  encodes jwk signer kid isPayload isSigner named := by
    obtain rfl := known isPayload
    have isOp := (signer_of_es256 (es256_of_signerFor isSigner)).2.2
    obtain rfl : kid = "op".toList :=
      Option.some.inj (Eq.trans (Eq.symm named) isOp)
    exact ⟨mintedToken, encoded_tokenMembers _ signer, compact_mintedToken⟩
  verifiesRs256 jwk signer published _ isSigner := by
    cases isSigner
  verifiesEs256 jwk signer published isPayload isSigner isPublished := by
    obtain rfl := known isPayload
    refine ⟨published, rfl, fun header token encoded => ?_⟩
    rw [encoded_tokenMembers] at encoded
    cases encoded
    have isOp := kid_of_publish (signer_of_es256 isSigner).2.2 isPublished
    refine ⟨tokenMembers, ?_, fun _ => rfl⟩
    have decoded :
        Josekit.decodeWithVerifier mintedToken published =
          (payloadOf mintedToken).toOption.bind Json.asObject :=
      if_pos ⟨rfl, isOp⟩
    rw [decoded, payloadOf_mintedToken]
    rfl

theorem loaded_keyFile :
    KeySet.loadOrGenerate "keys.json".toList (.text keyFileText)
      (fun _ => .ok ()) 0 = .ok ⟨[keyMembers]⟩ := by
  have parsed :
      WireFormats.parseJson (Text.utf8 keyFileText) =
        some (.object [("keys".toList, .array [.object keyMembers])]) :=
    parseDocument_keyFile
  unfold KeySet.loadOrGenerate
  simp only
  rw [parsed]
  rfl

/-- The token of the key file is verified until it expires, and not after. -/
theorem mintedToken_verified :
    ∃ token published,
      mintAccessToken ⟨[keyMembers]⟩ podSpace owner jkt tokenId mintTime =
          some token ∧
        ∀ time : I64,
          (verifyAccessToken
            (fun _ => (pure published : Verification Unit _)) token
            time).perform () =
            (if time.value < 1600 then
              .ok ⟨owner.iri, jkt, graphIri podSpace.root, ["solid".toList]⟩
            else
              .error .expired, ()) := by
  obtain ⟨token, published, minted, _, verified, _⟩ :=
    minted_token_verified podSpace owner jkt tokenId mintTime
      (signingContract fun _ => rfl) payloadContract loaded_keyFile (by decide)
      (by decide)
  exact ⟨token, published, minted, fun time =>
    verified (fun _ => pure published) () () time rfl⟩

/-- The last second before the epoch. -/
def beforeEpoch : I64 := ⟨-1, by decide, by decide⟩

/-- The claims of a token of that second. -/
def earlyMembers : List (Text × Json) :=
  mintedMembers (graphIri podSpace.root) owner.iri jkt tokenId.text beforeEpoch

theorem not_isPayload_earlyMembers : ¬ IsPayload earlyMembers := by
  intro isPayload
  have accepted : takesClaim "iat".toList (.integer (-1)) = true :=
    isPayload ("iat".toList, .integer (-1))
      (by simp [earlyMembers, mintedMembers, mintedClaims, beforeEpoch])
  revert accepted
  decide

/-- The key set loads and the time is in range, but no token is minted. -/
theorem unminted_beforeEpoch :
    SigningContract earlyMembers ∧ PayloadContract ∧
      KeySet.loadOrGenerate "keys.json".toList (.text keyFileText)
        (fun _ => .ok ()) 0 = .ok ⟨[keyMembers]⟩ ∧
      beforeEpoch.value + accessTokenTtlSecs < 2 ^ 63 ∧
      mintAccessToken ⟨[keyMembers]⟩ podSpace owner jkt tokenId beforeEpoch =
        none :=
  ⟨signingContract fun isPayload =>
      (not_isPayload_earlyMembers isPayload).elim,
    payloadContract, loaded_keyFile, by decide,
    mintAccessToken_of_negative payloadContract (by decide)⟩

end Quadpod.OpReference
