import Quadpod.PodRuns
import Quadpod.ReferenceSyntax
import Quadpod.StoredLiterals

namespace Quadpod

open AtomicProgram

/-!
# A pod to evaluate

Concrete instances for the libraries the pod rests on, so that its definitions
can be run on small inputs.  They follow the libraries where those inputs go: a
digest is the hexadecimal form of what is hashed, a path segment is
percent-encoded, and the parsers know the documents used here and refuse every
other; what stands at the root's ACL is always the document of `provision`.
-/

namespace Reference

/-! ## Digests and object paths -/

/-- A hexadecimal digit, in lower case. -/
def hexDigit (value : Nat) : Char :=
  "0123456789abcdef".toList.getD value '0'

/-- The two digits of a byte. -/
def hexByte (byte : UInt8) : Text :=
  [hexDigit (byte.toNat / 16), hexDigit (byte.toNat % 16)]

theorem hexDigit_isAlphanum : ∀ value < 16, (hexDigit value).isAlphanum := by
  decide

theorem hexDigit_injective :
    ∀ first < 16, ∀ second < 16,
      hexDigit first = hexDigit second → first = second := by
  decide

theorem hexByte_injective {first second : UInt8}
    (same : hexByte first = hexByte second) : first = second := by
  have firstSmall := first.toNat_lt
  have secondSmall := second.toNat_lt
  simp only [hexByte, List.cons.injEq, and_true] at same
  have high :=
    hexDigit_injective _ (by omega) _ (by omega) same.1
  have low :=
    hexDigit_injective _ (by omega) _ (by omega) same.2
  apply UInt8.toNat_inj.mp
  omega

theorem flatMap_hexByte_injective :
    Function.Injective fun bytes : List UInt8 => bytes.flatMap hexByte := by
  intro first
  induction first with
  | nil =>
      intro second same
      cases second with
      | nil =>
          rfl
      | cons byte rest =>
          cases same
  | cons byte rest inductionHypothesis =>
      intro second same
      cases second with
      | nil =>
          cases same
      | cons otherByte otherRest =>
          simp only [List.flatMap_cons] at same
          obtain ⟨sameByte, sameRest⟩ := List.append_inj same rfl
          rw [hexByte_injective sameByte, inductionHypothesis sameRest]

scoped instance : Sha256 where
  hexDigest bytes := bytes.flatMap hexByte
  hex bytes c member := by
    obtain ⟨byte, _, inByte⟩ := List.mem_flatMap.mp member
    have small := byte.toNat_lt
    simp only [hexByte, List.mem_cons, List.not_mem_nil, or_false] at inByte
    rcases inByte with rfl | rfl
    · exact hexDigit_isAlphanum _ (by omega)
    · exact hexDigit_isAlphanum _ (by omega)

/-- One character of a path segment, percent-encoded where it has to be. -/
def encodeChar (c : Char) : Text :=
  if c = '%' then
    ['%', '2', '5']
  else if c = '/' then
    ['%', '2', 'F']
  else
    [c]

/-- Reading an encoded segment back. -/
def decodeSegment : Text → Text
  | '%' :: '2' :: '5' :: rest => '%' :: decodeSegment rest
  | '%' :: '2' :: 'F' :: rest => '/' :: decodeSegment rest
  | c :: rest => c :: decodeSegment rest
  | [] => []

theorem decodeSegment_encode (segment : Text) :
    decodeSegment (segment.flatMap encodeChar) = segment := by
  induction segment with
  | nil =>
      rfl
  | cons c rest inductionHypothesis =>
      rw [List.flatMap_cons]
      by_cases isPercent : c = '%'
      · subst isPercent
        exact congrArg (List.cons '%') inductionHypothesis
      by_cases isSlash : c = '/'
      · subst isSlash
        exact congrArg (List.cons '/') inductionHypothesis
      rw [encodeChar, if_neg isPercent, if_neg isSlash, List.singleton_append,
        decodeSegment, inductionHypothesis]
      · rintro _ rfl
        exact (isPercent rfl).elim
      · rintro _ rfl
        exact (isPercent rfl).elim

scoped instance : ObjectPath where
  encode segment := segment.flatMap encodeChar
  injective := Function.LeftInverse.injective decodeSegment_encode
  slashFree segment member := by
    obtain ⟨c, _, inChar⟩ := List.mem_flatMap.mp member
    unfold encodeChar at inChar
    split at inChar
    · revert inChar
      decide
    · split at inChar
      · revert inChar
        decide
      · next notSlash =>
          rw [List.mem_singleton] at inChar
          exact notSlash inChar.symm
  empty := rfl

/-! ## A pod and its documents -/

/-- The base URI of the pod. -/
def podBase : Text := "https://pod.example/".toList

/-- The space of the pod. -/
def podSpace : StorageSpace where
  base := podBase
  absolute := by decide
  trailingSlash := by decide
  valid := by decide

/-- The WebID of the owner. -/
def ownerIri : Text := "https://id.example/me".toList

/-- The owner of the pod. -/
def owner : NamedNode := ⟨ownerIri, by decide⟩

/-- The owner as an agent. -/
def ownerAgent : Agent := .webId ownerIri

/-- A UUID that is a row of letters, one for each number. -/
def uuid (number : Nat) : Uuid where
  text := List.replicate (number + 1) 'a'
  nonempty := by simp
  plain c member := by
    rw [List.eq_of_mem_replicate member]
    decide

/-- The UUIDs of every request. -/
def draws : Draws where
  childName := uuid 0
  retryName := uuid 1
  blank := uuid

/-- The mode that lets an agent change access rules. -/
def controlMode : NamedNode := ⟨aclControlIri, by decide⟩

/-- The quads of the root ACL, read against the IRI of the document. -/
def rootAclQuads : List Quad :=
  let subject : NamedOrBlankNode :=
    .namedNode ⟨"https://pod.example/.aux/.acl#owner".toList, by decide⟩
  let root : Term := .namedNode ⟨podBase, by decide⟩
  let mode : NamedNode := ⟨aclModeIri, by decide⟩
  [⟨subject, rdfType, .namedNode ⟨aclAuthorizationIri, by decide⟩,
      .defaultGraph⟩,
    ⟨subject, ⟨aclAgentIri, by decide⟩, .namedNode owner, .defaultGraph⟩,
    ⟨subject, ⟨aclAccessToIri, by decide⟩, root, .defaultGraph⟩,
    ⟨subject, ⟨aclDefaultIri, by decide⟩, root, .defaultGraph⟩,
    ⟨subject, mode, .namedNode ⟨aclReadIri, by decide⟩, .defaultGraph⟩,
    ⟨subject, mode, .namedNode ⟨aclWriteIri, by decide⟩, .defaultGraph⟩,
    ⟨subject, mode, .namedNode controlMode, .defaultGraph⟩]

/-- A rule that lets everyone read what the root's ACL governs. -/
def everyoneQuads : List Quad :=
  let subject : NamedOrBlankNode :=
    .namedNode ⟨"https://pod.example/.aux/.acl#everyone".toList, by decide⟩
  [⟨subject, rdfType, .namedNode ⟨aclAuthorizationIri, by decide⟩,
      .defaultGraph⟩,
    ⟨subject, ⟨aclAgentClassIri, by decide⟩,
      .namedNode ⟨foafAgentIri, by decide⟩, .defaultGraph⟩,
    ⟨subject, ⟨aclDefaultIri, by decide⟩,
      .namedNode ⟨podBase, by decide⟩, .defaultGraph⟩,
    ⟨subject, ⟨aclModeIri, by decide⟩,
      .namedNode ⟨aclReadIri, by decide⟩, .defaultGraph⟩]

/-- A predicate of no special meaning. -/
def plainPredicate : NamedNode :=
  ⟨"urn:x:p".toList, by decide⟩

/-- A statement about a thing without a name. -/
def blankTurtle : Text := "[] <urn:x:p> 'x' .".toList

/-- Its quads. -/
def blankQuads : List Quad :=
  [⟨.blankNode ⟨"b0".toList⟩, plainPredicate, .literal (.simple "x".toList),
    .defaultGraph⟩]

/-- The document with one line for each quad, which every format here shares. -/
def document (quads : List Quad) : Text :=
  quads.flatMap fun quad => displayQuad quad ++ " .\n".toList

/-- A statement about a statement. -/
def statedQuads : List Quad :=
  let subject : NamedOrBlankNode := .namedNode owner
  [⟨subject, plainPredicate,
    .triple subject plainPredicate (.namedNode owner), .defaultGraph⟩]

/-- The statements the server makes of the container `/note/`. -/
def folderQuads : List Quad :=
  let subject : NamedOrBlankNode :=
    .namedNode ⟨"https://pod.example/note/".toList, by decide⟩
  [⟨subject, rdfType, .namedNode ldpBasicContainer, .defaultGraph⟩,
    ⟨subject, rdfType, .namedNode ldpContainer, .defaultGraph⟩]

/-- The owner's profile, which declares one issuer. -/
def profileQuads : List Quad :=
  [⟨.namedNode owner,
    ⟨"http://www.w3.org/ns/solid/terms#oidcIssuer".toList, by decide⟩,
    .namedNode ⟨"https://idp.example/".toList, by decide⟩, .defaultGraph⟩]

/-- An ACL of `/note` that lets everyone read what lies below it. -/
def leafAclQuads : List Quad :=
  let subject : NamedOrBlankNode := .blankNode ⟨"b0".toList⟩
  let leaf : Term :=
    .namedNode ⟨"https://pod.example/note".toList, by decide⟩
  [⟨subject, ⟨aclAgentClassIri, by decide⟩,
      .namedNode ⟨foafAgentIri, by decide⟩, .defaultGraph⟩,
    ⟨subject, ⟨aclDefaultIri, by decide⟩, leaf, .defaultGraph⟩,
    ⟨subject, ⟨aclModeIri, by decide⟩,
      .namedNode ⟨aclReadIri, by decide⟩, .defaultGraph⟩]

/-- Somebody else than the owner. -/
def friendIri : Text := "https://id.example/you".toList

/-- The friend, as a node. -/
def friend : NamedNode := ⟨friendIri, by decide⟩

/-- An ACL of `/note` that lets the owner do anything and a friend write. -/
def sharedAclQuads : List Quad :=
  let leaf : Term :=
    .namedNode ⟨"https://pod.example/note".toList, by decide⟩
  let subject (number : Text) : NamedOrBlankNode := .blankNode ⟨number⟩
  let mode : NamedNode := ⟨aclModeIri, by decide⟩
  [⟨subject "b0".toList, ⟨aclAgentIri, by decide⟩, .namedNode owner,
      .defaultGraph⟩,
    ⟨subject "b0".toList, ⟨aclAccessToIri, by decide⟩, leaf, .defaultGraph⟩,
    ⟨subject "b0".toList, mode, .namedNode controlMode, .defaultGraph⟩,
    ⟨subject "b1".toList, ⟨aclAgentIri, by decide⟩, .namedNode friend,
      .defaultGraph⟩,
    ⟨subject "b1".toList, ⟨aclAccessToIri, by decide⟩, leaf, .defaultGraph⟩,
    ⟨subject "b1".toList, mode, .namedNode ⟨aclWriteIri, by decide⟩,
      .defaultGraph⟩]

scoped instance : RdfParser where
  parse _ bytes base :=
    if base = "https://pod.example/.aux/.acl".toList then
      .ok rootAclQuads
    else if bytes = Text.utf8 blankTurtle then
      .ok blankQuads
    else
      match [[], statedQuads, folderQuads, profileQuads, leafAclQuads,
          sharedAclQuads].find? fun quads => bytes == Text.utf8 (document quads) with
      | some quads => .ok quads
      | none => .error "unknown document".toList

scoped instance : RdfSerializer where
  serialize _ quads := .ok (document quads)

scoped instance : ShapeEngine where
  validate _ _ := .error (.engine "no engine".toList)

/-- Booleans come back as words. -/
def canonicalLiteral : Literal → Literal
  | .typed value datatype =>
      if datatype = xsdBoolean ∧ value = "1".toList then
        .typed "true".toList xsdBoolean
      else if datatype = xsdBoolean ∧ value = "0".toList then
        .typed "false".toList xsdBoolean
      else
        .typed value datatype
  | content => content

theorem canonicalLiteral_words :
    canonicalLiteral (.typed "true".toList xsdBoolean) =
        .typed "true".toList xsdBoolean ∧
      canonicalLiteral (.typed "false".toList xsdBoolean) =
        .typed "false".toList xsdBoolean := by
  decide

theorem canonicalLiteral_idempotent (content : Literal) :
    canonicalLiteral (canonicalLiteral content) = canonicalLiteral content := by
  cases content with
  | typed value datatype =>
      by_cases isOne : datatype = xsdBoolean ∧ value = "1".toList
      · have one : canonicalLiteral (.typed value datatype) =
            .typed "true".toList xsdBoolean := if_pos isOne
        rw [one, canonicalLiteral_words.1]
      · by_cases isZero : datatype = xsdBoolean ∧ value = "0".toList
        · have zero : canonicalLiteral (.typed value datatype) =
              .typed "false".toList xsdBoolean :=
            (if_neg isOne).trans (if_pos isZero)
          rw [zero, canonicalLiteral_words.2]
        · have other : canonicalLiteral (.typed value datatype) =
              .typed value datatype :=
            (if_neg isOne).trans (if_neg isZero)
          rw [other, other]
  | _ =>
      rfl

scoped instance : LiteralForms where
  canonical := canonicalLiteral
  idempotent := canonicalLiteral_idempotent
  untyped content untyped := by
    cases content with
    | typed value datatype =>
        exact (untyped value datatype rfl).elim
    | _ =>
        rfl
  marker := canonicalLiteral_words.1

/-- A patch that makes a predicate of whatever has the statement above. -/
def predicatePatch : Text :=
  "@prefix s: <".toList ++ solidNamespace ++ "> . ".toList ++
    "_:p a s:InsertDeletePatch ; ".toList ++
    "s:where \x7b ?s <urn:x:p> 'x' \x7d ; ".toList ++
    "s:inserts \x7b <urn:x:p> ?s 'y' \x7d .".toList

/-- Its quads. -/
def predicatePatchQuads : List N3Quad :=
  let patch : N3Term := .blankNode ⟨"p".toList⟩
  let conditions : BlankNode := ⟨"f0".toList⟩
  let insertions : BlankNode := ⟨"f1".toList⟩
  [⟨patch, .namedNode rdfType,
      .namedNode ⟨solidInsertDeletePatchIri, by decide⟩, .defaultGraph⟩,
    ⟨.variable "s".toList, .namedNode plainPredicate,
      .literal (.simple "x".toList), .blankNode conditions⟩,
    ⟨patch, .namedNode ⟨solidWhereIri, by decide⟩, .blankNode conditions,
      .defaultGraph⟩,
    ⟨.namedNode plainPredicate, .variable "s".toList,
      .literal (.simple "y".toList), .blankNode insertions⟩,
    ⟨patch, .namedNode ⟨solidInsertsIri, by decide⟩, .blankNode insertions,
      .defaultGraph⟩]

/-- A patch that makes a predicate of whatever is stated. -/
def objectPatch : Text :=
  "@prefix s: <".toList ++ solidNamespace ++ "> . ".toList ++
    "_:p a s:InsertDeletePatch ; ".toList ++
    "s:where \x7b ?s <urn:x:p> ?o \x7d ; ".toList ++
    "s:inserts \x7b ?s ?o 'y' \x7d .".toList

/-- Its quads. -/
def objectPatchQuads : List N3Quad :=
  let patch : N3Term := .blankNode ⟨"p".toList⟩
  let conditions : BlankNode := ⟨"f0".toList⟩
  let insertions : BlankNode := ⟨"f1".toList⟩
  [⟨patch, .namedNode rdfType,
      .namedNode ⟨solidInsertDeletePatchIri, by decide⟩, .defaultGraph⟩,
    ⟨.variable "s".toList, .namedNode plainPredicate, .variable "o".toList,
      .blankNode conditions⟩,
    ⟨patch, .namedNode ⟨solidWhereIri, by decide⟩, .blankNode conditions,
      .defaultGraph⟩,
    ⟨.variable "s".toList, .variable "o".toList,
      .literal (.simple "y".toList), .blankNode insertions⟩,
    ⟨patch, .namedNode ⟨solidInsertsIri, by decide⟩, .blankNode insertions,
      .defaultGraph⟩]

/-- A patch with one insertion. -/
def shortPatch : Text :=
  "@prefix s: <".toList ++ solidNamespace ++ "> . ".toList ++
    "_:p a s:InsertDeletePatch ; ".toList ++
    "s:inserts \x7b <urn:x:p> ".toList ++ "<urn:x:p> 'x' \x7d .".toList

/-- Its quads. -/
def shortPatchQuads : List N3Quad :=
  let patch : N3Term := .blankNode ⟨"p".toList⟩
  let insertions : BlankNode := ⟨"f0".toList⟩
  [⟨patch, .namedNode rdfType,
      .namedNode ⟨solidInsertDeletePatchIri, by decide⟩, .defaultGraph⟩,
    ⟨.namedNode plainPredicate, .namedNode plainPredicate,
      .literal (.simple "x".toList), .blankNode insertions⟩,
    ⟨patch, .namedNode ⟨solidInsertsIri, by decide⟩, .blankNode insertions,
      .defaultGraph⟩]

/-- The literals that a long patch states. -/
def crowd : List Text :=
  (List.range 1001).map fun number => List.replicate number 'x'

/-- A patch with more insertions than an auxiliary document may have. -/
def crowdPatch : Text :=
  "_:p a <".toList ++ solidInsertDeletePatchIri ++ "> ; <".toList ++
    solidInsertsIri ++ "> \x7b ".toList ++
    (crowd.flatMap fun text =>
      "<urn:x:p> <urn:x:p> '".toList ++ text ++ "' . ".toList) ++
    "\x7d .".toList

/-- Its quads. -/
def crowdPatchQuads : List N3Quad :=
  let patch : N3Term := .blankNode ⟨"p".toList⟩
  let insertions : BlankNode := ⟨"f0".toList⟩
  ⟨patch, .namedNode rdfType,
      .namedNode ⟨solidInsertDeletePatchIri, by decide⟩, .defaultGraph⟩ ::
    (crowd.map fun text =>
      ⟨.namedNode plainPredicate, .namedNode plainPredicate,
        .literal (.simple text), .blankNode insertions⟩) ++
    [⟨patch, .namedNode ⟨solidInsertsIri, by decide⟩, .blankNode insertions,
      .defaultGraph⟩]

scoped instance : N3Parser where
  parse bytes _ :=
    if bytes = Text.utf8 predicatePatch then
      .ok predicatePatchQuads
    else if bytes = Text.utf8 objectPatch then
      .ok objectPatchQuads
    else if bytes = Text.utf8 shortPatch then
      .ok shortPatchQuads
    else if bytes = Text.utf8 crowdPatch then
      .ok crowdPatchQuads
    else
      .error "unknown document".toList

/-- The media type of a plain text. -/
def plainText : MediaType where
  raw := "text/plain".toList
  trimmed := by decide
  accepted := by decide

/-- A resource right below the root. -/
def note : ResourceUrl podSpace where
  path := "/note".toList
  iri := "https://pod.example/note".toList
  addressable := ⟨by decide, by decide, by decide⟩
  iriPath := by decide
  valid := by decide

/-- The container whose path only adds a slash. -/
def noteFolder : ResourceUrl podSpace where
  path := "/note/".toList
  iri := "https://pod.example/note/".toList
  addressable := ⟨by decide, by decide, by decide⟩
  iriPath := by decide
  valid := by decide

/-! ## Runs -/

/-- Whether a run returned, with no fault left over. -/
def answered {ε : Type} (outcome : Outcome stores ε Unit World) : Bool :=
  outcome.result.isOk && outcome.faults.isEmpty

theorem outcome_of_answered {ε : Type} {outcome : Outcome stores ε Unit World}
    (isAnswered : answered outcome = true) :
    outcome = ⟨.ok (), outcome.world, []⟩ := by
  obtain ⟨result, world, faults⟩ := outcome
  rw [answered, Bool.and_eq_true] at isAnswered
  cases result with
  | error error =>
      cases isAnswered.1
  | ok value =>
      have noneLeft : faults = [] := List.isEmpty_iff.mp isAnswered.2
      rw [noneLeft]

/-- The world `main` starts to listen with. -/
def freshWorld : World :=
  (Program.run backend (provision podSpace owner true uuid) []
    World.empty).world

theorem provisionedFor_freshWorld :
    ProvisionedFor podSpace owner freshWorld :=
  ⟨true, uuid, outcome_of_answered (by decide)⟩

theorem provisioned_freshWorld : Provisioned podSpace freshWorld :=
  ⟨owner, provisionedFor_freshWorld⟩

/-- The owner stores the statement about a thing without a name. -/
def putBlank : Request where
  method := .put
  path := "/note".toList
  agent := ownerAgent
  headers := [(.contentType, some "text/turtle".toList)]
  body := Text.utf8 blankTurtle
  draws := draws

/-- The owner stores the statement about a statement, under some path. -/
def putStated (path : Text) : Request where
  method := .put
  path := path
  agent := ownerAgent
  headers := [(.contentType, some "text/turtle;version=1.2".toList)]
  body := Text.utf8 (document statedQuads)
  draws := draws

/-- The owner makes a predicate of the thing without a name. -/
def patchPredicate : Request where
  method := .patch
  path := "/note".toList
  agent := ownerAgent
  headers := [(.contentType, some "text/n3".toList)]
  body := Text.utf8 predicatePatch
  draws := draws

/-- The world after the statement was stored. -/
def notedWorld : World :=
  afterRequest podSpace .rdf12 putBlank [] freshWorld

/-- The world after the resource `/note` got the statement about a statement. -/
def statedWorld : World :=
  afterRequest podSpace .rdf12 (putStated "/note".toList) [] freshWorld

/-- The world after the container `/note/` got it. -/
def folderWorld : World :=
  afterRequest podSpace .rdf12 (putStated "/note/".toList) [] freshWorld

/-- The world after the patch. -/
def patchedWorld : World :=
  afterRequest podSpace .rdf12 patchPredicate [] notedWorld

theorem reachable_notedWorld :
    Reachable podSpace .rdf12 (Provisioned podSpace) anyRequest notedWorld :=
  .request freshWorld putBlank [] (.start freshWorld provisioned_freshWorld)
    trivial

end Reference

end Quadpod
