import Quadpod.AclWarnings
import Quadpod.AtomicProgramResults
import Quadpod.BlobRaces
import Quadpod.FieldSyntax
import Quadpod.ServedRepresentations
import Quadpod.ServerRuns
import Quadpod.ShapeEnforcement

namespace Quadpod

open AtomicProgram

/-!
# What `WAC-Allow` promises

A read tells its client which modes it holds on what it asked for, and which
everyone holds.  The client cuts the field into its two groups and a group into
its words.  The words it reads are the modes the nearest ACL of the world
grants, so what an answer promises is what the guard would decide.
-/

/-! ## The words of a group -/

/-- The word of a mode. -/
def Mode.word : Mode → Text
  | .read => "read".toList
  | .write => "write".toList
  | .append => "append".toList
  | .control => "control".toList

/-- The modes in the order a group lists them. -/
def Mode.listed : List Mode := [.read, .write, .append, .control]

theorem Mode.mem_listed (mode : Mode) : mode ∈ Mode.listed := by
  cases mode <;> simp [listed]

theorem Mode.word_injective : Function.Injective Mode.word := by
  intro first second same
  cases first <;> cases second <;> first | rfl | (revert same; decide)

theorem Mode.word_ne_nil (mode : Mode) : mode.word ≠ [] := by
  cases mode <;> decide

/-- A word holds neither what ends a group nor what separates words. -/
theorem Mode.word_plain (mode : Mode) : ' ' ∉ mode.word ∧ '"' ∉ mode.word := by
  cases mode <;> decide

/-- The words of a group, as a client reads them. -/
def readGroup (group : Text) : List Text :=
  (Text.split ' ' group).filter fun word => !word.isEmpty

/-- The two groups of a `WAC-Allow` field, as a client reads them. -/
def readWacAllow (value : Text) : Option (List Text × List Text) :=
  ((Text.stripPrefix "user=\"".toList value).bind (Text.splitOnce '"')).bind
    fun cut =>
      ((Text.stripPrefix ",public=\"".toList cut.2).bind
        (Text.stripSuffix ['"'])).map fun everyone =>
          (readGroup cut.1, readGroup everyone)

/-- The words of the modes that are held. -/
def AccessModes.words (modes : AccessModes) : List Text :=
  (Mode.listed.filter modes.allows).map Mode.word

theorem AccessModes.mem_words_iff {modes : AccessModes} {mode : Mode} :
    mode.word ∈ modes.words ↔ modes.allows mode = true := by
  rw [words, List.mem_map_of_injective Mode.word_injective, List.mem_filter]
  exact and_iff_right mode.mem_listed

theorem wacGroup_eq (modes : AccessModes) :
    wacGroup modes = [' '].intercalate modes.words := by
  have listed :
      ∀ listed : List Mode,
        (listed.map fun mode => (mode, mode.word)).filterMap
            (fun entry : Mode × Text =>
              if modes.allows entry.1 then some entry.2 else none) =
          (listed.filter modes.allows).map Mode.word := by
    intro listed
    induction listed with
    | nil =>
        rfl
    | cons mode rest inductionHypothesis =>
        by_cases allowed : modes.allows mode = true
        · simpa [allowed] using inductionHypothesis
        · simpa [allowed] using inductionHypothesis
  rw [AccessModes.words, ← listed]
  rfl

theorem not_mem_intercalate
    {c : Char} {separator : Text} {words : List Text}
    (unseparating : c ∉ separator) (absent : ∀ word ∈ words, c ∉ word) :
    c ∉ separator.intercalate words := by
  induction words with
  | nil =>
      exact List.not_mem_nil
  | cons word rest inductionHypothesis =>
      have inRest := inductionHypothesis fun other isOther =>
        absent other (List.mem_cons_of_mem _ isOther)
      cases rest with
      | nil =>
          rw [List.intercalate_singleton]
          exact absent word (by simp)
      | cons next others =>
          rw [List.intercalate_cons_cons, List.mem_append, List.mem_append]
          rintro ((inWord | isSeparator) | later)
          · exact absent word (by simp) inWord
          · exact unseparating isSeparator
          · exact inRest later

theorem AccessModes.quote_not_mem (modes : AccessModes) :
    '"' ∉ wacGroup modes := by
  rw [wacGroup_eq]
  refine not_mem_intercalate (by decide) fun word isWord => ?_
  obtain ⟨mode, _, rfl⟩ := List.mem_map.mp isWord
  exact mode.word_plain.2

/-- A client reads the words that were written. -/
theorem readGroup_wacGroup (modes : AccessModes) :
    readGroup (wacGroup modes) = modes.words := by
  have nonempty :
      modes.words.filter (fun word => !word.isEmpty) = modes.words := by
    refine List.filter_eq_self.mpr fun word isWord => ?_
    obtain ⟨mode, _, rfl⟩ := List.mem_map.mp isWord
    simpa using mode.word_ne_nil
  rw [wacGroup_eq, readGroup, Text.split]
  by_cases nothing : modes.words = []
  · rw [nothing]
    rfl
  · have separated : ∀ word ∈ modes.words, ' ' ∉ word := by
      intro word isWord
      obtain ⟨mode, _, rfl⟩ := List.mem_map.mp isWord
      exact mode.word_plain.1
    rw [List.splitOn_intercalate ' ' separated nothing, nonempty]

/-- A client reads the two groups that were written. -/
theorem readWacAllow_value (decision : Decision) :
    readWacAllow (wacAllowValue decision) =
      some (decision.user.words, decision.everyone.words) := by
  have closes : "\",public=\"".toList = '"' :: ",public=\"".toList := by
    decide
  have opened :
      Text.stripPrefix "user=\"".toList (wacAllowValue decision) =
        some (wacGroup decision.user ++
          '"' :: (",public=\"".toList ++
            (wacGroup decision.everyone ++ ['"']))) := by
    refine Text.stripPrefix_eq_some.mpr ?_
    unfold wacAllowValue
    rw [closes]
    -- the texts themselves do not matter from here on
    generalize "user=\"".toList = lead
    generalize ",public=\"".toList = middle
    simp only [List.append_assoc, List.cons_append]
  have cut :=
    Text.splitOnce_append_cons decision.user.quote_not_mem
      (",public=\"".toList ++ (wacGroup decision.everyone ++ ['"']))
  have rest :=
    Text.stripPrefix_append ",public=\"".toList
      (wacGroup decision.everyone ++ ['"'])
  have everyone :=
    Text.stripSuffix_append (wacGroup decision.everyone) ['"']
  simp only [readWacAllow, opened, cut, rest, everyone, Option.bind_some,
    Option.map_some, readGroup_wacGroup]

/-! ## The modes behind a decision -/

variable [IriSyntax] {space : StorageSpace}

/-- A decision holds the modes of its agent and of everyone. -/
theorem judge_modes
    {acl : List Triple} {agent : Agent} {governedIri : Text}
    {inherited : Bool} {required : Mode} {decision : Decision}
    (judged : judge acl agent governedIri inherited required = .ok decision) :
    decision.user = decideModes acl agent governedIri inherited ∧
      decision.everyone =
        decideModes acl .anonymous governedIri inherited := by
  unfold judge at judged
  dsimp only at judged
  split at judged
  · cases judged
    cases agent with
    | anonymous =>
        exact ⟨rfl, rfl⟩
    | webId webid =>
        exact ⟨rfl, rfl⟩
  · cases judged

/-- The walk that allowed a mode decides every mode by the same ACL. -/
theorem World.nearestDecision_modes
    {world : World} {agent : Agent} {required : Mode} {decision : Decision}
    {inherited : Bool} {elements : List (ResourceUrl space)}
    (decided :
      world.nearestDecision agent required inherited elements =
        .ok decision)
    (mode : Mode) :
    (decision.user.allows mode = true ↔
        ∃ other,
          world.nearestDecision agent mode inherited elements = .ok other) ∧
      (decision.everyone.allows mode = true ↔
        ∃ other,
          world.nearestDecision .anonymous mode inherited elements =
            .ok other) := by
  induction elements generalizing inherited with
  | nil =>
      cases decided
  | cons element above inductionHypothesis =>
      simp only [World.nearestDecision] at decided ⊢
      by_cases isPresent : world.present element.acl.node = true
      · simp only [if_pos isPresent] at decided ⊢
        obtain ⟨isUser, isEveryone⟩ := judge_modes decided
        rw [isUser, isEveryone]
        exact ⟨exists_judge_eq_ok_iff.symm, exists_judge_eq_ok_iff.symm⟩
      · simp only [if_neg isPresent] at decided ⊢
        exact inductionHypothesis decided

/-! ## What a field promises -/

/-- A `WAC-Allow` value tells what the nearest ACL grants, and no more. -/
structure TruthfulModes
    (world : World) (agent : Agent) (resource : ResourceUrl space)
    (value : Text) (user everyone : List Text) : Prop where
  reads : readWacAllow value = some (user, everyone)
  known : ∀ word ∈ user ++ everyone, ∃ mode : Mode, word = mode.word
  user : ∀ mode : Mode, mode.word ∈ user ↔ world.Grants agent resource mode
  everyone :
    ∀ mode : Mode, mode.word ∈ everyone ↔ world.Grants .anonymous resource mode

theorem truthfulModes_of_authorization
    {world : World} {agent : Agent} {target : Target space} {mode : Mode}
    {decision : Decision}
    (authorized : world.authorization agent target mode = .ok decision) :
    TruthfulModes world agent target.subject (wacAllowValue decision)
      decision.user.words decision.everyone.words where
  reads := readWacAllow_value decision
  known := by
    intro word isWord
    rcases List.mem_append.mp isWord with isUser | isEveryone
    · obtain ⟨mode, _, same⟩ := List.mem_map.mp isUser
      exact ⟨mode, same.symm⟩
    · obtain ⟨mode, _, same⟩ := List.mem_map.mp isEveryone
      exact ⟨mode, same.symm⟩
  user := fun mode =>
    AccessModes.mem_words_iff.trans
      (World.nearestDecision_modes authorized mode).1
  everyone := fun mode =>
    AccessModes.mem_words_iff.trans
      (World.nearestDecision_modes authorized mode).2

namespace Response

/-- The `WAC-Allow` field of a response. -/
abbrev wacAllow (response : Response) : Option Text :=
  response.header "wac-allow".toList

/-- A response that does not carry the field. -/
def Silent (response : Response) : Prop := response.wacAllow = none

/-- A served representation, or that the client has it. -/
def Serves (response : Response) : Prop :=
  response.status = 200 ∨ response.status = 304

/-- A response that serves nothing and does not carry the field. -/
structure Refused (response : Response) : Prop where
  silent : response.Silent
  serves : ¬ response.Serves

/-- A response that tells the decision, or serves nothing. -/
def Informs (decision : Decision) (response : Response) : Prop :=
  response.wacAllow = some (wacAllowValue decision) ∨ response.Refused

variable {response : Response}

section Fields

omit [IriSyntax]

theorem Silent.append
    (silent : response.Silent) (name value : Text)
    (different : "wac-allow".toList ≠ name) :
    (response.append name value).Silent :=
  (header_append response different).trans silent

theorem Silent.insert
    (silent : response.Silent) (name value : Text)
    (different : "wac-allow".toList ≠ name) :
    (response.insert name value).Silent :=
  (header_insert response different).trans silent

theorem silent_internalError : internalError.Silent :=
  rfl

theorem wacAllow_forMethod (response : Response) (method : Text) :
    (response.forMethod method).wacAllow = response.wacAllow := by
  unfold forMethod
  split <;> rfl

/-- The outermost layer leaves the field as it is. -/
theorem wacAllow_corsLayer (origin : Option Text) (response : Response) :
    (corsLayer origin response).wacAllow = response.wacAllow := by
  unfold corsLayer
  cases origin with
  | none =>
      rfl
  | some origin =>
      dsimp only
      split
      · rw [wacAllow, header_insert _ (by decide),
          header_insert _ (by decide), header_insert _ (by decide)]
      · rw [wacAllow, header_insert _ (by decide),
          header_insert _ (by decide)]

theorem status_forMethod (response : Response) (method : Text) :
    (response.forMethod method).status = response.status := by
  unfold forMethod
  split <;> rfl

theorem status_corsLayer (origin : Option Text) (response : Response) :
    (corsLayer origin response).status = response.status := by
  unfold corsLayer
  cases origin with
  | none =>
      rfl
  | some origin =>
      dsimp only
      split <;> rfl

end Fields

theorem Silent.withAuxLinks
    (silent : response.Silent) (target : Target space) :
    (response.withAuxLinks target).Silent := by
  unfold Response.withAuxLinks
  split
  · exact silent.append _ _ (by decide)
  · exact silent

theorem Silent.withAcceptWrite
    (silent : response.Silent) (target : Target space) (name : Text)
    (method : WriteMethod) (version : RdfVersion)
    (different : "wac-allow".toList ≠ name) :
    (response.withAcceptWrite target name method version).Silent := by
  unfold Response.withAcceptWrite
  split
  · exact silent.insert _ _ different
  · exact silent

theorem Silent.withAllow
    (silent : response.Silent) (target : Target space)
    (version : RdfVersion) : (response.withAllow target version).Silent := by
  have inserted :=
    (silent.insert "allow".toList (allowedMethods target) (by decide)).insert
      "accept-patch".toList "text/n3".toList (by decide)
  have put :=
    inserted.withAcceptWrite target "accept-put".toList .put version
      (by decide)
  exact put.withAcceptWrite target "accept-post".toList .post version
    (by decide)

theorem status_withAuxLinks (response : Response) (target : Target space) :
    (response.withAuxLinks target).status = response.status := by
  unfold withAuxLinks
  split <;> rfl

theorem informs_withReadHeaders
    (response : Response) (target : Target space) (decision : Decision)
    (version : RdfVersion) :
    (response.withReadHeaders target decision version).Informs decision := by
  left
  have absent :
      ∀ fields : List (Text × Text),
        (fields.filter fun field => field.1 != "wac-allow".toList).lookup
          "wac-allow".toList = none := by
    intro fields
    induction fields with
    | nil =>
        rfl
    | cons field rest inductionHypothesis =>
        by_cases isField : field.1 = "wac-allow".toList
        · rw [List.filter_cons_of_neg (by simp [isField]),
            inductionHypothesis]
        · rw [List.filter_cons_of_pos (by exact bne_iff_ne.mpr isField),
            List.lookup_cons, beq_eq_false_iff_ne.mpr (Ne.symm isField),
            inductionHypothesis]
  rw [withReadHeaders, wacAllow, header, insert, List.lookup_append, absent,
    Option.none_or, List.lookup_cons_self]

/-- Advertising the auxiliaries leaves a refusal one. -/
theorem Refused.withAuxLinks
    (refused : response.Refused) (target : Target space) :
    (response.withAuxLinks target).Refused where
  silent := refused.silent.withAuxLinks target
  serves := by
    rw [Serves, status_withAuxLinks]
    exact refused.serves

omit [IriSyntax] in
/-- A status that is no success serves nothing. -/
theorem refused_ofText
    {status : Nat} (refuses : status ≠ 200 ∧ status ≠ 304) (message : Text) :
    (ofText status message).Refused where
  silent := rfl
  serves := fun serves => serves.elim refuses.1 refuses.2

omit [IriSyntax] in
theorem refused_ofStatus
    {status : Nat} (refuses : status ≠ 200 ∧ status ≠ 304) :
    (ofStatus status).Refused where
  silent := rfl
  serves := fun serves => serves.elim refuses.1 refuses.2

omit [IriSyntax] in
theorem refused_internalError : internalError.Refused :=
  refused_ofText (by decide) _

theorem refused_absent (target : Target space) :
    ((ofStatus 404).withAuxLinks target).Refused :=
  (refused_ofStatus (by decide)).withAuxLinks target

end Response

omit [IriSyntax] in
theorem Denial.refused_toResponse (denial : Denial) :
    denial.toResponse.Refused := by
  cases denial with
  | unauthenticated =>
      exact ⟨rfl, by unfold Response.Serves; decide⟩
  | forbidden =>
      exact Response.refused_ofStatus (by decide)
  | auxSubjectMissing =>
      exact Response.refused_ofText (by decide) _
  | slashPair =>
      exact Response.refused_ofText (by decide) _
  | store error =>
      exact Response.refused_internalError

omit [IriSyntax] in
theorem putStatus_refuses (error : ResourceError) :
    putStatus error ≠ 200 ∧ putStatus error ≠ 304 := by
  cases error <;> simp [putStatus]

omit [IriSyntax] in
theorem refused_putError (error : ResourceError) :
    (putError error).Refused := by
  unfold putError
  split
  · exact Response.refused_internalError
  · exact Response.refused_ofText (putStatus_refuses error) _

omit [IriSyntax] in
theorem refused_shapeStatus (error : ShapeError) :
    (shapeStatus error).Refused := by
  unfold shapeStatus
  dsimp only
  split
  · split
    · exact Response.refused_internalError
    · exact Response.refused_ofText (putStatus_refuses _) _
  · exact Response.refused_internalError
  · split
    · exact Response.refused_internalError
    · exact Response.refused_ofText (by decide) _

/-! ## The read handlers -/

/-- A program that ends in responses without the field. -/
structure Mute (program : HttpProgram Response) : Prop where
  ends : program.Yields Response.Silent
  fails : program.FailsWith Response.Refused

theorem failsWith_probeFor (agent : Agent) (target : Target space) :
    (probeFor agent target).FailsWith Response.Refused :=
  Program.failsWith_mapError
    (fun denial => denial.refused_toResponse.withAuxLinks target) _

theorem failsWith_orDeny {α : Type}
    (target : Target space) (decision : Except Denial α) :
    (orDeny target decision).FailsWith Response.Refused :=
  Program.failsWith_ofExcept_mapError
    (fun denial => denial.refused_toResponse.withAuxLinks target) _

theorem refused_of_classify
    {path : Text} {response : Response}
    (refused : classify space path = .error response) : response.Refused := by
  unfold classify at refused
  cases resolved : space.resolve path with
  | ok target =>
      rw [resolved] at refused
      cases refused
  | error error =>
      rw [resolved] at refused
      cases refused
      cases error <;> exact Response.refused_ofStatus (by decide)

section Reads

variable [Sha256] [ObjectPath] [QuadText] [RdfSerializer] [Quality]
variable {target : Target space} {decision : Decision}

omit [ObjectPath] [Quality] in
theorem informs_rdfRead
    (storeVersion : RdfVersion) (headers : HeaderMap) (stored : Skolemized)
    (format : Format) (requested : RdfVersion) (carried : Dataset)
    (links : Response → Response) :
    (rdfRead storeVersion target decision headers stored format requested
      carried links).Informs decision := by
  unfold rdfRead
  dsimp only
  split
  · exact Response.informs_withReadHeaders _ _ _ _
  · split
    · exact Or.inr Response.refused_internalError
    · exact Response.informs_withReadHeaders _ _ _ _

omit [ObjectPath] in
theorem yields_legacyGraphRead
    (storeVersion : RdfVersion) (headers : HeaderMap) :
    (legacyGraphRead storeVersion decision target headers).Yields
      (Response.Informs decision) := by
  unfold legacyGraphRead
  split
  · exact Program.yields_done
      (Or.inr (Response.refused_ofStatus (by decide)))
  · refine Program.yields_bind fun answer => ?_
    split
    · split
      · exact Program.yields_done (Or.inr Response.refused_internalError)
      · exact Program.yields_done (informs_rdfRead _ _ _ _ _ _ _)
    · exact Program.yields_done (Or.inr (Response.refused_absent target))
    · exact Program.yields_done
        (Or.inr (Response.refused_ofStatus (by decide)))
    · exact Program.yields_done (Or.inr Response.refused_internalError)

omit [ObjectPath] in
theorem yields_resourceRead
    (storeVersion : RdfVersion) (url : ResourceUrl space)
    (headers : HeaderMap) :
    (resourceRead storeVersion target url decision headers).Yields
      (Response.Informs decision) := by
  refine Program.yields_bind fun answer => ?_
  split
  · refine Program.yields_bind fun mediaType => ?_
    split
    · exact Program.yields_done
        (Or.inr (Response.refused_ofStatus (by decide)))
    · exact Program.yields_done (informs_rdfRead _ _ _ _ _ _ _)
  · exact Program.yields_done (Or.inr (Response.refused_absent target))
  · exact Program.yields_done
      (Or.inr (Response.refused_ofStatus (by decide)))
  · exact Program.yields_done (Or.inr Response.refused_internalError)

omit [QuadText] [RdfSerializer] in
/-- A blob is served without the field. -/
theorem yields_blobRead
    (storeVersion : RdfVersion) (url : ResourceUrl space)
    (headers : HeaderMap) (mediaType : MediaType) :
    (blobRead storeVersion target url headers mediaType).Yields
      Response.Silent := by
  have plain : ∀ status, (Response.ofStatus status).Silent := fun _ => rfl
  unfold blobRead
  split
  · exact Program.yields_done (plain 406)
  · split
    · exact Program.yields_done (plain 414)
    · refine Program.yields_bind fun answer => ?_
      split
      · exact Program.yields_done Response.silent_internalError
      · exact Program.yields_done
          (((plain 404).append _ _ (by decide)).withAuxLinks target)
      · next bytes =>
          have tagged :
              (Response.ofTag 304 (blobEtag bytes) []).Silent := rfl
          have served :
              (Response.ofRepresentation mediaType.raw (blobEtag bytes)
                bytes).Silent := rfl
          dsimp only
          split
          · exact Program.yields_done
              ((tagged.withAuxLinks target).withAllow target _)
          · exact Program.yields_done
              ((served.withAuxLinks target).withAllow target _)

/-- A served read tells what was decided; a blob is served without it. -/
structure Told
    (world : World) (agent : Agent) (target : Target space)
    (response : Response) : Prop where
  truthful :
    ∀ value,
      response.wacAllow = some value →
      ∃ decision,
        world.authorization agent target .read = .ok decision ∧
          value = wacAllowValue decision
  told :
    response.Serves →
    response.wacAllow.isSome = true ∨
      ∃ url leaf, target = .resource url leaf ∧ world.IsBinary url

omit [Sha256] [ObjectPath] [QuadText] [RdfSerializer] [Quality] in
theorem Response.Informs.told
    {world : World} {agent : Agent} {response : Response}
    (authorized : world.authorization agent target .read = .ok decision)
    (informs : response.Informs decision) :
    Told world agent target response := by
  rcases informs with carried | refused
  · refine ⟨fun value isValue => ⟨decision, authorized, ?_⟩, fun _ => ?_⟩
    · exact Option.some.inj (isValue.symm.trans carried)
    · exact Or.inl (by rw [carried]; rfl)
  · refine ⟨fun value isValue => ?_,
      fun serves => (refused.serves serves).elim⟩
    rw [refused.silent] at isValue
    cases isValue

/-- Whatever fails, what `get_impl` answers tells what was decided. -/
theorem getImpl_told
    (storeVersion : RdfVersion) (agent : Agent) (headers : HeaderMap)
    (world : World) :
    Program.Ensures backend True
      (getImpl storeVersion agent target headers) world
      fun result _ =>
        ∀ response,
          result = .ok response → Told world agent target response := by
  have stops :
      ∀ refusal response,
        (.error refusal : Except Response Response) = .ok response →
        Told world agent target response := by
    intro refusal response impossible
    cases impossible
  have ends :
      ∀ {program : HttpProgram Response} {decision : Decision},
        world.authorization agent target .read = .ok decision →
        program.Yields (Response.Informs decision) →
        ∀ reached,
          Program.Ensures backend True program reached fun result _ =>
            ∀ response,
              result = .ok response → Told world agent target response :=
    fun authorized yields reached faults _ response isResponse =>
      (yields.run isResponse).told authorized
  refine ensures_probeFor_bind ?_ stops
  refine ensures_orDeny_bind (fun decision decided => ?_) stops
  have authorized : world.authorization agent target .read = .ok decision :=
    (world.guard_authorize agent target .read).symm.trans decided
  cases target with
  | container url =>
      exact ends authorized (yields_legacyGraphRead _ _) _
  | aux url =>
      exact ends authorized (yields_legacyGraphRead _ _) _
  | resource url leaf =>
      have kinds :
          Program.Ensures backend True
            ((kindOf url).attempt : HttpProgram _) world
            fun result _ =>
              ∀ mediaType,
                result = .ok (.ok (some (.binary mediaType))) →
                world.IsBinary url := by
        refine Program.Ensures.attempt fun faults _ mediaType isBinary => ?_
        have evaluated :=
          (strict_kindOf url).eval_of_run (Except.ok.inj isBinary)
        exact ⟨mediaType, congrArg Prod.fst evaluated⟩
      refine kinds.bind (fun kind reached isKind => ?_) ?_
      · split
        · next mediaType =>
            intro faults _ response isResponse
            have silent := (yields_blobRead _ _ _ _).run isResponse
            refine ⟨fun value isValue => ?_, fun _ => ?_⟩
            · rw [silent] at isValue
              cases isValue
            · exact Or.inr ⟨url, leaf, rfl, isKind mediaType rfl⟩
        · exact ends authorized (yields_resourceRead _ _ _) _
        · exact ends authorized
            (Program.yields_done (Or.inr (Response.refused_absent _))) _
        · exact ends authorized
            (Program.yields_done
              (Or.inr (Response.refused_ofStatus (by decide)))) _
        · exact ends authorized
            (Program.yields_done (Or.inr Response.refused_internalError)) _
      · intro error reached _ response impossible
        cases impossible

theorem failsWith_getImpl
    (storeVersion : RdfVersion) (agent : Agent) (headers : HeaderMap) :
    (getImpl storeVersion agent target headers).FailsWith
      Response.Refused := by
  have ends :
      ∀ response : Response,
        (Program.done response : HttpProgram Response).FailsWith
          Response.Refused :=
    fun response => Program.failsWith_done response
  have graphReads :
      ∀ decision,
        (legacyGraphRead storeVersion decision target headers).FailsWith
          Response.Refused := by
    intro decision
    unfold legacyGraphRead
    split
    · exact ends _
    · refine (Program.failsWith_attempt _).bind fun answer => ?_
      split
      · split <;> exact ends _
      · exact ends _
      · exact ends _
      · exact ends _
  refine (failsWith_probeFor agent target).bind fun guard => ?_
  refine (failsWith_orDeny target _).bind fun decision => ?_
  split
  · refine (Program.failsWith_attempt _).bind fun kind => ?_
    split
    · unfold blobRead
      split
      · exact ends _
      · split
        · exact ends _
        · refine (Program.failsWith_attempt _).bind fun answer => ?_
          split
          · exact ends _
          · exact ends _
          · dsimp only
            split <;> exact ends _
    · refine (Program.failsWith_attempt _).bind fun answer => ?_
      split
      · refine (Program.failsWith_attempt _).bind fun mediaType => ?_
        split <;> exact ends _
      · exact ends _
      · exact ends _
      · exact ends _
    · exact ends _
    · exact ends _
    · exact ends _
  · exact graphReads decision

variable [RdfParser] [ShapeEngine]

omit [Sha256] [ObjectPath] [QuadText] [RdfSerializer] [Quality] [RdfParser]
  [ShapeEngine] in
theorem failsWith_validatedContent (target : Target space) :
    (validatedContent target).FailsWith Response.Refused := by
  have absent := Response.refused_absent target
  unfold validatedContent
  split
  · exact absent
  · refine (Program.failsWith_mapError refused_putError _).bind
      fun stored => ?_
    split
    · split
      · exact Program.failsWith_done _
      · exact Response.refused_internalError
    · exact absent
  · refine (Program.failsWith_attempt _).bind fun kind => ?_
    split
    · exact absent
    · refine (Program.failsWith_mapError refused_putError _).bind
        fun stored => ?_
      split
      · exact Program.failsWith_done _
      · exact absent

omit [Sha256] [ObjectPath] in
/-- The validation report is served without the field. -/
theorem mute_validateView
    (agent : Agent) (target : Target space) (headers : HeaderMap) :
    Mute (validateView agent target headers) := by
  have plain : ∀ status, (Response.ofStatus status).Silent := fun _ => rfl
  have absent := (plain 404).withAuxLinks target
  constructor
  · refine Program.yields_bind fun guard => ?_
    refine Program.yields_bind fun decision => ?_
    split
    · exact Program.yields_done absent
    · refine Program.yields_bind fun shape => ?_
      split
      · exact Program.yields_done absent
      · refine Program.yields_bind fun dataset => ?_
        refine Program.yields_bind fun report => ?_
        split
        · exact Program.yields_done (plain 406)
        · split
          · exact Program.yields_done rfl
          · exact Program.yields_done Response.silent_internalError
  · refine (failsWith_probeFor agent target).bind fun guard => ?_
    refine (failsWith_orDeny target _).bind fun decision => ?_
    split
    · exact Program.failsWith_done _
    · refine (Program.failsWith_mapError refused_shapeStatus _).bind
        fun shape => ?_
      split
      · exact Program.failsWith_done _
      · refine (failsWith_validatedContent target).bind fun dataset => ?_
        refine (Program.failsWith_ofExcept_mapError refused_shapeStatus
          _).bind fun report => ?_
        split
        · exact Program.failsWith_done _
        · split <;> exact Program.failsWith_done _

/-- Where a read goes, and what its answer tells about it. -/
structure ToldAt
    (space : StorageSpace) (world : World) (agent : Agent) (path : Text)
    (query : Option Text) (response : Response) : Prop where
  truthful :
    ∀ value,
      response.wacAllow = some value →
      ∃ target decision,
        classify space path = .ok target ∧
          world.authorization agent target .read = .ok decision ∧
          value = wacAllowValue decision
  told :
    wantsValidation query = false →
    response.Serves →
    response.wacAllow.isSome = true ∨
      ∃ url leaf,
        classify space path = .ok (.resource url leaf) ∧ world.IsBinary url

omit [Sha256] [ObjectPath] [QuadText] [RdfSerializer] [Quality] [RdfParser]
  [ShapeEngine] in
theorem toldAt_of_refused
    {world : World} {agent : Agent} {path : Text} {query : Option Text}
    {response : Response} (refused : response.Refused) :
    ToldAt space world agent path query response where
  truthful := by
    intro value carried
    rw [refused.silent] at carried
    cases carried
  told := fun _ serves => (refused.serves serves).elim

theorem handleGet_told
    (storeVersion : RdfVersion) (path : Text) (query : Option Text)
    (agent : Agent) (headers : HeaderMap) (world : World)
    (faults : Faults) :
    ToldAt space world agent path query
      (sentResponse
        (Program.run backend
          (handleGet space storeVersion path query agent headers) faults
          world).result) := by
  cases classified : classify space path with
  | error response =>
      have same :
          handleGet space storeVersion path query agent headers =
            .fail response := by
        rw [handleGet, classified]
        rfl
      rw [same]
      exact toldAt_of_refused (refused_of_classify classified)
  | ok target =>
      have same :
          handleGet space storeVersion path query agent headers =
            if wantsValidation query then
              validateView agent target headers
            else
              getImpl storeVersion agent target headers := by
        rw [handleGet, classified]
        rfl
      rw [same]
      by_cases validates : wantsValidation query = true
      · rw [if_pos validates]
        have mute := mute_validateView agent target headers
        cases outcome :
            (Program.run backend (validateView agent target headers) faults
              world).result with
        | ok response =>
            have silent := mute.ends.run outcome
            refine ⟨fun value carried => ?_, fun unvalidated => ?_⟩
            · rw [sentResponse, silent] at carried
              cases carried
            · rw [validates] at unvalidated
              cases unvalidated
        | error response =>
            exact toldAt_of_refused (mute.fails.run outcome)
      · rw [if_neg validates]
        cases outcome :
            (Program.run backend (getImpl storeVersion agent target headers)
              faults world).result with
        | ok response =>
            have told :=
              getImpl_told storeVersion agent headers world faults
                (Or.inl trivial) response outcome
            refine ⟨fun value carried => ?_, fun _ serves => ?_⟩
            · obtain ⟨decision, authorized, same⟩ :=
                told.truthful value carried
              exact ⟨target, decision, classified, authorized, same⟩
            · rcases told.told serves with carried | ⟨url, leaf, rfl, isBinary⟩
              · exact Or.inl carried
              · exact Or.inr ⟨url, leaf, classified, isBinary⟩
        | error response =>
            exact toldAt_of_refused
              ((failsWith_getImpl storeVersion agent headers).run outcome)

end Reads

/-! ## The server -/

variable [Sha256] [ObjectPath] [QuadText]
variable [RdfParser] [RdfSerializer] [ShapeEngine] [N3Parser] [Quality]
variable [WireFormats] [Josekit] [JoseSigning]

/-- A request that only reads. -/
def HttpRequest.IsRead (request : HttpRequest) : Prop :=
  Verb.ofText request.method = some .get ∨
    Verb.ofText request.method = some .head

omit [Sha256] [ObjectPath] [QuadText] [RdfParser] [RdfSerializer]
  [ShapeEngine] [N3Parser] [Quality] in
theorem silent_handleWellKnown
    (space : StorageSpace) (opKeys : Option KeySet) (name : Option Text) :
    (handleWellKnown space opKeys name).Silent := by
  unfold handleWellKnown
  repeat' split
  all_goals rfl

/-- What the answer to a request tells about the target it names. -/
structure ToldTo
    (app : AppState) (world : World) (agent : Agent) (request : HttpRequest)
    (response : Response) : Prop where
  truthful :
    ∀ value,
      response.wacAllow = some value →
      ∃ path target decision,
        request.path? = some path ∧
          classify app.space path = .ok target ∧
          world.authorization agent target .read = .ok decision ∧
          value = wacAllowValue decision
  told :
    ∀ path,
      request.path? = some path →
      wantsValidation request.query = false →
      response.Serves →
      response.wacAllow.isSome = true ∨
        ∃ url leaf,
          classify app.space path = .ok (.resource url leaf) ∧
            world.IsBinary url

theorem dispatch_told
    (app : AppState) (agent : Agent) {request : HttpRequest}
    (isRead : request.IsRead) (draws : Draws) (world : World)
    (faults : Faults) :
    ToldTo app world agent request
      (sentResponse
        (Program.run backend (dispatch app agent request draws) faults
          world).result) := by
  have unrouted :
      ∀ {response : Response},
        response.Silent →
        (request.path? = none ∨ response.Refused) →
        ToldTo app world agent request response := by
    intro response silent stops
    refine ⟨fun value carried => ?_, fun path routed _ serves => ?_⟩
    · rw [silent] at carried
      cases carried
    · rcases stops with nowhere | refused
      · rw [nowhere] at routed
        cases routed
      · exact (refused.serves serves).elim
  have handled :
      ∀ {path : Text} {verb : Verb},
        (verb = .get ∨ verb = .head) →
        request.path? = some path →
        ToldTo app world agent request
          (sentResponse
            (Program.run backend
              (handlePath app agent verb request draws path) faults
              world).result) := by
    intro path verb reads routed
    have told :
        ToldAt app.space world agent path request.query
          (sentResponse
            (Program.run backend
              (handleGet app.space app.storeVersion path request.query agent
                request.fields) faults world).result) :=
      handleGet_told _ _ _ _ _ _ _
    have same :
        handlePath app agent verb request draws path =
          handleGet app.space app.storeVersion path request.query agent
            request.fields := by
      rcases reads with rfl | rfl <;> rfl
    rw [same]
    refine ⟨fun value carried => ?_, fun other isOther => ?_⟩
    · obtain ⟨target, decision, classified, authorized, isValue⟩ :=
        told.truthful value carried
      exact ⟨path, target, decision, routed, classified, authorized, isValue⟩
    · rw [routed] at isOther
      cases isOther
      exact told.told
  obtain ⟨verb, isVerb, reads⟩ :
      ∃ verb,
        Verb.ofText request.method = some verb ∧
          (verb = .get ∨ verb = .head) := by
    rcases isRead with isGet | isHead
    · exact ⟨.get, isGet, Or.inl rfl⟩
    · exact ⟨.head, isHead, Or.inr rfl⟩
  have plain :
      ∀ status,
        status ≠ 200 ∧ status ≠ 304 → (Response.ofStatus status).Refused :=
    fun _ => Response.refused_ofStatus
  unfold dispatch
  cases route : routeOf request.path with
  | none =>
      exact unrouted rfl (Or.inr (plain 404 (by decide)))
  | some route' =>
      rw [isVerb]
      cases route' with
      | root =>
          exact handled reads (by rw [HttpRequest.path?, route])
      | path wire =>
          dsimp only
          cases given : handlerPath wire with
          | none =>
              exact unrouted rfl (Or.inr (plain 400 (by decide)))
          | some path =>
              exact handled reads (by rw [HttpRequest.path?, route, ← given])
      | wellKnown rest =>
          have nowhere : request.path? = none := by
            rw [HttpRequest.path?, route]
          dsimp only
          rw [if_pos reads]
          split
          · exact unrouted (silent_handleWellKnown _ _ _) (Or.inl nowhere)
          · exact unrouted (silent_handleWellKnown _ _ _) (Or.inl nowhere)
          · exact unrouted rfl (Or.inl nowhere)

variable [DpopVerifierCrate] [UrlParser] {State : Type}

/-- What a response to a request on the wire tells about access. -/
structure TellsAccess
    (app : AppState) (arrival : Arrival State) (state : State) (world : World)
    (response : Response) : Prop where
  truthful :
    ∀ value,
      response.wacAllow = some value →
      ∃ (agent : Agent) (path : Text) (target : Target app.space)
        (user everyone : List Text),
        arrival.Shows app state agent ∧
          arrival.request.path? = some path ∧
          classify app.space path = .ok target ∧
          TruthfulModes world agent target.subject value user everyone
  told :
    ∀ path,
      arrival.request.path? = some path →
      wantsValidation arrival.request.query = false →
      response.Serves →
      response.wacAllow.isSome = true ∨
        ∃ url leaf,
          classify app.space path = .ok (.resource url leaf) ∧
            world.IsBinary url

/--
Whatever fails and whatever the world holds: a `WAC-Allow` field in the answer
to a read names a target, the words of its groups are modes, and each mode is
listed for the agent the middleware let through, or for everyone, exactly if the
nearest ACL grants it.  Unless a blob or a report is read, no served answer goes
without the field.
-/
theorem wacAllow_truthful
    (app : AppState) (arrival : Arrival State) (state : State) (world : World)
    (isRead : arrival.request.IsRead) :
    TellsAccess app arrival state world
      (serve app arrival state world).response := by
  unfold serve
  dsimp only
  split
  · next status answers =>
      have unauthenticated : status = 401 := by
        unfold authLayer at answers
        split at answers
        · cases answers
        · cases answers
          rfl
      refine ⟨fun value carried => ?_, fun path _ _ serves => ?_⟩
      · rw [Response.wacAllow_corsLayer, Response.wacAllow_forMethod] at carried
        cases carried
      · rw [Response.Serves, Response.status_corsLayer,
          Response.status_forMethod, unauthenticated] at serves
        simp [Response.ofStatus] at serves
  · next agent forwards =>
      have told :=
        dispatch_told app agent isRead arrival.draws world arrival.faults
      refine ⟨fun value carried => ?_, fun path routed unvalidated serves => ?_⟩
      · rw [Response.wacAllow_corsLayer, Response.wacAllow_forMethod] at carried
        obtain ⟨path, target, decision, routed, classified, authorized, rfl⟩ :=
          told.truthful value carried
        exact ⟨agent, path, target, _, _, shows_of_forwards forwards, routed,
          classified, truthfulModes_of_authorization authorized⟩
      · rw [Response.Serves, Response.status_corsLayer,
          Response.status_forMethod] at serves
        rw [Response.wacAllow_corsLayer, Response.wacAllow_forMethod]
        exact told.told path routed unvalidated serves

end Quadpod

namespace Quadpod.Reference

open AtomicProgram

/-- The root ACL of the owner, and everyone may read below it. -/
def openAcl : List Triple :=
  (⟨rootAclQuads ++ everyoneQuads⟩ : Dataset).triplesOf

/-- The pod that holds `/note`, which everyone may read. -/
def openWorld : World :=
  (Program.eval backend
    (auxPut uuid podSpace.root.resource.acl openAcl) notedWorld).2

/-- The owner reads `/note`. -/
def ownerRead : HttpRequest where
  method := "GET".toList
  path := "/note".toList
  headers :=
    [("authorization".toList, tokenField),
      ("dpop".toList, fieldOf firstProof (by decide +kernel))]
  query := none
  body := []

/-- The owner is told apart from everyone, and what it is told is true. -/
theorem wacAllow_truthful_ownerRead :
    (serve podApp (owners ownerRead) AuthState.new openWorld).response.Serves ∧
      (serve podApp (owners ownerRead) AuthState.new
          openWorld).response.wacAllow =
        some ("user=\"read write append control\",".toList ++
          "public=\"read\"".toList) ∧
      TellsAccess podApp (owners ownerRead) AuthState.new openWorld
        (serve podApp (owners ownerRead) AuthState.new openWorld).response := by
  have answered :
      (serve podApp (owners ownerRead) AuthState.new
          openWorld).response.status = 200 ∧
        (serve podApp (owners ownerRead) AuthState.new
            openWorld).response.wacAllow =
          some ("user=\"read write append control\",".toList ++
            "public=\"read\"".toList) := by
    decide +kernel
  refine ⟨Or.inl answered.1, answered.2, ?_⟩
  exact wacAllow_truthful podApp (owners ownerRead) AuthState.new openWorld
    (Or.inl rfl)

end Quadpod.Reference
