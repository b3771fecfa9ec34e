import Quadpod.AcceptedPuts
import Quadpod.AuxiliaryRaces
import Quadpod.PatchSemantics

namespace Quadpod

open AtomicProgram
open GraphStore

/-!
# What `aux::put` reports

The update of `aux::put` is conditional and returns nothing, so that it landed is
inferred from a later look at the auxiliary's marker.  The look cannot tell whose
marker it sees: when the update found no subject, and the subject is created and
another document is written before the look, the run reports a success that was
not its own.
-/

variable [IriSyntax] [Sha256] [ObjectPath] {space : StorageSpace}
variable {mayFail : Prop}

/-! ## No orphan in a reachable world -/

omit [ObjectPath] in
theorem keepsAux_ensureCall (container : ContainerUrl space) :
    (ensureCall container).KeepsAux space := by
  refine keepsAux_marking container.resource
    [.insertData [(graphIri container,
      (containerTypes container).map GroundQuad.toTriple)]] ?_
  intro operation isFirst name touched
  rw [List.mem_singleton.mp isFirst] at touched
  rw [List.mem_singleton.mp touched]
  exact container.resource.isHttp

omit [ObjectPath] in
theorem keepsAux_planCalls
    {plan : List (ContainerUrl space × Option NamedNode)} {call : Call}
    (member : call ∈ planCalls plan) :
    call.KeepsAux space := by
  obtain ⟨step, _, rfl | ⟨child, _, rfl⟩⟩ := mem_planCalls.mp member
  · exact keepsAux_ensureCall step.1
  · refine keepsAux_marking step.1.resource
      [.insertData [(graphIri step.1, [containmentTriple step.1 child])]] ?_
    intro operation isFirst name touched
    rw [List.mem_singleton.mp isFirst] at touched
    rw [List.mem_singleton.mp touched]
    exact step.1.resource.isHttp

theorem keepsAux_deleteBlobCalls
    {url : ResourceUrl space} {call : Call}
    (isDelete : call ∈ deleteBlobCalls url) :
    call.KeepsAux space := by
  obtain ⟨key, _, rfl⟩ := List.mem_map.mp isDelete
  exact Call.KeepsAux.of_objects rfl

/-- Every call of a storage write keeps auxiliaries sound. -/
theorem keepsAux_calls
    {world : World} {write : StorageWrite space} {call : Call}
    (owned : world.RegistersOwn space)
    (member : call ∈ write.calls world) :
    call.KeepsAux space := by
  have shelves (url : ResourceUrl space) :
      ShelvesOf url (world.registered url) :=
    fun _ isRegistered => owned.of_mem isRegistered
  cases write with
  | dataset url body mediaType =>
      rcases List.mem_cons.mp member with rfl | isDelete
      · exact keepsAux_putDataset (shelves url) body mediaType
      · exact keepsAux_deleteBlobCalls isDelete
  | blob url key bytes mediaType =>
      rcases List.mem_cons.mp member with rfl | isMarker
      · exact Call.KeepsAux.of_objects rfl
      · obtain rfl := List.mem_singleton.mp isMarker
        exact keepsAux_putBlob (shelves url) mediaType
  | container url triples =>
      rcases List.mem_cons.mp member with rfl | isEnsure
      · refine keepsAux_marking url.resource
          [.drop (graphIri url), .insertData [(graphIri url, triples)]] ?_
        intro operation isOperation name touched
        have isGraph : name = graphIri url := by
          simp only [List.mem_cons, List.not_mem_nil, or_false] at isOperation
          rcases isOperation with rfl | rfl
          · exact List.mem_singleton.mp touched
          · exact List.mem_singleton.mp touched
        rw [isGraph]
        exact url.resource.isHttp
      · obtain rfl := List.mem_singleton.mp isEnsure
        exact keepsAux_ensureCall url
  | auxiliary url triples =>
      obtain rfl := List.mem_singleton.mp member
      exact keepsAux_writeAux url triples
  | patch target change =>
      rcases List.mem_append.mp member with isModify | isEnsure
      · obtain ⟨given, _, rfl⟩ := List.mem_map.mp isModify
        refine Call.KeepsAux.of_http ?_
        intro name touched
        rw [touches_modify touched]
        exact target.isHttp
      · cases target with
        | container url =>
            obtain rfl := List.mem_singleton.mp isEnsure
            exact keepsAux_ensureCall url
        | resource url leaf =>
            cases isEnsure
        | aux url =>
            cases isEnsure
  | deleteAuxiliary url =>
      obtain rfl := List.mem_singleton.mp member
      exact keepsAux_deleteRdf url
  | deleteSubject url =>
      rcases List.mem_cons.mp member with rfl | isDelete
      · exact keepsAux_deleteSubject (shelves url)
      · exact keepsAux_deleteBlobCalls isDelete
  | nothing =>
      cases member

section Reachable

variable [QuadText] [RdfParser] [RdfSerializer] [ShapeEngine] [N3Parser]
variable {storeVersion : RdfVersion}

/-- In every reachable world auxiliaries are sound. -/
theorem Reachable.auxSound
    {admitted : World → Request → Faults → Prop} {world : World}
    (reachable :
      Reachable space storeVersion (Provisioned space) admitted world) :
    world.AuxSound space := by
  refine reachable.invariant (·.AuxSound space) ?_ ?_
  · intro world provisioned
    refine provisioned.invariant (·.AuxSound space) ?_ ?_
    · refine ⟨?_, ?_⟩
      · intro url triple inEmpty
        cases inEmpty
      · intro aux isPresent
        rw [World.present_iff] at isPresent
        cases isPresent
    · rintro world call (rfl | ⟨fresh, triples, _, member⟩) sound
      · exact keepsAux_ensureCall space.root world sound
      · obtain rfl := List.mem_singleton.mp member
        exact keepsAux_writeAux _ _ world sound
  · intro world request faults sound _
    rcases afterRequest_cases True (Or.inl trivial) with
        same | ⟨target, _, effect⟩
    · rw [same]
      exact sound
    · refine effect.invariant (·.AuxSound space) sound ?_ ?_
      · intro plan middle performs
        exact performs.invariant (·.AuxSound space) sound
          fun world call member holds =>
            keepsAux_planCalls member world holds
      · intro started write final _ holds performs
        exact performs.invariant (·.AuxSound space) holds
          fun world call member sound =>
            keepsAux_calls holds.owned member world sound

end Reachable

/-! ## The two steps of a put -/

/-- The look at the marker after the update. -/
def checkStage (aux : AuxUrl space) : AuxProgram Unit := do
  if ← AuxProgram.ofResource (exists? aux) then
    pure ()
  else
    .fail .subjectMissing

/-- What follows the update of a put. -/
def landStage (aux : AuxUrl space) : Except Text Unit → AuxProgram Unit
  | .ok () => checkStage aux
  | .error message => .fail (.resource (.store (.backend message)))

/-- What follows the look. -/
def answerStage : Except Text Bool → AuxProgram Unit
  | .ok true => pure ()
  | .ok false => .fail .subjectMissing
  | .error message => .fail (.resource (.store (.backend message)))

omit [Sha256] [ObjectPath] in
theorem auxPut_eq_call
    (fresh : Nat → Uuid) (aux : AuxUrl space) (triples : List Triple)
    (small : triples.length ≤ maxAuxTriples) :
    auxPut fresh aux triples =
      .call (.update (conditionalPutUpdate fresh aux triples))
        (landStage aux) := by
  unfold auxPut
  rw [if_neg (Nat.not_lt.mpr small)]
  change Program.call _ _ = Program.call _ _
  congr 1
  funext reply
  cases reply with
  | error message =>
      rfl
  | ok reply =>
      rfl

omit [Sha256] [ObjectPath] in
theorem checkStage_eq_call (aux : AuxUrl space) :
    checkStage aux =
      .call (.ask [(sysGraphIri aux, presenceMarker aux.node)])
        answerStage := by
  unfold checkStage
  change Program.call _ _ = Program.call _ _
  congr 1
  funext reply
  cases reply with
  | error message =>
      rfl
  | ok isPresent =>
      cases isPresent with
      | true =>
          rfl
      | false =>
          rfl

/-- The update of a put whose subject is there leaves its document. -/
theorem mem_perform_auxPut
    {fresh : Nat → Uuid} {aux : AuxUrl space} {triples : List Triple}
    {world : World}
    (subjectPresent : world.present aux.subject.node = true)
    (triple : GroundTriple) :
    triple ∈
        (backend.perform world
          (.update (conditionalPutUpdate fresh aux triples))).2.graphs
            (graphIri aux) ↔
      triple ∈ skolemizedTriples fresh triples :=
  mem_after_auxiliary subjectPresent

omit [Sha256] [ObjectPath] in
/-- The update of a put whose subject is not there does nothing. -/
theorem perform_auxPut_absent
    {fresh : Nat → Uuid} {aux : AuxUrl space} {triples : List Triple}
    {world : World}
    (subjectAbsent : world.present aux.subject.node = false) :
    (backend.perform world
      (.update (conditionalPutUpdate fresh aux triples))).2 = world := by
  have unguarded :
      ¬ world.graphs.satisfies (subjectPresentGuard aux) = true := by
    rw [satisfies_subjectPresentGuard, subjectAbsent]
    exact Bool.false_ne_true
  refine World.eq_of_parts ?_ rfl
  rw [backend_graphs]
  simp only [Call.operations, conditionalPutUpdate, Store.applyAll_cons,
    Store.applyAll_nil, Store.apply, unguarded, if_false, Bool.false_eq_true]

omit [Sha256] [ObjectPath] in
/-- The look sees whether the auxiliary is there, whoever wrote it. -/
theorem answer_look (world : World) (aux : AuxUrl space) :
    (backend.perform world
      (.ask [(sysGraphIri aux, presenceMarker aux.node)])).1 =
        .ok (world.present aux.node) := by
  have asked :
      world.graphs.satisfies
          [(sysGraphIri aux, presenceMarker aux.node)] =
        world.present aux.node := by
    simp [Store.satisfies, World.present]
    rfl
  change Except.ok (world.graphs.satisfies _) = _
  rw [asked]

/-! ## The race -/

section Race

variable (fresh : Nat → Uuid) (aux : AuxUrl space) (triples : List Triple)

/-- The put is the first of the programs and about to make its update. -/
def AboutToUpdate (config : Config stores AuxError Unit World) : Prop :=
  ∃ next,
    config.pool[0]? =
      some (.call (.update (conditionalPutUpdate fresh aux triples)) next)

/-- The update of the put was a turn of this schedule, in a world like this. -/
def Updated
    (start : Config stores AuxError Unit World)
    (schedule : List (Turn stores)) (found : World → Prop) : Prop :=
  ∃ before own after,
    schedule = before ++ own :: after ∧
      own = ⟨0, none⟩ ∧
      AboutToUpdate fresh aux triples
        (Config.execute backend before start) ∧
      found (Config.execute backend before start).world

/-- The put and the runs that share the stores with it. -/
def putAmong (world : World) (others : List (PodWrite space)) :
    Config stores AuxError Unit World :=
  Config.start world
    (auxPut fresh aux triples :: others.map PodWrite.program)

/--
The schedules that do no harm: while the put waits to look at the marker after
an update that found no subject, no other run brings the auxiliary into being.
-/
def Unforged (start : Config stores AuxError Unit World)
    (schedule : List (Turn stores)) : Prop :=
  ∀ before other after,
    schedule = before ++ other :: after →
    other.thread ≠ 0 →
    Updated fresh aux triples start before
      (fun world => world.present aux.subject.node = false) →
    (Config.execute backend before start).pool[0]? = some (checkStage aux) →
    (Config.execute backend before start).world.present aux.node = false →
    ((Config.execute backend before start).advance backend
      other).world.present aux.node = false

/-- What a put can have come to. -/
inductive PutCourse
    (start : Config stores AuxError Unit World)
    (schedule : List (Turn stores)) : Prop where
  | unstarted
      (isPut :
        (Config.execute backend schedule start).pool[0]? =
          some (auxPut fresh aux triples))
  | landed
      (updated :
        Updated fresh aux triples start schedule fun world =>
          world.present aux.subject.node = true)
  | missed
      (updated :
        Updated fresh aux triples start schedule fun world =>
          world.present aux.subject.node = false)
      (isCheck :
        (Config.execute backend schedule start).pool[0]? =
          some (checkStage aux))
      (absent :
        (Config.execute backend schedule start).world.present aux.node =
          false)
  | refused (error : AuxError)
      (isRefused :
        (Config.execute backend schedule start).pool[0]? =
          some (.fail error))

variable {fresh aux triples}

omit [Sha256] [ObjectPath] in
theorem Updated.append
    {start : Config stores AuxError Unit World}
    {schedule later : List (Turn stores)} {found : World → Prop}
    (updated : Updated fresh aux triples start schedule found) :
    Updated fresh aux triples start (schedule ++ later) found := by
  obtain ⟨before, own, after, rfl, isOwn, aboutTo, isFound⟩ := updated
  exact ⟨before, own, after ++ later, by simp, isOwn, aboutTo, isFound⟩

omit [ObjectPath] in
/-- One more turn of a schedule that does no harm. -/
theorem PutCourse.step
    {start : Config stores AuxError Unit World}
    {schedule : List (Turn stores)} {turn : Turn stores}
    (course : PutCourse fresh aux triples start schedule)
    (sound : (Config.execute backend schedule start).world.AuxSound space)
    (unforged : Unforged fresh aux triples start (schedule ++ [turn])) :
    PutCourse fresh aux triples start (schedule ++ [turn]) := by
  have advanced :
      Config.execute backend (schedule ++ [turn]) start =
        (Config.execute backend schedule start).advance backend turn := by
    rw [Config.execute_append]
    rfl
  obtain ⟨thread, fault⟩ := turn
  by_cases isPut : thread = 0
  · subst isPut
    have finished {program : AuxProgram Unit}
        (isProgram :
          (Config.execute backend schedule start).pool[0]? = some program)
        (isFinished : program.Finished) :
        (Config.execute backend schedule start).advance backend ⟨0, fault⟩ =
          Config.execute backend schedule start :=
      Config.advance_finished backend isProgram isFinished
    cases course with
    | landed updated =>
        exact .landed updated.append
    | refused error isRefused =>
        refine .refused error ?_
        rw [advanced, finished isRefused trivial]
        exact isRefused
    | unstarted isPut =>
        by_cases small : triples.length ≤ maxAuxTriples
        · rw [auxPut_eq_call fresh aux triples small] at isPut
          cases fault with
          | some message =>
              refine .refused (.resource (.store (.backend message))) ?_
              rw [advanced, (Config.advance_faulted backend isPut message).1]
              rfl
          | none =>
              have answered := Config.advance_answered backend isPut
              cases found :
                  (Config.execute backend schedule start).world.present
                    aux.subject.node with
              | true =>
                  exact .landed
                    ⟨schedule, _, [], rfl, rfl, ⟨_, isPut⟩, found⟩
              | false =>
                  refine .missed
                    ⟨schedule, _, [], rfl, rfl, ⟨_, isPut⟩, found⟩ ?_ ?_
                  · rw [advanced, answered.1]
                    rfl
                  · rw [advanced, answered.2, perform_auxPut_absent found]
                    cases orphan :
                        (Config.execute backend schedule
                          start).world.present aux.node with
                    | false =>
                        rfl
                    | true =>
                        rw [sound.noOrphan aux orphan] at found
                        cases found
        · refine .refused (.tooLarge triples.length) ?_
          have isFailure :
              auxPut fresh aux triples = .fail (.tooLarge triples.length) :=
            if_pos (Nat.not_le.mp small)
          rw [isFailure] at isPut
          rw [advanced, finished isPut trivial]
          exact isPut
    | missed updated isCheck absent =>
        rw [checkStage_eq_call] at isCheck
        cases fault with
        | some message =>
            refine .refused (.resource (.store (.backend message))) ?_
            rw [advanced, (Config.advance_faulted backend isCheck message).1]
            rfl
        | none =>
            refine .refused .subjectMissing ?_
            rw [advanced, (Config.advance_answered backend isCheck).1]
            rw [answer_look, absent]
            rfl
  · have untouched :
        (Config.execute backend (schedule ++ [⟨thread, fault⟩])
          start).pool[0]? =
            (Config.execute backend schedule start).pool[0]? := by
      rw [advanced]
      exact Config.advance_other backend isPut
    cases course with
    | landed updated =>
        exact .landed updated.append
    | refused error isRefused =>
        exact .refused error (untouched.trans isRefused)
    | unstarted isPut =>
        exact .unstarted (untouched.trans isPut)
    | missed updated isCheck absent =>
        refine .missed updated.append (untouched.trans isCheck) ?_
        rw [advanced]
        exact unforged schedule ⟨thread, fault⟩ [] rfl isPut updated isCheck
          absent

omit [Sha256] [ObjectPath] in
/-- A schedule that does no harm does none up to any of its turns. -/
theorem Unforged.of_append
    {start : Config stores AuxError Unit World}
    {schedule later : List (Turn stores)}
    (unforged : Unforged fresh aux triples start (schedule ++ later)) :
    Unforged fresh aux triples start schedule := by
  rintro before other after rfl
  exact unforged before other (after ++ later) (by simp)

omit [ObjectPath] in
/-- The course of a put under a schedule that does no harm. -/
theorem putCourse_of_unforged
    {start : Config stores AuxError Unit World}
    {schedule : List (Turn stores)}
    (isPut : start.pool[0]? = some (auxPut fresh aux triples))
    (sound :
      ∀ schedule,
        (Config.execute backend schedule start).world.AuxSound space)
    (unforged : Unforged fresh aux triples start schedule) :
    PutCourse fresh aux triples start schedule := by
  induction schedule using List.reverseRecOn with
  | nil =>
      exact .unstarted isPut
  | append_singleton schedule turn inductionHypothesis =>
      exact (inductionHypothesis unforged.of_append).step (sound schedule)
        unforged

end Race

/--
A put that reports success landed its own document, under every schedule in which
nobody writes one for it.
-/
theorem auxPut_reports_own_update
    [QuadText] [RdfParser] [RdfSerializer] [ShapeEngine] [N3Parser]
    {storeVersion : RdfVersion} {world : World}
    (reachable :
      Reachable space storeVersion (Provisioned space) anyRequest world)
    (fresh : Nat → Uuid) (aux : AuxUrl space) (triples : List Triple)
    (others : List (PodWrite space)) (schedule : List (Turn stores))
    (unforged :
      Unforged fresh aux triples (putAmong fresh aux triples world others)
        schedule)
    (succeeded :
      (Config.execute backend schedule
        (putAmong fresh aux triples world others)).pool[0]? =
          some (.done ())) :
    ∃ before own after,
      schedule = before ++ own :: after ∧
        own = ⟨0, none⟩ ∧
        AboutToUpdate fresh aux triples
          (Config.execute backend before
            (putAmong fresh aux triples world others)) ∧
        (Config.execute backend before
          (putAmong fresh aux triples world others)).world.present
            aux.subject.node = true ∧
        ∀ triple,
          triple ∈
              ((Config.execute backend before
                (putAmong fresh aux triples world others)).advance backend
                  own).world.graphs (graphIri aux) ↔
            triple ∈ skolemizedTriples fresh triples := by
  have sound (schedule : List (Turn stores)) :
      (Config.execute backend schedule
        (putAmong fresh aux triples world others)).world.AuxSound space := by
    refine World.AuxSound.execute ?_ ?_ schedule
    · exact reachable.auxSound
    · intro thread program isProgram
      cases thread with
      | zero =>
          cases isProgram
          exact obeysAux_auxPut fresh aux triples
      | succ thread =>
          obtain ⟨write, _, rfl⟩ : ∃ write,
              others[thread]? = some write ∧ write.program = program := by
            simpa [putAmong, Config.start] using isProgram
          exact write.obeys
  have course : PutCourse fresh aux triples
      (putAmong fresh aux triples world others) schedule :=
    putCourse_of_unforged rfl sound unforged
  cases course with
  | unstarted isPut =>
      rw [succeeded] at isPut
      by_cases small : triples.length ≤ maxAuxTriples
      · rw [auxPut_eq_call fresh aux triples small] at isPut
        cases isPut
      · have isFailure :
            auxPut fresh aux triples = .fail (.tooLarge triples.length) :=
          if_pos (Nat.not_le.mp small)
        rw [isFailure] at isPut
        cases isPut
  | missed updated isCheck absent =>
      rw [succeeded, checkStage_eq_call] at isCheck
      cases isCheck
  | refused error isRefused =>
      rw [succeeded] at isRefused
      cases isRefused
  | landed updated =>
      obtain ⟨before, own, after, isSchedule, isOwn, ⟨next, aboutTo⟩, found⟩ :=
        updated
      refine ⟨before, own, after, isSchedule, isOwn, ⟨next, aboutTo⟩, found, ?_⟩
      intro triple
      rw [isOwn, (Config.advance_answered backend aboutTo).2]
      exact mem_perform_auxPut found triple

end Quadpod

namespace Quadpod.Reference

open AtomicProgram

/-- Whether the first program of a pool is done. -/
def reportsSuccess (config : Config stores AuxError Unit World) : Bool :=
  match config.pool[0]? with
  | some (Program.done _) => true
  | _ => false

/-- Whether a program is about to make an update. -/
def makesUpdate : AuxProgram Unit → Bool
  | .call (call : Call) _ =>
      match call with
      | .update _ => true
      | _ => false
  | _ => false

/-- Whether the first program of a pool is about to make an update. -/
def updatesNext (config : Config stores AuxError Unit World) : Bool :=
  config.pool[0]?.any makesUpdate

theorem done_of_reportsSuccess
    {config : Config stores AuxError Unit World}
    (reports : reportsSuccess config = true) :
    config.pool[0]? = some (.done ()) := by
  unfold reportsSuccess at reports
  split at reports
  next isDone =>
      exact isDone
  next =>
      cases reports

theorem updatesNext_of_aboutToUpdate
    {fresh : Nat → Uuid} {aux : AuxUrl podSpace} {triples : List Triple}
    {config : Config stores AuxError Unit World}
    (aboutTo : AboutToUpdate fresh aux triples config) :
    updatesNext config = true := by
  obtain ⟨next, isCall⟩ := aboutTo
  unfold updatesNext
  rw [isCall]
  rfl

/-- A statement about the owner. -/
def ownerStatement : Triple :=
  ⟨.namedNode owner, plainPredicate, .namedNode owner⟩

/-- The note is created, deleted with its ACL and created again. -/
def noteWriters : List (PodWrite podSpace) :=
  [.putBlob note [1, 2, 3] plainText,
    .auxPut uuid note.acl [],
    .deleteSubject note,
    .putBlob note [4] plainText]

/--
The note is created and the put writes; before it looks, the note is deleted and
created again and another put writes an ACL of it.
-/
def rewritten : List (Turn stores) :=
  [⟨1, none⟩, ⟨1, none⟩, ⟨1, none⟩, ⟨0, none⟩, ⟨3, none⟩, ⟨3, none⟩,
    ⟨3, none⟩, ⟨3, none⟩, ⟨4, none⟩, ⟨4, none⟩, ⟨4, none⟩, ⟨2, none⟩,
    ⟨0, none⟩]

/-- Whether the next turn of a schedule is the update of the put. -/
def updatesAt (start : Config stores AuxError Unit World)
    (schedule : List (Turn stores)) (count : Nat) : Bool :=
  (schedule[count]?.any fun turn => turn.thread == 0) &&
    updatesNext (Config.execute backend (schedule.take count) start)

/-- A put whose updates all find the subject is open to no harm. -/
theorem unforged_of_found
    {fresh : Nat → Uuid} {aux : AuxUrl podSpace} {triples : List Triple}
    {start : Config stores AuxError Unit World} {schedule : List (Turn stores)}
    (found :
      ∀ count < schedule.length,
        updatesAt start schedule count = true →
        (Config.execute backend (schedule.take count) start).world.present
          aux.subject.node = true) :
    Unforged fresh aux triples start schedule := by
  rintro before other after rfl _
    ⟨earlier, own, later, rfl, rfl, aboutTo, absent⟩
  have isPrefix :
      ((earlier ++ ⟨0, none⟩ :: later) ++ other :: after).take
        earlier.length = earlier := by
    simp
  have isUpdate :
      updatesAt start ((earlier ++ ⟨0, none⟩ :: later) ++ other :: after)
        earlier.length = true := by
    unfold updatesAt
    rw [isPrefix, updatesNext_of_aboutToUpdate aboutTo]
    simp
  have present := found earlier.length (by simp) isUpdate
  rw [isPrefix, absent] at present
  cases present

/-- A put that succeeds after its subject came and went wrote its document. -/
theorem noteAcl_reports_own_update :
    ∃ before own after,
      rewritten = before ++ own :: after ∧
        own = ⟨0, none⟩ ∧
        AboutToUpdate uuid note.acl [ownerStatement]
          (Config.execute backend before
            (putAmong uuid note.acl [ownerStatement] freshWorld
              noteWriters)) ∧
        (Config.execute backend before
          (putAmong uuid note.acl [ownerStatement] freshWorld
            noteWriters)).world.present note.acl.subject.node = true ∧
        ∀ triple,
          triple ∈
              ((Config.execute backend before
                (putAmong uuid note.acl [ownerStatement] freshWorld
                  noteWriters)).advance backend own).world.graphs
                    (graphIri note.acl) ↔
            triple ∈ skolemizedTriples uuid [ownerStatement] := by
  have reachable :
      Reachable podSpace .rdf12 (Provisioned podSpace) anyRequest freshWorld :=
    .start freshWorld provisioned_freshWorld
  refine auxPut_reports_own_update reachable uuid note.acl [ownerStatement]
    noteWriters rewritten (unforged_of_found ?_) (done_of_reportsSuccess ?_)
  · decide
  · decide

/-- The note is created and its ACL written by others. -/
def noteOthers : List (PodWrite podSpace) :=
  [.putBlob note [1, 2, 3] plainText,
    .auxPut uuid note.acl [ownerStatement]]

/-- The others run between the update of the put and its look. -/
def othersBetween : List (Turn stores) :=
  [⟨0, none⟩, ⟨1, none⟩, ⟨1, none⟩, ⟨1, none⟩, ⟨2, none⟩, ⟨0, none⟩]

/-- A put reports success although its update found no subject. -/
theorem noteAcl_reports_foreign_update :
    Reachable podSpace .rdf12 (Provisioned podSpace) anyRequest freshWorld ∧
      (Config.execute backend othersBetween
        (putAmong uuid note.acl [] freshWorld noteOthers)).pool[0]? =
          some (.done ()) ∧
      ¬ ∃ before own after,
        othersBetween = before ++ own :: after ∧
          own = ⟨0, none⟩ ∧
          AboutToUpdate uuid note.acl []
            (Config.execute backend before
              (putAmong uuid note.acl [] freshWorld noteOthers)) ∧
          (Config.execute backend before
            (putAmong uuid note.acl [] freshWorld
              noteOthers)).world.present note.acl.subject.node = true := by
  refine ⟨.start freshWorld provisioned_freshWorld,
    done_of_reportsSuccess (by decide +kernel), ?_⟩
  rintro ⟨before, own, after, isSchedule, isOwn, aboutTo, found⟩
  have isUpdate := updatesNext_of_aboutToUpdate aboutTo
  have isBefore : before = othersBetween.take before.length := by
    rw [isSchedule]
    simp
  have short : before.length < 6 := by
    have total := congrArg List.length isSchedule
    simp only [List.length_append, List.length_cons] at total
    change 6 = _ at total
    omega
  have none :
      ∀ count < 6,
        (updatesNext
          (Config.execute backend (othersBetween.take count)
            (putAmong uuid note.acl [] freshWorld noteOthers)) &&
        (Config.execute backend (othersBetween.take count)
          (putAmong uuid note.acl [] freshWorld
            noteOthers)).world.present note.acl.subject.node) = false := by
    decide
  have absent := none before.length short
  rw [← isBefore, isUpdate, found] at absent
  cases absent

end Quadpod.Reference
