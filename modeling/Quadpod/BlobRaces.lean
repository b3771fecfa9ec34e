import Quadpod.ResourceRaces

namespace Quadpod

open AtomicProgram
open GraphStore

/-!
# Objects and their markers

A binary resource is a marker in the triple store and an object in the object
store.  `put_blob` writes the object before the marker; `put_dataset` and
`delete_subject` commit first and delete the object afterwards, under the same
key.  A delete that is late enough removes the object of a newer `put_blob`.

The runs that go well are those in which no object is deleted while the resource
is marked as binary or a `put_blob` has written its object and not yet its
marker.
-/

variable [IriSyntax] [Sha256] [ObjectPath] {space : StorageSpace}

/-- `kind_of` says that a resource is binary. -/
def World.IsBinary (world : World) (url : ResourceUrl space) : Prop :=
  ∃ mediaType,
    (Program.eval backend (Quadpod.kindOf url) world).1 =
      .ok (some (.binary mediaType))

/-- The object of a resource is there. -/
def World.HasObject (world : World) (url : ResourceUrl space) : Prop :=
  ∃ key bytes, BlobKey.of url = some key ∧ world.blobs key = some bytes

/-- The update of `put_blob` that records the marker. -/
def Call.Marks (url : ResourceUrl space) (call : Call) : Prop :=
  ∃ registered mediaType,
    call = .update (putBlobUpdate url registered mediaType)

/-- A run whose next call is the marker of an object it has written. -/
def AboutToMark {α : Type} (url : ResourceUrl space) :
    ResourceProgram α → Prop
  | .call call _ => call.Marks url
  | _ => False

/-- A run whose next call deletes an object. -/
def AboutToDelete {α : Type} : ResourceProgram α → Prop
  | .call (.blobDelete _) _ => True
  | _ => False

/--
The turns that do no harm: nothing fails, and an object is deleted only while
the resource is not marked as binary and no run is about to mark it.
-/
def Undisturbed (url : ResourceUrl space)
    (config : Config stores ResourceError Unit World) (turn : Turn stores) :
    Prop :=
  turn.fault = none ∧
    ∀ program,
      config.pool[turn.thread]? = some program →
      AboutToDelete program →
      ¬ config.world.IsBinary url ∧
        ∀ other ∈ config.pool, ¬ AboutToMark url other

/-! ## What one call does -/

/-- Every marker of a run follows its object. -/
def Orderly {α : Type} (url : ResourceUrl space) : ResourceProgram α → Prop
  | .call call next =>
      ∀ reply,
        Orderly url (next reply) ∧
          (AboutToMark url (next reply) →
            ∃ key bytes, BlobKey.of url = some key ∧ call = .blobPut key bytes)
  | _ => True

omit [Sha256] [ObjectPath] in
/-- What is binary is marked so in the system graph. -/
theorem World.IsBinary.binary
    {world : World} {url : ResourceUrl space}
    (isBinary : world.IsBinary url) :
    world.binary url = true := by
  obtain ⟨mediaType, isKind⟩ := isBinary
  rw [eval_kindOf, World.kindOf] at isKind
  split at isKind
  · split at isKind
    · next marked =>
        exact marked
    · cases isKind
  · cases isKind

omit [Sha256] [ObjectPath] in
/-- The kind is read from the graphs. -/
theorem World.IsBinary.congr
    {world other : World} {url : ResourceUrl space}
    (isBinary : world.IsBinary url) (same : other.graphs = world.graphs) :
    other.IsBinary url := by
  obtain ⟨mediaType, isKind⟩ := isBinary
  refine ⟨mediaType, ?_⟩
  have sameKind : other.kindOf url = world.kindOf url := by
    unfold World.kindOf World.present World.binary World.storedMediaType
    rw [same]
  rw [eval_kindOf] at isKind ⊢
  exact sameKind.trans isKind

omit [Sha256] [ObjectPath] in
/-- What was deleted is not marked as binary. -/
theorem not_binary_deleteSubject
    {world : World} {store : Store Text GroundTriple}
    {url : ResourceUrl space} {registered : List ShelfKey}
    (isWritten :
      world.graphs =
        store.applyAll (deleteSubjectUpdate url registered)) :
    world.binary url = false := by
  refine decide_eq_false fun marked => ?_
  rw [isWritten] at marked
  refine (mem_applyAll_deleteSubject.mp marked).2.1 ?_
  simp [cascadeDrops]

omit [Sha256] [ObjectPath] in
/-- The update of `put_blob` marks the resource, whatever it finds. -/
theorem Call.Marks.binary
    {url : ResourceUrl space} {call : Call}
    (marks : call.Marks url) (world : World) :
    (backend.perform world call).2.binary url = true := by
  obtain ⟨registered, mediaType, rfl⟩ := marks
  refine decide_eq_true (mem_applyAll_putBlob.mpr (Or.inr ⟨rfl, ?_⟩))
  exact List.mem_cons_of_mem _ List.mem_cons_self

omit [ObjectPath] in
/-- Only the update of `put_blob` leaves a resource marked as binary. -/
theorem ResourceWrite.marks_of_binary
    {url : ResourceUrl space} {write : ResourceWrite}
    {registered : List ShelfKey} {world : World}
    (isBinary :
      (backend.perform world
        (.update (write.commits url registered))).2.binary url = true) :
    (Call.update (write.commits url registered)).Marks url := by
  cases write with
  | putBlob bytes mediaType =>
      exact ⟨registered, mediaType, rfl⟩
  | putDataset body format =>
      have isRdf :
          (backend.perform world
            (.update (putDatasetUpdate url registered (Buckets.of url body)
              format.mediaType))).2.binary url = false :=
        not_binary_putDataset rfl
      exact Bool.noConfusion (isRdf.symm.trans isBinary)
  | deleteSubject =>
      have isGone :
          (backend.perform world
            (.update (deleteSubjectUpdate url registered))).2.binary url =
            false :=
        not_binary_deleteSubject rfl
      exact Bool.noConfusion (isGone.symm.trans isBinary)

omit [Sha256] [ObjectPath] in
/-- A read marks nothing. -/
theorem Call.Reads.not_marks
    {url : ResourceUrl space} {call : Call} (reads : call.Reads) :
    ¬ call.Marks url := by
  rintro ⟨registered, mediaType, rfl⟩
  have nothing := reads.1
  simp [Call.operations, putBlobUpdate] at nothing

section Orderly

variable {α β : Type} {url : ResourceUrl space}

omit [Sha256] [ObjectPath] in
theorem not_aboutToMark_bind
    {program : ResourceProgram α} {next : α → ResourceProgram β}
    (notMarking : ¬ AboutToMark url program)
    (continues : ∀ value, ¬ AboutToMark url (next value)) :
    ¬ AboutToMark url (program >>= next) := by
  cases program with
  | done value =>
      exact continues value
  | fail error =>
      exact fun marking => marking
  | call call continuation =>
      exact notMarking

omit [Sha256] in
/-- What follows an orderly program may not start by marking. -/
theorem Orderly.bind
    {program : ResourceProgram α} {next : α → ResourceProgram β}
    (first : Orderly url program)
    (continues :
      ∀ value,
        Orderly url (next value) ∧ ¬ AboutToMark url (next value)) :
    Orderly url (program >>= next) := by
  induction program with
  | done value =>
      exact (continues value).1
  | fail error =>
      exact trivial
  | call call continuation inductionHypothesis =>
      intro reply
      obtain ⟨ordered, follows⟩ := first reply
      refine ⟨inductionHypothesis reply ordered, fun marking => ?_⟩
      refine follows (Classical.byContradiction fun notMarking => ?_)
      exact not_aboutToMark_bind notMarking
        (fun value => (continues value).2) marking

omit [Sha256] in
theorem orderly_issue {translate : StoreError → ResourceError} (call : Call) :
    Orderly url (StoreProgram.issue translate call) := by
  intro reply
  cases reply with
  | ok value =>
      exact ⟨trivial, fun marking => marking.elim⟩
  | error message =>
      exact ⟨trivial, fun marking => marking.elim⟩

omit [Sha256] in
/-- A program that reads only is orderly. -/
theorem ReadsOnly.orderly
    {program : ResourceProgram α} (reads : ReadsOnly program) :
    Orderly url program ∧ ¬ AboutToMark url program := by
  induction program with
  | done value =>
      exact ⟨trivial, fun marking => marking⟩
  | fail error =>
      exact ⟨trivial, fun marking => marking⟩
  | call call continuation inductionHypothesis =>
      refine ⟨fun reply => ?_, reads.1.not_marks⟩
      obtain ⟨ordered, notMarking⟩ :=
        inductionHypothesis reply (reads.2 reply trivial)
      exact ⟨ordered, fun marking => (notMarking marking).elim⟩

omit [Sha256] in
theorem orderly_deleteBlob :
    Orderly url (deleteBlob url) ∧ ¬ AboutToMark url (deleteBlob url) := by
  unfold deleteBlob
  split
  · refine ⟨orderly_issue _, ?_⟩
    rintro ⟨registered, mediaType, isUpdate⟩
    cases isUpdate
  · exact ⟨trivial, fun marking => marking⟩

end Orderly

/-- Every run is orderly and does not start by marking. -/
theorem ResourceWrite.orderly
    (url : ResourceUrl space) (write : ResourceWrite) :
    Orderly url (write.program url) ∧
      ¬ AboutToMark url (write.program url) := by
  have registry := readsOnly_registeredShelves url
  have anyWorld : World := ⟨Store.empty, fun _ => none⟩
  have combine :
      ∀ {α β : Type} {program : ResourceProgram α}
        {next : α → ResourceProgram β},
        Orderly url program ∧ ¬ AboutToMark url program →
        (∀ value, Orderly url (next value) ∧ ¬ AboutToMark url (next value)) →
        Orderly url (program >>= next) ∧
          ¬ AboutToMark url (program >>= next) := by
    intro α β program next first continues
    exact ⟨first.1.bind continues,
      not_aboutToMark_bind first.2 fun value => (continues value).2⟩
  have finished :
      ∀ {α : Type} (value : α),
        Orderly url (pure value : ResourceProgram α) ∧
          ¬ AboutToMark url (pure value : ResourceProgram α) :=
    fun _ => ⟨trivial, fun marking => marking⟩
  have commits :
      ∀ (registered : List ShelfKey),
        (backend.perform anyWorld
          (.update (write.commits url registered))).2.binary url = false →
        Orderly url
            (StoreProgram.issue ResourceError.store
              (.update (write.commits url registered))) ∧
          ¬ AboutToMark url
            (StoreProgram.issue ResourceError.store
              (.update (write.commits url registered))) := by
    intro registered notBinary
    refine ⟨orderly_issue _, fun marking => ?_⟩
    exact Bool.noConfusion (notBinary.symm.trans (Call.Marks.binary marking _))
  cases write with
  | putDataset body format =>
      refine combine (ReadsOnly.orderly registry) fun registered => ?_
      split
      · exact combine (commits registered (not_binary_putDataset rfl))
          fun _ => orderly_deleteBlob
      · exact ⟨trivial, fun marking => marking⟩
  | putBlob bytes mediaType =>
      change Orderly url (Quadpod.putBlob url bytes mediaType) ∧
        ¬ AboutToMark url (Quadpod.putBlob url bytes mediaType)
      unfold Quadpod.putBlob
      split
      · exact ⟨trivial, fun marking => marking⟩
      · next key keyed =>
          refine combine (ReadsOnly.orderly registry) fun registered => ?_
          constructor
          · intro reply
            cases reply with
            | ok value =>
                exact ⟨orderly_issue _, fun _ => ⟨key, bytes, keyed, rfl⟩⟩
            | error message =>
                exact ⟨trivial, fun marking => marking.elim⟩
          · rintro ⟨other, given, isUpdate⟩
            cases isUpdate
  | deleteSubject =>
      refine combine ?_ fun _ => finished ()
      refine combine (ReadsOnly.orderly (readsOnly_exists url))
        fun existed => ?_
      refine combine (ReadsOnly.orderly registry) fun registered => ?_
      refine combine (commits registered (not_binary_deleteSubject rfl))
        fun _ => ?_
      exact combine orderly_deleteBlob fun _ => finished existed

/-! ## Undisturbed runs -/

/-- What an undisturbed run keeps. -/
structure Served (url : ResourceUrl space)
    (config : Config stores ResourceError Unit World) : Prop where
  issues :
    ∀ program ∈ config.pool,
      Program.Uses
        (fun call => ∃ write : ResourceWrite, write.Issues url call) program
  orderly : ∀ program ∈ config.pool, Orderly url program
  pending :
    ∀ program ∈ config.pool,
      AboutToMark url program → config.world.HasObject url
  marked : config.world.IsBinary url → config.world.HasObject url

omit [Sha256] in
/-- Only a delete takes an object away. -/
theorem World.HasObject.perform
    {world : World} {url : ResourceUrl space} {call : Call}
    (there : world.HasObject url)
    (noDelete : ∀ key, call ≠ .blobDelete key) :
    (backend.perform world call).2.HasObject url := by
  obtain ⟨key, bytes, keyed, stored⟩ := there
  cases call with
  | blobDelete other =>
      exact (noDelete other rfl).elim
  | blobPut other given =>
      by_cases isKey : key = other
      · subst isKey
        exact ⟨key, given, keyed, Function.update_self _ _ _⟩
      · refine ⟨key, bytes, keyed, ?_⟩
        rw [← stored]
        exact Function.update_of_ne isKey _ _
  | _ =>
      exact ⟨key, bytes, keyed, stored⟩

/-- One undisturbed turn. -/
theorem Served.advance
    {url : ResourceUrl space}
    {config : Config stores ResourceError Unit World} {turn : Turn stores}
    (served : Served url config)
    (undisturbed : Undisturbed url config turn) :
    Served url (config.advance backend turn) := by
  rcases Config.advance_cases backend turn config with
      same | ⟨call, next, found, failed | performed⟩
  · rw [same]
    exact served
  · obtain ⟨fault, isFault, _⟩ := failed
    rw [undisturbed.1] at isFault
    cases isFault
  · have current : Program.call call next ∈ config.pool :=
      List.mem_of_getElem? found
    have member :
        ∀ {program},
          program ∈
            config.pool.set turn.thread
              (next (backend.perform config.world call).1) →
          program ∈ config.pool ∨
            program = next (backend.perform config.world call).1 :=
      fun isMember => List.mem_or_eq_of_mem_set isMember
    have ordered := served.orderly _ current (backend.perform config.world call).1
    rw [performed.2]
    refine ⟨?_, ?_, ?_, ?_⟩
    · intro program isMember
      rcases member isMember with inPool | rfl
      · exact served.issues program inPool
      · exact (served.issues _ current).2 _ trivial
    · intro program isMember
      rcases member isMember with inPool | rfl
      · exact served.orderly program inPool
      · exact ordered.1
    · intro program isMember marking
      rcases member isMember with inPool | rfl
      · refine (served.pending program inPool marking).perform ?_
        rintro key rfl
        exact (undisturbed.2 _ found trivial).2 program inPool marking
      · obtain ⟨key, bytes, keyed, rfl⟩ := ordered.2 marking
        exact ⟨key, bytes, keyed, Function.update_self _ _ _⟩
    · intro isBinary
      obtain ⟨write, issues⟩ := (served.issues _ current).1
      have wasBinary :
          call.isCommit = false → config.world.IsBinary url :=
        fun noCommit =>
          isBinary.congr (graphs_of_not_isCommit noCommit _).symm
      rcases issues with reads | ⟨key, bytes, rfl⟩ | ⟨key, rfl⟩ |
          ⟨registered, rfl⟩
      · have noCommit : call.isCommit = false := by
          rw [Call.isCommit, reads.1]
          rfl
        have there := served.marked (wasBinary noCommit)
        rw [← reads.perform config.world] at there
        exact there
      · refine (served.marked (wasBinary rfl)).perform fun other isDelete => ?_
        cases isDelete
      · exact ((undisturbed.2 _ found trivial).1 (wasBinary rfl)).elim
      · have marking := write.marks_of_binary isBinary.binary
        refine (served.pending _ current marking).perform fun other isDelete => ?_
        cases isDelete

/--
When every turn of a race of `put_blob`, `put_dataset` and `delete_subject` is
undisturbed, a binary resource has its object in every state reached, in
particular in those where no run is in progress.
-/
theorem binary_served_undisturbed
    {url : ResourceUrl space} {world : World}
    (served : world.IsBinary url → world.HasObject url)
    (writes : List ResourceWrite) (schedule : List (Turn stores))
    (undisturbed :
      Config.Admits backend (Undisturbed url) schedule
        (racing url world writes)) :
    let reached := Config.execute backend schedule (racing url world writes)
    reached.world.IsBinary url → reached.world.HasObject url := by
  have started : Served url (racing url world writes) := by
    have ofWrite :
        ∀ {program},
          program ∈ (racing url world writes).pool →
          ∃ write : ResourceWrite, write.program url = program := by
      intro program inPool
      obtain ⟨write, _, rfl⟩ := List.mem_map.mp inPool
      exact ⟨write, rfl⟩
    refine ⟨?_, ?_, ?_, served⟩
    · intro program inPool
      obtain ⟨write, rfl⟩ := ofWrite inPool
      exact (write.uses url).obeys fun call issues => ⟨write, issues⟩
    · intro program inPool
      obtain ⟨write, rfl⟩ := ofWrite inPool
      exact (write.orderly url).1
    · intro program inPool marking
      obtain ⟨write, rfl⟩ := ofWrite inPool
      exact ((write.orderly url).2 marking).elim
  have kept :=
    Config.execute_invariant backend
      (fun _ _ holds allowed => Served.advance holds allowed)
      schedule (racing url world writes) undisturbed started
  exact kept.marked

end Quadpod

namespace Quadpod.Reference

open AtomicProgram

/-- A world in which the note holds bytes. -/
def binaryWorld : World :=
  (Program.run backend (putBlob note [1, 2, 3] plainText) []
    World.empty).world

/-- Whether no turn fails and none deletes an object. -/
def deletesNothing :
    List (Turn stores) → Config stores ResourceError Unit World → Bool
  | [], _ => true
  | turn :: rest, config =>
      turn.fault.isNone &&
        (config.pool[turn.thread]?.all fun program =>
          match program with
          | .call (.blobDelete _) _ => false
          | _ => true) &&
        deletesNothing rest (config.advance backend turn)

/-- A schedule in which no object is deleted is undisturbed. -/
theorem admits_of_deletesNothing
    {url : ResourceUrl podSpace} {schedule : List (Turn stores)}
    {config : Config stores ResourceError Unit World}
    (nothing : deletesNothing schedule config = true) :
    Config.Admits backend (Undisturbed url) schedule config := by
  induction schedule generalizing config with
  | nil =>
      trivial
  | cons turn rest inductionHypothesis =>
      simp only [deletesNothing, Bool.and_eq_true] at nothing
      obtain ⟨⟨noFault, noDelete⟩, later⟩ := nothing
      refine ⟨⟨Option.isNone_iff_eq_none.mp noFault, ?_⟩,
        inductionHypothesis later⟩
      intro program isNext aboutToDelete
      rw [isNext, Option.all_some] at noDelete
      unfold AboutToDelete at aboutToDelete
      split at aboutToDelete
      · cases noDelete
      · exact aboutToDelete.elim

/-- Writing other bytes over the object keeps the resource served. -/
theorem binary_served_overwritten :
    let reached :=
      Config.execute backend [⟨0, none⟩, ⟨0, none⟩, ⟨0, none⟩]
        (racing note binaryWorld [.putBlob [4] plainText])
    reached.world.IsBinary note ∧ reached.world.HasObject note := by
  intro reached
  have isBinary : reached.world.IsBinary note :=
    ⟨plainText, by decide +kernel⟩
  refine ⟨isBinary, binary_served_undisturbed ?_ [.putBlob [4] plainText]
    [⟨0, none⟩, ⟨0, none⟩, ⟨0, none⟩]
    (admits_of_deletesNothing (by decide)) isBinary⟩
  exact fun _ => ⟨⟨"note".toList⟩, [1, 2, 3], by decide, by decide⟩

/-- The object is deleted after another run has written and marked it. -/
def lateDelete : List (Turn stores) :=
  [⟨0, none⟩, ⟨0, none⟩, ⟨1, none⟩, ⟨1, none⟩, ⟨1, none⟩, ⟨0, none⟩]

/--
`put_dataset` deletes the object a `put_blob` has written since its update: both
runs are over, and the resource is marked as binary with no object.
-/
theorem binary_without_object :
    ∃ reached : Config stores ResourceError Unit World,
      reached =
          Config.execute backend lateDelete
            (racing note World.empty
              [.putDataset twoGraphs .triG, .putBlob [1, 2, 3] plainText]) ∧
        (World.empty.IsBinary note → World.empty.HasObject note) ∧
        (∀ turn ∈ lateDelete, turn.fault = none) ∧
        reached.Quiescent ∧
        reached.world.IsBinary note ∧
        ¬ reached.world.HasObject note := by
  refine ⟨_, rfl, ?_, ?_, ?_, ⟨plainText, by decide⟩, ?_⟩
  · rintro ⟨mediaType, isKind⟩
    have isAbsent :
        (Program.eval backend (kindOf note) World.empty).1 = .ok none := by
      decide
    rw [isAbsent] at isKind
    cases isKind
  · decide
  · decide
  · rintro ⟨key, bytes, isKey, isThere⟩
    have sameKey : BlobKey.of note = some ⟨"note".toList⟩ := by decide
    rw [sameKey] at isKey
    cases isKey
    have gone :
        (Config.execute backend lateDelete
          (racing note World.empty
            [.putDataset twoGraphs .triG,
              .putBlob [1, 2, 3] plainText])).world.blobs ⟨"note".toList⟩ =
          none := by
      decide
    rw [gone] at isThere
    cases isThere

end Quadpod.Reference
