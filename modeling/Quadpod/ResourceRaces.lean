import Quadpod.AtomicProgramInterleaving
import Quadpod.DatasetStore

namespace Quadpod

open AtomicProgram
open GraphStore

/-!
# Writers of one resource

Any number of `put_dataset`, `put_blob` and `delete_subject` runs on one URL,
interleaved call by call.  Each of them changes the graphs in a single update,
and what such an update leaves does not depend on what it found: so the newest
update of the history says what `get_dataset` returns.
-/

variable [IriSyntax] [Sha256] [ObjectPath] {space : StorageSpace}

/-- A run on one resource. -/
inductive ResourceWrite where
  | putDataset (body : Skolemized) (format : Format)
  | putBlob (bytes : Bytes) (mediaType : MediaType)
  | deleteSubject

namespace ResourceWrite

variable (url : ResourceUrl space)

/-- The program of a run. -/
def program : ResourceWrite → ResourceProgram Unit
  | .putDataset body format => Quadpod.putDataset url body format
  | .putBlob bytes mediaType => Quadpod.putBlob url bytes mediaType
  | .deleteSubject => do
      let _ ← Quadpod.deleteSubject url
      pure ()

/-- The updates a run can commit, one for each registry it may have read. -/
def commits : ResourceWrite → List ShelfKey →
    List (Operation Text GroundTriple)
  | .putDataset body format, registered =>
      putDatasetUpdate url registered (Buckets.of url body) format.mediaType
  | .putBlob _ mediaType, registered =>
      putBlobUpdate url registered mediaType
  | .deleteSubject, registered => deleteSubjectUpdate url registered

/-- The calls of a run: reads, object calls and one form of update. -/
def Issues (write : ResourceWrite) (call : Call) : Prop :=
  call.Reads ∨ (∃ key bytes, call = .blobPut key bytes) ∨
    (∃ key, call = .blobDelete key) ∨
    ∃ registered, call = .update (write.commits url registered)

end ResourceWrite

omit [Sha256] in
theorem uses_deleteBlob
    {allowed : Call → Prop} (url : ResourceUrl space)
    (deletes : ∀ key, allowed (.blobDelete key)) :
    Program.Uses allowed (deleteBlob url) := by
  unfold deleteBlob
  split
  · exact StoreProgram.uses_issue (deletes _)
  · exact Program.uses_done ()

theorem ResourceWrite.uses
    (url : ResourceUrl space) (write : ResourceWrite) :
    Program.Uses (write.Issues url) (write.program url) := by
  have reads :
      ∀ {α : Type} {program : ResourceProgram α},
        ReadsOnly program → Program.Uses (write.Issues url) program := by
    intro α program readsOnly
    exact readsOnly.obeys fun call isRead => Or.inl isRead
  cases write with
  | putDataset body format =>
      refine Program.Uses.bind (reads (readsOnly_registeredShelves url)) ?_
      intro registered
      split
      · refine Program.Uses.bind (StoreProgram.uses_issue ?_) fun _ => ?_
        · exact Or.inr (Or.inr (Or.inr ⟨registered, rfl⟩))
        · exact uses_deleteBlob url fun key =>
            Or.inr (Or.inr (Or.inl ⟨key, rfl⟩))
      · exact Program.uses_fail _
  | putBlob bytes mediaType =>
      change Program.Uses _ (Quadpod.putBlob url bytes mediaType)
      unfold Quadpod.putBlob
      split
      · exact Program.uses_fail _
      · next key keyed =>
          refine Program.Uses.bind (reads (readsOnly_registeredShelves url)) ?_
          intro registered
          refine Program.Uses.bind (StoreProgram.uses_issue ?_) fun _ => ?_
          · exact Or.inr (Or.inl ⟨key, bytes, rfl⟩)
          · exact StoreProgram.uses_issue
              (Or.inr (Or.inr (Or.inr ⟨registered, rfl⟩)))
  | deleteSubject =>
      refine Program.Uses.bind ?_ fun _ => Program.uses_done ()
      refine Program.Uses.bind (reads (readsOnly_exists url)) fun existed => ?_
      refine Program.Uses.bind (reads (readsOnly_registeredShelves url)) ?_
      intro registered
      refine Program.Uses.bind (StoreProgram.uses_issue ?_) fun _ => ?_
      · exact Or.inr (Or.inr (Or.inr ⟨registered, rfl⟩))
      · refine Program.Uses.bind ?_ fun _ => Program.uses_done existed
        exact uses_deleteBlob url fun key =>
          Or.inr (Or.inr (Or.inl ⟨key, rfl⟩))

/-! ## The newest update -/

/-- Whether a call is an update with something to do. -/
def Call.isCommit (call : Call) : Bool :=
  !call.operations.isEmpty

/-- The thread whose update is the newest of a history. -/
def newestCommit (history : List (Nat × Call)) : Option Nat :=
  (history.find? fun entry => entry.2.isCommit).map Prod.fst

omit [Sha256] [ObjectPath] in
/-- A call that is no commit leaves the graphs alone. -/
theorem graphs_of_not_isCommit
    {call : Call} (noCommit : call.isCommit = false) (world : World) :
    (backend.perform world call).2.graphs = world.graphs := by
  have nothing : call.operations = [] := by
    simpa [Call.isCommit] using noCommit
  rw [backend_graphs, nothing]
  rfl

/-- The graphs are what the update of a run made of some earlier graphs. -/
def LeftBy
    (url : ResourceUrl space) (write : ResourceWrite) (world : World) : Prop :=
  ∃ (store : Store Text GroundTriple) (registered : List ShelfKey),
    world.graphs = store.applyAll (write.commits url registered)

/-- The newest update of the history explains the graphs. -/
def NewestExplains
    (url : ResourceUrl space) (writes : List ResourceWrite)
    (history : List (Nat × Call)) (world : World) : Prop :=
  ∀ thread,
    newestCommit history = some thread →
    ∃ write, writes[thread]? = some write ∧ LeftBy url write world

omit [ObjectPath] in
/-- One call of one of the runs. -/
theorem NewestExplains.perform
    {url : ResourceUrl space} {writes : List ResourceWrite}
    {history : List (Nat × Call)} {world : World}
    {thread : Nat} {write : ResourceWrite} {call : Call}
    (explains : NewestExplains url writes history world)
    (isWrite : writes[thread]? = some write)
    (issues : write.Issues url call) :
    NewestExplains url writes ((thread, call) :: history)
      (backend.perform world call).2 := by
  intro newest isNewest
  cases isCommit : call.isCommit with
  | true =>
      obtain rfl : thread = newest := by
        simpa [newestCommit, isCommit] using isNewest
      rcases issues with reads | ⟨key, bytes, rfl⟩ | ⟨key, rfl⟩ |
          ⟨registered, rfl⟩
      · rw [Call.isCommit, reads.1] at isCommit
        cases isCommit
      · cases isCommit
      · cases isCommit
      · exact ⟨write, isWrite, world.graphs, registered, rfl⟩
  | false =>
      have older : newestCommit history = some newest := by
        simpa [newestCommit, isCommit] using isNewest
      obtain ⟨other, isOther, store, registered, left⟩ :=
        explains newest older
      refine ⟨other, isOther, store, registered, ?_⟩
      rw [graphs_of_not_isCommit isCommit, left]

/-- Runs on one resource that are about to share a world. -/
def racing (url : ResourceUrl space) (world : World)
    (writes : List ResourceWrite) :
    Config stores ResourceError Unit World :=
  Config.start world (writes.map (·.program url))

/-- In every configuration of a race the newest update explains the graphs. -/
theorem newestExplains_racing
    (url : ResourceUrl space) (world : World) (writes : List ResourceWrite)
    (schedule : List (Turn stores)) :
    let reached := Config.execute backend schedule (racing url world writes)
    NewestExplains url writes reached.history reached.world := by
  intro reached
  let rule (thread : Nat) : Rule stores :=
    ⟨fun call => ∃ write, writes[thread]? = some write ∧ write.Issues url call,
      fun _ _ => True⟩
  refine Config.execute_obeys backend rule
    ?_ ?_ ?_ schedule (racing url world writes) ?_ ?_
  · rintro thread history before call explains ⟨write, isWrite, issues⟩
    exact explains.perform isWrite issues
  · intros
    trivial
  · intros
    trivial
  · intro thread program isProgram
    obtain ⟨write, isWrite, rfl⟩ : ∃ write,
        writes[thread]? = some write ∧ write.program url = program := by
      simpa [racing, Config.start] using isProgram
    exact (write.uses url).obeys fun call issues => ⟨write, isWrite, issues⟩
  · intro thread isNewest
    cases isNewest

/-! ## What is read after the newest update -/

/-- What `get_dataset` returns after a run that nothing has overtaken. -/
def ResourceWrite.Shows
    (write : ResourceWrite)
    (outcome : Except ResourceError (Option Skolemized)) : Prop :=
  match write with
  | .putDataset body _ =>
      ∃ returned,
        outcome = .ok (some returned) ∧
          ∀ quad, quad ∈ returned.quads ↔ quad ∈ body.quads
  | .putBlob _ _ => outcome = .ok (some ⟨[]⟩)
  | .deleteSubject => outcome = .ok none

omit [ObjectPath] in
/-- After the update of `put_blob` the world holds the empty dataset. -/
theorem holds_of_putBlob
    {world : World} {store : Store Text GroundTriple}
    {url : ResourceUrl space} {registered : List ShelfKey}
    {mediaType : MediaType}
    (isWritten :
      world.graphs =
        store.applyAll (putBlobUpdate url registered mediaType)) :
    world.Holds url ⟨[]⟩ := by
  have noGraph : ∀ triple, triple ∉ world.graphs url.iri := by
    intro triple isThere
    rw [isWritten, mem_applyAll_putBlob] at isThere
    rcases isThere with ⟨_, kept⟩ | ⟨isGraph, _⟩
    · exact kept (by simp)
    · exact not_isHttp_sysGraphOf _ (isGraph ▸ url.isHttp)
  have noShelf : ∀ key, key ∉ world.registered url := by
    intro key isRegistered
    rw [World.mem_registered, isWritten, mem_applyAll_putBlob] at isRegistered
    obtain ⟨notPresent, notMediaType, _, notType⟩ := sysHasSubgraph_ne
    rcases isRegistered with ⟨_, kept⟩ | ⟨_, isEntry⟩
    · exact kept (by simp)
    · simp only [binaryEntries, List.mem_cons, List.not_mem_nil, or_false]
        at isEntry
      rcases isEntry with isMarker | isType | isMediaType
      · exact notPresent (congrArg GroundTriple.predicate isMarker).symm
      · exact notType (congrArg GroundTriple.predicate isType).symm
      · exact notMediaType
          (congrArg GroundTriple.predicate isMediaType).symm
  refine ⟨?_, ?_, ?_, ?_⟩
  · rw [World.present_iff, isWritten, mem_applyAll_putBlob]
    exact Or.inr ⟨rfl, List.mem_cons_self⟩
  · intro triple
    simpa using noGraph triple
  · intro key isRegistered
    exact (noShelf key isRegistered).elim
  · intro name triple inBody
    cases inBody

omit [ObjectPath] in
/-- What the update of a run leaves is what its run shows. -/
theorem LeftBy.shows
    (collisionFree : CollisionFree)
    {url : ResourceUrl space} {write : ResourceWrite} {world : World}
    (left : LeftBy url write world) :
    write.Shows (Program.eval backend (getDataset url) world).1 := by
  obtain ⟨store, registered, isWritten⟩ := left
  cases write with
  | putDataset body format =>
      obtain ⟨returned, isReturned, same⟩ :=
        (holds_of_putDataset collisionFree isWritten).eval_getDataset
      exact ⟨returned, congrArg Prod.fst isReturned, same⟩
  | putBlob bytes mediaType =>
      obtain ⟨⟨quads⟩, isReturned, same⟩ :=
        (holds_of_putBlob isWritten).eval_getDataset
      have noQuads : quads = [] := by
        refine List.eq_nil_iff_forall_not_mem.mpr fun quad isThere => ?_
        cases (same quad).mp isThere
      subst noQuads
      exact congrArg Prod.fst isReturned
  | deleteSubject =>
      have isAbsent : world.present url.node = false := by
        rw [Bool.eq_false_iff, ne_eq, World.present_iff, isWritten]
        intro isThere
        refine (mem_applyAll_deleteSubject.mp isThere).2.1 ?_
        simp [cascadeDrops]
      exact congrArg Prod.fst (eval_getDataset_absent isAbsent)

/--
Whatever runs of `put_dataset`, `put_blob` and `delete_subject` share a
resource, whichever of their calls fail and however they are interleaved, in
every configuration reached `get_dataset` returns what the run with the newest
update stored, and nothing of an earlier or an overtaken one.
-/
theorem newest_commit_read
    (collisionFree : CollisionFree)
    (url : ResourceUrl space) (world : World) (writes : List ResourceWrite)
    (schedule : List (Turn stores)) (thread : Nat) :
    let reached := Config.execute backend schedule (racing url world writes)
    newestCommit reached.history = some thread →
    ∃ write,
      writes[thread]? = some write ∧
        write.Shows (Program.eval backend (getDataset url) reached.world).1 := by
  intro reached isNewest
  obtain ⟨write, isWrite, left⟩ :=
    newestExplains_racing url world writes schedule thread isNewest
  exact ⟨write, isWrite, left.shows collisionFree⟩

end Quadpod

namespace Quadpod.Reference

open AtomicProgram

/-- A dataset and a blob are written to one resource. -/
def noteRace : List ResourceWrite :=
  [.putDataset twoGraphs .triG, .putBlob [1, 2, 3] plainText]

/-- The blob is committed while the dataset waits for its update. -/
def noteSchedule : List (Turn stores) :=
  [⟨0, none⟩, ⟨1, none⟩, ⟨1, none⟩, ⟨1, none⟩, ⟨0, none⟩]

/-- The dataset was committed last, and is what a read returns. -/
theorem newest_commit_read_noteRace :
    ∃ write,
      noteRace[0]? = some write ∧
        write.Shows (Program.eval backend (getDataset note)
          (Config.execute backend noteSchedule
            (racing note World.empty noteRace)).world).1 :=
  newest_commit_read collisionFree note World.empty noteRace noteSchedule 0
    (by decide)

end Quadpod.Reference
