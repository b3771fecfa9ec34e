import Quadpod.BlobRaces

namespace Quadpod

open AtomicProgram
open GraphStore

/-!
# A blob write that fails

`put_blob` reads the registry, writes the object and commits the marker, and
each of the three calls can fail.  Nothing has changed when one of the first two
does.  When the marker fails the new object is already in place: no read path
sees it while the resource is absent or RDF, but a resource that was binary
before is served with the new bytes under its old media type.
-/

variable [IriSyntax] [ObjectPath] {space : StorageSpace}

/-! ## Reading a resource -/

/-- What a read finds behind the kind of a resource. -/
inductive Content where
  | bytes (stored : Option Bytes)
  | dataset (stored : Option Skolemized)
  deriving DecidableEq

/-- The kind of a resource, its media type, and its bytes or its dataset. -/
structure ResourceView where
  kind : Option Kind
  mediaType : Option MediaType
  content : Content
  deriving DecidableEq

/-- The reads `get_impl` makes of a resource. -/
def readResource (url : ResourceUrl space) :
    ResourceProgram ResourceView := do
  let kind ← kindOf url
  let mediaType ← storedMediaType url
  match kind with
  | some (.binary _) =>
      match BlobKey.of url with
      | some key => do
          let stored : Option Bytes ← StoreProgram.issue .blob (.blobGet key)
          pure ⟨kind, mediaType, .bytes stored⟩
      | none => pure ⟨kind, mediaType, .bytes none⟩
  | _ => do
      let stored ← getDataset url
      pure ⟨kind, mediaType, .dataset stored⟩

/-- What reading a resource gives in a world. -/
def World.read (world : World) (url : ResourceUrl space) :
    Except ResourceError ResourceView :=
  (Program.eval backend (readResource url) world).1

/-- A binary resource is read as the object under its key. -/
theorem World.read_binary
    {world : World} {url : ResourceUrl space} {mediaType : MediaType}
    {key : BlobKey}
    (isBinary : world.kindOf url = .ok (some (.binary mediaType)))
    (keyed : BlobKey.of url = some key) :
    world.read url =
      .ok ⟨some (.binary mediaType), world.storedMediaType url,
        .bytes (world.blobs key)⟩ := by
  have kindRead :
      Program.eval backend (Quadpod.kindOf url) world =
        (.ok (some (.binary mediaType)), world) := by
    rw [eval_kindOf, isBinary]
  rw [World.read, readResource, Program.eval_bind_ok kindRead,
    Program.eval_bind_ok (eval_storedMediaType world url)]
  dsimp only
  rw [keyed]
  rfl

/-- What is not binary is read from the graphs alone. -/
theorem World.read_congr
    {world other : World} {url : ResourceUrl space}
    (notBinary : ¬ world.IsBinary url)
    (same : other.graphs = world.graphs) :
    other.read url = world.read url := by
  have sameKind : other.kindOf url = world.kindOf url := by
    have sameResult := (readsGraphs_kindOf url).eval_congr same
    rwa [eval_kindOf, eval_kindOf] at sameResult
  have notKind :
      ∀ mediaType, world.kindOf url ≠ .ok (some (.binary mediaType)) := by
    intro mediaType isKind
    exact notBinary ⟨mediaType, by rw [eval_kindOf, isKind]⟩
  have readsRest :
      ∀ kind : Option Kind,
        ReadsGraphs (do
          let mediaType ← Quadpod.storedMediaType url
          let stored ← getDataset url
          pure (⟨kind, mediaType, .dataset stored⟩ : ResourceView)) :=
    fun kind =>
      (readsGraphs_storedMediaType url).bind fun mediaType =>
        (readsGraphs_getDataset url).bind fun stored => Program.uses_done _
  unfold World.read readResource
  rw [Program.eval_bind, Program.eval_bind, eval_kindOf, eval_kindOf,
    sameKind]
  cases isKind : world.kindOf url with
  | error error =>
      rfl
  | ok kind =>
      match kind with
      | none =>
          exact (readsRest none).eval_congr same
      | some .rdf =>
          exact (readsRest (some .rdf)).eval_congr same
      | some (.binary mediaType) =>
          exact (notKind mediaType isKind).elim

/-! ## One failing call -/

/-- The run in which exactly one call fails, after `answered` others. -/
def failingAfter (answered : Nat) (message : Text) : Faults :=
  List.replicate answered none ++ [some message]

/-- The world a failed blob write leaves. -/
theorem putBlob_failed
    {url : ResourceUrl space} {bytes : Bytes} {mediaType : MediaType}
    {answered : Nat} {message : Text} {world : World} {error : ResourceError}
    (failed :
      (Program.run backend (putBlob url bytes mediaType)
        (failingAfter answered message) world).result = .error error) :
    (Program.run backend (putBlob url bytes mediaType)
        (failingAfter answered message) world).world =
      match BlobKey.of url with
      | some key =>
          if answered = 2 then
            { world with
              blobs := Function.update world.blobs key (some bytes) }
          else
            world
      | none => world := by
  cases keyed : BlobKey.of url with
  | none =>
      simp only [putBlob, keyed]
      rfl
  | some key =>
      simp only [putBlob, keyed] at failed ⊢
      match answered with
      | 0 =>
          rfl
      | 1 =>
          rfl
      | 2 =>
          rfl
      | more + 3 =>
          cases failed

/--
A blob write that fails at one of its calls leaves every read as it was exactly
when it did not fail at the marker, or the resource was not binary before, or
its object already had the same bytes.
-/
theorem putBlob_failed_unchanged_iff
    (url : ResourceUrl space) (bytes : Bytes) (mediaType : MediaType)
    (answered : Nat) (message : Text) (world : World)
    (error : ResourceError)
    (failed :
      (Program.run backend (putBlob url bytes mediaType)
        (failingAfter answered message) world).result = .error error) :
    (Program.run backend (putBlob url bytes mediaType)
        (failingAfter answered message) world).world.read url =
          world.read url ↔
      ∀ key,
        BlobKey.of url = some key →
        answered = 2 →
        world.IsBinary url →
        world.blobs key = some bytes := by
  rw [putBlob_failed failed]
  cases keyed : BlobKey.of url with
  | none =>
      simp
  | some key =>
      let overwritten : World :=
        { world with blobs := Function.update world.blobs key (some bytes) }
      change (if answered = 2 then overwritten else world).read url =
        world.read url ↔ _
      split
      · next isMarker =>
          constructor
          · rintro unchanged _ ⟨⟩ _ ⟨given, isKind⟩
            rw [eval_kindOf] at isKind
            have stillKind : overwritten.kindOf url = world.kindOf url := rfl
            rw [World.read_binary (stillKind.trans isKind) keyed,
              World.read_binary isKind keyed] at unchanged
            have sameBytes : overwritten.blobs key = world.blobs key := by
              injection unchanged with sameView
              injection sameView with _ _ sameContent
              injection sameContent
            rw [← sameBytes]
            exact Function.update_self _ _ _
          · intro condition
            by_cases isBinary : world.IsBinary url
            · have same : overwritten = world := by
                have stored := condition key rfl isMarker isBinary
                change (⟨world.graphs,
                  Function.update world.blobs key (some bytes)⟩ : World) =
                    world
                rw [← stored, Function.update_eq_self]
              rw [same]
            · exact World.read_congr isBinary rfl
      · next notMarker =>
          simp [notMarker]

end Quadpod

namespace Quadpod.Reference

open AtomicProgram

/-- A blob write whose marker fails of an absent resource changes no read. -/
theorem putBlob_failed_unchanged_note :
    (Program.run backend (putBlob note [4] plainText)
        (failingAfter 2 "down".toList) World.empty).world.read note =
      World.empty.read note := by
  refine (putBlob_failed_unchanged_iff note [4] plainText 2 "down".toList
    World.empty (.store (.backend "down".toList)) (by decide)).mpr ?_
  rintro key _ _ ⟨mediaType, isKind⟩
  have isAbsent :
      (Program.eval backend (kindOf note) World.empty).1 = .ok none := by
    decide
  rw [isAbsent] at isKind
  cases isKind

/-- The same failure over an object serves the new bytes. -/
theorem putBlob_failed_changed :
    (Program.run backend (putBlob note [4] plainText)
        (failingAfter 2 "down".toList) binaryWorld).result =
        .error (.store (.backend "down".toList)) ∧
      binaryWorld.read note =
        .ok ⟨some (.binary plainText), some plainText,
          .bytes (some [1, 2, 3])⟩ ∧
      (Program.run backend (putBlob note [4] plainText)
          (failingAfter 2 "down".toList) binaryWorld).world.read note =
        .ok ⟨some (.binary plainText), some plainText, .bytes (some [4])⟩ :=
  ⟨by decide, by decide +kernel, by decide +kernel⟩

end Quadpod.Reference
