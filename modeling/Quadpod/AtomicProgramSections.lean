import Quadpod.AtomicProgramInterleaving

/-!
# Programs that check and then write

A program reads until it comes to a section, in which it checks the world and
then writes.  The calls of a section are calls like any others, so another
program may change the world between the check and the write.  Here two such
programs share a world under a schedule that lets neither change it while the
other one is inside its section.  The check of the later one then sees what the
other one has left, and at most one of the two succeeds.
-/

namespace AtomicProgram

variable {I : Interface} {ε α World : Type}

/-- A call that leaves every world as it is. -/
def Machine.Keeps (machine : Machine I World) (request : I.Call) : Prop :=
  ∀ world, (machine.perform world request).2 = world

/-- A call that keeps what is known of a world. -/
def Machine.Preserves
    (machine : Machine I World) (legal : World → Prop) (request : I.Call) :
    Prop :=
  ∀ world, legal world → legal (machine.perform world request).2

namespace Program

/-- A program that only reads until it fails or comes to a section. -/
inductive Approaches
    (machine : Machine I World) (sections : Program I ε α → Prop) :
    Program I ε α → Prop where
  | arrived {program : Program I ε α} (isSection : sections program) :
      Approaches machine sections program
  | failed (error : ε) : Approaches machine sections (.fail error)
  | reading
      {request : I.Call}
      {next : Except I.Fault (I.Reply request) → Program I ε α}
      (keeps : machine.Keeps request)
      (continues : ∀ reply, Approaches machine sections (next reply)) :
      Approaches machine sections (.call request next)

/-- A program in progress that has begun its section. -/
def Inside
    (machine : Machine I World) (sections : Program I ε α → Prop)
    (program : Program I ε α) : Prop :=
  ¬ program.Finished ∧ ¬ program.Approaches machine sections

/-- A program in progress that has come to its section. -/
def Comparing
    (machine : Machine I World) (sections : Program I ε α → Prop)
    (program : Program I ε α) : Prop :=
  ¬ program.Finished ∧
    (sections program ∨ ¬ program.Approaches machine sections)

/-- A program that has ended in a success. -/
def Won (success : α → Prop) (program : Program I ε α) : Prop :=
  ∃ value, program = .done value ∧ success value

/--
A section that keeps what is known of a world, refuses where the comparison is
lost, and whose success leaves a world where it is lost.
-/
structure ComparesAndSets
    (machine : Machine I World) (legal : World → Prop) (success : α → Prop)
    (lost : World → Prop) (refusal : ε) (program : Program I ε α) : Prop where
  keeps : program.Uses (machine.Preserves legal)
  refuses :
    ∀ world,
      lost world →
      (program.eval machine world).1 = .error refusal
  replaces :
    ∀ world value,
      legal world →
      (program.eval machine world).1 = .ok value →
      success value →
      lost (program.eval machine world).2

variable {machine : Machine I World} {sections : Program I ε α → Prop}

theorem uses_of_forall
    {allowed : I.Call → Prop} (all : ∀ request, allowed request)
    (program : Program I ε α) :
    program.Uses allowed := by
  induction program with
  | done value =>
      exact uses_done value
  | fail error =>
      exact uses_fail error
  | call request next inductionHypothesis =>
      exact ⟨all request, fun reply _ => inductionHypothesis reply⟩

theorem approaches_ofExcept_bind
    {β : Type} {result : Except ε β} {next : β → Program I ε α}
    (continues :
      ∀ value,
        result = .ok value →
        (next value).Approaches machine sections) :
    (ofExcept result >>= next : Program I ε α).Approaches machine sections := by
  cases result with
  | ok value =>
      exact continues value rfl
  | error error =>
      exact .failed error

/-- Reading first changes nothing about what is approached. -/
theorem Uses.approaches_bind
    {β : Type} {program : Program I ε β} {next : β → Program I ε α}
    (reads : program.Uses machine.Keeps)
    (continues : ∀ value, (next value).Approaches machine sections) :
    (program >>= next : Program I ε α).Approaches machine sections := by
  induction program with
  | done value =>
      exact continues value
  | fail error =>
      exact .failed error
  | call request continuation inductionHypothesis =>
      exact .reading reads.1 fun reply =>
        inductionHypothesis reply (reads.2 reply trivial)

end Program

/-! ## Two programs -/

/-- How far a program has come, and in which world it began its section. -/
inductive Mark (World : Type) where
  | ahead
  | inside (entered : World)
  | won
  | refused

section Marks

variable (machine : Machine I World) (sections : Program I ε α → Prop)
variable (legal : World → Prop) (success : α → Prop) (lost : World → Prop)

/-- What a mark says of a program in the present world. -/
def Mark.Describes (world : World) (program : Program I ε α) :
    Mark World → Prop
  | .ahead => program.Approaches machine sections
  | .inside entered =>
      legal entered ∧
        program.Uses (machine.Preserves legal) ∧
        ∃ started,
          sections started ∧
            program.eval machine world = started.eval machine entered
  | .won => program.Won success
  | .refused => program.Finished ∧ ¬ program.Won success

/-- What two marks say of each other in the present world. -/
def Mark.Compatible (world : World) : Mark World → Mark World → Prop
  | .inside first, .inside second => world = first ∨ world = second
  | .inside entered, .won => lost entered
  | .won, .inside entered => lost entered
  | .ahead, .won => lost world
  | .won, .ahead => lost world
  | .won, .won => False
  | _, _ => True

/-- Two programs with marks that describe them and are compatible. -/
def Contending (world : World) (program other : Program I ε α) : Prop :=
  legal world ∧
    ∃ mark otherMark : Mark World,
      mark.Describes machine sections legal success world program ∧
        otherMark.Describes machine sections legal success world other ∧
        mark.Compatible lost world otherMark

end Marks

section Contention

variable {machine : Machine I World} {sections : Program I ε α → Prop}
variable {legal : World → Prop} {success : α → Prop} {lost : World → Prop}
variable {refusal : ε}
variable {world : World} {program other : Program I ε α}

theorem Mark.Compatible.symm
    {mark otherMark : Mark World}
    (compatible : mark.Compatible lost world otherMark) :
    otherMark.Compatible lost world mark := by
  cases mark with
  | ahead =>
      cases otherMark <;> exact compatible
  | won =>
      cases otherMark <;> exact compatible
  | refused =>
      cases otherMark <;> exact trivial
  | inside first =>
      cases otherMark with
      | ahead => exact trivial
      | won => exact compatible
      | refused => exact trivial
      | inside second => exact Or.symm compatible

theorem Contending.symm
    (contending :
      Contending machine sections legal success lost world program other) :
    Contending machine sections legal success lost world other program := by
  obtain ⟨isLegal, mark, otherMark, describes, otherDescribes, compatible⟩ :=
    contending
  exact ⟨isLegal, otherMark, mark, otherDescribes, describes, compatible.symm⟩

/-- A section that has ended in a success was entered where nothing was lost. -/
theorem Mark.won_of_inside
    (comparesAndSets :
      ∀ program,
        sections program →
        program.ComparesAndSets machine legal success lost refusal)
    {entered : World}
    (describes :
      (Mark.inside entered).Describes machine sections legal success world
        program)
    (won : program.Won success) :
    ¬ lost entered ∧ lost world := by
  obtain ⟨isLegal, _, started, isSection, replayed⟩ := describes
  obtain ⟨value, rfl, isSuccess⟩ := won
  have result : (started.eval machine entered).1 = .ok value := by
    rw [← replayed]
    rfl
  have reached : (started.eval machine entered).2 = world := by
    rw [← replayed]
    rfl
  constructor
  · intro isLost
    have refused := (comparesAndSets started isSection).refuses entered isLost
    rw [result] at refused
    cases refused
  · rw [← reached]
    exact (comparesAndSets started isSection).replaces entered value isLegal
      result isSuccess

/-- A program that approaches its section has not succeeded. -/
theorem Mark.not_won_of_ahead
    (comparesAndSets :
      ∀ program,
        sections program →
        program.ComparesAndSets machine legal success lost refusal)
    (isLegal : legal world)
    (describes :
      (Mark.ahead : Mark World).Describes machine sections legal success world
        program) :
    ¬ program.Won success := by
  intro won
  cases describes with
  | arrived isSection =>
      have entered :
          (Mark.inside world).Describes machine sections legal success world
            program :=
        ⟨isLegal, (comparesAndSets program isSection).keeps, program, isSection,
          rfl⟩
      obtain ⟨notLost, isLost⟩ := Mark.won_of_inside comparesAndSets entered won
      exact notLost isLost
  | failed error =>
      obtain ⟨value, impossible, _⟩ := won
      cases impossible
  | reading keeps continues =>
      obtain ⟨value, impossible, _⟩ := won
      cases impossible

/-- A program that is not inside needs no mark that says so. -/
theorem Contending.outside
    (comparesAndSets :
      ∀ program,
        sections program →
        program.ComparesAndSets machine legal success lost refusal)
    (contending :
      Contending machine sections legal success lost world program other)
    (unfinished : ¬ program.Finished)
    (outside : ¬ other.Inside machine sections) :
    ∃ mark otherMark : Mark World,
      mark.Describes machine sections legal success world program ∧
        otherMark.Describes machine sections legal success world other ∧
        mark.Compatible lost world otherMark ∧
        ∀ entered, otherMark ≠ .inside entered := by
  obtain ⟨isLegal, mark, otherMark, describes, otherDescribes, compatible⟩ :=
    contending
  cases otherMark with
  | ahead =>
      exact ⟨mark, .ahead, describes, otherDescribes, compatible, by simp⟩
  | won =>
      exact ⟨mark, .won, describes, otherDescribes, compatible, by simp⟩
  | refused =>
      exact ⟨mark, .refused, describes, otherDescribes, compatible, by simp⟩
  | inside entered =>
      by_cases approaches : other.Approaches machine sections
      · refine ⟨mark, .ahead, describes, approaches, ?_, by simp⟩
        cases mark with
        | ahead => exact trivial
        | inside _ => exact trivial
        | refused => exact trivial
        | won =>
            obtain ⟨value, rfl, _⟩ := describes
            exact (unfinished trivial).elim
      · have finished : other.Finished :=
          Classical.byContradiction fun running => outside ⟨running, approaches⟩
        by_cases won : other.Won success
        · obtain ⟨notLost, isLost⟩ :=
            Mark.won_of_inside comparesAndSets otherDescribes won
          refine ⟨mark, .won, describes, won, ?_, by simp⟩
          cases mark with
          | ahead => exact isLost
          | refused => exact trivial
          | won =>
              obtain ⟨value, rfl, _⟩ := describes
              exact (unfinished trivial).elim
          | inside first =>
              rcases compatible with rfl | rfl
              · exact isLost
              · exact (notLost isLost).elim
        · refine ⟨mark, .refused, describes, ⟨finished, won⟩, ?_, by simp⟩
          cases mark <;> exact trivial

/-- A mark keeps its meaning in another world, unless it is inside. -/
theorem Mark.Describes.transport
    {mark : Mark World} {reached : World}
    (describes : mark.Describes machine sections legal success world program)
    (same : reached = world ∨ ∀ entered, mark ≠ .inside entered) :
    mark.Describes machine sections legal success reached program := by
  cases mark with
  | ahead => exact describes
  | won => exact describes
  | refused => exact describes
  | inside entered =>
      rcases same with rfl | notInside
      · exact describes
      · exact (notInside entered rfl).elim

/-- One of two programs makes its next call. -/
theorem Contending.perform
    (comparesAndSets :
      ∀ program,
        sections program →
        program.ComparesAndSets machine legal success lost refusal)
    {request : I.Call}
    {next : Except I.Fault (I.Reply request) → Program I ε α}
    (contending :
      Contending machine sections legal success lost world
        (.call request next) other)
    (undisturbed :
      (machine.perform world request).2 = world ∨
        ¬ other.Inside machine sections) :
    Contending machine sections legal success lost
      (machine.perform world request).2
      (next (machine.perform world request).1) other := by
  have isLegal := contending.1
  have marked :
      ∃ mark otherMark : Mark World,
        mark.Describes machine sections legal success world
            (.call request next) ∧
          otherMark.Describes machine sections legal success world other ∧
          mark.Compatible lost world otherMark ∧
          ((machine.perform world request).2 = world ∨
            ∀ entered, otherMark ≠ .inside entered) := by
    rcases undisturbed with same | outside
    · obtain ⟨_, mark, otherMark, describes, otherDescribes, compatible⟩ :=
        contending
      exact ⟨mark, otherMark, describes, otherDescribes, compatible,
        Or.inl same⟩
    · obtain ⟨mark, otherMark, describes, otherDescribes, compatible,
          notInside⟩ :=
        contending.outside comparesAndSets id outside
      exact ⟨mark, otherMark, describes, otherDescribes, compatible,
        Or.inr notInside⟩
  obtain ⟨mark, otherMark, describes, otherDescribes, compatible, same⟩ :=
    marked
  have transported := otherDescribes.transport same
  have entering :
      sections (.call request next) →
      (Mark.inside world).Compatible lost world otherMark →
      Contending machine sections legal success lost
        (machine.perform world request).2
        (next (machine.perform world request).1) other := by
    intro isSection compatible
    have keeps := (comparesAndSets _ isSection).keeps
    refine ⟨keeps.1 world isLegal, .inside world, otherMark,
      ⟨isLegal, keeps.2 _ trivial, _, isSection, rfl⟩, transported, ?_⟩
    cases otherMark with
    | inside entered =>
        rcases same with same | notInside
        · exact Or.inl same
        · exact (notInside entered rfl).elim
    | ahead => exact trivial
    | won => exact compatible
    | refused => exact trivial
  cases mark with
  | inside entered =>
      obtain ⟨enteredLegal, keeps, started, isSection, replayed⟩ := describes
      refine ⟨keeps.1 world isLegal, .inside entered, otherMark,
        ⟨enteredLegal, keeps.2 _ trivial, started, isSection, replayed⟩,
        transported, ?_⟩
      cases otherMark with
      | ahead => exact trivial
      | won => exact compatible
      | refused => exact trivial
      | inside other =>
          rcases same with same | notInside
          · rw [same]
            exact compatible
          · exact (notInside other rfl).elim
  | ahead =>
      cases describes with
      | arrived isSection =>
          refine entering isSection ?_
          cases otherMark with
          | ahead => exact trivial
          | inside _ => exact Or.inl rfl
          | won => exact compatible
          | refused => exact trivial
      | reading keeps continues =>
          have same := keeps world
          refine ⟨same.symm ▸ isLegal, .ahead, otherMark, continues _,
            transported, ?_⟩
          rw [same]
          exact compatible
  | won =>
      obtain ⟨value, impossible, _⟩ := describes
      cases impossible
  | refused =>
      exact describes.1.elim

/-- Of two programs with compatible marks at most one has succeeded. -/
theorem Contending.not_both_won
    (comparesAndSets :
      ∀ program,
        sections program →
        program.ComparesAndSets machine legal success lost refusal)
    (contending :
      Contending machine sections legal success lost world program other)
    (won : program.Won success) :
    ¬ other.Won success := by
  intro otherWon
  obtain ⟨isLegal, mark, otherMark, describes, otherDescribes, compatible⟩ :=
    contending
  cases mark with
  | ahead =>
      exact Mark.not_won_of_ahead comparesAndSets isLegal describes won
  | refused =>
      exact describes.2 won
  | won =>
      cases otherMark with
      | ahead =>
          exact Mark.not_won_of_ahead comparesAndSets isLegal otherDescribes
            otherWon
      | refused =>
          exact otherDescribes.2 otherWon
      | won =>
          exact compatible
      | inside entered =>
          exact
            (Mark.won_of_inside comparesAndSets otherDescribes otherWon).1
              compatible
  | inside entered =>
      obtain ⟨notLost, isLost⟩ :=
        Mark.won_of_inside comparesAndSets describes won
      cases otherMark with
      | ahead =>
          exact Mark.not_won_of_ahead comparesAndSets isLegal otherDescribes
            otherWon
      | refused =>
          exact otherDescribes.2 otherWon
      | won =>
          exact notLost compatible
      | inside other =>
          have otherNotLost :=
            (Mark.won_of_inside comparesAndSets otherDescribes otherWon).1
          rcases compatible with rfl | rfl
          · exact notLost isLost
          · exact otherNotLost isLost

/-- Once one has succeeded, the other is refused in its section. -/
theorem Contending.refused
    (comparesAndSets :
      ∀ program,
        sections program →
        program.ComparesAndSets machine legal success lost refusal)
    (contending :
      Contending machine sections legal success lost world program other)
    (won : program.Won success)
    (comparing : other.Comparing machine sections) :
    (other.eval machine world).1 = .error refusal := by
  obtain ⟨unfinished, comes⟩ := comparing
  obtain ⟨isLegal, mark, otherMark, describes, otherDescribes, compatible⟩ :=
    contending
  have wonMark :
      mark = .won ∨
        ∃ first, mark = .inside first ∧ ¬ lost first ∧ lost world := by
    cases mark with
    | ahead =>
        exact (Mark.not_won_of_ahead comparesAndSets isLegal describes won).elim
    | refused =>
        exact (describes.2 won).elim
    | won =>
        exact Or.inl rfl
    | inside first =>
        exact Or.inr
          ⟨first, rfl, Mark.won_of_inside comparesAndSets describes won⟩
  cases otherMark with
  | won =>
      obtain ⟨value, rfl, _⟩ := otherDescribes
      exact (unfinished trivial).elim
  | refused =>
      exact (unfinished otherDescribes.1).elim
  | ahead =>
      have isLost : lost world := by
        rcases wonMark with rfl | ⟨first, rfl, _, isLost⟩
        · exact compatible
        · exact isLost
      rcases comes with isSection | notApproaching
      · exact (comparesAndSets other isSection).refuses world isLost
      · exact (notApproaching otherDescribes).elim
  | inside entered =>
      have isLost : lost entered := by
        rcases wonMark with rfl | ⟨first, rfl, notLost, isLost⟩
        · exact compatible
        · rcases compatible with rfl | rfl
          · exact (notLost isLost).elim
          · exact isLost
      obtain ⟨_, _, started, isSection, replayed⟩ := otherDescribes
      rw [replayed]
      exact (comparesAndSets started isSection).refuses entered isLost

end Contention

/-! ## Runs of two programs -/

namespace Config

variable {machine : Machine I World} {sections : Program I ε α → Prop}
variable {legal : World → Prop} {success : α → Prop} {lost : World → Prop}
variable {refusal : ε}

/--
The turns that do no harm: no call fails, and a call changes the world only
while no other program is inside its section.
-/
def Undisturbed
    (machine : Machine I World) (sections : Program I ε α → Prop)
    (config : Config I ε α World) (turn : Turn I) : Prop :=
  turn.fault = none ∧
    ((config.advance machine turn).world = config.world ∨
      ∀ thread program,
        thread ≠ turn.thread →
        config.pool[thread]? = some program →
        ¬ program.Inside machine sections)

theorem admits_append
    {allowed : Config I ε α World → Turn I → Prop}
    {before later : List (Turn I)} {config : Config I ε α World}
    (first : Admits machine allowed before config)
    (second : Admits machine allowed later (execute machine before config)) :
    Admits machine allowed (before ++ later) config := by
  induction before generalizing config with
  | nil =>
      exact second
  | cons turn rest inductionHypothesis =>
      exact ⟨first.1, inductionHypothesis first.2 second⟩

/-- Turns of one program do no harm while no other one is inside. -/
theorem admits_alone
    {thread : Nat} (count : Nat) {config : Config I ε α World}
    (outside :
      ∀ other program,
        other ≠ thread →
        config.pool[other]? = some program →
        ¬ program.Inside machine sections) :
    Admits machine (Undisturbed machine sections)
      (List.replicate count ⟨thread, none⟩) config := by
  induction count generalizing config with
  | zero =>
      trivial
  | succ count inductionHypothesis =>
      refine ⟨⟨rfl, Or.inr outside⟩, inductionHypothesis ?_⟩
      intro other program different isProgram
      rw [advance_other machine (Ne.symm different)] at isProgram
      exact outside other program different isProgram

/-- At most one program succeeds, and then the others are refused. -/
structure OneWins
    (machine : Machine I World) (sections : Program I ε α → Prop)
    (success : α → Prop) (refusal : ε) (config : Config I ε α World) :
    Prop where
  atMostOne :
    ∀ (first second : Nat) (program other : Program I ε α),
      first ≠ second →
      config.pool[first]? = some program →
      config.pool[second]? = some other →
      program.Won success →
      ¬ other.Won success
  refused :
    ∀ (first second : Nat) (program other : Program I ε α),
      first ≠ second →
      config.pool[first]? = some program →
      config.pool[second]? = some other →
      program.Won success →
      other.Comparing machine sections →
      (other.eval machine config.world).1 = .error refusal

/-- A configuration of two programs with compatible marks. -/
def Contended
    (machine : Machine I World) (sections : Program I ε α → Prop)
    (legal : World → Prop) (success : α → Prop) (lost : World → Prop)
    (config : Config I ε α World) : Prop :=
  ∃ program other,
    config.pool = [program, other] ∧
      Contending machine sections legal success lost config.world program other

/-- A turn of one of two programs. -/
theorem Contended.advance
    (comparesAndSets :
      ∀ program,
        sections program →
        program.ComparesAndSets machine legal success lost refusal)
    {config : Config I ε α World} {turn : Turn I}
    (contended : config.Contended machine sections legal success lost)
    (undisturbed : config.Undisturbed machine sections turn) :
    (config.advance machine turn).Contended machine sections legal success
      lost := by
  obtain ⟨program, other, isPool, contending⟩ := contended
  obtain ⟨noFault, quiet⟩ := undisturbed
  rcases advance_cases machine turn config with
    same | ⟨request, next, found, ⟨fault, isFault, _⟩ | ⟨_, reached⟩⟩
  · rw [same]
    exact ⟨program, other, isPool, contending⟩
  · rw [noFault] at isFault
    cases isFault
  · rw [reached] at quiet
    dsimp only at quiet
    rw [isPool] at found quiet
    rw [reached, isPool]
    match isThread : turn.thread with
    | 0 =>
        rw [isThread] at found
        obtain rfl := Option.some.inj found
        refine ⟨_, other, rfl, contending.perform comparesAndSets ?_⟩
        exact quiet.imp id fun outside =>
          outside 1 other (by rw [isThread]; exact Nat.one_ne_zero) rfl
    | 1 =>
        rw [isThread] at found
        obtain rfl := Option.some.inj found
        refine ⟨program, _, rfl,
          (contending.symm.perform comparesAndSets ?_).symm⟩
        exact quiet.imp id fun outside =>
          outside 0 program (by rw [isThread]; exact Nat.zero_ne_one) rfl
    | later + 2 =>
        rw [isThread] at found
        cases found

/--
Two programs with sections that compare and set: under a schedule in which
neither changes the world while the other one is inside its section, at most one
of them succeeds, and the other one is refused if it comes to its section after
that.
-/
theorem execute_one_wins
    (comparesAndSets :
      ∀ program,
        sections program →
        program.ComparesAndSets machine legal success lost refusal)
    {first second : Program I ε α}
    (firstApproaches : first.Approaches machine sections)
    (secondApproaches : second.Approaches machine sections)
    {world : World} (isLegal : legal world) (schedule : List (Turn I))
    (undisturbed :
      Admits machine (Undisturbed machine sections) schedule
        (start world [first, second])) :
    OneWins machine sections success refusal
      (execute machine schedule (start world [first, second])) := by
  have kept :
      (execute machine schedule (start world [first, second])).Contended
        machine sections legal success lost :=
    execute_invariant machine
      (fun _ _ contended undisturbed =>
        contended.advance comparesAndSets undisturbed)
      schedule _ undisturbed
      ⟨first, second, rfl, isLegal, .ahead, .ahead, firstApproaches,
        secondApproaches, trivial⟩
  generalize execute machine schedule (start world [first, second]) = config
    at kept ⊢
  obtain ⟨program, other, isPool, contending⟩ := kept
  have pairs :
      ∀ (first second : Nat) (one another : Program I ε α),
        first ≠ second →
        config.pool[first]? = some one →
        config.pool[second]? = some another →
        Contending machine sections legal success lost config.world one
          another := by
    intro first second one another different isFirst isSecond
    rw [isPool] at isFirst isSecond
    match first, second with
    | 0, 0 => exact (different rfl).elim
    | 0, 1 =>
        obtain rfl := Option.some.inj isFirst
        obtain rfl := Option.some.inj isSecond
        exact contending
    | 1, 0 =>
        obtain rfl := Option.some.inj isFirst
        obtain rfl := Option.some.inj isSecond
        exact contending.symm
    | 1, 1 => exact (different rfl).elim
    | 0, later + 2 => cases isSecond
    | 1, later + 2 => cases isSecond
    | later + 2, _ => cases isFirst
  constructor
  · intro first second one another different isFirst isSecond won
    exact (pairs _ _ _ _ different isFirst isSecond).not_both_won
      comparesAndSets won
  · intro first second one another different isFirst isSecond won comparing
    exact (pairs _ _ _ _ different isFirst isSecond).refused
      comparesAndSets won comparing

end Config

end AtomicProgram
