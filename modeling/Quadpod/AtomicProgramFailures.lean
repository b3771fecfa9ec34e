import Quadpod.AtomicProgram

/-!
# How programs fail

Three judgments about failures.  `Program.Strict` says that a call that is not
answered ends the program in an error: a strict program that succeeds has seen
every answer, so it succeeded as if no call had been made to fail.
`Program.FailsWith` says which errors a program can end in.  `Program.GatedBy`
says that a program ends in an error, in the world it found, unless it has
passed a gate on its way.
-/

namespace AtomicProgram

namespace Program

variable {I : Interface} {ε ε' α β World : Type}

/-! ## Programs that tolerate no failed call -/

/-- A call that is not answered ends the program in an error. -/
def Strict : Program I ε α → Prop
  | .done _ => True
  | .fail _ => True
  | .call _ next =>
      (∀ fault, ∃ error, next (.error fault) = .fail error) ∧
        ∀ reply, (next reply).Strict

theorem strict_done (value : α) : (.done value : Program I ε α).Strict :=
  trivial

theorem strict_fail (error : ε) : (.fail error : Program I ε α).Strict :=
  trivial

theorem strict_ofExcept (result : Except ε α) :
    (ofExcept result : Program I ε α).Strict := by
  cases result with
  | ok value =>
      exact strict_done value
  | error error =>
      exact strict_fail error

theorem Strict.bind
    {program : Program I ε α}
    {next : α → Program I ε β}
    (first : program.Strict)
    (continues : ∀ value, (next value).Strict) :
    (program >>= next).Strict := by
  induction program with
  | done value =>
      exact continues value
  | fail error =>
      exact strict_fail error
  | call request continuation inductionHypothesis =>
      refine ⟨fun fault => ?_, fun reply =>
        inductionHypothesis reply (first.2 reply)⟩
      obtain ⟨error, fails⟩ := first.1 fault
      exact ⟨error, congrArg (Program.bind · next) fails⟩

theorem Strict.mapError
    {translate : ε → ε'}
    {program : Program I ε α}
    (strict : program.Strict) :
    (program.mapError translate).Strict := by
  induction program with
  | done value =>
      exact strict_done value
  | fail error =>
      exact strict_fail (translate error)
  | call request next inductionHypothesis =>
      refine ⟨fun fault => ?_, fun reply =>
        inductionHypothesis reply (strict.2 reply)⟩
      obtain ⟨error, fails⟩ := strict.1 fault
      exact ⟨translate error, congrArg (Program.mapError translate) fails⟩

/-- A strict program that succeeds does so without its failures as well. -/
theorem Strict.eval_of_run
    {machine : Machine I World}
    {program : Program I ε α}
    (strict : program.Strict)
    {faults : List (Option I.Fault)}
    {world : World}
    {value : α}
    (succeeds : (run machine program faults world).result = .ok value) :
    eval machine program world =
      (.ok value, (run machine program faults world).world) := by
  induction program generalizing faults world with
  | done result =>
      exact Prod.ext succeeds rfl
  | fail error =>
      cases succeeds
  | call request next inductionHypothesis =>
      match faults with
      | [] =>
          exact inductionHypothesis _ (strict.2 _) succeeds
      | none :: rest =>
          exact inductionHypothesis _ (strict.2 _) succeeds
      | some fault :: rest =>
          obtain ⟨error, fails⟩ := strict.1 fault
          rw [run, fails] at succeeds
          cases succeeds

/-! ## The errors of a program -/

/-- A program that succeeds with its errors translated succeeds. -/
theorem eval_of_mapError_eq_ok
    {machine : Machine I World}
    {translate : ε → ε'}
    {program : Program I ε α}
    {world reached : World}
    {value : α}
    (succeeds :
      eval machine (program.mapError translate) world =
        (.ok value, reached)) :
    eval machine program world = (.ok value, reached) := by
  rw [eval_mapError] at succeeds
  obtain ⟨isResult, isReached⟩ := Prod.mk.inj succeeds
  refine Prod.ext ?_ isReached
  cases result : (eval machine program world).1 with
  | ok found =>
      rw [result] at isResult
      cases isResult
      rfl
  | error error =>
      rw [result] at isResult
      cases isResult

/-- Every error the program can end in is one of those allowed. -/
def FailsWith (allowed : ε → Prop) : Program I ε α → Prop
  | .done _ => True
  | .fail error => allowed error
  | .call _ next => ∀ reply, (next reply).FailsWith allowed

variable {allowed : ε → Prop}

theorem failsWith_done (value : α) :
    (.done value : Program I ε α).FailsWith allowed :=
  trivial

theorem failsWith_ofExcept
    {result : Except ε α}
    (isAllowed : ∀ error, result = .error error → allowed error) :
    (ofExcept result : Program I ε α).FailsWith allowed := by
  cases result with
  | ok value =>
      exact failsWith_done value
  | error error =>
      exact isAllowed error rfl

theorem FailsWith.bind
    {program : Program I ε α}
    {next : α → Program I ε β}
    (first : program.FailsWith allowed)
    (continues : ∀ value, (next value).FailsWith allowed) :
    (program >>= next).FailsWith allowed := by
  induction program with
  | done value =>
      exact continues value
  | fail error =>
      exact first
  | call request continuation inductionHypothesis =>
      exact fun reply => inductionHypothesis reply (first reply)

/-- A translated error of a result that needed no call. -/
theorem failsWith_ofExcept_mapError
    {translate : ε' → ε}
    (isAllowed : ∀ error, allowed (translate error))
    (result : Except ε' α) :
    (ofExcept (result.mapError translate) : Program I ε α).FailsWith
      allowed := by
  cases result with
  | ok value =>
      exact failsWith_done value
  | error error =>
      exact isAllowed error

/-- An error that is translated is one of the translations. -/
theorem failsWith_mapError
    {translate : ε' → ε}
    (isAllowed : ∀ error, allowed (translate error))
    (program : Program I ε' α) :
    (program.mapError translate).FailsWith allowed := by
  induction program with
  | done value =>
      exact failsWith_done value
  | fail error =>
      exact isAllowed error
  | call request next inductionHypothesis =>
      exact fun reply => inductionHypothesis reply

/-- An attempted program does not fail. -/
theorem failsWith_attempt (program : Program I ε' α) :
    (program.attempt : Program I ε (Except ε' α)).FailsWith allowed := by
  induction program with
  | done value =>
      exact failsWith_done _
  | fail error =>
      exact failsWith_done _
  | call request next inductionHypothesis =>
      exact fun reply => inductionHypothesis reply

/-- The error a run ends in is an allowed one. -/
theorem FailsWith.run
    {machine : Machine I World}
    {program : Program I ε α}
    (fails : program.FailsWith allowed)
    {faults : List (Option I.Fault)}
    {world : World}
    {error : ε}
    (ends : (Program.run machine program faults world).result = .error error) :
    allowed error := by
  induction program generalizing faults world with
  | done value =>
      cases ends
  | fail failure =>
      cases ends
      exact fails
  | call request next inductionHypothesis =>
      match faults with
      | [] =>
          exact inductionHypothesis _ (fails _) ends
      | none :: rest =>
          exact inductionHypothesis _ (fails _) ends
      | some fault :: rest =>
          exact inductionHypothesis _ (fails _) ends

/-! ## The calls of a run -/

/-- The calls a run issues, in order, whether they are answered or fail. -/
def issued (machine : Machine I World) :
    Program I ε α → List (Option I.Fault) → World → List I.Call
  | .done _, _, _ => []
  | .fail _, _, _ => []
  | .call request next, some fault :: faults, world =>
      request :: issued machine (next (.error fault)) faults world
  | .call request next, none :: faults, world =>
      let answer := machine.perform world request
      request :: issued machine (next answer.1) faults answer.2
  | .call request next, [], world =>
      let answer := machine.perform world request
      request :: issued machine (next answer.1) [] answer.2

/-- A sequence issues the calls of its head, and those of its tail if any. -/
theorem issued_bind
    (machine : Machine I World)
    (program : Program I ε α)
    (next : α → Program I ε β)
    (faults : List (Option I.Fault))
    (world : World) :
    issued machine (program >>= next) faults world =
      issued machine program faults world ++
        match run machine program faults world with
        | ⟨.ok value, middle, rest⟩ => issued machine (next value) rest middle
        | ⟨.error _, _, _⟩ => [] := by
  induction program generalizing faults world with
  | done value =>
      rfl
  | fail error =>
      rfl
  | call request continuation inductionHypothesis =>
      rw [call_bind]
      match faults with
      | [] =>
          simp only [issued, run, List.cons_append, List.cons.injEq, true_and]
          exact inductionHypothesis _ _ _
      | none :: rest =>
          simp only [issued, run, List.cons_append, List.cons.injEq, true_and]
          exact inductionHypothesis _ _ _
      | some fault :: rest =>
          simp only [issued, run, List.cons_append, List.cons.injEq, true_and]
          exact inductionHypothesis _ _ _

/-- The calls of a run are among those the program may issue. -/
theorem Uses.issued
    {permitted : I.Call → Prop}
    {machine : Machine I World}
    {program : Program I ε α}
    (uses : Uses permitted program)
    (faults : List (Option I.Fault))
    (world : World) :
    ∀ request ∈ Program.issued machine program faults world,
      permitted request := by
  induction program generalizing faults world with
  | done value =>
      intro request member
      cases member
  | fail error =>
      intro request member
      cases member
  | call first next inductionHypothesis =>
      intro request member
      obtain ⟨isPermitted, continues⟩ := uses
      match faults with
      | [] =>
          rcases List.mem_cons.mp member with rfl | later
          · exact isPermitted
          · exact inductionHypothesis _ (continues _ trivial) _ _ _ later
      | none :: rest =>
          rcases List.mem_cons.mp member with rfl | later
          · exact isPermitted
          · exact inductionHypothesis _ (continues _ trivial) _ _ _ later
      | some fault :: rest =>
          rcases List.mem_cons.mp member with rfl | later
          · exact isPermitted
          · exact inductionHypothesis _ (continues _ trivial) _ _ _ later

/-! ## Programs behind a gate -/

/--
A run from `world` ends in an error and in that world, unless with the faults
left at some point of it the gate was passed.
-/
def GatedBy
    (machine : Machine I World)
    (world : World)
    (passes : List (Option I.Fault) → Prop)
    (program : Program I ε α) : Prop :=
  ∀ faults,
    ((∃ error, (run machine program faults world).result = .error error) ∧
        (run machine program faults world).world = world) ∨
      ∃ rest, rest <:+ faults ∧ passes rest

variable {machine : Machine I World} {world : World}
variable {passes : List (Option I.Fault) → Prop}

theorem gatedBy_fail (error : ε) :
    GatedBy machine world passes (.fail error : Program I ε α) :=
  fun _ => Or.inl ⟨⟨error, rfl⟩, rfl⟩

/-- A result that needed no call comes before the gate. -/
theorem gatedBy_ofExcept_bind
    {result : Except ε α}
    {next : α → Program I ε β}
    (continues :
      ∀ value,
        result = .ok value → GatedBy machine world passes (next value)) :
    GatedBy machine world passes (ofExcept result >>= next) := by
  cases result with
  | ok value =>
      exact continues value rfl
  | error error =>
      exact gatedBy_fail error

/-- A program that leaves the world as it was may come before the gate. -/
theorem GatedBy.bind
    {program : Program I ε α}
    {next : α → Program I ε β}
    {middle : α → Prop}
    (first :
      Ensures machine True program world fun result reached =>
        reached = world ∧ ∀ value, result = .ok value → middle value)
    (continues :
      ∀ value, middle value → GatedBy machine world passes (next value)) :
    GatedBy machine world passes (program >>= next) := by
  intro faults
  have left := run_faults_suffix machine program faults world
  obtain ⟨same, known⟩ := first faults (Or.inl trivial)
  rw [run_bind]
  match outcome : run machine program faults world with
  | ⟨.ok value, reached, rest⟩ =>
      rw [outcome] at same known left
      obtain rfl : reached = world := same
      rcases continues value (known value rfl) rest with
        stopped | ⟨last, isSuffix, passed⟩
      · exact Or.inl stopped
      · exact Or.inr ⟨last, isSuffix.trans left, passed⟩
  | ⟨.error error, reached, rest⟩ =>
      rw [outcome] at same
      exact Or.inl ⟨⟨error, rfl⟩, same⟩

/-- The gate itself: a run of it that succeeds has passed. -/
theorem gatedBy_gate_bind
    {gate : Program I ε α}
    {next : α → Program I ε β}
    (unchanged :
      Ensures machine True gate world fun _ reached => reached = world)
    (passed :
      ∀ rest value,
        (run machine gate rest world).result = .ok value → passes rest) :
    GatedBy machine world passes (gate >>= next) := by
  intro faults
  have same := unchanged faults (Or.inl trivial)
  rw [run_bind]
  match outcome : run machine gate faults world with
  | ⟨.ok value, reached, rest⟩ =>
      exact Or.inr ⟨faults, List.suffix_refl faults,
        passed faults value (by rw [outcome])⟩
  | ⟨.error error, reached, rest⟩ =>
      rw [outcome] at same
      exact Or.inl ⟨⟨error, rfl⟩, same⟩

end Program

end AtomicProgram
