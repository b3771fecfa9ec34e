import Quadpod.AtomicProgram

/-!
# Programs that cannot tell two worlds apart

A program agrees on two worlds when, alone and with every call answered, it ends
in the same result in both and leaves each as it was.  A call that both worlds
answer alike, without changing, is the only case with content; the rules for the
program formers carry it through a program, and what a value is known to be in
the first world may be used for what follows it.
-/

namespace AtomicProgram

namespace Program

variable {I : Interface} {ε ε' α β World : Type}
variable {machine : Machine I World} {first second : World}

/-- The same result in two worlds, neither of them changed. -/
def Agrees
    (machine : Machine I World) (first second : World)
    (program : Program I ε α) : Prop :=
  ∃ result,
    eval machine program first = (result, first) ∧
      eval machine program second = (result, second)

theorem agrees_done (value : α) :
    Agrees machine first second (.done value : Program I ε α) :=
  ⟨.ok value, rfl, rfl⟩

theorem agrees_fail (error : ε) :
    Agrees machine first second (.fail error : Program I ε α) :=
  ⟨.error error, rfl, rfl⟩

theorem agrees_ofExcept (result : Except ε α) :
    Agrees machine first second (ofExcept result : Program I ε α) :=
  ⟨result, eval_ofExcept _ _ _, eval_ofExcept _ _ _⟩

/-- A call that both worlds answer alike and that changes neither. -/
theorem agrees_call
    {request : I.Call}
    {next : Except I.Fault (I.Reply request) → Program I ε α}
    {reply : Except I.Fault (I.Reply request)}
    (inFirst : machine.perform first request = (reply, first))
    (inSecond : machine.perform second request = (reply, second))
    (continues : Agrees machine first second (next reply)) :
    Agrees machine first second (.call request next) := by
  obtain ⟨result, endsFirst, endsSecond⟩ := continues
  refine ⟨result, ?_, ?_⟩
  · simpa only [eval, inFirst] using endsFirst
  · simpa only [eval, inSecond] using endsSecond

theorem Agrees.bind
    {program : Program I ε α}
    {next : α → Program I ε β}
    (agrees : Agrees machine first second program)
    (continues :
      ∀ value,
        eval machine program first = (.ok value, first) →
        Agrees machine first second (next value)) :
    Agrees machine first second (program >>= next) := by
  obtain ⟨result, inFirst, inSecond⟩ := agrees
  cases result with
  | ok value =>
      obtain ⟨final, endsFirst, endsSecond⟩ := continues value inFirst
      exact ⟨final, (eval_bind_ok inFirst).trans endsFirst,
        (eval_bind_ok inSecond).trans endsSecond⟩
  | error error =>
      refine ⟨.error error, ?_, ?_⟩
      · rw [eval_bind, inFirst]
      · rw [eval_bind, inSecond]

theorem Agrees.mapError
    {program : Program I ε α}
    (agrees : Agrees machine first second program) (translate : ε → ε') :
    Agrees machine first second (program.mapError translate) := by
  obtain ⟨result, inFirst, inSecond⟩ := agrees
  refine ⟨result.mapError translate, ?_, ?_⟩
  · rw [eval_mapError, inFirst]
  · rw [eval_mapError, inSecond]

theorem Agrees.attempt
    {program : Program I ε α}
    (agrees : Agrees machine first second program) :
    Agrees machine first second
      (program.attempt : Program I ε' (Except ε α)) := by
  obtain ⟨result, inFirst, inSecond⟩ := agrees
  refine ⟨.ok result, ?_, ?_⟩
  · rw [eval_attempt, inFirst]
  · rw [eval_attempt, inSecond]

end Program

end AtomicProgram
