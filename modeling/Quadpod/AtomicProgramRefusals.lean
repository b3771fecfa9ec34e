import Quadpod.AtomicProgram

/-!
# Programs whose refusals leave no trace

With every call answered, such a program is accepted or has left the world as it
found it.  A step that changes nothing may be followed by another such program,
and one that is accepted only by programs that are accepted too.
-/

namespace AtomicProgram

namespace Program

variable {I : Interface} {ε ε' α β World : Type}
variable {machine : Machine I World} {world : World}

/-- With every call answered, the program ends in an accepted value. -/
def Accepted
    (machine : Machine I World) (accepts : α → Prop)
    (program : Program I ε α) (world : World) : Prop :=
  Ensures machine False program world fun result _ =>
    ∃ value, result = .ok value ∧ accepts value

/-- With every call answered, the program is accepted or changes nothing. -/
def Untraced
    (machine : Machine I World) (accepts : α → Prop)
    (program : Program I ε α) (world : World) : Prop :=
  Ensures machine False program world fun result reached =>
    (∃ value, result = .ok value ∧ accepts value) ∨ reached = world

variable {accepts : α → Prop} {chosen : β → Prop}

/-- With every call answered, a run alone is the evaluation. -/
theorem run_of_answered
    (machine : Machine I World) (program : Program I ε α)
    (world : World) {faults : List (Option I.Fault)}
    (answered : ∀ fault ∈ faults, fault = none) :
    ((run machine program faults world).result,
        (run machine program faults world).world) =
      eval machine program world := by
  induction program generalizing faults world with
  | done value =>
      rfl
  | fail error =>
      rfl
  | call request next inductionHypothesis =>
      cases faults with
      | nil =>
          exact inductionHypothesis _ _ answered
      | cons fault rest =>
          obtain rfl := answered fault List.mem_cons_self
          exact inductionHypothesis _ _ fun other inRest =>
            answered other (List.mem_cons_of_mem _ inRest)

/-- What the evaluation satisfies, every run without failures satisfies. -/
theorem ensures_of_eval
    {program : Program I ε α} {post : Except ε α → World → Prop}
    (holds :
      post (eval machine program world).1 (eval machine program world).2) :
    Ensures machine False program world post := by
  rintro faults (impossible | answered)
  · exact impossible.elim
  · have same := run_of_answered machine program world answered
    rw [Prod.ext_iff] at same
    dsimp only at same
    rw [same.1, same.2]
    exact holds

/-! ## Accepted programs -/

theorem accepted_done {value : α} (isAccepted : accepts value) :
    Accepted machine accepts (.done value : Program I ε α) world :=
  ensures_done ⟨value, rfl, isAccepted⟩

/-- What follows a step that ends in a chosen value. -/
theorem Accepted.bind
    {program : Program I ε β} {next : β → Program I ε α}
    (first : Accepted machine chosen program world)
    (continues :
      ∀ value reached,
        chosen value → Accepted machine accepts (next value) reached) :
    Accepted machine accepts (program >>= next) world := by
  refine Ensures.bind first ?_ ?_
  · rintro value reached ⟨_, isValue, isChosen⟩
    cases isValue
    exact continues value reached isChosen
  · rintro error reached ⟨_, impossible, _⟩
    cases impossible

theorem Accepted.attempt
    {program : Program I ε α}
    (accepted : Accepted machine accepts program world) :
    Accepted machine (fun result => ∃ value, result = .ok value ∧ accepts value)
      (program.attempt : Program I ε' (Except ε α)) world := by
  refine Ensures.attempt (Ensures.mono accepted ?_)
  intro result reached isAccepted
  exact ⟨result, rfl, isAccepted⟩

/-! ## Programs without a trace of a refusal -/

theorem untraced_done (value : α) :
    Untraced machine accepts (.done value : Program I ε α) world :=
  ensures_done (Or.inr rfl)

theorem untraced_fail (error : ε) :
    Untraced machine accepts (.fail error : Program I ε α) world :=
  ensures_fail (Or.inr rfl)

theorem Accepted.untraced
    {program : Program I ε α}
    (accepted : Accepted machine accepts program world) :
    Untraced machine accepts program world :=
  Ensures.mono accepted fun _ _ isAccepted => Or.inl isAccepted

/-- A program that changes nothing leaves no trace, whatever it says. -/
theorem Untraced.of_unchanged
    {program : Program I ε α}
    (unchanged :
      Ensures machine False program world fun _ reached => reached = world) :
    Untraced machine accepts program world :=
  unchanged.mono fun _ _ same => Or.inr same

theorem untraced_ofExcept_bind
    {result : Except ε β} {next : β → Program I ε α}
    (continues :
      ∀ value,
        result = .ok value → Untraced machine accepts (next value) world) :
    Untraced machine accepts (ofExcept result >>= next) world :=
  ensures_ofExcept_bind continues fun _ _ => Or.inr rfl

/-- A step that changes nothing, and then a program without a trace. -/
theorem Untraced.after_unchanged
    {program : Program I ε β} {next : β → Program I ε α}
    {facts : Except ε β → Prop}
    (unchanged :
      Ensures machine False program world fun result reached =>
        reached = world ∧ facts result)
    (continues :
      ∀ value,
        facts (.ok value) → Untraced machine accepts (next value) world) :
    Untraced machine accepts (program >>= next) world := by
  refine unchanged.bind ?_ ?_
  · rintro value reached ⟨rfl, holds⟩
    exact continues value holds
  · rintro error reached ⟨rfl, _⟩
    exact Or.inr rfl

/--
What follows a step without a trace: of a chosen value an accepted program,
which may rely on what the step ensures, and in the world as it was found
another one without a trace.
-/
theorem Untraced.bind_of_ensures
    {program : Program I ε β} {next : β → Program I ε α}
    {facts : World → Prop}
    (first : Untraced machine chosen program world)
    (known :
      Ensures machine False program world fun _ reached => facts reached)
    (accepted :
      ∀ value reached,
        chosen value →
        facts reached →
        Accepted machine accepts (next value) reached)
    (refused : ∀ value, Untraced machine accepts (next value) world) :
    Untraced machine accepts (program >>= next) world := by
  refine Ensures.bind (Ensures.and first known) ?_ ?_
  · rintro value reached ⟨⟨_, isValue, isChosen⟩ | rfl, holds⟩
    · cases isValue
      exact (accepted value reached isChosen holds).mono
        fun _ _ isAccepted => Or.inl isAccepted
    · exact refused value
  · rintro error reached ⟨⟨_, impossible, _⟩ | same, _⟩
    · cases impossible
    · exact Or.inr same

theorem Untraced.bind
    {program : Program I ε β} {next : β → Program I ε α}
    (first : Untraced machine chosen program world)
    (accepted :
      ∀ value reached,
        chosen value → Accepted machine accepts (next value) reached)
    (refused : ∀ value, Untraced machine accepts (next value) world) :
    Untraced machine accepts (program >>= next) world := by
  have known :
      Ensures machine False program world fun _ _ => True :=
    fun _ _ => trivial
  exact first.bind_of_ensures known
    (fun value reached isChosen _ => accepted value reached isChosen) refused

theorem Untraced.mapError
    {translate : ε → ε'} {program : Program I ε α}
    (untraced : Untraced machine accepts program world) :
    Untraced machine accepts (program.mapError translate) world := by
  refine Ensures.mapError (Ensures.mono untraced ?_)
  rintro result reached (⟨value, rfl, isAccepted⟩ | same)
  · exact Or.inl ⟨value, rfl, isAccepted⟩
  · exact Or.inr same

theorem Untraced.attempt
    {program : Program I ε α}
    (untraced : Untraced machine accepts program world) :
    Untraced machine (fun result => ∃ value, result = .ok value ∧ accepts value)
      (program.attempt : Program I ε' (Except ε α)) world := by
  refine Ensures.attempt (Ensures.mono untraced ?_)
  rintro result reached (isAccepted | same)
  · exact Or.inl ⟨result, rfl, isAccepted⟩
  · exact Or.inr same

end Program

end AtomicProgram
