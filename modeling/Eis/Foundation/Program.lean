import Mathlib.Data.List.Basic

/-!
# Programs that change a state and may raise

`EStateM` keeps what was done to the state before an exception was raised, as
Python does.  `Ends` says how a program ends from a state, and has one rule for
each way of putting programs together.
-/

set_option autoImplicit false

universe u

/-- A program on states `σ` that raises exceptions `ε`. -/
abbrev Program (σ ε α : Type u) := EStateM ε σ α

/-- A call to something outside: it may change the world and may raise. -/
abbrev Call (σ ε α : Type u) := σ → σ × Except ε α

def Call.Returns {σ ε α : Type u} (call : Call σ ε α) : Prop :=
  ∀ world, ∃ next value, call world = (next, .ok value)

namespace Program

variable {σ ε α β : Type u}

/-- From `s` the program returns as `post` says or raises as `raised` says. -/
def Ends (program : Program σ ε α) (s : σ) (post : α → σ → Prop) (raised : ε → σ → Prop) :
    Prop :=
  match program s with
  | .ok value t => post value t
  | .error exception t => raised exception t

def ended : Except ε α → σ → EStateM.Result ε σ α
  | .ok value, t => .ok value t
  | .error exception, t => .error exception t

def lift (computation : Except ε α) : Program σ ε α :=
  fun s => ended computation s

/-- `try: program finally: after`, where `after` is told how the program ended; what
`after` raises comes in the place of that. -/
def ensuring (program : Program σ ε α) (after : Except ε α → Program σ ε PUnit) :
    Program σ ε α := fun s =>
  match program s with
  | .ok value t => (after (.ok value) >>= fun _ => pure value) t
  | .error exception t => (after (.error exception) >>= fun _ => throw exception) t

def final (program : Program σ ε α) (s : σ) : σ :=
  match program s with
  | .ok _ t => t
  | .error _ t => t

section Rules
variable {program : Program σ ε α} {s : σ} {post post' : α → σ → Prop}
variable {raised raised' : ε → σ → Prop}

theorem Ends.mono (ends : program.Ends s post raised)
    (weaker : ∀ value t, post value t → post' value t)
    (weakerRaised : ∀ exception t, raised exception t → raised' exception t) :
    program.Ends s post' raised' := by
  unfold Ends at ends ⊢
  cases ended : program s with
  | ok value t =>
      rw [ended] at ends
      exact weaker value t ends
  | error exception t =>
      rw [ended] at ends
      exact weakerRaised exception t ends

theorem ends_iff_of_ok {value : α} {t : σ} (ended : program s = .ok value t) :
    program.Ends s post raised ↔ post value t := by
  unfold Ends
  rw [ended]

theorem ends_iff_of_error {exception : ε} {t : σ} (ended : program s = .error exception t) :
    program.Ends s post raised ↔ raised exception t := by
  unfold Ends
  rw [ended]

theorem Ends.of_ok {value : α} {t : σ} (ends : program.Ends s post raised)
    (ended : program s = .ok value t) : post value t :=
  (ends_iff_of_ok ended).mp ends

theorem ends_trivial : program.Ends s (fun _ _ => True) fun _ _ => True := by
  unfold Ends
  split <;> trivial

theorem ends_pure {value : α} : Ends (pure value : Program σ ε α) s post raised ↔ post value s :=
  Iff.rfl

theorem ends_bind {next : α → Program σ ε β} {post : β → σ → Prop} :
    Ends (program >>= next) s post raised ↔
      program.Ends s (fun value t => (next value).Ends t post raised) raised := by
  have unfolded : (program >>= next) s = EStateM.bind program next s := rfl
  unfold Ends
  rw [unfolded, EStateM.bind]
  cases program s with
  | ok value t => exact Iff.rfl
  | error exception t => exact Iff.rfl

theorem ends_get {post : σ → σ → Prop} :
    Ends (get : Program σ ε σ) s post raised ↔ post s s :=
  Iff.rfl

theorem ends_modify {change : σ → σ} {post : PUnit → σ → Prop} :
    Ends (modify change : Program σ ε PUnit) s post raised ↔ post ⟨⟩ (change s) :=
  Iff.rfl

theorem ends_tryCatch {handler : ε → Program σ ε α} :
    Ends (tryCatch program handler) s post raised ↔
      program.Ends s post (fun exception t => (handler exception).Ends t post raised) := by
  have unfolded : tryCatch program handler s = EStateM.tryCatch program handler s := rfl
  unfold Ends
  rw [unfolded, EStateM.tryCatch]
  cases program s with
  | ok value t => exact Iff.rfl
  | error exception t => exact Iff.rfl

end Rules

/-- The loop over a list that collects a result for each item: what holds of the
items behind it and of their results is kept by each turn. -/
theorem ends_mapM {body : α → Program σ ε β} {raised : ε → σ → Prop}
    (kept : List α → List β → σ → Prop)
    (turn : ∀ behind item results t, kept behind results t →
      (body item).Ends t (fun result => kept (behind ++ [item]) (results ++ [result])) raised)
    (items : List α) {s : σ} (start : kept [] [] s) :
    (items.mapM body).Ends s (fun results => kept items results) raised := by
  have onwards : ∀ (ahead behind : List α) (before : List β) (t : σ), kept behind before t →
      (ahead.mapM body).Ends t (fun results => kept (behind ++ ahead) (before ++ results))
        raised := by
    intro ahead
    induction ahead with
    | nil =>
        intro behind before t holds
        simpa [ends_pure] using holds
    | cons item rest ih =>
        intro behind before t holds
        rw [List.mapM_cons, ends_bind]
        refine (turn behind item before t holds).mono ?_ (fun _ _ same => same)
        intro result next kept'
        rw [ends_bind]
        refine (ih (behind ++ [item]) (before ++ [result]) next kept').mono ?_
          (fun _ _ same => same)
        intro results last holds'
        simpa [ends_pure] using holds'
  exact onwards items [] [] s start

theorem ends_foldlM {body : β → α → Program σ ε β} {raised : ε → σ → Prop}
    (kept : List α → β → σ → Prop)
    (turn : ∀ behind item carried t, kept behind carried t →
      (body carried item).Ends t (kept (behind ++ [item])) raised)
    (items : List α) {carried : β} {s : σ} (start : kept [] carried s) :
    (items.foldlM body carried).Ends s (kept items) raised := by
  have onwards : ∀ (ahead behind : List α) (carried : β) (t : σ), kept behind carried t →
      (ahead.foldlM body carried).Ends t (kept (behind ++ ahead)) raised := by
    intro ahead
    induction ahead with
    | nil =>
        intro behind carried t holds
        simpa [ends_pure] using holds
    | cons item rest ih =>
        intro behind carried t holds
        rw [List.foldlM_cons, ends_bind]
        refine (turn behind item carried t holds).mono ?_ (fun _ _ same => same)
        intro next u kept'
        simpa using ih (behind ++ [item]) next u kept'
  exact onwards items [] carried s start

/-! ## Programs whose beginning is known -/

section Known
variable {program : Program σ ε α} {next : α → Program σ ε β} {handler : ε → Program σ ε α}
variable {s t : σ}

theorem bind_of_ok {value : α} (ended : program s = .ok value t) :
    (program >>= next) s = next value t := by
  show EStateM.bind program next s = _
  unfold EStateM.bind
  rw [ended]

theorem bind_of_error {exception : ε} (ended : program s = .error exception t) :
    (program >>= next) s = .error exception t := by
  show EStateM.bind program next s = _
  unfold EStateM.bind
  rw [ended]

theorem tryCatch_of_ok {value : α} (ended : program s = .ok value t) :
    tryCatch program handler s = .ok value t := by
  show EStateM.tryCatch program handler s = _
  unfold EStateM.tryCatch
  rw [ended]

theorem tryCatch_of_error {exception : ε} (ended : program s = .error exception t) :
    tryCatch program handler s = handler exception t := by
  show EStateM.tryCatch program handler s = _
  unfold EStateM.tryCatch
  rw [ended]
  rfl

theorem ensuring_of_ended {outcome : Except ε α} {after : Except ε α → Program σ ε PUnit}
    {u : σ} (first : program s = ended outcome t) (second : after outcome t = .ok ⟨⟩ u) :
    program.ensuring after s = ended outcome u := by
  cases outcome with
  | ok value =>
      simp only [ensuring, first, ended]
      exact bind_of_ok second
  | error exception =>
      simp only [ensuring, first, ended]
      exact bind_of_ok second

end Known

theorem final_of_ok {program : Program σ ε α} {s t : σ} {value : α}
    (ended : program s = .ok value t) : program.final s = t := by
  unfold final
  rw [ended]

theorem final_of_error {program : Program σ ε α} {s t : σ} {exception : ε}
    (ended : program s = .error exception t) : program.final s = t := by
  unfold final
  rw [ended]

theorem ends_lift {computation : Except ε α} {s : σ} {post : α → σ → Prop}
    {raised : ε → σ → Prop} :
    Ends (lift computation) s post raised ↔
      (∀ value, computation = .ok value → post value s) ∧
        ∀ exception, computation = .error exception → raised exception s := by
  cases computation with
  | ok value =>
      refine ⟨fun holds => ⟨?_, nofun⟩, fun holds => holds.1 value rfl⟩
      rintro _ ⟨⟩
      exact holds
  | error exception =>
      refine ⟨fun holds => ⟨nofun, ?_⟩, fun holds => holds.2 exception rfl⟩
      rintro _ ⟨⟩
      exact holds

/-! ## Programs that do not raise -/

def Returns (program : Program σ ε α) : Prop :=
  ∀ s, program.Ends s (fun _ _ => True) fun _ _ => False

namespace Returns

variable {program : Program σ ε α}

theorem pure {value : α} : Returns (Pure.pure value : Program σ ε α) :=
  fun _ => trivial

theorem bind {next : α → Program σ ε β} (first : program.Returns)
    (second : ∀ value, (next value).Returns) : (program >>= next).Returns := by
  intro s
  rw [ends_bind]
  exact (first s).mono (fun value t _ => second value t) fun _ _ never => never

theorem mapM {body : α → Program σ ε β} (each : ∀ item, (body item).Returns)
    (items : List α) : (items.mapM body).Returns := by
  intro s
  exact ends_mapM (fun _ _ _ => True) (fun _ item _ t _ => each item t) items trivial

theorem ended (returns : program.Returns) (s : σ) : ∃ value t, program s = .ok value t := by
  have ends := returns s
  unfold Ends at ends
  cases ended : program s with
  | ok value t => exact ⟨value, t, rfl⟩
  | error exception t =>
      rw [ended] at ends
      exact ends.elim

end Returns

/-! ## What a program keeps -/

/-- Whether it returns or raises, the program keeps `motive`, and it raises only as
`raised` says. -/
def Keeps (motive : σ → Prop) (raised : ε → Prop) (program : Program σ ε α) : Prop :=
  ∀ s, motive s →
    program.Ends s (fun _ t => motive t) fun exception t => raised exception ∧ motive t

namespace Keeps

variable {motive : σ → Prop} {raised : ε → Prop} {program : Program σ ε α}

theorem pure {value : α} : Keeps motive raised (Pure.pure value : Program σ ε α) :=
  fun _ holds => holds

theorem throw {exception : ε} (expected : raised exception) :
    Keeps motive raised (MonadExcept.throw exception : Program σ ε α) :=
  fun _ holds => ⟨expected, holds⟩

theorem get : Keeps motive raised (MonadState.get : Program σ ε σ) :=
  fun _ holds => holds

theorem modify {change : σ → σ} (kept : ∀ s, motive s → motive (change s)) :
    Keeps motive raised (modify change : Program σ ε PUnit) :=
  fun s holds => kept s holds

theorem bind {next : α → Program σ ε β} (first : program.Keeps motive raised)
    (second : ∀ value, (next value).Keeps motive raised) :
    (program >>= next).Keeps motive raised := by
  intro s holds
  rw [ends_bind]
  exact (first s holds).mono (fun value t kept => second value t kept) fun _ _ same => same

theorem followed {next : α → Program σ ε β} {post : β → σ → Prop} {escaped : ε → σ → Prop}
    (first : program.Keeps motive raised) {s : σ} (holds : motive s)
    (escapes : ∀ exception t, raised exception → motive t → escaped exception t)
    (second : ∀ value t, motive t → (next value).Ends t post escaped) :
    (program >>= next).Ends s post escaped := by
  rw [ends_bind]
  exact (first s holds).mono second fun exception t raised => escapes exception t raised.1 raised.2

end Keeps

/-! ## How a program moves the state -/

def Moves (moves : σ → σ → Prop) (program : Program σ ε α) : Prop :=
  ∀ s, program.Ends s (fun _ t => moves s t) fun _ t => moves s t

namespace Moves

variable {moves : σ → σ → Prop} {program : Program σ ε α}

theorem pure (same : ∀ s, moves s s) {value : α} :
    Moves moves (Pure.pure value : Program σ ε α) :=
  same

theorem lift (same : ∀ s, moves s s) (computation : Except ε α) :
    Moves moves (Program.lift computation : Program σ ε α) := by
  intro s
  rw [ends_lift]
  exact ⟨fun _ _ => same s, fun _ _ => same s⟩

theorem bind (trans : ∀ s t u, moves s t → moves t u → moves s u) {next : α → Program σ ε β}
    (first : program.Moves moves) (second : ∀ value, (next value).Moves moves) :
    (program >>= next).Moves moves := by
  intro s
  rw [ends_bind]
  refine (first s).mono ?_ fun _ _ moved => moved
  intro value t moved
  exact (second value t).mono (fun _ u further => trans s t u moved further)
    fun _ u further => trans s t u moved further

theorem foldlM (same : ∀ s, moves s s) (trans : ∀ s t u, moves s t → moves t u → moves s u)
    {body : β → α → Program σ ε β} (each : ∀ carried item, (body carried item).Moves moves)
    (items : List α) (carried : β) : (items.foldlM body carried).Moves moves := by
  induction items generalizing carried with
  | nil => exact Moves.pure same
  | cons item rest ih => exact Moves.bind trans (each carried item) ih

theorem lift_bind (same : ∀ s, moves s s) {computation : Except ε α}
    {next : α → Program σ ε β}
    (second : ∀ value, computation = .ok value → (next value).Moves moves) :
    (Program.lift computation >>= next).Moves moves := by
  intro s
  rw [ends_bind, ends_lift]
  exact ⟨fun value returned => second value returned s, fun _ _ => same s⟩

theorem iff_final : program.Moves moves ↔ ∀ s, moves s (program.final s) := by
  refine forall_congr' fun s => ?_
  unfold Ends final
  cases program s <;> exact Iff.rfl

end Moves

/-! ## What a program adds to a trace -/

section Trace
variable {τ : Type u} {trace : σ → List τ} {program : Program σ ε α}

/-- The program adds events to the trace: as `added` says when it returns, and as
`raised` says when it raises. -/
def Adds (trace : σ → List τ) (program : Program σ ε α) (added : α → List τ → Prop)
    (raised : List τ → Prop) : Prop :=
  ∀ s, program.Ends s
    (fun value t => ∃ more, trace t = trace s ++ more ∧ added value more)
    fun _ t => ∃ more, trace t = trace s ++ more ∧ raised more

def Silent (trace : σ → List τ) (program : Program σ ε α) : Prop :=
  program.Adds trace (fun _ more => more = []) fun more => more = []

def Steady (trace : σ → List τ) (program : Program σ ε α) : Prop :=
  program.Adds trace (fun _ more => more = []) fun _ => False

theorem Adds.mono {added added' : α → List τ → Prop} {raised raised' : List τ → Prop}
    (adds : program.Adds trace added raised)
    (weaker : ∀ value more, added value more → added' value more)
    (weakerRaised : ∀ more, raised more → raised' more) :
    program.Adds trace added' raised' := by
  intro s
  refine (adds s).mono ?_ ?_
  · intro value t ⟨more, grown, holds⟩
    exact ⟨more, grown, weaker value more holds⟩
  · intro _ t ⟨more, grown, holds⟩
    exact ⟨more, grown, weakerRaised more holds⟩

theorem Adds.pure {added : α → List τ → Prop} {raised : List τ → Prop} {value : α}
    (holds : added value []) : Adds (σ := σ) (ε := ε) trace (Pure.pure value) added raised := by
  intro s
  exact ⟨[], (List.append_nil _).symm, holds⟩

theorem Adds.throw {added : α → List τ → Prop} {raised : List τ → Prop} {exception : ε}
    (holds : raised []) :
    Adds trace (MonadExcept.throw exception : Program σ ε α) added raised := by
  intro s
  exact ⟨[], (List.append_nil _).symm, holds⟩

theorem Adds.lift (computation : Except ε α) :
    Adds trace (Program.lift computation : Program σ ε α)
      (fun value more => more = [] ∧ computation = .ok value) fun more => more = [] := by
  intro s
  rw [ends_lift]
  exact ⟨fun value same => ⟨[], (List.append_nil _).symm, rfl, same⟩,
    fun _ _ => ⟨[], (List.append_nil _).symm, rfl⟩⟩

theorem Steady.modify {change : σ → σ} (same : ∀ s, trace (change s) = trace s) :
    Steady trace (modify change : Program σ ε PUnit) := by
  intro s
  exact ⟨[], (same s).trans (List.append_nil _).symm, rfl⟩

theorem Steady.get : Steady trace (MonadState.get : Program σ ε σ) := by
  intro s
  exact ⟨[], (List.append_nil _).symm, rfl⟩

theorem Steady.silent (steady : program.Steady trace) : program.Silent trace :=
  steady.mono (fun _ _ none => none) fun _ never => never.elim

theorem Silent.pure {value : α} : Silent (σ := σ) (ε := ε) trace (Pure.pure value) :=
  Adds.pure rfl

theorem Silent.throw {exception : ε} :
    Silent trace (MonadExcept.throw exception : Program σ ε α) :=
  Adds.throw rfl

/-- One program after the other: what the second is to add depends on what the
first has added. -/
theorem Adds.bind {added : α → List τ → Prop} {next : α → Program σ ε β}
    {both : β → List τ → Prop} {raised raised' : List τ → Prop}
    (first : program.Adds trace added raised) (weaker : ∀ more, raised more → raised' more)
    (second : ∀ value more, added value more →
      (next value).Adds trace (fun result rest => both result (more ++ rest))
        fun rest => raised' (more ++ rest)) :
    (program >>= next).Adds trace both raised' := by
  intro s
  rw [ends_bind]
  refine (first s).mono ?_ ?_
  · intro value t ⟨more, grown, holds⟩
    refine (second value more holds t).mono ?_ ?_
    · intro result u ⟨rest, grown', together⟩
      exact ⟨more ++ rest, by rw [grown', grown, List.append_assoc], together⟩
    · intro _ u ⟨rest, grown', together⟩
      exact ⟨more ++ rest, by rw [grown', grown, List.append_assoc], together⟩
  · intro _ t ⟨more, grown, holds⟩
    exact ⟨more, grown, weaker more holds⟩

theorem Silent.bind {next : α → Program σ ε β} {added : β → List τ → Prop}
    {raised : List τ → Prop} (first : program.Silent trace) (start : raised [])
    (second : ∀ value, (next value).Adds trace added raised) :
    (program >>= next).Adds trace added raised := by
  refine Adds.bind first ?_ ?_
  · intro more none
    subst none
    exact start
  · intro value more none
    subst none
    exact second value

theorem Steady.bind {next : α → Program σ ε β} {added : β → List τ → Prop}
    {raised : List τ → Prop} (first : program.Steady trace)
    (second : ∀ value, (next value).Adds trace added raised) :
    (program >>= next).Adds trace added raised := by
  refine Adds.bind first (fun _ never => never.elim) ?_
  intro value more none
  subst none
  exact second value

theorem Adds.foldlM {body : β → α → Program σ ε β} {kept : List α → β → List τ → Prop}
    {raised : List τ → Prop} {items : List α} {carried : β} (start : kept [] carried [])
    (turn : ∀ behind item ahead carried more, items = behind ++ item :: ahead →
      kept behind carried more →
        (body carried item).Adds trace
          (fun next rest => kept (behind ++ [item]) next (more ++ rest))
          fun rest => raised (more ++ rest)) :
    (items.foldlM body carried).Adds trace (kept items) raised := by
  have onwards : ∀ (ahead behind : List α) (carried : β) (more : List τ),
      items = behind ++ ahead → kept behind carried more →
        (ahead.foldlM body carried).Adds trace (fun last rest => kept items last (more ++ rest))
          fun rest => raised (more ++ rest) := by
    intro ahead
    induction ahead with
    | nil =>
        intro behind carried more whole holds
        rw [List.append_nil] at whole
        subst whole
        exact Adds.pure (by rwa [List.append_nil])
    | cons item rest ih =>
        intro behind carried more whole holds
        refine Adds.bind (turn behind item rest carried more whole holds) (fun _ same => same) ?_
        intro next added kept'
        refine (ih (behind ++ [item]) next (more ++ added) (by simpa using whole) kept').mono ?_ ?_
        · intro last later holds'
          rwa [← List.append_assoc]
        · intro later raised'
          rwa [← List.append_assoc]
  exact onwards items [] carried [] rfl start

end Trace

end Program
