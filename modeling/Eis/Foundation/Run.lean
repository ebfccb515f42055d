import Mathlib.Data.List.Induction

/-!
# Runs of labelled transition systems

A system is a step relation `σ → ε → σ → Prop` between states, labelled with
the event that fired.  `Run step s es t` lists the events oldest first, so an
invariant that speaks about the trace is proved by appending one event.
-/

set_option autoImplicit false

namespace Transition

universe u v

variable {σ : Type u} {ε : Type v}

inductive Run (step : σ → ε → σ → Prop) (s : σ) : List ε → σ → Prop where
  | nil : Run step s [] s
  | snoc {events : List ε} {event : ε} {t next : σ}
      (run : Run step s events t) (last : step t event next) :
      Run step s (events ++ [event]) next

/-- The steps of `step` whose event meets `condition` in the state it fires in. -/
def Guarded (condition : σ → ε → Prop) (step : σ → ε → σ → Prop) :
    σ → ε → σ → Prop :=
  fun s event t => condition s event ∧ step s event t

namespace Run

variable {step step' : σ → ε → σ → Prop} {s t next : σ} {events later : List ε}

theorem single {event : ε} (fired : step s event t) : Run step s [event] t :=
  Run.snoc Run.nil fired

theorem append (first : Run step s events t) (second : Run step t later next) :
    Run step s (events ++ later) next := by
  induction second with
  | nil => simpa using first
  | snoc _ last ih =>
      rw [← List.append_assoc]
      exact ih.snoc last

theorem mono (weaker : ∀ a event b, step a event b → step' a event b)
    (run : Run step s events t) : Run step' s events t := by
  induction run with
  | nil => exact Run.nil
  | snoc _ last ih => exact ih.snoc (weaker _ _ _ last)

theorem map {σ' : Type*} {seen : σ' → ε → σ' → Prop} (f : σ → σ')
    (carried : ∀ a event b, step a event b → seen (f a) event (f b))
    (run : Run step s events t) : Run seen (f s) events (f t) := by
  induction run with
  | nil => exact Run.nil
  | snoc _ last ih => exact ih.snoc (carried _ _ _ last)

theorem of_guarded {condition : σ → ε → Prop}
    (run : Run (Guarded condition step) s events t) : Run step s events t :=
  run.mono fun _ _ _ fired => fired.2

theorem guarded {condition : σ → ε → Prop}
    (met : ∀ event ∈ events, ∀ a, condition a event) (run : Run step s events t) :
    Run (Guarded condition step) s events t := by
  induction run with
  | nil => exact Run.nil
  | @snoc past event _ _ _ last ih =>
      have before : ∀ earlier ∈ past, ∀ a, condition a earlier := by
        intro earlier member
        exact met earlier (List.mem_append_left _ member)
      exact (ih before).snoc ⟨met event (by simp) _, last⟩

/-- What holds at the start and is kept by every step holds at the end. -/
theorem invariant {motive : σ → Prop} (start : motive s)
    (kept : ∀ a event b, motive a → step a event b → motive b)
    (run : Run step s events t) : motive t := by
  induction run with
  | nil => exact start
  | snoc _ last ih => exact kept _ _ _ ih last

theorem established {holds : σ → Prop}
    (run : Run (fun a event b => step a event b ∧ holds b) s events t) (moved : events ≠ []) :
    holds t := by
  cases run with
  | nil => exact absurd rfl moved
  | snoc _ last => exact last.2

/-- The invariant rule for properties of the trace together with the state. -/
theorem trace_invariant {motive : List ε → σ → Prop} (start : motive [] s)
    (kept : ∀ past a event b, motive past a → step a event b →
      motive (past ++ [event]) b)
    (run : Run step s events t) : motive events t := by
  induction run with
  | nil => exact start
  | snoc _ last ih => exact kept _ _ _ _ ih last

/-- Runs of a deterministic system that may refuse an event are computed by
folding its step function over the trace. -/
theorem of_foldlM {next? : σ → ε → Option σ} (folded : events.foldlM next? s = some t) :
    Run (fun a event b => next? a event = some b) s events t := by
  induction events using List.reverseRecOn generalizing t with
  | nil =>
      obtain rfl : s = t := by simpa using folded
      exact Run.nil
  | append_singleton events event ih =>
      rw [List.foldlM_append] at folded
      obtain ⟨middle, past, last⟩ := Option.bind_eq_some_iff.mp folded
      exact (ih past).snoc (by simpa using last)

theorem of_guarded_foldlM {condition : σ → ε → Prop}
    [∀ a event, Decidable (condition a event)] {next? : σ → ε → Option σ}
    (folded : events.foldlM (fun a event =>
      if condition a event then next? a event else none) s = some t) :
    Run (Guarded condition fun a event b => next? a event = some b) s events t := by
  refine (of_foldlM folded).mono ?_
  intro a event b fired
  exact Option.ite_none_right_eq_some.mp fired

end Run

/-! ## What comes before an event -/

/-- Whenever an event of the trace happens, `condition` holds of it and of the
events that have happened before. -/
def Preceded (condition : ε → List ε → Prop) (trace : List ε) : Prop :=
  ∀ past event later, trace = past ++ event :: later → condition event past

namespace Preceded

variable {condition : ε → List ε → Prop} {trace : List ε}

theorem nil : Preceded condition [] := by
  intro past event later split
  simp at split

theorem snoc {event : ε} (preceded : Preceded condition trace)
    (last : condition event trace) : Preceded condition (trace ++ [event]) := by
  intro past own later split
  rcases List.eq_nil_or_concat later with rfl | ⟨between, final, rfl⟩
  · obtain ⟨rfl, same⟩ := List.append_inj' split rfl
    obtain rfl : event = own := by simpa using same
    exact last
  · have regrouped : trace ++ [event] = (past ++ own :: between) ++ [final] := by
      simpa using split
    exact preceded past own between (List.append_inj' regrouped rfl).1

theorem congr {other : ε → List ε → Prop}
    (agree : Preceded (fun event past => condition event past ↔ other event past) trace) :
    Preceded condition trace ↔ Preceded other trace := by
  constructor
  · intro preceded past event later split
    exact (agree past event later split).mp (preceded past event later split)
  · intro preceded past event later split
    exact (agree past event later split).mpr (preceded past event later split)

theorem of_mem {event : ε} (preceded : Preceded condition trace) (member : event ∈ trace) :
    ∃ past, past <+: trace ∧ condition event past := by
  obtain ⟨past, later, rfl⟩ := List.append_of_mem member
  exact ⟨past, List.prefix_append past _, preceded past event later rfl⟩

theorem forall_mem_iff {own : ε → Prop} :
    Preceded (fun event _ => own event) trace ↔ ∀ event ∈ trace, own event := by
  constructor
  · intro preceded event member
    obtain ⟨_, _, holds⟩ := preceded.of_mem member
    exact holds
  · rintro each past event later rfl
    exact each event (by simp)

end Preceded
end Transition
