import Eis.Foundation.Run

/-!
# Registers that are written once

A register of a labelled transition system is blank until some event writes it,
and nothing writes it again.  What it holds at the end of a run is then what one
event of the run has written.
-/

set_option autoImplicit false

namespace Transition

universe u v w

variable {σ : Type u} {ε : Type v} {β : Type w}

def Written (step : σ → ε → σ → Prop) (writes : σ → ε → β → Prop) (s : σ) (events : List ε)
    (t : σ) (value : β) : Prop :=
  ∃ past event later a b, events = past ++ event :: later ∧ Run step s past a ∧
    step a event b ∧ Run step b later t ∧ writes a event value

/-- In the states that meet `inv` the register changes with a write only, and
only a blank one is written. -/
structure WriteOnce (step : σ → ε → σ → Prop) (inv : σ → Prop) (read : σ → β) (blank : β)
    (writes : σ → ε → β → Prop) : Prop where
  kept : ∀ a event b, inv a → step a event b → inv b
  blank_of_writes : ∀ a event value, writes a event value → read a = blank
  read_of_writes : ∀ a event b value, step a event b → writes a event value → read b = value
  unchanged : ∀ a event b, inv a → step a event b →
    read b = read a ∨ writes a event (read b)

namespace WriteOnce

variable {step : σ → ε → σ → Prop} {inv : σ → Prop} {read : σ → β} {blank value : β}
  {writes : σ → ε → β → Prop} {s t next : σ} {events : List ε} {event : ε}

theorem snoc (written : Written step writes s events t value) (last : step t event next) :
    Written step writes s (events ++ [event]) next value := by
  obtain ⟨past, own, later, a, b, rfl, before, fired, after, writing⟩ := written
  exact ⟨past, own, later ++ [event], a, b, by simp, before, fired, after.snoc last, writing⟩

theorem stays (once : WriteOnce step inv read blank writes) (start : inv s)
    (held : read s ≠ blank) (run : Run step s events t) : read t = read s := by
  have stable : inv t ∧ read t = read s := by
    refine run.invariant (motive := fun a => inv a ∧ read a = read s) ⟨start, rfl⟩ ?_
    rintro a event b ⟨good, same⟩ fired
    refine ⟨once.kept a event b good fired, ?_⟩
    rcases once.unchanged a event b good fired with unchanged | writing
    · rw [unchanged, same]
    · exact absurd (same ▸ once.blank_of_writes a event _ writing) held
  exact stable.2

theorem read_eq_iff (once : WriteOnce step inv read blank writes) (start : inv s)
    (empty : read s = blank) (run : Run step s events t) (filled : value ≠ blank) :
    read t = value ↔ Written step writes s events t value := by
  constructor
  · intro held
    induction run with
    | nil => exact absurd (held.symm.trans empty) filled
    | @snoc past event a b before last ih =>
        have good : inv a := before.invariant start once.kept
        rcases once.unchanged a event b good last with unchanged | writing
        · exact snoc (ih (unchanged ▸ held)) last
        · exact ⟨past, event, [], a, b, rfl, before, last, Run.nil, held ▸ writing⟩
  · rintro ⟨past, event, later, a, b, rfl, before, fired, after, writing⟩
    have good : inv a := before.invariant start once.kept
    have now := once.read_of_writes a event b value fired writing
    rw [once.stays (once.kept a event b good fired) (now ▸ filled) after, now]

end WriteOnce
end Transition
