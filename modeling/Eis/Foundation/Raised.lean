import Mathlib.Data.List.Forall2

/-!
# Exceptions that escape

A program raises exceptions of its own, and the operations of the language raise theirs.
A computation is handled when it returns or raises one of the program's own; a sequence
of steps that raise none of these is handled just when each step returns.
-/

set_option autoImplicit false

universe u

/-- The exceptions of the language, and those of a program. -/
inductive Raised (χ : Type) where
  | keyError
  | indexError
  | typeError
  | valueError
  | attributeError
  | overflowError
  | recursionError
  | jsonDecodeError
  | own (error : χ)

variable {χ α β : Type}

/-- The computation returns or raises an exception of the program. -/
def Handled (x : Except (Raised χ) α) : Prop :=
  ∀ exc, x = .error exc → ∃ error, exc = .own error

/-- The computation raises no exception of the program. -/
def Plain (x : Except (Raised χ) α) : Prop :=
  ∀ error, x ≠ .error (.own error)

@[simp]
theorem Raised.ok_bind (a : α) (f : α → Except (Raised χ) β) :
    ((.ok a : Except (Raised χ) α) >>= f) = f a := rfl

@[simp]
theorem Raised.error_bind (exc : Raised χ) (f : α → Except (Raised χ) β) :
    ((.error exc : Except (Raised χ) α) >>= f) = .error exc := rfl

theorem bind_eq_ok_iff {x : Except (Raised χ) α} {f : α → Except (Raised χ) β} {b : β} :
    (x >>= f) = .ok b ↔ ∃ a, x = .ok a ∧ f a = .ok b := by
  cases x <;> simp

@[simp]
theorem handled_ok (a : α) : Handled (.ok a : Except (Raised χ) α) := nofun

@[simp]
theorem handled_pure (a : α) : Handled (pure a : Except (Raised χ) α) := nofun

@[simp]
theorem handled_own (error : χ) : Handled (.error (.own error) : Except (Raised χ) α) := by
  intro exc same
  exact ⟨error, (Except.error.inj same).symm⟩

@[simp]
theorem plain_pure (a : α) : Plain (pure a : Except (Raised χ) α) := nofun

theorem Plain.not_handled {exc : Raised χ} (plain : Plain (.error exc : Except (Raised χ) α)) :
    ¬ Handled (.error exc : Except (Raised χ) β) := by
  intro handled
  obtain ⟨error, own⟩ := handled exc rfl
  exact plain error (by rw [own])

theorem Plain.handled_iff {x : Except (Raised χ) α} (plain : Plain x) :
    Handled x ↔ ∃ a, x = .ok a := by
  cases x with
  | ok a => simp
  | error exc => simp [plain.not_handled (β := α)]

theorem Plain.bind {x : Except (Raised χ) α} {f : α → Except (Raised χ) β} (plain : Plain x)
    (rest : ∀ a, Plain (f a)) : Plain (x >>= f) := by
  cases x with
  | ok a => exact rest a
  | error exc =>
      intro error same
      exact plain error (congrArg _ (Except.error.inj same))

theorem handled_bind_iff {x : Except (Raised χ) α} {f : α → Except (Raised χ) β} :
    Handled (x >>= f) ↔ Handled x ∧ ∀ a, x = .ok a → Handled (f a) := by
  cases x with
  | ok a => simp
  | error exc => simp [Handled]

theorem Plain.handled_bind {x : Except (Raised χ) α} {f : α → Except (Raised χ) β}
    (plain : Plain x) : Handled (x >>= f) ↔ ∃ a, x = .ok a ∧ Handled (f a) := by
  rw [handled_bind_iff, plain.handled_iff]
  constructor
  · rintro ⟨⟨a, returned⟩, rest⟩
    exact ⟨a, returned, rest a returned⟩
  · rintro ⟨a, returned, held⟩
    refine ⟨⟨a, returned⟩, fun b same => ?_⟩
    obtain rfl := Except.ok.inj (returned.symm.trans same)
    exact held

theorem plain_mapM {f : α → Except (Raised χ) β} (plain : ∀ a, Plain (f a)) (items : List α) :
    Plain (items.mapM f) := by
  induction items with
  | nil => simp
  | cons a items ih =>
      rw [List.mapM_cons]
      exact (plain a).bind fun b => ih.bind fun rest => plain_pure _

theorem handled_mapM {f : α → Except (Raised χ) β} (plain : ∀ a, Plain (f a)) (items : List α) :
    Handled (items.mapM f) ↔ ∀ a ∈ items, Handled (f a) := by
  induction items with
  | nil => simp
  | cons a items ih =>
      rw [List.mapM_cons, (plain a).handled_bind, List.forall_mem_cons, (plain a).handled_iff]
      simp only [(plain_mapM plain items).handled_bind, handled_pure, and_true, exists_and_right,
        ← ih, (plain_mapM plain items).handled_iff]

theorem mapM_eq_ok_iff {f : α → Except (Raised χ) β} {items : List α} {results : List β} :
    items.mapM f = .ok results ↔ List.Forall₂ (fun a b => f a = .ok b) items results := by
  induction items generalizing results with
  | nil =>
      rw [List.mapM_nil, List.forall₂_nil_left_iff]
      exact ⟨fun same => (Except.ok.inj same).symm, fun same => congrArg _ same.symm⟩
  | cons a items ih =>
      rw [List.mapM_cons, bind_eq_ok_iff, List.forall₂_cons_left_iff]
      simp only [bind_eq_ok_iff, ih]
      constructor
      · rintro ⟨b, turn, rest, turns, same⟩
        exact ⟨b, rest, turn, turns, (Except.ok.inj same).symm⟩
      · rintro ⟨b, rest, turn, turns, rfl⟩
        exact ⟨b, turn, rest, turns, rfl⟩

theorem forall₂_eq_iff {g : α → β} {items : List α} {results : List β} :
    List.Forall₂ (fun a b => b = g a) items results ↔ results = items.map g := by
  rw [eq_comm, ← List.forall₂_eq_eq_eq, List.forall₂_map_left_iff]
  simp only [eq_comm]
