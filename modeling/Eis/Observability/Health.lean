import Eis.Foundation.Program
import Eis.Foundation.Value

/-!
# Health and readiness

`HealthRegistry` runs its checks one after the other and folds what they come to into one
status.  `health` puts a status of its own in front of the one of `readiness`, which then
overrides it.
-/

set_option autoImplicit false

namespace Eis.Observability

open Program

structure CheckResult where
  name : String
  ok : Bool
  detail : String := ""

def CheckResult.entry (result : CheckResult) : Value :=
  .dict [("name", .str result.name), ("ok", .bool result.ok), ("detail", .str result.detail)]

/-- `bool | CheckResult` -/
inductive CheckValue where
  | bool (value : Bool)
  | result (result : CheckResult)

structure CheckException where
  isException : Bool
  text : String

/-- `Callable[[], bool | CheckResult]` -/
abbrev HealthCheck (ω : Type) := Call ω CheckException CheckValue

structure HealthRegistry (ω : Type) where
  checks : OrderedDict String (HealthCheck ω) := Table.empty
  ready : Bool := true

/-- `{key: value, **spread}` -/
def spreadOver (key : String) (value : Value) (spread : Dict) : Dict :=
  Value.toDict ((key, value) :: spread.rows)

theorem get?_spreadOver (key : String) (value : Value) (spread : Dict) :
    (spreadOver key value spread).get? key = some ((spread.get? key).getD value) :=
  OrderedDict.get?_collect_cons_rows key value spread

namespace HealthRegistry

variable {ω : Type}

def register (registry : HealthRegistry ω) (name : String) (check : HealthCheck ω) :
    HealthRegistry ω :=
  { registry with checks := registry.checks.setItem name check }

def setNotReady (registry : HealthRegistry ω) : HealthRegistry ω :=
  { registry with ready := false }

def setReady (registry : HealthRegistry ω) : HealthRegistry ω :=
  { registry with ready := true }

/-- `check()` -/
def call (check : HealthCheck ω) : Program ω CheckException CheckValue :=
  fun world => ended (check world).2 (check world).1

/-- One turn of the loop of `readiness`. -/
def probe (name : String) (check : HealthCheck ω) : Program ω CheckException CheckResult :=
  tryCatch
    (do
      match ← call check with
      | .result result => pure result
      | .bool value => pure { name := name, ok := value })
    fun exc =>
      if exc.isException then
        pure { name := name, ok := false, detail := exc.text }
      else throw exc

def readiness (registry : HealthRegistry ω) : Program ω CheckException Dict := do
  if registry.ready = false then
    return Value.toDict [("status", .str "not_ready"), ("checks", .list [])]
  let results ← registry.checks.rows.mapM fun item => probe item.1 item.2
  let ok := results.all CheckResult.ok
  return Value.toDict
    [("status", .str (if ok then "ready" else "not_ready")),
      ("checks", .list (results.map CheckResult.entry))]

def health (registry : HealthRegistry ω) : Program ω CheckException Dict := do
  let readiness ← registry.readiness
  let status := if (readiness.get? "status").bind Value.text? = some "ready" then "ok"
    else "degraded"
  return spreadOver "status" (.str status) readiness

/-! ## What is asked of the two reports -/

/-- What the checks come to in turn, each in the world that the ones before it leave. -/
def outcomes : List (String × HealthCheck ω) → ω → List (Except CheckException CheckValue)
  | [], _ => []
  | item :: rest, world => (item.2 world).2 :: outcomes rest (item.2 world).1

def Passed : Except CheckException CheckValue → Prop
  | .ok (.bool value) => value = true
  | .ok (.result result) => result.ok = true
  | .error _ => False

def Serves (registry : HealthRegistry ω) (world : ω) : Prop :=
  registry.ready = true ∧ ∀ outcome ∈ outcomes registry.checks.rows world, Passed outcome

def Catchable (registry : HealthRegistry ω) (world : ω) : Prop :=
  ∀ exc, .error exc ∈ outcomes registry.checks.rows world → exc.isException = true

def Tells (status : String) (report : Dict) : Prop := report.get? "status" = some (.str status)

/-- The report of readiness is given, and it tells the state of the registry. -/
def ReadinessAgrees (registry : HealthRegistry ω) (world : ω) : Prop :=
  registry.readiness.Ends world (fun report _ => Tells "ready" report ↔ registry.Serves world)
    fun _ _ => False

def HealthAgrees (registry : HealthRegistry ω) (world : ω) : Prop :=
  registry.health.Ends world
    (fun report _ => (Tells "ok" report ↔ registry.Serves world) ∧
      (Tells "degraded" report ↔ ¬ registry.Serves world))
    fun _ _ => False

/-! ## Readiness -/

theorem ends_probe (name : String) (check : HealthCheck ω) (world : ω)
    (catchable : ∀ exc, (check world).2 = .error exc → exc.isException = true) :
    (probe name check).Ends world
      (fun result next => next = (check world).1 ∧ (result.ok = true ↔ Passed (check world).2))
      fun _ _ => False := by
  unfold probe
  rw [ends_tryCatch, ends_bind]
  cases outcome : (check world).2 with
  | error exc =>
      have raised : call check world = .error exc (check world).1 := by
        unfold call
        rw [outcome]
        rfl
      rw [ends_iff_of_error raised, if_pos (catchable exc outcome)]
      exact ⟨rfl, iff_of_false (by simp) id⟩
  | ok value =>
      have returned : call check world = .ok value (check world).1 := by
        unfold call
        rw [outcome]
        rfl
      rw [ends_iff_of_ok returned]
      cases value with
      | bool value => exact ⟨rfl, Iff.rfl⟩
      | result result => exact ⟨rfl, Iff.rfl⟩

/-- The loop over the checks gives their results, and all of these are ok just when the
checks are. -/
theorem ends_probes (checks : List (String × HealthCheck ω)) (world : ω)
    (catchable : ∀ exc, .error exc ∈ outcomes checks world → exc.isException = true) :
    (checks.mapM fun item => probe item.1 item.2).Ends world
      (fun results _ =>
        results.all CheckResult.ok = true ↔ ∀ outcome ∈ outcomes checks world, Passed outcome)
      fun _ _ => False := by
  induction checks generalizing world with
  | nil => simp [ends_pure, outcomes]
  | cons item rest ih =>
      have first := ends_probe item.1 item.2 world fun exc raised =>
        catchable exc (List.mem_cons.mpr (.inl raised.symm))
      rw [List.mapM_cons, ends_bind]
      refine first.mono ?_ fun _ _ never => never
      rintro result _ ⟨rfl, same⟩
      rw [ends_bind]
      refine (ih _ fun exc raised => catchable exc (List.mem_cons_of_mem _ raised)).mono ?_
        fun _ _ never => never
      intro results _ rest
      rw [ends_pure, List.all_cons, Bool.and_eq_true, same, rest, outcomes,
        List.forall_mem_cons]

theorem tells_iff {text status : String} {checks : Value} :
    Tells text (Value.toDict [("status", .str status), ("checks", checks)]) ↔ status = text := by
  have told : (Value.toDict [("status", .str status), ("checks", checks)]).get? "status" =
      some (.str status) := by
    simp [Value.toDict, OrderedDict.get?_setItem]
  unfold Tells
  rw [told, Option.some_inj, Value.str.injEq]

theorem readinessAgrees_of_catchable (registry : HealthRegistry ω) (world : ω)
    (catchable : registry.Catchable world) : registry.ReadinessAgrees world := by
  unfold ReadinessAgrees readiness
  split
  · rename_i unready
    rw [ends_pure, tells_iff]
    refine iff_of_false (by decide) fun serves => ?_
    exact Bool.false_ne_true (unready.symm.trans serves.1)
  · rename_i ready
    rw [ends_bind]
    refine (ends_probes registry.checks.rows world catchable).mono ?_ fun _ _ never => never
    intro results _ passed
    rw [ends_pure, tells_iff]
    unfold Serves
    rw [← passed]
    split
    · rename_i ok
      exact iff_of_true rfl ⟨by simpa using ready, ok⟩
    · rename_i failed
      exact iff_of_false (by decide) fun serves => failed serves.2

/-! ## Health -/

theorem readiness_tells (registry : HealthRegistry ω) (world : ω) :
    registry.readiness.Ends world
      (fun report _ => Tells "ready" report ∨ Tells "not_ready" report) fun _ _ => True := by
  unfold readiness
  split
  · exact .inr (tells_iff.mpr rfl)
  · rw [ends_bind]
    refine ends_trivial.mono ?_ fun _ _ _ => trivial
    intro results _ _
    rw [ends_pure, tells_iff, tells_iff]
    split
    · exact .inl rfl
    · exact .inr rfl

theorem tells_spreadOver {text other status : String} {report : Dict} (told : Tells text report) :
    Tells other (spreadOver "status" (.str status) report) ↔ text = other := by
  unfold Tells at told ⊢
  rw [get?_spreadOver, told, Option.getD_some, Option.some_inj, Value.str.injEq]

theorem health_tells (registry : HealthRegistry ω) (world : ω) :
    registry.health.Ends world
      (fun report _ => ¬ Tells "ok" report ∧ ¬ Tells "degraded" report) fun _ _ => True := by
  unfold health
  rw [ends_bind]
  refine (registry.readiness_tells world).mono ?_ fun _ _ _ => trivial
  intro report _ told
  rw [ends_pure]
  rcases told with told | told
  · rw [tells_spreadOver told, tells_spreadOver told]
    decide
  · rw [tells_spreadOver told, tells_spreadOver told]
    decide

theorem not_healthAgrees (registry : HealthRegistry ω) (world : ω) :
    ¬ registry.HealthAgrees world := by
  intro agrees
  have told := registry.health_tells world
  unfold HealthAgrees at agrees
  cases ended : registry.health world with
  | error exc last => exact (ends_iff_of_error ended).mp agrees
  | ok report last =>
      obtain ⟨ok, degraded⟩ := agrees.of_ok ended
      obtain ⟨notOk, notDegraded⟩ := told.of_ok ended
      exact notDegraded (degraded.mpr fun serves => notOk (ok.mpr serves))

/-! ## Registries that are reached -/

inductive Change (ω : Type) where
  | register (name : String) (check : HealthCheck ω)
  | setReady
  | setNotReady

def change (registry : HealthRegistry ω) : Change ω → HealthRegistry ω
  | .register name check => registry.register name check
  | .setReady => registry.setReady
  | .setNotReady => registry.setNotReady

def reached (changes : List (Change ω)) : HealthRegistry ω := changes.foldl change {}

/-- In no registry that is reached, and for no behaviour of its checks, do the two reports
both tell the state. -/
theorem health_never_agrees (changes : List (Change ω)) (world : ω) :
    ¬ ((reached changes).ReadinessAgrees world ∧ (reached changes).HealthAgrees world) := by
  rintro ⟨_, agrees⟩
  exact not_healthAgrees _ world agrees

def databaseUp : List (Change Unit) :=
  [.register "database" fun world => (world, .ok (.bool true))]

/-- The registry is ready and its check is ok; health says so in the words of readiness. -/
theorem health_tells_ready :
    (reached databaseUp).Serves () ∧
      (reached databaseUp).health.Ends ()
        (fun report _ => Tells "ready" report ∧ ¬ Tells "ok" report) (fun _ _ => False) ∧
      ¬ ((reached databaseUp).ReadinessAgrees () ∧ (reached databaseUp).HealthAgrees ()) := by
  refine ⟨⟨rfl, fun outcome member => ?_⟩, ?_, fun agrees => not_healthAgrees _ _ agrees.2⟩
  · obtain rfl := List.mem_singleton.mp member
    rfl
  · have ended : (reached databaseUp).health () = .ok
        (spreadOver "status" (.str "ok") (Value.toDict [("status", .str "ready"),
          ("checks", .list [CheckResult.entry { name := "database", ok := true }])])) () := rfl
    rw [ends_iff_of_ok ended, tells_spreadOver (tells_iff.mpr rfl),
      tells_spreadOver (tells_iff.mpr rfl)]
    decide

end HealthRegistry

end Eis.Observability
