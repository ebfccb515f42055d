import Eis.Foundation.Program
import Eis.Foundation.Retry
import Eis.Models.Interfaces
import Eis.Observability.Series

/-!
# Instrumented models

`record_model_usage` and its siblings, and the wrapper that counts what a model
answers.  The wrapper is transparent, and its series say what was answered.
-/

set_option autoImplicit false

namespace Eis.Observability

open Eis.Models (ModelMetadata Operation)

class ClockNumber (ν : Type) extends MetricNumber ν where
  ofInt : ℤ → ν
  sub : ν → ν → ν

def keywords (labels : List (String × String)) : OrderedDict String String :=
  OrderedDict.collect Prod.fst Prod.snd labels

structure ModelUsageMetric (ν : Type) where
  provider : String
  model : String
  inputTokens : ℤ
  outputTokens : ℤ
  totalTokens : ℤ
  estimatedCost : Option ν
  currency : Option String
  latencySeconds : ν
  success : Bool

structure TaskMetric (ν : Type) where
  taskType : String
  status : String
  latencySeconds : ν
  retries : ℤ := 0

/-- `text or default` -/
def orDefault (text : Option String) (default : String) : String :=
  match text with
  | none => default
  | some text => if text = "" then default else text

section Records
variable {ν : Type} [ClockNumber ν]

open MetricsRegistry

def recordModelUsage (usage : ModelUsageMetric ν) : List (MetricCall ν) :=
  let labels := [("provider", usage.provider), ("model", usage.model)]
  [.increment "eis_model_requests_total" (ClockNumber.ofInt 1) (keywords labels),
    .increment "eis_model_input_tokens_total" (ClockNumber.ofInt usage.inputTokens)
      (keywords labels),
    .increment "eis_model_output_tokens_total" (ClockNumber.ofInt usage.outputTokens)
      (keywords labels),
    .increment "eis_model_tokens_total" (ClockNumber.ofInt usage.totalTokens) (keywords labels),
    .observe "eis_model_latency_seconds" usage.latencySeconds (keywords labels)] ++
  (match usage.estimatedCost with
    | none => []
    | some cost =>
        [.increment "eis_model_cost_total" cost
          (keywords (("currency", orDefault usage.currency "UNKNOWN") :: labels))]) ++
  if usage.success then []
  else [.increment "eis_model_failures_total" (ClockNumber.ofInt 1) (keywords labels)]

def recordTask (metric : TaskMetric ν) : List (MetricCall ν) :=
  [.increment "eis_tasks_total" (ClockNumber.ofInt 1)
      (keywords [("task_type", metric.taskType), ("status", metric.status)]),
    .observe "eis_task_latency_seconds" metric.latencySeconds
      (keywords [("task_type", metric.taskType)]),
    .increment "eis_task_retries_total" (ClockNumber.ofInt metric.retries)
      (keywords [("task_type", metric.taskType)])]

/-- What `record_tool` and `record_verification` do alike: a failure is counted
under the labels of the call. -/
def recordStatus (total latency failures : String) (own status : String × String)
    (successes : List String) (latencySeconds : ν) : List (MetricCall ν) :=
  [.increment total (ClockNumber.ofInt 1) (keywords [own, status]),
    .observe latency latencySeconds (keywords [own])] ++
  if status.2 ∈ successes then []
  else [.increment failures (ClockNumber.ofInt 1) (keywords [own, status])]

def recordTool (tool status : String) (latencySeconds : ν) : List (MetricCall ν) :=
  recordStatus "eis_tool_executions_total" "eis_tool_latency_seconds" "eis_tool_failures_total"
    ("tool", tool) ("status", status) ["success", "completed"] latencySeconds

def recordVerification (stage status : String) (latencySeconds : ν) : List (MetricCall ν) :=
  recordStatus "eis_verifications_total" "eis_verification_latency_seconds"
    "eis_verification_failures_total" ("stage", stage) ("status", status) ["passed", "success"]
    latencySeconds

end Records

/-! ## The wrapper -/

structure Reported (ν β : Type) where
  model : ModelMetadata
  inputTokens : ℤ
  outputTokens : ℤ
  totalTokens : ℤ
  estimatedCost : Option ν
  currency : Option String
  body : β

structure Instrumented (ω ν : Type) where
  world : ω
  metrics : MetricsRegistry ν

/-- `generate`, `generate_structured` and `embed` differ in the name under which
they count a failure. -/
structure InstrumentedModel (ω ε ρ ν β : Type) where
  model : Operation → ρ → ω → ω × Except ε (Reported ν β)
  monotonic : ω → ν

namespace InstrumentedModel

variable {ω ε ρ ν β : Type} [ClockNumber ν] [Exceptions ε]

open MetricsRegistry

def record (calls : List (MetricCall ν)) : Program (Instrumented ω ν) ε Unit :=
  modify fun s => { s with metrics := calls.foldl MetricsRegistry.apply s.metrics }

def failure (operation : Operation) : List (MetricCall ν) :=
  [.increment "eis_model_failures_total" (ClockNumber.ofInt 1)
    (keywords [("operation", operation.name)])]

/-- `_record` -/
def usage (response : Reported ν β) (latencySeconds : ν) : ModelUsageMetric ν where
  provider := response.model.provider
  model := response.model.model
  inputTokens := response.inputTokens
  outputTokens := response.outputTokens
  totalTokens := response.totalTokens
  estimatedCost := response.estimatedCost
  currency := response.currency
  latencySeconds := latencySeconds
  success := true

/-- `await self._model.generate(request)` -/
def awaitModel (m : InstrumentedModel ω ε ρ ν β) (operation : Operation) (request : ρ) :
    Program (Instrumented ω ν) ε (Reported ν β) := fun s =>
  let (world, answer) := m.model operation request s.world
  Program.ended answer { s with world := world }

def call (m : InstrumentedModel ω ε ρ ν β) (operation : Operation) (request : ρ) :
    Program (Instrumented ω ν) ε (Reported ν β) := do
  let started := m.monotonic (← get).world
  let response ← tryCatch (m.awaitModel operation request) fun exc => do
    if Exceptions.isException exc then record (failure operation)
    throw exc
  let stopped := m.monotonic (← get).world
  record (recordModelUsage (usage response (ClockNumber.sub stopped started)))
  return response

def calls (m : InstrumentedModel ω ε ρ ν β) (s : Instrumented ω ν) :
    List (Operation × ρ) → Instrumented ω ν × List (Except ε (Reported ν β))
  | [] => (s, [])
  | (operation, request) :: rest =>
      match m.call operation request s with
      | .ok response t => ((m.calls t rest).1, .ok response :: (m.calls t rest).2)
      | .error exc t => ((m.calls t rest).1, .error exc :: (m.calls t rest).2)

/-- What the bare model answers, with the time that each answer took. -/
structure Answer (ε ν β : Type) where
  operation : Operation
  outcome : Except ε (Reported ν β)
  latencySeconds : ν

def bare (m : InstrumentedModel ω ε ρ ν β) (world : ω) :
    List (Operation × ρ) → ω × List (Answer ε ν β)
  | [] => (world, [])
  | (operation, request) :: rest =>
      let (next, outcome) := m.model operation request world
      let answer : Answer ε ν β :=
        ⟨operation, outcome, ClockNumber.sub (m.monotonic next) (m.monotonic world)⟩
      ((m.bare next rest).1, answer :: (m.bare next rest).2)

def Answer.calls (answer : Answer ε ν β) : List (MetricCall ν) :=
  match answer.outcome with
  | .ok response => recordModelUsage (usage response answer.latencySeconds)
  | .error exc => if Exceptions.isException exc then failure answer.operation else []

def Answer.response (provider model : String) (answer : Answer ε ν β) : Option (Reported ν β) :=
  match answer.outcome with
  | .ok response =>
      if response.model.provider = provider ∧ response.model.model = model then some response
      else none
  | .error _ => none

/-- The answer is a failure of this operation: not a cancellation. -/
def Answer.failed (operation : Operation) (answer : Answer ε ν β) : Bool :=
  match answer.outcome with
  | .ok _ => false
  | .error exc => Exceptions.isException exc && decide (answer.operation = operation)

def modelLabels (provider model : String) : OrderedDict String String :=
  keywords [("provider", provider), ("model", model)]

/-- The metrics say what was answered. -/
structure Accounted (answers : List (Answer ε ν β)) (metrics : MetricsRegistry ν) : Prop where
  requests : ∀ provider model,
    metrics.counters.get? (key "eis_model_requests_total" (modelLabels provider model)) =
      total (answers.filterMap fun answer =>
        (answer.response provider model).map fun _ => ClockNumber.ofInt 1)
  inputTokens : ∀ provider model,
    metrics.counters.get? (key "eis_model_input_tokens_total" (modelLabels provider model)) =
      total (answers.filterMap fun answer =>
        (answer.response provider model).map fun response => ClockNumber.ofInt response.inputTokens)
  outputTokens : ∀ provider model,
    metrics.counters.get? (key "eis_model_output_tokens_total" (modelLabels provider model)) =
      total (answers.filterMap fun answer =>
        (answer.response provider model).map fun response =>
          ClockNumber.ofInt response.outputTokens)
  totalTokens : ∀ provider model,
    metrics.counters.get? (key "eis_model_tokens_total" (modelLabels provider model)) =
      total (answers.filterMap fun answer =>
        (answer.response provider model).map fun response => ClockNumber.ofInt response.totalTokens)
  cost : ∀ provider model currency,
    metrics.counters.get? (key "eis_model_cost_total"
        (keywords [("currency", currency), ("provider", provider), ("model", model)])) =
      total (answers.filterMap fun answer =>
        (answer.response provider model).bind fun response =>
          if orDefault response.currency "UNKNOWN" = currency then response.estimatedCost
          else none)
  latency : ∀ provider model,
    metrics.histograms.get? (key "eis_model_latency_seconds" (modelLabels provider model)) =
      whole (answers.filterMap fun answer =>
        (answer.response provider model).map fun _ => answer.latencySeconds)
  failures : ∀ operation : Operation,
    metrics.counters.get? (key "eis_model_failures_total"
        (keywords [("operation", operation.name)])) =
      total ((answers.filter (Answer.failed operation)).map fun _ => ClockNumber.ofInt 1)

variable {m : InstrumentedModel ω ε ρ ν β}

theorem call_eq (s : Instrumented ω ν) (operation : Operation) (request : ρ) :
    m.call operation request s =
      Program.ended (m.model operation request s.world).2
        { world := (m.model operation request s.world).1
          metrics := (Answer.calls
            ⟨operation, (m.model operation request s.world).2,
              ClockNumber.sub (m.monotonic (m.model operation request s.world).1)
                (m.monotonic s.world)⟩).foldl MetricsRegistry.apply s.metrics } := by
  have read : ∀ s : Instrumented ω ν, (get : Program _ ε _) s = .ok s s := fun _ => rfl
  unfold call
  rw [Program.bind_of_ok (read s)]
  cases outcome : (m.model operation request s.world).2 with
  | ok response =>
      have asked : m.awaitModel operation request s =
          .ok response { s with world := (m.model operation request s.world).1 } := by
        simp only [awaitModel, outcome, Program.ended]
      rw [Program.bind_of_ok (Program.tryCatch_of_ok asked), Program.bind_of_ok (read _)]
      rfl
  | error exc =>
      have asked : m.awaitModel operation request s =
          .error exc { s with world := (m.model operation request s.world).1 } := by
        simp only [awaitModel, outcome, Program.ended]
      refine Program.bind_of_error ((Program.tryCatch_of_error asked).trans ?_)
      unfold Answer.calls
      by_cases caught : Exceptions.isException exc = true
      · simp only [caught, if_true]
        rfl
      · simp only [caught]
        rfl

theorem modelLabels_equal_iff {provider model other plain : String} :
    (keywords [("provider", provider), ("model", model)]).Equal (modelLabels other plain) ↔
      provider = other ∧ model = plain := by
  constructor
  · intro same
    have first := same "provider"
    have second := same "model"
    simp only [modelLabels, keywords, OrderedDict.get?_collect] at first second
    simpa using And.intro first second
  · rintro ⟨rfl, rfl⟩ _
    rfl

theorem costLabels_equal_iff {currency other provider plain model own : String} :
    (keywords [("currency", currency), ("provider", provider), ("model", model)]).Equal
        (keywords [("currency", other), ("provider", plain), ("model", own)]) ↔
      currency = other ∧ provider = plain ∧ model = own := by
  constructor
  · intro same
    have first := same "currency"
    have second := same "provider"
    have third := same "model"
    simp only [keywords, OrderedDict.get?_collect] at first second third
    simpa using And.intro first (And.intro second third)
  · rintro ⟨rfl, rfl, rfl⟩ _
    rfl

theorem operationLabels_equal_iff {operation other : Operation} :
    (keywords [("operation", operation.name)]).Equal (keywords [("operation", other.name)]) ↔
      operation = other := by
  constructor
  · intro same
    have first := same "operation"
    simp only [keywords, OrderedDict.get?_collect] at first
    cases operation <;> cases other <;> first | rfl | simp [Operation.name] at first
  · rintro rfl _
    rfl

theorem given_answers {name : String} {labels : OrderedDict String String}
    {kind : MetricCall ν → Option ν} {value : Answer ε ν β → Option ν}
    (each : ∀ answer : Answer ε ν β,
      MetricCall.given name labels kind answer.calls = (value answer).toList)
    (answers : List (Answer ε ν β)) :
    MetricCall.given name labels kind (answers.flatMap Answer.calls) =
      answers.filterMap value := by
  rw [MetricCall.given_flatMap, List.filterMap_eq_flatMap_toList]
  congr 1
  exact funext each

theorem given_recordModelUsage {name : String} {kind : MetricCall ν → Option ν}
    {provider model : String} {metric : ModelUsageMetric ν} (success : metric.success = true)
    (priced : name ≠ "eis_model_cost_total") :
    MetricCall.given name (modelLabels provider model) kind (recordModelUsage metric) =
      if metric.provider = provider ∧ metric.model = model then
        MetricCall.given name (modelLabels provider model) kind
          (recordModelUsage
            { metric with provider := provider, model := model, estimatedCost := none })
      else [] := by
  by_cases same : metric.provider = provider ∧ metric.model = model
  · cases cost : metric.estimatedCost <;>
      simp [recordModelUsage, same, cost, success, Ne.symm priced]
  · cases cost : metric.estimatedCost <;>
      simp [recordModelUsage, same, cost, success, modelLabels_equal_iff, Ne.symm priced]

theorem given_response {name : String} {kind : MetricCall ν → Option ν} {provider model : String}
    (value : ModelUsageMetric ν → ν) (unfailed : name ≠ "eis_model_failures_total")
    (recorded : ∀ metric : ModelUsageMetric ν, metric.success = true →
      MetricCall.given name (modelLabels provider model) kind (recordModelUsage metric) =
        if metric.provider = provider ∧ metric.model = model then [value metric] else [])
    (answer : Answer ε ν β) :
    MetricCall.given name (modelLabels provider model) kind answer.calls =
      ((answer.response provider model).map fun response =>
        value (usage response answer.latencySeconds)).toList := by
  obtain ⟨operation, exc | response, latency⟩ := answer
  · by_cases caught : Exceptions.isException exc = true
    · simp [Answer.calls, Answer.response, failure, caught, Ne.symm unfailed]
    · simp [Answer.calls, Answer.response, caught]
  · have own := recorded (usage response latency) rfl
    simp only [Answer.calls, Answer.response, own]
    by_cases same : response.model.provider = provider ∧ response.model.model = model
    · simp only [usage, same, and_self, if_true, Option.map_some, Option.toList_some]
    · simp only [usage, same, if_false, Option.map_none, Option.toList_none]

theorem given_cost (provider model currency : String) (answer : Answer ε ν β) :
    MetricCall.given "eis_model_cost_total"
        (keywords [("currency", currency), ("provider", provider), ("model", model)])
        MetricCall.incremented answer.calls =
      ((answer.response provider model).bind fun response =>
        if orDefault response.currency "UNKNOWN" = currency then response.estimatedCost
        else none).toList := by
  obtain ⟨operation, exc | response, latency⟩ := answer
  · by_cases caught : Exceptions.isException exc = true
    · simp [Answer.calls, Answer.response, failure, caught]
    · simp [Answer.calls, Answer.response, caught]
  · simp only [Answer.calls, Answer.response]
    by_cases same : response.model.provider = provider ∧ response.model.model = model
    · cases cost : response.estimatedCost with
      | none => simp [recordModelUsage, usage, cost]
      | some cost =>
          by_cases own : orDefault response.currency "UNKNOWN" = currency
          · simp [recordModelUsage, usage, cost, same, own, costLabels_equal_iff,
              MetricCall.incremented]
          · simp [recordModelUsage, usage, cost, same, own, costLabels_equal_iff]
    · cases cost : response.estimatedCost with
      | none => simp [recordModelUsage, usage, cost]
      | some cost => simp [recordModelUsage, usage, cost, same, costLabels_equal_iff]

theorem given_failure (own : Operation) (answer : Answer ε ν β) :
    MetricCall.given "eis_model_failures_total" (keywords [("operation", own.name)])
        MetricCall.incremented answer.calls =
      (if answer.failed own then some (ClockNumber.ofInt 1) else none).toList := by
  obtain ⟨operation, exc | response, latency⟩ := answer
  · by_cases caught : Exceptions.isException exc = true
    · by_cases same : operation = own
      · simp [Answer.calls, Answer.failed, failure, caught, operationLabels_equal_iff, same,
          MetricCall.incremented]
      · simp [Answer.calls, Answer.failed, failure, caught, operationLabels_equal_iff, same]
    · simp [Answer.calls, Answer.failed, caught]
  · cases cost : response.estimatedCost <;>
      simp [Answer.calls, Answer.failed, recordModelUsage, usage, cost]

theorem accounted (answers : List (Answer ε ν β)) :
    Accounted answers (reached (answers.flatMap Answer.calls)) := by
  constructor
  case cost =>
    intro provider model currency
    rw [counters_reached]
    exact congrArg total (given_answers (given_cost provider model currency) answers)
  case failures =>
    intro operation
    rw [counters_reached, given_answers (given_failure operation) answers]
    congr 1
    induction answers with
    | nil => rfl
    | cons first rest ih => by_cases failed : first.failed operation <;> simp [failed, ih]
  case requests =>
    intro provider model
    rw [counters_reached]
    refine congrArg _ (given_answers
      (given_response (fun _ => ClockNumber.ofInt 1) (by decide) ?_) answers)
    intro metric success
    rw [given_recordModelUsage success (by decide)]
    simp [recordModelUsage, success, MetricCall.incremented, modelLabels_equal_iff]
  case inputTokens =>
    intro provider model
    rw [counters_reached]
    refine congrArg _ (given_answers
      (given_response (fun metric => ClockNumber.ofInt metric.inputTokens) (by decide) ?_) answers)
    intro metric success
    rw [given_recordModelUsage success (by decide)]
    simp [recordModelUsage, success, MetricCall.incremented, modelLabels_equal_iff]
  case outputTokens =>
    intro provider model
    rw [counters_reached]
    refine congrArg _ (given_answers
      (given_response (fun metric => ClockNumber.ofInt metric.outputTokens) (by decide) ?_) answers)
    intro metric success
    rw [given_recordModelUsage success (by decide)]
    simp [recordModelUsage, success, MetricCall.incremented, modelLabels_equal_iff]
  case totalTokens =>
    intro provider model
    rw [counters_reached]
    refine congrArg _ (given_answers
      (given_response (fun metric => ClockNumber.ofInt metric.totalTokens) (by decide) ?_) answers)
    intro metric success
    rw [given_recordModelUsage success (by decide)]
    simp [recordModelUsage, success, MetricCall.incremented, modelLabels_equal_iff]
  case latency =>
    intro provider model
    rw [histograms_reached]
    refine congrArg _ (given_answers
      (given_response ModelUsageMetric.latencySeconds (by decide) ?_) answers)
    intro metric success
    rw [given_recordModelUsage success (by decide)]
    simp [recordModelUsage, success, MetricCall.measured, modelLabels_equal_iff]

theorem calls_eq (s : Instrumented ω ν) (requests : List (Operation × ρ)) :
    m.calls s requests =
      ({ world := (m.bare s.world requests).1
         metrics := ((m.bare s.world requests).2.flatMap Answer.calls).foldl
          MetricsRegistry.apply s.metrics },
        (m.bare s.world requests).2.map Answer.outcome) := by
  induction requests generalizing s with
  | nil => rfl
  | cons first rest ih =>
      obtain ⟨operation, request⟩ := first
      rw [calls, call_eq]
      cases outcome : (m.model operation request s.world).2 with
      | ok response =>
          simp only [Program.ended, ih, bare, outcome, List.flatMap_cons, List.foldl_append,
            List.map_cons]
      | error exc =>
          simp only [Program.ended, ih, bare, outcome, List.flatMap_cons, List.foldl_append,
            List.map_cons]

/-- The wrapper answers as the model does and leaves the world as the model does,
and the metrics account for every answer. -/
theorem calls_accounted (m : InstrumentedModel ω ε ρ ν β) (world : ω)
    (requests : List (Operation × ρ)) :
    (m.calls ⟨world, MetricsRegistry.empty⟩ requests).1.world = (m.bare world requests).1 ∧
      (m.calls ⟨world, MetricsRegistry.empty⟩ requests).2 =
        (m.bare world requests).2.map Answer.outcome ∧
      Accounted (m.bare world requests).2
        (m.calls ⟨world, MetricsRegistry.empty⟩ requests).1.metrics := by
  rw [calls_eq]
  exact ⟨rfl, rfl, accounted _⟩

end InstrumentedModel
end Eis.Observability
