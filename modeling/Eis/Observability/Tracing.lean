import Eis.Foundation.Uuid
import Eis.Foundation.Value
import Eis.Observability.Instrumentation

/-!
# Spans and measured operations

`Tracer.span` and `Observability.measure`, and programs whose blocks stand inside
each other in any way.  A program does under the facade what it does without it;
the spans tell each of its blocks once, in the order in which they are left, and
the metrics account for the measured ones.
-/

set_option autoImplicit false
set_option linter.dupNamespace false

namespace Eis.Observability

structure TraceContext where
  traceId : String
  spanId : String
  parentSpanId : Option String := none

structure SpanRecord (τ : Type) where
  traceId : String
  spanId : String
  name : String
  startedAt : τ
  endedAt : τ
  attributes : Dict
  error : Option String

/-- Keyword arguments that neither `span` nor a call on the metrics has a parameter for. -/
structure Labels where
  values : OrderedDict String String
  free : ∀ name ∈ ["self", "name", "context", "value", "operation"], values.get? name = none

/-- `**labels` as the attributes of a span. -/
def Labels.attributes (labels : Labels) : Dict :=
  OrderedDict.collect Prod.fst (fun row => .str row.2) labels.values.rows

/-- `operation=operation, **labels` -/
def Labels.keywords (operation : String) (labels : Labels) : OrderedDict String String :=
  Observability.keywords (("operation", operation) :: labels.values.rows)

theorem Labels.get?_keywords (labels : Labels) (operation name : String) :
    (labels.keywords operation).get? name =
      if name = "operation" then some operation else labels.values.get? name := by
  rw [Labels.keywords, Observability.keywords, OrderedDict.get?_collect, List.reverse_cons,
    List.find?_append, ← OrderedDict.find?_reverse_rows]
  by_cases own : name = "operation"
  · subst own
    have free := labels.free "operation" (by simp)
    rw [← OrderedDict.find?_reverse_rows] at free
    rw [Option.map_eq_none_iff.mp free]
    simp
  · rw [if_neg own]
    cases labels.values.rows.reverse.find? fun item => decide (item.1 = name) with
    | none => simp [Ne.symm own]
    | some row => rfl

theorem Labels.keywords_equal_iff {operation other : String} {labels others : Labels} :
    (labels.keywords operation).Equal (others.keywords other) ↔
      operation = other ∧ labels.values.Equal others.values := by
  have free : ∀ labels : Labels, labels.values.get? "operation" = none := fun labels =>
    labels.free "operation" (by simp)
  constructor
  · intro same
    refine ⟨by simpa [Labels.get?_keywords] using same "operation", fun name => ?_⟩
    by_cases own : name = "operation"
    · rw [own, free labels, free others]
    · simpa [Labels.get?_keywords, own] using same name
  · rintro ⟨rfl, same⟩ name
    rw [Labels.get?_keywords, Labels.get?_keywords, same name]

/-- The world of a program, the telemetry beside it and the number of UUIDs drawn. -/
structure Observed (ω ν τ : Type) where
  world : ω
  metrics : MetricsRegistry ν
  spans : List (SpanRecord τ)
  drawn : ℕ

def Observed.unobserved {ω ν τ : Type} (world : ω) : Observed ω ν τ :=
  ⟨world, MetricsRegistry.empty, [], 0⟩

/-- The clocks, the `k`-th `uuid4()` and `str(exc)`. -/
structure Observability (ω ε ν τ : Type) where
  monotonic : ω → ν
  utcNow : ω → τ
  uuid4 : ℕ → UUID
  str : ε → String

namespace Observability

variable {ω ε ν τ α : Type} [Exceptions ε]

open MetricsRegistry

def hex (o : Observability ω ε ν τ) : Program (Observed ω ν τ) ε String := fun s =>
  .ok (o.uuid4 s.drawn).hex { s with drawn := s.drawn + 1 }

/-- `str(exc)` of an exception that `except Exception` catches. -/
def error (o : Observability ω ε ν τ) (outcome : Except ε α) : Option String :=
  match outcome with
  | .ok _ => none
  | .error exc => if Exceptions.isException exc then some (o.str exc) else none

/-- `self.spans.append(SpanRecord(...))` -/
def append (o : Observability ω ε ν τ) (child : TraceContext) (name : String) (started : τ)
    (attributes : Dict) (outcome : Except ε α) : Program (Observed ω ν τ) ε PUnit :=
  modify fun s =>
    { s with
      spans := s.spans ++
        [{ traceId := child.traceId
           spanId := child.spanId
           name := name
           startedAt := started
           endedAt := o.utcNow s.world
           attributes := attributes
           error := o.error outcome }] }

def span (o : Observability ω ε ν τ) (name : String) (context : Option TraceContext)
    (attributes : Dict) (body : TraceContext → Program (Observed ω ν τ) ε α) :
    Program (Observed ω ν τ) ε α := do
  let traceId ← match context with
    | some context => pure context.traceId
    | none => o.hex
  let spanId := String.ofList ((← o.hex).toList.take 16)
  let child : TraceContext := ⟨traceId, spanId, context.map TraceContext.spanId⟩
  let started := o.utcNow (← get).world
  Program.ensuring (body child) (o.append child name started attributes)

section Measure
variable [ClockNumber ν]

def record (calls : List (MetricCall ν)) : Program (Observed ω ν τ) ε Unit :=
  modify fun s => { s with metrics := calls.foldl MetricsRegistry.apply s.metrics }

def failure (operation : String) (labels : Labels) : List (MetricCall ν) :=
  [.increment "eis_failures_total" (ClockNumber.ofInt 1) (labels.keywords operation)]

def latency (operation : String) (labels : Labels) (seconds : ν) : List (MetricCall ν) :=
  [.observe "eis_operation_latency_seconds" seconds (labels.keywords operation)]

/-- The `except` branch of `measure`. -/
def counted (operation : String) (labels : Labels) (exc : ε) : Program (Observed ω ν τ) ε α := do
  if Exceptions.isException exc then record (failure operation labels)
  throw exc

/-- The `finally` branch of `measure`. -/
def observed (o : Observability ω ε ν τ) (operation : String) (labels : Labels) (started : ν)
    (_ : Except ε α) : Program (Observed ω ν τ) ε PUnit := do
  let stopped := o.monotonic (← get).world
  record (latency operation labels (ClockNumber.sub stopped started))

def measure (o : Observability ω ε ν τ) (operation : String) (labels : Labels)
    (body : TraceContext → Program (Observed ω ν τ) ε α) : Program (Observed ω ν τ) ε α := do
  let started := o.monotonic (← get).world
  o.span operation none labels.attributes fun context =>
    Program.ensuring (tryCatch (body context) (counted operation labels))
      (o.observed operation labels started)

end Measure

def child (o : Observability ω ε ν τ) (context : Option TraceContext) (drawn : ℕ) :
    TraceContext :=
  match context with
  | some context =>
      ⟨context.traceId, String.ofList ((o.uuid4 drawn).hex.toList.take 16), some context.spanId⟩
  | none =>
      ⟨(o.uuid4 drawn).hex, String.ofList ((o.uuid4 (drawn + 1)).hex.toList.take 16), none⟩

omit [Exceptions ε] in
theorem child_traceId (o : Observability ω ε ν τ) (context : TraceContext) (drawn : ℕ) :
    (o.child (some context) drawn).traceId = context.traceId := by
  simp only [child]

def drawnFor (context : Option TraceContext) (drawn : ℕ) : ℕ :=
  if context.isSome then drawn + 1 else drawn + 2

variable {o : Observability ω ε ν τ}

theorem span_of_ended (name : String) (context : Option TraceContext) (attributes : Dict)
    (body : TraceContext → Program (Observed ω ν τ) ε α) {s t : Observed ω ν τ}
    {outcome : Except ε α}
    (body_ : body (o.child context s.drawn) { s with drawn := drawnFor context s.drawn } =
      Program.ended outcome t) :
    o.span name context attributes body s =
      Program.ended outcome
        { t with
          spans := t.spans ++
            [{ traceId := (o.child context s.drawn).traceId
               spanId := (o.child context s.drawn).spanId
               name := name
               startedAt := o.utcNow s.world
               endedAt := o.utcNow t.world
               attributes := attributes
               error := o.error outcome }] } := by
  have opened : o.span name context attributes body s =
      Program.ensuring (body (o.child context s.drawn))
        (o.append (o.child context s.drawn) name (o.utcNow s.world) attributes)
        { s with drawn := drawnFor context s.drawn } := by
    cases context <;> rfl
  rw [opened]
  exact Program.ensuring_of_ended body_ rfl

variable [ClockNumber ν]

def measuredCalls (o : Observability ω ε ν τ) (operation : String) (labels : Labels)
    (entered left : ω) (outcome : Except ε α) : List (MetricCall ν) :=
  (match outcome with
    | .ok _ => []
    | .error exc => if Exceptions.isException exc then failure operation labels else []) ++
  latency operation labels (ClockNumber.sub (o.monotonic left) (o.monotonic entered))

theorem counted_eq (operation : String) (labels : Labels) (exc : ε) (s : Observed ω ν τ) :
    (counted operation labels exc : Program (Observed ω ν τ) ε α) s =
      Program.ended (.error exc)
        { s with
          metrics := (if Exceptions.isException exc then failure operation labels else []).foldl
            MetricsRegistry.apply s.metrics } := by
  unfold counted
  by_cases caught : Exceptions.isException exc = true
  · simp only [caught, if_true]
    rfl
  · simp only [caught]
    rfl

omit [Exceptions ε] in
theorem observed_eq (operation : String) (labels : Labels) (started : ν)
    (outcome : Except ε α) (s : Observed ω ν τ) :
    o.observed operation labels started outcome s =
      .ok ⟨⟩ { s with
        metrics := (latency operation labels
          (ClockNumber.sub (o.monotonic s.world) started)).foldl
            MetricsRegistry.apply s.metrics } :=
  rfl

theorem measured_body {operation : String} {labels : Labels} {entered : ω}
    {body : Program (Observed ω ν τ) ε α} {s t : Observed ω ν τ} {outcome : Except ε α}
    (body_ : body s = Program.ended outcome t) :
    Program.ensuring (tryCatch body (counted operation labels))
        (o.observed operation labels (o.monotonic entered)) s =
      Program.ended outcome
        { t with
          metrics := (o.measuredCalls operation labels entered t.world outcome).foldl
            MetricsRegistry.apply t.metrics } := by
  cases outcome with
  | ok value =>
      exact Program.ensuring_of_ended (Program.tryCatch_of_ok body_) (observed_eq ..)
  | error exc =>
      have caught : tryCatch body (counted operation labels) s = _ :=
        (Program.tryCatch_of_error body_).trans (counted_eq operation labels exc t)
      rw [Program.ensuring_of_ended caught (observed_eq ..)]
      by_cases isException : Exceptions.isException exc = true
      · simp only [measuredCalls, isException, if_true, List.foldl_append]
      · simp only [measuredCalls, isException, List.foldl_append]

theorem measure_of_ended {operation : String} {labels : Labels}
    {body : TraceContext → Program (Observed ω ν τ) ε α} {s t : Observed ω ν τ}
    {outcome : Except ε α}
    (body_ : body (o.child none s.drawn) { s with drawn := s.drawn + 2 } =
      Program.ended outcome t) :
    o.measure operation labels body s =
      Program.ended outcome
        { t with
          metrics := (o.measuredCalls operation labels s.world t.world outcome).foldl
            MetricsRegistry.apply t.metrics
          spans := t.spans ++
            [{ traceId := (o.child none s.drawn).traceId
               spanId := (o.child none s.drawn).spanId
               name := operation
               startedAt := o.utcNow s.world
               endedAt := o.utcNow t.world
               attributes := labels.attributes
               error := o.error outcome }] } := by
  have read : (get : Program (Observed ω ν τ) ε _) s = .ok s s := rfl
  unfold measure
  rw [Program.bind_of_ok read]
  have inside : Program.ensuring
      (tryCatch (body (o.child none s.drawn)) (counted operation labels))
        (o.observed operation labels (o.monotonic s.world))
        { s with drawn := drawnFor none s.drawn } = _ := measured_body body_
  exact span_of_ended operation none labels.attributes (fun context =>
    Program.ensuring (tryCatch (body context) (counted operation labels))
      (o.observed operation labels (o.monotonic s.world))) inside

end Observability

/-! ## Programs under the facade -/

/-- A program that uses the facade.  Its contexts are those of the blocks that it is in,
the innermost first, and behind them the ones that it was given. -/
inductive Activity (ω ε : Type) where
  /-- Anything that is not observed. -/
  | work (call : ω → ω × Except ε Unit)
  | measured (operation : String) (labels : Labels) (body : Activity ω ε)
  | traced (name : String) (context : Option ℕ) (attributes : Dict) (body : Activity ω ε)
  | andThen (first second : Activity ω ε)
  | handling (body : Activity ω ε) (handler : ε → Activity ω ε)
  | depending (choice : ω → Activity ω ε)

namespace Activity

variable {ω ε ν τ : Type}

open MetricsRegistry

def run [ClockNumber ν] [Exceptions ε] (o : Observability ω ε ν τ) :
    Activity ω ε → List TraceContext → Program (Observed ω ν τ) ε Unit
  | .work call, _ => fun s => Program.ended (call s.world).2 { s with world := (call s.world).1 }
  | .measured operation labels body, contexts =>
      o.measure operation labels fun context => body.run o (context :: contexts)
  | .traced name context attributes body, contexts =>
      o.span name (context.bind fun place => contexts[place]?) attributes fun child =>
        body.run o (child :: contexts)
  | .andThen first second, contexts => do
      first.run o contexts
      second.run o contexts
  | .handling body handler, contexts =>
      tryCatch (body.run o contexts) fun exc => (handler exc).run o contexts
  | .depending choice, contexts => fun s => (choice s.world).run o contexts s

/-- The program without the facade. -/
def bare : Activity ω ε → ω → ω × Except ε Unit
  | .work call, world => call world
  | .measured _ _ body, world => body.bare world
  | .traced _ _ _ body, world => body.bare world
  | .andThen first second, world =>
      match first.bare world with
      | (next, .ok ()) => second.bare next
      | (next, .error exc) => (next, .error exc)
  | .handling body handler, world =>
      match body.bare world with
      | (next, .ok ()) => (next, .ok ())
      | (next, .error exc) => (handler exc).bare next
  | .depending choice, world => (choice world).bare world

inductive Origin where
  /-- The trace that is begun as the `k`-th. -/
  | begun (k : ℕ)
  | given (traceId : String)

/-- A block that the bare program goes through. -/
structure Block (ω ε : Type) where
  name : String
  attributes : Dict
  labels : Option Labels
  origin : Origin
  entered : ω
  left : ω
  outcome : Except ε Unit

/-- The blocks of the bare program in the order in which it leaves them, and how many
traces are begun when it has ended. -/
def blocks : Activity ω ε → List Origin → ℕ → ω → List (Block ω ε) × ℕ
  | .work _, _, begun, _ => ([], begun)
  | .measured operation labels body, origins, begun, world =>
      let (inner, later) := body.blocks (.begun begun :: origins) (begun + 1) world
      (inner ++ [⟨operation, labels.attributes, some labels, .begun begun, world,
        (body.bare world).1, (body.bare world).2⟩], later)
  | .traced name context attributes body, origins, begun, world =>
      match context.bind fun place => origins[place]? with
      | some origin =>
          let (inner, later) := body.blocks (origin :: origins) begun world
          (inner ++ [⟨name, attributes, none, origin, world,
            (body.bare world).1, (body.bare world).2⟩], later)
      | none =>
          let (inner, later) := body.blocks (.begun begun :: origins) (begun + 1) world
          (inner ++ [⟨name, attributes, none, .begun begun, world,
            (body.bare world).1, (body.bare world).2⟩], later)
  | .andThen first second, origins, begun, world =>
      let (before, between) := first.blocks origins begun world
      match first.bare world with
      | (next, .ok ()) =>
          let (after, later) := second.blocks origins between next
          (before ++ after, later)
      | (_, .error _) => (before, between)
  | .handling body handler, origins, begun, world =>
      let (before, between) := body.blocks origins begun world
      match body.bare world with
      | (_, .ok ()) => (before, between)
      | (next, .error exc) =>
          let (after, later) := (handler exc).blocks origins between next
          (before ++ after, later)
  | .depending choice, origins, begun, world => (choice world).blocks origins begun world

/-! ## What the spans tell -/

def Origin.Resolves (ids : List String) (traceId : String) : Origin → Prop
  | .begun k => ids[k]? = some traceId
  | .given own => own = traceId

theorem Origin.Resolves.mono {ids later : List String} {origin : Origin} {traceId : String}
    (resolves : origin.Resolves ids traceId) (grown : ids <+: later) :
    origin.Resolves later traceId := by
  cases origin with
  | given own => exact resolves
  | begun k =>
      obtain ⟨more, rfl⟩ := grown
      obtain ⟨inside, _⟩ := List.getElem?_eq_some_iff.mp resolves
      exact (List.getElem?_append_left inside).trans resolves

section Begun
variable {o : Observability ω ε ν τ} {ids : List String} {begun drawn next : ℕ}

/-- These are the ids of the traces begun: they come from UUIDs that have been drawn, no two
of them from the same. -/
structure Begun (o : Observability ω ε ν τ) (ids : List String) (begun drawn : ℕ) : Prop where
  length : ids.length = begun
  draws : ∃ draws : List ℕ, ids = draws.map (fun k => (o.uuid4 k).hex) ∧
    draws.Pairwise (· < ·) ∧ ∀ k ∈ draws, k < drawn

theorem Begun.more (holds : Begun o ids begun drawn) (onwards : drawn ≤ next) :
    Begun o ids begun next := by
  obtain ⟨draws, same, ascending, below⟩ := holds.draws
  exact ⟨holds.length, draws, same, ascending, fun k member => (below k member).trans_le onwards⟩

theorem Begun.snoc (holds : Begun o ids begun drawn) (onwards : drawn < next) :
    Begun o (ids ++ [(o.uuid4 drawn).hex]) (begun + 1) next := by
  obtain ⟨draws, same, ascending, below⟩ := holds.draws
  refine ⟨by simp [holds.length], draws ++ [drawn], by simp [same], ?_, ?_⟩
  · refine List.pairwise_append.mpr ⟨ascending, List.pairwise_singleton _ _, ?_⟩
    intro k member last own
    rw [List.mem_singleton.mp own]
    exact below k member
  · intro k member
    rcases List.mem_append.mp member with before | own
    · exact (below k before).trans onwards
    · rw [List.mem_singleton.mp own]
      exact onwards

theorem Begun.nodup (holds : Begun o ids begun drawn)
    (distinct : Set.InjOn o.uuid4 (Set.Iio drawn)) : ids.Nodup := by
  obtain ⟨draws, rfl, ascending, below⟩ := holds.draws
  refine List.Nodup.map_on ?_ (ascending.imp fun before => before.ne)
  intro k member other member' same
  exact distinct (below k member) (below other member') (UUID.hex_injective same)

theorem Begun.resolves (holds : Begun o ids begun drawn) :
    (Origin.begun begun).Resolves (ids ++ [(o.uuid4 drawn).hex]) (o.uuid4 drawn).hex := by
  rw [← holds.length]
  exact List.getElem?_concat_length

end Begun

variable [Exceptions ε]

structure Recorded (o : Observability ω ε ν τ) (ids : List String) (block : Block ω ε)
    (span : SpanRecord τ) : Prop where
  trace : block.origin.Resolves ids span.traceId
  name : span.name = block.name
  attributes : span.attributes = block.attributes
  startedAt : span.startedAt = o.utcNow block.entered
  endedAt : span.endedAt = o.utcNow block.left
  error : span.error = o.error block.outcome

theorem Recorded.mono {o : Observability ω ε ν τ} {ids later : List String} {block : Block ω ε}
    {span : SpanRecord τ} (recorded : Recorded o ids block span) (grown : ids <+: later) :
    Recorded o later block span :=
  { recorded with trace := recorded.trace.mono grown }

variable [ClockNumber ν]

def Block.calls (o : Observability ω ε ν τ) (block : Block ω ε) : List (MetricCall ν) :=
  match block.labels with
  | none => []
  | some labels =>
      o.measuredCalls block.name labels block.entered block.left block.outcome

structure Told (o : Observability ω ε ν τ) (ids : List String) (blocks : List (Block ω ε))
    (s t : Observed ω ν τ) : Prop where
  metrics : t.metrics = (blocks.flatMap (Block.calls o)).foldl MetricsRegistry.apply s.metrics
  spans : ∃ added, t.spans = s.spans ++ added ∧ List.Forall₂ (Recorded o ids) blocks added

/-- The run follows the bare program: it ends as that does and has told its blocks, where
`ids` are those of the traces begun before it. -/
def Follows (o : Observability ω ε ν τ) (activity : Activity ω ε) (contexts : List TraceContext)
    (origins : List Origin) (ids : List String) (begun : ℕ) (s : Observed ω ν τ) : Prop :=
  ∃ later t, ids <+: later ∧ Begun o later (activity.blocks origins begun s.world).2 t.drawn ∧
    t.world = (activity.bare s.world).1 ∧
    Told o later (activity.blocks origins begun s.world).1 s t ∧
    activity.run o contexts s = Program.ended (activity.bare s.world).2 t

section Telling
variable {o : Observability ω ε ν τ} {ids later : List String}

theorem Told.mono {blocks : List (Block ω ε)} {s t : Observed ω ν τ}
    (told : Told o ids blocks s t) (grown : ids <+: later) : Told o later blocks s t := by
  obtain ⟨added, spans, each⟩ := told.spans
  exact ⟨told.metrics, added, spans, each.imp fun _ _ recorded => recorded.mono grown⟩

theorem Told.append {blocks more : List (Block ω ε)} {s t u : Observed ω ν τ}
    (first : Told o ids blocks s t) (second : Told o ids more t u) :
    Told o ids (blocks ++ more) s u := by
  obtain ⟨added, spans, each⟩ := first.spans
  obtain ⟨further, spans', each'⟩ := second.spans
  refine ⟨?_, added ++ further, ?_, List.rel_append each each'⟩
  · rw [second.metrics, first.metrics, List.flatMap_append, List.foldl_append]
  · rw [spans', spans, List.append_assoc]

theorem Told.snoc {blocks : List (Block ω ε)} {block : Block ω ε} {s t : Observed ω ν τ}
    {span : SpanRecord τ} (inner : Told o ids blocks s t) (recorded : Recorded o ids block span) :
    Told o ids (blocks ++ [block]) s
      { t with
        metrics := (block.calls o).foldl MetricsRegistry.apply t.metrics
        spans := t.spans ++ [span] } := by
  refine inner.append ⟨?_, [span], rfl, List.Forall₂.cons recorded List.Forall₂.nil⟩
  rw [List.flatMap_singleton]

variable {contexts : List TraceContext} {origins : List Origin} {begun : ℕ}
variable {s : Observed ω ν τ}

theorem Follows.measured {operation : String} {labels : Labels} {body : Activity ω ε}
    (holds : Begun o ids begun s.drawn)
    (inner : Follows o body (o.child none s.drawn :: contexts) (.begun begun :: origins)
      (ids ++ [(o.uuid4 s.drawn).hex]) (begun + 1) { s with drawn := s.drawn + 2 }) :
    Follows o (.measured operation labels body) contexts origins ids begun s := by
  obtain ⟨later, t, grown, begun', world, told, ended⟩ := inner
  refine ⟨later, _, (List.prefix_append _ _).trans grown, ?_, ?_, ?_,
    Observability.measure_of_ended ended⟩
  · exact begun'
  · exact world
  · have recorded : Recorded o later
        ⟨operation, labels.attributes, some labels, .begun begun, s.world,
          (body.bare s.world).1, (body.bare s.world).2⟩
        { traceId := (o.child none s.drawn).traceId
          spanId := (o.child none s.drawn).spanId
          name := operation
          startedAt := o.utcNow s.world
          endedAt := o.utcNow t.world
          attributes := labels.attributes
          error := o.error (body.bare s.world).2 } :=
      ⟨holds.resolves.mono grown, rfl, rfl, rfl, congrArg o.utcNow world, rfl⟩
    have before : Told o later _ s t := ⟨told.metrics, told.spans⟩
    have all := before.snoc recorded
    simp only [Block.calls, ← world] at all
    simp only [blocks, ← world]
    exact all

theorem Follows.traced {name : String} {place : Option ℕ} {attributes : Dict}
    {body : Activity ω ε} {context : Option TraceContext} {origin : Origin}
    {first : List String} {begun' : ℕ}
    (blocks_ : (Activity.traced name place attributes body).blocks origins begun s.world =
      ((body.blocks (origin :: origins) begun' s.world).1 ++
        [⟨name, attributes, none, origin, s.world, (body.bare s.world).1, (body.bare s.world).2⟩],
        (body.blocks (origin :: origins) begun' s.world).2))
    (context_ : (place.bind fun place => contexts[place]?) = context)
    (resolves : origin.Resolves first (o.child context s.drawn).traceId) (grown : ids <+: first)
    (inner : Follows o body (o.child context s.drawn :: contexts) (origin :: origins) first begun'
      { s with drawn := Observability.drawnFor context s.drawn }) :
    Follows o (.traced name place attributes body) contexts origins ids begun s := by
  obtain ⟨later, t, grown', holds, world, told, ended⟩ := inner
  subst context_
  refine ⟨later, _, grown.trans grown', ?_, ?_, ?_,
    Observability.span_of_ended name _ attributes _ ended⟩
  · rw [blocks_]
    exact holds
  · exact world
  · rw [blocks_]
    refine Told.snoc ⟨told.metrics, told.spans⟩
      ⟨resolves.mono grown', rfl, rfl, rfl, congrArg o.utcNow world, rfl⟩

theorem Follows.andThen {first second : Activity ω ε}
    (before : Follows o first contexts origins ids begun s)
    (after : ∀ later begun' t, ids <+: later → Begun o later begun' t.drawn →
      Follows o second contexts origins later begun' t) :
    Follows o (.andThen first second) contexts origins ids begun s := by
  obtain ⟨later, t, grown, holds, world, told, ended⟩ := before
  rcases left : first.bare s.world with ⟨next, exc | ⟨⟩⟩
  · rw [left] at world ended
    refine ⟨later, t, grown, ?_, ?_, ?_, ?_⟩
    · simpa only [blocks, left] using holds
    · simpa only [bare, left] using world
    · simpa only [blocks, left] using told
    · simp only [bare, left]
      exact Program.bind_of_error ended
  · rw [left] at world ended
    obtain ⟨last, u, grown', holds', world', told', ended'⟩ := after later _ t grown holds
    have next_ : t.world = next := world
    rw [next_] at holds' world' told' ended'
    refine ⟨last, u, grown.trans grown', ?_, ?_, ?_, ?_⟩
    · simpa only [blocks, left] using holds'
    · simpa only [bare, left] using world'
    · simpa only [blocks, left] using (told.mono grown').append told'
    · simp only [bare, left]
      exact (Program.bind_of_ok ended).trans ended'

theorem Follows.handling {body : Activity ω ε} {handler : ε → Activity ω ε}
    (before : Follows o body contexts origins ids begun s)
    (after : ∀ exc later begun' t, ids <+: later → Begun o later begun' t.drawn →
      Follows o (handler exc) contexts origins later begun' t) :
    Follows o (.handling body handler) contexts origins ids begun s := by
  obtain ⟨later, t, grown, holds, world, told, ended⟩ := before
  rcases left : body.bare s.world with ⟨next, exc | ⟨⟩⟩
  · rw [left] at world ended
    obtain ⟨last, u, grown', holds', world', told', ended'⟩ := after exc later _ t grown holds
    have next_ : t.world = next := world
    rw [next_] at holds' world' told' ended'
    refine ⟨last, u, grown.trans grown', ?_, ?_, ?_, ?_⟩
    · simpa only [blocks, left] using holds'
    · simpa only [bare, left] using world'
    · simpa only [blocks, left] using (told.mono grown').append told'
    · simp only [bare, left]
      exact (Program.tryCatch_of_error ended).trans ended'
  · rw [left] at world ended
    refine ⟨later, t, grown, ?_, ?_, ?_, ?_⟩
    · simpa only [blocks, left] using holds
    · simpa only [bare, left] using world
    · simpa only [blocks, left] using told
    · simp only [bare, left]
      exact Program.tryCatch_of_ok ended

end Telling

theorem resolved_at {origins : List Origin} {contexts : List TraceContext}
    {resolves : Origin → TraceContext → Prop} (resolved : List.Forall₂ resolves origins contexts)
    (place : ℕ) :
    origins[place]? = none ∧ contexts[place]? = none ∨
      ∃ origin context, origins[place]? = some origin ∧ contexts[place]? = some context ∧
        resolves origin context := by
  induction resolved generalizing place with
  | nil => exact .inl ⟨rfl, rfl⟩
  | cons first _ ih =>
      cases place with
      | zero => exact .inr ⟨_, _, rfl, rfl, first⟩
      | succ place => exact ih place

/-- By the blocks of the program: what is begun in front of a block resolves in it. -/
theorem follows (o : Observability ω ε ν τ) (activity : Activity ω ε) :
    ∀ (contexts : List TraceContext) (origins : List Origin) (ids : List String) (begun : ℕ)
      (s : Observed ω ν τ),
      List.Forall₂ (fun origin (context : TraceContext) => origin.Resolves ids context.traceId)
        origins contexts → Begun o ids begun s.drawn →
      Follows o activity contexts origins ids begun s := by
  induction activity with
  | work call =>
      intro contexts origins ids begun s resolved holds
      exact ⟨ids, { s with world := (call s.world).1 }, List.prefix_refl _, holds, rfl,
        ⟨rfl, [], (List.append_nil _).symm, List.Forall₂.nil⟩, rfl⟩
  | depending choice ih =>
      intro contexts origins ids begun s resolved holds
      exact ih s.world contexts origins ids begun s resolved holds
  | andThen first second ihFirst ihSecond =>
      intro contexts origins ids begun s resolved holds
      refine (ihFirst contexts origins ids begun s resolved holds).andThen ?_
      intro later begun' t grown holds'
      exact ihSecond contexts origins later begun' t
        (resolved.imp fun _ _ resolves => resolves.mono grown) holds'
  | handling body handler ihBody ihHandler =>
      intro contexts origins ids begun s resolved holds
      refine (ihBody contexts origins ids begun s resolved holds).handling ?_
      intro exc later begun' t grown holds'
      exact ihHandler exc contexts origins later begun' t
        (resolved.imp fun _ _ resolves => resolves.mono grown) holds'
  | measured operation labels body ih =>
      intro contexts origins ids begun s resolved holds
      refine Follows.measured holds (ih _ _ _ _ _ ?_ (holds.snoc (by simp)))
      exact List.Forall₂.cons holds.resolves
        (resolved.imp fun _ _ resolves => resolves.mono (List.prefix_append _ _))
  | traced name place attributes body ih =>
      intro contexts origins ids begun s resolved holds
      have fresh : (place.bind fun place => contexts[place]?) = none →
          (place.bind fun place => origins[place]?) = none →
          Follows o (.traced name place attributes body) contexts origins ids begun s := by
        intro context_ origin_
        refine Follows.traced (by simp only [blocks, origin_]) context_ holds.resolves
          (List.prefix_append _ _) (ih _ _ _ _ _ ?_ (holds.snoc (by simp [Observability.drawnFor])))
        exact List.Forall₂.cons holds.resolves
          (resolved.imp fun _ _ resolves => resolves.mono (List.prefix_append _ _))
      cases place with
      | none => exact fresh rfl rfl
      | some place =>
          rcases resolved_at resolved place with ⟨origin_, context_⟩ |
            ⟨origin, context, origin_, context_, resolves⟩
          · exact fresh context_ origin_
          · have context' : ((some place).bind fun place => contexts[place]?) = some context :=
              context_
            have own : origin.Resolves ids (o.child (some context) s.drawn).traceId := by
              rw [Observability.child_traceId]
              exact resolves
            have inner := ih (o.child (some context) s.drawn :: contexts) (origin :: origins) ids
              begun { s with drawn := Observability.drawnFor (some context) s.drawn }
              (List.Forall₂.cons own resolved)
              (holds.more (by simp [Observability.drawnFor]))
            refine Follows.traced ?_ context' own (List.prefix_refl _) inner
            simp only [blocks, Option.bind_some, origin_]

/-! ## What the metrics tell -/

def Block.seconds (o : Observability ω ε ν τ) (operation : String) (labels : Labels)
    (block : Block ω ε) : Option ν :=
  block.labels.bind fun own =>
    if block.name = operation ∧ own.values.Equal labels.values then
      some (ClockNumber.sub (o.monotonic block.left) (o.monotonic block.entered))
    else none

/-- The block is a failure of a measured operation: not a cancellation. -/
def Block.failed (operation : String) (labels : Labels) (block : Block ω ε) : Bool :=
  match block.labels, block.outcome with
  | some own, .error exc =>
      decide (block.name = operation ∧ own.values.Equal labels.values) && Exceptions.isException exc
  | _, _ => false

/-- The metrics say what became of the measured blocks. -/
structure Accounted (o : Observability ω ε ν τ) (blocks : List (Block ω ε))
    (metrics : MetricsRegistry ν) : Prop where
  latencies : ∀ operation labels,
    metrics.histograms.get?
        (key "eis_operation_latency_seconds" (Labels.keywords operation labels)) =
      whole (blocks.filterMap (Block.seconds o operation labels))
  failures : ∀ operation labels,
    metrics.counters.get? (key "eis_failures_total" (Labels.keywords operation labels)) =
      total ((blocks.filter (Block.failed operation labels)).map fun _ => ClockNumber.ofInt 1)

theorem given_latency (o : Observability ω ε ν τ) (operation : String) (labels : Labels)
    (block : Block ω ε) :
    MetricCall.given "eis_operation_latency_seconds" (labels.keywords operation)
        MetricCall.measured (block.calls o) = (block.seconds o operation labels).toList := by
  obtain ⟨name, attributes, own | own, origin, entered, left, exc | ⟨⟩⟩ := block
  · rfl
  · rfl
  · by_cases same : name = operation ∧ own.values.Equal labels.values
    · by_cases caught : Exceptions.isException exc = true <;>
        simp [Block.calls, Block.seconds, Observability.measuredCalls, Observability.failure,
          Observability.latency, MetricCall.measured, Labels.keywords_equal_iff, same, caught]
    · by_cases caught : Exceptions.isException exc = true <;>
        simp [Block.calls, Block.seconds, Observability.measuredCalls, Observability.failure,
          Observability.latency, Labels.keywords_equal_iff, same, caught]
  · by_cases same : name = operation ∧ own.values.Equal labels.values
    · simp [Block.calls, Block.seconds, Observability.measuredCalls,
        Observability.latency, MetricCall.measured, Labels.keywords_equal_iff, same]
    · simp [Block.calls, Block.seconds, Observability.measuredCalls,
        Observability.latency, Labels.keywords_equal_iff, same]

theorem given_failure (o : Observability ω ε ν τ) (operation : String) (labels : Labels)
    (block : Block ω ε) :
    MetricCall.given "eis_failures_total" (labels.keywords operation)
        MetricCall.incremented (block.calls o) =
      (if block.failed operation labels then some (ClockNumber.ofInt 1) else none).toList := by
  obtain ⟨name, attributes, own | own, origin, entered, left, exc | ⟨⟩⟩ := block
  · rfl
  · rfl
  · by_cases same : name = operation ∧ own.values.Equal labels.values
    · by_cases caught : Exceptions.isException exc = true <;>
        simp [Block.calls, Block.failed, Observability.measuredCalls, Observability.failure,
          Observability.latency, MetricCall.incremented, Labels.keywords_equal_iff, same, caught]
    · by_cases caught : Exceptions.isException exc = true <;>
        simp [Block.calls, Block.failed, Observability.measuredCalls, Observability.failure,
          Observability.latency, Labels.keywords_equal_iff, same, caught]
  · simp [Block.calls, Block.failed, Observability.measuredCalls, Observability.latency]

theorem accounted (o : Observability ω ε ν τ) (blocks : List (Block ω ε)) :
    Accounted o blocks (reached (blocks.flatMap (Block.calls o))) := by
  constructor
  case latencies =>
    intro operation labels
    rw [histograms_reached, MetricCall.given_flatMap, List.filterMap_eq_flatMap_toList]
    congr 2
    exact funext (given_latency o operation labels)
  case failures =>
    intro operation labels
    rw [counters_reached, MetricCall.given_flatMap]
    congr 1
    induction blocks with
    | nil => rfl
    | cons first rest ih =>
        rw [List.flatMap_cons, ih, given_failure]
        by_cases failed : first.failed operation labels <;> simp [failed]

/-- Under the facade a program ends as it does without it and leaves the same world.  The
spans are its blocks in the order in which it leaves them, each with the trace that it is
in, and the metrics account for the measured ones. -/
theorem run_observed (o : Observability ω ε ν τ) (activity : Activity ω ε)
    (contexts : List TraceContext) (world : ω) :
    ∃ (t : Observed ω ν τ) (ids : List String),
      activity.run o contexts (Observed.unobserved world) =
        Program.ended (activity.bare world).2 t ∧
      t.world = (activity.bare world).1 ∧
      List.Forall₂ (Recorded o ids)
        (activity.blocks (contexts.map fun context => .given context.traceId) 0 world).1 t.spans ∧
      (Set.InjOn o.uuid4 (Set.Iio t.drawn) → ids.Nodup) ∧
      Accounted o
        (activity.blocks (contexts.map fun context => .given context.traceId) 0 world).1
        t.metrics := by
  have resolved : List.Forall₂ (fun origin (context : TraceContext) =>
      Origin.Resolves [] context.traceId origin)
      (contexts.map fun context => .given context.traceId) contexts := by
    refine List.forall₂_map_left_iff.mpr (List.forall₂_same.mpr fun context _ => rfl)
  have holds : Begun o [] 0 0 := ⟨rfl, [], rfl, List.Pairwise.nil, nofun⟩
  obtain ⟨ids, t, _, begun, world_, told, ended⟩ :=
    follows o activity contexts _ [] 0 (Observed.unobserved world) resolved holds
  obtain ⟨added, spans, each⟩ := told.spans
  refine ⟨t, ids, ended, world_, ?_, fun distinct => begun.nodup distinct, ?_⟩
  · rw [spans]
    exact each
  · rw [told.metrics]
    exact accounted o _

end Activity

end Eis.Observability
