import Eis.Models.Interfaces

/-!
# Model routing

The router picks the first route that goes by the name that a request asks for, as its
own name or as the id of its model, and hands the request on as it is.
-/

set_option autoImplicit false

namespace Eis.Performance

open Models

structure ModelRoute where
  name : String
  model : Model
  pricePerMillionInput : ℚ := 0
  pricePerMillionOutput : ℚ := 0

structure RoutingPolicy where
  defaultRoute : String
  taskRoutes : OrderedDict String String := Table.empty

/-- A router whose policy speaks of registered routes only. -/
structure ModelRouter where
  routes : OrderedDict String ModelRoute
  policy : RoutingPolicy
  defaultRegistered : (routes.get? policy.defaultRoute).isSome = true
  tasksRegistered : ∀ row ∈ policy.taskRoutes.rows, (routes.get? row.2).isSome = true

/-- The name that a request asks for: `if explicit`. -/
def explicit (request : GenerationRequest) : Option String :=
  request.model.filter fun model => decide (model ≠ "")

/-- `route.model.metadata.model == explicit or route.name == explicit` -/
def ModelRoute.goesBy (route : ModelRoute) (name : String) : Bool :=
  decide (route.model.metadata.model = name) || decide (route.name = name)

namespace ModelRouter

def create (routes : List ModelRoute) (policy : RoutingPolicy) : Except String ModelRouter :=
  let registered := OrderedDict.collect ModelRoute.name id routes
  if default : (registered.get? policy.defaultRoute).isSome = true then
    match unknown : policy.taskRoutes.rows.find? fun row => (registered.get? row.2).isNone with
    | some row => .error ("unknown route: " ++ row.2)
    | none =>
        .ok
          { routes := registered
            policy := policy
            defaultRegistered := default
            tasksRegistered := by
              intro row member
              have known := List.find?_eq_none.mp unknown row member
              rwa [Bool.not_eq_true, Option.isNone_eq_false_iff] at known }
  else .error "default route is not registered"

variable (router : ModelRouter)

def values : List ModelRoute := router.routes.rows.map Prod.snd

/-- `self.policy.task_routes.get(task, self.policy.default_route)` -/
def taskRoute (task : String) : String :=
  (router.policy.taskRoutes.get? task).getD router.policy.defaultRoute

theorem taskRoute_registered (task : String) :
    (router.routes.get? (router.taskRoute task)).isSome = true := by
  unfold taskRoute
  cases found : router.policy.taskRoutes.get? task with
  | none => exact router.defaultRegistered
  | some name =>
      have listed := (router.policy.taskRoutes.get?_eq_some_iff task name).mp found
      exact router.tasksRegistered (task, name) listed

def byTask (text : Value → String) (request : GenerationRequest) : ModelRoute :=
  let task := text ((request.metadata.get? "task_type").getD (.str "general"))
  (router.routes.get? (router.taskRoute task)).get (router.taskRoute_registered task)

def route (text : Value → String) (request : GenerationRequest) : ModelRoute :=
  match explicit request with
  | some name =>
      (router.values.find? fun route => route.goesBy name).getD (router.byTask text request)
  | none => router.byTask text request

def prepare (text : Value → String) (request : GenerationRequest) :
    ModelRoute × GenerationRequest :=
  let route := router.route text request
  match explicit request with
  | some _ => (route, request)
  | none => (route, { request with model := some route.model.metadata.model })

def estimateCost (route : ModelRoute) (inputTokens outputTokens : ℤ) : ℚ :=
  (inputTokens * route.pricePerMillionInput + outputTokens * route.pricePerMillionOutput) /
    1000000

/-! ## Explicit models -/

/-- The request names the model of its route; an explicit model that goes with a registered
route selects such a route, and is sent to no other one. -/
structure Agrees (text : Value → String) (request : GenerationRequest) : Prop where
  named : (router.prepare text request).2.model =
    some (router.prepare text request).1.model.metadata.model
  selected : ∀ name, explicit request = some name →
    (∃ route ∈ router.values, route.goesBy name = true) →
      (router.prepare text request).1 ∈ router.values ∧
        (router.prepare text request).1.goesBy name = true
  elsewhere : ∀ name, explicit request = some name →
    (router.prepare text request).1.goesBy name = true

/-- The first route that goes by the explicit model has it as the id of its model. -/
def IdFirst (request : GenerationRequest) : Prop :=
  ∀ name, explicit request = some name → ∃ before route after,
    router.values = before ++ route :: after ∧ route.model.metadata.model = name ∧
      ∀ other ∈ before, other.goesBy name = false

variable {router} {text : Value → String} {request : GenerationRequest} {name : String}

theorem explicit_eq_some_iff :
    explicit request = some name ↔ request.model = some name ∧ name ≠ "" := by
  unfold explicit
  rw [Option.filter_eq_some_iff, decide_eq_true_eq]

theorem prepare_of_explicit (asked : explicit request = some name) :
    router.prepare text request =
      ((router.values.find? fun route => route.goesBy name).getD (router.byTask text request),
        request) := by
  unfold prepare route
  simp only [asked]

theorem agrees_of_unasked (unasked : explicit request = none) : router.Agrees text request := by
  refine { named := ?named, selected := ?selected, elsewhere := ?elsewhere }
  case named =>
    unfold prepare
    simp only [unasked]
  case selected =>
    intro name asked
    rw [unasked] at asked
    cases asked
  case elsewhere =>
    intro name asked
    rw [unasked] at asked
    cases asked

theorem byTask_registered (router : ModelRouter) (text : Value → String)
    (request : GenerationRequest) : router.byTask text request ∈ router.values := by
  unfold byTask values
  have registered := router.taskRoute_registered
    (text ((request.metadata.get? "task_type").getD (.str "general")))
  have stored := (router.routes.get?_eq_some_iff _ _).mp (Option.some_get registered).symm
  exact List.mem_map_of_mem (f := Prod.snd) stored

theorem selects_registered {found : ModelRoute}
    (asked : explicit request = some name)
    (first : router.values.find? (fun route => route.goesBy name) = some found) :
    (router.prepare text request).1 = found := by
  rw [prepare_of_explicit asked, first]
  rfl

/-- For every router and request: routing and request agree exactly when the request asks
for no model, or for the id of the first route that goes by the name. -/
theorem agrees_iff (router : ModelRouter) (text : Value → String)
    (request : GenerationRequest) : router.Agrees text request ↔ router.IdFirst request := by
  cases asked : explicit request with
  | none =>
      refine iff_of_true (agrees_of_unasked asked) ?_
      intro name asked'
      rw [asked] at asked'
      cases asked'
  | some name =>
      have given := (explicit_eq_some_iff.mp asked).1
      have only : ∀ other, explicit request = some other → other = name :=
        fun other same => Option.some.inj (same.symm.trans asked)
      constructor
      · intro agrees other same
        obtain rfl := only other same
        cases first : router.values.find? fun route => route.goesBy other with
        | none =>
            have goes := agrees.elsewhere other asked
            rw [prepare_of_explicit asked, first] at goes
            have registered := byTask_registered router text request
            exact absurd goes (List.find?_eq_none.mp first _ registered)
        | some found =>
            obtain ⟨_, before, after, split, earlier⟩ := List.find?_eq_some_iff_append.mp first
            have named := agrees.named
            rw [prepare_of_explicit asked, first, given] at named
            exact ⟨before, found, after, split, (Option.some.inj named).symm,
              fun route member => by simpa using earlier route member⟩
      · intro idFirst
        obtain ⟨before, found, after, split, id, earlier⟩ := idFirst name asked
        have goes : found.goesBy name = true := by simp [ModelRoute.goesBy, id]
        have first : router.values.find? (fun route => route.goesBy name) = some found :=
          List.find?_eq_some_iff_append.mpr
            ⟨goes, before, after, split, fun route member => by simp [earlier route member]⟩
        have selects : (router.prepare text request).1 = found := selects_registered asked first
        have registered : found ∈ router.values := by
          rw [split]
          exact List.mem_append_right before List.mem_cons_self
        refine { named := ?named, selected := ?selected, elsewhere := ?elsewhere }
        case named =>
          rw [selects, id, prepare_of_explicit asked]
          exact given
        case selected =>
          intro other same _
          obtain rfl := only other same
          rw [selects]
          exact ⟨registered, goes⟩
        case elsewhere =>
          intro other same
          obtain rfl := only other same
          rw [selects]
          exact goes

end ModelRouter

/-! ### A route asked for by its name, and one that is not registered -/

def fastRoutes : OrderedDict String ModelRoute :=
  ⟨[("fast", { name := "fast", model := ⟨"openai", "gpt-mini"⟩ })], List.nodup_singleton _⟩

def fastRouter : ModelRouter where
  routes := fastRoutes
  policy := { defaultRoute := "fast" }
  defaultRegistered := by decide
  tasksRegistered := by decide

/-- The request for the route keeps the route's name as its model, and the one for an
unknown model goes to the default route. -/
theorem fast_route_not_named :
    ModelRouter.create (fastRoutes.rows.map Prod.snd) { defaultRoute := "fast" } =
        .ok fastRouter ∧
      (fastRouter.prepare (fun _ => "") { prompt := "p", model := some "fast" }).2.model =
        some "fast" ∧
      (fastRouter.prepare (fun _ => "")
        { prompt := "p", model := some "fast" }).1.model.metadata.model = "gpt-mini" ∧
      (fastRouter.prepare (fun _ => "") { prompt := "p", model := some "claude" }).1.name =
        "fast" ∧
      ¬ fastRouter.Agrees (fun _ => "") { prompt := "p", model := some "fast" } ∧
      ¬ fastRouter.Agrees (fun _ => "") { prompt := "p", model := some "claude" } := by
  refine ⟨rfl, rfl, rfl, rfl, ?_, ?_⟩
  · intro agrees
    exact absurd agrees.named (by decide)
  · intro agrees
    exact absurd (agrees.elsewhere "claude" rfl) (by decide)

end Eis.Performance
