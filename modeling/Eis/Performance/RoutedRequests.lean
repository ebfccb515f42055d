import Eis.Adapters.OpenAICompatible
import Eis.Performance.Routing

/-!
# Routed requests

A structured request is a generation request too, and may reach the router.  The router
hands on a request that names a model as it is, and builds another one in place of a
request that names none.
-/

set_option autoImplicit false

namespace Eis.Performance

open Models Adapters

/-- An instance of `GenerationRequest`: of the class itself or of its subclass. -/
inductive ModelRequest where
  | generation (request : GenerationRequest)
  | structured (request : StructuredGenerationRequest)

namespace ModelRequest

def base : ModelRequest → GenerationRequest
  | .generation request => request
  | .structured request => request.toGenerationRequest

/-- `isinstance(request, StructuredGenerationRequest)` -/
def isStructured : ModelRequest → Bool
  | .generation _ => false
  | .structured _ => true

def schema {χ : Type} : ModelRequest → Except (Raised χ) Dict
  | .generation _ => .error .attributeError
  | .structured request => .ok request.schema

end ModelRequest

/-! ## What the adapter asks a provider for -/

variable (self : OpenAICompatibleModel)

/-- `payload["response_format"]` of `generate_structured` -/
def responseFormat (request : ModelRequest) : Except (Raised ProviderError) Value := do
  let schema ← request.schema
  return .dict [("type", .str "json_schema"),
    ("json_schema", .dict [("name", .str "eis_response"), ("schema", .dict schema.rows)])]

def generateStructured (builtins : Builtins) (client : Client) (request : ModelRequest) :
    Except (Raised ProviderError) StructuredGenerationResponse := do
  let payload := self.chatPayload request.base ++
    [("response_format", ← responseFormat request)]
  let data ← self.post builtins client "/chat/completions" payload request.base.timeout
  let message ← (← (← data.getItem "choices").getFirst).getItem "message"
  let content ← message.get "content" .null
  let parsed ← self.parsed builtins content
  let usage ← builtins.usage (← data.get "usage" .null)
  return {
    data := parsed
    model := self.metadata
    usage := usage
    raw := data
    traceId := request.base.traceId }

/-! ## Routing -/

namespace ModelRouter

variable (router : ModelRouter) (text : Value → String)

def prepareRequest (request : ModelRequest) : ModelRoute × ModelRequest :=
  let route := router.route text request.base
  match explicit request.base with
  | some _ => (route, request)
  | none =>
      (route, .generation {
        prompt := request.base.prompt
        system := request.base.system
        model := some route.model.metadata.model
        temperature := request.base.temperature
        maxTokens := request.base.maxTokens
        tools := request.base.tools
        metadata := request.base.metadata
        timeout := request.base.timeout
        traceId := request.base.traceId })

theorem prepareRequest_explicit {request : ModelRequest} {name : String}
    (asked : explicit request.base = some name) :
    router.prepareRequest text request = (router.route text request.base, request) := by
  unfold prepareRequest
  simp only [asked]

theorem prepareRequest_unasked {request : ModelRequest}
    (unasked : explicit request.base = none) :
    (router.prepareRequest text request).2 =
      .generation { request.base with
        model := some (router.route text request.base).model.metadata.model } := by
  unfold prepareRequest
  simp only [unasked]

theorem prepareRequest_base (request : ModelRequest) :
    ((router.prepareRequest text request).1, (router.prepareRequest text request).2.base) =
      router.prepare text request.base := by
  unfold prepareRequest prepare
  cases explicit request.base <;> rfl

end ModelRouter

/-! ## Frames -/

/-- The routed request is the original but for its model, and structured generation asks
for the same schema with it. -/
structure OnlyModelChanged (request routed : ModelRequest) : Prop where
  type : routed.isStructured = request.isStructured
  fields : routed.base = { request.base with model := routed.base.model }
  schema : (routed.schema : Except (Raised ProviderError) Dict) = request.schema
  asked : responseFormat routed = responseFormat request

theorem OnlyModelChanged.refl (request : ModelRequest) : OnlyModelChanged request request where
  type := rfl
  fields := rfl
  schema := rfl
  asked := rfl

/-- The request names a model, or is not a structured one. -/
def KeepsItsType (request : ModelRequest) : Prop :=
  (∃ name, request.base.model = some name ∧ name ≠ "") ∨ request.isStructured = false

theorem prepareRequest_fields (router : ModelRouter) (text : Value → String)
    (request : ModelRequest) :
    (router.prepareRequest text request).2.base =
      { request.base with model := (router.prepareRequest text request).2.base.model } := by
  have prepared := congrArg Prod.snd (router.prepareRequest_base text request)
  dsimp only at prepared
  rw [prepared]
  unfold ModelRouter.prepare
  cases explicit request.base <;> rfl

/-- For every router and request: routing changes the model alone exactly when the request
names one or is not structured. -/
theorem routing_changes_only_model_iff (router : ModelRouter) (text : Value → String)
    (request : ModelRequest) :
    OnlyModelChanged request (router.prepareRequest text request).2 ↔ KeepsItsType request := by
  cases asked : explicit request.base with
  | some name =>
      rw [router.prepareRequest_explicit text asked]
      exact iff_of_true (.refl request)
        (.inl ⟨name, ModelRouter.explicit_eq_some_iff.mp asked⟩)
  | none =>
      have unnamed : ¬ ∃ name, request.base.model = some name ∧ name ≠ "" := by
        rintro ⟨name, named⟩
        have found := ModelRouter.explicit_eq_some_iff.mpr named
        rw [asked] at found
        cases found
      have rebuilt := router.prepareRequest_unasked text asked
      constructor
      · intro changed
        right
        rw [← changed.type, rebuilt]
        rfl
      · rintro (named | plain)
        · exact absurd named unnamed
        · cases request with
          | structured request => exact Bool.noConfusion plain
          | generation request =>
              refine
                { type := ?type
                  fields := prepareRequest_fields router text (.generation request)
                  schema := ?schema
                  asked := ?asked }
              all_goals
                rw [rebuilt]
                rfl

def invoiceRequest : StructuredGenerationRequest where
  prompt := "p"
  schema := ⟨[("type", .str "object")], List.nodup_singleton _⟩

/-- A structured request without a model comes back without its schema, and structured
generation with it asks nobody. -/
theorem routed_schema_lost :
    (fastRouter.prepareRequest (fun _ => "") (.structured invoiceRequest)).2 =
        .generation { prompt := "p", model := some "gpt-mini" } ∧
      (∀ builtins client, generateStructured exampleModel builtins client
        (fastRouter.prepareRequest (fun _ => "") (.structured invoiceRequest)).2 =
          .error .attributeError) ∧
      ¬ OnlyModelChanged (.structured invoiceRequest)
        (fastRouter.prepareRequest (fun _ => "") (.structured invoiceRequest)).2 := by
  refine ⟨rfl, fun _ _ => rfl, ?_⟩
  intro changed
  exact Bool.noConfusion changed.type

end Eis.Performance
