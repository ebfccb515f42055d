import Mathlib.Algebra.Order.Ring.Rat
import Eis.Foundation.JsonValue
import Eis.Foundation.Value

/-!
# Requests, responses and errors of a model

What the reliability layer reads of them.  A response is its usage and a body
that the layer only passes on, whichever of the three operations it answers.
-/

set_option autoImplicit false

namespace Eis.Models

structure Usage where
  inputTokens : ℕ := 0
  outputTokens : ℕ := 0
  totalTokens : ℕ := 0
  estimatedCost : Option ℚ := none
  costNonnegative : ∀ cost ∈ estimatedCost, 0 ≤ cost

theorem unpriced : ∀ cost ∈ (none : Option ℚ), 0 ≤ cost := by simp

/-- `Usage(...)` with its `__post_init__` -/
def Usage.create (inputTokens outputTokens totalTokens : ℤ) (estimatedCost : Option ℚ) :
    Except String Usage :=
  if min (min inputTokens outputTokens) totalTokens < 0 then
    .error "token counts cannot be negative"
  else if valid : ∀ cost ∈ estimatedCost, 0 ≤ cost then
    .ok
      { inputTokens := inputTokens.toNat
        outputTokens := outputTokens.toNat
        totalTokens := totalTokens.toNat
        estimatedCost := estimatedCost
        costNonnegative := valid }
  else .error "estimated_cost cannot be negative"

/-- `usage.estimated_cost or 0.0` -/
def Usage.cost (usage : Usage) : ℚ := usage.estimatedCost.getD 0

structure ModelMetadata where
  provider : String
  model : String

/-- The protocol `Model`, as far as it is asked who it is. -/
structure Model where
  metadata : ModelMetadata

structure ToolDefinition where
  name : String
  description : String
  parameters : Dict

structure GenerationRequest where
  prompt : String
  system : Option String := none
  model : Option String := none
  temperature : Option ℚ := none
  maxTokens : Option ℤ := none
  tools : List ToolDefinition := []
  metadata : Dict := Table.empty
  timeout : Option ℚ := none
  traceId : Option String := none

structure StructuredGenerationRequest extends GenerationRequest where
  schema : Dict := Table.empty

structure EmbeddingRequest where
  texts : List String
  model : Option String := none
  metadata : Dict := Table.empty
  timeout : Option ℚ := none
  traceId : Option String := none

/-- Nothing checks that the id and the name are texts, or the arguments an object. -/
structure ToolCall where
  id : JsonValue
  name : JsonValue
  arguments : JsonValue

structure GenerationResponse where
  text : JsonValue
  model : ModelMetadata
  usage : Usage
  toolCalls : List ToolCall := []
  raw : JsonValue := .null
  traceId : Option String := none

structure StructuredGenerationResponse where
  data : List (String × JsonValue)
  model : ModelMetadata
  usage : Usage
  raw : JsonValue := .null
  traceId : Option String := none

structure EmbeddingResponse where
  vectors : List (List FloatValue)
  model : ModelMetadata
  usage : Usage
  traceId : Option String := none

structure Request where
  traceId : Option String

structure Response (β : Type) where
  body : β
  usage : Usage

inductive ModelErrorKind where
  | model
  | configuration
  | validation
  | timeout
  | rateLimit
  | unavailable
deriving DecidableEq

structure ModelError where
  kind : ModelErrorKind
  message : String
  provider : Option String := none
  retryable : Bool := false
deriving DecidableEq

inductive Operation where
  | generate
  | generateStructured
  | embed
deriving DecidableEq

def Operation.name : Operation → String
  | .generate => "generate"
  | .generateStructured => "generate_structured"
  | .embed => "embed"

end Eis.Models
