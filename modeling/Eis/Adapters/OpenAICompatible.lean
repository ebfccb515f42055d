import Mathlib.Algebra.Order.Group.Unbundled.Abs
import Eis.Foundation.Text
import Eis.Models.Interfaces
import Eis.Models.Policy

/-!
# The adapter for OpenAI-compatible providers

It turns requests into payloads and the answers of a provider into responses.  The
provider may answer with any status, any headers and any JSON.
-/

set_option autoImplicit false

namespace Eis.Adapters

open Eis.Models

/-- A `ModelError`; a `ModelRateLimitError` has a `retry_after` too. -/
structure ProviderError where
  error : ModelError
  retryAfter : Option FloatValue := none

/-- `json.loads`, and `int` and `float` of a text -/
structure Builtins where
  loads : String → Except LoadsError JsonValue
  int : String → Option ℤ
  float : String → Option FloatValue

/-- An answer; `headers` is what `response.headers.get` finds, and `json` what
`response.json()` makes of the body. -/
structure HttpResponse where
  statusCode : ℕ
  headers : String → Option String
  json : Except LoadsError JsonValue

inductive Exchange where
  | answered (response : HttpResponse)
  | timeoutException
  | httpError

inductive Closing where
  | ended
  | timeoutException
  | httpError

inductive StreamExchange where
  | answered (response : HttpResponse) (lines : List String) (closing : Closing)
  | timeoutException
  | httpError

structure Streamed where
  chunks : List JsonValue
  ending : Except (Raised ProviderError) Unit

/-- `client.post` with its url, payload, headers and timeout -/
abbrev Client := String → Value → List (String × String) → ℚ → Exchange

abbrev StreamClient := String → Value → List (String × String) → ℚ → StreamExchange

structure OpenAICompatibleModel where
  provider : String
  baseUrl : String
  apiKey : String
  timeout : ℚ
  metadata : ModelMetadata

variable {χ : Type}

namespace Builtins

variable (builtins : Builtins)

def toInt : JsonValue → Except (Raised χ) ℤ
  | .bool value => .ok (if value then 1 else 0)
  | .int value => .ok value
  | .float (.finite value) => .ok (value.num.tdiv value.den)
  | .float (.infinite _) => .error .overflowError
  | .float .nan => .error .valueError
  | .str text =>
      match builtins.int text with
      | some value => .ok value
      | none => .error .valueError
  | _ => .error .typeError

def toFloat : JsonValue → Except (Raised χ) FloatValue
  | .bool value => .ok (.finite (if value then 1 else 0))
  | .int value =>
      if floatLimit ≤ |(value : ℚ)| then .error .overflowError else .ok (.finite value)
  | .float value => .ok value
  | .str text =>
      match builtins.float text with
      | some value => .ok value
      | none => .error .valueError
  | _ => .error .typeError

def usage : JsonValue → Except (Raised χ) Usage
  | .dict items => do
      let value := JsonValue.dict items
      let promptTokens ← value.get "prompt_tokens" .null
      let givenInput ← value.get "input_tokens" .null
      let inputTokens ← builtins.toInt (promptTokens.orElse (givenInput.orElse (.int 0)))
      let completionTokens ← value.get "completion_tokens" .null
      let givenOutput ← value.get "output_tokens" .null
      let outputTokens ← builtins.toInt (completionTokens.orElse (givenOutput.orElse (.int 0)))
      (Usage.create inputTokens outputTokens (inputTokens + outputTokens) none).mapError
        fun _ => .valueError
  | _ => .ok { costNonnegative := unpriced }

/-- The turn of the comprehension in `generate`. -/
def toolCall (call : JsonValue) : Except (Raised χ) ToolCall := do
  let id ← call.getItem "id"
  let name ← (← call.getItem "function").getItem "name"
  let arguments ← (← call.getItem "function").getItem "arguments"
  let parsed ← JsonValue.loadsFrom builtins.loads arguments
  return { id := id, name := name, arguments := parsed }

/-- The turn of the comprehension in `embed`. -/
def vector (item : JsonValue) : Except (Raised χ) (List FloatValue) := do
  let values ← (← item.getItem "embedding").iterate
  values.mapM builtins.toFloat

def deltaContent (value : String) : Except (Raised χ) (Option JsonValue) := do
  let chunk ← (builtins.loads value).mapError LoadsError.raised
  let choice ← (← chunk.get "choices" (.list [.dict []])).getFirst
  let delta ← choice.get "delta" (.dict [])
  let content ← delta.get "content" .null
  return if content.truthy then some content else none

end Builtins

/-- `line[5:].strip()`, if the line starts with `data:` -/
def dataOf (line : String) : Option String :=
  if "data:".toList <+: line.toList then
    some (Text.strip (String.ofList (line.toList.drop 5)))
  else none

namespace OpenAICompatibleModel

def create (provider baseUrl apiKey model : String) (timeout : ℚ := 60) :
    Except ModelError OpenAICompatibleModel :=
  if baseUrl = "" ∨ model = "" then
    .error
      { kind := .configuration
        message := "base_url and model are required"
        provider := some provider }
  else
    .ok
      { provider := provider
        baseUrl := String.ofList (baseUrl.toList.reverse.dropWhile (· = '/')).reverse
        apiKey := apiKey
        timeout := timeout
        metadata := { provider := provider, model := model } }

variable (self : OpenAICompatibleModel) (builtins : Builtins) (client : Client)

def unavailableError (message : String) : ProviderError where
  error :=
    { kind := .unavailable
      message := message
      provider := some self.provider
      retryable := true }

def validationError (message : String) : ProviderError where
  error := { kind := .validation, message := message, provider := some self.provider }

def rateLimitError (retryAfter : Option FloatValue) : ProviderError where
  error :=
    { kind := .rateLimit
      message := "provider rate limit exceeded"
      provider := some self.provider
      retryable := true }
  retryAfter := retryAfter

/-- `request.model or self.metadata.model` -/
def modelOr (model : Option String) : String :=
  Text.orElse (model.getD "") self.metadata.model

/-- `timeout or self._timeout` -/
def timeoutOr (timeout : Option ℚ) : ℚ :=
  match timeout with
  | none => self.timeout
  | some seconds => if seconds = 0 then self.timeout else seconds

def chatPayload (request : GenerationRequest) : List (String × Value) :=
  let system := request.system.getD ""
  let messages :=
    (if system = "" then []
      else [.dict [("role", .str "system"), ("content", .str system)]]) ++
      [.dict [("role", .str "user"), ("content", .str request.prompt)]]
  let tools := request.tools.map fun tool =>
    .dict [("type", .str "function"), ("function", .dict [("name", .str tool.name),
      ("description", .str tool.description), ("parameters", .dict tool.parameters.rows)])]
  [("model", .str (self.modelOr request.model)), ("messages", .list messages)] ++
    (request.temperature.map fun value => ("temperature", .float value)).toList ++
    (request.maxTokens.map fun value => ("max_tokens", .int value)).toList ++
    if request.tools.isEmpty then [] else [("tools", .list tools)]

def headers : List (String × String) :=
  [("Authorization", "Bearer " ++ self.apiKey), ("Content-Type", "application/json")]

def retryAfter (response : HttpResponse) : Except (Raised ProviderError) (Option FloatValue) :=
  match response.headers "retry-after" with
  | none => .ok none
  | some text =>
      if text = "" then .ok none
      else
        match builtins.float text with
        | some seconds => .ok (some seconds)
        | none => .error .valueError

def raiseForStatus (response : HttpResponse) : Except (Raised ProviderError) Unit :=
  if response.statusCode = 429 then do
    let seconds ← retryAfter builtins response
    .error (.own (self.rateLimitError seconds))
  else if 500 ≤ response.statusCode then
    .error (.own (self.unavailableError
      ("provider returned HTTP " ++ toString response.statusCode)))
  else if 400 ≤ response.statusCode then
    .error (.own (self.validationError
      ("provider returned HTTP " ++ toString response.statusCode)))
  else .ok ()

def post (path : String) (payload : List (String × Value)) (timeout : Option ℚ) :
    Except (Raised ProviderError) JsonValue :=
  match client (self.baseUrl ++ path) (.dict payload) self.headers (self.timeoutOr timeout) with
  | .timeoutException => .error (.own (self.unavailableError "provider request timed out"))
  | .httpError => .error (.own (self.unavailableError "provider request failed"))
  | .answered response => do
      self.raiseForStatus builtins response
      let data ← response.json.mapError LoadsError.raised
      match data with
      | .dict items => .ok (.dict items)
      | _ => .error (.own (self.validationError "provider returned an invalid response body"))

def generate (request : GenerationRequest) :
    Except (Raised ProviderError) GenerationResponse := do
  let payload := self.chatPayload request
  let data ← self.post builtins client "/chat/completions" payload request.timeout
  let choice ← (← data.getItem "choices").getFirst
  let message ← choice.getItem "message"
  let calls ← (← (← message.get "tool_calls" (.list [])).iterate).mapM builtins.toolCall
  let content ← message.get "content" .null
  let usage ← builtins.usage (← data.get "usage" .null)
  return {
    text := content.orElse (.str "")
    model := self.metadata
    usage := usage
    toolCalls := calls
    raw := data
    traceId := request.traceId }

def parsed (content : JsonValue) :
    Except (Raised ProviderError) (List (String × JsonValue)) :=
  match JsonValue.loadsFrom builtins.loads (content.orElse (.str "\x7b\x7d")) with
  | .error .jsonDecodeError =>
      .error (.own (self.validationError "provider returned invalid structured JSON"))
  | .error exc => .error exc
  | .ok (.dict parsed) => .ok parsed
  | .ok _ => .error (.own (self.validationError "structured response must be a JSON object"))

def generateStructured (request : StructuredGenerationRequest) :
    Except (Raised ProviderError) StructuredGenerationResponse := do
  let payload := self.chatPayload request.toGenerationRequest ++
    [("response_format", .dict [("type", .str "json_schema"),
      ("json_schema", .dict [("name", .str "eis_response"),
        ("schema", .dict request.schema.rows)])])]
  let data ← self.post builtins client "/chat/completions" payload request.timeout
  let message ← (← (← data.getItem "choices").getFirst).getItem "message"
  let content ← message.get "content" .null
  let parsed ← self.parsed builtins content
  let usage ← builtins.usage (← data.get "usage" .null)
  return {
    data := parsed
    model := self.metadata
    usage := usage
    raw := data
    traceId := request.traceId }

def embed (request : EmbeddingRequest) : Except (Raised ProviderError) EmbeddingResponse := do
  let payload : List (String × Value) :=
    [("model", .str (self.modelOr request.model)), ("input", .list (request.texts.map .str))]
  let data ← self.post builtins client "/embeddings" payload request.timeout
  let vectors ← (← (← data.getItem "data").iterate).mapM builtins.vector
  let usage ← builtins.usage (← data.get "usage" .null)
  return {
    vectors := vectors
    model := self.metadata
    usage := usage
    traceId := request.traceId }

/-- The loop over the lines; `closing` is what happens behind the last one. -/
def streamLines (closing : Except (Raised ProviderError) Unit) : List String → Streamed
  | [] => ⟨[], closing⟩
  | line :: rest =>
      match dataOf line with
      | none => streamLines closing rest
      | some value =>
          if value = "[DONE]" then ⟨[], .ok ()⟩
          else
            match builtins.deltaContent value with
            | .error exc => ⟨[], .error exc⟩
            | .ok none => streamLines closing rest
            | .ok (some content) =>
                let later := streamLines closing rest
                { later with chunks := content :: later.chunks }

/-- `stream`, run to its end by its consumer. -/
def stream (client : StreamClient) (request : GenerationRequest) : Streamed :=
  let payload := self.chatPayload request ++ [("stream", .bool true)]
  match client (self.baseUrl ++ "/chat/completions") (.dict payload) self.headers
      (self.timeoutOr request.timeout) with
  | .timeoutException => ⟨[], .error (.own (self.unavailableError "stream request timed out"))⟩
  | .httpError => ⟨[], .error (.own (self.unavailableError "provider request failed"))⟩
  | .answered response lines closing =>
      match self.raiseForStatus builtins response with
      | .error exc => ⟨[], .error exc⟩
      | .ok _ =>
          let behind := match closing with
            | .ended => .ok ()
            | .timeoutException =>
                .error (.own (self.unavailableError "stream request timed out"))
            | .httpError => .error (.own (self.unavailableError "provider request failed"))
          streamLines builtins behind lines

end OpenAICompatibleModel

def exampleModel : OpenAICompatibleModel where
  provider := "openrouter"
  baseUrl := "https://example.test/v1"
  apiKey := "secret"
  timeout := 60
  metadata := ⟨"openrouter", "example-model"⟩

end Eis.Adapters
