import Eis.Adapters.OpenAICompatible

/-!
# Failures of a provider

Whether an operation ends with a response or a `ModelError` depends on what the provider
answers: the lookups in its JSON and the conversions of its numbers are not guarded.
-/

set_option autoImplicit false

namespace Eis.Adapters

open Eis.Models

variable {χ : Type}

/-! ## What a readable answer looks like -/

namespace Builtins

variable (builtins : Builtins)

def IsCount : JsonValue → Prop
  | .bool _ => True
  | .int value => 0 ≤ value
  | .float (.finite value) => -1 < value
  | .str text => ∃ value, builtins.int text = some value ∧ 0 ≤ value
  | _ => False

def IsNumber : JsonValue → Prop
  | .bool _ => True
  | .int value => |(value : ℚ)| < floatLimit
  | .float _ => True
  | .str text => ∃ value, builtins.float text = some value
  | _ => False

/-- The number of tokens that is reported under either name, if it is and not zero. -/
def reported (usage : List (String × JsonValue)) (name other : String) : Option JsonValue :=
  ((usage.lookup name).filter JsonValue.truthy).or ((usage.lookup other).filter JsonValue.truthy)

def UsageReadable (body : List (String × JsonValue)) : Prop :=
  ∀ usage, body.lookup "usage" = some (.dict usage) →
    (∀ value ∈ reported usage "prompt_tokens" "input_tokens", builtins.IsCount value) ∧
      ∀ value ∈ reported usage "completion_tokens" "output_tokens", builtins.IsCount value

structure IsToolCall (call : JsonValue) : Prop where
  id : ∃ id, call.field "id" = some id
  function : ∃ function text arguments, call.field "function" = some function ∧
    (∃ name, function.field "name" = some name) ∧
    function.field "arguments" = some (.str text) ∧ builtins.loads text = .ok arguments

def IsVector (item : JsonValue) : Prop :=
  ∃ vector values, item.field "embedding" = some vector ∧ vector.items = some values ∧
    ∀ value ∈ values, builtins.IsNumber value

end Builtins

def FirstMessage (body message : List (String × JsonValue)) : Prop :=
  ∃ choice rest, body.lookup "choices" = some (.list (choice :: rest)) ∧
    choice.field "message" = some (.dict message)

namespace Builtins

variable (builtins : Builtins)

def GenerationReadable (body : List (String × JsonValue)) : Prop :=
  ∃ message, FirstMessage body message ∧
    (∀ calls, message.lookup "tool_calls" = some calls →
      ∃ items, calls.items = some items ∧ ∀ call ∈ items, builtins.IsToolCall call) ∧
    builtins.UsageReadable body

/-- The content is a text, and `json.loads` has nothing against it save that it may be no
JSON. -/
def StructuredReadable (body : List (String × JsonValue)) : Prop :=
  ∃ message text, FirstMessage body message ∧
    ((message.lookup "content").getD .null).orElse (.str "\x7b\x7d") = .str text ∧
    builtins.loads text ≠ .error .valueError ∧ builtins.loads text ≠ .error .recursionError ∧
    ((∃ items, builtins.loads text = .ok (.dict items)) → builtins.UsageReadable body)

def EmbeddingsReadable (body : List (String × JsonValue)) : Prop :=
  (∃ data items, body.lookup "data" = some data ∧ data.items = some items ∧
    ∀ item ∈ items, builtins.IsVector item) ∧ builtins.UsageReadable body

/-! ## Conversions -/

theorem tdiv_nonneg_iff (n : ℤ) {d : ℕ} (positive : 0 < d) : 0 ≤ n.tdiv d ↔ -(d : ℤ) < n := by
  rcases le_or_gt 0 n with nonneg | negative
  · have quotient : 0 ≤ n.tdiv d := Int.tdiv_nonneg nonneg (by omega)
    omega
  · obtain ⟨m, rfl⟩ : ∃ m : ℕ, n = -(m : ℤ) := ⟨n.natAbs, by omega⟩
    have small : m / d = 0 ↔ m < d := Nat.div_eq_zero_iff_lt positive
    rw [Int.neg_tdiv, ← Int.ofNat_tdiv]
    generalize m / d = quotient at small ⊢
    omega

theorem truncated_nonneg_iff (q : ℚ) : 0 ≤ q.num.tdiv q.den ↔ -1 < q := by
  have positive : (0 : ℚ) < q.den := by exact_mod_cast q.den_pos
  rw [tdiv_nonneg_iff q.num q.den_pos, ← mul_lt_mul_iff_of_pos_right positive,
    Rat.mul_den_eq_num, neg_one_mul]
  exact_mod_cast Iff.rfl

theorem plain_toInt (value : JsonValue) : Plain (builtins.toInt value : Except (Raised χ) ℤ) := by
  intro error
  unfold toInt
  repeat' split
  all_goals exact nofun

theorem plain_toFloat (value : JsonValue) :
    Plain (builtins.toFloat value : Except (Raised χ) FloatValue) := by
  intro error
  unfold toFloat
  repeat' split
  all_goals exact nofun

theorem toInt_nonneg_iff (value : JsonValue) :
    (∃ count, (builtins.toInt value : Except (Raised χ) ℤ) = .ok count ∧ 0 ≤ count) ↔
      builtins.IsCount value := by
  cases value with
  | bool value => cases value <;> simp [toInt, IsCount]
  | float value =>
      cases value with
      | finite q => simp [toInt, IsCount, truncated_nonneg_iff]
      | infinite negative => simp [toInt, IsCount]
      | nan => simp [toInt, IsCount]
  | str text =>
      simp only [toInt, IsCount]
      cases builtins.int text <;> simp
  | null | int value | list items | dict items => simp [toInt, IsCount]

theorem handled_toFloat_iff (value : JsonValue) :
    Handled (builtins.toFloat value : Except (Raised χ) FloatValue) ↔ builtins.IsNumber value := by
  rw [(builtins.plain_toFloat value).handled_iff]
  cases value with
  | int value =>
      simp only [toFloat, IsNumber]
      by_cases large : floatLimit ≤ |(value : ℚ)|
      · simp [large]
      · simp [large, not_le.mp large]
  | str text =>
      simp only [toFloat, IsNumber]
      cases builtins.float text <;> simp
  | null | bool value | float value | list items | dict items => simp [toFloat, IsNumber]

theorem isCount_orElse_iff (usage : List (String × JsonValue)) (name other : String) :
    builtins.IsCount (((usage.lookup name).getD .null).orElse
        (((usage.lookup other).getD .null).orElse (.int 0))) ↔
      ∀ value ∈ reported usage name other, builtins.IsCount value := by
  have picked : ∀ (found : Option JsonValue) (rest : JsonValue),
      (found.getD .null).orElse rest = (found.filter JsonValue.truthy).getD rest := by
    intro found rest
    cases found with
    | none => rfl
    | some value =>
        cases truthy : value.truthy <;> simp [JsonValue.orElse, Option.filter, truthy]
  rw [picked, picked, reported]
  cases (usage.lookup name).filter JsonValue.truthy with
  | some value => simp
  | none =>
      cases (usage.lookup other).filter JsonValue.truthy with
      | some value => simp
      | none => simp [IsCount]

theorem handled_create_iff (input output : ℤ) :
    Handled ((Usage.create input output (input + output) none).mapError
        fun _ => (.valueError : Raised χ)) ↔ 0 ≤ input ∧ 0 ≤ output := by
  unfold Usage.create
  by_cases negative : min (min input output) (input + output) < 0
  · have refused : Plain (.error .valueError : Except (Raised χ) Usage) := nofun
    rw [if_pos negative]
    simp only [Except.mapError, refused.not_handled, false_iff]
    omega
  · rw [if_neg negative, dif_pos (by simp)]
    simp only [Except.mapError, handled_ok, true_iff]
    omega

theorem handled_usage_iff (value : JsonValue) :
    Handled (builtins.usage value : Except (Raised χ) Usage) ↔
      ∀ usage, value = .dict usage →
        (∀ count ∈ reported usage "prompt_tokens" "input_tokens", builtins.IsCount count) ∧
          ∀ count ∈ reported usage "completion_tokens" "output_tokens",
            builtins.IsCount count := by
  cases value with
  | dict usage =>
      simp only [Builtins.usage, JsonValue.handled_get_bind, (builtins.plain_toInt _).handled_bind,
        handled_create_iff, JsonValue.field, JsonValue.dict.injEq, forall_eq', exists_eq', true_and]
      rw [← isCount_orElse_iff, ← isCount_orElse_iff, ← builtins.toInt_nonneg_iff (χ := χ),
        ← builtins.toInt_nonneg_iff (χ := χ)]
      constructor
      · rintro ⟨input, counted, output, other, positive, nonneg⟩
        exact ⟨⟨input, counted, positive⟩, output, other, nonneg⟩
      · rintro ⟨⟨input, counted, positive⟩, output, other, nonneg⟩
        exact ⟨input, counted, output, other, positive, nonneg⟩
  | null | bool _ | int _ | float _ | str _ | list _ => simp [Builtins.usage]

/-! ## Loops -/

theorem plain_toolCall (call : JsonValue) :
    Plain (builtins.toolCall call : Except (Raised χ) ToolCall) := by
  unfold toolCall
  refine JsonValue.plain_getItem.bind fun id => JsonValue.plain_getItem.bind fun function =>
    JsonValue.plain_getItem.bind fun name => JsonValue.plain_getItem.bind fun function =>
    JsonValue.plain_getItem.bind fun arguments =>
    (JsonValue.plain_loadsFrom builtins.loads).bind fun parsed => plain_pure _

theorem handled_toolCall_iff (call : JsonValue) :
    Handled (builtins.toolCall call : Except (Raised χ) ToolCall) ↔ builtins.IsToolCall call := by
  simp only [toolCall, JsonValue.handled_getItem_bind,
    (JsonValue.plain_loadsFrom builtins.loads).handled_bind, JsonValue.loadsFrom_eq_ok_iff,
    handled_pure, and_true]
  constructor
  · rintro ⟨id, identified, function, given, name, named, _, again, _, found, parsed, text, rfl,
      loaded⟩
    obtain rfl := Option.some.inj (given.symm.trans again)
    exact ⟨⟨id, identified⟩, function, text, parsed, given, ⟨name, named⟩, found, loaded⟩
  · rintro ⟨⟨id, identified⟩, function, text, parsed, given, ⟨name, named⟩, found, loaded⟩
    exact ⟨id, identified, function, given, name, named, function, given, .str text, found, parsed,
      text, rfl, loaded⟩

theorem plain_vector (item : JsonValue) :
    Plain (builtins.vector item : Except (Raised χ) (List FloatValue)) := by
  unfold vector
  exact JsonValue.plain_getItem.bind fun vector => JsonValue.plain_iterate.bind fun values =>
    plain_mapM builtins.plain_toFloat values

theorem handled_vector_iff (item : JsonValue) :
    Handled (builtins.vector item : Except (Raised χ) (List FloatValue)) ↔
      builtins.IsVector item := by
  simp only [vector, IsVector, JsonValue.handled_getItem_bind, JsonValue.handled_iterate_bind,
    handled_mapM builtins.plain_toFloat, handled_toFloat_iff]
  constructor
  · rintro ⟨vector, found, values, iterated, numbers⟩
    exact ⟨vector, values, found, iterated, numbers⟩
  · rintro ⟨vector, values, found, iterated, numbers⟩
    exact ⟨vector, found, values, iterated, numbers⟩

theorem plain_usage (value : JsonValue) :
    Plain (builtins.usage value : Except (Raised χ) Usage) := by
  cases value with
  | dict items =>
      refine JsonValue.plain_get.bind fun promptTokens => JsonValue.plain_get.bind fun given =>
        (builtins.plain_toInt _).bind fun input => JsonValue.plain_get.bind fun completion =>
        JsonValue.plain_get.bind fun given => (builtins.plain_toInt _).bind fun output => ?_
      intro error
      cases Usage.create input output (input + output) none <;> exact nofun
  | null | bool _ | int _ | float _ | str _ | list _ => exact nofun

theorem handled_usage_bind {α : Type} (body : List (String × JsonValue)) (response : Usage → α) :
    Handled (do
      let usage ← builtins.usage (((JsonValue.dict body).field "usage").getD .null)
      return response usage : Except (Raised χ) α) ↔ builtins.UsageReadable body := by
  simp only [(builtins.plain_usage _).handled_bind, handled_pure, and_true,
    ← (builtins.plain_usage _).handled_iff, handled_usage_iff, JsonValue.field, UsageReadable]
  cases body.lookup "usage" <;> simp

theorem returns_toolCalls_iff (calls : Option JsonValue) :
    (∃ items, (calls.getD (.list [])).items = some items ∧ ∃ parsed,
      (items.mapM builtins.toolCall : Except (Raised χ) (List ToolCall)) = .ok parsed) ↔
      ∀ value, calls = some value →
        ∃ items, value.items = some items ∧ ∀ call ∈ items, builtins.IsToolCall call := by
  simp only [← (plain_mapM builtins.plain_toolCall _).handled_iff,
    handled_mapM builtins.plain_toolCall, handled_toolCall_iff]
  cases calls with
  | none => simp [JsonValue.items]
  | some value => simp

end Builtins

theorem firstMessage_iff (body : List (String × JsonValue)) (motive : JsonValue → Prop) :
    (∃ choices, (JsonValue.dict body).field "choices" = some choices ∧
      ∃ choice, choices.first = some choice ∧
        ∃ message, choice.field "message" = some message ∧
          (∃ items, message = .dict items) ∧ motive message) ↔
      ∃ message, FirstMessage body message ∧ motive (.dict message) := by
  constructor
  · rintro ⟨choices, found, choice, first, _, given, ⟨message, rfl⟩, held⟩
    cases choices with
    | list items =>
        obtain ⟨rest, rfl⟩ : ∃ rest, items = choice :: rest := List.head?_eq_some_iff.mp first
        exact ⟨message, ⟨choice, rest, found, given⟩, held⟩
    | str text =>
        -- the first character of a text has no items
        obtain ⟨c, _, rfl⟩ := Option.map_eq_some_iff.mp first
        cases given
    | null | bool _ | int _ | float _ | dict _ => cases first
  · rintro ⟨message, ⟨choice, rest, found, given⟩, held⟩
    exact ⟨_, found, choice, rfl, _, given, ⟨message, rfl⟩, held⟩

/-! ## Operations -/

def answering (response : HttpResponse) : Client := fun _ _ _ _ => .answered response

/-- The operation returns a response or raises a `ModelError`, for status 429 a
`ModelRateLimitError`. -/
structure Structured {α : Type} (statusCode : ℕ) (outcome : Except (Raised ProviderError) α) :
    Prop where
  handled : Handled outcome
  rateLimited : statusCode = 429 →
    ∃ error, outcome = .error (.own error) ∧ error.error.kind = .rateLimit

/-- For status 429 a `retry-after` that is given is a number; a body is readable where there
is no error status. -/
def Answered (builtins : Builtins) (statusCode : ℕ) (headers : String → Option String)
    (readable : Prop) : Prop :=
  if statusCode = 429 then
    ∀ text, headers "retry-after" = some text →
      text = "" ∨ ∃ seconds, builtins.float text = some seconds
  else statusCode < 400 → readable

namespace OpenAICompatibleModel

variable (self : OpenAICompatibleModel) (builtins : Builtins)

theorem retryAfter_cases (response : HttpResponse) :
    (∃ seconds, retryAfter builtins response = .ok seconds) ∧
        (∀ text, response.headers "retry-after" = some text →
          text = "" ∨ ∃ seconds, builtins.float text = some seconds) ∨
      retryAfter builtins response = .error .valueError ∧
        ¬ ∀ text, response.headers "retry-after" = some text →
          text = "" ∨ ∃ seconds, builtins.float text = some seconds := by
  unfold retryAfter
  cases response.headers "retry-after" with
  | none => simp
  | some text =>
      by_cases blank : text = ""
      · simp [blank]
      · cases parsed : builtins.float text <;> simp [blank, parsed]

section Post
variable (path : String) (payload : List (String × Value)) (timeout : Option ℚ)
  (headers : String → Option String) (body : List (String × JsonValue))

theorem post_answering (statusCode : ℕ) :
    self.post builtins (answering ⟨statusCode, headers, .ok (.dict body)⟩) path payload timeout =
      (self.raiseForStatus builtins ⟨statusCode, headers, .ok (.dict body)⟩ >>= fun _ =>
        .ok (.dict body)) := rfl

theorem structured_post_bind {α : Type} (statusCode : ℕ)
    (rest : JsonValue → Except (Raised ProviderError) α) :
    Structured statusCode
        (self.post builtins (answering ⟨statusCode, headers, .ok (.dict body)⟩) path payload
          timeout >>= rest) ↔
      Answered builtins statusCode headers (Handled (rest (.dict body))) := by
  rw [post_answering, raiseForStatus, Answered]
  by_cases limited : statusCode = 429
  · simp only [if_pos limited]
    rcases retryAfter_cases builtins ⟨statusCode, headers, .ok (.dict body)⟩ with
      ⟨⟨seconds, given⟩, numeric⟩ | ⟨refused, unreadable⟩
    · rw [given]
      refine iff_of_true ⟨handled_own _, fun _ => ⟨_, rfl, rfl⟩⟩ numeric
    · rw [refused]
      refine iff_of_false (fun structured => ?_) unreadable
      obtain ⟨error, own⟩ := structured.handled _ rfl
      cases own
  · simp only [if_neg limited]
    by_cases failed : 400 ≤ statusCode
    · have reported : ∀ readable : Prop, statusCode < 400 → readable := by
        intro readable fine
        omega
      refine iff_of_true ⟨?_, fun same => absurd same limited⟩ (reported _)
      by_cases unavailable : 500 ≤ statusCode
      · rw [if_pos unavailable]
        exact handled_own _
      · rw [if_neg unavailable, if_pos failed]
        exact handled_own _
    · have unavailable : ¬ 500 ≤ statusCode := by omega
      rw [if_neg unavailable, if_neg failed]
      constructor
      · intro structured _
        exact structured.handled
      · intro handled
        exact ⟨handled (not_le.mp failed), fun same => absurd same limited⟩

end Post

theorem handled_generate_rest (body : List (String × JsonValue))
    (response : List ToolCall → JsonValue → Usage → GenerationResponse) :
    Handled (do
      let choice ← (← (JsonValue.dict body).getItem "choices").getFirst
      let message ← choice.getItem "message"
      let calls ← (← (← message.get "tool_calls" (.list [])).iterate).mapM builtins.toolCall
      let content ← message.get "content" .null
      let usage ← builtins.usage (← (JsonValue.dict body).get "usage" .null)
      return response calls content usage : Except (Raised ProviderError) GenerationResponse) ↔
    builtins.GenerationReadable body := by
  simp only [JsonValue.handled_getItem_bind, JsonValue.handled_getFirst_bind,
    JsonValue.handled_get_bind, JsonValue.handled_iterate_bind,
    (plain_mapM builtins.plain_toolCall _).handled_bind, builtins.handled_usage_bind]
  refine (firstMessage_iff body _).trans (exists_congr fun message => and_congr_right fun _ => ?_)
  simp only [JsonValue.dict.injEq, exists_eq', true_and, ← and_assoc, exists_and_right]
  rw [← builtins.returns_toolCalls_iff (χ := ProviderError), and_congr_left_iff]
  exact fun _ => Iff.rfl

theorem parsed_eq_ok_iff (content : JsonValue) (items : List (String × JsonValue)) :
    self.parsed builtins content = .ok items ↔
      ∃ text, content.orElse (.str "\x7b\x7d") = .str text ∧
        builtins.loads text = .ok (.dict items) := by
  unfold parsed
  cases content.orElse (.str "\x7b\x7d") with
  | str text =>
      rcases loaded : builtins.loads text with (_ | _ | _) | value
      · simp [JsonValue.loadsFrom, loaded, Except.mapError, LoadsError.raised]
      · simp [JsonValue.loadsFrom, loaded, Except.mapError, LoadsError.raised]
      · simp [JsonValue.loadsFrom, loaded, Except.mapError, LoadsError.raised]
      · cases value <;> simp [JsonValue.loadsFrom, loaded, Except.mapError]
  | null | bool _ | int _ | float _ | list _ | dict _ => simp [JsonValue.loadsFrom]

theorem handled_parsed_iff (content : JsonValue) :
    Handled (self.parsed builtins content) ↔
      ∃ text, content.orElse (.str "\x7b\x7d") = .str text ∧
        builtins.loads text ≠ .error .valueError ∧
        builtins.loads text ≠ .error .recursionError := by
  unfold parsed
  cases content.orElse (.str "\x7b\x7d") with
  | str text =>
      rcases loaded : builtins.loads text with (_ | _ | _) | value
      · simp [JsonValue.loadsFrom, loaded, Except.mapError, LoadsError.raised]
      · simp [JsonValue.loadsFrom, loaded, Except.mapError, LoadsError.raised, Handled]
      · simp [JsonValue.loadsFrom, loaded, Except.mapError, LoadsError.raised, Handled]
      · cases value <;> simp [JsonValue.loadsFrom, loaded, Except.mapError]
  | null | bool _ | int _ | float _ | list _ | dict _ => simp [JsonValue.loadsFrom, Handled]

theorem handled_structured_rest (body : List (String × JsonValue))
    (response : List (String × JsonValue) → Usage → StructuredGenerationResponse) :
    Handled (do
      let message ← (← (← (JsonValue.dict body).getItem "choices").getFirst).getItem "message"
      let content ← message.get "content" .null
      let parsed ← self.parsed builtins content
      let usage ← builtins.usage (← (JsonValue.dict body).get "usage" .null)
      return response parsed usage :
        Except (Raised ProviderError) StructuredGenerationResponse) ↔
    builtins.StructuredReadable body := by
  simp only [JsonValue.handled_getItem_bind, JsonValue.handled_getFirst_bind,
    JsonValue.handled_get_bind, handled_bind_iff (x := self.parsed builtins _),
    builtins.handled_usage_bind, handled_parsed_iff, parsed_eq_ok_iff]
  refine (firstMessage_iff body _).trans (exists_congr fun message => ?_)
  simp only [JsonValue.dict.injEq, exists_eq', true_and, JsonValue.field]
  constructor
  · rintro ⟨first, ⟨text, content, decoded⟩, rest⟩
    refine ⟨text, first, content, decoded.1, decoded.2, ?_⟩
    rintro ⟨items, loaded⟩
    exact rest items ⟨text, content, loaded⟩
  · rintro ⟨text, first, content, decoded, shallow, rest⟩
    refine ⟨first, ⟨text, content, decoded, shallow⟩, ?_⟩
    rintro items ⟨other, again, loaded⟩
    obtain rfl := JsonValue.str.inj (content.symm.trans again)
    exact rest ⟨items, loaded⟩

theorem handled_embed_rest (body : List (String × JsonValue))
    (response : List (List FloatValue) → Usage → EmbeddingResponse) :
    Handled (do
      let vectors ← (← (← (JsonValue.dict body).getItem "data").iterate).mapM builtins.vector
      let usage ← builtins.usage (← (JsonValue.dict body).get "usage" .null)
      return response vectors usage : Except (Raised ProviderError) EmbeddingResponse) ↔
    builtins.EmbeddingsReadable body := by
  simp only [JsonValue.handled_getItem_bind, JsonValue.handled_iterate_bind,
    JsonValue.handled_get_bind, (plain_mapM builtins.plain_vector _).handled_bind,
    builtins.handled_usage_bind, JsonValue.dict.injEq, exists_eq', true_and, exists_and_right,
    ← (plain_mapM builtins.plain_vector _).handled_iff, handled_mapM builtins.plain_vector,
    builtins.handled_vector_iff, Builtins.EmbeddingsReadable]
  constructor
  · rintro ⟨data, found, items, iterated, vectors, usage⟩
    exact ⟨⟨data, items, found, iterated, vectors⟩, usage⟩
  · rintro ⟨⟨data, items, found, iterated, vectors⟩, usage⟩
    exact ⟨data, found, items, iterated, vectors, usage⟩

/-- For every answer whose body is an object, each operation ends with a response or a
`ModelError` exactly when the answer is readable for it. -/
theorem failures_structured_iff (statusCode : ℕ) (headers : String → Option String)
    (body : List (String × JsonValue)) (generation : GenerationRequest)
    (structured : StructuredGenerationRequest) (embedding : EmbeddingRequest) :
    (Structured statusCode (self.generate builtins
        (answering ⟨statusCode, headers, .ok (.dict body)⟩) generation) ↔
      Answered builtins statusCode headers (builtins.GenerationReadable body)) ∧
    (Structured statusCode (self.generateStructured builtins
        (answering ⟨statusCode, headers, .ok (.dict body)⟩) structured) ↔
      Answered builtins statusCode headers (builtins.StructuredReadable body)) ∧
    (Structured statusCode (self.embed builtins
        (answering ⟨statusCode, headers, .ok (.dict body)⟩) embedding) ↔
      Answered builtins statusCode headers (builtins.EmbeddingsReadable body)) := by
  refine ⟨?_, ?_, ?_⟩
  · unfold generate
    rw [structured_post_bind, handled_generate_rest builtins]
  · unfold generateStructured
    rw [structured_post_bind, handled_structured_rest self builtins]
  · unfold embed
    rw [structured_post_bind, handled_embed_rest builtins]

end OpenAICompatibleModel

/-! ## A date to retry after, and no choice -/

def wordsOnly : Builtins where
  loads _ := .error .jsonDecodeError
  int _ := none
  float _ := none

def limitedUntil : HttpResponse where
  statusCode := 429
  headers name := if name = "retry-after" then some "Wed, 21 Oct 2026 07:28:00 GMT" else none
  json := .ok (.dict [])

def withoutChoices : HttpResponse where
  statusCode := 200
  headers _ := none
  json := .ok (.dict [("choices", .list [])])

theorem dated_retry_after_escapes :
    exampleModel.generate wordsOnly (answering limitedUntil) { prompt := "hello" } =
        .error .valueError ∧
      ¬ Structured 429 (exampleModel.generate wordsOnly (answering limitedUntil)
        { prompt := "hello" }) ∧
      exampleModel.generate wordsOnly (answering withoutChoices) { prompt := "hello" } =
        .error .indexError ∧
      ¬ Structured 200 (exampleModel.generate wordsOnly (answering withoutChoices)
        { prompt := "hello" }) := by
  have limited : exampleModel.generate wordsOnly (answering limitedUntil) { prompt := "hello" } =
      .error .valueError := rfl
  have empty : exampleModel.generate wordsOnly (answering withoutChoices) { prompt := "hello" } =
      .error .indexError := rfl
  refine ⟨limited, fun structured => ?_, empty, fun structured => ?_⟩
  · obtain ⟨error, own⟩ := structured.handled _ limited
    cases own
  · obtain ⟨error, own⟩ := structured.handled _ empty
    cases own

end Eis.Adapters
