import Eis.Adapters.OpenAICompatible

/-!
# The lines of a stream

What `stream` makes of the chunks that a provider sends: it yields the content of their
first choices, and an empty list of choices ends it.
-/

set_option autoImplicit false

namespace Eis.Adapters

open Eis.Models

/-- The choices are absent, or a list of objects whose delta is an object where there is
one. -/
def ChoicesShape (chunk : List (String × JsonValue)) : Prop :=
  ∀ found, chunk.lookup "choices" = some found →
    ∃ choices, found = .list choices ∧ ∀ choice ∈ choices, ∃ fields, choice = .dict fields ∧
      ∀ delta, fields.lookup "delta" = some delta → ∃ parts, delta = .dict parts

/-- What the `data:` lines carry, up to the first `[DONE]`. -/
def payloads (lines : List String) : List String :=
  (lines.filterMap dataOf).takeWhile fun value => decide (value ≠ "[DONE]")

namespace Builtins

variable (builtins : Builtins)

def WellFormed (lines : List String) : Prop :=
  ∀ value ∈ lines.filterMap dataOf, value = "[DONE]" ∨
    ∃ chunk, builtins.loads value = .ok (.dict chunk) ∧ ChoicesShape chunk

def contentOf (value : String) : Option JsonValue := do
  let chunk ← (builtins.loads value).toOption
  let choice ← (← chunk.field "choices").first
  let content ← (← choice.field "delta").field "content"
  if content.truthy then some content else none

def WithoutChoice (value : String) : Prop :=
  ∃ chunk, builtins.loads value = .ok (.dict chunk) ∧ chunk.lookup "choices" = some (.list [])

variable {builtins} {value : String} {chunk : List (String × JsonValue)}

theorem deltaContent_withoutChoice {χ : Type} (without : builtins.WithoutChoice value) :
    (builtins.deltaContent value : Except (Raised χ) (Option JsonValue)) = .error .indexError := by
  obtain ⟨chunk, loaded, empty⟩ := without
  simp [deltaContent, loaded, empty, Except.mapError, JsonValue.getFirst]

theorem deltaContent_eq {χ : Type} (loaded : builtins.loads value = .ok (.dict chunk))
    (shape : ChoicesShape chunk) (offered : ¬ builtins.WithoutChoice value) :
    (builtins.deltaContent value : Except (Raised χ) (Option JsonValue)) =
      .ok (builtins.contentOf value) := by
  unfold deltaContent contentOf
  rw [loaded]
  cases found : chunk.lookup "choices" with
  | none => simp [found, Except.mapError, Except.toOption, JsonValue.truthy]
  | some choices =>
      obtain ⟨choices, rfl, objects⟩ := shape choices found
      cases choices with
      | nil => exact absurd ⟨chunk, loaded, found⟩ offered
      | cons choice rest =>
          obtain ⟨fields, rfl, deltas⟩ := objects choice List.mem_cons_self
          cases given : fields.lookup "delta" with
          | none => simp [found, given, Except.mapError, Except.toOption, JsonValue.truthy]
          | some delta =>
              obtain ⟨parts, rfl⟩ := deltas delta given
              cases content : parts.lookup "content" with
              | none =>
                  simp [found, given, content, Except.mapError, Except.toOption, JsonValue.truthy]
              | some content =>
                  simp [found, given, content, Except.mapError, Except.toOption]

end Builtins

section Lines
variable {builtins : Builtins} {line value : String} {lines : List String}

theorem Builtins.WellFormed.tail (formed : builtins.WellFormed (line :: lines)) :
    builtins.WellFormed lines := by
  intro value listed
  obtain ⟨other, member, same⟩ := List.mem_filterMap.mp listed
  exact formed value (List.mem_filterMap.mpr ⟨other, List.mem_cons_of_mem _ member, same⟩)

theorem payloads_ignored (ignored : dataOf line = none) :
    payloads (line :: lines) = payloads lines := by
  rw [payloads, List.filterMap_cons_none ignored, payloads]

theorem payloads_done (done : dataOf line = some "[DONE]") : payloads (line :: lines) = [] := by
  rw [payloads, List.filterMap_cons_some done, List.takeWhile_cons_of_neg (by simp)]

theorem payloads_cons (carried : dataOf line = some value) (chunk : value ≠ "[DONE]") :
    payloads (line :: lines) = value :: payloads lines := by
  rw [payloads, List.filterMap_cons_some carried, List.takeWhile_cons_of_pos (by simpa using chunk),
    payloads]

/-- The loop yields the contents of all payloads just where each has a choice. -/
theorem streamLines_eq_iff (formed : builtins.WellFormed lines) :
    OpenAICompatibleModel.streamLines builtins (.ok ()) lines =
        ⟨(payloads lines).filterMap builtins.contentOf, .ok ()⟩ ↔
      ∀ value ∈ payloads lines, ¬ builtins.WithoutChoice value := by
  induction lines with
  | nil => simp [OpenAICompatibleModel.streamLines, payloads]
  | cons line lines ih =>
      have later := ih formed.tail
      rw [OpenAICompatibleModel.streamLines]
      cases carried : dataOf line with
      | none =>
          rw [payloads_ignored carried]
          exact later
      | some value =>
          by_cases done : value = "[DONE]"
          · subst done
            rw [payloads_done carried]
            simp
          · have listed : value ∈ (line :: lines).filterMap dataOf :=
              List.mem_filterMap.mpr ⟨line, List.mem_cons_self, carried⟩
            obtain ⟨chunk, loaded, shape⟩ := (formed value listed).resolve_left done
            rw [payloads_cons carried done, List.forall_mem_cons]
            simp only [if_neg done]
            by_cases without : builtins.WithoutChoice value
            · rw [Builtins.deltaContent_withoutChoice without]
              simp [without]
            · rw [Builtins.deltaContent_eq loaded shape without]
              rw [← later]
              cases content : builtins.contentOf value with
              | none => simp [content, without]
              | some content =>
                  obtain ⟨chunks, ending⟩ :=
                    OpenAICompatibleModel.streamLines builtins (.ok ()) lines
                  simp [content, without]

end Lines

/-- For every sequence of lines of that shape, the stream yields the contents of its chunks,
up to the first `[DONE]`, and raises nothing, exactly when no chunk before it has an empty
list of choices. -/
theorem OpenAICompatibleModel.stream_decodes_iff (self : OpenAICompatibleModel)
    (builtins : Builtins) (request : GenerationRequest) (response : HttpResponse)
    (lines : List String) (accepted : response.statusCode < 400)
    (formed : builtins.WellFormed lines) :
    self.stream builtins (fun _ _ _ _ => .answered response lines .ended) request =
        ⟨(payloads lines).filterMap builtins.contentOf, .ok ()⟩ ↔
      ∀ value ∈ payloads lines, ¬ builtins.WithoutChoice value := by
  have fine : self.raiseForStatus builtins response = .ok () := by
    unfold raiseForStatus
    rw [if_neg (by omega), if_neg (by omega), if_neg (by omega)]
  rw [← streamLines_eq_iff formed]
  simp only [stream, fine]

/-! ## A chunk with usage only -/

def helloText : String :=
  "\x7b\"choices\":[\x7b\"delta\":\x7b\"content\":\"Hello\"\x7d\x7d]\x7d"

def helloChunk : List (String × JsonValue) :=
  [("choices", .list [.dict [("delta", .dict [("content", .str "Hello")])]])]

def usageText : String := "\x7b\"choices\":[],\"usage\":\x7b\"prompt_tokens\":4\x7d\x7d"

def usageChunk : List (String × JsonValue) :=
  [("choices", .list []), ("usage", .dict [("prompt_tokens", .int 4)])]

def chunkBuiltins : Builtins where
  loads text :=
    if text = helloText then .ok (.dict helloChunk)
    else if text = usageText then .ok (.dict usageChunk)
    else .error .jsonDecodeError
  int _ := none
  float _ := none

def streaming (lines : List String) : StreamClient := fun _ _ _ _ =>
  .answered { statusCode := 200, headers := fun _ => none, json := .ok .null } lines .ended

def helloLines : List String := [": keep-alive", "data: " ++ helloText, "", "data: [DONE]"]

def usageLines : List String := ["data: " ++ helloText, "data: " ++ usageText, "data: [DONE]"]

theorem helloChunk_shape : ChoicesShape helloChunk := by
  intro found given
  obtain rfl := Option.some.inj given
  refine ⟨_, rfl, fun choice member => ?_⟩
  obtain rfl := List.mem_singleton.mp member
  refine ⟨_, rfl, fun delta given => ?_⟩
  obtain rfl := Option.some.inj given
  exact ⟨_, rfl⟩

theorem usageChunk_shape : ChoicesShape usageChunk := by
  intro found given
  obtain rfl := Option.some.inj given
  exact ⟨[], rfl, fun choice absent => absurd absent List.not_mem_nil⟩

theorem stream_decodes_iff_hello :
    exampleModel.stream chunkBuiltins (streaming helloLines) { prompt := "hello" } =
        ⟨(payloads helloLines).filterMap chunkBuiltins.contentOf, .ok ()⟩ ↔
      ∀ value ∈ payloads helloLines, ¬ chunkBuiltins.WithoutChoice value := by
  refine exampleModel.stream_decodes_iff chunkBuiltins { prompt := "hello" } _ helloLines
    (by decide) fun value listed => ?_
  have carried : helloLines.filterMap dataOf = [helloText, "[DONE]"] := rfl
  rw [carried, List.mem_cons, List.mem_singleton] at listed
  rcases listed with rfl | rfl
  · exact Or.inr ⟨helloChunk, rfl, helloChunk_shape⟩
  · exact Or.inl rfl

theorem usage_chunk_ends_stream :
    chunkBuiltins.WellFormed usageLines ∧
      exampleModel.stream chunkBuiltins (streaming usageLines) { prompt := "hello" } =
        ⟨[.str "Hello"], .error .indexError⟩ ∧
      exampleModel.stream chunkBuiltins (streaming usageLines) { prompt := "hello" } ≠
        ⟨(payloads usageLines).filterMap chunkBuiltins.contentOf, .ok ()⟩ := by
  have ended : exampleModel.stream chunkBuiltins (streaming usageLines) { prompt := "hello" } =
      ⟨[.str "Hello"], .error .indexError⟩ := rfl
  refine ⟨fun value listed => ?_, ended, ?_⟩
  · have carried : usageLines.filterMap dataOf = [helloText, usageText, "[DONE]"] := rfl
    rw [carried, List.mem_cons, List.mem_cons, List.mem_singleton] at listed
    rcases listed with rfl | rfl | rfl
    · exact Or.inr ⟨helloChunk, rfl, helloChunk_shape⟩
    · exact Or.inr ⟨usageChunk, rfl, usageChunk_shape⟩
    · exact Or.inl rfl
  · rw [ended]
    exact fun same => nomatch congrArg Streamed.ending same

end Eis.Adapters
