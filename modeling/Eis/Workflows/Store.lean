import Mathlib.Data.List.Induction
import Eis.Workflows.Models

/-!
# The rows of the workflow store

`WorkflowStore.save` writes a state as texts and `load` reads it back.  What
`json` and `UUID` do with texts are parameters; the database returns what it was
given.
-/

set_option autoImplicit false

namespace Eis.Workflows

def WorkflowStatus.value : WorkflowStatus → String
  | .pending => "pending"
  | .running => "running"
  | .waitingApproval => "waiting_approval"
  | .escalated => "escalated"
  | .completed => "completed"
  | .failed => "failed"

def WorkflowStatus.statuses : List WorkflowStatus :=
  [.pending, .running, .waitingApproval, .escalated, .completed, .failed]

/-- The exceptions of `load`; `notAMember` is the `ValueError` of an enumeration, and
`untyped` stands for a value of another type than the field has, which the source
would take over as it is. -/
inductive LoadError where
  | jsonDecodeError
  | keyError (key : String)
  | valueError (message : String)
  | notAMember (enumeration : String)
  | typeError
  | attributeError
  | untyped
deriving DecidableEq

def WorkflowPhase.ofValue (text : String) : Except LoadError WorkflowPhase :=
  match WorkflowPhase.phases.find? fun phase => phase.value = text with
  | some phase => .ok phase
  | none => .error (.notAMember "WorkflowPhase")

def WorkflowStatus.ofValue (text : String) : Except LoadError WorkflowStatus :=
  match WorkflowStatus.statuses.find? fun status => status.value = text with
  | some status => .ok status
  | none => .error (.notAMember "WorkflowStatus")

@[simp] theorem WorkflowPhase.ofValue_value (phase : WorkflowPhase) :
    WorkflowPhase.ofValue phase.value = .ok phase := by
  cases phase <;> rfl

@[simp] theorem WorkflowStatus.ofValue_value (status : WorkflowStatus) :
    WorkflowStatus.ofValue status.value = .ok status := by
  cases status <;> rfl

def WorkflowRequest.create (objective repository : String) (input : Json) (id : UUID) :
    Except LoadError WorkflowRequest :=
  if objectiveGiven : Text.strip objective ≠ "" then
    if repositoryGiven : Text.strip repository ≠ "" then
      .ok
        { objective := objective
          repository := repository
          input := input
          id := id
          objectiveGiven := objectiveGiven
          repositoryGiven := repositoryGiven }
    else .error (.valueError "workflow repository must not be empty")
  else .error (.valueError "workflow objective must not be empty")

@[simp] theorem WorkflowRequest.create_eq (request : WorkflowRequest) :
    WorkflowRequest.create request.objective request.repository request.input request.id =
      .ok request := by
  unfold create
  rw [dif_pos request.objectiveGiven, dif_pos request.repositoryGiven]

/-! ## JSON values -/

namespace Json

/-- `bool(value)` -/
def truthy : Json → Bool
  | .null => false
  | .bool value => value
  | .number value => decide (value ≠ 0)
  | .string value => decide (value ≠ "")
  | .array items => !items.isEmpty
  | .object entries => !entries.isEmpty

def item (value : Json) (key : String) : Except LoadError Json :=
  match value with
  | .object entries =>
      match entries.find? fun entry => entry.1 = key with
      | some entry => .ok entry.2
      | none => .error (.keyError key)
  | _ => .error .typeError

def get (value : Json) (key : String) (default : Json) : Except LoadError Json :=
  match value with
  | .object entries =>
      match entries.find? fun entry => entry.1 = key with
      | some entry => .ok entry.2
      | none => .ok default
  | _ => .error .attributeError

def text : Json → Except LoadError String
  | .string value => .ok value
  | _ => .error .untyped

def elements : Json → Except LoadError (List Json)
  | .array items => .ok items
  | .string value => .ok (value.toList.map fun c => .string (String.singleton c))
  | .object entries => .ok (entries.map fun entry => .string entry.1)
  | _ => .error .typeError

/-- `tuple(value)` in a field of type `tuple[str, ...]` -/
def texts (value : Json) : Except LoadError (List String) := do
  (← value.elements).mapM text

def entries : Json → Except LoadError (List (String × Json))
  | .object entries => .ok entries
  | _ => .error .untyped

@[simp] theorem texts_strings (values : List String) :
    texts (.array (values.map .string)) = .ok values := by
  have each : (values.map Json.string).mapM text = .ok values := by
    induction values with
    | nil => rfl
    | cons value rest ih =>
        rw [List.map_cons, List.mapM_cons, ih]
        rfl
  exact each

end Json

/-! ## Rows -/

structure WorkflowRow where
  id : String
  objective : String
  repository : String
  inputJson : Option String
  status : String
  phaseIndex : ℕ
  eventsJson : String
  approvalJson : Option String
  dataJson : String
  escalationReason : Option String
deriving DecidableEq

/-- The table `workflows`, whose primary key is `id`. -/
abbrev WorkflowRows := Table WorkflowRow.id

/-- `json.dumps`, `json.loads` and `UUID(text)` -/
structure Codec where
  dumps : Json → String
  loads : String → Except LoadError Json
  uuid : String → Except LoadError UUID

def strings (values : List String) : Json := .array (values.map .string)

/-- `asdict(event)`, as `json.dumps` with `default=str` sees it -/
def WorkflowEvent.asdict (event : WorkflowEvent) : Json :=
  .object
    [("phase", .string event.phase.value),
      ("status", .string event.status),
      ("detail", .string event.detail),
      ("evidence", strings event.evidence),
      ("failures", strings event.failures),
      ("corrections", strings event.corrections),
      ("risks", strings event.risks),
      ("uncertainty", strings event.uncertainty),
      ("id", .string event.id.str)]

def WorkflowApproval.asdict (approval : WorkflowApproval) : Json :=
  .object
    [("phase", .string approval.phase.value),
      ("resource", .string approval.resource),
      ("reason", .string approval.reason),
      ("approval_request_id", .string approval.approvalRequestId.str)]

namespace WorkflowState

def eventsJson (state : WorkflowState) : Json := .array (state.events.map WorkflowEvent.asdict)

def approvalJson (state : WorkflowState) : Json :=
  match state.approval with
  | some approval => approval.asdict
  | none => .null

def dataJson (state : WorkflowState) : Json := .object state.data

def ids (state : WorkflowState) : List UUID :=
  state.request.id :: (state.events.map WorkflowEvent.id ++
    (state.approval.map WorkflowApproval.approvalRequestId).toList)

end WorkflowState

namespace Codec

variable (codec : Codec)

/-- The `payload` of `save`. -/
def row (state : WorkflowState) : WorkflowRow where
  id := state.request.id.str
  objective := state.request.objective
  repository := state.request.repository
  inputJson := some (codec.dumps state.request.input)
  status := state.status.value
  phaseIndex := state.phaseIndex
  eventsJson := codec.dumps state.eventsJson
  approvalJson := some (codec.dumps state.approvalJson)
  dataJson := codec.dumps state.dataJson
  escalationReason := state.escalationReason

/-- `INSERT ... ON CONFLICT(id) DO UPDATE` -/
def save (rows : WorkflowRows) (state : WorkflowState) : WorkflowRows :=
  rows.upsert (codec.row state)

/-- `json.loads(text) if text else None` -/
def loadsIf : Option String → Except LoadError Json
  | none => .ok .null
  | some text => if text = "" then .ok .null else codec.loads text

def uuidOf : Json → Except LoadError UUID
  | .string text => codec.uuid text
  | _ => .error .attributeError

def phaseOf : Json → Except LoadError WorkflowPhase
  | .string text => WorkflowPhase.ofValue text
  | _ => .error (.notAMember "WorkflowPhase")

def loadEvent (item : Json) : Except LoadError WorkflowEvent := do
  let phase ← phaseOf (← item.item "phase")
  let status ← (← item.item "status").text
  let detail ← (← item.get "detail" (.string "")).text
  let evidence ← (← item.get "evidence" (.array [])).texts
  let failures ← (← item.get "failures" (.array [])).texts
  let corrections ← (← item.get "corrections" (.array [])).texts
  let risks ← (← item.get "risks" (.array [])).texts
  let uncertainty ← (← item.get "uncertainty" (.array [])).texts
  let id ← codec.uuidOf (← item.item "id")
  pure
    { phase := phase
      status := status
      detail := detail
      evidence := evidence
      failures := failures
      corrections := corrections
      risks := risks
      uncertainty := uncertainty
      id := id }

def loadApproval (value : Json) : Except LoadError (Option WorkflowApproval) :=
  if value.truthy then do
    let phase ← phaseOf (← value.item "phase")
    let resource ← (← value.item "resource").text
    let reason ← (← value.item "reason").text
    let approvalRequestId ← codec.uuidOf (← value.item "approval_request_id")
    pure (some
      { phase := phase
        resource := resource
        reason := reason
        approvalRequestId := approvalRequestId })
  else pure none

/-- What `load` makes of the row it found. -/
def state (row : WorkflowRow) : Except LoadError WorkflowState := do
  let input ← codec.loadsIf row.inputJson
  let id ← codec.uuid row.id
  let request ← WorkflowRequest.create row.objective row.repository input id
  let events ← (← (← codec.loads row.eventsJson).elements).mapM codec.loadEvent
  let approval ← codec.loadApproval (← codec.loadsIf row.approvalJson)
  let status ← WorkflowStatus.ofValue row.status
  let data ← (← codec.loads row.dataJson).entries
  pure
    { request := request
      status := status
      phaseIndex := row.phaseIndex
      events := events
      approval := approval
      data := data
      escalationReason := row.escalationReason }

def load (rows : WorkflowRows) (workflowId : String) :
    Except LoadError (Option WorkflowState) :=
  match rows.find workflowId with
  | none => .ok none
  | some row => do
      let state ← codec.state row
      pure (some state)

/-! ## Reading back -/

structure Inverts (value : Json) : Prop where
  loads : codec.loads (codec.dumps value) = .ok value
  written : codec.dumps value ≠ ""

/-- `json` reads back what is written of the state, and `UUID` reads back its ids. -/
structure Reads (state : WorkflowState) : Prop where
  input : codec.Inverts state.request.input
  events : codec.Inverts state.eventsJson
  approval : codec.Inverts state.approvalJson
  data : codec.Inverts state.dataJson
  uuid : ∀ id ∈ state.ids, codec.uuid id.str = .ok id

variable {codec} {state : WorkflowState}

theorem Inverts.loadsIf {value : Json} (inverts : codec.Inverts value) :
    codec.loadsIf (some (codec.dumps value)) = .ok value := by
  simp only [Codec.loadsIf]
  rw [if_neg inverts.written]
  exact inverts.loads

@[simp] theorem texts_strings (values : List String) :
    (strings values).texts = .ok values :=
  Json.texts_strings values

theorem loadEvent_asdict {event : WorkflowEvent} (uuid : codec.uuid event.id.str = .ok event.id) :
    codec.loadEvent event.asdict = .ok event := by
  simp [loadEvent, WorkflowEvent.asdict, Json.item, Json.get, Json.text, phaseOf, uuidOf, uuid,
    bind, Except.bind, pure, Except.pure]

theorem loadEvents_asdict {events : List WorkflowEvent}
    (uuid : ∀ event ∈ events, codec.uuid event.id.str = .ok event.id) :
    (events.map WorkflowEvent.asdict).mapM codec.loadEvent = .ok events := by
  induction events with
  | nil => rfl
  | cons event rest ih =>
      have first := loadEvent_asdict (uuid event List.mem_cons_self)
      have later := ih fun other member => uuid other (List.mem_cons_of_mem event member)
      rw [List.map_cons, List.mapM_cons, first, later]
      rfl

theorem loadApproval_approvalJson (uuid : ∀ approval, state.approval = some approval →
      codec.uuid approval.approvalRequestId.str = .ok approval.approvalRequestId) :
    codec.loadApproval state.approvalJson = .ok state.approval := by
  unfold WorkflowState.approvalJson
  cases given : state.approval with
  | none => rfl
  | some approval =>
      simp [loadApproval, WorkflowApproval.asdict, Json.truthy, Json.item, Json.text, phaseOf,
        uuidOf, uuid approval given, bind, Except.bind, pure, Except.pure]

theorem state_row (reads : codec.Reads state) : codec.state (codec.row state) = .ok state := by
  have events : state.eventsJson.elements = .ok (state.events.map WorkflowEvent.asdict) := rfl
  have data : state.dataJson.entries = .ok state.data := rfl
  have own : codec.uuid state.request.id.str = .ok state.request.id :=
    reads.uuid _ List.mem_cons_self
  have recorded : (state.events.map WorkflowEvent.asdict).mapM codec.loadEvent =
      .ok state.events := by
    apply loadEvents_asdict
    intro event member
    apply reads.uuid
    simp only [WorkflowState.ids, List.mem_cons, List.mem_append]
    exact Or.inr (Or.inl (List.mem_map_of_mem member))
  have requested : codec.loadApproval state.approvalJson = .ok state.approval := by
    apply loadApproval_approvalJson
    intro approval given
    apply reads.uuid
    simp [WorkflowState.ids, given]
  simp [Codec.state, row, reads.input.loadsIf, own, reads.events.loads, events, recorded,
    reads.approval.loadsIf, requested, reads.data.loads, data, bind, Except.bind, pure,
    Except.pure]

theorem load_save (reads : codec.Reads state) (rows : WorkflowRows) (k : String) :
    codec.load (codec.save rows state) k =
      if state.key = k then .ok (some state) else codec.load rows k := by
  unfold load save
  by_cases same : state.key = k
  · have key : (codec.row state).id = k := same
    rw [if_pos same, ← key, Table.find_upsert_self]
    simp only [state_row reads]
    rfl
  · rw [if_neg same, rows.find_upsert_of_ne (codec.row state) same]

/-- The rows hold what the table of states holds. -/
def Represents (codec : Codec) (rows : WorkflowRows) (store : WorkflowStore) : Prop :=
  ∀ k, codec.load rows k = .ok (store.load k)

theorem Represents.save {rows : WorkflowRows} {store : WorkflowStore}
    (represents : codec.Represents rows store) (reads : codec.Reads state) :
    codec.Represents (codec.save rows state) (store.save state) := by
  intro k
  rw [load_save reads, WorkflowStore.load_save]
  split
  · rfl
  · exact represents k

/-- After any saves, a workflow loads as it was saved last, and as before if none of
them was its own. -/
theorem load_saves (codec : Codec) {states : List WorkflowState}
    (reads : ∀ state ∈ states, codec.Reads state) (rows : WorkflowRows) (workflowId : UUID) :
    codec.load (states.foldl codec.save rows) workflowId.str =
      match states.reverse.find? fun state => state.request.id = workflowId with
      | some state => .ok (some state)
      | none => codec.load rows workflowId.str := by
  induction states using List.reverseRecOn with
  | nil => rfl
  | append_singleton states last ih =>
      have before := ih fun state member => reads state (List.mem_append_left _ member)
      rw [List.foldl_append, List.foldl_cons, List.foldl_nil,
        load_save (reads last (by simp)), List.reverse_append, List.reverse_singleton,
        List.singleton_append, List.find?_cons]
      by_cases own : last.request.id = workflowId
      · have key : last.key = workflowId.str := congrArg UUID.str own
        simp [own, key]
      · have key : last.key ≠ workflowId.str := fun same => own (UUID.str_injective same)
        simp [own, key, before]

end Codec

/-! ### A workflow that is saved twice -/

mutual
/-- `json.dumps` of values whose texts need no escapes and whose numbers are integers. -/
def Json.render : Json → String
  | .null => "null"
  | .bool true => "true"
  | .bool false => "false"
  | .number value => toString value.num
  | .string value => "\"" ++ value ++ "\""
  | .array items => "[" ++ Json.renderItems items ++ "]"
  | .object entries => "\x7b" ++ Json.renderEntries entries ++ "\x7d"

def Json.renderItems : List Json → String
  | [] => ""
  | [item] => item.render
  | item :: rest => item.render ++ ", " ++ Json.renderItems rest

def Json.renderEntries : List (String × Json) → String
  | [] => ""
  | [(key, value)] => "\"" ++ key ++ "\": " ++ value.render
  | (key, value) :: rest => "\"" ++ key ++ "\": " ++ value.render ++ ", " ++
      Json.renderEntries rest
end

def releaseRequest : WorkflowRequest where
  objective := "ship the release"
  repository := "eis"
  input := .object [("ticket", .number 7)]
  id := ⟨1⟩
  objectiveGiven := by decide +kernel
  repositoryGiven := by decide +kernel

def pendingRelease : WorkflowState := { request := releaseRequest }

def waitingRelease : WorkflowState where
  request := releaseRequest
  status := .waitingApproval
  phaseIndex := 7
  events :=
    [{ phase := .understand
       status := "completed"
       evidence := ["ticket 7"]
       id := ⟨2⟩ }]
  approval := some
    { phase := .approval
      resource := "eis"
      reason := "production scope"
      approvalRequestId := ⟨3⟩ }
  data := [("risk", .string "high")]

theorem knownIds_keyed : (([⟨1⟩, ⟨2⟩, ⟨3⟩] : List UUID).map UUID.str).Nodup := by
  decide +kernel

def written : List Json :=
  [releaseRequest.input, pendingRelease.eventsJson, pendingRelease.approvalJson,
    pendingRelease.dataJson, waitingRelease.eventsJson, waitingRelease.approvalJson,
    waitingRelease.dataJson]

theorem written_keyed : (written.map Json.render).Nodup := by decide +kernel

def releaseCodec : Codec where
  dumps := Json.render
  loads := fun text =>
    match (⟨written, written_keyed⟩ : Table Json.render).find text with
    | some value => .ok value
    | none => .error .jsonDecodeError
  uuid := fun text =>
    match (⟨[⟨1⟩, ⟨2⟩, ⟨3⟩], knownIds_keyed⟩ : Table UUID.str).find text with
    | some id => .ok id
    | none => .error (.valueError "badly formed hexadecimal UUID string")

theorem releaseCodec_inverts {value : Json} (member : value ∈ written)
    (given : value.render ≠ "") : releaseCodec.Inverts value := by
  have found := (Table.find_eq_some_iff ⟨written, written_keyed⟩ value.render value).mpr
    ⟨member, rfl⟩
  refine ⟨?_, given⟩
  simp only [releaseCodec, found]

theorem releaseCodec_uuid {id : UUID} (member : id ∈ ([⟨1⟩, ⟨2⟩, ⟨3⟩] : List UUID)) :
    releaseCodec.uuid id.str = .ok id := by
  have found := (Table.find_eq_some_iff ⟨_, knownIds_keyed⟩ id.str id).mpr ⟨member, rfl⟩
  simp only [releaseCodec, found]

theorem releaseCodec_reads {state : WorkflowState}
    (member : state ∈ [pendingRelease, waitingRelease]) : releaseCodec.Reads state := by
  have cases' : state = pendingRelease ∨ state = waitingRelease := by simpa using member
  rcases cases' with rfl | rfl
  · exact
      { input := releaseCodec_inverts (by simp [written, pendingRelease]) (by decide +kernel)
        events := releaseCodec_inverts (by simp [written]) (by decide +kernel)
        approval := releaseCodec_inverts (by simp [written]) (by decide +kernel)
        data := releaseCodec_inverts (by simp [written]) (by decide +kernel)
        uuid := by
          intro id among
          apply releaseCodec_uuid
          revert among
          simp +contextual [WorkflowState.ids, pendingRelease, releaseRequest] }
  · exact
      { input := releaseCodec_inverts (by simp [written, waitingRelease]) (by decide +kernel)
        events := releaseCodec_inverts (by simp [written]) (by decide +kernel)
        approval := releaseCodec_inverts (by simp [written]) (by decide +kernel)
        data := releaseCodec_inverts (by simp [written]) (by decide +kernel)
        uuid := by
          intro id among
          apply releaseCodec_uuid
          revert among
          simp +contextual [WorkflowState.ids, waitingRelease, releaseRequest] }

theorem load_saves_release :
    releaseCodec.load ([pendingRelease, waitingRelease].foldl releaseCodec.save Table.empty)
      releaseRequest.id.str = .ok (some waitingRelease) :=
  releaseCodec.load_saves (fun _ member => releaseCodec_reads member) Table.empty
    releaseRequest.id

end Eis.Workflows
