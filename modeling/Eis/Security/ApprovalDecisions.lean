import Eis.Foundation.Run
import Eis.Security.Gateway

/-!
# Decisions in the approval gate

`request` and `resolve` store one record each, under the request id that they are
handed; `resolve` does not look at what the gate holds.  So a decision is the answer of
the last call for its id, and stands until the next one.
-/

set_option autoImplicit false

namespace Eis.Security

open Transition

inductive GateCall where
  | request (request : ApprovalRequest)
  | resolve (approval : Approval) (approver : String) (approved : Bool) (reason : String)

def Approval.Decided (approval : Approval) : Prop :=
  approval.status = .approved ∨ approval.status = .rejected

namespace InMemoryApprovalGate

/-- The gate after the call; a call that raises leaves it as it was. -/
def after (gate : InMemoryApprovalGate) : GateCall → InMemoryApprovalGate
  | .request request => (gate.request request).1
  | .resolve approval approver approved reason =>
      match gate.resolve approval approver approved reason with
      | .ok (resolved, _) => resolved
      | .error _ => gate

end InMemoryApprovalGate

def gateStep (gate : InMemoryApprovalGate) (call : GateCall) (next : InMemoryApprovalGate) :
    Prop :=
  gate.after call = next

namespace GateCall

def record : GateCall → Option Approval
  | .request asked => some { requestId := asked.id, status := .pending }
  | .resolve approval approver approved reason =>
      if Text.strip approver = "" ∨ Text.strip reason = "" then none
      else some (InMemoryApprovalGate.resolution approval approver approved reason)

def Names (call : GateCall) (id : UUID) : Prop :=
  ∃ record, call.record = some record ∧ record.requestId = id

def Answers (call : GateCall) (record : Approval) : Prop :=
  ∃ approval approver approved reason, call = .resolve approval approver approved reason ∧
    call.record = some record ∧ approval.requestId = record.requestId

theorem after_eq (gate : InMemoryApprovalGate) (call : GateCall) :
    gate.after call = match call.record with
      | some record => gate.store record
      | none => gate := by
  cases call with
  | request asked => rfl
  | resolve approval approver approved reason =>
      unfold InMemoryApprovalGate.after InMemoryApprovalGate.resolve GateCall.record
      by_cases blank : Text.strip approver = "" ∨ Text.strip reason = ""
      · simp only [if_pos blank]
      · simp only [if_neg blank]

/-- `request` stores no decision. -/
theorem answers_of_decided {call : GateCall} {record : Approval}
    (stored : call.record = some record) (decided : record.Decided) : call.Answers record := by
  cases call with
  | request asked =>
      obtain rfl := Option.some.inj stored
      rcases decided with approved | rejected
      · cases approved
      · cases rejected
  | resolve approval approver approved reason =>
      refine ⟨approval, approver, approved, reason, rfl, stored, ?_⟩
      obtain ⟨_, answer⟩ := Option.ite_none_left_eq_some.mp stored
      obtain rfl := Option.some.inj answer
      rfl

theorem approvals_after (gate : InMemoryApprovalGate) (call : GateCall) (id : UUID) :
    (∃ record, call.record = some record ∧ record.requestId = id ∧
        (gate.after call).approvals id.str = some record) ∨
      ¬ call.Names id ∧ (gate.after call).approvals id.str = gate.approvals id.str := by
  rw [after_eq]
  cases stored : call.record with
  | none =>
      refine Or.inr ⟨?_, rfl⟩
      intro ⟨record, found, _⟩
      exact nomatch stored.symm.trans found
  | some record =>
      by_cases same : record.requestId = id
      · exact Or.inl ⟨record, rfl, same, by simp [same]⟩
      · refine Or.inr ⟨?_, ?_⟩
        · intro ⟨other, found, named⟩
          obtain rfl := Option.some.inj (stored.symm.trans found)
          exact same named
        · have elsewhere : id.str ≠ record.requestId.str := by
            intro equal
            exact same (UUID.str_injective equal).symm
          simp [Function.update_of_ne elsewhere]

end GateCall

section Runs
variable {gate final : InMemoryApprovalGate} {before after : List GateCall}

theorem stored_by_call (run : Run gateStep {} before gate) {id : UUID} {record : Approval}
    (found : gate.approvals id.str = some record) :
    record.requestId = id ∧ ∃ call ∈ before, call.record = some record := by
  have sound : ∀ id record, gate.approvals (UUID.str id) = some record →
      record.requestId = id ∧ ∃ call ∈ before, call.record = some record := by
    refine run.trace_invariant
      (motive := fun calls (gate : InMemoryApprovalGate) =>
        ∀ id record, gate.approvals (UUID.str id) = some record →
          record.requestId = id ∧ ∃ call ∈ calls, call.record = some record) ?_ ?_
    · intro id record found
      cases found
    · rintro calls gate call next kept rfl id record found
      rcases GateCall.approvals_after gate call id with
        ⟨own, stored, named, now⟩ | ⟨_, same⟩
      · obtain rfl := Option.some.inj (now.symm.trans found)
        exact ⟨named, call, by simp, stored⟩
      · obtain ⟨named, earlier, member, stored⟩ := kept id record (same.symm.trans found)
        exact ⟨named, earlier, List.mem_append_left _ member, stored⟩
  exact sound id record found

theorem approvals_kept (run : Run gateStep gate after final) {id : UUID}
    (unnamed : ∀ call ∈ after, ¬ call.Names id) :
    final.approvals id.str = gate.approvals id.str := by
  induction run with
  | nil => rfl
  | @snoc calls call middle next _ last ih =>
      have former := ih fun earlier member => unnamed earlier (List.mem_append_left _ member)
      obtain rfl : middle.after call = next := last
      rcases GateCall.approvals_after middle call id with ⟨record, stored, named, _⟩ | ⟨_, same⟩
      · exact absurd ⟨record, stored, named⟩ (unnamed call (by simp))
      · exact same.trans former

/-- A decision that is stored for a request is the answer of an accepted `resolve`
call for it, and it stands as long as no later call names the request. -/
structure DecisionsStand (before : List GateCall) (gate : InMemoryApprovalGate)
    (after : List GateCall) (final : InMemoryApprovalGate) : Prop where
  answered : ∀ id record, gate.approvals (UUID.str id) = some record → record.Decided →
    record.requestId = id ∧ ∃ call ∈ before, call.Answers record
  stands : ∀ id record, gate.approvals (UUID.str id) = some record → record.Decided →
    (∀ call ∈ after, ¬ call.Names id) → final.approvals (UUID.str id) = some record

theorem decisions_stand (first : Run gateStep {} before gate)
    (later : Run gateStep gate after final) : DecisionsStand before gate after final where
  answered := by
    intro id record found decided
    obtain ⟨named, call, member, stored⟩ := stored_by_call first found
    exact ⟨named, call, member, GateCall.answers_of_decided stored decided⟩
  stands := by
    intro id record found _ unnamed
    exact (approvals_kept later unnamed).trans found

end Runs

/-! ### A decision that is taken back, and one that nobody asked for -/

def releaseRequest : ApprovalRequest where
  action := "production_deploy"
  resource := "production"
  actor := "human"
  reason := "release"
  riskLevel := .critical
  id := ⟨3⟩

def answerTo (id : UUID) (approved : Bool) : GateCall :=
  .resolve { requestId := id, status := .pending } "owner" approved "reviewed deployment"

def answerOf (id : UUID) (approved : Bool) : Approval where
  requestId := id
  status := if approved then .approved else .rejected
  approver := some "owner"
  reason := some "reviewed deployment"

theorem answerTo_record (id : UUID) (approved : Bool) :
    (answerTo id approved).record = some (answerOf id approved) := by
  have named : ¬ (Text.strip "owner" = "" ∨ Text.strip "reviewed deployment" = "") := by
    decide +kernel
  show (if Text.strip "owner" = "" ∨ Text.strip "reviewed deployment" = "" then none
    else some (answerOf id approved)) = _
  exact if_neg named

theorem answerTo_names {id other : UUID} {approved : Bool}
    (named : (answerTo id approved).Names other) : id = other := by
  obtain ⟨record, stored, same⟩ := named
  obtain rfl := Option.some.inj ((answerTo_record id approved).symm.trans stored)
  exact same

theorem after_answerTo (gate : InMemoryApprovalGate) (id : UUID) (approved : Bool) :
    (gate.after (answerTo id approved)).approvals id.str = some (answerOf id approved) := by
  rw [GateCall.after_eq, answerTo_record]
  exact Function.update_self ..

def rejectedRelease : InMemoryApprovalGate :=
  (({} : InMemoryApprovalGate).after (.request releaseRequest)).after
    (answerTo releaseRequest.id false)

theorem run_rejectedRelease : Run gateStep {}
    [.request releaseRequest, answerTo releaseRequest.id false] rejectedRelease :=
  (Run.single rfl).snoc rfl

theorem rejectedRelease_found :
    rejectedRelease.approvals releaseRequest.id.str = some (answerOf releaseRequest.id false) :=
  after_answerTo _ _ _

theorem decisions_stand_rejected :
    (rejectedRelease.after (answerTo ⟨7⟩ true)).approvals releaseRequest.id.str =
      some (answerOf releaseRequest.id false) := by
  have elsewhere : ∀ call ∈ [answerTo ⟨7⟩ true], ¬ call.Names releaseRequest.id := by
    intro call member
    obtain rfl := List.mem_singleton.mp member
    intro named
    exact absurd (answerTo_names named) (by decide)
  have later : Run gateStep rejectedRelease [answerTo ⟨7⟩ true]
      (rejectedRelease.after (answerTo ⟨7⟩ true)) := Run.single rfl
  exact (decisions_stand run_rejectedRelease later).stands _ _ rejectedRelease_found
    (Or.inr rfl) elsewhere

/-- The rejection becomes an approval, and an id that was never requested has a
decision. -/
theorem rejection_taken_back :
    ∃ first final, Run gateStep {}
        [.request releaseRequest, answerTo releaseRequest.id false] first ∧
      Run gateStep first [answerTo ⟨7⟩ true, answerTo releaseRequest.id true] final ∧
      (∃ record, first.approvals releaseRequest.id.str = some record ∧
        record.status = .rejected) ∧
      (∃ record, final.approvals releaseRequest.id.str = some record ∧
        record.status = .approved) ∧
      ∃ record, final.approvals (UUID.str ⟨7⟩) = some record ∧ record.Decided := by
  refine ⟨rejectedRelease, _, run_rejectedRelease, (Run.single rfl).snoc rfl,
    ⟨_, rejectedRelease_found, rfl⟩, ⟨_, after_answerTo _ _ _, rfl⟩,
    answerOf ⟨7⟩ true, ?_, Or.inl rfl⟩
  rcases GateCall.approvals_after (rejectedRelease.after (answerTo ⟨7⟩ true))
    (answerTo releaseRequest.id true) ⟨7⟩ with ⟨record, stored, named, _⟩ | ⟨_, same⟩
  · exact absurd (answerTo_names ⟨record, stored, named⟩) (by decide)
  · exact same.trans (after_answerTo _ _ _)

end Eis.Security
