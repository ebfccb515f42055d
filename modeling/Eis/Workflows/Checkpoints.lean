import Eis.Workflows.PhaseOrder

/-!
# Approval checkpoints

Every phase of `approval_phases` is paid for: the log of a workflow holds at
most one open checkpoint at a time, the last one that was persisted and not
used yet, and the operation of such a phase is called only by a `resume` whose
approved approval carries the id of the open checkpoint of that phase.  The
cache in between is empty whenever a call is suspended.
-/

set_option autoImplicit false

namespace Eis.Workflows

open Eis.Security Transition

variable {ι γ τ : Type}

/-! ## The log -/

section Log
variable (phases : List WorkflowPhase) (k : String)

/-- A persisted checkpoint is open until an operation of the phases is called
for the workflow. -/
def trackCheckpoint (checkpoint : Option WorkflowApproval) :
    Effect τ → Option WorkflowApproval
  | .saved state =>
      if state.key = k ∧ state.status = .waitingApproval then state.approval else checkpoint
  | .executing _ _ phase state => if state.key = k ∧ phase ∈ phases then none else checkpoint
  | _ => checkpoint

def openCheckpoint (effects : List (Effect τ)) : Option WorkflowApproval :=
  effects.foldl (trackCheckpoint phases k) none

@[simp] theorem openCheckpoint_append (effects : List (Effect τ)) (effect : Effect τ) :
    openCheckpoint phases k (effects ++ [effect]) =
      trackCheckpoint phases k (openCheckpoint phases k effects) effect := by
  simp [openCheckpoint]

def isCheckpoint : Effect τ → Bool
  | .saved state => state.key = k && state.status = .waitingApproval
  | _ => false

def isGatedCall : Effect τ → Bool
  | .executing _ _ phase state => state.key = k && decide (phase ∈ phases)
  | _ => false

end Log

def PaidFor (phases : List WorkflowPhase) (past : List (Effect τ)) (call : Call)
    (phase : WorkflowPhase) (state : WorkflowState) : Prop :=
  ∃ approval checkpoint, call = .resume state.key (some approval) ∧
    approval.status = .approved ∧
    openCheckpoint phases state.key past = some checkpoint ∧
    checkpoint.phase = phase ∧ checkpoint.approvalRequestId = approval.requestId

/-- Every call of an operation of the phases is paid for. -/
def GatedCalls (phases : List WorkflowPhase) (effects : List (Effect τ)) : Prop :=
  ∀ past task call phase state later,
    effects = past ++ .executing task call phase state :: later →
      phase ∈ phases → PaidFor phases past call phase state

theorem GatedCalls.append {phases : List WorkflowPhase} {effects : List (Effect τ)}
    (gated : GatedCalls phases effects) {effect : Effect τ}
    (paid : ∀ task call phase state, effect = .executing task call phase state →
      phase ∈ phases → PaidFor phases effects call phase state) :
    GatedCalls phases (effects ++ [effect]) := by
  have earlier : Preceded (fun own past => ∀ task call phase state,
      own = .executing task call phase state → phase ∈ phases →
        PaidFor phases past call phase state) effects := by
    intro past own later split task call phase state same member
    subst same
    exact gated past task call phase state later split member
  have preceded := earlier.snoc paid
  intro past task call phase state later split member
  exact preceded past _ later split task call phase state rfl member

/-- Calls and checkpoints alternate, so there are at most as many calls. -/
theorem GatedCalls.count_le {phases : List WorkflowPhase} {effects : List (Effect τ)}
    (gated : GatedCalls phases effects) (k : String) :
    effects.countP (isGatedCall phases k) + (openCheckpoint phases k effects).toList.length ≤
      effects.countP (isCheckpoint k) := by
  induction effects using List.reverseRecOn with
  | nil => simp [openCheckpoint]
  | append_singleton effects effect ih =>
      have before : GatedCalls phases effects := by
        intro past task call phase state later split member
        refine gated past task call phase state (later ++ [effect]) ?_ member
        simp [split]
      have bound := ih before
      rw [List.countP_append, List.countP_append, openCheckpoint_append]
      cases effect with
      | saved state =>
          by_cases checkpoint : state.key = k ∧ state.status = .waitingApproval
          · have single : state.approval.toList.length ≤ 1 := by
              cases state.approval <;> simp
            simp only [trackCheckpoint, isCheckpoint, isGatedCall, checkpoint, and_self, if_true,
              List.countP_singleton, decide_true, Bool.and_self]
            simp only [Bool.false_eq_true, if_false, Nat.add_zero]
            omega
          · have unmarked : isCheckpoint (τ := τ) k (.saved state) = false := by
              simpa [isCheckpoint] using checkpoint
            simp [trackCheckpoint, checkpoint, unmarked, isGatedCall]
            omega
      | executing task call phase state =>
          by_cases own : state.key = k ∧ phase ∈ phases
          · obtain ⟨rfl, member⟩ := own
            obtain ⟨approval, checkpoint, _, _, opened, _, _⟩ :=
              gated effects task call phase state [] rfl member
            rw [opened] at bound
            simp [trackCheckpoint, isCheckpoint, isGatedCall, member] at bound ⊢
            omega
          · have uncounted : isGatedCall phases k (.executing task call phase state) = false := by
              simpa [isGatedCall] using own
            simp [trackCheckpoint, own, uncounted, isCheckpoint]
            omega
      | settled task phase state outcome =>
          simpa [trackCheckpoint, isCheckpoint, isGatedCall] using bound
      | answered workflowId result =>
          simpa [trackCheckpoint, isCheckpoint, isGatedCall] using bound

/-! ## The invariant -/

namespace World

/-- A row that waits is the open checkpoint of its workflow, at the phase it
waits for. -/
structure Checkpointed (phases : List WorkflowPhase) (world : World ι γ τ) : Prop where
  gated : GatedCalls phases world.effects
  waiting : ∀ k row, world.store.load k = some row → row.status = .waitingApproval →
    ∃ checkpoint, row.approval = some checkpoint ∧ row.phase = some checkpoint.phase ∧
      checkpoint.phase ∈ phases ∧ openCheckpoint phases k world.effects = some checkpoint

def Uncached (world : World ι γ τ) : Prop :=
  ∀ i workflowId, world.approvalCache i workflowId = none

variable {phases : List WorkflowPhase} {world : World ι γ τ}

theorem Checkpointed.congr {next : World ι γ τ} (sound : world.Checkpointed phases)
    (store : next.store = world.store) (effects : next.effects = world.effects) :
    next.Checkpointed phases := by
  refine ⟨effects ▸ sound.gated, ?_⟩
  rw [store, effects]
  exact sound.waiting

theorem Checkpointed.emit (sound : world.Checkpointed phases) {effect : Effect τ}
    (untracked : ∀ k, trackCheckpoint phases k (openCheckpoint phases k world.effects) effect =
      openCheckpoint phases k world.effects)
    (unpaid : ∀ task call phase state, effect = .executing task call phase state →
      phase ∉ phases) : (world.emit effect).Checkpointed phases := by
  constructor
  · refine sound.gated.append ?_
    intro task call phase state same member
    exact absurd member (unpaid task call phase state same)
  · intro k row stored status
    obtain ⟨checkpoint, approval, phase, member, opened⟩ := sound.waiting k row stored status
    refine ⟨checkpoint, approval, phase, member, ?_⟩
    rw [World.emit, openCheckpoint_append, untracked, opened]

theorem Checkpointed.answered (sound : world.Checkpointed phases) (workflowId : String)
    (result : Except WorkflowError WorkflowReport) :
    (world.emit (.answered workflowId result)).Checkpointed phases :=
  sound.emit (fun _ => rfl) fun _ _ _ _ same => nomatch same

theorem Checkpointed.save (sound : world.Checkpointed phases) {state : WorkflowState}
    (checkpoint : state.status = .waitingApproval → ∃ checkpoint,
      state.approval = some checkpoint ∧ state.phase = some checkpoint.phase ∧
        checkpoint.phase ∈ phases) : (world.save state).Checkpointed phases := by
  constructor
  · exact sound.gated.append fun _ _ _ _ same => nomatch same
  · intro k row stored status
    simp only [World.save, WorkflowStore.load_save] at stored
    rw [World.save, openCheckpoint_append]
    by_cases own : state.key = k
    · rw [if_pos own] at stored
      obtain rfl := Option.some.inj stored
      obtain ⟨opened, approval, phase, member⟩ := checkpoint status
      exact ⟨opened, approval, phase, member, by simp [trackCheckpoint, own, status, approval]⟩
    · rw [if_neg own] at stored
      obtain ⟨opened, approval, phase, member, before⟩ := sound.waiting k row stored status
      exact ⟨opened, approval, phase, member, by simp [trackCheckpoint, own, before]⟩

theorem Checkpointed.executing (sound : world.Checkpointed phases) {task : τ} {call : Call}
    {phase : WorkflowPhase} {state : WorkflowState}
    (paid : phase ∈ phases → PaidFor phases world.effects call phase state)
    (left : ∀ row, world.store.load state.key = some row → row.status ≠ .waitingApproval) :
    (world.emit (.executing task call phase state)).Checkpointed phases := by
  constructor
  · refine sound.gated.append ?_
    intro task call phase state same member
    cases same
    exact paid member
  · intro k row stored status
    obtain ⟨opened, approval, atPhase, member, before⟩ := sound.waiting k row stored status
    refine ⟨opened, approval, atPhase, member, ?_⟩
    have other : state.key ≠ k := by
      rintro rfl
      exact left row stored status
    rw [World.emit, openCheckpoint_append, before]
    simp [trackCheckpoint, other]

theorem Checkpointed.setTask [DecidableEq τ] (sound : world.Checkpointed phases) (task : τ)
    (state : Task ι) : (world.setTask task state).Checkpointed phases :=
  sound.congr rfl rfl

theorem Checkpointed.setGateway [DecidableEq γ] (sound : world.Checkpointed phases) (g : γ)
    (gateway : SecurityGateway) : (world.setGateway g gateway).Checkpointed phases :=
  sound.congr rfl rfl

theorem Checkpointed.setCache [DecidableEq ι] (sound : world.Checkpointed phases) (i : ι)
    (workflowId : String) (cached : Option Approval) :
    (world.setCache i workflowId cached).Checkpointed phases :=
  sound.congr rfl rfl

theorem load_save_self (world : World ι γ τ) (state : WorkflowState) :
    (world.save state).store.load state.key = some state := by
  simp [save, WorkflowStore.load_save]

section Step
variable [DecidableEq ι] [DecidableEq γ] [DecidableEq τ]
variable {config : ι → EngineeringWorkflow γ}

omit [DecidableEq ι] [DecidableEq γ] in
theorem Checkpointed.answer (sound : world.Checkpointed phases) (task : τ) (workflowId : String)
    (result : Except WorkflowError WorkflowReport) :
    (world.answer task workflowId result).Checkpointed phases :=
  (sound.setTask task .done).answered workflowId result

omit [DecidableEq ι] [DecidableEq γ] in
theorem Checkpointed.fail (sound : world.Checkpointed phases) (task : τ) (call : Call)
    (current : WorkflowState) (phase : WorkflowPhase) (message : String) (eventId : UUID) :
    (world.fail task call current phase message eventId).Checkpointed phases := by
  have saved : (world.save (current.failed phase message eventId)).Checkpointed phases :=
    sound.save fun status => nomatch status
  exact saved.answer task call.workflowId _

theorem LoopEnds.checkpointed {ended : World ι γ τ} {i : ι} {task : τ} {call : Call}
    {current : WorkflowState} (same : (config i).approvalPhases = phases)
    (ends : LoopEnds config world i task call current ended) (sound : world.Checkpointed phases)
    (stored : world.store.load current.key = some current) (running : current.status = .running)
    (paid : ∀ phase approval, current.phase = some phase → phase ∈ phases →
      world.approvalCache i current.key = some approval →
        PaidFor phases world.effects call phase current) : ended.Checkpointed phases := by
  cases ends with
  | completed exhausted =>
      have saved : (world.save current.completed).Checkpointed phases :=
        sound.save fun status => nomatch status
      exact saved.answer task _ _
  | waiting phase request gateway approvalRequestId eventId result atPhase gated uncached =>
      refine Checkpointed.answer ((sound.setGateway _ gateway).save ?_) task _ _
      intro _
      exact ⟨_, rfl, atPhase, same ▸ gated⟩
  | refused phase approval unlocked gateway message eventId atPhase ready =>
      refine Checkpointed.fail ?_ task call current phase message eventId
      rcases ready with ⟨_, _, rfl⟩ | ⟨_, _, _, rfl⟩
      · exact sound.setGateway _ gateway
      · exact (sound.setCache i current.key none).setGateway _ gateway
  | executing phase approval unlocked gateway atPhase ready =>
      have left : ∀ row, world.store.load current.key = some row →
          row.status ≠ .waitingApproval := by
        intro row found
        obtain rfl := Option.some.inj (stored.symm.trans found)
        simp [running]
      rcases ready with ⟨ungated, _, rfl⟩ | ⟨gated, cached, given, rfl⟩
      · refine Checkpointed.executing ((sound.setGateway _ gateway).setTask task _) ?_ left
        exact fun member => absurd member (same ▸ ungated)
      · obtain ⟨presented, found⟩ := Option.ne_none_iff_exists'.mp given
        refine Checkpointed.executing
          (((sound.setCache i current.key none).setGateway _ gateway).setTask task _) ?_ left
        exact fun member => paid phase presented atPhase member (cached ▸ found)

/-- The loop leaves nothing in the cache: an approval put there for the phase of
the current state is taken out for it. -/
theorem LoopEnds.uncached {ended : World ι γ τ} {i : ι} {task : τ} {call : Call}
    {current : WorkflowState} (ends : LoopEnds config world i task call current ended)
    (others : ∀ j workflowId, j ≠ i ∨ workflowId ≠ current.key →
      world.approvalCache j workflowId = none)
    (own : world.approvalCache i current.key = none ∨
      ∃ phase, current.phase = some phase ∧ phase ∈ (config i).approvalPhases) :
    ended.Uncached := by
  have empty : world.approvalCache i current.key = none → world.Uncached := by
    intro absent j workflowId
    by_cases here : j = i ∧ workflowId = current.key
    · obtain ⟨rfl, rfl⟩ := here
      exact absent
    · exact others j workflowId (not_and_or.mp here)
  have ready : ∀ {phase approval unlocked}, current.phase = some phase →
      Unlocked config world i current phase approval unlocked → unlocked.Uncached := by
    rintro phase approval unlocked atPhase (⟨ungated, _, rfl⟩ | ⟨_, _, _, rfl⟩)
    · rcases own with absent | ⟨other, sameState, gated⟩
      · exact empty absent
      · obtain rfl := Option.some.inj (atPhase.symm.trans sameState)
        exact absurd gated ungated
    · intro j workflowId
      by_cases runner : j = i
      · subst runner
        by_cases key : workflowId = current.key
        · simp [setCache, key]
        · simpa [setCache, key] using others j workflowId (Or.inr key)
      · simpa [setCache, runner] using others j workflowId (Or.inl runner)
  cases ends with
  | completed exhausted =>
      refine empty (own.resolve_right ?_)
      rintro ⟨phase, atPhase, _⟩
      rw [exhausted] at atPhase
      cases atPhase
  | waiting phase request gateway approvalRequestId eventId result atPhase gated uncached =>
      exact empty uncached
  | refused phase approval unlocked gateway message eventId atPhase unlock =>
      have cleared := ready atPhase unlock
      exact cleared
  | executing phase approval unlocked gateway atPhase unlock =>
      have cleared := ready atPhase unlock
      exact cleared

theorem loop_checkpointed (i : ι) (same : (config i).approvalPhases = phases)
    (sound : world.Checkpointed phases) (uncached : world.Uncached) {current : WorkflowState}
    (stored : world.store.load current.key = some current) (running : current.status = .running)
    (task : τ) (call : Call) (draw : Draw) :
    (world.loop config i task call current draw).Checkpointed phases ∧
      (world.loop config i task call current draw).Uncached := by
  have ends := loop_ends config world i task call current draw
  constructor
  · refine ends.checkpointed same sound stored running ?_
    intro phase approval _ _ cached
    rw [uncached i current.key] at cached
    cases cached
  · exact ends.uncached (fun j workflowId _ => uncached j workflowId) (Or.inl (uncached i _))

/-- `resume` puts the approval of the open checkpoint into the cache, and the
loop takes it out for the phase of that checkpoint. -/
theorem resume_checkpointed (i : ι) (same : (config i).approvalPhases = phases)
    (sound : world.Checkpointed phases) (uncached : world.Uncached) {workflowId : String}
    {state : WorkflowState} {presented : Approval}
    (found : world.store.load workflowId = some state) (waits : state.status = .waitingApproval)
    (approved : presented.status = .approved)
    (matched : state.approval.map WorkflowApproval.approvalRequestId = some presented.requestId)
    (task : τ) (draw : Draw) :
    (((world.setCache i workflowId (some presented)).save
      (state.resumed presented draw.answerId)).begin config i task
        (.resume workflowId (some presented)) (state.resumed presented draw.answerId)
          draw).Checkpointed phases ∧
      (((world.setCache i workflowId (some presented)).save
        (state.resumed presented draw.answerId)).begin config i task
          (.resume workflowId (some presented)) (state.resumed presented draw.answerId)
            draw).Uncached := by
  obtain ⟨checkpoint, approval, atPhase, member, opened⟩ :=
    sound.waiting workflowId state found waits
  have keyed := WorkflowStore.load_key found
  subst keyed
  have resumed : ((world.setCache i state.key (some presented)).save
      (state.resumed presented draw.answerId)).Checkpointed phases :=
    (sound.setCache i state.key (some presented)).save fun status => nomatch status
  have running : (((world.setCache i state.key (some presented)).save
      (state.resumed presented draw.answerId)).save
        (state.resumed presented draw.answerId).running).Checkpointed phases :=
    resumed.save fun status => nomatch status
  have ends := loop_ends config (((world.setCache i state.key (some presented)).save
    (state.resumed presented draw.answerId)).save (state.resumed presented draw.answerId).running)
    i task (.resume state.key (some presented)) (state.resumed presented draw.answerId).running draw
  constructor
  · refine ends.checkpointed same running (load_save_self _ _) rfl ?_
    intro phase cached atCurrent _ _
    have samePhase : checkpoint.phase = phase :=
      Option.some.inj (atPhase.symm.trans atCurrent)
    refine ⟨presented, checkpoint, rfl, approved, ?_, samePhase, ?_⟩
    · have untouched : openCheckpoint phases state.key world.effects = some checkpoint := opened
      simp only [save, openCheckpoint_append, trackCheckpoint, WorkflowState.running,
        WorkflowState.resumed, reduceCtorEq, and_false, if_false]
      exact untouched
    · simpa [approval] using matched
  · refine ends.uncached ?_ (Or.inr ⟨checkpoint.phase, atPhase, same ▸ member⟩)
    intro j other different
    rcases different with runner | key
    · simpa [save, setCache, runner] using uncached j other
    · by_cases runner : j = i
      · subst runner
        have elsewhere : other ≠ state.key := key
        simpa [save, setCache, elsewhere] using uncached j other
      · simpa [save, setCache, runner] using uncached j other

def Sound (phases : List WorkflowPhase) (world : World ι γ τ) : Prop :=
  world.Checkpointed phases ∧ world.Uncached

theorem invoke_sound (same : ∀ i, (config i).approvalPhases = phases)
    (sound : world.Sound phases) (i : ι) (task : τ) (call : Call) (draw : Draw) :
    (world.invoke config i task call draw).Sound phases := by
  obtain ⟨checkpointed, uncached⟩ := sound
  cases call with
  | run workflowId =>
      rcases world.run_cases config i task workflowId draw with
        ⟨result, answered⟩ | ⟨state, _, _, begun⟩
      · simp only [invoke, answered]
        exact ⟨checkpointed.answer task workflowId result, uncached⟩
      · simp only [invoke, begun]
        have saved : (world.save state.running).Checkpointed phases :=
          checkpointed.save fun status => nomatch status
        exact loop_checkpointed i (same i) saved uncached (load_save_self _ _) rfl task _ draw
  | resume workflowId approval =>
      rcases world.resume_cases config i task workflowId approval draw with
        ⟨result, answered⟩ | ⟨state, presented, found, waits, rfl, approved, matched, begun⟩
      · simp only [invoke, answered]
        exact ⟨checkpointed.answer task workflowId result, uncached⟩
      · simp only [invoke, begun]
        exact resume_checkpointed i (same i) checkpointed uncached found waits approved matched
          task draw

theorem settle_sound (same : ∀ i, (config i).approvalPhases = phases)
    (sound : world.Sound phases) (task : τ) (frame : Frame ι) (outcome : Outcome)
    (draw : Draw) :
    ((world.emit (.settled task frame.phase frame.current outcome)).settle config task frame
      outcome draw).Sound phases := by
  have settled : (world.emit (.settled task frame.phase frame.current outcome)).Checkpointed
      phases := sound.1.emit (fun _ => rfl) (by simp)
  have uncached : (world.emit (.settled task frame.phase frame.current outcome)).Uncached :=
    sound.2
  cases outcome with
  | returned event =>
      obtain ⟨gateway, behind⟩ := settle_returned config
        (world.emit (.settled task frame.phase frame.current (.returned event)))
        task frame event draw
      rw [behind]
      have saved : (((world.emit (.settled task frame.phase frame.current
          (.returned event))).setGateway (config frame.runner).security gateway).save
            (frame.current.advance event)).Checkpointed phases :=
        (settled.setGateway _ gateway).save (by simp [WorkflowState.advance])
      exact loop_checkpointed frame.runner (same frame.runner) saved uncached
        (load_save_self _ _) rfl task frame.call draw
  | escalated message =>
      obtain ⟨gateway, behind⟩ := settle_escalated config
        (world.emit (.settled task frame.phase frame.current (.escalated message)))
        task frame message draw
      rw [behind]
      exact ⟨(settled.setGateway _ gateway).answer task _ _, uncached⟩
  | raised message =>
      obtain ⟨gateway, behind⟩ := settle_raised config
        (world.emit (.settled task frame.phase frame.current (.raised message)))
        task frame message draw
      rw [behind]
      exact ⟨(settled.setGateway _ gateway).fail task _ _ _ _ _, uncached⟩
  | cancelled =>
      simp only [settle]
      exact ⟨settled.answer task _ _, uncached⟩

theorem sound_step (same : ∀ i, (config i).approvalPhases = phases) {next : World ι γ τ}
    {event : WorldEvent ι γ τ} (sound : world.Sound phases)
    (fired : worldStep config world event next) : next.Sound phases := by
  cases event with
  | start request =>
      obtain rfl := Option.some.inj fired
      have saved : (world.start request).Checkpointed phases :=
        sound.1.save fun status => nomatch status
      exact ⟨saved, sound.2⟩
  | call task i call draw =>
      obtain ⟨_, rfl⟩ := worldStep_call.mp fired
      exact invoke_sound same sound i task call draw
  | settle task outcome draw =>
      obtain ⟨frame, _, rfl⟩ := worldStep_settle.mp fired
      exact settle_sound same sound task frame outcome draw
  | escalate workflowId reason draw =>
      obtain rfl := Option.some.inj fired
      unfold escalate
      split
      · exact ⟨sound.1.answered _ _, sound.2⟩
      · rename_i state found
        have saved : (world.save (state.escalated reason draw.eventId)).Checkpointed phases :=
          sound.1.save fun status => nomatch status
        exact ⟨saved.answered _ _, sound.2⟩
  | environment g gateway =>
      obtain rfl := Option.some.inj fired
      exact ⟨sound.1.setGateway g gateway, sound.2⟩

theorem sound_run (same : ∀ i, (config i).approvalPhases = phases)
    {gateways : γ → SecurityGateway} {events : List (WorldEvent ι γ τ)}
    (run : Run (worldStep config) (World.init gateways) events world) : world.Sound phases := by
  refine run.invariant (motive := Sound phases) ⟨⟨?_, ?_⟩, fun _ _ => rfl⟩ ?_
  · intro past task call phase state later split
    simp [World.init] at split
  · intro k row stored
    cases stored
  · intro before event after sound fired
    exact sound_step same sound fired

end Step

/-! ## The law -/

/-- Each call of an operation of the phases is paid for, so there are at most
as many of them as checkpoints. -/
structure CheckpointLaw (phases : List WorkflowPhase) (effects : List (Effect τ)) : Prop where
  paid : GatedCalls phases effects
  atMost : ∀ k, effects.countP (isGatedCall phases k) ≤ effects.countP (isCheckpoint k)

section Instances
variable [DecidableEq ι] [DecidableEq γ] [DecidableEq τ]

/-- The law holds for one instance with any approval phases, and for any number of them
with the same phases over one store, whatever the calls and escalations are and however
they interleave. -/
theorem approval_phases_paid (config : ι → EngineeringWorkflow γ)
    (same : ∀ i, (config i).approvalPhases = phases) (gateways : γ → SecurityGateway)
    {events : List (WorldEvent ι γ τ)} {world : World ι γ τ}
    (run : Run (worldStep config) (World.init gateways) events world) :
    CheckpointLaw phases world.effects := by
  have gated := (sound_run same run).1.gated
  refine ⟨gated, fun k => ?_⟩
  have bound := gated.count_le k
  omega

def cautious : EngineeringWorkflow Unit :=
  { engineering with approvalPhases := [.understand] }

/-- One instance asks, and another one is resumed with the answer. -/
theorem approval_phases_paid_resumed :
    ∃ world : World Bool Unit ℕ,
      world.effects.countP (isGatedCall cautious.approvalPhases feature.id.str) = 1 ∧
        CheckpointLaw cautious.approvalPhases world.effects := by
  let answer : Approval :=
    { requestId := sampleDraw.approvalRequestId, status := .approved, approver := some "human" }
  let events : List (WorldEvent Bool Unit ℕ) :=
    [.start feature, .call 0 false (.run feature.id.str) sampleDraw,
      .call 1 true (.resume feature.id.str (some answer)) sampleDraw]
  have reached : (events.foldlM (World.next fun _ => cautious)
      (World.init fun _ => engineers)).map (fun world =>
        world.effects.countP (isGatedCall cautious.approvalPhases feature.id.str)) = some 1 := by
    decide +kernel
  obtain ⟨world, folded, called⟩ := Option.map_eq_some_iff.mp reached
  have paid := approval_phases_paid (fun _ => cautious) (fun _ => rfl) (fun _ => engineers)
    (Run.of_foldlM folded)
  exact ⟨world, called, paid⟩

end Instances
end World

end Eis.Workflows
