import Eis.Foundation.Program
import Eis.Specialized.Models

/-!
# The agent orchestrator

`AgentOrchestrator.run` over a factory whose agents may change the world as
they like.  What the agents were asked and what they answered is kept beside it.
-/

set_option autoImplicit false

namespace Eis.Specialized

structure SpecializedAgent (σ ε ω : Type) where
  run : String → Value → Call σ ε ω
  challenge : AgentKind → ω → Call σ ε (Option AgentChallenge)

/-- `challenge` is missing where the runner has no attribute of that name. -/
structure Runner (σ ε ω : Type) where
  call : AgentKind → String → Value → Call σ ε ω
  challenge : Option (AgentKind → AgentKind → ω → Call σ ε (Option AgentChallenge)) := none

/-- `DefaultAgentFactory.create`: the kind of `SPECS[kind]` is `kind`. -/
def Runner.create {σ ε ω : Type} (runner : Runner σ ε ω) (kind : AgentKind) :
    Call σ ε (SpecializedAgent σ ε ω) := fun world =>
  (world, .ok
    { run := runner.call kind
      challenge := fun target result world =>
        match runner.challenge with
        | some challenge => challenge kind target result world
        | none => (world, .ok none) })

structure AgentOrchestrator (σ ε ω : Type) where
  create : AgentKind → Call σ ε (SpecializedAgent σ ε ω)
  maxAssignments : ℤ := 16
  positive : 1 ≤ maxAssignments

structure Asking (ω : Type) where
  challenger : AgentKind
  target : AgentKind
  output : ω
  challenge : Option AgentChallenge

structure Progress (σ ω : Type) where
  world : σ
  ran : List (AgentAssignment × ω) := []
  asked : List (Asking ω) := []

namespace AgentOrchestrator

variable {σ ε ω α : Type}

def await (call : Call σ ε α) (record : α → Progress σ ω → Progress σ ω) :
    Program (Progress σ ω) ε α := fun progress =>
  match call progress.world with
  | (world, .ok value) => .ok value (record value { progress with world := world })
  | (world, .error exception) => .error exception { progress with world := world }

/-- The body of the first loop. -/
def work (orchestrator : AgentOrchestrator σ ε ω) (results : OrderedDict AgentKind ω)
    (assignment : AgentAssignment) : Program (Progress σ ω) ε (OrderedDict AgentKind ω) := do
  let agent ← await (orchestrator.create assignment.agent) fun _ progress => progress
  let output ← await (agent.run assignment.objective assignment.input) fun output progress =>
    { progress with ran := progress.ran ++ [(assignment, output)] }
  pure (results.setItem assignment.agent output)

/-- The body of the loop over the results. -/
def confront (agent : SpecializedAgent σ ε ω) (challenger : AgentKind)
    (challenges : List AgentChallenge) (result : AgentKind × ω) :
    Program (Progress σ ω) ε (List AgentChallenge) :=
  if result.1 = challenger then pure challenges
  else do
    let challenge ← await (agent.challenge result.1 result.2) fun challenge progress =>
      { progress with
        asked := progress.asked ++
          [{ challenger := challenger, target := result.1, output := result.2,
             challenge := challenge }] }
    pure (challenges ++ challenge.toList)

/-- The body of the second loop. -/
def review (orchestrator : AgentOrchestrator σ ε ω) (results : OrderedDict AgentKind ω)
    (challenges : List AgentChallenge) (assignment : AgentAssignment) :
    Program (Progress σ ω) ε (List AgentChallenge) := do
  let agent ← await (orchestrator.create assignment.agent) fun _ progress => progress
  results.rows.foldlM (confront agent assignment.agent) challenges

def run (orchestrator : AgentOrchestrator σ ε ω) (assignments : List AgentAssignment) :
    Program (Progress σ ω) ε (CoordinationResult ω) :=
  if orchestrator.maxAssignments < assignments.length then
    pure
      { assignments := assignments
        results := Table.empty
        escalated := true
        escalationReason := some "maximum assignments exceeded" }
  else do
    let results ← assignments.foldlM orchestrator.work Table.empty
    let challenges ← assignments.foldlM (orchestrator.review results) []
    pure { assignments := assignments, results := results, challenges := challenges }

end AgentOrchestrator

end Eis.Specialized
