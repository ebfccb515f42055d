import Eis.Foundation.OrderedDict
import Eis.Foundation.Uuid
import Eis.Foundation.Value

/-!
# Data contracts of the SDK
-/

set_option autoImplicit false

namespace Eis.Sdk

inductive TaskStatus where
  | queued
  | running
  | completed
  | failed
deriving DecidableEq

structure Product where
  name : String
  purpose : String
  id : UUID
  metadata : Dict := Table.empty

structure KnowledgeItem where
  content : String
  source : String
  title : Option String := none
  id : UUID
  metadata : Dict := Table.empty

structure MemoryItem where
  content : String
  metadata : Dict := Table.empty
  id : UUID

structure Task where
  objective : String
  id : UUID
  input : Value := .none

structure TaskResult where
  taskId : UUID
  status : TaskStatus
  output : Value := .none
  error : Option String := none

structure AgentResult where
  agent : String
  task : Task
  output : Value := .none
  error : Option String := none
  completed : Bool := false

structure EvaluationResult where
  subject : String
  conclusion : String
  rationale : String
  evidence : List String := []
  uncertainty : Option String := none

structure EngineeringResult where
  task : Task
  status : String
  summary : String
  raw : Value := .none

structure ExecutionResult where
  action : String
  success : Bool
  output : Value := .none
  error : Option String := none

structure WorkflowResult where
  workflow : String
  success : Bool
  output : Value := .none
  error : Option String := none

structure AuditEntry where
  action : String
  result : String
  timestamp : String
  taskId : Option String := none
  agent : Option String := none
  target : Option String := none
  failure : Option String := none
deriving DecidableEq

end Eis.Sdk
