import Petalflow.Graph.Rules

open dict petalflow.core

namespace petalflow.agent

structure Agent where
  role : String
  goal : String
  backstory : String := ""
  provider : String
  model : String
  tools : List String := []
  toolConfig : Dict String (Dict String Value) := .empty
  config : Dict String Value := .empty

set_option linter.dupNamespace false in
structure Task where
  description : String
  agent : String
  expectedOutput : String
  outputKey : String := ""
  inputs : Dict String String := .empty
  review : String := ""
  context : List String := []

structure TaskDependencies where
  dependsOn : List String
  condition : String := ""

/-- How the tasks are executed. `tasks` is `none` when it is missing from the
file, which is told apart from an empty map. -/
structure ExecutionConfig where
  strategy : String
  taskOrder : List String := []
  mergeStrategy : String := ""
  managerAgent : String := ""
  tasks : Option (Dict String TaskDependencies) := none

structure AgentWorkflow where
  version : String := ""
  schemaVersion : String := ""
  kind : String := ""
  id : String
  name : String := ""
  agents : Dict String Agent
  tasks : Dict String Task
  execution : ExecutionConfig

inductive Strategy where
  | sequential | parallel | hierarchical | custom
deriving DecidableEq, Repr

def Strategy.ofName? (name : String) : Option Strategy :=
  if name = "sequential" then some .sequential
  else if name = "parallel" then some .parallel
  else if name = "hierarchical" then some .hierarchical
  else if name = "custom" then some .custom
  else none

def AgentWorkflow.strategy? (wf : AgentWorkflow) : Option Strategy := Strategy.ofName? wf.execution.strategy

/-- The declared dependencies; a missing map reads as an empty one. -/
def AgentWorkflow.dependencies (wf : AgentWorkflow) : Dict String TaskDependencies :=
  wf.execution.tasks.getD .empty

/-- A reference `{{tasks.TASK.FIELD}}` at the start of a text: the task. -/
def refPattern : text.Pattern String := fun cs => do
  let rest ← cs.dropPrefix? "\x7b\x7btasks.".toList
  let taskID := rest.takeWhile text.isWord
  let rest ← (rest.dropWhile text.isWord).dropPrefix? ['.']
  let field := rest.takeWhile (· ≠ '\x7d')
  let rest ← (rest.dropWhile (· ≠ '\x7d')).dropPrefix? "\x7d\x7d".toList
  if taskID = [] ∨ field = [] then none else some (.ofList taskID, rest)

def findTaskRefs (tmpl : String) : List String := (text.findAll refPattern 0 tmpl.toList).eraseDups

def extractTaskRefs (tmpl : String) : List String := findTaskRefs tmpl

def compileExtractTaskRefs (tmpl : String) : List String := findTaskRefs tmpl

def inputRefPattern : text.Pattern (List Char) := fun cs => do
  let rest ← cs.dropPrefix? "\x7b\x7binput.".toList
  let isPath := fun c => text.isWord c || c = '.'
  let field := rest.takeWhile isPath
  let rest ← (rest.dropWhile isPath).dropPrefix? "\x7d\x7d".toList
  if field = [] then none
  else some ("\x7b\x7b.".toList ++ field ++ "\x7d\x7d".toList, rest)

/-- A task output placeholder, rewritten to the variable of the task's node. It
is left as it is when the task has no node yet. -/
def taskRefPattern (taskNodeIDs : String → Option String) : text.Pattern (List Char) := fun cs => do
  let rest ← cs.dropPrefix? "\x7b\x7btasks.".toList
  let taskID := rest.takeWhile text.isWord
  let rest ← (rest.dropWhile text.isWord).dropPrefix? ".output\x7d\x7d".toList
  if taskID = [] then none
  else
    match taskNodeIDs (.ofList taskID) with
    | some nodeID => some (("\x7b\x7b." ++ nodeID ++ "_output\x7d\x7d").toList, rest)
    | none => some (cs.take (cs.length - rest.length), rest)

def rewriteTemplate (tmpl : String) (taskNodeIDs : String → Option String) : String :=
  let s := text.replaceAll inputRefPattern 0 tmpl.toList
  .ofList (text.replaceAll (taskRefPattern taskNodeIDs) 0 s)

def condExprPattern (taskNodeIDs : String → Option String) : text.Pattern (List Char) := fun cs => do
  let rest ← cs.dropPrefix? "tasks.".toList
  let taskID := rest.takeWhile text.isWord
  let rest ← (rest.dropWhile text.isWord).dropPrefix? ".output".toList
  let isPath := fun c => text.isWord c || c = '.'
  let field := if rest.head? = some '.' then rest.takeWhile isPath else []
  let rest := rest.drop field.length
  if taskID = [] then none
  else
    match taskNodeIDs (.ofList taskID) with
    | some nodeID => some ((nodeID ++ "_output").toList ++ field, rest)
    | none => some (cs.take (cs.length - rest.length), rest)

def rewriteConditionExpr (expr : String) (taskNodeIDs : String → Option String) : String :=
  .ofList (text.replaceAll (condExprPattern taskNodeIDs) 0 expr.toList)

example : extractTaskRefs
    "see \x7b\x7btasks.a_1.output\x7d\x7d, \x7b\x7btasks.b.\x7d\x7d, \x7b\x7btasks.a_1.x\x7d\x7d" =
    ["a_1"] := by
  decide +kernel

example : rewriteConditionExpr "tasks.a.output.score > 1 && tasks.b.output" (fun id => some (id ++ "__x")) =
    "a__x_output.score > 1 && b__x_output" := by
  decide +kernel

structure ToolReference where
  toolName : String
  actionName : String
  hasAction : Bool
  valid : Bool
deriving DecidableEq, Repr

def parseToolReference (ref : String) : ToolReference :=
  match text.cut '.' ref.toList with
  | (_, none) => { toolName := text.trimSpace ref, actionName := "", hasAction := false, valid := true }
  | (name, some action) =>
    let toolName := text.trimSpace (.ofList name)
    let actionName := text.trimSpace (.ofList action)
    { toolName, actionName, hasAction := true, valid := toolName ≠ "" && actionName ≠ "" }

open petalflow.graph petalflow.registry

def validProviders : List String := ["anthropic", "openai", "google", "cohere", "mistral", "groq", "ollama"]

def maxIDLength : Nat := 64

/-- The ids `[a-z][a-z0-9_]*` of at most 64 characters. -/
def isValidID (id : String) : Bool :=
  match id.toList with
  | [] => false
  | c :: cs => (c :: cs).length ≤ maxIDLength && c.isLower && cs.all fun c => c.isLower || c.isDigit || c = '_'

def errDiag (code : Code) (message path : String) : Diagnostic := { code, severity := .error, message, path }

def validateSchemaHeader (wf : AgentWorkflow) : List Diagnostic :=
  let kind :=
    if wf.kind = "" then []
    else
      match schemafmt.normalizeKind wf.kind with
      | .error err => [errDiag .at014 s!"Invalid workflow kind: {err}" "kind"]
      | .ok (normalized, _) =>
        if normalized = .agent then []
        else [errDiag .at014 ("Workflow kind " ++ wf.kind.quote ++ " is not valid for agent schema (expected " ++
          schemafmt.WorkflowKind.agent.name.quote ++ ")") "kind"]
  let schemaVersion :=
    if wf.schemaVersion = "" then []
    else
      match schemafmt.validateSchemaVersion wf.schemaVersion schemafmt.supportedAgentSchemaMajor with
      | .error err => [errDiag .at014 s!"Invalid schema_version: {err}" "schema_version"]
      | .ok () => []
  kind ++ schemaVersion

/-- AT-012 for one kind of ids, which stand in the map `field`. -/
def validateIDs (what field : String) (ids : List String) : List Diagnostic :=
  ids.filterMap fun id =>
    if isValidID id then none
    else some (errDiag .at012
      s!"{what} ID {id.quote} must match [a-z][a-z0-9_]* and be at most {maxIDLength} characters"
      s!"{field}.{id}")

def validateIDFormats (wf : AgentWorkflow) : List Diagnostic :=
  validateIDs "Agent" "agents" wf.agents.keys ++ validateIDs "Task" "tasks" wf.tasks.keys

/-- AT-010 for one field. -/
def validateRequired (what id path field value : String) : List Diagnostic :=
  if value = "" then
    [errDiag .at010 (what ++ " " ++ id.quote ++ " is missing required field \"" ++ field ++ "\"")
      (path ++ "." ++ field)]
  else []

def validateAgentRequiredFields (id path : String) (ag : Agent) : List Diagnostic :=
  let required := validateRequired "Agent" id path
  let provider :=
    if ag.provider ≠ "" ∧ ag.provider ∉ validProviders then
      [errDiag .at002 s!"Agent {id.quote} has invalid provider {ag.provider.quote}" (path ++ ".provider")]
    else []
  required "role" ag.role ++ required "goal" ag.goal ++ required "provider" ag.provider ++
    required "model" ag.model ++ provider

structure ToolCheck where
  toolRefsByName : String → List String
  diags : List Diagnostic

def hasAnyActionForTool (reg : Registry) (toolName : String) : Bool :=
  reg.all.any fun typeDef => typeDef.isTool && text.hasPrefix typeDef.type (text.trimSpace toolName ++ ".")

/-- AT-004 for one entry of an agent's tools. -/
def validateAgentTool (agentID path : String) (reg : Registry) (check : ToolCheck) (entry : String × Nat) :
    ToolCheck :=
  let (toolID, i) := entry
  let toolRef := text.trimSpace toolID
  let ref := parseToolReference toolRef
  let report (message : String) : ToolCheck :=
    { check with diags := check.diags ++ [errDiag .at004 message (path ++ s!".tools[{i}]")] }
  let accept (toolName : String) : ToolCheck :=
    { check with
      toolRefsByName := Function.update check.toolRefsByName toolName (check.toolRefsByName toolName ++ [toolRef]) }
  if ref.hasAction && !ref.valid then
    report s!"Agent {agentID.quote} tool reference {toolID.quote} must use tool_name.action_name"
  else if ref.hasAction then
    if (reg.get toolRef).any (·.isTool) then accept ref.toolName
    else if hasAnyActionForTool reg ref.toolName then
      report s!"Agent {agentID.quote} references unknown action {ref.actionName.quote} on tool {ref.toolName.quote}"
    else report s!"Agent {agentID.quote} references unknown tool {ref.toolName.quote}"
  else if !reg.hasTool toolRef then report s!"Agent {agentID.quote} references unknown tool {toolID.quote}"
  else accept toolRef

def validateAgentTools (agentID path : String) (tools : List String) (reg : Registry) : ToolCheck :=
  tools.zipIdx.foldl (validateAgentTool agentID path reg) { toolRefsByName := fun _ => [], diags := [] }

def extractToolConfigFieldNames : ConfigSchema → List String
  | .fieldSpecs names => names
  | .object (some (.fieldSpecs names)) => names
  | .object (some (.object names)) => names
  | .object _ => []
  | .other => []

def validateAgentToolConfig (agentID path : String) (toolConfig : Dict String (Dict String Value))
    (toolRefsByName : String → List String) (reg : Registry) : List Diagnostic :=
  toolConfig.entries.flatMap fun (toolName, overrides) =>
    if overrides.entries = [] then []
    else
      let referenced :=
        if toolRefsByName toolName = [] ∧ reg.hasTool toolName then [toolName] else toolRefsByName toolName
      if referenced = [] then
        [errDiag .at004 s!"Agent {agentID.quote} tool_config references unknown tool {toolName.quote}"
          s!"{path}.tool_config.{toolName}"]
      else
        let allowedKeys := (referenced.filterMap reg.get).flatMap fun typeDef =>
          extractToolConfigFieldNames typeDef.configSchema
        overrides.keys.filterMap fun key =>
          if key ∈ allowedKeys then none
          else some (errDiag .at004
            s!"Agent {agentID.quote} tool_config field {key.quote} is not declared for tool {toolName.quote}"
            s!"{path}.tool_config.{toolName}.{key}")

def validateAgents (wf : AgentWorkflow) (reg : Registry) : List Diagnostic :=
  wf.agents.entries.flatMap fun (id, ag) =>
    let path := s!"agents.{id}"
    let tools := validateAgentTools id path ag.tools reg
    validateAgentRequiredFields id path ag ++ tools.diags ++
      validateAgentToolConfig id path ag.toolConfig tools.toolRefsByName reg

def validateTaskRequiredFields (id path : String) (task : Task) : List Diagnostic :=
  let required := validateRequired "Task" id path
  required "description" task.description ++ required "agent" task.agent ++
    required "expected_output" task.expectedOutput

def validateTaskAgentReference (wf : AgentWorkflow) (id path : String) (task : Task) : List Diagnostic :=
  if task.agent = "" then []
  else if task.agent ∈ wf.agents.keys then []
  else [errDiag .at001 s!"Task {id.quote} references undefined agent {task.agent.quote}" (path ++ ".agent")]

def validateTaskInputReferences (wf : AgentWorkflow) (id path : String) (task : Task) : List Diagnostic :=
  task.inputs.entries.flatMap fun (param, tmpl) =>
    (extractTaskRefs tmpl).filterMap fun ref =>
      if ref ∈ wf.tasks.keys then none
      else some (errDiag .at008 s!"Unresolved reference {tmpl.quote} in task {id.quote}" s!"{path}.inputs.{param}")

def validateTaskContextReferences (wf : AgentWorkflow) (id path : String) (task : Task) : List Diagnostic :=
  task.context.zipIdx.filterMap fun (ctxRef, i) =>
    if ctxRef ∈ wf.tasks.keys then none
    else some (errDiag .at008 s!"Task {id.quote} context references undefined task {ctxRef.quote}"
      s!"{path}.context[{i}]")

def validateTasks (wf : AgentWorkflow) : List Diagnostic :=
  wf.tasks.entries.flatMap fun (id, task) =>
    let path := s!"tasks.{id}"
    validateTaskRequiredFields id path task ++ validateTaskAgentReference wf id path task ++
      validateTaskInputReferences wf id path task ++ validateTaskContextReferences wf id path task

def validateExecutionStrategy (wf : AgentWorkflow) : List Diagnostic :=
  let strategy := wf.execution.strategy
  if strategy = "" then [errDiag .at010 "Execution strategy is required" "execution.strategy"]
  else if (Strategy.ofName? strategy).isNone then
    [errDiag .at005 (s!"Invalid execution strategy {strategy.quote} (must be sequential, parallel, " ++
      "hierarchical, or custom)") "execution.strategy"]
  else []

/-- AT-006: the task order lists exactly the tasks. -/
def validateSequential (wf : AgentWorkflow) : List Diagnostic :=
  let order := wf.execution.taskOrder
  if order = [] then
    [errDiag .at006 "Sequential strategy requires \"task_order\" listing all task IDs" "execution.task_order"]
  else
    let undefinedTasks := order.filterMap fun id =>
      if id ∈ wf.tasks.keys then none
      else some (errDiag .at006 s!"task_order references undefined task {id.quote}" "execution.task_order")
    let unlistedTasks := wf.tasks.keys.filterMap fun id =>
      if id ∈ order then none
      else some (errDiag .at006 s!"Task {id.quote} is not listed in task_order" "execution.task_order")
    undefinedTasks ++ unlistedTasks

/-- The dependencies of a custom execution as edges from a task to its
dependents. Those on undefined tasks are left out, those of undefined tasks are not. -/
def dependencyEdges (wf : AgentWorkflow) (tasks : Dict String TaskDependencies) : List (String × String) :=
  tasks.entries.flatMap fun (id, deps) =>
    (deps.dependsOn.filter (· ∈ wf.tasks.keys)).map fun dep => (dep, id)

/-- AT-007, AT-008 and AT-013: the dependencies are of defined tasks, have no
cycle, and their conditions can be parsed. -/
def validateCustom (wf : AgentWorkflow) (exprValidator : Option ExprValidator) : List Diagnostic :=
  match wf.execution.tasks with
  | none => []
  | some tasks =>
    let unresolved := tasks.entries.flatMap fun (id, deps) =>
      deps.dependsOn.filterMap fun dep =>
        if dep ∈ wf.tasks.keys then none
        else some (errDiag .at008 s!"Task {id.quote} depends_on references undefined task {dep.quote}"
          s!"execution.tasks.{id}.depends_on")
    let sorted := kahn.run wf.tasks.keys (dependencyEdges wf tasks)
    let cycle :=
      if sorted.visited < wf.tasks.keys.length then
        [errDiag .at007 ("Dependency cycle detected involving tasks: " ++
          text.sprintList (wf.tasks.keys.filter fun id => 0 < sorted.inDegree id)) "execution.tasks"]
      else []
    let conditions := tasks.entries.flatMap fun (id, deps) =>
      match exprValidator with
      | some validator =>
        if deps.condition = "" then []
        else
          match validator deps.condition with
          | .error err =>
            [errDiag .at013 s!"Task {id.quote} has invalid condition expression: {err}"
              s!"execution.tasks.{id}.condition"]
          | .ok () => []
      | none => []
    unresolved ++ cycle ++ conditions

/-- AT-009 for one task. -/
def orphanDiag (id : String) : Diagnostic :=
  errDiag .at009 s!"Task {id.quote} is not referenced in execution block" s!"tasks.{id}"

/-- AT-009: a custom execution mentions every task. -/
def validateOrphanTasks (wf : AgentWorkflow) : List Diagnostic :=
  if wf.strategy? = some .custom then
    match wf.execution.tasks with
    | none => wf.tasks.keys.map orphanDiag
    | some tasks =>
      let referenced := tasks.entries.flatMap fun (id, deps) => id :: deps.dependsOn
      (wf.tasks.keys.filter (· ∉ referenced)).map orphanDiag
  else []

def validateStrategy (wf : AgentWorkflow) (exprValidator : Option ExprValidator) : List Diagnostic :=
  match wf.strategy? with
  | some .sequential => validateSequential wf
  | some .custom => validateCustom wf exprValidator
  | _ => []

def validate (reg : Registry) (exprValidator : Option ExprValidator) : Option AgentWorkflow → List Diagnostic
  | none => [errDiag .at010 "workflow is nil" ""]
  | some wf =>
    validateSchemaHeader wf ++ validateIDFormats wf ++ validateAgents wf reg ++ validateTasks wf ++
      validateExecutionStrategy wf ++ validateStrategy wf exprValidator ++ validateOrphanTasks wf

end petalflow.agent
