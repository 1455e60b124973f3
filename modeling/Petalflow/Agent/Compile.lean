import Petalflow.Agent.Validate

open dict petalflow.core petalflow.graph petalflow.registry

namespace petalflow.agent

def compilerVersion : String := "0.1.0"

structure Draft where
  gd : GraphDefinition
  taskStartNodeIDs : String → Option String
  taskNodeIDs : String → Option String

namespace Draft

def addNode (d : Draft) (node : NodeDef) : Draft :=
  { d with gd := { d.gd with nodes := d.gd.nodes ++ [node] } }

def addEdge (d : Draft) (source sourceHandle target targetHandle : String) : Draft :=
  { d with gd := { d.gd with edges := d.gd.edges ++ [⟨source, sourceHandle, target, targetHandle⟩] } }

def setStart (d : Draft) (taskID nodeID : String) : Draft :=
  { d with taskStartNodeIDs := Function.update d.taskStartNodeIDs taskID (some nodeID) }

def setOutput (d : Draft) (taskID nodeID : String) : Draft :=
  { d with taskNodeIDs := Function.update d.taskNodeIDs taskID (some nodeID) }

def setEntry (d : Draft) (nodeID : String) : Draft := { d with gd := { d.gd with entry := nodeID } }

def startOf (d : Draft) (taskID : String) : String := (d.taskStartNodeIDs taskID).getD ""

def outputOf (d : Draft) (taskID : String) : String := (d.taskNodeIDs taskID).getD ""

@[simp] theorem nodeIDs_addNode (d : Draft) (node : NodeDef) :
    (d.addNode node).gd.nodeIDs = d.gd.nodeIDs ++ [node.id] := by
  simp [addNode, GraphDefinition.nodeIDs]

@[simp] theorem links_addNode (d : Draft) (node : NodeDef) : (d.addNode node).gd.links = d.gd.links := rfl

@[simp] theorem nodeIDs_addEdge (d : Draft) (source sourceHandle target targetHandle : String) :
    (d.addEdge source sourceHandle target targetHandle).gd.nodeIDs = d.gd.nodeIDs :=
  rfl

@[simp] theorem links_addEdge (d : Draft) (source sourceHandle target targetHandle : String) :
    (d.addEdge source sourceHandle target targetHandle).gd.links = d.gd.links ++ [(source, target)] := by
  simp [addEdge, GraphDefinition.links]

end Draft

/-- The empty graph with its header. `now` is the time in RFC 3339. -/
def newCompiledGraphDefinition (now : String) (wf : AgentWorkflow) : GraphDefinition :=
  let trimmed := text.trimSpace wf.schemaVersion
  let sourceSchemaVersion := if trimmed = "" then schemafmt.legacySchemaVersion else trimmed
  { id := wf.id
    version := wf.version
    kind := schemafmt.WorkflowKind.graph.name
    schemaVersion := schemafmt.currentGraphSchemaVersion
    metadata :=
      [("source_kind", schemafmt.WorkflowKind.agent.name), ("source_version", wf.version),
       ("source_schema_version", sourceSchemaVersion), ("compiled_at", now), ("compiler_version", compilerVersion)]
    nodes := []
    edges := []
    entry := "" }

def hasBytesPort (ports : List PortDef) : Bool := ports.any (·.type = "bytes")

def inferredToolMode (typeDef : NodeTypeDef) : String :=
  if text.trimSpace typeDef.toolMode ≠ "" then typeDef.toolMode
  else if hasBytesPort typeDef.ports.inputs || hasBytesPort typeDef.ports.outputs then "standalone"
  else "function_call"

/-- The mode of a tool: the registered one, or one that its ports suggest. -/
def resolveToolMode (reg : Registry) (toolRef : String) : String :=
  let mode := reg.toolMode toolRef
  if mode = "" then
    match reg.get toolRef with
    | some typeDef => if typeDef.isTool then inferredToolMode typeDef else mode
    | none => mode
  else mode

def defaultArgsTemplate (inputs : List PortDef) : Vars :=
  inputs.foldl (fun out input =>
    let name := text.trimSpace input.name
    if name = "" then out else out.set name (.str name)) []

def cloneAnyMap (fields : Dict String Value) : Value := .map fields.entries

def cloneToolConfig (toolConfig : Dict String (Dict String Value)) : Value :=
  .map (toolConfig.entries.map fun e => (e.1, cloneAnyMap e.2))

def buildStandaloneToolNodeConfig (reg : Registry) (toolRef : String) (ag : Agent) : Vars :=
  let argsTemplate :=
    match reg.get toolRef with
    | some typeDef => defaultArgsTemplate typeDef.ports.inputs
    | none => []
  let args := if argsTemplate = [] then [] else [("args_template", Value.map argsTemplate)]
  let ref := parseToolReference toolRef
  let action :=
    if ref.hasAction && ref.valid then
      let overrides :=
        match ag.toolConfig.get? ref.toolName with
        | some overrides => if overrides.entries = [] then [] else [("tool_config", cloneAnyMap overrides)]
        | none => []
      ("tool_name", .str ref.toolName) :: ("action_name", .str ref.actionName) :: overrides
    else []
  args ++ action

structure ToolPass where
  draft : Draft
  fcTools : List String := []
  firstStandaloneNodeID : String := ""
  prevStandaloneNodeID : String := ""

def compileTaskTool (reg : Registry) (taskID : String) (ag : Agent) (pass : ToolPass) (toolID : String) : ToolPass :=
  let toolRef := text.trimSpace toolID
  let mode := resolveToolMode reg toolRef
  if mode = "function_call" then { pass with fcTools := pass.fcTools ++ [toolRef] }
  else if mode = "standalone" then
    let toolNodeID := taskID ++ "__" ++ toolRef
    let draft := pass.draft.addNode
      { id := toolNodeID, type := toolRef, config := buildStandaloneToolNodeConfig reg toolRef ag }
    let first := if pass.firstStandaloneNodeID = "" then toolNodeID else pass.firstStandaloneNodeID
    let draft :=
      if pass.prevStandaloneNodeID = "" then draft
      else draft.addEdge pass.prevStandaloneNodeID "output" toolNodeID "input"
    { pass with
      draft := draft.setStart taskID first
      firstStandaloneNodeID := first
      prevStandaloneNodeID := toolNodeID }
  else pass

def compileTaskTools (reg : Registry) (d : Draft) (taskID : String) (ag : Agent) : ToolPass :=
  ag.tools.foldl (compileTaskTool reg taskID ag) { draft := d }

def buildSystemPrompt (ag : Agent) (task : Task) : String :=
  let backstory := if ag.backstory = "" then "" else s!"\n\nBackstory: {ag.backstory}"
  s!"You are a {ag.role}." ++ s!"\n\nGoal: {ag.goal}" ++ backstory ++ s!"\n\nExpected output: {task.expectedOutput}"

def buildTaskLLMConfig (task : Task) (ag : Agent) (taskNodeIDs : String → Option String) (fcTools : List String) :
    Vars :=
  let base :=
    [("system_prompt", .str (buildSystemPrompt ag task)),
     ("prompt_template", .str (rewriteTemplate task.description taskNodeIDs)),
     ("provider", .str ag.provider), ("model", .str ag.model)]
  let tools := if fcTools = [] then [] else [("tools", Value.list (fcTools.map .str))]
  let toolConfig := if ag.toolConfig.entries = [] then [] else [("tool_config", cloneToolConfig ag.toolConfig)]
  let copied := ["temperature", "max_tokens"].filterMap fun key => (ag.config.get? key).map fun value => (key, value)
  let outputKey := if task.outputKey = "" then [] else [("output_key", Value.str task.outputKey)]
  base ++ tools ++ toolConfig ++ copied ++ outputKey

def appendTaskHumanReviewNode (d : Draft) (taskID : String) (task : Task) (nodeID : String) : Draft :=
  if task.review = "human" then
    let hitlID := nodeID ++ "__hitl"
    let d := d.addNode { id := hitlID, type := "human",
                         config := [("mode", .str "approval"), ("task_id", .str taskID)] }
    let d := d.addEdge nodeID "output" hitlID "input"
    -- the review is the output of the task from here on
    d.setOutput taskID hitlID
  else d

def compileTaskPrompt (reg : Registry) (d : Draft) (taskID : String) (task : Task) (ag : Agent) : Draft :=
  let nodeID := taskID ++ "__" ++ task.agent
  let d := (d.setStart taskID nodeID).setOutput taskID nodeID
  let pass := compileTaskTools reg d taskID ag
  let d := pass.draft
  let d :=
    if pass.prevStandaloneNodeID = "" then d
    else d.addEdge pass.prevStandaloneNodeID "output" nodeID "context"
  d.addNode { id := nodeID, type := "llm_prompt", config := buildTaskLLMConfig task ag d.taskNodeIDs pass.fcTools }

def compileTaskNode (reg : Registry) (d : Draft) (taskID : String) (task : Task) (ag : Agent) : Draft :=
  appendTaskHumanReviewNode (compileTaskPrompt reg d taskID task ag) taskID task (taskID ++ "__" ++ task.agent)

def compileTaskNodes (reg : Registry) (wf : AgentWorkflow) (taskIDs : List String) (d : Draft) :
    Except String Draft :=
  taskIDs.foldlM (fun d taskID =>
    match wf.tasks.get? taskID with
    | none => .ok d
    | some task =>
      match wf.agents.get? task.agent with
      | none => .error s!"task {taskID.quote} references undefined agent {task.agent.quote}"
      | some ag => .ok (compileTaskNode reg d taskID task ag)) d

/-- The edge that a reference to `ref` makes, if that task has a node. -/
def wireReference (dst targetHandle : String) (d : Draft) (ref : String) : Draft :=
  match d.taskNodeIDs ref with
  | some srcNode => d.addEdge srcNode "output" dst targetHandle
  | none => d

def wireTaskReferences (wf : AgentWorkflow) (d : Draft) (taskID : String) : Draft :=
  match wf.tasks.get? taskID with
  | none => d
  | some task =>
    let start := d.startOf taskID
    let dst := if start = "" then taskID ++ "__" ++ task.agent else start
    let d := task.inputs.entries.foldl (fun d (param, tmpl) =>
      (compileExtractTaskRefs tmpl).foldl (wireReference dst param) d) d
    task.context.foldl (wireReference dst "context") d

def wireTaskReferenceEdges (wf : AgentWorkflow) (taskIDs : List String) (d : Draft) : Draft :=
  taskIDs.foldl (wireTaskReferences wf) d

def chainTasks : List String → Draft → Except String Draft
  | first :: second :: rest, d =>
    match d.taskNodeIDs first, d.taskStartNodeIDs second with
    | none, _ => .error s!"task_order references unknown task {first.quote}"
    | some _, none => .error s!"task_order references unknown task {second.quote}"
    | some srcNode, some dstStartNode =>
      chainTasks (second :: rest) (d.addEdge srcNode "output" dstStartNode "input")
  | _, d => .ok d

def compileSequential (wf : AgentWorkflow) (d : Draft) : Except String Draft :=
  match wf.execution.taskOrder with
  | [] => .error "sequential strategy requires task_order"
  | first :: rest => chainTasks (first :: rest) (d.setEntry (d.startOf first))

def mergeNode (wf : AgentWorkflow) : NodeDef :=
  { id := wf.id ++ "__merge"
    type := "merge"
    config := if wf.execution.mergeStrategy = "" then [] else [("strategy", .str wf.execution.mergeStrategy)] }

def compileParallel (wf : AgentWorkflow) (d : Draft) : Except String Draft :=
  let mergeID := (mergeNode wf).id
  .ok ((sortedKeys wf.tasks).foldl (fun d taskID => d.addEdge (d.outputOf taskID) "output" mergeID "input")
    (d.addNode (mergeNode wf)))

def managerNode (wf : AgentWorkflow) (ag : Agent) : NodeDef :=
  { id := wf.id ++ "__manager__" ++ wf.execution.managerAgent
    type := "llm_router"
    config := [("system_prompt", .str s!"You are a {ag.role}.\n\nGoal: {ag.goal}"), ("provider", .str ag.provider),
      ("model", .str ag.model)] }

def compileHierarchical (wf : AgentWorkflow) (d : Draft) : Except String Draft :=
  let managerAgentID := wf.execution.managerAgent
  if managerAgentID = "" then .error "hierarchical strategy requires manager_agent"
  else
    match wf.agents.get? managerAgentID with
    | none => .error s!"manager_agent {managerAgentID.quote} is not defined in agents"
    | some ag =>
      let managerNodeID := (managerNode wf ag).id
      .ok ((sortedKeys wf.tasks).foldl (fun d taskID =>
        (d.addEdge managerNodeID "output" (d.startOf taskID) "input").addEdge
          (d.outputOf taskID) "output" managerNodeID "input")
        ((d.addNode (managerNode wf ag)).setEntry managerNodeID))

def conditionalNode (condNodeID dstStartNode expression : String) : NodeDef :=
  { id := condNodeID
    type := "conditional"
    config :=
      [("conditions", .list [.map [("name", .str dstStartNode), ("expression", .str expression)]]),
       ("default", .str "_skip"), ("evaluation_order", .str "first_match"), ("pass_through", .bool true)] }

/-- The wiring of one dependency, through a conditional node if there is a
condition. An existing node with the id of the conditional one is taken for it. -/
def wireDependency (taskID condition : String) (d : Draft) (depID : String) : Draft :=
  match d.taskNodeIDs depID with
  | none => d
  | some srcNode =>
    let dstStartNode := d.startOf taskID
    if condition = "" then d.addEdge srcNode "output" dstStartNode "input"
    else
      let condNodeID := depID ++ "__cond__" ++ taskID
      let d :=
        if condNodeID ∈ d.gd.nodeIDs then d
        else d.addNode (conditionalNode condNodeID dstStartNode (rewriteConditionExpr condition d.taskNodeIDs))
      (d.addEdge srcNode "output" condNodeID "input").addEdge condNodeID dstStartNode dstStartNode "input"

def wireDependencies (tasks : Dict String TaskDependencies) (d : Draft) (taskID : String) : Draft :=
  match tasks.get? taskID with
  | none => d
  | some deps =>
    if (d.taskNodeIDs taskID).isNone then d
    else deps.dependsOn.foldl (wireDependency taskID deps.condition) d

def isRoot (tasks : Dict String TaskDependencies) (taskID : String) : Bool :=
  match tasks.get? taskID with
  | none => true
  | some deps => deps.dependsOn = []

def compileCustom (wf : AgentWorkflow) (d : Draft) : Except String Draft :=
  match wf.execution.tasks with
  | none => .ok d
  | some tasks =>
    let d := (sortedKeys tasks).foldl (wireDependencies tasks) d
    match (sortedKeys wf.tasks).find? (isRoot tasks) with
    | some taskID => .ok (d.setEntry (d.startOf taskID))
    | none => .ok d

def compileExecutionStrategy (wf : AgentWorkflow) (d : Draft) : Except String Draft :=
  match wf.strategy? with
  | some .sequential => compileSequential wf d
  | some .parallel => compileParallel wf d
  | some .hierarchical => compileHierarchical wf d
  | some .custom => compileCustom wf d
  | none => .error s!"unsupported execution strategy {wf.execution.strategy.quote}"

def edgeLess (a b : EdgeDef) : Bool :=
  if a.source ≠ b.source then a.source < b.source
  else if a.target ≠ b.target then a.target < b.target
  else if a.sourceHandle ≠ b.sourceHandle then a.sourceHandle < b.sourceHandle
  else a.targetHandle < b.targetHandle

def sortEdges (gd : GraphDefinition) : GraphDefinition :=
  { gd with edges := gd.edges.insertionSort fun a b => edgeLess b a = false }

def compile (reg : Registry) (now : String) : Option AgentWorkflow → Except String GraphDefinition
  | none => .error "workflow is nil"
  | some wf => do
    let taskIDs := sortedKeys wf.tasks
    let d := { gd := newCompiledGraphDefinition now wf, taskStartNodeIDs := fun _ => none,
               taskNodeIDs := fun _ => none }
    let d ← compileTaskNodes reg wf taskIDs d
    let d := wireTaskReferenceEdges wf taskIDs d
    let d ← compileExecutionStrategy wf d
    return sortEdges d.gd

end petalflow.agent
