import Petalflow.Graph.Basic

open petalflow.core petalflow.graph

namespace petalflow.runtime

inductive EventKind where
  | runStarted | nodeStarted | nodeOutput | nodeFailed | nodeFinished | routeDecision | runFinished
  | stepPaused | stepResumed | stepSkipped | stepAborted | toolCall | toolResult
  | nodeOutputDelta | nodeOutputFinal | nodeOutputPreview | runSnapshot | llmCall | llmResponse
  | edgeTransfer
deriving DecidableEq, Repr

/-- A runtime event without its clock readings. Its sequence number is its
position in the log of the run. -/
structure Event where
  kind : EventKind
  runID : String
  nodeID : String := ""
  nodeKind : Option NodeKind := none
  payload : Vars := []

namespace Event

def newEvent (kind : EventKind) (runID : String) : Event := { kind, runID }

def withNode (e : Event) (nodeID : String) (nodeKind : NodeKind) : Event :=
  { e with nodeID, nodeKind := some nodeKind }

def withPayload (e : Event) (key : String) (value : Value) : Event :=
  { e with payload := Vars.set key value e.payload }

def isOf (e : Event) (kind : EventKind) (nodeID : String) : Bool := e.kind = kind ∧ e.nodeID = nodeID

end Event

def executions (log : List Event) (nodeID : String) : Nat := log.countP (·.isOf .nodeStarted nodeID)

inductive RunError where
  | maxHopsExceeded (nodeID : String) (attempt : Nat)
  | runCanceled (cause : String)
  | nodeExecution (nodeID message : String)
  | nodeNotFound (nodeID : String)
  | stepAborted
  | stepController (message : String)
  | mergeFailed (nodeID message : String)
deriving DecidableEq, Repr

def RunError.error : RunError → String
  | maxHopsExceeded nodeID attempt =>
    s!"maximum hops exceeded: node {nodeID} executed {attempt} times"
  | runCanceled cause => s!"run was canceled: {cause}"
  | nodeExecution nodeID message => s!"node execution failed: node {nodeID}: {message}"
  | nodeNotFound nodeID => s!"node not found: {nodeID}"
  | stepAborted => "execution aborted by step controller"
  | stepController message => s!"step controller error: {message}"
  | mergeFailed nodeID message => s!"merge node {nodeID} failed: {message}"

/-- How a run ends: with an envelope and perhaps an error, in a nil dereference,
or in a panic of a merge. -/
inductive Return where
  | returned (envelope : Option Envelope) (err : Option RunError)
  | panicked
  | mergePanicked (nodeID : String)

inductive StepAction where
  | «continue» | skipNode | abort | runToBreakpoint
deriving DecidableEq, Repr

def StepAction.text : StepAction → String
  | .continue => "continue"
  | .skipNode => "skip"
  | .abort => "abort"
  | .runToBreakpoint => "run_to_breakpoint"

inductive StepPoint where
  | beforeNode | afterNode
deriving DecidableEq, Repr

def StepPoint.text : StepPoint → String
  | .beforeNode => "before_node"
  | .afterNode => "after_node"

structure GraphSnapshot where
  name : String
  currentNode : String
  successors : List String
  predecessors : List String
  allNodes : List String

structure StepRequest where
  runID : String
  point : StepPoint
  nodeID : String
  nodeKind : NodeKind
  envelope : Envelope
  hopCount : Nat
  err : Option String
  graph : GraphSnapshot

structure EnvelopeModification where
  setVars : Vars
  deleteVars : List String

structure StepResponse where
  action : StepAction
  modifiedEnvelope : Option EnvelopeModification

/-- A step controller. Its answers may depend on the occasion it is asked on. -/
structure StepController where
  shouldPause : Nat → String → StepPoint → Bool
  step : Nat → StepRequest → Except String StepResponse

structure StepConfig where
  pauseBeforeNode : Bool
  pauseAfterNode : Bool

def defaultStepConfig : StepConfig := { pauseBeforeNode := true, pauseAfterNode := false }

/-- The options of a run. `maxHops` and `concurrency` are the values after the
defaults of `Run`. -/
structure RunOptions where
  maxHops : Nat
  continueOnError : Bool
  concurrency : Nat
  stepController : Option StepController := none
  stepConfig : Option StepConfig := none
  captureSnapshots : Bool := false
  graphDefinition : Option Value := none
  inputs : Option Value := none
  triggerSource : String := ""
  workflowID : String := ""
  workflowVersion : String := ""

def defaultRunOptions : RunOptions := { maxHops := 100, continueOnError := false, concurrency := 1 }

def RunOptions.Continues (opts : RunOptions) : Prop :=
  ∀ ctrl ∈ opts.stepController, ∀ t req, ∃ resp, ctrl.step t req = .ok resp ∧
    (resp.action = .continue ∨ resp.action = .runToBreakpoint) ∧ resp.modifiedEnvelope = none

def nodeStarted (node : Node) (env : Envelope) : Event :=
  (Event.newEvent .nodeStarted env.trace.runID).withNode node.id node.kind

def nodeEnded (node : Node) (env : Envelope) : Outcome → Event
  | .failed message _ =>
    ((Event.newEvent .nodeFailed env.trace.runID).withNode node.id node.kind).withPayload
      "error" (.str message)
  | .ok _ => (Event.newEvent .nodeFinished env.trace.runID).withNode node.id node.kind

def executeNode (node : Node) (t : Nat) (env : Envelope) : Outcome × List Event :=
  let outcome := node.run t env
  (outcome, [nodeStarted node env, nodeEnded node env outcome])

def gateRedirect : String := "__gate_redirect__"

def redirectTarget (graphSuccessors : List String) (env : Envelope) : Option String :=
  match env.getVar gateRedirect with
  | some (.str redirectNode) =>
    if redirectNode ≠ "" ∧ redirectNode ∈ graphSuccessors then some redirectNode else none
  | _ => none

def routeDecision (node : Node) (env : Envelope) (targets : List String) (reason : String)
    (confidence : Option Rat) : Event :=
  (((Event.newEvent .routeDecision env.trace.runID).withNode node.id node.kind).withPayload
      "targets" (.list (targets.map .str))).withPayload "reason" (.str reason) |>.withPayload
      "confidence" (confidence.elim .nil (.num .float64))

structure Successors where
  targets : List String
  envelope : Option Envelope
  events : List Event

/-- The choice on an envelope, for a node with the given successors: a redirect
hint first, then a router's decision, else all successors. -/
def routeSuccessors (graphSuccessors : List String) (node : Node) (env : Envelope) : Successors :=
  match redirectTarget graphSuccessors env with
  | some redirectNode =>
    -- the hint is cleared so that it does not trigger again
    { targets := [redirectNode], envelope := some (env.setVar gateRedirect .nil),
      events := [routeDecision node env [redirectNode] "gate redirect" (some 1)] }
  | none =>
    if node.router then
      match env.getVar (node.id ++ "_decision") with
      | some (.decision d) =>
        { targets := graphSuccessors.filter (· ∈ d.targets), envelope := some env,
          events := [routeDecision node env d.targets d.reason d.confidence] }
      | _ => { targets := graphSuccessors, envelope := some env, events := [] }
    else { targets := graphSuccessors, envelope := some env, events := [] }

/-- Chooses the nodes to run after `node`. A nil envelope is dereferenced unless
the node has no successors, which is the result `none`. -/
def determineSuccessors (g : BasicGraph) (node : Node) (env : Option Envelope) : Option Successors :=
  if g.successors node.id = [] then some { targets := [], envelope := env, events := [] }
  else env.map (routeSuccessors (g.successors node.id) node)

theorem routeSuccessors_sublist (graphSuccessors : List String) (node : Node) (env : Envelope) :
    (routeSuccessors graphSuccessors node env).targets.Sublist graphSuccessors := by
  grind [routeSuccessors, redirectTarget, List.filter_sublist]

theorem routeSuccessors_envelope (graphSuccessors : List String) (node : Node) (env : Envelope) :
    ∃ env', (routeSuccessors graphSuccessors node env).envelope = some env' ∧ env'.errors = env.errors := by
  unfold routeSuccessors
  split
  · exact ⟨_, rfl, rfl⟩
  grind

variable {g : BasicGraph} {node : Node} {env : Option Envelope} {succ : Successors}

theorem determineSuccessors_sublist (hsucc : determineSuccessors g node env = some succ) :
    succ.targets.Sublist (g.successors node.id) := by
  grind [determineSuccessors, Option.map_eq_some_iff, routeSuccessors_sublist]

theorem determineSuccessors_errors {env : Envelope} (hsucc : determineSuccessors g node (some env) = some succ) :
    ∃ env', succ.envelope = some env' ∧ env'.errors = env.errors := by
  unfold determineSuccessors at hsucc
  split at hsucc
  · cases hsucc
    exact ⟨env, rfl, rfl⟩
  · cases hsucc
    exact routeSuccessors_envelope _ node env

theorem determineSuccessors_all {env : Envelope} (hrouter : node.router = false)
    (hredirect : redirectTarget (g.successors node.id) env = none) : determineSuccessors g node (some env) =
      some { targets := g.successors node.id, envelope := some env, events := [] } := by
  grind [determineSuccessors, routeSuccessors]

theorem determineSuccessors_eq_none_iff :
    determineSuccessors g node env = none ↔ env = none ∧ g.successors node.id ≠ [] := by
  unfold determineSuccessors
  split
  · next hnil => simp [hnil]
  · next hne => simp [hne]

/-- On the envelopes of a run, which the nodes keep within `Good`, every node
succeeds and hands its envelope to all of its successors: there are no routers
and no redirect hints. -/
structure Straight (g : Graph) (Good : Envelope → Prop) : Prop where
  router : ∀ id node, g.nodeByID id = some node → node.router = false
  run : ∀ id node, g.nodeByID id = some node → ∀ t env, Good env →
    ∃ env', node.run t env = .ok (some env') ∧ Good env'
  hint : ∀ id env, Good env → redirectTarget (g.successors id) env = none

end petalflow.runtime
