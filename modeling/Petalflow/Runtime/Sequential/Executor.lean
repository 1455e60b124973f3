import Petalflow.Lib.Machine
import Petalflow.Runtime.Successors

open petalflow.core petalflow.graph machine

namespace petalflow.runtime

/-- What a step point decides: the action, a modified envelope, an error of the
controller, and the events of the pause. -/
structure StepDecision where
  action : StepAction
  modifiedEnv : Option Envelope
  err : Option RunError
  events : List Event

def StepDecision.proceed : StepDecision :=
  { action := .continue, modifiedEnv := none, err := none, events := [] }

def createGraphSnapshot (g : BasicGraph) (currentNode : String) : GraphSnapshot :=
  { name := g.name, currentNode, successors := g.successors currentNode,
    predecessors := g.predecessors currentNode, allNodes := g.nodeOrder }

def EnvelopeModification.apply (m : EnvelopeModification) (env : Envelope) : Envelope :=
  m.deleteVars.foldl Envelope.deleteVar (m.setVars.foldl (fun e v => e.setVar v.1 v.2) env.clone)

def pausesAt (opts : RunOptions) (ctrl : StepController) (t : Nat) (nodeID : String) (point : StepPoint) :
    Bool :=
  let config := opts.stepConfig.getD defaultStepConfig
  (match point with
    | .beforeNode => config.pauseBeforeNode
    | .afterNode => config.pauseAfterNode) && ctrl.shouldPause t nodeID point

def stepPaused (node : Node) (env : Envelope) (point : StepPoint) (hopCount : Nat) : Event :=
  (((Event.newEvent .stepPaused env.trace.runID).withNode node.id node.kind).withPayload
    "step_point" (.str point.text)).withPayload "hop_count" (.num .int hopCount)

def stepResumed (node : Node) (env : Envelope) (action : StepAction) : Event :=
  ((Event.newEvent .stepResumed env.trace.runID).withNode node.id node.kind).withPayload
    "action" (.str action.text)

def stepControlEvent (kind : EventKind) (node : Node) (env : Envelope) (reason : String) : Event :=
  ((Event.newEvent kind env.trace.runID).withNode node.id node.kind).withPayload "reason" (.str reason)

def stepRequest (g : BasicGraph) (node : Node) (env : Envelope) (point : StepPoint) (hopCount : Nat)
    (nodeErr : Option String) : StepRequest :=
  { runID := env.trace.runID, point, nodeID := node.id, nodeKind := node.kind, envelope := env,
    hopCount, err := nodeErr, graph := createGraphSnapshot g node.id }

def handleStepPoint (g : BasicGraph) (opts : RunOptions) (t : Nat) (node : Node) (env : Envelope)
    (point : StepPoint) (hopCount : Nat) (nodeErr : Option String) : StepDecision :=
  match opts.stepController with
  | none => .proceed
  | some ctrl =>
    if pausesAt opts ctrl t node.id point then
      match ctrl.step t (stepRequest g node env point hopCount nodeErr) with
      | .error message =>
        { action := .abort, modifiedEnv := none, err := some (.stepController message),
          events := [stepPaused node env point hopCount] }
      | .ok resp =>
        -- modifications count only before a node that is to be run
        { action := resp.action
          modifiedEnv :=
            if point = .beforeNode ∧ resp.action = .continue then
              resp.modifiedEnvelope.map fun m => m.apply env
            else none
          err := none
          events := [stepPaused node env point hopCount, stepResumed node env resp.action] }
    else .proceed

/-- The state of the sequential loop. `clock` counts the iterations. -/
structure SequentialState where
  hopCount : String → Nat
  visited : String → Bool
  queue : List String
  current : Option Envelope
  log : List Event
  clock : Nat

structure Finished where
  ret : Return
  log : List Event

def shouldSkipVisitedNode (nodeID : String) (visited : String → Bool) (hopCount : String → Nat)
    (maxHops : Nat) : Bool :=
  if !visited nodeID || hopCount nodeID == 0 then false
  else hopCount nodeID ≥ maxHops

def checkRunContext (ctx : Nat → Option String) (t : Nat) : Option RunError := (ctx t).map .runCanceled

def incrementAndValidateHop (nodeID : String) (hopCount : String → Nat) (maxHops : Nat) :
    (String → Nat) × Nat × Option RunError :=
  let attempt := hopCount nodeID + 1
  (Function.update hopCount nodeID attempt, attempt,
    if attempt > maxHops then some (.maxHopsExceeded nodeID attempt) else none)

/-- The outcome of the step point before a node: the envelope to go on with,
whether the node is skipped, and an error that ends the run. -/
structure BeforeStep where
  current : Envelope
  skipNode : Bool
  err : Option RunError
  events : List Event

def handleSequentialBeforeStep (g : BasicGraph) (opts : RunOptions) (t : Nat) (node : Node)
    (current : Envelope) (attempt : Nat) : BeforeStep :=
  let decision := handleStepPoint g opts t node current .beforeNode attempt none
  match decision.err with
  | some err => { current, skipNode := false, err := some err, events := decision.events }
  | none =>
    let current := decision.modifiedEnv.getD current
    match decision.action with
    | .abort =>
      { current, skipNode := false, err := some .stepAborted,
        events := decision.events ++ [stepControlEvent .stepAborted node current "controller_abort"] }
    | .skipNode =>
      { current, skipNode := true, err := none,
        events := decision.events ++ [stepControlEvent .stepSkipped node current "controller_skip"] }
    | _ => { current, skipNode := false, err := none, events := decision.events }

def handleSequentialAfterStep (g : BasicGraph) (opts : RunOptions) (t : Nat) (node : Node)
    (current : Envelope) (outcome : Outcome) (attempt : Nat) : Option RunError × List Event :=
  let decision :=
    match outcome with
    | .ok result => handleStepPoint g opts t node (result.getD current) .afterNode attempt none
    | .failed message received =>
      handleStepPoint g opts t node received .afterNode attempt (some message)
  match decision.err with
  | some err => (some err, decision.events)
  | none =>
    if decision.action = .abort then
      (some .stepAborted, decision.events ++ [stepControlEvent .stepAborted node current "controller_abort"])
    else (none, decision.events)

def resolveSequentialNodeOutcome (opts : RunOptions) (node : Node) (nodeID : String) (attempt : Nat) :
    Outcome → Option Envelope × Option RunError
  | .ok result => (result, none)
  | .failed message received =>
    if opts.continueOnError then
      (some (received.appendError
        { nodeID, kind := node.kind, message, attempt, cause := message }), none)
    else (some received, some (.nodeExecution nodeID message))

/-- The end of a visit: the node is marked and its successors are queued. -/
def enqueueSuccessors (g : BasicGraph) (node : Node) (nodeID : String) (s : SequentialState) :
    SequentialState ⊕ Finished :=
  match determineSuccessors g node s.current with
  | none => .inr { ret := .panicked, log := s.log }
  | some succ =>
    .inl { s with
      visited := Function.update s.visited nodeID true
      queue := s.queue ++ succ.targets
      current := succ.envelope
      log := s.log ++ succ.events }

def envelopeAfterRun (current : Envelope) : Outcome → Envelope
  | .ok _ => current
  | .failed _ received => received

def runSequentialNode (g : BasicGraph) (opts : RunOptions) (t : Nat) (node : Node) (nodeID : String)
    (attempt : Nat) (current : Envelope) (s : SequentialState) : SequentialState ⊕ Finished :=
  let run := executeNode node t current
  let after := handleSequentialAfterStep g opts t node current run.1 attempt
  let log := s.log ++ run.2 ++ after.2
  match after.1 with
  | some err => .inr { ret := .returned (some (envelopeAfterRun current run.1)) (some err), log }
  | none =>
    match resolveSequentialNodeOutcome opts node nodeID attempt run.1 with
    | (result, some err) => .inr { ret := .returned result (some err), log }
    | (result, none) => enqueueSuccessors g node nodeID { s with current := result, log }

def visitNode (g : BasicGraph) (opts : RunOptions) (t : Nat) (node : Node) (nodeID : String)
    (attempt : Nat) (current : Envelope) (s : SequentialState) : SequentialState ⊕ Finished :=
  let before := handleSequentialBeforeStep g opts t node current attempt
  let log := s.log ++ before.events
  match before.err with
  | some err => .inr { ret := .returned (some before.current) (some err), log }
  | none =>
    if before.skipNode then enqueueSuccessors g node nodeID { s with current := some before.current, log }
    else runSequentialNode g opts t node nodeID attempt before.current { s with log }

def sequentialBody (g : BasicGraph) (ctx : Nat → Option String) (opts : RunOptions) (s : SequentialState) :
    SequentialState ⊕ Finished :=
  match s.queue with
  | [] => .inr { ret := .returned s.current none, log := s.log }
  | nodeID :: queue =>
    if shouldSkipVisitedNode nodeID s.visited s.hopCount opts.maxHops then
      .inl { s with queue, clock := s.clock + 1 }
    else
      match checkRunContext ctx s.clock with
      | some err => .inr { ret := .returned s.current (some err), log := s.log }
      | none =>
        match incrementAndValidateHop nodeID s.hopCount opts.maxHops with
        | (_, _, some err) => .inr { ret := .returned s.current (some err), log := s.log }
        | (hopCount, attempt, none) =>
          match g.nodeByID nodeID with
          | none => .inr { ret := .returned s.current (some (.nodeNotFound nodeID)), log := s.log }
          | some node =>
            match s.current with
            -- the step point or the execution dereferences the nil envelope
            | none => .inr { ret := .panicked, log := s.log }
            | some current =>
              visitNode g opts s.clock node nodeID attempt current
                { s with hopCount, queue, clock := s.clock + 1 }

def sequentialInit (g : BasicGraph) (env : Envelope) : SequentialState :=
  { hopCount := fun _ => 0, visited := fun _ => false, queue := [g.entry], current := some env,
    log := [], clock := 0 }

/-- The sequential executor with a bound on its iterations; `ctx` tells on which
iterations the context of the run is done. -/
def executeGraphSequential (fuel : Nat) (g : BasicGraph) (ctx : Nat → Option String) (env : Envelope)
    (opts : RunOptions) : Option Finished :=
  runLoop (sequentialBody g ctx opts) fuel (sequentialInit g env)

end petalflow.runtime
