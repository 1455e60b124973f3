import Petalflow.Lib.Machine
import Petalflow.Lib.Pool
import Petalflow.Runtime.Successors

open petalflow.core petalflow.graph machine pool

namespace petalflow.runtime

structure NodeResult where
  nodeID : String
  envelope : Option Envelope
  err : Option String

structure WorkItem where
  nodeID : String
  envelope : Envelope

structure NodeState where
  hopCount : Nat := 0
  completed : Bool := false
  envelope : Option Envelope := none

/-- The coordinator's bookkeeping: node records, errors set aside, and the
inputs that have arrived at merge nodes. -/
structure ParallelState where
  states : String → Option NodeState
  recordedErrors : List NodeError
  mergeInputs : String → List Envelope

namespace ParallelState

def newParallelState (entryID : String) (entryEnv : Envelope) : ParallelState :=
  { states := Function.update (fun _ => none) entryID (some { envelope := some entryEnv })
    recordedErrors := []
    mergeInputs := fun _ => [] }

def stateOf (p : ParallelState) (nodeID : String) : NodeState := (p.states nodeID).getD {}

def setState (p : ParallelState) (nodeID : String) (state : NodeState) : ParallelState :=
  { p with states := Function.update p.states nodeID (some state) }

def incrementHop (p : ParallelState) (nodeID : String) : Nat × Option Envelope × ParallelState :=
  let state := p.stateOf nodeID
  (state.hopCount + 1, state.envelope, p.setState nodeID { state with hopCount := state.hopCount + 1 })

def markNodeCompleted (p : ParallelState) (nodeID : String) (env : Option Envelope) : ParallelState :=
  p.setState nodeID { p.stateOf nodeID with completed := true, envelope := env }

def resetNode (p : ParallelState) (nodeID : String) (env : Envelope) : ParallelState :=
  p.setState nodeID { envelope := some env }

def canScheduleSuccessor (p : ParallelState) (nodeID : String) (maxHops : Nat) : Bool × ParallelState :=
  (decide ((p.stateOf nodeID).hopCount < maxHops), p.setState nodeID (p.stateOf nodeID))

/-- Adds an input of a merge node and returns all of its inputs, whether they
are enough, and the new state. -/
def addMergeInput (p : ParallelState) (nodeID : String) (env : Envelope) (expectedInputs : Int) :
    List Envelope × Bool × ParallelState :=
  let inputs := p.mergeInputs nodeID ++ [env]
  (inputs, decide (expectedInputs ≤ inputs.length),
    { p with mergeInputs := Function.update p.mergeInputs nodeID inputs })

def addRecordedError (p : ParallelState) (nodeErr : NodeError) : ParallelState :=
  { p with recordedErrors := p.recordedErrors ++ [nodeErr] }

def appendRecordedErrors (p : ParallelState) (target : Envelope) : Envelope :=
  p.recordedErrors.foldl Envelope.appendError target

end ParallelState

def nodeKindOrUnknown (node : Option Node) : NodeKind := node.elim (.custom "unknown") Node.kind

/-- The envelope to go on with after a result: the result's own, or after a
failure the one recorded for the node. -/
def resolveParallelResultEnvelope (g : BasicGraph) (result : NodeResult) (opts : RunOptions)
    (attempt : Nat) (previousEnvelope : Option Envelope) (state : ParallelState) :
    Except RunError (Option Envelope × ParallelState) :=
  match result.err with
  | none => .ok (result.envelope, state)
  | some message =>
    if opts.continueOnError then
      .ok (previousEnvelope, state.addRecordedError
        { nodeID := result.nodeID, kind := nodeKindOrUnknown (g.nodeByID result.nodeID), message,
          attempt, cause := message })
    else .error (.nodeExecution result.nodeID message)

inductive Call where
  | received (item : WorkItem) (result : NodeResult)
  | routed (source : String) (env : Envelope) (targets : List String)
  | addMergeInput (nodeID source : String) (env : Envelope)
  | mergeInputs (nodeID : String) (inputs : List Envelope) (outcome : MergeOutcome)
  | refused (nodeID : String) (env : Envelope)
  | sent (item : WorkItem)

inductive MergeStop where
  | failed (err : RunError)
  | panicked (nodeID : String)

def MergeStop.ret (env : Envelope) : MergeStop → Return
  | failed err => .returned (some env) (some err)
  | panicked nodeID => .mergePanicked nodeID

@[simp] theorem MergeStop.ret_ne_panicked (stop : MergeStop) (env : Envelope) :
    stop.ret env ≠ .panicked := by
  cases stop <;> simp [ret]

@[simp] theorem MergeStop.ret_ne_returned (stop : MergeStop) (env : Envelope) (final : Option Envelope) :
    stop.ret env ≠ .returned final none := by
  cases stop <;> simp [ret]

inductive Scheduled where
  | skip (state : ParallelState)
  | send (item : WorkItem) (state : ParallelState)
  | fail (stop : MergeStop) (state : ParallelState)

def expectedInputs (g : BasicGraph) (nodeID : String) (merge : MergeCapable) : Int :=
  if merge.expectedInputs = 0 then (g.predecessors nodeID).length else merge.expectedInputs

def scheduleMergeSuccessor (g : BasicGraph) (opts : RunOptions) (t : Nat) (source succID : String)
    (kind : NodeKind) (merge : MergeCapable) (resultEnvelope : Envelope) (state : ParallelState) :
    Scheduled × List Call :=
  let arrival := Call.addMergeInput succID source resultEnvelope
  match state.addMergeInput succID resultEnvelope (expectedInputs g succID merge) with
  | (_, false, state) => (.skip state, [arrival])
  | (inputs, true, state) =>
    let first := inputs.headD resultEnvelope
    match merge.mergeInputs with
    | none => (.send { nodeID := succID, envelope := first } (state.resetNode succID first), [arrival])
    | some merger =>
      let outcome := merger t inputs
      let calls := [arrival, .mergeInputs succID inputs outcome]
      match outcome with
      | .merged merged =>
        (.send { nodeID := succID, envelope := merged } (state.resetNode succID merged), calls)
      | .panicked => (.fail (.panicked succID) state, calls)
      | .failed message =>
        if opts.continueOnError then
          let state := state.addRecordedError
            { nodeID := succID, kind, message, attempt := 0, cause := message }
          (.send { nodeID := succID, envelope := first } (state.resetNode succID first), calls)
        else (.fail (.failed (.mergeFailed succID message)) state, calls)

def scheduleSuccessor (g : BasicGraph) (opts : RunOptions) (t : Nat) (source succID : String)
    (resultEnvelope : Envelope) (state : ParallelState) : Scheduled × List Call :=
  match g.nodeByID succID with
  | none => (.skip state, [])
  | some succNode =>
    match succNode.mergeCapable with
    | some merge =>
      scheduleMergeSuccessor g opts t source succID succNode.kind merge resultEnvelope state
    | none =>
      match state.canScheduleSuccessor succID opts.maxHops with
      | (false, state) => (.skip state, [.refused succID resultEnvelope])
      | (true, state) => (.send { nodeID := succID, envelope := resultEnvelope.clone } state, [])

/-- Where the coordinator is: at its select, at the head of the scheduling loop,
at a send inside it, in `stopWorkers`, or past its return. The result being
handled came from `source`. -/
inductive Coordinator where
  | selecting
  | scheduling (source : String) (env : Envelope) (successors : List String) (addedPending : Nat)
  | sending (item : WorkItem) (source : String) (env : Envelope) (successors : List String)
      (addedPending : Nat)
  | stopping (ret : Return)
  | returned (ret : Return)

/-- The state of the parallel executor with `n` workers. `log` holds the events
in the order of their sequence numbers, `calls` what the coordinator has done. -/
structure State (n : Nat) where
  coordinator : Coordinator
  pendingCount : Nat
  finalEnvelope : Option Envelope
  state : ParallelState
  pool : Pool WorkItem NodeResult n (n * 2)
  ctxErr : Option String
  log : List Event
  calls : List Call

inductive Label (n : Nat) where
  | cancel (cause : String)
  | ctxDone
  | receive
  | schedule (t : Nat)
  | send
  | wait
  | worker (w : Fin n) (a : Act)

def runWork (g : BasicGraph) (item : WorkItem) (t : Nat) : NodeResult :=
  match g.nodeByID item.nodeID with
  | none =>
    { nodeID := item.nodeID, envelope := none, err := some (RunError.nodeNotFound item.nodeID).error }
  | some node =>
    match node.run t item.envelope with
    | .ok result => { nodeID := item.nodeID, envelope := result, err := none }
    | .failed message _ => { nodeID := item.nodeID, envelope := none, err := some message }

def workerEvents (g : BasicGraph) : Act → Worker WorkItem NodeResult → List Event
  | .start, .received item =>
    (g.nodeByID item.nodeID).elim [] fun node => [nodeStarted node item.envelope]
  | .finish t, .running item =>
    (g.nodeByID item.nodeID).elim [] fun node =>
      [nodeEnded node item.envelope (node.run t item.envelope)]
  | _, _ => []

namespace State

variable {n : Nat}

def stopWorkers (ret : Return) (s : State n) : State n :=
  { s with coordinator := .stopping ret, pool := s.pool.shutDown }

/-- The end of handling one result. With nothing pending the loop is left. -/
def finishResult (env : Envelope) (resultEnvelope : Option Envelope) (addedPending : Nat) (s : State n) : State n :=
  let s := { s with finalEnvelope := resultEnvelope, pendingCount := s.pendingCount + addedPending }
  if s.pendingCount = 0 then
    s.stopWorkers (.returned (some (s.state.appendRecordedErrors (resultEnvelope.getD env))) none)
  else { s with coordinator := .selecting }

/-- Handles a result up to the scheduling of the successors. A nil envelope of a
node with successors ends in a panic, on which the deferred `stopWorkers` runs. -/
def handleParallelResult (g : BasicGraph) (opts : RunOptions) (env : Envelope) (result : NodeResult)
    (s : State n) : State n :=
  match s.state.incrementHop result.nodeID with
  | (attempt, previousEnvelope, state) =>
    match resolveParallelResultEnvelope g result opts attempt previousEnvelope state with
    | .error err => { s with state }.stopWorkers (.returned (some env) (some err))
    | .ok (resultEnvelope, state) =>
      match g.nodeByID result.nodeID with
      | none =>
        { s with state := state.markNodeCompleted result.nodeID resultEnvelope }.finishResult
          env resultEnvelope 0
      | some node =>
        match determineSuccessors g node resultEnvelope with
        | none =>
          { s with state := state.markNodeCompleted result.nodeID resultEnvelope }.stopWorkers .panicked
        | some succ =>
          -- the choice changes the recorded envelope in place
          let s := { s with
            state := state.markNodeCompleted result.nodeID succ.envelope
            log := s.log ++ succ.events }
          match succ.envelope with
          | none => s.finishResult env none 0
          | some resultEnvelope =>
            { s with
              coordinator := .scheduling result.nodeID resultEnvelope succ.targets 0
              calls := s.calls ++ [.routed result.nodeID resultEnvelope succ.targets] }

def scheduleStep (g : BasicGraph) (opts : RunOptions) (env : Envelope) (t : Nat) (source : String)
    (resultEnvelope : Envelope) (successors : List String) (addedPending : Nat) (s : State n) : State n :=
  match successors with
  | [] => s.finishResult env (some resultEnvelope) addedPending
  | succID :: rest =>
    match scheduleSuccessor g opts t source succID resultEnvelope s.state with
    | (.skip state, calls) =>
      { s with coordinator := .scheduling source resultEnvelope rest addedPending, state,
               calls := s.calls ++ calls }
    | (.send item state, calls) =>
      { s with coordinator := .sending item source resultEnvelope rest addedPending, state,
               calls := s.calls ++ calls }
    | (.fail stop state, calls) =>
      { s with state, calls := s.calls ++ calls }.stopWorkers (stop.ret env)

def step (g : BasicGraph) (opts : RunOptions) (env : Envelope) : Label n → State n → Option (State n)
  | .cancel cause, s =>
    match s.ctxErr with
    | some _ => none
    | none => some { s with ctxErr := some cause, pool := { s.pool with done := true } }
  | .ctxDone, s =>
    match s.coordinator, s.ctxErr with
    | .selecting, some cause =>
      some (s.stopWorkers (.returned (some env) (some (.runCanceled cause))))
    | _, _ => none
  | .receive, s =>
    match s.coordinator with
    | .selecting =>
      s.pool.collect.map fun r =>
        { s with
          pendingCount := s.pendingCount - 1
          pool := r.2
          calls := s.calls ++ [Call.received r.1.1 r.1.2] }.handleParallelResult g opts env r.1.2
    | _ => none
  | .schedule t, s =>
    match s.coordinator with
    | .scheduling source resultEnvelope successors addedPending =>
      some (s.scheduleStep g opts env t source resultEnvelope successors addedPending)
    | _ => none
  | .send, s =>
    match s.coordinator with
    | .sending item source resultEnvelope successors addedPending =>
      (s.pool.submit item).map fun pool =>
        { s with
          coordinator := .scheduling source resultEnvelope successors (addedPending + 1)
          pool
          calls := s.calls ++ [.sent item] }
    | _ => none
  | .wait, s =>
    match s.coordinator with
    | .stopping ret =>
      if ∀ w, (s.pool.workers w).isExited then some { s with coordinator := .returned ret } else none
    | _ => none
  | .worker w a, s =>
    (s.pool.act (runWork g) w a).map fun pool =>
      { s with pool, log := s.log ++ workerEvents g a (s.pool.workers w) }

def init (g : BasicGraph) (env : Envelope) : State n :=
  let item := { nodeID := g.entry, envelope := env }
  { coordinator := .selecting
    pendingCount := 1
    finalEnvelope := none
    state := .newParallelState g.entry env
    pool := (Pool.fresh.submit item).getD Pool.fresh
    ctxErr := none
    log := []
    calls := [.sent item] }

end State

def executeGraphParallel (g : BasicGraph) (opts : RunOptions) (env : Envelope) :
    Machine (State opts.concurrency) (Label opts.concurrency) :=
  { init := State.init g env, step := State.step g opts env }

/-! Pieces of schedules, for replaying runs. -/

namespace Label

def w₀ : Fin 2 := 0

def w₁ : Fin 2 := 1

variable {n : Nat}

def produce (w : Fin n) : List (Label n) := [.worker w .take, .worker w .start, .worker w (.finish 0)]

def complete (w : Fin n) : List (Label n) := produce w ++ [.worker w .deliver]

def push : List (Label n) := [.schedule 0, .send]

end Label

def State.completed {n : Nat} (s : State n) : Bool :=
  match s.coordinator with
  | .returned (.returned _ none) => true
  | _ => false

theorem State.exists_of_completed {n : Nat} {s : State n} (hcompleted : s.completed = true) :
    ∃ final, s.coordinator = .returned (.returned final none) := by
  grind [completed]

end petalflow.runtime
