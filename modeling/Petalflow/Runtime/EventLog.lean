import Petalflow.Lib.Trace
import Petalflow.Runtime.Parallel.Bookkeeping
import Petalflow.Runtime.Sequential.Executor

open petalflow.core petalflow.graph

namespace petalflow.runtime

section

open machine

inductive Execution (n : Nat) where
  | sequential (s : SequentialState ⊕ Finished)
  | parallel (s : State n)

inductive ExecutionLabel (n : Nat) where
  | iterate
  | act (l : Label n)

namespace Execution

variable {n : Nat}

def log : Execution n → List Event
  | sequential (.inl s) => s.log
  | sequential (.inr done) => done.log
  | parallel s => s.log

def ret : Execution n → Option Return
  | sequential (.inl _) => none
  | sequential (.inr done) => some done.ret
  | parallel s =>
    match s.coordinator with
    | .returned ret => some ret
    | _ => none

end Execution

/-- The execution of a graph: parallel if more than one worker is asked for. -/
def executeGraph (g : BasicGraph) (ctx : Nat → Option String) (opts : RunOptions) (env : Envelope) :
    Machine (Execution opts.concurrency) (ExecutionLabel opts.concurrency) :=
  { init :=
      if opts.concurrency > 1 then .parallel (State.init g env)
      else .sequential (.inl (sequentialInit g env))
    step := fun
      | .iterate, .sequential (.inl s) => some (.sequential (sequentialBody g ctx opts s))
      | .act l, .parallel s => (State.step g opts env l s).map .parallel
      | _, _ => none }

structure Emitted where
  seq : Nat
  event : Event

/-- The emitter of a run: the counter of its sequence numbers, and what it has
handed to its receivers. -/
structure Emitter where
  counter : Nat := 0
  emitted : List Emitted := []

def Emitter.emit (em : Emitter) (e : Event) : Emitter :=
  { counter := em.counter + 1, emitted := em.emitted ++ [{ seq := em.counter + 1, event := e }] }

def Emitter.events (em : Emitter) : List Event := em.emitted.map (·.event)

def validateGraph (g : BasicGraph) : Except GraphError Unit :=
  if g.nodeOrder = [] then .error .emptyGraph
  else if g.entry = "" then .error .noEntryNode
  else if (g.nodeByID g.entry).isNone then .error (.entryNotFound g.entry)
  else .ok ()

/-- The envelope a run starts with. Its run id is always the generated one. -/
def startEnvelope (env : Option Envelope) (runID : String) : Envelope :=
  let env := env.getD Envelope.newEnvelope
  { env with trace := { env.trace with runID } }

def Event.withText (e : Event) (key text : String) : Event :=
  if text ≠ "" then e.withPayload key (.str text) else e

def Event.withSnapshot (e : Event) (key : String) (value : Option Value) : Event :=
  value.elim e fun v => e.withPayload key v

@[simp] theorem Event.withText_header (e : Event) (key text : String) :
    (e.withText key text).kind = e.kind ∧ (e.withText key text).runID = e.runID := by
  unfold Event.withText
  split
  · exact ⟨rfl, rfl⟩
  · exact ⟨rfl, rfl⟩

@[simp] theorem Event.withSnapshot_header (e : Event) (key : String) (value : Option Value) :
    (e.withSnapshot key value).kind = e.kind ∧ (e.withSnapshot key value).runID = e.runID := by
  cases value with
  | none | some v => exact ⟨rfl, rfl⟩

def runStarted (g : BasicGraph) (opts : RunOptions) (runID : String) : Event :=
  let e := ((Event.newEvent .runStarted runID).withPayload "graph" (.str g.name)).withPayload
    "entry" (.str g.entry)
  let e := ((e.withText "trigger" opts.triggerSource).withText "workflow_id" opts.workflowID).withText
    "workflow_version" opts.workflowVersion
  if opts.captureSnapshots then
    (e.withSnapshot "graph_definition" opts.graphDefinition).withSnapshot "inputs" opts.inputs
  else e

theorem runStarted_header (g : BasicGraph) (opts : RunOptions) (runID : String) :
    (runStarted g opts runID).kind = .runStarted ∧ (runStarted g opts runID).runID = runID := by
  unfold runStarted
  dsimp only
  split
  · simp [Event.withPayload, Event.newEvent]
  · simp [Event.withPayload, Event.newEvent]

def runFinished (runID : String) (err : Option RunError) : Event :=
  match err with
  | some err =>
    ((Event.newEvent .runFinished runID).withPayload "status" (.str "failed")).withPayload
      "error" (.str err.error)
  | none => (Event.newEvent .runFinished runID).withPayload "status" (.str "completed")

theorem runFinished_header (runID : String) (err : Option RunError) :
    (runFinished runID err).kind = .runFinished ∧ (runFinished runID err).runID = runID := by
  cases err with
  | none | some err => exact ⟨rfl, rfl⟩

/-- The kinds of events that the runtime itself emits about the run and about
the executions of its nodes. -/
def EventKind.isLifecycle : EventKind → Bool
  | runStarted | nodeStarted | nodeFailed | nodeFinished | runFinished => true
  | _ => false

def Event.isEndOf (e : Event) (nodeID : String) : Bool :=
  e.isOf .nodeFinished nodeID || e.isOf .nodeFailed nodeID

def completions (log : List Event) (nodeID : String) : Nat := log.countP (·.isEndOf nodeID)

def nodeRunning (log : List Event) : Bool :=
  log.any fun e => completions log e.nodeID < executions log e.nodeID

/-- Where a call of `Run` is. -/
inductive RunPhase where
  | starting
  | executing
  | returned (envelope : Option Envelope) (err : Option RunError)
  | rejected (err : GraphError)

/-- The state of a run. `queue` holds the events of the executor's last step that
it has still to emit. -/
structure RunState (n : Nat) where
  phase : RunPhase
  execution : Execution n
  queue : List Event
  emitter : Emitter

/-- A step of a run. Between the events of the executor, a node that is being
executed can emit events of its own. -/
inductive RunLabel (n : Nat) where
  | start
  | execute (l : ExecutionLabel n)
  | emit
  | own (e : Event)
  | finish

namespace RunState

variable {n : Nat}

def step (g : BasicGraph) (opts : RunOptions) (runID : String) (m : Machine (Execution n) (ExecutionLabel n)) :
    RunLabel n → RunState n → Option (RunState n)
  | .start, s =>
    match s.phase with
    | .starting =>
      match validateGraph g with
      | .error err => some { s with phase := .rejected err }
      | .ok () => some { s with phase := .executing, emitter := s.emitter.emit (runtime.runStarted g opts runID) }
    | _ => none
  | .execute l, s =>
    match s.phase, s.queue with
    | .executing, [] =>
      (m.step l s.execution).map fun execution =>
        { s with execution, queue := execution.log.drop s.execution.log.length }
    | _, _ => none
  | .emit, s =>
    match s.queue with
    | e :: queue => some { s with queue, emitter := s.emitter.emit e }
    | [] => none
  | .own e, s =>
    match s.phase with
    | .executing =>
      if !e.kind.isLifecycle && nodeRunning s.emitter.events then some { s with emitter := s.emitter.emit e }
      else none
    | _ => none
  | .finish, s =>
    match s.phase, s.queue, s.execution.ret with
    | .executing, [], some (.returned envelope err) =>
      some { s with phase := .returned envelope err, emitter := s.emitter.emit (runtime.runFinished runID err) }
    | _, _, _ => none

end RunState

/-- A call of `Run` with the run id it generates. -/
def run (g : BasicGraph) (ctx : Nat → Option String) (opts : RunOptions) (env : Option Envelope)
    (runID : String) : Machine (RunState opts.concurrency) (RunLabel opts.concurrency) :=
  let m := executeGraph g ctx opts (startEnvelope env runID)
  { init := { phase := .starting, execution := m.init, queue := [], emitter := {} }
    step := RunState.step g opts runID m }

def RunState.completed {n : Nat} (s : RunState n) : Bool :=
  match s.phase with
  | .returned _ none => true
  | _ => false

theorem RunState.exists_of_completed {n : Nat} {s : RunState n} (hcompleted : s.completed = true) :
    ∃ envelope, s.phase = .returned envelope none := by
  grind [completed]

end

open pool trace List Option Multiset

open Event

@[simp] theorem executions_nil (nodeID : String) : executions [] nodeID = 0 := rfl

@[simp] theorem executions_append (left right : List Event) (nodeID : String) :
    executions (left ++ right) nodeID = executions left nodeID + executions right nodeID :=
  List.countP_append

def Quiet (events : List Event) : Prop :=
  ∀ e ∈ events, e.kind ≠ .nodeStarted ∧ e.kind ≠ .nodeFinished ∧ e.kind ≠ .nodeFailed

theorem Quiet.nil : Quiet [] := by
  intro e he
  cases he

variable {events : List Event}

theorem Quiet.executions (hquiet : Quiet events) (nodeID : String) : runtime.executions events nodeID = 0 := by
  rw [runtime.executions, List.countP_eq_zero]
  intro e he
  simp [Event.isOf, (hquiet e he).1]

def EventKind.isInterim : EventKind → Bool
  | routeDecision | stepPaused | stepResumed | stepSkipped | stepAborted => true
  | _ => false

def Interim (events : List Event) : Prop := ∀ e ∈ events, e.kind.isInterim = true

theorem Interim.nil : Interim [] := by
  intro e he
  cases he

theorem Interim.quiet (hinterim : Interim events) : Quiet events := by
  intro e he
  have hkind := hinterim e he
  grind [EventKind.isInterim]

theorem executeNode_executions (node : Node) (t : Nat) (env : Envelope) (nodeID : String) :
    executions (executeNode node t env).2 nodeID = if node.id = nodeID then 1 else 0 := by
  have hended : (nodeEnded node env (node.run t env)).isOf .nodeStarted nodeID = false := by
    cases node.run t env <;> simp [nodeEnded, Event.isOf, withNode, withPayload, newEvent]
  grind [nodeStarted, withNode, newEvent, executions, executeNode, Event.isOf]

theorem routeSuccessors_interim (graphSuccessors : List String) (node : Node) (env : Envelope) :
    Interim (routeSuccessors graphSuccessors node env).events := by
  unfold routeSuccessors
  grind [Interim, EventKind.isInterim, routeDecision, withNode, withPayload, newEvent]

theorem determineSuccessors_interim {g : BasicGraph} {node : Node} {env : Option Envelope}
    {succ : Successors} (hsucc : determineSuccessors g node env = some succ) : Interim succ.events := by
  grind [determineSuccessors, Interim.nil, Option.map_eq_some_iff, routeSuccessors_interim]

theorem handleStepPoint_interim (g : BasicGraph) (opts : RunOptions) (t : Nat) (node : Node)
    (env : Envelope) (point : StepPoint) (hopCount : Nat) (nodeErr : Option String) :
    Interim (handleStepPoint g opts t node env point hopCount nodeErr).events := by
  unfold handleStepPoint
  split
  · exact Interim.nil
  · split
    · grind [Interim, EventKind.isInterim, stepPaused, withNode, withPayload, newEvent, stepResumed]
    · exact Interim.nil

theorem stepControlEvent_interim {kind : EventKind} (node : Node) (env : Envelope) (reason : String)
    (hkind : kind = .stepAborted ∨ kind = .stepSkipped) : Interim [stepControlEvent kind node env reason] := by
  rcases hkind with rfl | rfl <;>
    simp [Interim, EventKind.isInterim, stepControlEvent, withNode, withPayload, newEvent]

theorem handleSequentialBeforeStep_interim (g : BasicGraph) (opts : RunOptions) (t : Nat) (node : Node)
    (current : Envelope) (attempt : Nat) :
    Interim (handleSequentialBeforeStep g opts t node current attempt).events := by
  grind [handleStepPoint_interim, stepControlEvent_interim, handleSequentialBeforeStep, Interim]

theorem handleSequentialAfterStep_interim (g : BasicGraph) (opts : RunOptions) (t : Nat) (node : Node)
    (current : Envelope) (outcome : Outcome) (attempt : Nat) :
    Interim (handleSequentialAfterStep g opts t node current outcome attempt).2 := by
  have hpoint (env : Envelope) (nodeErr : Option String) :=
    handleStepPoint_interim g opts t node env .afterNode attempt nodeErr
  unfold handleSequentialAfterStep
  grind [stepControlEvent_interim, Interim]

def loopLog : SequentialState ⊕ Finished → List Event := Sum.elim (·.log) (·.log)

structure Failure where
  nodeID : String
  kind : NodeKind
  message : String
deriving DecidableEq, Repr

def failureOf (err : NodeError) : Failure :=
  { nodeID := err.nodeID, kind := err.kind, message := err.message }

structure Ended where
  nodeID : String
  kind : NodeKind
  err : Option String
deriving DecidableEq, Repr

def Ended.failure (e : Ended) : Option Failure :=
  e.err.map fun message => { nodeID := e.nodeID, kind := e.kind, message }

def Event.ended (e : Event) : Option Ended :=
  match e.kind, e.nodeKind with
  | .nodeFinished, some kind => some { nodeID := e.nodeID, kind, err := none }
  | .nodeFailed, some kind =>
    match e.payload.lookup "error" with
    | some (.str message) => some { nodeID := e.nodeID, kind, err := some message }
    | _ => none
  | _, _ => none

def endings (log : List Event) : List Ended := log.filterMap Event.ended

def failures (log : List Event) : List Failure := (endings log).filterMap Ended.failure

@[simp] theorem endings_append (left right : List Event) :
    endings (left ++ right) = endings left ++ endings right :=
  filterMap_append

@[simp] theorem failures_append (left right : List Event) :
    failures (left ++ right) = failures left ++ failures right := by
  simp [failures]

theorem Quiet.endings (hquiet : Quiet events) : runtime.endings events = [] := by
  rw [runtime.endings, filterMap_eq_nil_iff]
  intro e he
  obtain ⟨_, hfinished, hfailed⟩ := hquiet e he
  grind [Event.ended]

theorem Quiet.failures (hquiet : Quiet events) : runtime.failures events = [] := by
  rw [runtime.failures, hquiet.endings]
  rfl

@[simp] theorem nodeEnded_ended (node : Node) (env : Envelope) (outcome : Outcome) :
    (nodeEnded node env outcome).ended = some
      { nodeID := node.id, kind := node.kind,
        err := match outcome with
          | .ok _ => none
          | .failed message _ => some message } := by
  cases outcome with
  | ok | failed => rfl

theorem executeNode_failures (node : Node) (t : Nat) (env : Envelope) :
    failures (executeNode node t env).2 = match node.run t env with
      | .ok _ => []
      | .failed message _ => [{ nodeID := node.id, kind := node.kind, message }] := by
  unfold executeNode failures endings
  dsimp only
  cases node.run t env with
  | ok | failed => rfl

theorem exists_nodeFinished {log : List Event} {ended : Ended} (hmem : ended ∈ endings log)
    (hok : ended.err = none) : ∃ e ∈ log, e.isOf .nodeFinished ended.nodeID = true := by
  obtain ⟨e, he, hended⟩ := mem_filterMap.mp hmem
  grind [Event.ended, Event.isOf]

def KeepsErrors (g : Graph) : Prop := ∀ id node, g.nodeByID id = some node → node.KeepsErrors

@[simp] theorem completions_append (left right : List Event) (nodeID : String) :
    completions (left ++ right) nodeID = completions left nodeID + completions right nodeID :=
  countP_append

variable {e : Event}

theorem not_isEndOf_of_isOf_nodeStarted {nodeID : String} (he : e.isEndOf nodeID = true) :
    e.isOf .nodeStarted nodeID = false := by
  simp only [isEndOf, Event.isOf, Bool.or_eq_true, decide_eq_true_eq] at he
  grind [Event.isOf]

theorem isEndOf_eq_false (hfinished : e.kind ≠ .nodeFinished) (hfailed : e.kind ≠ .nodeFailed) (nodeID : String) :
    e.isEndOf nodeID = false := by
  simp [isEndOf, Event.isOf, hfinished, hfailed]

theorem Quiet.completions (hquiet : Quiet events) (nodeID : String) : runtime.completions events nodeID = 0 := by
  rw [runtime.completions, List.countP_eq_zero]
  intro e he
  obtain ⟨_, hfinished, hfailed⟩ := hquiet e he
  rw [isEndOf_eq_false hfinished hfailed]
  exact Bool.false_ne_true

theorem nodeStarted_executions (node : Node) (env : Envelope) (nodeID : String) :
    executions [nodeStarted node env] nodeID = if node.id = nodeID then 1 else 0 := by
  simp [executions, nodeStarted, Event.isOf, withNode, newEvent]

theorem nodeStarted_completions (node : Node) (env : Envelope) (nodeID : String) :
    completions [nodeStarted node env] nodeID = 0 := by
  simp [completions, nodeStarted, isEndOf, Event.isOf, withNode, newEvent]

theorem nodeEnded_executions (node : Node) (env : Envelope) (outcome : Outcome) (nodeID : String) :
    executions [nodeEnded node env outcome] nodeID = 0 := by
  cases outcome <;>
    simp [executions, nodeEnded, Event.isOf, withNode, withPayload, newEvent]

theorem nodeEnded_completions (node : Node) (env : Envelope) (outcome : Outcome) (nodeID : String) :
    completions [nodeEnded node env outcome] nodeID = if node.id = nodeID then 1 else 0 := by
  cases outcome <;>
    simp [completions, nodeEnded, isEndOf, Event.isOf, withNode, withPayload, newEvent]

/-- A log within a run: it has no event of the run as a whole, and no execution
ends more often than it was started. -/
structure Tidy (log : List Event) : Prop where
  kinds : ∀ e ∈ log, e.kind ≠ .runStarted ∧ e.kind ≠ .runFinished
  ballot : ∀ id, Ballot (·.isOf .nodeStarted id) (·.isEndOf id) log

theorem Tidy.nil : Tidy [] where
  kinds := by simp
  ballot := fun _ => Ballot.nil

theorem Tidy.completions_le {log : List Event} (hlog : Tidy log) (id : String) :
    completions log id ≤ executions log id :=
  hlog.ballot id log (prefix_refl _)

variable {log : List Event}

theorem Tidy.concat (hlog : Tidy log) (hkind : e.kind ≠ .runStarted ∧ e.kind ≠ .runFinished)
    (hcount : ∀ id, completions (log ++ [e]) id ≤ executions (log ++ [e]) id) : Tidy (log ++ [e]) where
  kinds := by
    intro e' he'
    rcases mem_append.mp he' with he' | he'
    · exact hlog.kinds e' he'
    simp_all
  ballot := fun id => (hlog.ballot id).concat (hcount id)

theorem Tidy.append_interim (hlog : Tidy log) (hinterim : Interim events) : Tidy (log ++ events) where
  kinds := by
    intro e he
    rcases mem_append.mp he with he | he
    · exact hlog.kinds e he
    · grind [EventKind.isInterim, Interim]
  ballot := by
    intro id
    apply (hlog.ballot id).append_neutral
    intro e he
    obtain ⟨_, hfinished, hfailed⟩ := hinterim.quiet e he
    exact isEndOf_eq_false hfinished hfailed id

theorem Tidy.append_started (hlog : Tidy log) (node : Node) (env : Envelope) :
    Tidy (log ++ [nodeStarted node env]) := by
  apply hlog.concat
  · simp [nodeStarted, withNode, newEvent]
  · intro id
    have hle := hlog.completions_le id
    rw [completions_append, executions_append, nodeStarted_completions]
    omega

theorem Tidy.append_ended (hlog : Tidy log) (node : Node) (env : Envelope) (outcome : Outcome)
    (hrunning : completions log node.id < executions log node.id) : Tidy (log ++ [nodeEnded node env outcome]) := by
  apply hlog.concat
  · cases outcome <;> simp [nodeEnded, withNode, withPayload, newEvent]
  · intro id
    have hle := hlog.completions_le id
    grind [completions_append, executions_append, nodeEnded_completions]

/-! The sequential executor ends every execution in the iteration that starts it. -/

structure Settled (log : List Event) : Prop extends Tidy log where
  balanced : ∀ id, executions log id = completions log id

theorem Settled.nil : Settled [] where
  toTidy := Tidy.nil
  balanced := fun _ => rfl

theorem Settled.append_interim (hlog : Settled log) (hinterim : Interim events) : Settled (log ++ events) where
  toTidy := hlog.toTidy.append_interim hinterim
  balanced := by
    intro id
    rw [executions_append, completions_append, hinterim.quiet.executions, hinterim.quiet.completions, hlog.balanced]

theorem Settled.append_executeNode (hlog : Settled log) (node : Node) (t : Nat) (env : Envelope) :
    Settled (log ++ (executeNode node t env).2) := by
  have hsplit : log ++ (executeNode node t env).2 =
      log ++ [nodeStarted node env] ++ [nodeEnded node env (node.run t env)] := by
    rw [append_assoc]
    rfl
  have hcounts : ∀ id, executions (log ++ [nodeStarted node env]) id =
      completions (log ++ [nodeStarted node env]) id + if node.id = id then 1 else 0 := by
    intro id
    rw [executions_append, completions_append, nodeStarted_executions, nodeStarted_completions, hlog.balanced,
      Nat.add_zero]
  rw [hsplit]
  constructor
  · apply (hlog.toTidy.append_started node env).append_ended
    simp_all
  · intro id
    rw [executions_append, completions_append, nodeEnded_executions, nodeEnded_completions, hcounts, Nat.add_zero]

def Continues (log log' : List Event) : Prop := log <+: log' ∧ (Settled log → Settled log')

theorem Continues.refl (log : List Event) : Continues log log := ⟨prefix_refl log, id⟩

theorem Continues.trans {log' log'' : List Event} (hleft : Continues log log') (hright : Continues log' log'') :
    Continues log log'' :=
  ⟨hleft.1.trans hright.1, hright.2 ∘ hleft.2⟩

theorem continues_interim (log : List Event) (hinterim : Interim events) : Continues log (log ++ events) :=
  ⟨prefix_append _ _, fun hlog => hlog.append_interim hinterim⟩

theorem continues_executeNode (log : List Event) (node : Node) (t : Nat) (env : Envelope) :
    Continues log (log ++ (executeNode node t env).2) :=
  ⟨prefix_append _ _, fun hlog => hlog.append_executeNode node t env⟩

variable {g : BasicGraph} {opts : RunOptions} {t : Nat} {node : Node} {nodeID : String}
  {attempt : Nat}
  {current : Envelope} {s : SequentialState}

theorem enqueueSuccessors_continues (hlog : Continues log s.log) :
    Continues log (loopLog (enqueueSuccessors g node nodeID s)) := by
  unfold enqueueSuccessors
  split
  · exact hlog
  · next hsucc => exact hlog.trans (continues_interim _ (determineSuccessors_interim hsucc))

theorem runSequentialNode_continues (hlog : Continues log s.log) :
    Continues log (loopLog (runSequentialNode g opts t node nodeID attempt current s)) := by
  have hlog' := (hlog.trans (continues_executeNode s.log node t current)).trans (continues_interim _
    (handleSequentialAfterStep_interim g opts t node current (executeNode node t current).1 attempt))
  unfold runSequentialNode
  dsimp only
  split
  · exact hlog'
  · split
    · exact hlog'
    · exact enqueueSuccessors_continues hlog'

theorem visitNode_continues (hlog : Continues log s.log) :
    Continues log (loopLog (visitNode g opts t node nodeID attempt current s)) := by
  have hlog' := hlog.trans
    (continues_interim s.log (handleSequentialBeforeStep_interim g opts t node current attempt))
  unfold visitNode
  dsimp only
  split
  · exact hlog'
  · split
    · exact enqueueSuccessors_continues hlog'
    · exact runSequentialNode_continues hlog'

theorem sequentialBody_continues (g : BasicGraph) (ctx : Nat → Option String) (opts : RunOptions)
    (s : SequentialState) : Continues s.log (loopLog (sequentialBody g ctx opts s)) := by
  unfold sequentialBody
  split
  · exact Continues.refl _
  · split
    · exact Continues.refl _
    · split
      · exact Continues.refl _
      · split
        · exact Continues.refl _
        · split
          · exact Continues.refl _
          · split
            · exact Continues.refl _
            · exact visitNode_continues (Continues.refl _)

/-! In the parallel executor the open executions are those of the running workers. -/

def WorkItem.isFor (g : BasicGraph) (nodeID : String) (item : WorkItem) : Bool :=
  (g.nodeByID item.nodeID).any (·.id = nodeID)

/-- The started executions have ended or are those of the active items, and there
are none after the return. -/
structure Ordered {n : Nat} (g : BasicGraph) (s : State n) : Prop extends Tidy s.log where
  open_eq : ∀ id, executions s.log id = completions s.log id + s.pool.active.countP (·.isFor g id)
  exited : ∀ ret, s.coordinator = .returned ret → ∀ w, s.pool.workers w = .exited

variable {n : Nat} {env : Envelope} {s s' : State n}

structure Frame (s s' : State n) : Prop where
  log : ∃ events, Interim events ∧ s'.log = s.log ++ events
  workers : s'.pool.workers = s.pool.workers
  coordinator : ∀ ret, s'.coordinator ≠ .returned ret

theorem frame_stopWorkers (ret : Return) (hlog : s'.log = s.log) (hworkers : s'.pool.workers = s.pool.workers) :
    Frame s (s'.stopWorkers ret) where
  log := ⟨[], Interim.nil, by rw [append_nil]; exact hlog⟩
  workers := hworkers
  coordinator := by simp [State.stopWorkers]

theorem frame_finishResult (env : Envelope) (final : Option Envelope) (k : Nat) (hlog : s'.log = s.log)
    (hworkers : s'.pool.workers = s.pool.workers) : Frame s (s'.finishResult env final k) := by
  simp only [State.finishResult]
  split
  · exact frame_stopWorkers _ hlog hworkers
  · refine ⟨⟨[], Interim.nil, by rw [append_nil]; exact hlog⟩, hworkers, ?_⟩
    intro ret hcoord
    cases hcoord

theorem Handled.frame {result : NodeResult} (hhandled : Handled g opts env result s s') : Frame s s' := by
  cases hhandled with
  | failed | panicked => exact frame_stopWorkers _ rfl rfl
  | missing | absent => exact frame_finishResult _ _ _ rfl rfl
  | routed _ _ hsucc _ =>
    refine ⟨⟨_, determineSuccessors_interim hsucc, rfl⟩, rfl, ?_⟩
    intro ret hcoord
    cases hcoord

theorem Iterated.frame {source : String} {resultEnvelope : Envelope} {addedPending : Nat} {successors : List String}
    (hiter : Iterated g opts env t source resultEnvelope addedPending s successors s') : Frame s s' := by
  cases hiter with
  | done => exact frame_finishResult _ _ _ rfl rfl
  | fail => exact frame_stopWorkers _ rfl rfl
  | skip | send => exact ⟨⟨[], Interim.nil, (append_nil _).symm⟩, rfl, nofun⟩

theorem Frame.ordered (hframe : Frame s s') (hs : Ordered g s) : Ordered g s' := by
  obtain ⟨events, hinterim, hlog⟩ := hframe.log
  have hactive : s'.pool.active = s.pool.active := by rw [Pool.active, hframe.workers, Pool.active]
  constructor
  · rw [hlog]
    exact hs.toTidy.append_interim hinterim
  · intro id
    rw [hlog, executions_append, completions_append, hinterim.quiet.executions, hinterim.quiet.completions, hactive]
    exact hs.open_eq id
  · intro ret hcoord
    exact absurd hcoord (hframe.coordinator ret)

theorem Ordered.worker {w : Fin n} {a : Act} {pool : Pool WorkItem NodeResult n (n * 2)} (hs : Ordered g s)
    (hact : Pool.Moves (runWork g) s.pool w a pool) :
    Ordered g { s with pool, log := s.log ++ workerEvents g a (s.pool.workers w) } := by
  have hexited : ∀ ret, s.coordinator = .returned ret → ∀ w, pool.workers w = .exited :=
    fun ret hcoord => absurd hact (Pool.not_moves_of_exited (hs.exited ret hcoord))
  obtain ⟨_, hactive, _, hstart, hfinish⟩ | ⟨item, rfl, hw, _, hactive, _⟩ | ⟨item, t, rfl, hw, _, hactive, _⟩ :=
    hact.stages
  · have hquiet : workerEvents g a (s.pool.workers w) = [] := by
      unfold workerEvents
      split
      · exact absurd rfl hstart
      · next t _ _ => exact absurd rfl (hfinish t)
      · rfl
    refine ⟨?_, ?_, hexited⟩
    · simp only [hquiet, append_nil]
      exact hs.toTidy
    · intro id
      simp only [hquiet, append_nil, hactive]
      exact hs.open_eq id
  · cases hnode : g.nodeByID item.nodeID with
    | none =>
      have hfor : ∀ id, item.isFor g id = false := by simp [WorkItem.isFor, hnode]
      simp only [workerEvents, hw, hnode, elim_none, append_nil]
      refine ⟨hs.toTidy, ?_, hexited⟩
      intro id
      rw [hactive, Multiset.countP_cons_of_neg _ (by simp [hfor])]
      exact hs.open_eq id
    | some node =>
      have hfor : ∀ id, item.isFor g id = decide (node.id = id) := by simp [WorkItem.isFor, hnode]
      simp only [workerEvents, hw, hnode, elim_some]
      refine ⟨hs.toTidy.append_started node _, ?_, hexited⟩
      intro id
      have hopen := hs.open_eq id
      rw [executions_append, completions_append, nodeStarted_executions, nodeStarted_completions, hactive,
        Multiset.countP_cons, hfor]
      simp only [decide_eq_true_eq]
      omega
  · cases hnode : g.nodeByID item.nodeID with
    | none =>
      have hfor : ∀ id, item.isFor g id = false := by simp [WorkItem.isFor, hnode]
      simp only [workerEvents, hw, hnode, elim_none, append_nil]
      refine ⟨hs.toTidy, ?_, hexited⟩
      intro id
      have hopen := hs.open_eq id
      rwa [hactive, Multiset.countP_cons_of_neg _ (by simp [hfor])] at hopen
    | some node =>
      have hopen : ∀ id, executions s.log id =
          completions s.log id + (pool.active.countP (·.isFor g id) + if node.id = id then 1 else 0) := by
        intro id
        have hfor : item.isFor g id = decide (node.id = id) := by simp [WorkItem.isFor, hnode]
        have hopen := hs.open_eq id
        rw [hactive, Multiset.countP_cons, hfor] at hopen
        simpa only [decide_eq_true_eq] using hopen
      simp only [workerEvents, hw, hnode, elim_some]
      refine ⟨hs.toTidy.append_ended node _ _ ?_, ?_, hexited⟩
      · rw [hopen, if_pos rfl]
        omega
      grind [executions_append, completions_append, nodeEnded_executions, nodeEnded_completions]

theorem Moves.ordered {l : Label n} (hmoves : Moves g opts env s l s') (hs : Ordered g s) : Ordered g s' := by
  cases hmoves with
  | cancel => exact { hs with }
  | ctxDone => exact (frame_stopWorkers _ rfl rfl).ordered hs
  | receive hcoord hcollect hhandled =>
    obtain ⟨answers, _, rfl⟩ := Pool.collect_eq_some_iff.mp hcollect
    refine hhandled.frame.ordered ⟨hs.toTidy, hs.open_eq, ?_⟩
    intro ret hret
    exact hs.exited ret hret
  | schedule t hcoord hiter => exact hiter.frame.ordered hs
  | send hcoord hsubmit =>
    obtain ⟨jobs, _, rfl⟩ := Pool.submit_eq_some_iff.mp hsubmit
    exact ⟨hs.toTidy, hs.open_eq, nofun⟩
  | wait hcoord hexited => exact ⟨hs.toTidy, hs.open_eq, fun _ _ w => Worker.isExited_iff.mp (hexited w)⟩
  | worker hact => exact hs.worker hact

theorem ordered_init : Ordered g (State.init g env : State n) := by
  have hactive : (State.init g env : State n).pool.active = 0 := by
    unfold State.init
    dsimp only
    cases hsubmit : (Pool.fresh : Pool WorkItem NodeResult n (n * 2)).submit
        { nodeID := g.entry, envelope := env } with
    | none => exact Pool.fresh_active
    | some pool => rw [getD_some, (Pool.submit_stages hsubmit).2.1, Pool.fresh_active]
  refine ⟨Tidy.nil, ?_, nofun⟩
  intro id
  rw [hactive]
  rfl

theorem Frame.log_grows (hframe : Frame s s') : s.log <+: s'.log := by
  obtain ⟨events, _, hlog⟩ := hframe.log
  rw [hlog]
  exact prefix_append _ _

theorem Moves.log_grows {l : Label n} (hmoves : Moves g opts env s l s') : s.log <+: s'.log := by
  cases hmoves with
  | receive hcoord hcollect hhandled => exact hhandled.frame.log_grows
  | schedule t hcoord hiter => exact hiter.frame.log_grows
  | worker => exact prefix_append _ _
  | _ => exact prefix_refl _

/-! Both executors together. -/

def Execution.Orderly {n : Nat} (g : BasicGraph) : Execution n → Prop
  | sequential s => Settled (loopLog s)
  | parallel s => Ordered g s

variable {ctx : Nat → Option String} {x x' : Execution opts.concurrency}

theorem Execution.Orderly.tidy {x : Execution n} (hx : x.Orderly g) : Tidy x.log := by
  cases x with
  | sequential s =>
    cases s with
    | inl s | inr done => exact hx.toTidy
  | parallel s => exact hx.toTidy

theorem Execution.Orderly.balanced {x : Execution n} (hx : x.Orderly g) {ret : Return}
    (hret : x.ret = some ret) (id : String) : executions x.log id = completions x.log id := by
  cases x with
  | sequential s =>
    cases s with
    | inl s => cases hret
    | inr done => exact Settled.balanced hx id
  | parallel s =>
    simp only [Execution.ret] at hret
    split at hret
    · next ret' hcoord =>
      have hactive : s.pool.active = 0 := by
        rw [Pool.active]
        exact Finset.sum_eq_zero fun w _ => by rw [Ordered.exited hx ret' hcoord w]; rfl
      have hopen := Ordered.open_eq hx id
      rwa [hactive, countP_zero, Nat.add_zero] at hopen
    · cases hret

theorem executeGraph_step {l : ExecutionLabel opts.concurrency} (hx : x.Orderly g)
    (hstep : (executeGraph g ctx opts env).step l x = some x') : x.log <+: x'.log ∧ x'.Orderly g := by
  unfold executeGraph at hstep
  dsimp only at hstep
  split at hstep
  · next s =>
    cases hstep
    obtain ⟨hinitial, hsettled⟩ := sequentialBody_continues g ctx opts s
    refine ⟨?_, hsettled hx⟩
    cases hbody : sequentialBody g ctx opts s with
    | inl s' | inr done =>
      rw [hbody] at hinitial
      exact hinitial
  · rw [map_eq_some_iff] at hstep
    obtain ⟨s', hstep, rfl⟩ := hstep
    have hmoves := moves_of_step hstep
    exact ⟨hmoves.log_grows, hmoves.ordered hx⟩
  · cases hstep

theorem executeGraph_init (g : BasicGraph) (ctx : Nat → Option String) (opts : RunOptions) (env : Envelope) :
    (executeGraph g ctx opts env).init.Orderly g ∧ (executeGraph g ctx opts env).init.log = [] := by
  unfold executeGraph
  dsimp only
  split
  · exact ⟨ordered_init, rfl⟩
  · exact ⟨Settled.nil, rfl⟩

end petalflow.runtime
