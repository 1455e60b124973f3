import Petalflow.Runtime.Parallel.Executor

open petalflow.core petalflow.graph pool Option

namespace petalflow.runtime

/-! What a step of the parallel executor can do, said once. -/

def resolveResult (g : BasicGraph) (opts : RunOptions) (result : NodeResult) (state : ParallelState) :
    Except RunError (Option Envelope × ParallelState) :=
  resolveParallelResultEnvelope g result opts (state.incrementHop result.nodeID).1
    (state.incrementHop result.nodeID).2.1 (state.incrementHop result.nodeID).2.2

inductive Handled {n : Nat} (g : BasicGraph) (opts : RunOptions) (env : Envelope) (result : NodeResult)
    (s : State n) : State n → Prop where
  | failed {message : String} (herr : result.err = some message)
      (hstop : opts.continueOnError = false) :
      Handled g opts env result s
        ({ s with state := (s.state.incrementHop result.nodeID).2.2 }.stopWorkers
          (.returned (some env) (some (.nodeExecution result.nodeID message))))
  | missing {resultEnvelope : Option Envelope} {state : ParallelState}
      (hresolve : resolveResult g opts result s.state = .ok (resultEnvelope, state))
      (hnode : g.nodeByID result.nodeID = none) :
      Handled g opts env result s
        ({ s with state := state.markNodeCompleted result.nodeID resultEnvelope }.finishResult
          env resultEnvelope 0)
  | panicked {state : ParallelState} {node : Node}
      (hresolve : resolveResult g opts result s.state = .ok (none, state))
      (hnode : g.nodeByID result.nodeID = some node) (hsuccessors : g.successors node.id ≠ []) :
      Handled g opts env result s
        ({ s with state := state.markNodeCompleted result.nodeID none }.stopWorkers .panicked)
  | absent {state : ParallelState} {node : Node}
      (hresolve : resolveResult g opts result s.state = .ok (none, state))
      (hnode : g.nodeByID result.nodeID = some node) (hsuccessors : g.successors node.id = []) :
      Handled g opts env result s
        ({ s with state := state.markNodeCompleted result.nodeID none }.finishResult env none 0)
  | routed {resultEnvelope : Envelope} {state : ParallelState} {node : Node} {succ : Successors}
      {env' : Envelope}
      (hresolve : resolveResult g opts result s.state = .ok (some resultEnvelope, state))
      (hnode : g.nodeByID result.nodeID = some node)
      (hsucc : determineSuccessors g node (some resultEnvelope) = some succ)
      (henv : succ.envelope = some env') :
      Handled g opts env result s
        { s with
          coordinator := .scheduling result.nodeID env' succ.targets 0
          state := state.markNodeCompleted result.nodeID (some env')
          log := s.log ++ succ.events
          calls := s.calls ++ [.routed result.nodeID env' succ.targets] }

inductive Iterated {n : Nat} (g : BasicGraph) (opts : RunOptions) (env : Envelope) (t : Nat)
    (source : String) (resultEnvelope : Envelope) (addedPending : Nat) (s : State n) :
    List String → State n → Prop where
  | done : Iterated g opts env t source resultEnvelope addedPending s []
      (s.finishResult env (some resultEnvelope) addedPending)
  | skip {succID : String} {rest : List String} {state : ParallelState} {calls : List Call}
      (hsched : scheduleSuccessor g opts t source succID resultEnvelope s.state = (.skip state, calls)) :
      Iterated g opts env t source resultEnvelope addedPending s (succID :: rest)
        { s with coordinator := .scheduling source resultEnvelope rest addedPending, state,
                 calls := s.calls ++ calls }
  | send {succID : String} {rest : List String} {item : WorkItem} {state : ParallelState}
      {calls : List Call}
      (hsched : scheduleSuccessor g opts t source succID resultEnvelope s.state = (.send item state, calls)) :
      Iterated g opts env t source resultEnvelope addedPending s (succID :: rest)
        { s with coordinator := .sending item source resultEnvelope rest addedPending, state,
                 calls := s.calls ++ calls }
  | fail {succID : String} {rest : List String} {stop : MergeStop} {state : ParallelState}
      {calls : List Call}
      (hsched : scheduleSuccessor g opts t source succID resultEnvelope s.state = (.fail stop state, calls)) :
      Iterated g opts env t source resultEnvelope addedPending s (succID :: rest)
        ({ s with state, calls := s.calls ++ calls }.stopWorkers (stop.ret env))

inductive Moves {n : Nat} (g : BasicGraph) (opts : RunOptions) (env : Envelope) (s : State n) :
    Label n → State n → Prop where
  | cancel (cause : String) (hctx : s.ctxErr = none) :
      Moves g opts env s (.cancel cause)
        { s with ctxErr := some cause, pool := { s.pool with done := true } }
  | ctxDone {cause : String} (hcoord : s.coordinator = .selecting) (hctx : s.ctxErr = some cause) :
      Moves g opts env s .ctxDone
        (s.stopWorkers (.returned (some env) (some (.runCanceled cause))))
  | receive {item : WorkItem} {result : NodeResult} {pool : Pool WorkItem NodeResult n (n * 2)}
      {s' : State n} (hcoord : s.coordinator = .selecting)
      (hcollect : s.pool.collect = some ((item, result), pool))
      (hhandled : Handled g opts env result { s with
        pendingCount := s.pendingCount - 1, pool, calls := s.calls ++ [Call.received item result] } s') :
      Moves g opts env s .receive s'
  | schedule {source : String} {resultEnvelope : Envelope} {successors : List String}
      {addedPending : Nat} {s' : State n} (t : Nat)
      (hcoord : s.coordinator = .scheduling source resultEnvelope successors addedPending)
      (hiter : Iterated g opts env t source resultEnvelope addedPending s successors s') :
      Moves g opts env s (.schedule t) s'
  | send {item : WorkItem} {source : String} {resultEnvelope : Envelope} {successors : List String}
      {addedPending : Nat} {pool : Pool WorkItem NodeResult n (n * 2)}
      (hcoord : s.coordinator = .sending item source resultEnvelope successors addedPending)
      (hsubmit : s.pool.submit item = some pool) :
      Moves g opts env s .send
        { s with coordinator := .scheduling source resultEnvelope successors (addedPending + 1),
                 pool, calls := s.calls ++ [.sent item] }
  | wait {ret : Return} (hcoord : s.coordinator = .stopping ret)
      (hexited : ∀ w, (s.pool.workers w).isExited) :
      Moves g opts env s .wait { s with coordinator := .returned ret }
  | worker {w : Fin n} {a : Act} {pool : Pool WorkItem NodeResult n (n * 2)}
      (hact : Pool.Moves (runWork g) s.pool w a pool) :
      Moves g opts env s (.worker w a)
        { s with pool, log := s.log ++ workerEvents g a (s.pool.workers w) }

variable {n : Nat} {g : BasicGraph} {opts : RunOptions} {env : Envelope} {s s' : State n}

theorem handled_handleParallelResult (result : NodeResult) :
    Handled g opts env result s (s.handleParallelResult g opts env result) := by
  unfold State.handleParallelResult
  cases hresolve : resolveResult g opts result s.state with
  | error err =>
    have hcall := hresolve
    unfold resolveResult at hcall
    have hfailed : ∃ message, result.err = some message ∧ opts.continueOnError = false ∧
        err = .nodeExecution result.nodeID message := by
      unfold resolveResult resolveParallelResultEnvelope at hresolve
      split at hresolve
      · cases hresolve
      · grind
    obtain ⟨message, hmessage, hstop, rfl⟩ := hfailed
    have hstep : Handled g opts env result s _ := .failed hmessage hstop
    simpa only [hcall] using hstep
  | ok resolved =>
    have hcall := hresolve
    unfold resolveResult at hcall
    obtain ⟨resultEnvelope, state⟩ := resolved
    cases hnode : g.nodeByID result.nodeID with
    | none =>
      have hstep : Handled g opts env result s _ := .missing hresolve hnode
      simpa only [hcall, hnode] using hstep
    | some node =>
      cases hsucc : determineSuccessors g node resultEnvelope with
      | none =>
        obtain ⟨rfl, hsuccessors⟩ := determineSuccessors_eq_none_iff.mp hsucc
        have hstep : Handled g opts env result s _ := .panicked hresolve hnode hsuccessors
        simpa only [hcall, hnode, hsucc] using hstep
      | some succ =>
        cases resultEnvelope with
        | none =>
          have hsuccessors : g.successors node.id = [] := by
            by_contra hne
            rw [determineSuccessors_eq_none_iff.mpr ⟨rfl, hne⟩] at hsucc
            cases hsucc
          have henv : succ.envelope = none ∧ succ.events = [] := by
            simp only [determineSuccessors, hsuccessors, ↓reduceIte, some.injEq] at hsucc
            subst hsucc
            exact ⟨rfl, rfl⟩
          have hstep : Handled g opts env result s _ := .absent hresolve hnode hsuccessors
          simpa only [hcall, hnode, hsucc, henv, List.append_nil] using hstep
        | some resultEnvelope =>
          obtain ⟨env', henv, _⟩ := determineSuccessors_errors hsucc
          have hstep : Handled g opts env result s _ := .routed hresolve hnode hsucc henv
          simpa only [hcall, hnode, hsucc, henv] using hstep

theorem iterated_scheduleStep (t : Nat) (source : String) (resultEnvelope : Envelope)
    (successors : List String) (addedPending : Nat) :
    Iterated g opts env t source resultEnvelope addedPending s successors
      (s.scheduleStep g opts env t source resultEnvelope successors addedPending) := by
  unfold State.scheduleStep
  split
  · exact .done
  · split
    · next hsched => exact .skip hsched
    · next hsched => exact .send hsched
    · next hsched => exact .fail hsched

theorem moves_of_step {l : Label n} (hstep : State.step g opts env l s = some s') : Moves g opts env s l s' := by
  unfold State.step at hstep
  split at hstep
  · next cause =>
    split at hstep
    · cases hstep
    · next hctx =>
      cases hstep
      exact .cancel cause hctx
  · split at hstep
    · next hcoord hctx =>
      cases hstep
      exact .ctxDone hcoord hctx
    · cases hstep
  · split at hstep
    · next hcoord =>
      rw [map_eq_some_iff] at hstep
      obtain ⟨⟨⟨item, result⟩, pool⟩, hcollect, rfl⟩ := hstep
      exact .receive hcoord hcollect (handled_handleParallelResult result)
    · cases hstep
  · next t =>
    split at hstep
    · next hcoord =>
      cases hstep
      exact .schedule t hcoord (iterated_scheduleStep ..)
    · cases hstep
  · split at hstep
    · next hcoord =>
      rw [map_eq_some_iff] at hstep
      obtain ⟨pool, hsubmit, rfl⟩ := hstep
      exact .send hcoord hsubmit
    · cases hstep
  · split at hstep
    · next hcoord =>
      split at hstep
      · next hexited =>
        cases hstep
        exact .wait hcoord hexited
      · cases hstep
    · cases hstep
  · rw [map_eq_some_iff] at hstep
    obtain ⟨pool, hact, rfl⟩ := hstep
    exact .worker (Pool.act_eq_some_iff.mp hact)

theorem Moves.of_sending {l : Label n} {item : WorkItem} {source : String} {resultEnvelope : Envelope}
    {rest : List String} {addedPending : Nat} (hmoves : Moves g opts env s l s')
    (hcoord : s'.coordinator = .sending item source resultEnvelope rest addedPending) :
    s.coordinator = .sending item source resultEnvelope rest addedPending ∨ ∃ t succID state calls, l = .schedule t ∧
      s.coordinator = .scheduling source resultEnvelope (succID :: rest) addedPending ∧
      scheduleSuccessor g opts t source succID resultEnvelope s.state = (.send item state, calls) ∧
      s'.pool = s.pool ∧ s'.ctxErr = s.ctxErr := by
  have hfinish : ∀ {s : State n} {final : Option Envelope} {k : Nat},
      (s.finishResult env final k).coordinator ≠ .sending item source resultEnvelope rest addedPending := by
    intro s final k
    simp only [State.finishResult]
    split <;> simp [State.stopWorkers]
  cases hmoves with
  | cancel | worker => exact .inl hcoord
  | ctxDone | send | wait => cases hcoord
  | receive _ _ hhandled =>
    cases hhandled with
    | missing | absent => exact absurd hcoord hfinish
    | _ => cases hcoord
  | schedule t hsched hiter =>
    cases hiter with
    | done => exact absurd hcoord hfinish
    | skip | fail => cases hcoord
    | send hsend => simp_all

open ParallelState

/-! The net effect of the coordinator's operations on its bookkeeping. -/

namespace ParallelState

theorem stateOf_setState (p : ParallelState) (nodeID : String) (state : NodeState) (id : String) :
    (p.setState nodeID state).stateOf id = if id = nodeID then state else p.stateOf id := by
  by_cases hid : id = nodeID
  · simp [setState, stateOf, hid]
  · simp [setState, stateOf, hid]

def complete (p : ParallelState) (nodeID : String) (env : Option Envelope) (errs : List NodeError) :
    ParallelState :=
  { p with
    states := Function.update p.states nodeID
      (some { hopCount := (p.stateOf nodeID).hopCount + 1, completed := true, envelope := env })
    recordedErrors := p.recordedErrors ++ errs }

def touch (p : ParallelState) (nodeID : String) : ParallelState := p.setState nodeID (p.stateOf nodeID)

def arrive (p : ParallelState) (nodeID : String) (env : Envelope) : ParallelState :=
  { p with mergeInputs := Function.update p.mergeInputs nodeID (p.mergeInputs nodeID ++ [env]) }

def fire (p : ParallelState) (nodeID : String) (env merged : Envelope) (errs : List NodeError) :
    ParallelState :=
  { states := Function.update p.states nodeID (some { envelope := some merged })
    recordedErrors := p.recordedErrors ++ errs
    mergeInputs := Function.update p.mergeInputs nodeID (p.mergeInputs nodeID ++ [env]) }

variable (p : ParallelState) (nodeID id : String) (env merged : Envelope) (errs : List NodeError)

@[simp] theorem complete_stateOf (env : Option Envelope) :
    (p.complete nodeID env errs).stateOf id = if id = nodeID then
        { hopCount := (p.stateOf nodeID).hopCount + 1, completed := true, envelope := env }
      else p.stateOf id := by
  by_cases hid : id = nodeID
  · simp [complete, stateOf, hid]
  · simp [complete, stateOf, hid]

@[simp] theorem complete_mergeInputs (env : Option Envelope) :
    (p.complete nodeID env errs).mergeInputs = p.mergeInputs := rfl

@[simp] theorem incrementHop_stateOf :
    (p.incrementHop nodeID).2.2.stateOf id =
      if id = nodeID then { p.stateOf nodeID with hopCount := (p.stateOf nodeID).hopCount + 1 }
      else p.stateOf id :=
  stateOf_setState ..

@[simp] theorem incrementHop_mergeInputs : (p.incrementHop nodeID).2.2.mergeInputs = p.mergeInputs := rfl

theorem complete_hopCount (env : Option Envelope) :
    ((p.complete nodeID env errs).stateOf id).hopCount = (p.stateOf id).hopCount + if id = nodeID then 1 else 0 := by
  by_cases hid : id = nodeID
  · simp [hid]
  · simp [hid]

theorem incrementHop_hopCount :
    ((p.incrementHop nodeID).2.2.stateOf id).hopCount = (p.stateOf id).hopCount + if id = nodeID then 1 else 0 := by
  by_cases hid : id = nodeID
  · simp [hid]
  · simp [hid]

@[simp] theorem touch_stateOf : (p.touch nodeID).stateOf id = p.stateOf id := by
  rw [touch, stateOf_setState]
  split
  · next hid => rw [hid]
  · rfl

@[simp] theorem touch_mergeInputs : (p.touch nodeID).mergeInputs = p.mergeInputs := rfl

@[simp] theorem arrive_stateOf : (p.arrive nodeID env).stateOf id = p.stateOf id := rfl

@[simp] theorem arrive_mergeInputs :
    (p.arrive nodeID env).mergeInputs id = p.mergeInputs id ++ if id = nodeID then [env] else [] := by
  by_cases hid : id = nodeID
  · simp [arrive, hid]
  · simp [arrive, hid]

@[simp] theorem fire_stateOf :
    (p.fire nodeID env merged errs).stateOf id =
      if id = nodeID then { envelope := some merged } else p.stateOf id := by
  by_cases hid : id = nodeID
  · simp [fire, stateOf, hid]
  · simp [fire, stateOf, hid]

@[simp] theorem fire_mergeInputs :
    (p.fire nodeID env merged errs).mergeInputs id = p.mergeInputs id ++ if id = nodeID then [env] else [] := by
  by_cases hid : id = nodeID
  · simp [fire, hid]
  · simp [fire, hid]

end ParallelState

inductive Resolved (g : BasicGraph) (opts : RunOptions) (result : NodeResult) (state : ParallelState) :
    Option Envelope → List NodeError → Prop where
  | ok (herr : result.err = none) : Resolved g opts result state result.envelope []
  | fallback {message : String} (herr : result.err = some message)
      (hcont : opts.continueOnError = true) :
      Resolved g opts result state (state.stateOf result.nodeID).envelope
        [{ nodeID := result.nodeID, kind := nodeKindOrUnknown (g.nodeByID result.nodeID), message,
           attempt := (state.stateOf result.nodeID).hopCount + 1, cause := message }]

variable {result : NodeResult} {state : ParallelState} {resultEnvelope : Option Envelope}

theorem Resolved.of_success {errs : List NodeError} (hresolved : Resolved g opts result state resultEnvelope errs)
    (herr : result.err = none) : resultEnvelope = result.envelope ∧ errs = [] := by
  cases hresolved with
  | ok => exact ⟨rfl, rfl⟩
  | fallback hsome =>
    rw [herr] at hsome
    cases hsome

theorem resolved_of_resolveResult {state' : ParallelState}
    (hresolve : resolveResult g opts result state = .ok (resultEnvelope, state')) :
    ∃ errs, Resolved g opts result state resultEnvelope errs ∧
      ∀ env, state'.markNodeCompleted result.nodeID env = state.complete result.nodeID env errs := by
  unfold resolveResult resolveParallelResultEnvelope at hresolve
  split at hresolve
  · next herr =>
    cases hresolve
    refine ⟨[], .ok herr, ?_⟩
    intro env
    simp [markNodeCompleted, incrementHop, setState, ParallelState.complete, stateOf]
  · next message herr =>
    split at hresolve
    · next hcont =>
      cases hresolve
      refine ⟨_, .fallback herr hcont, ?_⟩
      intro env
      simp [markNodeCompleted, incrementHop, setState, ParallelState.complete, stateOf, addRecordedError]
    · cases hresolve

/-- What the complete inputs of a merge node lead to: the envelope the node is
run with, the errors recorded and the calls made. -/
inductive Merged (opts : RunOptions) (t : Nat) (nodeID : String) (kind : NodeKind) (merge : MergeCapable)
    (inputs : List Envelope) : Envelope → List NodeError → List Call → Prop where
  | first {env : Envelope} (hnone : merge.mergeInputs = none) (hhead : inputs.head? = some env) :
      Merged opts t nodeID kind merge inputs env [] []
  | merged {merger : Nat → List Envelope → MergeOutcome} {env : Envelope}
      (hsome : merge.mergeInputs = some merger) (hok : merger t inputs = .merged env) :
      Merged opts t nodeID kind merge inputs env [] [.mergeInputs nodeID inputs (.merged env)]
  | fallback {merger : Nat → List Envelope → MergeOutcome} {message : String} {env : Envelope}
      (hsome : merge.mergeInputs = some merger) (herr : merger t inputs = .failed message)
      (hcont : opts.continueOnError = true) (hhead : inputs.head? = some env) :
      Merged opts t nodeID kind merge inputs env
        [{ nodeID, kind, message, attempt := 0, cause := message }]
        [.mergeInputs nodeID inputs (.failed message)]

inductive MergeStops (opts : RunOptions) (nodeID : String) : MergeOutcome → MergeStop → Prop where
  | failed (message : String) (hstop : opts.continueOnError = false) :
      MergeStops opts nodeID (.failed message) (.failed (.mergeFailed nodeID message))
  | panicked : MergeStops opts nodeID .panicked (.panicked nodeID)

inductive Scheduling (g : BasicGraph) (opts : RunOptions) (t : Nat) (source succID : String)
    (env : Envelope) (state : ParallelState) : Scheduled → List Call → Prop where
  | missing (hnode : g.nodeByID succID = none) :
      Scheduling g opts t source succID env state (.skip state) []
  | refused {node : Node} (hnode : g.nodeByID succID = some node) (hplain : node.mergeCapable = none)
      (hhops : opts.maxHops ≤ (state.stateOf succID).hopCount) :
      Scheduling g opts t source succID env state (.skip (state.touch succID)) [.refused succID env]
  | sent {node : Node} (hnode : g.nodeByID succID = some node) (hplain : node.mergeCapable = none)
      (hhops : (state.stateOf succID).hopCount < opts.maxHops) :
      Scheduling g opts t source succID env state
        (.send { nodeID := succID, envelope := env } (state.touch succID)) []
  | waiting {node : Node} {merge : MergeCapable} (hnode : g.nodeByID succID = some node)
      (hmerge : node.mergeCapable = some merge)
      (hshort : ((state.mergeInputs succID).length : Int) + 1 < expectedInputs g succID merge) :
      Scheduling g opts t source succID env state (.skip (state.arrive succID env))
        [.addMergeInput succID source env]
  | fired {node : Node} {merge : MergeCapable} {merged : Envelope} {errs : List NodeError}
      {calls : List Call} (hnode : g.nodeByID succID = some node)
      (hmerge : node.mergeCapable = some merge)
      (hready : expectedInputs g succID merge ≤ ((state.mergeInputs succID).length : Int) + 1)
      (hmerged : Merged opts t succID node.kind merge (state.mergeInputs succID ++ [env]) merged errs calls) :
      Scheduling g opts t source succID env state
        (.send { nodeID := succID, envelope := merged } (state.fire succID env merged errs))
        (.addMergeInput succID source env :: calls)
  | failed {node : Node} {merge : MergeCapable}
      {merger : Nat → List Envelope → MergeOutcome} {stop : MergeStop}
      (hnode : g.nodeByID succID = some node) (hmerge : node.mergeCapable = some merge)
      (hready : expectedInputs g succID merge ≤ ((state.mergeInputs succID).length : Int) + 1)
      (hsome : merge.mergeInputs = some merger)
      (hstops : MergeStops opts succID (merger t (state.mergeInputs succID ++ [env])) stop) :
      Scheduling g opts t source succID env state (.fail stop (state.arrive succID env))
        [.addMergeInput succID source env, .mergeInputs succID (state.mergeInputs succID ++ [env])
           (merger t (state.mergeInputs succID ++ [env]))]

variable {t : Nat} {source succID : String}

theorem scheduling_merge (opts : RunOptions) (t : Nat) (source : String) (env : Envelope)
    (state : ParallelState) {node : Node} {merge : MergeCapable} (hnode : g.nodeByID succID = some node)
    (hmerge : node.mergeCapable = some merge) : Scheduling g opts t source succID env state
      (scheduleMergeSuccessor g opts t source succID node.kind merge env state).1
      (scheduleMergeSuccessor g opts t source succID node.kind merge env state).2 := by
  have hhead : (state.mergeInputs succID ++ [env]).head? = some ((state.mergeInputs succID ++ [env]).headD env) := by
    cases state.mergeInputs succID <;> rfl
  unfold scheduleMergeSuccessor
  simp only [addMergeInput, List.length_append, List.length_singleton, Nat.cast_add, Nat.cast_one]
  by_cases hready : expectedInputs g succID merge ≤ ((state.mergeInputs succID).length : Int) + 1
  · simp only [hready, decide_true]
    cases hsome : merge.mergeInputs with
    | none =>
      have hfired : Scheduling g opts t source succID env state _ _ :=
        .fired hnode hmerge hready (.first hsome hhead)
      simpa [ParallelState.fire, resetNode, setState] using hfired
    | some merger =>
      dsimp only
      cases houtcome : merger t (state.mergeInputs succID ++ [env]) with
      | merged merged =>
        have hfired : Scheduling g opts t source succID env state _ _ :=
          .fired hnode hmerge hready (.merged hsome houtcome)
        simpa [ParallelState.fire, resetNode, setState] using hfired
      | panicked =>
        have hstops : MergeStops opts succID (merger t (state.mergeInputs succID ++ [env]))
            (.panicked succID) := by
          rw [houtcome]
          exact .panicked
        have hfailed : Scheduling g opts t source succID env state _ _ :=
          .failed hnode hmerge hready hsome hstops
        rwa [houtcome] at hfailed
      | failed message =>
        by_cases hcont : opts.continueOnError = true
        · have hfired : Scheduling g opts t source succID env state _ _ :=
            .fired hnode hmerge hready (.fallback hsome houtcome hcont hhead)
          simpa [hcont, ParallelState.fire, resetNode, setState, addRecordedError] using hfired
        · rw [Bool.not_eq_true] at hcont
          simp only [hcont, Bool.false_eq_true, if_false]
          have hstops : MergeStops opts succID (merger t (state.mergeInputs succID ++ [env]))
              (.failed (.mergeFailed succID message)) := by
            rw [houtcome]
            exact .failed message hcont
          have hfailed : Scheduling g opts t source succID env state _ _ :=
            .failed hnode hmerge hready hsome hstops
          rwa [houtcome] at hfailed
  · simp only [hready, decide_false]
    exact .waiting hnode hmerge (by omega)

theorem scheduling_of_eq {scheduled : Scheduled} {calls : List Call}
    (hsched : scheduleSuccessor g opts t source succID env state = (scheduled, calls)) :
    Scheduling g opts t source succID env state scheduled calls := by
  unfold scheduleSuccessor at hsched
  cases hnode : g.nodeByID succID with
  | none =>
    simp only [hnode] at hsched
    cases hsched
    exact .missing hnode
  | some node =>
    cases hmerge : node.mergeCapable with
    | some merge => grind [scheduling_merge]
    | none =>
      simp only [hnode, hmerge, canScheduleSuccessor] at hsched
      by_cases hhops : (state.stateOf succID).hopCount < opts.maxHops
      · simp only [hhops, decide_true, Envelope.clone_eq] at hsched
        cases hsched
        exact .sent hnode hmerge hhops
      · simp only [hhops, decide_false] at hsched
        cases hsched
        exact .refused hnode hmerge (by omega)

end petalflow.runtime
