import Petalflow.Runtime.Parallel.Shutdown

open petalflow.core petalflow.graph machine pool List
open channel (Chan)

namespace petalflow.runtime

/-! The executor without its channels and workers: executions are started and
finished in any order, and the coordinator handles their results in any order. -/

/-- Where the coordinator is. A successor counts as sent once it is decided. -/
inductive Phase where
  | selecting
  | scheduling (source : String) (env : Envelope) (successors : List String)
  | stopped (ret : Return)

/-- The abstract state: the coordinator's bookkeeping, the executions to be
started, being run and finished but not handled, and the history. -/
structure Ledger where
  phase : Phase
  state : ParallelState
  waiting : Multiset WorkItem
  active : Multiset WorkItem
  answered : Multiset (WorkItem × NodeResult)
  log : List Event
  calls : List Call

inductive Action where
  | start (item : WorkItem)
  | finish (item : WorkItem) (t : Nat)
  | cancel
  | receive (item : WorkItem) (result : NodeResult)
  | schedule (t : Nat)

namespace Ledger

def items (v : Ledger) : Multiset WorkItem := v.waiting + v.active + v.answered.map Prod.fst

/-- The end of handling a result: the run is over when nothing is left to do. -/
def leave (env : Envelope) (final : Option Envelope) (v : Ledger) : Ledger :=
  { v with
    phase :=
      if v.items.card = 0 then
        .stopped (.returned (some (v.state.appendRecordedErrors (final.getD env))) none)
      else .selecting }

def startEvents (g : BasicGraph) (item : WorkItem) : List Event :=
  (g.nodeByID item.nodeID).elim [] fun node => [nodeStarted node item.envelope]

def finishEvents (g : BasicGraph) (item : WorkItem) (t : Nat) : List Event :=
  (g.nodeByID item.nodeID).elim [] fun node =>
    [nodeEnded node item.envelope (node.run t item.envelope)]

def take (v : Ledger) (item : WorkItem) (result : NodeResult)
    (answered : Multiset (WorkItem × NodeResult)) : Ledger :=
  { v with answered, calls := v.calls ++ [Call.received item result] }

inductive Step (g : Graph) (opts : RunOptions) (env : Envelope) (v : Ledger) : Action → Ledger → Prop where
  | start {item : WorkItem} {waiting : Multiset WorkItem} (hitem : v.waiting = item ::ₘ waiting) :
      Step g opts env v (.start item)
        { v with
          waiting, active := item ::ₘ v.active,
          log := v.log ++ startEvents g.toBasicGraph item }
  | finish {item : WorkItem} {active : Multiset WorkItem} (t : Nat) (hitem : v.active = item ::ₘ active) :
      Step g opts env v (.finish item t)
        { v with
          active, answered := (item, runWork g.toBasicGraph item t) ::ₘ v.answered,
          log := v.log ++ finishEvents g.toBasicGraph item t }
  | cancel (cause : String) (hphase : v.phase = .selecting) :
      Step g opts env v .cancel
        { v with phase := .stopped (.returned (some env) (some (.runCanceled cause))) }
  | receiveFailed {item : WorkItem} {result : NodeResult} {answered : Multiset (WorkItem × NodeResult)}
      {message : String} (hphase : v.phase = .selecting)
      (hanswer : v.answered = (item, result) ::ₘ answered) (herr : result.err = some message)
      (hstop : opts.continueOnError = false) :
      Step g opts env v (.receive item result)
        { v.take item result answered with
          phase := .stopped (.returned (some env) (some (.nodeExecution result.nodeID message)))
          state := (v.state.incrementHop result.nodeID).2.2 }
  | receivePanicked {item : WorkItem} {result : NodeResult}
      {answered : Multiset (WorkItem × NodeResult)} {node : Node} {errs : List NodeError}
      (hphase : v.phase = .selecting) (hanswer : v.answered = (item, result) ::ₘ answered)
      (hresolved : Resolved g.toBasicGraph opts result v.state none errs)
      (hnode : g.nodeByID result.nodeID = some node) (hsuccessors : g.successors node.id ≠ []) :
      Step g opts env v (.receive item result)
        { v.take item result answered with
          phase := .stopped .panicked
          state := v.state.complete result.nodeID none errs }
  | receiveAbsent {item : WorkItem} {result : NodeResult} {answered : Multiset (WorkItem × NodeResult)}
      {node : Node} {errs : List NodeError} (hphase : v.phase = .selecting)
      (hanswer : v.answered = (item, result) ::ₘ answered)
      (hresolved : Resolved g.toBasicGraph opts result v.state none errs)
      (hnode : g.nodeByID result.nodeID = some node) (hsuccessors : g.successors node.id = []) :
      Step g opts env v (.receive item result)
        ({ v.take item result answered with
          state := v.state.complete result.nodeID none errs }.leave env none)
  | receiveRouted {item : WorkItem} {result : NodeResult} {answered : Multiset (WorkItem × NodeResult)}
      {node : Node} {errs : List NodeError} {resultEnvelope env' : Envelope} {succ : Successors}
      (hphase : v.phase = .selecting) (hanswer : v.answered = (item, result) ::ₘ answered)
      (hresolved : Resolved g.toBasicGraph opts result v.state (some resultEnvelope) errs)
      (hnode : g.nodeByID result.nodeID = some node)
      (hsucc : determineSuccessors g.toBasicGraph node (some resultEnvelope) = some succ)
      (henv : succ.envelope = some env') :
      Step g opts env v (.receive item result)
        { v.take item result answered with
          phase := .scheduling result.nodeID env' succ.targets
          state := v.state.complete result.nodeID (some env') errs
          log := v.log ++ succ.events
          calls := v.calls ++ [Call.received item result, .routed result.nodeID env' succ.targets] }
  | done {source : String} {resultEnvelope : Envelope} (t : Nat)
      (hphase : v.phase = .scheduling source resultEnvelope []) :
      Step g opts env v (.schedule t) (v.leave env (some resultEnvelope))
  | refused {source succID : String} {resultEnvelope : Envelope} {rest : List String} {node : Node} (t : Nat)
      (hphase : v.phase = .scheduling source resultEnvelope (succID :: rest))
      (hnode : g.nodeByID succID = some node) (hplain : node.mergeCapable = none)
      (hhops : opts.maxHops ≤ (v.state.stateOf succID).hopCount) :
      Step g opts env v (.schedule t)
        { v with
          phase := .scheduling source resultEnvelope rest
          state := v.state.touch succID
          calls := v.calls ++ [.refused succID resultEnvelope] }
  | sent {source succID : String} {resultEnvelope : Envelope} {rest : List String} {node : Node} (t : Nat)
      (hphase : v.phase = .scheduling source resultEnvelope (succID :: rest))
      (hnode : g.nodeByID succID = some node) (hplain : node.mergeCapable = none)
      (hhops : (v.state.stateOf succID).hopCount < opts.maxHops) :
      Step g opts env v (.schedule t)
        { v with
          phase := .scheduling source resultEnvelope rest
          state := v.state.touch succID
          waiting := { nodeID := succID, envelope := resultEnvelope } ::ₘ v.waiting
          calls := v.calls ++ [.sent { nodeID := succID, envelope := resultEnvelope }] }
  | arrived {source succID : String} {resultEnvelope : Envelope} {rest : List String} {node : Node}
      {merge : MergeCapable} (t : Nat)
      (hphase : v.phase = .scheduling source resultEnvelope (succID :: rest))
      (hnode : g.nodeByID succID = some node) (hmerge : node.mergeCapable = some merge)
      (hshort : ((v.state.mergeInputs succID).length : Int) + 1 <
        expectedInputs g.toBasicGraph succID merge) :
      Step g opts env v (.schedule t)
        { v with
          phase := .scheduling source resultEnvelope rest
          state := v.state.arrive succID resultEnvelope
          calls := v.calls ++ [.addMergeInput succID source resultEnvelope] }
  | fired {source succID : String} {resultEnvelope merged : Envelope} {rest : List String} {node : Node}
      {merge : MergeCapable} {errs : List NodeError} {calls : List Call} (t : Nat)
      (hphase : v.phase = .scheduling source resultEnvelope (succID :: rest))
      (hnode : g.nodeByID succID = some node) (hmerge : node.mergeCapable = some merge)
      (hready : expectedInputs g.toBasicGraph succID merge ≤
        ((v.state.mergeInputs succID).length : Int) + 1)
      (hmerged : Merged opts t succID node.kind merge
        (v.state.mergeInputs succID ++ [resultEnvelope]) merged errs calls) :
      Step g opts env v (.schedule t)
        { v with
          phase := .scheduling source resultEnvelope rest
          state := v.state.fire succID resultEnvelope merged errs
          waiting := { nodeID := succID, envelope := merged } ::ₘ v.waiting
          calls := v.calls ++ (.addMergeInput succID source resultEnvelope :: calls ++
            [.sent { nodeID := succID, envelope := merged }]) }
  | mergeFailed {source succID : String} {resultEnvelope : Envelope} {rest : List String} {node : Node}
      {merge : MergeCapable} {merger : Nat → List Envelope → MergeOutcome} {stop : MergeStop}
      (t : Nat) (hphase : v.phase = .scheduling source resultEnvelope (succID :: rest))
      (hnode : g.nodeByID succID = some node) (hmerge : node.mergeCapable = some merge)
      (hready : expectedInputs g.toBasicGraph succID merge ≤
        ((v.state.mergeInputs succID).length : Int) + 1)
      (hsome : merge.mergeInputs = some merger)
      (hstops : MergeStops opts succID (merger t (v.state.mergeInputs succID ++ [resultEnvelope])) stop) :
      Step g opts env v (.schedule t)
        { v with
          phase := .stopped (stop.ret env)
          state := v.state.arrive succID resultEnvelope
          calls := v.calls ++ [.addMergeInput succID source resultEnvelope,
            .mergeInputs succID (v.state.mergeInputs succID ++ [resultEnvelope])
              (merger t (v.state.mergeInputs succID ++ [resultEnvelope]))] }

def init (g : Graph) (env : Envelope) : Ledger :=
  { phase := .selecting
    state := .newParallelState g.entry env
    waiting := {{ nodeID := g.entry, envelope := env }}
    active := 0
    answered := 0
    log := []
    calls := [.sent { nodeID := g.entry, envelope := env }] }

end Ledger

def ledger (g : Graph) (opts : RunOptions) (env : Envelope) : LTS Ledger Action :=
  { init := Ledger.init g env, step := Ledger.Step g opts env }

open Coordinator State

namespace Ledger

/-- Only nodes of the graph are executed, answers are results of executions, and
only successors of the handled node are scheduled. -/
structure Known (g : Graph) (v : Ledger) : Prop where
  items : ∀ item ∈ v.items, item.nodeID ∈ g.nodeOrder
  answers : ∀ r ∈ v.answered, ∃ t, r.2 = runWork g.toBasicGraph r.1 t
  successors : ∀ source env successors, v.phase = .scheduling source env successors →
    successors.Sublist (g.successors source)

variable {g : Graph} {opts : RunOptions} {env : Envelope} {v v' : Ledger}

@[simp] theorem leave_items (final : Option Envelope) : (v.leave env final).items = v.items := rfl

variable {resultEnvelope : Envelope} {source : String}

theorem leave_phase_ne {final : Option Envelope}
    {successors : List String} : (v.leave env final).phase ≠ .scheduling source resultEnvelope successors := by
  unfold leave
  dsimp only
  split <;> simp

variable {item : WorkItem} {log : List Event}

theorem items_start {waiting : Multiset WorkItem} (hitem : v.waiting = item ::ₘ waiting) :
    { v with waiting, active := item ::ₘ v.active, log }.items = v.items := by
  simp [items, hitem]

variable {result : NodeResult}

theorem items_finish {active : Multiset WorkItem} (hitem : v.active = item ::ₘ active) :
    { v with active, answered := (item, result) ::ₘ v.answered, log }.items = v.items := by
  simp_all [items]

theorem items_sent {phase : Phase} {state : ParallelState} {calls : List Call} :
    { v with phase, state, waiting := item ::ₘ v.waiting, calls }.items = item ::ₘ v.items := by
  simp [items]

variable {answered : Multiset (WorkItem × NodeResult)}

theorem items_take (hanswer : v.answered = (item, result) ::ₘ answered) :
    v.items = item ::ₘ (v.take item result answered).items := by
  simp [items, take, hanswer]

theorem runWork_nodeID (g : BasicGraph) (item : WorkItem) (t : Nat) : (runWork g item t).nodeID = item.nodeID := by
  unfold runWork
  split
  · rfl
  · split <;> rfl

theorem Known.take (hv : Known g v) (hanswer : v.answered = (item, result) ::ₘ answered) :
    (∀ item' ∈ (v.take item result answered).items, item'.nodeID ∈ g.nodeOrder) ∧
      (∀ r ∈ answered, ∃ t, r.2 = runWork g r.1 t) ∧
      item.nodeID ∈ g.nodeOrder ∧ result.nodeID = item.nodeID := by
  have hitems := hv.items
  have hanswers := hv.answers
  rw [items_take hanswer] at hitems
  rw [hanswer] at hanswers
  obtain ⟨t, ht⟩ := hanswers _ (Multiset.mem_cons_self _ _)
  refine ⟨fun item' hitem' => hitems item' (Multiset.mem_cons_of_mem hitem'),
    fun r hr => hanswers r (Multiset.mem_cons_of_mem hr), hitems item (Multiset.mem_cons_self _ _), ?_⟩
  grind [runWork_nodeID]

theorem Known.scheduled {succID : String} {rest : List String}
    (hv : Known g v) (hphase : v.phase = .scheduling source resultEnvelope (succID :: rest)) :
    succID ∈ g.nodeOrder ∧ rest.Sublist (g.successors source) := by
  have hsub := hv.successors _ _ _ hphase
  have hedge : g.Edge source succID := hsub.subset mem_cons_self
  exact ⟨hedge.mem_nodeOrder.2, (sublist_cons_self succID rest).trans hsub⟩

theorem Step.known {a : Action} (hstep : Step g opts env v a v') (hv : Known g v) : Known g v' := by
  cases hstep with
  | start hitem => exact ⟨items_start hitem ▸ hv.items, hv.answers, hv.successors⟩
  | finish t hitem =>
    refine ⟨items_finish hitem ▸ hv.items, ?_, hv.successors⟩
    intro r hr
    rcases Multiset.mem_cons.mp hr with rfl | hr
    · exact ⟨t, rfl⟩
    · exact hv.answers r hr
  | cancel | mergeFailed => exact ⟨hv.items, hv.answers, by simp⟩
  | receiveFailed _ hanswer | receivePanicked _ hanswer =>
    obtain ⟨hitems, hanswers, _⟩ := hv.take hanswer
    exact ⟨hitems, hanswers, by simp⟩
  | receiveAbsent _ hanswer =>
    obtain ⟨hitems, hanswers, _⟩ := hv.take hanswer
    exact ⟨hitems, hanswers, fun _ _ _ hphase => absurd hphase leave_phase_ne⟩
  | receiveRouted _ hanswer _ hnode hsucc =>
    obtain ⟨hitems, hanswers, _⟩ := hv.take hanswer
    refine ⟨hitems, hanswers, ?_⟩
    intro source env' successors hphase
    cases hphase
    have hsub := determineSuccessors_sublist hsucc
    rwa [g.wellFormed.node_id _ _ hnode] at hsub
  | done => exact ⟨hv.items, hv.answers, fun _ _ _ hphase => absurd hphase leave_phase_ne⟩
  | refused t hphase | arrived t hphase =>
    refine ⟨hv.items, hv.answers, ?_⟩
    intro source env' successors hphase'
    cases hphase'
    exact (hv.scheduled hphase).2
  | sent t hphase | fired t hphase =>
    obtain ⟨hsucc, hsub⟩ := hv.scheduled hphase
    refine ⟨?_, hv.answers, ?_⟩
    · intro item hitem
      rw [items_sent] at hitem
      rcases Multiset.mem_cons.mp hitem with rfl | hitem
      · exact hsucc
      · exact hv.items item hitem
    simp_all

theorem known_of_reachable (hreach : (ledger g opts env).Reachable v) : Known g v := by
  refine hreach.invariant (fun _ _ _ hv hstep => Step.known hstep hv) ⟨?_, ?_, ?_⟩
  · intro item hitem
    have hentry : item = { nodeID := g.entry, envelope := env } := by simpa [ledger, Ledger.init, items] using hitem
    rw [hentry]
    exact g.entry_mem
  · simp [ledger, Ledger.init]
  · simp [ledger, Ledger.init]

theorem invariant_of_known {Q : Ledger → Action → Prop} {I : Ledger → Prop}
    (hreach : (ledger g opts env).ReachableUnder Q v)
    (hkeep : ∀ v a v', Known g v → I v → Q v a → Step g opts env v a v' → I v')
    (hinit : I (Ledger.init g env)) : I v := by
  have hboth : Known g v ∧ I v := by
    refine hreach.invariant (I := fun v => Known g v ∧ I v) ?_
      ⟨known_of_reachable (LTS.ReachableUnder.init (a := ledger g opts env) _), hinit⟩
    rintro v a v' ⟨hknown, hv⟩ hallow hstep
    exact ⟨Step.known hstep hknown, hkeep v a v' hknown hv hallow hstep⟩
  exact hboth.2

end Ledger

def Coordinator.phase : Coordinator → Phase
  | selecting => .selecting
  | scheduling source env successors _ | sending _ source env successors _ =>
    .scheduling source env successors
  | stopping ret | returned ret => .stopped ret

def Coordinator.held : Coordinator → List WorkItem
  | sending item _ _ _ _ => [item]
  | _ => []

namespace State

variable {n : Nat}

def ledger (s : State n) : Ledger :=
  { phase := s.coordinator.phase
    state := s.state
    waiting := s.coordinator.held + s.pool.waiting
    active := s.pool.active
    answered := s.pool.answered
    log := s.log
    calls := s.calls ++ s.coordinator.held.map .sent }

theorem ledger_calls_of_returned {s : State n} {ret : Return} (hcoord : s.coordinator = .returned ret) :
    s.ledger.calls = s.calls := by
  simp [ledger, hcoord, Coordinator.held]

def action (s : State n) : Label n → Option Action
  | .ctxDone => some .cancel
  | .receive => s.pool.answers.buffer.head?.map fun r => .receive r.1 r.2
  | .schedule t => some (.schedule t)
  | .worker w .start =>
    match s.pool.workers w with
    | .received item => some (.start item)
    | _ => none
  | .worker w (.finish t) =>
    match s.pool.workers w with
    | .running item => some (.finish item t)
    | _ => none
  | _ => none

end State

variable {n : Nat} {g : Graph} {opts : RunOptions} {env : Envelope} {s s' : State n}

theorem stopWorkers_ledger (ret : Return) (hheld : s.coordinator.held = []) :
    (s.stopWorkers ret).ledger = { s.ledger with phase := .stopped ret } := by
  simp only [State.ledger, stopWorkers, hheld]
  rfl

variable {addedPending : Nat}

theorem finishResult_ledger (resultEnvelope : Option Envelope) (hheld : s.coordinator.held = [])
    (hpending : s.pendingCount + addedPending = s.pool.inFlight.card) :
    (s.finishResult env resultEnvelope addedPending).ledger = s.ledger.leave env resultEnvelope := by
  have hitems : s.ledger.items.card = s.pendingCount + addedPending := by
    rw [hpending]
    simp [Ledger.items, State.ledger, hheld, Pool.inFlight]
  unfold finishResult Ledger.leave
  rw [hitems]
  dsimp only
  split
  · simp only [State.ledger, stopWorkers, hheld]
    rfl
  · simp only [State.ledger, hheld]
    rfl

variable {pool : Pool WorkItem NodeResult n (n * 2)}

theorem Handled.ledger_step {item : WorkItem} {result : NodeResult} (hs : Accounted s)
    (hcoord : s.coordinator = .selecting) (hcollect : s.pool.collect = some ((item, result), pool))
    (hnode : (g.nodeByID result.nodeID).isSome)
    (hhandled : Handled g opts env result
      { s with pendingCount := s.pendingCount - 1, pool, calls := s.calls ++ [Call.received item result] } s') :
    Ledger.Step g opts env s.ledger (.receive item result) s'.ledger := by
  obtain ⟨hwait, hact, hans⟩ := Pool.collect_stages hcollect
  have hcard := card_inFlight_collect hcollect
  have hpending := hs.pending (by rw [hcoord]; rfl)
  rw [hcoord] at hpending
  simp only [addedPending, Nat.add_zero] at hpending
  have hphase : s.ledger.phase = .selecting := by simp [State.ledger, hcoord, phase]
  have hanswer : s.ledger.answered = (item, result) ::ₘ pool.answered := hans
  have htake : ∀ (pendingCount : Nat), { s with
      pendingCount, pool, calls := s.calls ++ [Call.received item result] }.ledger =
        s.ledger.take item result pool.answered := by
    intro pendingCount
    simp [State.ledger, Ledger.take, hcoord, Coordinator.held, hwait, hact]
  cases hhandled with
  | failed herr hstop =>
    have hstep : Ledger.Step g opts env s.ledger (.receive item result) _ :=
      .receiveFailed hphase hanswer herr hstop
    rw [stopWorkers_ledger _ (by rw [hcoord]; rfl)]
    rw [← htake (s.pendingCount - 1)] at hstep
    exact hstep
  | missing _ hnone => simp [hnone] at hnode
  | panicked hresolve hfound hsuccessors =>
    obtain ⟨errs, hresolved, hstate⟩ := resolved_of_resolveResult hresolve
    have hstep : Ledger.Step g opts env s.ledger (.receive item result) _ :=
      .receivePanicked hphase hanswer hresolved hfound hsuccessors
    rw [stopWorkers_ledger _ (by rw [hcoord]; rfl), hstate]
    rw [← htake (s.pendingCount - 1)] at hstep
    exact hstep
  | absent hresolve hfound hsuccessors =>
    obtain ⟨errs, hresolved, hstate⟩ := resolved_of_resolveResult hresolve
    have hstep : Ledger.Step g opts env s.ledger (.receive item result) _ :=
      .receiveAbsent hphase hanswer hresolved hfound hsuccessors
    rw [finishResult_ledger _ (by rw [hcoord]; rfl) (by dsimp only; omega), hstate]
    rw [← htake (s.pendingCount - 1)] at hstep
    exact hstep
  | routed hresolve hfound hsucc henv =>
    obtain ⟨errs, hresolved, hstate⟩ := resolved_of_resolveResult hresolve
    have hstep : Ledger.Step g opts env s.ledger (.receive item result) _ :=
      .receiveRouted hphase hanswer hresolved hfound hsucc henv
    rw [← htake (s.pendingCount - 1)] at hstep
    simpa [State.ledger, hcoord, Coordinator.held, phase, hstate] using hstep

theorem Iterated.ledger_step {t : Nat} {source : String} {resultEnvelope : Envelope} {successors : List String}
    (hs : Accounted s) (hcoord : s.coordinator = .scheduling source resultEnvelope successors addedPending)
    (hknown : ∀ id ∈ successors, (g.nodeByID id).isSome)
    (hiter : Iterated g opts env t source resultEnvelope addedPending s successors s') :
    Ledger.Step g opts env s.ledger (.schedule t) s'.ledger := by
  have hpending := hs.pending (by rw [hcoord]; rfl)
  have hphase : s.ledger.phase = .scheduling source resultEnvelope successors := by simp [State.ledger, hcoord, phase]
  rw [hcoord] at hpending
  replace hpending : s.pendingCount + addedPending = s.pool.inFlight.card := hpending
  cases hiter with
  | done =>
    rw [finishResult_ledger _ (by rw [hcoord]; rfl) hpending]
    exact .done t hphase
  | @skip succID rest state calls hsched =>
    cases scheduling_of_eq hsched with
    | missing hnone =>
      have hsome := hknown succID mem_cons_self
      simp [hnone] at hsome
    | refused hnode hplain hhops =>
      have hstep : Ledger.Step g opts env s.ledger (.schedule t) _ := .refused t hphase hnode hplain hhops
      simpa [State.ledger, hcoord, Coordinator.held, phase] using hstep
    | waiting hnode hmerge hshort =>
      have hstep : Ledger.Step g opts env s.ledger (.schedule t) _ := .arrived t hphase hnode hmerge hshort
      simpa [State.ledger, hcoord, Coordinator.held, phase] using hstep
  | @send succID rest item state calls hsched =>
    cases scheduling_of_eq hsched with
    | sent hnode hplain hhops =>
      have hstep : Ledger.Step g opts env s.ledger (.schedule t) _ := .sent t hphase hnode hplain hhops
      simpa [State.ledger, hcoord, Coordinator.held, phase] using hstep
    | fired hnode hmerge hready hmerged =>
      have hstep : Ledger.Step g opts env s.ledger (.schedule t) _ :=
        .fired t hphase hnode hmerge hready hmerged
      simpa [State.ledger, hcoord, Coordinator.held, phase] using hstep
  | @fail succID rest stop state calls hsched =>
    cases scheduling_of_eq hsched with
    | failed hnode hmerge hready hsome hstops =>
      have hstep : Ledger.Step g opts env s.ledger (.schedule t) _ :=
        .mergeFailed t hphase hnode hmerge hready hsome hstops
      grind [stopWorkers_ledger, State.ledger, Coordinator.held]

theorem worker_ledger_step {w : Fin n} {a : Act} (hact : Pool.Moves (runWork g) s.pool w a pool)
    (hs' : s' = { s with pool, log := s.log ++ workerEvents g a (s.pool.workers w) }) :
    (petalflow.runtime.ledger g opts env).Seen (s.action (.worker w a)) s.ledger s'.ledger := by
  subst hs'
  obtain ⟨hwait, hactive, hans, hstart, hfinish⟩ | ⟨item, rfl, hw, hwait, hactive, hans⟩ |
    ⟨item, t, rfl, hw, hwait, hactive, hans⟩ := hact.stages
  · simp_all [action, State.ledger, workerEvents, LTS.Seen]
  · have hitem : s.ledger.waiting = item ::ₘ (s.coordinator.held + pool.waiting) := by simp [State.ledger, hwait]
    have hstep : Ledger.Step g opts env s.ledger (.start item) _ := .start hitem
    simp only [action, hw]
    change Ledger.Step g opts env _ _ _
    simpa [State.ledger, hw, workerEvents, Ledger.startEvents, hactive, hans] using hstep
  · have hitem : s.ledger.active = item ::ₘ pool.active := hactive
    have hstep : Ledger.Step g opts env s.ledger (.finish item t) _ := .finish t hitem
    simp only [action, hw]
    change Ledger.Step g opts env _ _ _
    simpa [State.ledger, hw, workerEvents, Ledger.finishEvents, hwait, hans] using hstep

theorem executeGraphParallel_refines (g : Graph) (opts : RunOptions) (env : Envelope) (hconc : 0 < opts.concurrency) :
    Refines (executeGraphParallel g opts env) (ledger g opts env) State.ledger action
      Accounted where
  init := by
    obtain ⟨pool, hsubmit, ⟨hwait, hact, hans⟩, _⟩ :=
      submit_fresh hconc { nodeID := g.entry, envelope := env }
    simp [executeGraphParallel, State.init, State.ledger, hsubmit, hwait, hact, hans, ledger, Ledger.init,
      Coordinator.held, phase]
  invariant_init := accounted_init hconc
  invariant_step := fun _ _ _ hs hstep => (moves_of_step hstep).accounted hs
  step := by
    intro s l s' hs hview hstep
    have hknown := Ledger.known_of_reachable hview
    cases moves_of_step hstep with
    | cancel cause hctx => rfl
    | ctxDone hcoord hctx =>
      simp only [action]
      rw [stopWorkers_ledger _ (by rw [hcoord]; rfl)]
      exact .cancel _ (by simp [State.ledger, hcoord, phase])
    | @receive item result pool _ hcoord hcollect hhandled =>
      have hans := (Pool.collect_stages hcollect).2.2
      obtain ⟨_, _, hitem, hid⟩ := hknown.take hans
      have hhead : s.pool.answers.buffer.head? = some (item, result) := by
        obtain ⟨answers, hrecv, _⟩ := Pool.collect_eq_some_iff.mp hcollect
        rw [Chan.receive_eq_some_iff.mp hrecv]
        rfl
      simp only [action, hhead, Option.map_some]
      apply hhandled.ledger_step hs hcoord hcollect
      rw [hid]
      exact (g.wellFormed.mem_nodeOrder _).mp hitem
    | schedule t hcoord hiter =>
      apply hiter.ledger_step hs hcoord
      intro id hid
      have hphase : s.ledger.phase = _ := congrArg phase hcoord
      have hedge : g.Edge _ id := (hknown.successors _ _ _ hphase).subset hid
      exact (g.wellFormed.mem_nodeOrder id).mp hedge.mem_nodeOrder.2
    | send hcoord hsubmit =>
      obtain ⟨hwait, hact, hans⟩ := Pool.submit_stages hsubmit
      simp [action, State.ledger, hcoord, Coordinator.held, phase, hwait, hact, hans, LTS.Seen]
    | wait hcoord hexited => simp [action, State.ledger, hcoord, phase, Coordinator.held, LTS.Seen]
    | worker hact => exact worker_ledger_step hact rfl

theorem ledger_reachable {s : State opts.concurrency} (hconc : 0 < opts.concurrency)
    (hreach : (executeGraphParallel g opts env).Reachable s) : (ledger g opts env).Reachable s.ledger :=
  (executeGraphParallel_refines g opts env hconc).reachable hreach

end petalflow.runtime
