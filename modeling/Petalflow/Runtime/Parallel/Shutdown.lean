import Petalflow.Runtime.Parallel.Bookkeeping

open petalflow.core petalflow.graph machine pool
open channel (Chan)

namespace petalflow.runtime

section

open Coordinator Pool

def Coordinator.running : Coordinator → Bool
  | selecting | scheduling .. | sending .. => true
  | stopping _ | returned _ => false

def Coordinator.addedPending : Coordinator → Nat
  | scheduling _ _ _ addedPending | sending _ _ _ _ addedPending => addedPending
  | selecting | stopping _ | returned _ => 0

/-- The coordinator's count of outstanding results is right, its loop is left
when nothing is outstanding, and the channels and contexts are open as long as
they should be. -/
structure Accounted {n : Nat} (s : State n) : Prop where
  pending : s.coordinator.running = true → s.pendingCount + s.coordinator.addedPending = s.pool.inFlight.card
  positive : s.coordinator = .selecting → 0 < s.pendingCount
  closed : s.pool.closed = !s.coordinator.running
  done : s.pool.done = (s.ctxErr.isSome || !s.coordinator.running)
  alive : s.pool.done = false → ∀ w, s.pool.workers w ≠ .exited

section

variable {n : Nat} {g : BasicGraph} {opts : RunOptions} {env : Envelope} {s s' : State n}

theorem accounted_stopWorkers (ret : Return) (s : State n) : Accounted (s.stopWorkers ret) where
  pending := by simp [State.stopWorkers, Coordinator.running]
  positive := by simp [State.stopWorkers]
  closed := rfl
  done := by simp [State.stopWorkers, Coordinator.running, shutDown]
  alive := by simp [State.stopWorkers, shutDown]

theorem accounted_finishResult (env : Envelope) (resultEnvelope : Option Envelope) {addedPending : Nat}
    (hpending : s.pendingCount + addedPending = s.pool.inFlight.card) (hclosed : s.pool.closed = false)
    (hdone : s.pool.done = s.ctxErr.isSome) (halive : s.pool.done = false → ∀ w, s.pool.workers w ≠ .exited) :
    Accounted (s.finishResult env resultEnvelope addedPending) := by
  unfold State.finishResult
  dsimp only
  split
  · exact accounted_stopWorkers _ _
  · next hpos =>
    exact ⟨fun _ => hpending, fun _ => Nat.pos_of_ne_zero hpos, hclosed, by simpa [running] using hdone, halive⟩

variable {p p' : Pool WorkItem NodeResult n (n * 2)}

theorem card_inFlight_collect {r : WorkItem × NodeResult} (hcollect : p.collect = some (r, p')) :
    p.inFlight.card = p'.inFlight.card + 1 := by
  obtain ⟨hwait, hact, hans⟩ := collect_stages hcollect
  simp_all [Pool.inFlight]

theorem card_inFlight_submit {item : WorkItem} (hsubmit : p.submit item = some p') :
    p'.inFlight.card = p.inFlight.card + 1 := by
  obtain ⟨hwait, hact, hans⟩ := submit_stages hsubmit
  simp_all [Pool.inFlight]

theorem alive_of_moves {w : Fin n} {a : Act} (hmoves : Pool.Moves (runWork g) p w a p')
    (hclosed : p.done = false → p.closed = false) (halive : p.done = false → ∀ w, p.workers w ≠ .exited)
    (hdone : p'.done = false) : ∀ w, p'.workers w ≠ .exited := by
  rw [hmoves.flags.1] at hdone
  have hkeep : ∀ (after : Worker WorkItem NodeResult), after ≠ .exited →
      ∀ v, Function.update p.workers w after v ≠ .exited := by
    intro after hafter v
    by_cases hv : v = w
    · simp_all
    · simp_all
  cases hmoves with
  | take | start | finish | deliver => exact hkeep _ (by simp)
  | exit hw hstop => simp [hdone, hclosed hdone] at hstop

theorem Handled.accounted {result : NodeResult} (hhandled : Handled g opts env result s s')
    (hpending : s.pendingCount = s.pool.inFlight.card) (hclosed : s.pool.closed = false)
    (hdone : s.pool.done = s.ctxErr.isSome) (halive : s.pool.done = false → ∀ w, s.pool.workers w ≠ .exited) :
    Accounted s' := by
  cases hhandled with
  | failed | panicked => exact accounted_stopWorkers _ _
  | missing | absent => exact accounted_finishResult env _ hpending hclosed hdone halive
  | routed => exact ⟨fun _ => hpending, by simp, hclosed, by simpa [running] using hdone, halive⟩

theorem Moves.accounted {l : Label n} (hmoves : Moves g opts env s l s') (hs : Accounted s) : Accounted s' := by
  cases hmoves with
  | cancel cause hctx => exact { hs with done := by simp, alive := by simp }
  | ctxDone => exact accounted_stopWorkers _ _
  | receive hcoord hcollect hhandled =>
    have hrunning : s.coordinator.running = true := by rw [hcoord]; rfl
    have hpending := hs.pending hrunning
    have hclosed := hs.closed
    have hdone := hs.done
    have hcard := card_inFlight_collect hcollect
    obtain ⟨answers, _, rfl⟩ := collect_eq_some_iff.mp hcollect
    rw [hrunning] at hclosed hdone
    rw [hcoord] at hpending
    simp only [addedPending] at hpending
    exact hhandled.accounted (by dsimp only at hcard ⊢; omega) hclosed (by simpa using hdone) hs.alive
  | schedule t hcoord hiter =>
    have hrunning : s.coordinator.running = true := by rw [hcoord]; rfl
    have hpending := hs.pending hrunning
    have hclosed := hs.closed
    have hdone := hs.done
    rw [hrunning] at hclosed hdone
    rw [hcoord] at hpending
    cases hiter with
    | done => exact accounted_finishResult env _ hpending hclosed (by simpa using hdone) hs.alive
    | skip | send => exact ⟨fun _ => hpending, by simp, hclosed, hdone, hs.alive⟩
    | fail => exact accounted_stopWorkers _ _
  | send hcoord hsubmit =>
    have hrunning : s.coordinator.running = true := by rw [hcoord]; rfl
    have hpending := hs.pending hrunning
    have hclosed := hs.closed
    have hdone := hs.done
    have hcard := card_inFlight_submit hsubmit
    obtain ⟨jobs, _, rfl⟩ := submit_eq_some_iff.mp hsubmit
    rw [hrunning] at hclosed hdone
    rw [hcoord] at hpending
    refine ⟨fun _ => ?_, by simp, hclosed, hdone, hs.alive⟩
    simp only [addedPending] at hpending hcard ⊢
    omega
  | wait hcoord =>
    have hclosed := hs.closed
    have hdone := hs.done
    rw [hcoord] at hclosed hdone
    exact ⟨by simp [running], by simp, hclosed, hdone, hs.alive⟩
  | worker hact =>
    obtain ⟨hdone, hclosed⟩ := hact.flags
    refine ⟨?_, hs.positive, hclosed.trans hs.closed, hdone.trans hs.done, ?_⟩
    · rw [hact.inFlight]
      exact hs.pending
    · apply alive_of_moves hact _ hs.alive
      intro hlive
      have hflag := hs.done
      rw [hlive] at hflag
      have hrunning : s.coordinator.running = true := by simpa using (Bool.or_eq_false_iff.mp hflag.symm).2
      rw [hs.closed, hrunning]
      rfl

theorem submit_fresh (hn : 0 < n) (item : WorkItem) :
    ∃ pool, (Pool.fresh : Pool WorkItem NodeResult n (n * 2)).submit item = some pool ∧
      (pool.waiting = {item} ∧ pool.active = 0 ∧ pool.answered = 0) ∧
      pool.done = false ∧ pool.closed = false ∧ pool.workers = fun _ => .idle := by
  have hroom : (Pool.fresh : Pool WorkItem NodeResult n (n * 2)).jobs.buffer.length < n * 2 := by
    simp only [Pool.fresh, Chan.empty, List.length_nil]
    omega
  obtain ⟨pool, hsubmit⟩ :
      ∃ pool, (Pool.fresh : Pool WorkItem NodeResult n (n * 2)).submit item = some pool :=
    exists_submit_iff.mpr hroom
  obtain ⟨hwait, hact, hans⟩ := submit_stages hsubmit
  refine ⟨pool, hsubmit, ⟨?_, ?_, ?_⟩, ?_⟩
  · simp [hwait]
  · simp [hact]
  · simp [hans]
  · obtain ⟨jobs, _, rfl⟩ := submit_eq_some_iff.mp hsubmit
    exact ⟨rfl, rfl, rfl⟩

theorem accounted_init (hn : 0 < n) : Accounted (State.init (n := n) g env) := by
  obtain ⟨pool, hsubmit, ⟨hwait, hact, hans⟩, hdone, hclosed, hworkers⟩ :=
    submit_fresh hn { nodeID := g.entry, envelope := env }
  have hpool : (State.init (n := n) g env).pool = pool := by simp [State.init, hsubmit]
  refine ⟨?_, ?_, ?_, ?_, ?_⟩
  · rw [hpool]
    simp [State.init, addedPending, Pool.inFlight, hwait, hact, hans]
  · simp [State.init]
  · rw [hpool, hclosed]
    rfl
  · rw [hpool, hdone]
    rfl
  · rw [hpool, hworkers]
    simp

theorem accounted_of_reachable {s : State opts.concurrency} (hconc : 0 < opts.concurrency)
    (hreach : (executeGraphParallel g opts env).Reachable s) : Accounted s :=
  hreach.invariant (fun _ _ _ hs hstep => (moves_of_step hstep).accounted hs) (accounted_init hconc)

/-- Neither the coordinator nor a worker can make a step. A worker that runs a
node can, since every `Run` returns. -/
def Stuck {n : Nat} (g : BasicGraph) (opts : RunOptions) (env : Envelope) (s : State n) : Prop :=
  ∀ l, (∀ cause, l ≠ .cancel cause) → State.step g opts env l s = none

def schedulable (g : BasicGraph) (opts : RunOptions) (state : ParallelState) (succID : String) : Bool :=
  match g.nodeByID succID with
  | none => false
  | some node =>
    match node.mergeCapable with
    | some merge => decide (expectedInputs g succID merge ≤ (state.mergeInputs succID).length + 1)
    | none => decide ((state.stateOf succID).hopCount < opts.maxHops)

namespace State

/-- There is room for one more item: in the two channels and the workers
together, or in the work channel alone once the workers may leave. -/
def hasRoom (s : State n) : Bool :=
  if s.ctxErr.isNone then decide (s.pool.inFlight.card < n * 2 + n + n * 2)
  else decide (s.pool.jobs.buffer.length < n * 2)

/-- Whether a step makes the coordinator stop the workers with more results
outstanding than the result channel can take. -/
def stopsCrowded (g : BasicGraph) (opts : RunOptions) (env : Envelope) (s : State n) (l : Label n) :
    Bool :=
  (State.step g opts env l s).any fun s' =>
    s.coordinator.running && !s'.coordinator.running && decide (n * 2 < s'.pool.inFlight.card)

/-- The condition on a step: a successor is only sent while there is room, also
when the context is cancelled at that moment, and the workers are only stopped
when the outstanding results fit into the result channel. -/
def fits (g : BasicGraph) (opts : RunOptions) (env : Envelope) (s : State n) (l : Label n) : Bool :=
  (match l, s.coordinator with
    | .schedule _, .scheduling _ _ (succID :: _) _ => !schedulable g opts s.state succID || s.hasRoom
    | .cancel _, .sending .. => decide (s.pool.jobs.buffer.length < n * 2)
    | _, _ => true) && !s.stopsCrowded g opts env l

structure Roomy (s : State n) : Prop where
  accounted : Accounted s
  sending : ∀ item source resultEnvelope successors addedPending,
    s.coordinator = .sending item source resultEnvelope successors addedPending → s.hasRoom = true
  stopped : s.coordinator.running = false → s.pool.inFlight.card ≤ n * 2

end State

theorem schedulable_of_send {t : Nat} {source succID : String} {resultEnvelope : Envelope}
    {state state' : ParallelState} {item : WorkItem} {calls : List Call}
    (hsched : scheduleSuccessor g opts t source succID resultEnvelope state = (.send item state', calls)) :
    schedulable g opts state succID = true := by
  unfold schedulable
  cases scheduling_of_eq hsched with
  | sent hnode hplain hhops => simp [hnode, hplain, hhops]
  | fired hnode hmerge hready => simp [hnode, hmerge, hready]

variable {w : Fin n} {a : Act}

theorem hasRoom_of_moves {pool : Pool WorkItem NodeResult n (n * 2)} (hact : Pool.Moves (runWork g) s.pool w a pool)
    {log : List Event} (hroom : s.hasRoom = true) : { s with pool, log }.hasRoom = true := by
  have hjobs := hact.jobs_length_le
  unfold State.hasRoom at hroom ⊢
  dsimp only
  rw [hact.inFlight]
  grind

variable {l : Label n}

theorem State.Roomy.step (hs : s.Roomy) (hfits : s.fits g opts env l = true)
    (hstep : State.step g opts env l s = some s') : s'.Roomy := by
  have hmoves := moves_of_step hstep
  refine ⟨hmoves.accounted hs.accounted, ?_, ?_⟩
  · intro item source resultEnvelope successors addedPending hcoord
    rcases hmoves.of_sending hcoord with hbefore | 
      ⟨t, succID, state, calls, rfl, hsched, hsend, hpool, hctx⟩
    · cases hmoves with
      | cancel cause hctx => simp_all [State.fits, State.hasRoom]
      | ctxDone hselect | receive hselect => simp [hbefore] at hselect
      | schedule t hsched => simp [hbefore] at hsched
      | send => cases hcoord
      | wait hstop => simp [hbefore] at hstop
      | worker hact => exact hasRoom_of_moves hact (hs.sending _ _ _ _ _ hbefore)
    · simp only [State.fits, hsched, Bool.and_eq_true, schedulable_of_send hsend, Bool.not_true,
        Bool.false_or] at hfits
      simpa only [State.hasRoom, hpool, hctx] using hfits.1
  · intro hstopped
    by_cases hrunning : s.coordinator.running = true
    · simp_all [State.fits, State.stopsCrowded]
    · have hbefore := hs.stopped (Bool.eq_false_of_not_eq_true hrunning)
      cases hmoves with
      | cancel | wait => exact hbefore
      | ctxDone hcoord | receive hcoord | schedule t hcoord | send hcoord =>
        simp [hcoord, Coordinator.running] at hrunning
      | worker hact => rwa [hact.inFlight]

theorem worker_step (hact : (s.pool.act (runWork g) w a).isSome) :
    (State.step g opts env (.worker w a) s).isSome := by
  simpa [State.step] using hact

theorem State.Roomy.progress (hs : s.Roomy) (hn : 0 < n) (hreturned : ∀ ret, s.coordinator ≠ .returned ret) :
    ¬ Stuck g opts env s := by
  have henabled : ∀ {l : Label n}, (State.step g opts env l s).isSome → (∀ cause, l ≠ .cancel cause) →
      ¬ Stuck g opts env s := by
    intro l hsome hl hstuck
    rw [hstuck l hl] at hsome
    cases hsome
  cases hcoord : s.coordinator with
  | selecting =>
    cases hctx : s.ctxErr with
    | some cause => exact henabled (l := .ctxDone) (by simp [State.step, hcoord, hctx]) (by simp)
    | none =>
      have hdone : s.pool.done = false := by
        rw [hs.accounted.done, hctx, hcoord]
        rfl
      have hflight : s.pool.inFlight ≠ 0 := by
        have hpending := hs.accounted.pending (by rw [hcoord]; rfl)
        have hpositive := hs.accounted.positive hcoord
        intro hzero
        rw [hzero, Multiset.card_zero] at hpending
        omega
      obtain ⟨w, a, hact⟩ | hanswers := Pool.exists_act_or_answer (f := runWork g)
        (hs.accounted.alive hdone) (by omega) hn hflight
      · exact henabled (worker_step hact) (by simp)
      · obtain ⟨r, hcollect⟩ := Pool.exists_collect_iff.mpr hanswers
        exact henabled (l := .receive) (by simp [State.step, hcoord, hcollect]) (by simp)
  | scheduling source resultEnvelope successors addedPending =>
    exact henabled (l := .schedule 0) (by simp [State.step, hcoord]) (by simp)
  | sending item source resultEnvelope successors addedPending =>
    have hroom := hs.sending _ _ _ _ _ hcoord
    by_cases hjobs : s.pool.jobs.buffer.length < n * 2
    · obtain ⟨pool, hsubmit⟩ : ∃ pool, s.pool.submit item = some pool := Pool.exists_submit_iff.mpr hjobs
      exact henabled (l := .send) (by simp [State.step, hcoord, hsubmit]) (by simp)
    · unfold State.hasRoom at hroom
      split at hroom
      · next hctx =>
        have hdone : s.pool.done = false := by
          rw [hs.accounted.done, Option.isNone_iff_eq_none.mp hctx, hcoord]
          rfl
        rw [decide_eq_true_eq] at hroom
        obtain ⟨w, a, hact⟩ := Pool.exists_act_of_card_lt (f := runWork g) (hs.accounted.alive hdone)
          (by rw [← List.length_pos_iff]; omega) (by omega) hn
        exact henabled (worker_step hact) (by simp)
      grind
  | stopping ret =>
    have hstopped : s.coordinator.running = false := by rw [hcoord]; rfl
    have hdone : s.pool.done = true := by simp [hs.accounted.done, hstopped]
    by_cases hexited : ∀ w, (s.pool.workers w).isExited
    · exact henabled (l := .wait) (by simp [State.step, hcoord, hexited]) (by simp)
    · push Not at hexited
      obtain ⟨w, hw⟩ := hexited
      obtain ⟨a, hact⟩ := Pool.exists_act_of_stopped (f := runWork g) hdone (hs.stopped hstopped)
        (fun heq => hw (Worker.isExited_iff.mpr heq))
      exact henabled (worker_step hact) (by simp)
  | returned ret => exact absurd hcoord (hreturned ret)

end

namespace fanOut

def leaves : List String := ["x1", "x2", "x3", "x4", "x5", "x6", "x7", "x8", "x9", "x10"]

def graph : Graph :=
  (Graph.build? ((["e", "a", "b"] ++ leaves).map newNoopNode)
    ([⟨"e", "a"⟩, ⟨"e", "b"⟩] ++ leaves.map fun x => ⟨"a", x⟩) "e").get (by decide)

def opts : RunOptions := { maxHops := 100, continueOnError := false, concurrency := 2 }

def jam : List (Label 2) :=
  open Label in
  complete w₀ ++ [receive] ++ push ++ push ++ [schedule 0] ++ complete w₀ ++ [receive] ++ complete w₀ ++
    push ++ complete w₀ ++ push ++ complete w₀ ++ push ++ complete w₀ ++ push ++ produce w₀ ++
    push ++ produce w₁ ++ push ++ push ++ push ++ push ++ [schedule 0]

def start : List (Label 2) := Label.complete Label.w₀ ++ [.receive] ++ Label.push ++ [.schedule 0]

end fanOut

variable {opts : RunOptions} {g : BasicGraph} {env : Envelope}

theorem roomy_of_fits {s : State opts.concurrency} (hconc : 0 < opts.concurrency)
    (hrun : (executeGraphParallel g opts env).ReachesUnder (fun s l => s.fits g opts env l = true)
      (executeGraphParallel g opts env).init s) : s.Roomy := by
  refine hrun.invariant (fun _ _ _ hs hfits hstep => hs.step hfits hstep)
    ⟨accounted_init hconc, ?_, ?_⟩
  · intro item source resultEnvelope successors addedPending hcoord
    cases hcoord
  · intro hstopped
    cases hstopped

/-- In every run whose steps all have the room they need, no state before the
return is stuck. -/
theorem executeGraphParallel_deadlockFree (g : BasicGraph) (opts : RunOptions) (env : Envelope)
    (hconc : 1 < opts.concurrency) (s : State opts.concurrency)
    (hrun : (executeGraphParallel g opts env).ReachesUnder (fun s l => s.fits g opts env l = true)
      (executeGraphParallel g opts env).init s)
    (hreturned : ∀ ret, s.coordinator ≠ .returned ret) : ¬ Stuck g opts env s := by
  have hroomy := roomy_of_fits (by omega) hrun
  exact hroomy.progress (by omega) hreturned

/-- The first result of the fan-out has the room it needs, up to the second send. -/
theorem fanOut_deadlockFree :
    ∃ s, (executeGraphParallel fanOut.graph.toBasicGraph fanOut.opts {}).ReachesUnder
        (fun s l => s.fits fanOut.graph.toBasicGraph fanOut.opts {} l = true)
        (executeGraphParallel fanOut.graph.toBasicGraph fanOut.opts {}).init s ∧
      s.coordinator.addedPending = 1 ∧ ¬ Stuck fanOut.graph.toBasicGraph fanOut.opts {} s := by
  obtain ⟨s, hrun, htest⟩ := Machine.exists_reachesUnder_of_exec
    (m := executeGraphParallel fanOut.graph fanOut.opts {}) (P := fun s l => s.fits fanOut.graph fanOut.opts {} l)
    fanOut.start (fun s => decide (s.coordinator.addedPending = 1)) (by decide +kernel)
  rw [decide_eq_true_eq] at htest
  refine ⟨s, hrun, htest, ?_⟩
  apply executeGraphParallel_deadlockFree _ _ _ (by decide) s hrun
  intro ret hret
  rw [hret] at htest
  cases htest

/-- A coordinator that sends into a full work channel while every worker holds a
result for a full result channel. -/
def State.wedged {n : Nat} (s : State n) : Bool :=
  (match s.coordinator with
    | .sending .. => true
    | _ => false) &&
  decide (s.pool.jobs.buffer.length = n * 2) && decide (s.pool.answers.buffer.length = n * 2) &&
  decide (∀ w, (s.pool.workers w).answered.card = 1)

theorem stuck_of_wedged {n : Nat} {s : State n} (hwedged : s.wedged = true) : Stuck g opts env s := by
  simp only [State.wedged, Bool.and_eq_true, decide_eq_true_eq] at hwedged
  obtain ⟨⟨⟨hsending, hjobs⟩, hanswers⟩, hworkers⟩ := hwedged
  intro l hl
  by_contra hsome
  obtain ⟨s', hstep⟩ := Option.ne_none_iff_exists'.mp hsome
  cases moves_of_step hstep with
  | cancel cause => exact hl cause rfl
  | ctxDone hcoord | receive hcoord | schedule t hcoord | wait hcoord => simp [hcoord] at hsending
  | send hcoord hsubmit =>
    have hroom := Pool.exists_submit_iff.mp ⟨_, hsubmit⟩
    omega
  | @worker w a pool hact =>
    have hw := hworkers w
    cases hact with
    | take hidle | exit hidle => simp [hidle, Worker.answered] at hw
    | start hreceived => simp [hreceived, Worker.answered] at hw
    | finish t hrunning => simp [hrunning, Worker.answered] at hw
    | deliver _ hroom => omega

/-- Two workers and a node with ten successors: the coordinator and the workers
block each other with a result still pending. -/
theorem fanOut_deadlocks :
    ∃ s, (executeGraphParallel fanOut.graph.toBasicGraph fanOut.opts {}).Reachable s ∧
      0 < s.pendingCount ∧ s.coordinator.running = true ∧
      Stuck fanOut.graph.toBasicGraph fanOut.opts {} s := by
  obtain ⟨s, hreach, htest⟩ := Machine.exists_reachable_of_exec
    (m := executeGraphParallel fanOut.graph fanOut.opts {}) fanOut.jam
    (fun s => s.wedged && decide (0 < s.pendingCount) && s.coordinator.running) (by decide +kernel)
  simp only [Bool.and_eq_true, decide_eq_true_eq] at htest
  exact ⟨s, hreach, htest.1.2, htest.2, stuck_of_wedged htest.1.1⟩

end

def Coordinator.isStopping : Coordinator → Bool
  | stopping _ => true
  | _ => false

theorem Coordinator.isStopping_iff {c : Coordinator} : c.isStopping = true ↔ ∃ ret, c = .stopping ret := by
  cases c <;> simp [isStopping]

/-- Whatever the workers do after the workers were told to stop, they can still
all exit, so that the coordinator returns. -/
def CanShutDown (g : BasicGraph) (opts : RunOptions) (env : Envelope) (s : State opts.concurrency)
    (ret : Return) : Prop :=
  ∀ s', (executeGraphParallel g opts env).Reaches s s' →
    ∃ s'', (executeGraphParallel g opts env).Reaches s' s'' ∧
      (∀ w, s''.pool.workers w = .exited) ∧ s''.coordinator = .returned ret

section

variable {g : BasicGraph} {opts : RunOptions} {env : Envelope} {s s' : State opts.concurrency}
  {ret : Return}

theorem reaches_of_stopping (hreach : (executeGraphParallel g opts env).Reaches s s')
    (hcoord : s.coordinator = .stopping ret) (hdone : s.pool.done = true) :
    Pool.Reaches (runWork g) s.pool s'.pool ∧ s'.pool.done = true ∧ (s'.coordinator = .stopping ret ∨
        s'.coordinator = .returned ret ∧ ∀ w, s'.pool.workers w = .exited) := by
  refine hreach.invariant (I := fun s' => Pool.Reaches (runWork g) s.pool s'.pool ∧
    s'.pool.done = true ∧ (s'.coordinator = .stopping ret ∨
      s'.coordinator = .returned ret ∧ ∀ w, s'.pool.workers w = .exited)) ?_
    ⟨Pool.Reaches.refl s.pool, hdone, .inl hcoord⟩
  rintro s₁ l s₂ ⟨hpool, hdone₁, hphase⟩ hstep
  have hnot : ∀ c : Coordinator, c.running = true → s₁.coordinator ≠ c := by
    intro c hrunning heq
    rcases hphase with hphase | ⟨hphase, _⟩ <;> rw [hphase] at heq <;> subst heq <;> cases hrunning
  cases moves_of_step hstep with
  | cancel cause hctx =>
    have hsame : ({ s₁.pool with done := true } : Pool WorkItem NodeResult _ _) = s₁.pool := by rw [← hdone₁]
    exact ⟨hsame ▸ hpool, rfl, hphase⟩
  | ctxDone hselect | receive hselect => exact absurd hselect (hnot _ rfl)
  | schedule t hsched => exact absurd hsched (hnot _ rfl)
  | send hsend => exact absurd hsend (hnot _ rfl)
  | wait hstop hexited =>
    refine ⟨hpool, hdone₁, .inr ⟨?_, fun w => Worker.isExited_iff.mp (hexited w)⟩⟩
    simp_all
  | @worker w a pool hact =>
    have hmove : Pool.Step (runWork g) s₁.pool pool := ⟨w, a, Pool.act_eq_some_iff.mpr hact⟩
    refine ⟨hpool.tail hmove, hact.flags.1.trans hdone₁, ?_⟩
    grind [Pool.not_moves_of_exited]

theorem reaches_of_pool (env : Envelope) {pool : Pool WorkItem NodeResult opts.concurrency (opts.concurrency * 2)}
    (hreach : Pool.Reaches (runWork g) s.pool pool) :
    ∃ s', (executeGraphParallel g opts env).Reaches s s' ∧ s'.pool = pool ∧ s'.coordinator = s.coordinator := by
  induction hreach with
  | refl => exact ⟨s, Machine.ReachesUnder.refl s, rfl, rfl⟩
  | @tail _ pool' _ hstep ih =>
    obtain ⟨s₁, hreach, rfl, hcoord⟩ := ih
    obtain ⟨w, a, hact⟩ := hstep
    have hworker : (executeGraphParallel g opts env).step (.worker w a) s₁ =
        some { s₁ with pool := pool', log := s₁.log ++ workerEvents g a (s₁.pool.workers w) } := by
      simp [executeGraphParallel, State.step, hact]
    exact ⟨_, hreach.step hworker, rfl, hcoord⟩

theorem wait_of_exited (g : BasicGraph) (env : Envelope) (hcoord : s.coordinator = .stopping ret)
    (hexited : ∀ w, s.pool.workers w = .exited) :
    ∃ s', (executeGraphParallel g opts env).Reaches s s' ∧ s'.pool = s.pool ∧ s'.coordinator = .returned ret := by
  have hwait : (executeGraphParallel g opts env).step .wait s = some { s with coordinator := .returned ret } := by
    simp [executeGraphParallel, State.step, hcoord, hexited, Worker.isExited]
  exact ⟨_, Machine.Reaches.single hwait, rfl, rfl⟩

end

/-- The shutdown cannot hang exactly when no worker is left or the outstanding
results fit into the result channel. -/
theorem canShutDown_iff (g : BasicGraph) (opts : RunOptions) (env : Envelope)
    (hconc : 1 < opts.concurrency) (s : State opts.concurrency) (ret : Return)
    (hreach : (executeGraphParallel g opts env).Reachable s) (hcoord : s.coordinator = .stopping ret) :
    CanShutDown g opts env s ret ↔
      (∀ w, s.pool.workers w = .exited) ∨ s.pool.inFlight.card ≤ opts.concurrency * 2 := by
  have hdone : s.pool.done = true := by
    rw [(accounted_of_reachable (by omega) hreach).done, hcoord]
    simp [Coordinator.running]
  rw [← Pool.can_always_exit_iff (f := runWork g) hdone]
  constructor
  · intro hshut pool hpool
    obtain ⟨s', hs', rfl, hcoord'⟩ := reaches_of_pool env hpool
    obtain ⟨s'', hs'', hexited, _⟩ := hshut s' hs'
    have hdone' : s'.pool.done = true := hpool.done.trans hdone
    exact ⟨s''.pool, (reaches_of_stopping hs'' (hcoord'.trans hcoord) hdone').1, hexited⟩
  · intro hexit s' hs'
    obtain ⟨hpool, hdone', hstopping | ⟨hreturned, hexited⟩⟩ := reaches_of_stopping hs' hcoord hdone
    · obtain ⟨pool, hrest, hexited⟩ := hexit s'.pool hpool
      obtain ⟨s₁, hs₁, rfl, hcoord₁⟩ := reaches_of_pool env hrest
      obtain ⟨s₂, hs₂, hpool₂, hcoord₂⟩ := wait_of_exited g env (hcoord₁.trans hstopping) hexited
      exact ⟨s₂, hs₁.trans hs₂, fun w => by rw [hpool₂]; exact hexited w, hcoord₂⟩
    · exact ⟨s', Machine.ReachesUnder.refl s', hexited, hreturned⟩

namespace failingBranch

def branches : List String := ["x2", "x3", "x4", "x5", "x6"]

def graph : Graph :=
  (Graph.build?
    ([newNoopNode "e", newFuncNode "x1" fun _ env => .failed "boom" env] ++ branches.map newNoopNode)
    (("x1" :: branches).map fun x => ⟨"e", x⟩) "e").get (by decide)

def opts : RunOptions := { maxHops := 100, continueOnError := false, concurrency := 2 }

/-- Four results are buffered and two held by the workers when the failure is
received, and one worker can still deliver its own. -/
def crowded : List (Label 2) :=
  open Label in
  complete w₀ ++ [receive] ++ push ++ push ++ push ++ push ++ complete w₀ ++ push ++ complete w₀ ++ push ++
    [schedule 0] ++ complete w₀ ++ complete w₀ ++ produce w₀ ++ produce w₁ ++ [receive, worker w₀ .deliver]

def early : List (Label 2) :=
  open Label in
  complete w₀ ++ [receive] ++ push ++ push ++ push ++ push ++ produce w₀ ++ complete w₁ ++ push ++ push ++
    [schedule 0, receive, schedule 0, worker w₀ .deliver, receive]

end failingBranch

/-- With one branch done before the failure is received, the shutdown cannot hang. -/
theorem failingBranch_canShutDown :
    ∃ s ret, (executeGraphParallel failingBranch.graph.toBasicGraph failingBranch.opts {}).Reachable s ∧
      s.coordinator = .stopping ret ∧
      CanShutDown failingBranch.graph.toBasicGraph failingBranch.opts {} s ret := by
  obtain ⟨s, hreach, htest⟩ := Machine.exists_reachable_of_exec
    (m := executeGraphParallel failingBranch.graph failingBranch.opts {})
    failingBranch.early
    (fun s => s.coordinator.isStopping && decide (s.pool.inFlight.card ≤ 4)) (by decide +kernel)
  rw [Bool.and_eq_true, decide_eq_true_eq] at htest
  obtain ⟨ret, hcoord⟩ := Coordinator.isStopping_iff.mp htest.1
  exact ⟨s, ret, hreach, hcoord,
    (canShutDown_iff _ failingBranch.opts _ (by decide) s ret hreach hcoord).mpr (.inr htest.2)⟩

/-- Five results outstanding at the failure: a worker is left blocked on its send
for ever, and the coordinator on the worker. -/
theorem failingBranch_hangs :
    ∃ s ret, (executeGraphParallel failingBranch.graph.toBasicGraph failingBranch.opts {}).Reachable s ∧
      s.coordinator = .stopping ret ∧
      ∀ s', (executeGraphParallel failingBranch.graph.toBasicGraph failingBranch.opts {}).Reaches s s' →
        s'.coordinator = .stopping ret ∧ ∃ w job answer, s'.pool.workers w = .sending job answer := by
  obtain ⟨s, hreach, htest⟩ := Machine.exists_reachable_of_exec
    (m := executeGraphParallel failingBranch.graph failingBranch.opts {})
    failingBranch.crowded
    (fun s => s.coordinator.isStopping && s.pool.done && decide (s.pool.answers.buffer.length = 4) &&
      decide ((s.pool.workers (1 : Fin 2)).answered.card = 1)) (by decide +kernel)
  simp only [Bool.and_eq_true, decide_eq_true_eq] at htest
  obtain ⟨⟨⟨hstopping, hdone⟩, hfull⟩, hsending⟩ := htest
  obtain ⟨ret, hcoord⟩ := Coordinator.isStopping_iff.mp hstopping
  obtain ⟨job, answer, hworker⟩ := Worker.exists_sending_of_answered hsending
  refine ⟨s, ret, hreach, hcoord, ?_⟩
  intro s' hs'
  obtain ⟨hpool, _, hphase⟩ := reaches_of_stopping hs' hcoord hdone
  obtain ⟨_, w, job', answer', hw⟩ := hpool.jammed ⟨hfull, (1 : Fin 2), job, answer, hworker⟩
  grind

end petalflow.runtime
