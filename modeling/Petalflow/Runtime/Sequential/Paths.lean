import Petalflow.Lib.Network
import Petalflow.Runtime.EventLog

open petalflow.core petalflow.graph machine List Finset fifo Function

namespace petalflow.runtime

/-- The events of one visit: the node is executed at most once, and no other
node is. -/
def AtMostOnce (nodeID : String) (events : List Event) : Prop :=
  ∀ m, executions events m ≤ if m = nodeID then 1 else 0

/-- A visit that goes on marks its node, queues some of its successors and logs
its events; hop counts and clock are left alone. -/
structure Visited (g : BasicGraph) (nodeID : String) (events : List Event) (s s' : SequentialState) :
    Prop where
  hopCount : s'.hopCount = s.hopCount
  clock : s'.clock = s.clock
  visited : s'.visited = Function.update s.visited nodeID true
  queue : ∃ targets, targets.Sublist (g.successors nodeID) ∧ s'.queue = s.queue ++ targets
  log : s'.log = s.log ++ events

structure Left (events : List Event) (s : SequentialState) (done : Finished) : Prop where
  err : ∀ env n k, done.ret ≠ .returned env (some (.maxHopsExceeded n k))
  log : done.log = s.log ++ events

variable {events : List Event}

theorem Quiet.atMostOnce (hquiet : Quiet events) (nodeID : String) : AtMostOnce nodeID events := by
  intro m
  rw [hquiet.executions]
  exact Nat.zero_le _

variable {nodeID : String} {left right : List Event}

theorem AtMostOnce.append_quiet (hleft : AtMostOnce nodeID left) (hright : Quiet right) :
    AtMostOnce nodeID (left ++ right) := by
  intro m
  rw [executions_append, hright.executions]
  exact hleft m

theorem Quiet.append_atMostOnce (hleft : Quiet left) (hright : AtMostOnce nodeID right) :
    AtMostOnce nodeID (left ++ right) := by
  intro m
  rw [executions_append, hleft.executions, Nat.zero_add]
  exact hright m

variable {g : BasicGraph} {opts : RunOptions} {t : Nat} {node : Node} {err : RunError} {nodeErr : Option String}
  {point : StepPoint}

theorem handleStepPoint_err {env : Envelope} {hopCount : Nat}
    (herr : (handleStepPoint g opts t node env point hopCount nodeErr).err = some err) :
    ∀ n k, err ≠ .maxHopsExceeded n k := by
  grind [handleStepPoint, StepDecision.proceed]

variable {current : Envelope} {attempt : Nat}

theorem handleSequentialBeforeStep_err
    (herr : (handleSequentialBeforeStep g opts t node current attempt).err = some err) :
    ∀ n k, err ≠ .maxHopsExceeded n k := by
  grind [handleSequentialBeforeStep, handleStepPoint_err]

theorem handleSequentialAfterStep_err {outcome : Outcome}
    (herr : (handleSequentialAfterStep g opts t node current outcome attempt).1 = some err) :
    ∀ n k, err ≠ .maxHopsExceeded n k := by
  unfold handleSequentialAfterStep at herr
  grind [handleStepPoint_err]

variable {s s' : SequentialState}

theorem enqueueSuccessors_visited (hid : node.id = nodeID) (hqueue : enqueueSuccessors g node nodeID s = .inl s') :
    ∃ events, Quiet events ∧ Visited g nodeID events s s' := by
  unfold enqueueSuccessors at hqueue
  split at hqueue
  · cases hqueue
  · next succ hsucc =>
    cases hqueue
    refine ⟨succ.events, (determineSuccessors_interim hsucc).quiet, rfl, rfl, rfl, ⟨succ.targets, ?_, rfl⟩, rfl⟩
    exact hid ▸ determineSuccessors_sublist hsucc

variable {done : Finished}

theorem enqueueSuccessors_left (hqueue : enqueueSuccessors g node nodeID s = .inr done) : Left [] s done := by
  unfold enqueueSuccessors at hqueue
  split at hqueue
  · cases hqueue
    exact ⟨by simp, by simp⟩
  · cases hqueue

variable {first rest : List Event} {env : Option Envelope}

theorem Visited.prepend (hvisited : Visited g nodeID rest { s with current := env, log := s.log ++ first } s') :
    Visited g nodeID (first ++ rest) s s' :=
  { hvisited with log := by rw [hvisited.log, append_assoc] }

theorem Left.prepend (hleft : Left rest { s with current := env, log := s.log ++ first } done) :
    Left (first ++ rest) s done :=
  ⟨hleft.err, by rw [hleft.log, append_assoc]⟩

variable (hid : node.id = nodeID)
include hid

theorem run_atMostOnce (t : Nat) (current : Envelope) {after : List Event} (hafter : Quiet after) :
    AtMostOnce nodeID ((executeNode node t current).2 ++ after) := by
  refine AtMostOnce.append_quiet ?_ hafter
  intro m
  rw [executeNode_executions, hid]
  by_cases hm : m = nodeID
  · simp [hm]
  · simp [hm, Ne.symm hm]

theorem runSequentialNode_visited (hrun : runSequentialNode g opts t node nodeID attempt current s = .inl s') :
    ∃ events, AtMostOnce nodeID events ∧ Visited g nodeID events s s' := by
  unfold runSequentialNode at hrun
  dsimp only at hrun
  have hquiet := (handleSequentialAfterStep_interim g opts t node current (executeNode node t current).1 attempt).quiet
  split at hrun
  · cases hrun
  · split at hrun
    · cases hrun
    · rw [append_assoc] at hrun
      obtain ⟨events, hevents, hvisited⟩ := enqueueSuccessors_visited hid hrun
      exact ⟨_, (run_atMostOnce hid t current hquiet).append_quiet hevents, hvisited.prepend⟩

theorem runSequentialNode_left (hrun : runSequentialNode g opts t node nodeID attempt current s = .inr done) :
    ∃ events, AtMostOnce nodeID events ∧ Left events s done := by
  unfold runSequentialNode at hrun
  dsimp only at hrun
  have hquiet := (handleSequentialAfterStep_interim g opts t node current (executeNode node t current).1 attempt).quiet
  have honce := run_atMostOnce hid t current hquiet
  split at hrun
  · next err herr =>
    cases hrun
    refine ⟨_, honce, ?_, by rw [append_assoc]⟩
    intro env n k hret
    cases hret
    exact handleSequentialAfterStep_err herr n k rfl
  · split at hrun
    · next result err hresolve =>
      cases hrun
      refine ⟨_, honce, ?_, by rw [append_assoc]⟩
      intro env n k hret
      cases hret
      unfold resolveSequentialNodeOutcome at hresolve
      grind
    · rw [append_assoc] at hrun
      have hleft := enqueueSuccessors_left hrun
      exact ⟨_, honce.append_quiet Quiet.nil, hleft.prepend⟩

theorem visitNode_visited (hvisit : visitNode g opts t node nodeID attempt current s = .inl s') :
    ∃ events, AtMostOnce nodeID events ∧ Visited g nodeID events s s' := by
  unfold visitNode at hvisit
  dsimp only at hvisit
  have hquiet := (handleSequentialBeforeStep_interim g opts t node current attempt).quiet
  split at hvisit
  · cases hvisit
  · split at hvisit
    · obtain ⟨events, hevents, hvisited⟩ := enqueueSuccessors_visited hid hvisit
      exact ⟨_, hquiet.append_atMostOnce (hevents.atMostOnce nodeID), hvisited.prepend⟩
    · obtain ⟨events, hevents, hvisited⟩ := runSequentialNode_visited hid hvisit
      exact ⟨_, hquiet.append_atMostOnce hevents, hvisited.prepend⟩

theorem visitNode_left (hvisit : visitNode g opts t node nodeID attempt current s = .inr done) :
    ∃ events, AtMostOnce nodeID events ∧ Left events s done := by
  unfold visitNode at hvisit
  dsimp only at hvisit
  have hquiet := (handleSequentialBeforeStep_interim g opts t node current attempt).quiet
  split at hvisit
  · next err herr =>
    cases hvisit
    refine ⟨_, hquiet.atMostOnce nodeID, ?_, rfl⟩
    intro env n k hret
    cases hret
    exact handleSequentialBeforeStep_err herr n k rfl
  · split at hvisit
    · have hleft := enqueueSuccessors_left hvisit
      exact ⟨_, hquiet.append_atMostOnce (Quiet.nil.atMostOnce nodeID), hleft.prepend⟩
    · obtain ⟨events, hevents, hleft⟩ := runSequentialNode_left hid hvisit
      exact ⟨_, hquiet.append_atMostOnce hevents, hleft.prepend⟩

omit hid

inductive Iteration (g : BasicGraph) (ctx : Nat → Option String) (opts : RunOptions)
    (s : SequentialState) : SequentialState ⊕ Finished → Prop where
  | finished (hqueue : s.queue = []) :
      Iteration g ctx opts s (.inr { ret := .returned s.current none, log := s.log })
  | skipped {nodeID : String} {queue : List String} (hqueue : s.queue = nodeID :: queue)
      (hskip : shouldSkipVisitedNode nodeID s.visited s.hopCount opts.maxHops = true) :
      Iteration g ctx opts s (.inl { s with queue, clock := s.clock + 1 })
  | canceled {err : RunError} (hctx : checkRunContext ctx s.clock = some err) :
      Iteration g ctx opts s (.inr { ret := .returned s.current (some err), log := s.log })
  | exceeded {nodeID : String} {queue : List String} (hqueue : s.queue = nodeID :: queue)
      (hskip : shouldSkipVisitedNode nodeID s.visited s.hopCount opts.maxHops = false)
      (hhops : opts.maxHops < s.hopCount nodeID + 1) :
      Iteration g ctx opts s (.inr
        { ret := .returned s.current (some (.maxHopsExceeded nodeID (s.hopCount nodeID + 1))), log := s.log })
  | notFound {nodeID : String} {queue : List String} (hqueue : s.queue = nodeID :: queue)
      (hnode : g.nodeByID nodeID = none) :
      Iteration g ctx opts s (.inr
        { ret := .returned s.current (some (.nodeNotFound nodeID)), log := s.log })
  | nilEnvelope (hcurrent : s.current = none) : Iteration g ctx opts s (.inr { ret := .panicked, log := s.log })
  | visit {nodeID : String} {queue : List String} {node : Node} {current : Envelope}
      {r : SequentialState ⊕ Finished} (hqueue : s.queue = nodeID :: queue)
      (hskip : shouldSkipVisitedNode nodeID s.visited s.hopCount opts.maxHops = false)
      (hctx : checkRunContext ctx s.clock = none) (hhops : s.hopCount nodeID + 1 ≤ opts.maxHops)
      (hnode : g.nodeByID nodeID = some node) (hcurrent : s.current = some current)
      (hvisit : visitNode g opts s.clock node nodeID (s.hopCount nodeID + 1) current
        { s with
          hopCount := Function.update s.hopCount nodeID (s.hopCount nodeID + 1)
          queue
          clock := s.clock + 1 } = r) :
      Iteration g ctx opts s r

theorem sequentialBody_iteration {ctx : Nat → Option String}
    {r : SequentialState ⊕ Finished} (hbody : sequentialBody g ctx opts s = r) : Iteration g ctx opts s r := by
  subst hbody
  unfold sequentialBody
  split
  · next hqueue => exact .finished hqueue
  · next nodeID queue hqueue =>
    split
    · next hskip => exact .skipped hqueue hskip
    · next hskip =>
      have hskip : shouldSkipVisitedNode nodeID s.visited s.hopCount opts.maxHops = false := by simpa using hskip
      split
      · next hctx => exact .canceled hctx
      · next hctx =>
        unfold incrementAndValidateHop
        by_cases hhops : opts.maxHops < s.hopCount nodeID + 1
        · simp only [gt_iff_lt, hhops, if_true]
          exact .exceeded hqueue hskip hhops
        · simp only [gt_iff_lt, hhops, if_false]
          split
          · next hnode => exact .notFound hqueue hnode
          · next hnode =>
            split
            · next hcurrent => exact .nilEnvelope hcurrent
            · next hcurrent => exact .visit hqueue hskip hctx (by omega) hnode hcurrent rfl

/-- The invariant of the loop: a counted node is marked, exists and stays within
its budget, and the log shows no more executions than the counters do. -/
structure WithinBudget (g : BasicGraph) (opts : RunOptions) (s : SequentialState) : Prop where
  budget : ∀ n, s.hopCount n ≤ opts.maxHops
  marked : ∀ n, 0 < s.hopCount n → s.visited n = true
  counted : ∀ n, executions s.log n ≤ s.hopCount n

theorem sequentialInit_withinBudget (g : BasicGraph) (opts : RunOptions) (env : Envelope) :
    WithinBudget g opts (sequentialInit g env) :=
  ⟨fun _ => Nat.zero_le _, fun _ h => absurd h (lt_irrefl 0), fun _ => le_rfl⟩

theorem WithinBudget.hop_left (hinv : WithinBudget g opts s) (hmax : 1 ≤ opts.maxHops)
    (hskip : shouldSkipVisitedNode nodeID s.visited s.hopCount opts.maxHops = false) :
    s.hopCount nodeID + 1 ≤ opts.maxHops := by
  by_cases hzero : s.hopCount nodeID = 0
  · omega
  · have hmarked := hinv.marked nodeID (by omega)
    simp [shouldSkipVisitedNode, hmarked, hzero] at hskip
    omega

theorem WithinBudget.counted_visit (hinv : WithinBudget g opts s) (honce : AtMostOnce nodeID events) (n : String) :
    executions (s.log ++ events) n ≤
      Function.update s.hopCount nodeID (s.hopCount nodeID + 1) n := by
  have hcounted := hinv.counted n
  have hn := honce n
  rw [executions_append]
  grind

variable {ctx : Nat → Option String}

theorem sequentialBody_withinBudget {g : Graph} (hinv : WithinBudget g opts s)
    (hbody : sequentialBody g ctx opts s = .inl s') : WithinBudget g opts s' := by
  cases sequentialBody_iteration hbody with
  | skipped hqueue hskip => exact { hinv with }
  | @visit nodeID queue node current _ hqueue hskip hctx hhops hnode hcurrent hvisit =>
    obtain ⟨events, honce, hvisited⟩ := visitNode_visited (g.wellFormed.node_id _ _ hnode) hvisit
    refine ⟨?_, ?_, ?_⟩
    · intro n
      rw [hvisited.hopCount]
      by_cases heq : n = nodeID
      · subst heq
        simpa using hhops
      · simpa [heq] using hinv.budget n
    · intro n hn
      rw [hvisited.visited]
      by_cases heq : n = nodeID
      · subst heq
        simp
      · simp only [update_of_ne heq]
        rw [hvisited.hopCount] at hn
        exact hinv.marked n (by simpa [heq] using hn)
    · intro n
      rw [hvisited.log, hvisited.hopCount]
      exact hinv.counted_visit honce n

/-- The measure of the loop: the hops left to the nodes, weighed by what one
visit can add to the queue, and the queue itself. -/
def hopsLeft (g : BasicGraph) (opts : RunOptions) (s : SequentialState) : Nat :=
  (∑ n ∈ g.nodeOrder.toFinset, (opts.maxHops - s.hopCount n)) * (g.edges.length + 1) + s.queue.length

theorem sequentialBody_hopsLeft {g : Graph} (hbody : sequentialBody g ctx opts s = .inl s') :
    hopsLeft g opts s' < hopsLeft g opts s := by
  cases sequentialBody_iteration hbody with
  | skipped hqueue hskip => simp [hopsLeft, hqueue]
  | @visit nodeID queue node current _ hqueue hskip hctx hhops hnode hcurrent hvisit =>
    obtain ⟨events, _, hvisited⟩ := visitNode_visited (g.wellFormed.node_id _ _ hnode) hvisit
    obtain ⟨targets, hsub, hqueue'⟩ := hvisited.queue
    have htargets : targets.length ≤ g.edges.length := hsub.length_le.trans (g.successors_length_le nodeID)
    have hmem : nodeID ∈ g.nodeOrder.toFinset := by
      rw [mem_toFinset, g.wellFormed.mem_nodeOrder]
      exact Option.isSome_iff_exists.mpr ⟨node, hnode⟩
    have hsum : ∑ n ∈ g.nodeOrder.toFinset, (opts.maxHops - s'.hopCount n) <
        ∑ n ∈ g.nodeOrder.toFinset, (opts.maxHops - s.hopCount n) := by
      rw [hvisited.hopCount]
      refine Finset.sum_lt_sum ?_ ⟨nodeID, hmem, ?_⟩
      · grind
      · simp only [update_self]
        omega
    have hweigh := Nat.mul_le_mul_right (g.edges.length + 1) (Nat.succ_le_of_lt hsum)
    grind [hopsLeft]

theorem sequentialBody_done {g : Graph} (hmax : 1 ≤ opts.maxHops) (hinv : WithinBudget g opts s)
    (hbody : sequentialBody g ctx opts s = .inr done) : (∀ n, executions done.log n ≤ opts.maxHops) ∧
      ∀ env n k, done.ret ≠ .returned env (some (.maxHopsExceeded n k)) := by
  have hlog : ∀ n, executions s.log n ≤ opts.maxHops := fun n => (hinv.counted n).trans (hinv.budget n)
  cases sequentialBody_iteration hbody with
  | finished hqueue | notFound | nilEnvelope => exact ⟨hlog, by simp⟩
  | canceled hctx =>
    refine ⟨hlog, ?_⟩
    intro env n k hret
    cases hret
    simp [checkRunContext] at hctx
  | exceeded _ hskip hhops =>
    have hleft := hinv.hop_left hmax hskip
    omega
  | @visit nodeID queue node current _ hqueue hskip hctx hhops hnode hcurrent hvisit =>
    obtain ⟨events, honce, hleft⟩ := visitNode_left (g.wellFormed.node_id _ _ hnode) hvisit
    refine ⟨?_, hleft.err⟩
    intro n
    rw [hleft.log]
    have hcounted := hinv.counted_visit honce n
    by_cases heq : n = nodeID
    · grind
    · rw [update_of_ne heq] at hcounted
      exact hcounted.trans (hinv.budget n)

def sequentialFuel (g : BasicGraph) (opts : RunOptions) : Nat :=
  g.nodeOrder.length * opts.maxHops * (g.edges.length + 1) + 2

theorem hopsLeft_init_lt (g : Graph) (opts : RunOptions) (env : Envelope) : hopsLeft g opts (sequentialInit g env) <
      sequentialFuel g opts := by
  have hcard : g.nodeOrder.toFinset.card = g.nodeOrder.length :=
    toFinset_card_of_nodup g.wellFormed.nodeOrder_nodup
  simp_all [hopsLeft, sequentialInit, sequentialFuel]

/-- The sequential executor ends on every graph, whatever its nodes, its step
controller and its context do: it executes every node at most `maxHops` times
and never reports that the hop limit was exceeded. -/
theorem executeGraphSequential_terminates (g : Graph) (ctx : Nat → Option String) (env : Envelope)
    (opts : RunOptions) (hmax : 1 ≤ opts.maxHops) :
    ∃ done, (∀ fuel, sequentialFuel g.toBasicGraph opts ≤ fuel →
        executeGraphSequential fuel g.toBasicGraph ctx env opts = some done) ∧
      (∀ n, executions done.log n ≤ opts.maxHops) ∧
      ∀ env' n k, done.ret ≠ .returned env' (some (.maxHopsExceeded n k)) := by
  have hinit := sequentialInit_withinBudget g opts env
  obtain ⟨done, hdone⟩ := runLoop_total (sequentialBody g ctx opts)
    (fun _ _ => sequentialBody_withinBudget) (fun _ _ _ => sequentialBody_hopsLeft) hinit
    (hopsLeft_init_lt g opts env)
  refine ⟨done, fun fuel hfuel => runLoop_mono hdone hfuel, ?_⟩
  exact runLoop_result (sequentialBody g ctx opts)
    (fun done => (∀ n, executions done.log n ≤ opts.maxHops) ∧
      ∀ env' n k, done.ret ≠ .returned env' (some (.maxHopsExceeded n k)))
    (fun _ _ => sequentialBody_withinBudget) (fun _ _ => sequentialBody_done hmax) hinit hdone

def pingPong : Graph :=
  (Graph.build? [newNoopNode "ping", newNoopNode "pong"] [⟨"ping", "pong"⟩, ⟨"pong", "ping"⟩]
    "ping").get (by decide)

/-- The endless cycle is cut after three executions of each node. -/
theorem pingPong_terminates :
    ∃ done, (∀ fuel, 20 ≤ fuel → executeGraphSequential fuel pingPong.toBasicGraph (fun _ => none) {}
        { maxHops := 3, continueOnError := false, concurrency := 1 } = some done) ∧
      (∀ n, executions done.log n ≤ 3) ∧
      ∀ env' n k, done.ret ≠ .returned env' (some (.maxHopsExceeded n k)) := by
  have hfuel : sequentialFuel pingPong
      { maxHops := 3, continueOnError := false, concurrency := 1 } = 20 := by decide
  obtain ⟨done, hends, hcount, herr⟩ := executeGraphSequential_terminates pingPong (fun _ => none) {}
    { maxHops := 3, continueOnError := false, concurrency := 1 } (by decide)
  exact ⟨done, fun fuel hle => hends fuel (hfuel ▸ hle), hcount, herr⟩

def ErrorsThreaded (current : Option Envelope) (log : List Event) : Prop :=
  ∃ env, current = some env ∧ env.errors.map failureOf = failures log

theorem EnvelopeModification.apply_errors (m : EnvelopeModification) (env : Envelope) :
    (m.apply env).errors = env.errors := by
  have hset : ∀ (vars : Vars) (e : Envelope), (vars.foldl (fun e v => e.setVar v.1 v.2) e).errors = e.errors := by
    intro vars
    induction vars with
    | nil => exact fun _ => rfl
    | cons v rest ih => exact fun e => ih _
  have hdelete : ∀ (names : List String) (e : Envelope), (names.foldl Envelope.deleteVar e).errors = e.errors := by
    intro names
    induction names with
    | nil => exact fun _ => rfl
    | cons name rest ih => exact fun e => ih _
  rw [apply, hdelete, hset]
  rfl

variable {env : Envelope}

theorem handleStepPoint_errors {env' : Envelope} {hopCount : Nat}
    (hmodified : (handleStepPoint g opts t node env point hopCount nodeErr).modifiedEnv = some env') :
    env'.errors = env.errors := by
  unfold handleStepPoint at hmodified
  split at hmodified
  · cases hmodified
  · split at hmodified
    · split at hmodified
      · cases hmodified
      · dsimp only at hmodified
        split at hmodified
        · obtain ⟨m, _, rfl⟩ := Option.map_eq_some_iff.mp hmodified
          exact m.apply_errors env
        · cases hmodified
    · cases hmodified

theorem handleSequentialBeforeStep_errors (g : BasicGraph) (opts : RunOptions) (t : Nat) (node : Node)
    (current : Envelope) (attempt : Nat) :
    (handleSequentialBeforeStep g opts t node current attempt).current.errors = current.errors := by
  have hmodified : ((handleStepPoint g opts t node current .beforeNode attempt none).modifiedEnv.getD
      current).errors = current.errors := by
    cases hsome : (handleStepPoint g opts t node current .beforeNode attempt none).modifiedEnv with
    | none => rfl
    | some env' => exact handleStepPoint_errors hsome
  grind [handleSequentialBeforeStep]

theorem enqueueSuccessors_threaded (hs : ErrorsThreaded s.current s.log)
    (henqueue : enqueueSuccessors g node nodeID s = .inl s') : ErrorsThreaded s'.current s'.log := by
  obtain ⟨env, henv, herrors⟩ := hs
  unfold enqueueSuccessors at henqueue
  split at henqueue
  · cases henqueue
  · next succ hsucc =>
    cases henqueue
    rw [henv] at hsucc
    obtain ⟨env', henv', hsame⟩ := determineSuccessors_errors hsucc
    refine ⟨env', henv', ?_⟩
    rw [failures_append, (determineSuccessors_interim hsucc).quiet.failures, append_nil, hsame, herrors]

theorem visitNode_ret (hvisit : visitNode g opts t node nodeID attempt current s = .inr done)
    (final : Option Envelope) : done.ret ≠ .returned final none := by
  grind [enqueueSuccessors, visitNode, runSequentialNode]

section

variable {g : Graph} (hkeeps : KeepsErrors g) (hnode : g.nodeByID nodeID = some node)
include hkeeps hnode

theorem resolveSequentialNodeOutcome_threaded {result : Option Envelope} {log : List Event}
    (hcurrent : current.errors.map failureOf = failures log)
    (hresolve : resolveSequentialNodeOutcome opts node nodeID attempt (executeNode node t current).1 = (result, none))
    : ErrorsThreaded result (log ++ (executeNode node t current).2) := by
  have hreported := executeNode_failures node t current
  cases hrun : node.run t current with
  | ok returned =>
    simp only [executeNode, hrun, resolveSequentialNodeOutcome, Prod.mk.injEq, and_true] at hresolve
    rw [hrun] at hreported
    obtain ⟨env', henv', herrors⟩ := (hkeeps nodeID node hnode).ok t current returned hrun
    refine ⟨env', hresolve ▸ henv', ?_⟩
    rw [failures_append, hreported, append_nil, herrors, hcurrent]
  | failed message received =>
    have herrors := (hkeeps nodeID node hnode).failed t current message received hrun
    simp only [executeNode, hrun, resolveSequentialNodeOutcome] at hresolve
    rw [hrun] at hreported
    split at hresolve
    · cases hresolve
      refine ⟨_, rfl, ?_⟩
      rw [Envelope.appendError_errors, map_append, herrors, hcurrent, failures_append, hreported,
        g.wellFormed.node_id _ _ hnode]
      rfl
    · cases hresolve

theorem runSequentialNode_threaded (hcurrent : current.errors.map failureOf = failures s.log)
    (hrun : runSequentialNode g opts t node nodeID attempt current s = .inl s') :
    ErrorsThreaded s'.current s'.log := by
  unfold runSequentialNode at hrun
  dsimp only at hrun
  split at hrun
  · cases hrun
  · split at hrun
    · cases hrun
    · next result hresolve =>
      refine enqueueSuccessors_threaded ?_ hrun
      obtain ⟨env', henv', herrors⟩ := resolveSequentialNodeOutcome_threaded hkeeps hnode hcurrent hresolve
      have hquiet := (handleSequentialAfterStep_interim g opts t node current
        (executeNode node t current).1 attempt).quiet
      refine ⟨env', henv', ?_⟩
      rw [failures_append, hquiet.failures, append_nil, herrors]

theorem visitNode_threaded (hcurrent : current.errors.map failureOf = failures s.log)
    (hvisit : visitNode g opts t node nodeID attempt current s = .inl s') : ErrorsThreaded s'.current s'.log := by
  have hbefore := handleSequentialBeforeStep_errors g opts t node current attempt
  have hquiet := (handleSequentialBeforeStep_interim g opts t node current attempt).quiet
  have hthreaded : (handleSequentialBeforeStep g opts t node current attempt).current.errors.map
      failureOf = failures (s.log ++ (handleSequentialBeforeStep g opts t node current attempt).events) := by
    rw [failures_append, hquiet.failures, append_nil, hbefore, hcurrent]
  unfold visitNode at hvisit
  dsimp only at hvisit
  split at hvisit
  · cases hvisit
  · split at hvisit
    · exact enqueueSuccessors_threaded ⟨_, rfl, hthreaded⟩ hvisit
    · exact runSequentialNode_threaded hkeeps hnode hthreaded hvisit

omit hnode

theorem sequentialBody_threaded (hs : ErrorsThreaded s.current s.log)
    (hbody : sequentialBody g ctx opts s = .inl s') : ErrorsThreaded s'.current s'.log := by
  cases sequentialBody_iteration hbody with
  | skipped => exact hs
  | visit hqueue hskip hctx hhops hnode hcurrent hvisit =>
    obtain ⟨env, henv, herrors⟩ := hs
    rw [hcurrent] at henv
    cases henv
    refine visitNode_threaded hkeeps hnode ?_ hvisit
    exact herrors

theorem executeGraphSequential_errors (henv : env.errors = []) {fuel : Nat}
    {final : Option Envelope} (hrun : executeGraphSequential fuel g ctx env opts = some done)
    (hret : done.ret = .returned final none) : ErrorsThreaded final done.log := by
  have hinit : ErrorsThreaded (sequentialInit g env).current (sequentialInit g env).log :=
    ⟨env, rfl, by rw [henv]; rfl⟩
  refine runLoop_result (sequentialBody g ctx opts)
    (fun done => ∀ final, done.ret = .returned final none → ErrorsThreaded final done.log)
    (fun _ _ => sequentialBody_threaded hkeeps) ?_ hinit hrun final hret
  intro s done hs hbody final hret
  cases sequentialBody_iteration hbody with
  | finished =>
    cases hret
    exact hs
  | canceled | exceeded | notFound | nilEnvelope => cases hret
  | visit hqueue hskip hctx hhops hnode hcurrent hvisit => exact absurd hret (visitNode_ret hvisit final)

end

section

variable {g : Graph} {Good : Envelope → Prop}

theorem handleStepPoint_continues (hcont : opts.Continues) (g : BasicGraph) (t : Nat) (node : Node)
    (env : Envelope) (point : StepPoint) (hopCount : Nat) (nodeErr : Option String) :
    (handleStepPoint g opts t node env point hopCount nodeErr).err = none ∧
      (handleStepPoint g opts t node env point hopCount nodeErr).modifiedEnv = none ∧
      (handleStepPoint g opts t node env point hopCount nodeErr).action ≠ .abort ∧
      (handleStepPoint g opts t node env point hopCount nodeErr).action ≠ .skipNode := by
  unfold handleStepPoint
  cases hctrl : opts.stepController with
  | none => simp [StepDecision.proceed]
  | some ctrl =>
    obtain ⟨resp, hresp, haction, hmodified⟩ :=
      hcont ctrl hctrl t (stepRequest g node env point hopCount nodeErr)
    grind [StepDecision.proceed]

theorem handleSequentialBeforeStep_continues (hcont : opts.Continues) (g : BasicGraph) (t : Nat)
    (node : Node) (current : Envelope) (attempt : Nat) :
    (handleSequentialBeforeStep g opts t node current attempt).err = none ∧
      (handleSequentialBeforeStep g opts t node current attempt).current = current ∧
      (handleSequentialBeforeStep g opts t node current attempt).skipNode = false := by
  grind [handleStepPoint_continues, handleSequentialBeforeStep]

theorem handleSequentialAfterStep_continues (hcont : opts.Continues) (g : BasicGraph) (t : Nat)
    (node : Node) (current : Envelope) (outcome : Outcome) (attempt : Nat) :
    (handleSequentialAfterStep g opts t node current outcome attempt).1 = none := by
  unfold handleSequentialAfterStep
  grind [handleStepPoint_continues]

section straight

variable {start : Option Envelope} {r : SequentialState ⊕ Finished} (hstraight : Straight g Good)
  (hcont : opts.Continues) (hnode : g.nodeByID nodeID = some node)
  (hstart : ∃ env, start = some env ∧ Good env) (hcurrent : start = some current)
  (hvisit : visitNode g opts t node nodeID attempt current s = r)
include hstraight hcont hnode hstart hcurrent hvisit

theorem visitNode_straight_events :
    ∃ before after env', Good env' ∧ Interim before ∧ Interim after ∧ node.run t current = .ok (some env') ∧
      r = .inl { s with
        visited := Function.update s.visited nodeID true
        queue := s.queue ++ g.successors nodeID
        current := some env'
        log := s.log ++ (before ++ (executeNode node t current).2 ++ after) } := by
  obtain ⟨_, rfl, hgood⟩ := hstart
  cases hcurrent
  subst hvisit
  have hid := g.wellFormed.node_id _ _ hnode
  obtain ⟨hbefore, hsame, hskip⟩ := handleSequentialBeforeStep_continues hcont g t node current attempt
  have hinterim := handleSequentialBeforeStep_interim g opts t node current attempt
  generalize hstep : handleSequentialBeforeStep g opts t node current attempt = before at *
  obtain ⟨env', hrun, hgood'⟩ := hstraight.run nodeID node hnode t current hgood
  have hafter := handleSequentialAfterStep_continues hcont g t node current
    (.ok (some env')) attempt
  have hinterim' := handleSequentialAfterStep_interim g opts t node current
    (.ok (some env')) attempt
  have hsucc := determineSuccessors_all (g := g) (hstraight.router nodeID node hnode)
    (hstraight.hint node.id env' hgood')
  refine ⟨before.events, (handleSequentialAfterStep g opts t node current (.ok (some env')) attempt).2,
    env', hgood', hinterim, hinterim', hrun, ?_⟩
  have houtcome : (executeNode node t current).1 = .ok (some env') := hrun
  simp only [visitNode, hstep, hbefore, hskip, hsame, Bool.false_eq_true, if_false, runSequentialNode, houtcome,
    hafter, resolveSequentialNodeOutcome, enqueueSuccessors, hsucc, hid, append_nil, append_assoc]

theorem visitNode_straight : ∃ events env', Good env' ∧ r = .inl { s with
        visited := Function.update s.visited nodeID true
        queue := s.queue ++ g.successors nodeID
        current := some env'
        log := s.log ++ events } ∧
      ∀ id, executions events id = if id = nodeID then 1 else 0 := by
  have hid := g.wellFormed.node_id _ _ hnode
  obtain ⟨before, after, env', hgood', hbefore, hafter, _, hvisited⟩ :=
    visitNode_straight_events hstraight hcont hnode hstart hcurrent hvisit
  refine ⟨_, env', hgood', hvisited, fun id => ?_⟩
  rw [executions_append, executions_append, hbefore.quiet.executions, hafter.quiet.executions,
    executeNode_executions, hid]
  by_cases heq : nodeID = id <;> simp [heq, eq_comm]

end straight

/-- The invariant of the loop on a straight graph: an execution is queued for
every successor of every execution. -/
structure PathsFollowed (g : Graph) (Good : Envelope → Prop) (s : SequentialState) : Prop where
  current : ∃ env, s.current = some env ∧ Good env
  queue : ∀ id ∈ s.queue, id ∈ g.nodeOrder
  counted : ∀ id, s.hopCount id = executions s.log id
  followed : ∀ id, executions s.log id + s.queue.count id =
    (if id = g.entry then 1 else 0) + ∑ m ∈ g.preds id, executions s.log m

theorem sequentialInit_pathsFollowed (g : Graph) (hgood : Good env) :
    PathsFollowed g Good (sequentialInit g env) := by
  refine ⟨⟨env, rfl, hgood⟩, ?_, fun _ => rfl, ?_⟩
  · intro id hid
    rw [List.mem_singleton.mp hid]
    exact g.entry_mem
  · intro id
    by_cases hid : id = g.entry
    · simp [sequentialInit, hid]
    · simp [sequentialInit, hid, Ne.symm hid]

theorem PathsFollowed.hopCount_lt (hs : PathsFollowed g Good s) (hacyclic : g.Acyclic)
    (hpaths : ∀ id, g.pathCount id ≤ opts.maxHops) (hqueued : nodeID ∈ s.queue) :
    s.hopCount nodeID < opts.maxHops := by
  have hle := Graph.le_pathCount hacyclic (f := fun id => executions s.log id + s.queue.count id)
    (fun id => by
      rw [hs.followed id]
      simp [Finset.sum_le_sum]) nodeID
  have hpath := hpaths nodeID
  have hcount := count_pos_iff.mpr hqueued
  have hcounted := hs.counted nodeID
  omega

theorem shouldSkipVisitedNode_eq_false {visited : String → Bool} {hopCount : String → Nat} {maxHops : Nat}
    (hlt : hopCount nodeID < maxHops) : shouldSkipVisitedNode nodeID visited hopCount maxHops = false := by
  unfold shouldSkipVisitedNode
  split
  · rfl
  · simpa using hlt

variable (hacyclic : g.Acyclic) (hstraight : Straight g Good) (hcont : opts.Continues)
  (hpaths : ∀ id, g.pathCount id ≤ opts.maxHops)
include hacyclic hstraight hcont hpaths

theorem sequentialBody_pathsFollowed (hs : PathsFollowed g Good s)
    (hbody : sequentialBody g (fun _ => none) opts s = .inl s') : PathsFollowed g Good s' := by
  cases sequentialBody_iteration hbody with
  | skipped hqueue hskip =>
    rw [shouldSkipVisitedNode_eq_false (hs.hopCount_lt hacyclic hpaths (by simp [hqueue]))] at hskip
    cases hskip
  | @visit nodeID queue node current _ hqueue hskip hctx hhops hnode hcurrent hvisit =>
    obtain ⟨events, env', hgood', hvisited, hevents⟩ :=
      visitNode_straight hstraight hcont hnode hs.current hcurrent hvisit
    cases hvisited
    refine ⟨⟨env', rfl, hgood'⟩, ?_, ?_, ?_⟩
    · intro id hid
      rcases mem_append.mp hid with hid | hid
      · exact hs.queue id (by rw [hqueue]; exact List.mem_cons_of_mem _ hid)
      · exact (show g.Edge nodeID id from hid).mem_nodeOrder.2
    · intro id
      rw [executions_append, hevents]
      by_cases heq : id = nodeID
      · simp [heq, hs.counted]
      · simp [heq, hs.counted]
    · intro id
      have hbefore := hs.followed id
      rw [hqueue, count_cons] at hbefore
      simp only [executions_append, hevents, sum_add_distrib, sum_ite_eq', count_append, Graph.count_successors]
      grind

theorem sequentialBody_returned (hs : PathsFollowed g Good s)
    (hbody : sequentialBody g (fun _ => none) opts s = .inr done) :
    (∃ final, done.ret = .returned (some final) none) ∧ ∀ id, executions done.log id = g.pathCount id := by
  cases sequentialBody_iteration hbody with
  | finished hqueue =>
    obtain ⟨final, hfinal, _⟩ := hs.current
    refine ⟨⟨final, by rw [hfinal]⟩, ?_⟩
    apply Graph.eq_pathCount hacyclic
    intro id
    have hfollowed := hs.followed id
    rwa [hqueue, count_nil, Nat.add_zero] at hfollowed
  | canceled hctx => cases hctx
  | exceeded hqueue _ hhops =>
    have hlt : s.hopCount _ < opts.maxHops :=
      hs.hopCount_lt hacyclic hpaths (by rw [hqueue]; exact List.mem_cons_self)
    omega
  | notFound hqueue hnode =>
    obtain ⟨node, hfound, _⟩ := g.exists_node (hs.queue _ (by rw [hqueue]; exact List.mem_cons_self))
    rw [hfound] at hnode
    cases hnode
  | nilEnvelope hcurrent =>
    obtain ⟨current, hsome, _⟩ := hs.current
    rw [hcurrent] at hsome
    cases hsome
  | @visit nodeID queue node current _ hqueue hskip hctx hhops hnode hcurrent hvisit =>
    obtain ⟨_, _, _, hvisited, _⟩ := visitNode_straight hstraight hcont hnode hs.current hcurrent hvisit
    cases hvisited

theorem sequential_executions (hgood : Good env) : ∃ done final, (∀ fuel, sequentialFuel g opts ≤ fuel →
        executeGraphSequential fuel g (fun _ => none) env opts = some done) ∧
      done.ret = .returned (some final) none ∧ ∀ id, executions done.log id = g.pathCount id := by
  have hinit := sequentialInit_pathsFollowed g hgood
  obtain ⟨done, hdone⟩ := runLoop_total (sequentialBody g (fun _ => none) opts)
    (fun _ _ => sequentialBody_pathsFollowed hacyclic hstraight hcont hpaths)
    (fun _ _ _ => sequentialBody_hopsLeft) hinit (hopsLeft_init_lt g opts env)
  obtain ⟨⟨final, hret⟩, hcount⟩ := runLoop_result (sequentialBody g (fun _ => none) opts)
    (fun done => (∃ final, done.ret = .returned (some final) none) ∧
      ∀ id, executions done.log id = g.pathCount id)
    (fun _ _ => sequentialBody_pathsFollowed hacyclic hstraight hcont hpaths)
    (fun _ _ => sequentialBody_returned hacyclic hstraight hcont hpaths) hinit hdone
  exact ⟨done, final, fun fuel hfuel => runLoop_mono hdone hfuel, hret, hcount⟩

end

def StartsAfter (log : List Event) (node earlier : String) : Prop :=
  ∀ before e after, log = before ++ e :: after → e.isOf .nodeStarted node = true →
    ∃ f ∈ before, f.isOf .nodeFinished earlier = true

theorem StartsAfter.append {log : List Event} {node earlier : String} (hlog : StartsAfter log node earlier)
    (hevents : (∃ f ∈ log, f.isOf .nodeFinished earlier = true) ∨ ∀ e ∈ events, e.isOf .nodeStarted node = false) :
    StartsAfter (log ++ events) node earlier := by
  intro before e after hsplit hstart
  rcases append_eq_append_iff.mp hsplit with ⟨mid, rfl, hrest⟩ | ⟨mid, hinside, hrest⟩
  · -- the start is one of the new events
    grind
  · cases mid with
    | nil => grind
    | cons e' mid =>
      rw [cons_append, List.cons.injEq] at hrest
      obtain ⟨rfl, _⟩ := hrest
      exact hlog before e mid hinside hstart

variable {g : Graph} {Good : Envelope → Prop}

def Nearer (g : Graph) (near far : String) : Prop :=
  ∃ k, Reach g.Edge g.entry k near ∧ ∀ j, Reach g.Edge g.entry j far → k < j

/-- The invariant of the loop on a straight graph: it walks the graph from the
entry, and nearer nodes come first. -/
structure WalksInOrder (g : Graph) (Good : Envelope → Prop) (s : SequentialState) : Prop where
  current : ∃ env, s.current = some env ∧ Good env
  walk : ∃ queue done, queue.map Prod.fst = s.queue ∧ Walk g.Edge g.entry queue done ∧
    (∀ id, s.visited id = true → ∃ x ∈ done, x.1 = id) ∧
    ∀ x ∈ done, ∃ f ∈ s.log, f.isOf .nodeFinished x.1 = true
  order : ∀ near far, Nearer g near far → StartsAfter s.log far near

theorem sequentialInit_walksInOrder (g : Graph) (hgood : Good env) : WalksInOrder g Good (sequentialInit g env) := by
  refine ⟨⟨env, rfl, hgood⟩, ⟨[(g.entry, 0)], [], rfl, .init _ _, nofun, nofun⟩, ?_⟩
  intro near far _ before e after hsplit
  exact absurd hsplit (by simp [sequentialInit])

theorem executeNode_finished {env' : Envelope} (hrun : node.run t env = .ok (some env')) :
    ∃ f ∈ (executeNode node t env).2, f.isOf .nodeFinished node.id = true := by
  simp_all [nodeEnded, executeNode, Event.isOf, Event.withNode, Event.newEvent]

theorem not_started_of_ne {before after : List Event} (hbefore : Interim before) (hafter : Interim after)
    {id : String} (hne : node.id ≠ id) (t : Nat) (env : Envelope) :
    ∀ e ∈ before ++ (executeNode node t env).2 ++ after, e.isOf .nodeStarted id = false := by
  have hcount : executions (before ++ (executeNode node t env).2 ++ after) id = 0 := by
    rw [executions_append, executions_append, hbefore.quiet.executions, hafter.quiet.executions,
      executeNode_executions, if_neg hne]
  intro e he
  exact Bool.eq_false_iff.mpr (countP_eq_zero.mp hcount e he)

theorem tagged_cons {queue : List (String × Nat)} {rest : List String} (hqueue : queue.map Prod.fst = nodeID :: rest) :
    ∃ k tail, queue = (nodeID, k) :: tail ∧ tail.map Prod.fst = rest := by
  cases queue with
  | nil => cases hqueue
  | cons x tail => grind

theorem sequentialBody_walksInOrder (hstraight : Straight g Good) (hcont : opts.Continues) (hs : WalksInOrder g Good s)
    (hbody : sequentialBody g ctx opts s = .inl s') : WalksInOrder g Good s' := by
  have hiter := sequentialBody_iteration hbody
  obtain ⟨queue, done, hqueued, hwalk, hvisited, hfinished⟩ := hs.walk
  cases hiter with
  | @skipped nodeID rest hqueue hskip =>
    obtain ⟨k, tail, rfl, htail⟩ := tagged_cons (hqueued.trans hqueue)
    have hdone := hvisited nodeID (by simp_all [shouldSkipVisitedNode])
    exact { hs with walk := ⟨tail, done, htail, hwalk.skip hdone, hvisited, hfinished⟩ }
  | @visit nodeID rest node current _ hqueue hskip hctx hhops hnode hcurrent hvisit =>
    obtain ⟨k, tail, rfl, htail⟩ := tagged_cons (hqueued.trans hqueue)
    obtain ⟨before, after, env', hgood', hbefore, hafter, hrun, hvisited'⟩ :=
      visitNode_straight_events hstraight hcont hnode hs.current hcurrent hvisit
    cases hvisited'
    have hid := g.wellFormed.node_id _ _ hnode
    refine ⟨⟨env', rfl, hgood'⟩, ?_, ?_⟩
    · refine ⟨_, _, ?_, hwalk.visit (g.successors nodeID) (fun b => Iff.rfl), ?_, ?_⟩
      · simp [htail, Function.comp_def]
      · grind [List.mem_cons_self]
      grind [executeNode_finished]
    · intro near far hnearer
      refine (hs.order near far hnearer).append ?_
      by_cases heq : nodeID = far
      · obtain ⟨length, hreach, hshorter⟩ := hnearer
        obtain ⟨x, hx, rfl⟩ := hwalk.done_of_nearer hreach (heq ▸ hshorter)
        exact .inl (hfinished x hx)
      grind [not_started_of_ne]

theorem starts_after_nearer (hstraight : Straight g Good) (hcont : opts.Continues) (ctx : Nat → Option String)
    (hgood : Good env) {fuel : Nat}
    (hrun : executeGraphSequential fuel g ctx env opts = some done) {near far : String}
    (hnearer : Nearer g near far) : StartsAfter done.log far near := by
  have hleft : ∀ s r, WalksInOrder g Good s → sequentialBody g ctx opts s = .inr r → r.log = s.log := by
    intro s r hs hbody
    cases sequentialBody_iteration hbody with
    | finished | canceled | exceeded | notFound | nilEnvelope => rfl
    | @visit nodeID rest node current _ hqueue hskip hctx hhops hnode hcurrent hvisit =>
      obtain ⟨_, _, _, hvisited, _⟩ := visitNode_straight hstraight hcont hnode hs.current hcurrent hvisit
      cases hvisited
  refine runLoop_result _ (I := WalksInOrder g Good) (fun r => StartsAfter r.log far near)
    (fun s s' hs hbody => sequentialBody_walksInOrder hstraight hcont hs hbody) ?_
    (sequentialInit_walksInOrder g hgood) hrun
  intro s r hs hbody
  rw [hleft s r hs hbody]
  exact hs.order near far hnearer

end petalflow.runtime
