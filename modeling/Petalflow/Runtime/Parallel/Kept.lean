import Petalflow.Runtime.Parallel.Flow

open petalflow.core petalflow.graph pool List Multiset

namespace petalflow.runtime

open ParallelState

/-- The nodes keep the envelopes of a run within `Good`: their runs, their merges
and the clearing of a redirect hint. -/
structure Keeps (g : Graph) (Good : Envelope → Prop) : Prop where
  run : ∀ id node, g.nodeByID id = some node → ∀ t env env', Good env → node.run t env = .ok (some env') → Good env'
  merge : ∀ id node merge merger, g.nodeByID id = some node → node.mergeCapable = some merge →
    merge.mergeInputs = some merger → ∀ t inputs env', (∀ env ∈ inputs, Good env) →
    merger t inputs = .merged env' → Good env'
  redirect : ∀ id env target, Good env → redirectTarget (g.successors id) env = some target →
    Good (env.setVar gateRedirect .nil)

variable {g : Graph} {Good : Envelope → Prop} {node : Node} {opts : RunOptions} {env : Envelope}

theorem Keeps.route (hkeeps : Keeps g Good) {env' : Envelope} {succ : Successors}
    (hgood : Good env) (hsucc : determineSuccessors g node (some env) = some succ)
    (henv : succ.envelope = some env') : Good env' := by
  unfold determineSuccessors at hsucc
  split at hsucc
  · cases hsucc
    cases henv
    exact hgood
  · cases hsucc
    unfold routeSuccessors at henv
    split at henv
    · next target htarget =>
      cases henv
      exact hkeeps.redirect _ env target hgood htarget
    grind

theorem Keeps.merged (hkeeps : Keeps g Good) {t : Nat} {id : String}
    {merge : MergeCapable} {inputs : List Envelope} {merged : Envelope} {errs : List NodeError}
    {calls : List Call} (hnode : g.nodeByID id = some node) (hmerge : node.mergeCapable = some merge)
    (hmerged : Merged opts t id node.kind merge inputs merged errs calls)
    (hinputs : ∀ env ∈ inputs, Good env) : Good merged := by
  cases hmerged with
  | first _ hhead | fallback _ _ _ hhead => exact hinputs _ (mem_of_mem_head? hhead)
  | merged hsome hok => exact hkeeps.merge id node merge _ hnode hmerge hsome t inputs _ hinputs hok

namespace Ledger

/-- All envelopes of the run are good ones: those being executed, handled,
scheduled, waiting in a merge node or kept in a record, and the one returned. -/
structure AllGood (Good : Envelope → Prop) (v : Ledger) : Prop where
  items : ∀ item ∈ v.items, Good item.envelope
  received : ∀ r ∈ receivedItems v.calls, Good r.1.envelope
  scheduled : ∀ source resultEnvelope successors, v.phase = .scheduling source resultEnvelope successors →
    Good resultEnvelope
  inputs : ∀ id, ∀ env ∈ v.state.mergeInputs id, Good env
  records : ∀ id, ∀ env ∈ (v.state.stateOf id).envelope, Good env
  returned : ∀ final, v.phase = .stopped (.returned final none) →
    ∃ env, final = some (v.state.appendRecordedErrors env) ∧ Good env

variable {opts : RunOptions} {env : Envelope} {v v' : Ledger} (hv : AllGood Good v)
include hv

theorem AllGood.received_quiet {calls : List Call} (hnone : receivedItems calls = []) :
    ∀ r ∈ receivedItems (v.calls ++ calls), Good r.1.envelope := by
  rw [receivedItems_append, hnone, append_nil]
  exact hv.received

variable {answered : Multiset (WorkItem × NodeResult)} {item : WorkItem} {errs : List NodeError}

theorem AllGood.resolved (hkeeps : Keeps g Good) (hknown : Known g v) {result : NodeResult}
    {resolved : Option Envelope} (hanswer : v.answered = (item, result) ::ₘ answered)
    (hresolved : Resolved g opts result v.state resolved errs) : ∀ env' ∈ resolved, Good env' := by
  intro env' henv
  cases hresolved with
  | fallback => exact hv.records _ env' henv
  | ok herr =>
    obtain ⟨_, _, hnode, _⟩ := hknown.take hanswer
    obtain ⟨t, ht⟩ := hknown.answers (item, result) (by rw [hanswer]; exact Multiset.mem_cons_self _ _)
    obtain ⟨node, hfound, _⟩ := g.exists_node hnode
    have hitem : Good item.envelope := by
      apply hv.items
      rw [items_take hanswer]
      exact Multiset.mem_cons_self _ _
    replace ht : result = runWork g item t := ht
    simp only [runWork, hfound] at ht
    cases hrun : node.run t item.envelope with
    | failed message received =>
      rw [hrun] at ht
      rw [ht] at herr
      cases herr
    | ok envelope =>
      rw [hrun] at ht
      rw [ht] at henv
      replace henv : envelope = some env' := henv
      rw [henv] at hrun
      exact hkeeps.run _ node hfound t _ env' hitem hrun

theorem AllGood.take {result : NodeResult} (hanswer : v.answered = (item, result) ::ₘ answered) :
    (∀ item' ∈ (v.take item result answered).items, Good item'.envelope) ∧
      ∀ calls, receivedItems calls = [(item, result)] →
        ∀ r ∈ receivedItems (v.calls ++ calls), Good r.1.envelope := by
  have hitems := hv.items
  rw [items_take hanswer] at hitems
  refine ⟨fun item' hitem' => hitems item' (Multiset.mem_cons_of_mem hitem'), ?_⟩
  intro calls hreceived r hr
  rw [receivedItems_append, hreceived, mem_append, List.mem_singleton] at hr
  rcases hr with hr | rfl
  · exact hv.received r hr
  · exact hitems item (Multiset.mem_cons_self _ _)

theorem AllGood.complete {nodeID : String} {resolved : Option Envelope}
    (hresolved : ∀ env' ∈ resolved, Good env') (id : String) :
    ∀ env' ∈ ((v.state.complete nodeID resolved errs).stateOf id).envelope, Good env' := by
  rw [complete_stateOf]
  split
  · exact hresolved
  · exact hv.records id

omit hv

theorem leave_returned {final final' : Option Envelope} (henv : Good env) (hfinal : ∀ env' ∈ final, Good env')
    (hphase : (v.leave env final).phase = .stopped (.returned final' none)) :
    ∃ env', final' = some (v.state.appendRecordedErrors env') ∧ Good env' := by
  unfold leave at hphase
  dsimp only at hphase
  split at hphase
  · cases hphase
    refine ⟨_, rfl, ?_⟩
    cases final with
    | none => exact henv
    | some env' => exact hfinal env' rfl
  · cases hphase

include hv

variable {resultEnvelope : Envelope}

theorem AllGood.scheduling {source : String} {successors : List String}
    (hphase : v.phase = .scheduling source resultEnvelope successors) {rest : List String} (source' : String)
    (env' : Envelope) (successors' : List String)
    (hphase' : Phase.scheduling source resultEnvelope rest = .scheduling source' env' successors') : Good env' := by
  cases hphase'
  exact hv.scheduled _ _ _ hphase

theorem AllGood.sent (hitem : Good item.envelope) : ∀ item' ∈ item ::ₘ v.items, Good item'.envelope := by
  intro item' hmem
  rcases Multiset.mem_cons.mp hmem with rfl | hmem
  · exact hitem
  · exact hv.items item' hmem

theorem AllGood.arrived (succID : String) (hgood : Good resultEnvelope) (id : String) :
    ∀ env' ∈ v.state.mergeInputs id ++ (if id = succID then [resultEnvelope] else []), Good env' := by
  intro env' hmem
  rcases mem_append.mp hmem with hmem | hmem
  · exact hv.inputs id env' hmem
  simp_all

theorem Step.allGood {a : Action} (hstep : Step g opts env v a v') (hkeeps : Keeps g Good) (henv : Good env)
    (hknown : Known g v) : AllGood Good v' := by
  cases hstep with
  | start hitem => exact { hv with items := items_start hitem ▸ hv.items }
  | finish t hitem => exact { hv with items := items_finish hitem ▸ hv.items }
  | cancel => exact { hv with scheduled := by simp, returned := by simp }
  | receiveFailed _ hanswer =>
    obtain ⟨hitems, hreceived⟩ := hv.take hanswer
    refine ⟨hitems, hreceived _ rfl, by simp, hv.inputs, ?_, by simp⟩
    intro id env' hmem
    rw [incrementHop_stateOf] at hmem
    split at hmem
    · exact hv.records _ env' hmem
    · exact hv.records id env' hmem
  | receivePanicked _ hanswer =>
    obtain ⟨hitems, hreceived⟩ := hv.take hanswer
    exact ⟨hitems, hreceived _ rfl, by simp, hv.inputs, hv.complete (by simp), by simp⟩
  | receiveAbsent _ hanswer =>
    obtain ⟨hitems, hreceived⟩ := hv.take hanswer
    exact ⟨hitems, hreceived _ rfl, fun _ _ _ hphase => absurd hphase leave_phase_ne, hv.inputs,
      hv.complete (by simp), fun _ hphase => leave_returned henv (by simp) hphase⟩
  | receiveRouted _ hanswer hresolved hnode hsucc hsome =>
    obtain ⟨hitems, hreceived⟩ := hv.take hanswer
    have hgood := hkeeps.route (hv.resolved hkeeps hknown hanswer hresolved _ rfl) hsucc hsome
    refine ⟨hitems, hreceived _ rfl, ?_, hv.inputs, hv.complete ?_, by simp⟩
    · intro source env' successors hphase
      cases hphase
      exact hgood
    · intro env' hmem
      cases hmem
      exact hgood
  | done t hphase =>
    refine { hv with scheduled := fun _ _ _ hphase => absurd hphase leave_phase_ne, returned := ?_ }
    intro final hphase'
    refine leave_returned henv ?_ hphase'
    intro env' hmem
    cases hmem
    exact hv.scheduled _ _ _ hphase
  | refused t hphase =>
    exact ⟨hv.items, hv.received_quiet rfl, hv.scheduling hphase, hv.inputs, by simpa using hv.records, by simp⟩
  | sent t hphase =>
    refine ⟨?_, hv.received_quiet rfl, hv.scheduling hphase, hv.inputs, by simpa using hv.records, by simp⟩
    rw [items_sent]
    exact hv.sent (hv.scheduled _ _ _ hphase)
  | arrived t hphase =>
    refine ⟨hv.items, hv.received_quiet rfl, hv.scheduling hphase, ?_, by simpa using hv.records, by simp⟩
    intro id
    rw [arrive_mergeInputs]
    exact hv.arrived _ (hv.scheduled _ _ _ hphase) id
  | @fired source succID resultEnvelope merged rest node merge errs calls t hphase hnode hmerge _ hmerged =>
    have hgood := hv.scheduled _ _ _ hphase
    have hinputs := hv.arrived succID hgood succID
    rw [if_pos rfl] at hinputs
    have hmerged' := hkeeps.merged hnode hmerge hmerged hinputs
    refine ⟨?_, hv.received_quiet (hmerged.calls_eq ..).2.1, hv.scheduling hphase, ?_, ?_, by simp⟩
    · rw [items_sent]
      exact hv.sent hmerged'
    · intro id
      rw [fire_mergeInputs]
      exact hv.arrived _ hgood id
    · intro id env' hmem
      rw [fire_stateOf] at hmem
      split at hmem
      · cases hmem
        exact hmerged'
      · exact hv.records id env' hmem
  | mergeFailed t hphase =>
    refine ⟨hv.items, hv.received_quiet rfl, by simp, ?_, by simpa using hv.records, ?_⟩
    · intro id
      rw [arrive_mergeInputs]
      exact hv.arrived _ (hv.scheduled _ _ _ hphase) id
    · exact fun final hphase' => absurd (Phase.stopped.inj hphase') (by simp)

omit hv

theorem allGood_of_reachable (hkeeps : Keeps g Good) (henv : Good env)
    (hreach : (ledger g opts env).Reachable v) : AllGood Good v := by
  refine invariant_of_known hreach
    (fun _ _ _ hknown hv _ hstep => Step.allGood hv hstep hkeeps henv hknown) ⟨?_, ?_, ?_, ?_, ?_, ?_⟩
  · simp_all [Ledger.init, items]
  · simp [Ledger.init, receivedItems]
  · simp [Ledger.init]
  · simp [Ledger.init, newParallelState]
  · intro id env' hmem
    by_cases hid : id = g.entry
    · simp_all [Ledger.init, newParallelState, stateOf]
    · simp [Ledger.init, newParallelState, stateOf, hid] at hmem
  · simp [Ledger.init]

end Ledger

def endedOf (g : BasicGraph) (r : WorkItem × NodeResult) : Ended :=
  { nodeID := r.1.nodeID, kind := nodeKindOrUnknown (g.nodeByID r.1.nodeID), err := r.2.err }

def Call.mergeFailure (g : BasicGraph) : Call → Option Failure
  | .mergeInputs id _ (.failed message) =>
    some { nodeID := id, kind := nodeKindOrUnknown (g.nodeByID id), message }
  | _ => none

def Call.failure (g : BasicGraph) : Call → Option Failure
  | .received item result => (endedOf g (item, result)).failure
  | call => call.mergeFailure g

def failedMerges (g : BasicGraph) (calls : List Call) : List Failure := calls.filterMap (Call.mergeFailure g)

theorem filterMap_failure_perm (g : BasicGraph) (calls : List Call) : (calls.filterMap (Call.failure g)).Perm
      (((receivedItems calls).map (endedOf g)).filterMap Ended.failure ++ failedMerges g calls) := by
  induction calls with
  | nil => exact .nil
  | cons call rest ih =>
    have hrest : ∀ {α : Type} (f : Call → Option α), (call :: rest).filterMap f =
        [call].filterMap f ++ rest.filterMap f := by
      intro α f
      rw [← filterMap_append, singleton_append]
    have hreceived : receivedItems (call :: rest) = receivedItems [call] ++ receivedItems rest := hrest _
    rw [failedMerges] at ih ⊢
    rw [hreceived, hrest, hrest, map_append, filterMap_append]
    cases call with
    | received item result => grind [Call.failure, Call.mergeFailure, receivedItems]
    | mergeInputs id inputs outcome => grind [Call.failure, receivedItems]
    | _ => exact ih

namespace Ledger

def reported (v : Ledger) : Multiset (WorkItem × NodeResult) :=
  v.answered + (receivedItems v.calls : List (WorkItem × NodeResult))

variable {opts : RunOptions} {env : Envelope} {v v' : Ledger} {item : WorkItem}
  {result : NodeResult}

theorem reported_take {answered : Multiset (WorkItem × NodeResult)}
    (hanswer : v.answered = (item, result) ::ₘ answered) (hanswered : v'.answered = answered)
    (hcalls : receivedItems v'.calls = receivedItems v.calls ++ [(item, result)]) : v'.reported = v.reported := by
  rw [reported, reported, hanswer, hanswered, hcalls, ← coe_add, coe_singleton, ← add_assoc,
    add_right_comm, add_comm answered, singleton_add]

def Logged (g : Graph) (v : Ledger) : Prop :=
  (endings v.log : Multiset Ended) = v.reported.map (endedOf g.toBasicGraph)

theorem Logged.quiet {events : List Event} (hv : Logged g v) (hlog : v'.log = v.log ++ events)
    (hevents : endings events = []) (hreported : v'.reported = v.reported) : Logged g v' := by
  grind [Logged, endings_append]

theorem finishEvents_endings (hitem : item.nodeID ∈ g.nodeOrder) (t : Nat) :
    endings (finishEvents g item t) = [endedOf g (item, runWork g item t)] := by
  obtain ⟨node, hnode, hid⟩ := g.exists_node hitem
  grind [nodeEnded_ended, nodeKindOrUnknown, endedOf, finishEvents, runWork, endings]

theorem startEvents_endings (g : BasicGraph) (item : WorkItem) : endings (startEvents g item) = [] := by
  unfold startEvents
  cases g.nodeByID item.nodeID with
  | none | some node => rfl

variable {a : Action}

theorem Step.logged (hstep : Step g opts env v a v') (hknown : Known g v) (hv : Logged g v) : Logged g v' := by
  cases hstep with
  | start => exact hv.quiet rfl (startEvents_endings ..) rfl
  | @finish item active t hitem =>
    have hnode : item.nodeID ∈ g.nodeOrder := by
      apply hknown.items
      simp [items, hitem]
    rw [Logged, endings_append, finishEvents_endings hnode, ← coe_add, hv, coe_singleton,
      add_comm, singleton_add, ← Multiset.map_cons, reported, reported, cons_add]
  | cancel => exact hv.quiet (append_nil _).symm rfl rfl
  | receiveFailed _ hanswer | receivePanicked _ hanswer | receiveAbsent _ hanswer =>
    exact hv.quiet (append_nil _).symm rfl (reported_take hanswer rfl (receivedItems_append ..))
  | receiveRouted _ hanswer _ _ hsucc =>
    exact hv.quiet rfl (determineSuccessors_interim hsucc).quiet.endings
      (reported_take hanswer rfl (receivedItems_append ..))
  | fired _ _ _ _ _ hmerged =>
    refine hv.quiet (append_nil _).symm rfl ?_
    rw [reported, reported, receivedItems_append, (hmerged.calls_eq ..).2.1, append_nil]
  | _ => exact hv.quiet (append_nil _).symm rfl (by simp [reported, receivedItems, leave])

theorem logged_of_reachable (hreach : (ledger g opts env).Reachable v) : Logged g v :=
  invariant_of_known hreach (fun _ _ _ hknown hv _ hstep => Step.logged hstep hknown hv) rfl

def ErrorsRecorded (g : Graph) (v : Ledger) : Prop :=
  v.state.recordedErrors.map failureOf = v.calls.filterMap (Call.failure g.toBasicGraph)

variable {errs : List NodeError} {calls : List Call}

theorem ErrorsRecorded.extend (hv : ErrorsRecorded g v) (hcalls : v'.calls = v.calls ++ calls)
    (herrs : v'.state.recordedErrors = v.state.recordedErrors ++ errs)
    (hnew : errs.map failureOf = calls.filterMap (Call.failure g)) : ErrorsRecorded g v' := by
  grind [ErrorsRecorded]

theorem Resolved.failure {state : ParallelState} {resolved : Option Envelope}
    (hresolved : Resolved g opts result state resolved errs) (hid : result.nodeID = item.nodeID) :
    errs.map failureOf = [Call.received item result].filterMap (Call.failure g) := by
  cases hresolved with
  | ok herr => simp [Call.failure, Ended.failure, endedOf, herr]
  | fallback herr => simp [Call.failure, Ended.failure, endedOf, failureOf, herr, hid]

theorem Merged.failure {t : Nat} {succID source : String} {merge : MergeCapable}
    {inputs : List Envelope} {merged resultEnvelope : Envelope}
    (hmerged : Merged opts t succID node.kind merge inputs merged errs calls) (hnode : g.nodeByID succID = some node)
    (item : WorkItem) :
    errs.map failureOf = (Call.addMergeInput succID source resultEnvelope :: calls ++ [Call.sent item]).filterMap
      (Call.failure g) := by
  cases hmerged with
  | first | merged => rfl
  | fallback => simp [List.filterMap_cons, Call.failure, Call.mergeFailure, failureOf, nodeKindOrUnknown, hnode]

theorem Step.errorsRecorded (hstep : Step g opts env v a v') (hknown : Known g v) (hintact : Intact v')
    (hv : ErrorsRecorded g v) : ErrorsRecorded g v' := by
  cases hstep with
  | start | finish | done => exact hv
  | cancel | receiveFailed | receivePanicked | mergeFailed =>
    exact absurd hintact (not_intact_of_stopped rfl (by simp))
  | receiveAbsent _ hanswer hresolved =>
    obtain ⟨_, _, _, hid⟩ := hknown.take hanswer
    exact hv.extend rfl rfl (Resolved.failure hresolved hid)
  | receiveRouted _ hanswer hresolved =>
    obtain ⟨_, _, _, hid⟩ := hknown.take hanswer
    refine hv.extend rfl rfl ((Resolved.failure hresolved hid).trans ?_)
    rfl
  | refused | sent | arrived => exact hv.extend rfl (append_nil _).symm rfl
  | fired _ _ hnode _ _ hmerged => exact hv.extend rfl rfl (Merged.failure hmerged hnode _)

theorem errorsRecorded_of_reachable (hreach : (ledger g opts env).Reachable v) (hintact : Intact v) :
    ErrorsRecorded g v := by
  refine hreach.invariant_back hintact (fun _ _ _ hstep => Step.intact hstep) ?_ rfl
  intro v a v' hreach hv hintact hstep
  exact Step.errorsRecorded hstep (known_of_reachable hreach) hintact hv

theorem keeps_of_keepsErrors (hkeeps : KeepsErrors g) : Keeps g fun env => env.errors = [] where
  run := by
    intro id node hnode t env env' hgood hrun
    obtain ⟨returned, hsome, herrors⟩ := (hkeeps id node hnode).ok t env _ hrun
    cases hsome
    rw [herrors, hgood]
  merge := fun id node merge merger hnode hmerge => (hkeeps id node hnode).merge merge hmerge merger
  redirect := fun _ _ _ hgood _ => hgood

theorem failures_of_returned (hreach : (ledger g opts env).Reachable v) {final : Option Envelope}
    (hphase : v.phase = .stopped (.returned final none)) :
    (failures v.log).Perm (((receivedItems v.calls).map (endedOf g)).filterMap Ended.failure) := by
  have hlogged := logged_of_reachable hreach
  have hitems := drained_of_reachable hreach final hphase
  simp only [items, add_eq_zero, Multiset.map_eq_zero] at hitems
  rw [Logged, reported, hitems.2, zero_add, map_coe, coe_eq_coe] at hlogged
  exact hlogged.filterMap _

end Ledger

theorem ParallelState.appendRecordedErrors_errors (p : ParallelState) (target : Envelope) :
    (p.appendRecordedErrors target).errors = target.errors ++ p.recordedErrors := by
  rw [appendRecordedErrors]
  generalize p.recordedErrors = errs
  induction errs generalizing target with
  | nil => exact (append_nil _).symm
  | cons err rest ih => simp_all

theorem executeGraphParallel_errors (hkeeps : KeepsErrors g)
    (henv : env.errors = []) (hconc : 0 < opts.concurrency) {s : State opts.concurrency}
    (hreach : (executeGraphParallel g opts env).Reachable s) {final : Option Envelope}
    (hdone : s.coordinator = .returned (.returned final none)) :
    ∃ env', final = some env' ∧ (env'.errors.map failureOf).Perm (failures s.log ++ failedMerges g s.calls) := by
  have hview := ledger_reachable hconc hreach
  have hphase : s.ledger.phase = .stopped (.returned final none) := congrArg Coordinator.phase hdone
  obtain ⟨last, hfinal, hlast⟩ :=
    (Ledger.allGood_of_reachable (Ledger.keeps_of_keepsErrors hkeeps) henv hview).returned final hphase
  have hrecorded := Ledger.errorsRecorded_of_reachable hview (Ledger.intact_of_returned hphase)
  refine ⟨_, hfinal, ?_⟩
  rw [ParallelState.appendRecordedErrors_errors, hlast, nil_append, hrecorded]
  refine (filterMap_failure_perm g s.ledger.calls).trans ?_
  rw [State.ledger_calls_of_returned hdone]
  refine Perm.append_right _ ?_
  rw [← State.ledger_calls_of_returned hdone]
  exact (Ledger.failures_of_returned hview hphase).symm

end petalflow.runtime
