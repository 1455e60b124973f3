import Petalflow.Runtime.EventLog
import Petalflow.Runtime.Parallel.Fallback

open petalflow.core petalflow.graph machine pool List Finset
open channel (Chan)

namespace petalflow.runtime

section

open ParallelState Multiset

/-! What the calls of the coordinator say about a run. -/

def sentItems (calls : List Call) : List WorkItem :=
  calls.filterMap fun
    | .sent item => some item
    | _ => none

def receivedItems (calls : List Call) : List (WorkItem × NodeResult) :=
  calls.filterMap fun
    | .received item result => some (item, result)
    | _ => none

def arrivals (nodeID : String) (calls : List Call) : List (String × Envelope) :=
  calls.filterMap fun
    | .addMergeInput id source env => if id = nodeID then some (source, env) else none
    | _ => none

def sentCount (calls : List Call) (nodeID : String) : Nat := (sentItems calls).countP (·.nodeID = nodeID)

def receivedCount (calls : List Call) (nodeID : String) : Nat :=
  (receivedItems calls).countP (·.1.nodeID = nodeID)

@[simp] theorem sentItems_append (left right : List Call) :
    sentItems (left ++ right) = sentItems left ++ sentItems right :=
  filterMap_append

@[simp] theorem receivedItems_append (left right : List Call) :
    receivedItems (left ++ right) = receivedItems left ++ receivedItems right :=
  filterMap_append

@[simp] theorem arrivals_append (nodeID : String) (left right : List Call) :
    arrivals nodeID (left ++ right) = arrivals nodeID left ++ arrivals nodeID right :=
  filterMap_append

@[simp] theorem sentCount_append (left right : List Call) (nodeID : String) :
    sentCount (left ++ right) nodeID = sentCount left nodeID + sentCount right nodeID := by
  simp [sentCount]

@[simp] theorem receivedCount_append (left right : List Call) (nodeID : String) :
    receivedCount (left ++ right) nodeID = receivedCount left nodeID + receivedCount right nodeID := by
  simp [receivedCount]

theorem arrivals_singleton (id succID source : String) (env : Envelope) :
    arrivals id [.addMergeInput succID source env] = if id = succID then [(source, env)] else [] := by
  by_cases hid : id = succID
  · simp [arrivals, hid]
  · simp [arrivals, hid, Ne.symm hid]

theorem Merged.calls_eq {opts : RunOptions} {t : Nat} {succID : String} {kind : NodeKind}
    {merge : MergeCapable} {inputs : List Envelope} {merged : Envelope} {errs : List NodeError}
    {calls : List Call} (hmerged : Merged opts t succID kind merge inputs merged errs calls)
    (source : String) (env : Envelope) (item : WorkItem) :
    sentItems (.addMergeInput succID source env :: calls ++ [.sent item]) = [item] ∧
      receivedItems (.addMergeInput succID source env :: calls ++ [.sent item]) = [] ∧
      ∀ id, arrivals id (.addMergeInput succID source env :: calls ++ [.sent item]) =
        if id = succID then [(source, env)] else [] := by
  have hnone : sentItems calls = [] ∧ receivedItems calls = [] ∧ ∀ id, arrivals id calls = [] := by
    cases hmerged with
    | first | merged | fallback => exact ⟨rfl, rfl, fun _ => rfl⟩
  obtain ⟨hsent, hreceived, harrivals⟩ := hnone
  rw [cons_append, ← singleton_append]
  refine ⟨?_, ?_, fun id => ?_⟩
  · rw [sentItems_append, sentItems_append, hsent]
    rfl
  · rw [receivedItems_append, receivedItems_append, hreceived]
    rfl
  grind [arrivals_append, arrivals]

namespace Ledger

variable {g : Graph} {opts : RunOptions} {env : Envelope} {v v' : Ledger} {a : Action}

theorem Step.calls_append (hstep : Step g opts env v a v') : ∃ calls, v'.calls = v.calls ++ calls := by
  cases hstep with
  | start | finish | cancel | done => exact ⟨[], (append_nil _).symm⟩
  | _ => exact ⟨_, rfl⟩

theorem Step.receivedItems_eq (hstep : Step g opts env v a v') : receivedItems v'.calls = receivedItems v.calls ∨
      ∃ item result answered, a = .receive item result ∧ v.answered = (item, result) ::ₘ answered ∧
        receivedItems v'.calls = receivedItems v.calls ++ [(item, result)] := by
  cases hstep with
  | receiveFailed _ hanswer | receivePanicked _ hanswer | receiveAbsent _ hanswer | receiveRouted _ hanswer =>
    exact .inr ⟨_, _, _, rfl, hanswer, receivedItems_append ..⟩
  | fired t _ _ _ _ hmerged =>
    rw [receivedItems_append, (hmerged.calls_eq ..).2.1, append_nil]
    exact .inl rfl
  | _ => exact .inl (by simp [receivedItems, leave])

/-- Executions are neither lost nor duplicated: what was sent is outstanding or
was handled. -/
def Conserved (v : Ledger) : Prop :=
  (sentItems v.calls : Multiset WorkItem) = v.items + ((receivedItems v.calls).map Prod.fst : List WorkItem)

variable {item : WorkItem} {calls : List Call} {result : NodeResult}

theorem Conserved.handled (hv : Conserved v) (hitems : v.items = item ::ₘ v'.items)
    (hcalls : v'.calls = v.calls ++ calls) (hsent : sentItems calls = [])
    (hreceived : receivedItems calls = [(item, result)]) : Conserved v' := by
  unfold Conserved at hv ⊢
  rw [hitems] at hv
  rw [hcalls, sentItems_append, receivedItems_append, hsent, hreceived, append_nil, hv,
    map_append, ← coe_add, ← add_assoc, add_right_comm]
  simp [add_comm]

theorem Conserved.sent (hv : Conserved v) (hitems : v'.items = item ::ₘ v.items)
    (hcalls : v'.calls = v.calls ++ calls) (hsent : sentItems calls = [item]) (hreceived : receivedItems calls = []) :
    Conserved v' := by
  unfold Conserved at hv ⊢
  rw [hcalls, sentItems_append, receivedItems_append, hsent, hreceived, append_nil, hitems,
    cons_add, ← hv, ← coe_add, add_comm]
  simp

theorem Conserved.quiet (hv : Conserved v) (hitems : v'.items = v.items) (hcalls : v'.calls = v.calls ++ calls)
    (hsent : sentItems calls = []) (hreceived : receivedItems calls = []) : Conserved v' := by
  grind [Conserved, sentItems_append, receivedItems_append]

theorem Step.conserved (hstep : Step g opts env v a v') (hv : Conserved v) : Conserved v' := by
  cases hstep with
  | start hitem => exact hv.quiet (items_start hitem) (append_nil _).symm rfl rfl
  | finish t hitem => exact hv.quiet (items_finish hitem) (append_nil _).symm rfl rfl
  | cancel | done => exact hv.quiet rfl (append_nil _).symm rfl rfl
  | receiveFailed _ hanswer | receivePanicked _ hanswer | receiveAbsent _ hanswer | receiveRouted _ hanswer =>
    exact hv.handled (items_take hanswer) rfl rfl rfl
  | refused | arrived | mergeFailed => exact hv.quiet rfl rfl rfl rfl
  | sent => exact hv.sent items_sent rfl rfl rfl
  | fired t _ _ _ _ hmerged =>
    obtain ⟨hsent, hreceived, _⟩ := hmerged.calls_eq ..
    exact hv.sent items_sent rfl hsent hreceived

theorem conserved_of_reachable (hreach : (ledger g opts env).Reachable v) : Conserved v := by
  refine hreach.invariant (fun _ _ _ hv hstep => Step.conserved hstep hv) ?_
  simp [Conserved, ledger, Ledger.init, items, sentItems, receivedItems]

theorem Conserved.sentCount_eq (hv : Conserved v) (nodeID : String) :
    sentCount v.calls nodeID = v.copies nodeID + receivedCount v.calls nodeID := by
  have hcount := congrArg (Multiset.countP (·.nodeID = nodeID)) hv
  rw [countP_add, coe_countP, coe_countP, List.countP_map] at hcount
  exact hcount

def HopsCounted (g : Graph) (v : Ledger) : Prop :=
  ∀ id, isMerge g.toBasicGraph id = false → (v.state.stateOf id).hopCount = receivedCount v.calls id

theorem HopsCounted.handled (hv : HopsCounted g v) (hcalls : v'.calls = v.calls ++ calls)
    (hreceived : receivedItems calls = [(item, result)])
    (hhops : ∀ id, (v'.state.stateOf id).hopCount = (v.state.stateOf id).hopCount + if id = item.nodeID then 1 else 0)
    : HopsCounted g v' := by
  intro id hid
  rw [hcalls, receivedCount_append, hhops, hv id hid]
  simp [receivedCount, hreceived, List.countP_cons, eq_comm]

theorem HopsCounted.quiet (hv : HopsCounted g v) (hcalls : v'.calls = v.calls ++ calls)
    (hreceived : receivedItems calls = [])
    (hhops : ∀ id, isMerge g id = false → (v'.state.stateOf id).hopCount = (v.state.stateOf id).hopCount)
    : HopsCounted g v' := by
  intro id hid
  rw [hcalls, receivedCount_append, hhops id hid, hv id hid]
  simp [receivedCount, hreceived]

theorem Step.hopsCounted (hstep : Step g opts env v a v') (hknown : Known g v) (hv : HopsCounted g v) :
    HopsCounted g v' := by
  cases hstep with
  | start | finish | cancel | done => exact hv.quiet (append_nil _).symm rfl fun _ _ => rfl
  | receiveFailed _ hanswer =>
    obtain ⟨_, _, _, hid⟩ := hknown.take hanswer
    exact hv.handled rfl rfl fun id => hid ▸ incrementHop_hopCount ..
  | receivePanicked _ hanswer | receiveAbsent _ hanswer | receiveRouted _ hanswer =>
    obtain ⟨_, _, _, hid⟩ := hknown.take hanswer
    exact hv.handled rfl rfl fun id => hid ▸ complete_hopCount ..
  | refused | sent | arrived | mergeFailed => exact hv.quiet rfl rfl fun _ _ => by simp
  | fired t _ hnode hmerge _ hmerged =>
    obtain ⟨_, hreceived, _⟩ := hmerged.calls_eq ..
    refine hv.quiet rfl hreceived ?_
    intro id hid
    have hne : id ≠ _ := fun heq => by
      rw [heq, isMerge_of_some hnode hmerge] at hid
      cases hid
    simp [hne]

theorem hopsCounted_of_reachable (hreach : (ledger g opts env).Reachable v) : HopsCounted g v := by
  refine invariant_of_known hreach (fun _ _ _ hknown hv _ hstep => Step.hopsCounted hstep hknown hv) ?_
  intro id _
  by_cases hid : id = g.entry <;>
    simp [Ledger.init, newParallelState, stateOf, hid, receivedCount, receivedItems]

def InputsKept (v : Ledger) : Prop := ∀ id, v.state.mergeInputs id = (arrivals id v.calls).map Prod.snd

theorem InputsKept.length (hv : InputsKept v) (id : String) :
    (v.state.mergeInputs id).length = (arrivals id v.calls).length := by
  rw [hv id, length_map]

theorem InputsKept.quiet (hv : InputsKept v) (hcalls : v'.calls = v.calls ++ calls)
    (harrivals : ∀ id, arrivals id calls = []) (hinputs : v'.state.mergeInputs = v.state.mergeInputs) :
    InputsKept v' := by
  intro id
  rw [hcalls, arrivals_append, harrivals, append_nil, hinputs, hv id]

theorem InputsKept.arrived {source succID : String} {resultEnvelope : Envelope} (hv : InputsKept v)
    (hcalls : v'.calls = v.calls ++ calls)
    (harrivals : ∀ id, arrivals id calls = if id = succID then [(source, resultEnvelope)] else [])
    (hinputs : ∀ id, v'.state.mergeInputs id = v.state.mergeInputs id ++ if id = succID then [resultEnvelope] else [])
    : InputsKept v' := by
  intro id
  rw [hcalls, arrivals_append, harrivals, hinputs, hv id]
  by_cases hid : id = succID <;> simp [hid]

theorem Step.inputsKept (hstep : Step g opts env v a v') (hv : InputsKept v) : InputsKept v' := by
  cases hstep with
  | start | finish | cancel | done => exact hv.quiet (append_nil _).symm (fun _ => rfl) rfl
  | receiveFailed | receivePanicked | receiveAbsent | receiveRouted | refused | sent =>
    exact hv.quiet rfl (fun _ => rfl) rfl
  | arrived => exact hv.arrived rfl (fun _ => arrivals_singleton ..) fun _ => arrive_mergeInputs ..
  | fired t _ _ _ _ hmerged =>
    obtain ⟨_, _, harrivals⟩ := hmerged.calls_eq ..
    exact hv.arrived rfl harrivals fun _ => fire_mergeInputs ..
  | mergeFailed => exact hv.arrived rfl (fun _ => arrivals_singleton ..) fun _ => arrive_mergeInputs ..

theorem inputsKept_of_reachable (hreach : (ledger g opts env).Reachable v) : InputsKept v :=
  hreach.invariant (fun _ _ _ hv hstep => Step.inputsKept hstep hv) fun _ => rfl

/-- The executions of a node that were started, with those still to be started,
are the ones that were sent. -/
def Started (v : Ledger) : Prop :=
  ∀ id, executions v.log id + v.waiting.countP (·.nodeID = id) = sentCount v.calls id

theorem Started.quiet {events : List Event} (hv : Started v) (hwaiting : v'.waiting = v.waiting)
    (hlog : v'.log = v.log ++ events) (hevents : ∀ id, executions events id = 0)
    (hcalls : v'.calls = v.calls ++ calls) (hsent : sentItems calls = []) : Started v' := by
  intro id
  rw [hwaiting, hlog, hcalls, executions_append, sentCount_append, hevents, ← hv id]
  simp [sentCount, hsent]

theorem Started.sent (hv : Started v) (hwaiting : v'.waiting = item ::ₘ v.waiting) (hlog : v'.log = v.log)
    (hcalls : v'.calls = v.calls ++ calls) (hsent : sentItems calls = [item]) : Started v' := by
  intro id
  rw [hwaiting, hlog, hcalls, sentCount_append, ← hv id, Multiset.countP_cons]
  simp [sentCount, hsent, List.countP_cons, Nat.add_assoc]

theorem startEvents_executions (hitem : item.nodeID ∈ g.nodeOrder) (id : String) :
    executions (startEvents g item) id = if item.nodeID = id then 1 else 0 := by
  obtain ⟨node, hnode, hid⟩ := g.exists_node hitem
  simp only [startEvents, hnode, Option.elim_some, executions, List.countP_cons, countP_nil,
    nodeStarted, Event.isOf, Event.withNode, Event.newEvent, hid]
  by_cases heq : item.nodeID = id <;> simp [heq]

theorem finishEvents_executions (g : BasicGraph) (item : WorkItem) (t : Nat) (id : String) :
    executions (finishEvents g item t) id = 0 := by
  unfold finishEvents
  cases g.nodeByID item.nodeID with
  | none => rfl
  | some node =>
    simp only [Option.elim_some]
    cases node.run t item.envelope <;>
      simp [executions, nodeEnded, Event.isOf, Event.withNode, Event.withPayload, Event.newEvent]

theorem Step.started (hstep : Step g opts env v a v') (hknown : Known g v) (hv : Started v) : Started v' := by
  cases hstep with
  | @start item waiting hitem =>
    have hnode : item.nodeID ∈ g.nodeOrder := by
      apply hknown.items
      simp [items, hitem]
    intro id
    have hbefore := hv id
    grind [Multiset.countP_cons, executions_append, startEvents_executions]
  | finish t => exact hv.quiet rfl rfl (finishEvents_executions _ _ t) (append_nil _).symm rfl
  | cancel | done => exact hv.quiet rfl (append_nil _).symm (fun _ => rfl) (append_nil _).symm rfl
  | receiveFailed | receivePanicked | receiveAbsent | refused | arrived | mergeFailed =>
    exact hv.quiet rfl (append_nil _).symm (fun _ => rfl) rfl rfl
  | receiveRouted _ _ _ _ hsucc => exact hv.quiet rfl rfl (determineSuccessors_interim hsucc).quiet.executions rfl rfl
  | sent => exact hv.sent rfl rfl rfl rfl
  | fired t _ _ _ _ hmerged =>
    obtain ⟨hsent, _, _⟩ := hmerged.calls_eq ..
    exact hv.sent rfl rfl rfl hsent

theorem started_of_reachable (hreach : (ledger g opts env).Reachable v) : Started v := by
  refine invariant_of_known hreach (fun _ _ _ hknown hv _ hstep => Step.started hstep hknown hv) ?_
  intro id
  simp [Ledger.init, sentCount, sentItems, List.countP_cons, ← cons_zero, Multiset.countP_cons]

end Ledger

end

open State

def neededInputs (g : BasicGraph) (nodeID : String) (merge : MergeCapable) : Nat :=
  max 1 (expectedInputs g nodeID merge).toNat

def firings (g : BasicGraph) (nodeID : String) (merge : MergeCapable) (arrived : Nat) : Nat :=
  (arrived + 1 - neededInputs g nodeID merge) + if nodeID = g.entry then 1 else 0

variable {g : BasicGraph} {nodeID : String} {merge : MergeCapable} {arrived : Nat}

theorem ready_iff :
    expectedInputs g nodeID merge ≤ (arrived : Int) + 1 ↔ neededInputs g nodeID merge ≤ arrived + 1 := by
  unfold neededInputs
  omega

theorem firings_succ (hready : expectedInputs g nodeID merge ≤ (arrived : Int) + 1) :
    firings g nodeID merge (arrived + 1) = firings g nodeID merge arrived + 1 := by
  rw [ready_iff] at hready
  unfold firings
  omega

theorem firings_short (hshort : (arrived : Int) + 1 < expectedInputs g nodeID merge) :
    firings g nodeID merge (arrived + 1) = firings g nodeID merge arrived := by
  grind [neededInputs, firings]

def Phase.next : Phase → Option String
  | scheduling _ _ (succID :: _) => some succID
  | _ => none

/-- The condition on scheduling: the executions of an ordinary successor that are
outstanding count against the hop limit as well, and a merge node is not run
more often than the limit allows. -/
def hopsInFlight (g : BasicGraph) (opts : RunOptions) (v : Ledger) : Action → Prop
  | .schedule _ =>
    ∀ succID ∈ v.phase.next, ∀ node ∈ g.nodeByID succID,
      (node.mergeCapable.isNone → (v.state.stateOf succID).hopCount < opts.maxHops →
        (v.state.stateOf succID).hopCount + v.copies succID < opts.maxHops) ∧
      ∀ merge ∈ node.mergeCapable,
        expectedInputs g succID merge ≤ ((v.state.mergeInputs succID).length : Int) + 1 →
          firings g succID merge ((v.state.mergeInputs succID).length + 1) ≤ opts.maxHops
  | _ => True

instance (g : BasicGraph) (opts : RunOptions) (v : Ledger) : (a : Action) → Decidable (hopsInFlight g opts v a)
  | .schedule _ => by
    unfold hopsInFlight
    infer_instance
  | .start _ | .finish _ _ | .cancel | .receive _ _ => .isTrue trivial

namespace Ledger

variable {g : Graph} {opts : RunOptions} {env : Envelope} {v v' : Ledger}

def FiredAtMost (g : Graph) (v : Ledger) : Prop :=
  ∀ id node merge, g.nodeByID id = some node → node.mergeCapable = some merge →
    sentCount v.calls id ≤ firings g.toBasicGraph id merge (v.state.mergeInputs id).length

def WithinHops (opts : RunOptions) (v : Ledger) : Prop := ∀ id, sentCount v.calls id ≤ opts.maxHops

theorem firings_le {g : BasicGraph} {more : Nat}
    (hle : arrived ≤ more) : firings g nodeID merge arrived ≤ firings g nodeID merge more := by
  unfold firings
  omega

variable {calls : List Call}

theorem FiredAtMost.quiet (hv : FiredAtMost g v) (hcalls : v'.calls = v.calls ++ calls) (hsent : sentItems calls = [])
    (hinputs : ∀ id, (v.state.mergeInputs id).length ≤ (v'.state.mergeInputs id).length) : FiredAtMost g v' := by
  intro id node merge hnode hmerge
  have hbefore := hv id node merge hnode hmerge
  rw [hcalls, sentCount_append]
  simp only [sentCount, hsent, countP_nil, Nat.add_zero]
  exact hbefore.trans (firings_le (hinputs id))

theorem sentCount_single {item : WorkItem} (hsent : sentItems calls = [item]) (id : String) :
    sentCount calls id = if item.nodeID = id then 1 else 0 := by
  simp [sentCount, hsent, countP_cons]

theorem sentCount_sent (item : WorkItem) (id : String) :
    sentCount [.sent item] id = if item.nodeID = id then 1 else 0 :=
  sentCount_single rfl id

variable {a : Action}

theorem Step.firedAtMost (hstep : Step g opts env v a v') (hv : FiredAtMost g v) : FiredAtMost g v' := by
  cases hstep with
  | start | finish | cancel | done => exact hv.quiet (append_nil _).symm rfl fun _ => le_rfl
  | receiveFailed | receivePanicked | receiveAbsent | receiveRouted | refused =>
    exact hv.quiet rfl rfl fun _ => le_rfl
  | @sent source succID resultEnvelope rest node t _ hnode hplain =>
    intro id node' merge hnode' hmerge
    have hne : succID ≠ id := by
      rintro rfl
      rw [hnode] at hnode'
      cases hnode'
      rw [hplain] at hmerge
      cases hmerge
    rw [sentCount_append, sentCount_sent, if_neg hne]
    exact hv id node' merge hnode' hmerge
  | arrived | mergeFailed => exact hv.quiet rfl rfl fun id => by simp
  | @fired source succID resultEnvelope merged rest node merge errs calls t _ hnode hmerge hready hmerged =>
    intro id node' merge' hnode' hmerge'
    have hbefore := hv id node' merge' hnode' hmerge'
    rw [sentCount_append, sentCount_single (hmerged.calls_eq ..).1]
    simp only [ParallelState.fire_mergeInputs]
    by_cases hid : id = succID
    · simp_all [firings_succ]
    grind

theorem firedAtMost_of_reachable (hreach : (ledger g opts env).Reachable v) : FiredAtMost g v := by
  refine hreach.invariant (fun _ _ _ hv hstep => Step.firedAtMost hstep hv) ?_
  intro id node merge _ _
  grind [ledger, Ledger.init, sentCount, sentItems, firings]

theorem WithinHops.quiet (hv : WithinHops opts v) (hcalls : v'.calls = v.calls ++ calls)
    (hsent : sentItems calls = []) : WithinHops opts v' := by
  intro id
  rw [hcalls, sentCount_append]
  simp only [sentCount, hsent, countP_nil, Nat.add_zero]
  exact hv id

theorem Step.withinHops (hstep : Step g opts env v a v') (hconserved : Conserved v) (hhops : HopsCounted g v)
    (hfired : FiredAtMost g v) (hallow : hopsInFlight g opts v a) (hv : WithinHops opts v) : WithinHops opts v' := by
  cases hstep with
  | start | finish | cancel | done => exact hv.quiet (append_nil _).symm rfl
  | receiveFailed | receivePanicked | receiveAbsent | receiveRouted | refused | arrived | mergeFailed =>
    exact hv.quiet rfl rfl
  | @sent source succID resultEnvelope rest node t hphase hnode hplain hroom =>
    have hleft := (hallow succID (by rw [hphase]; rfl) node hnode).1 (by simp [hplain]) hroom
    have hsent := hconserved.sentCount_eq succID
    rw [← hhops succID (isMerge_of_none hnode hplain)] at hsent
    intro id
    rw [sentCount_append, sentCount_sent]
    have hbefore := hv id
    grind
  | @fired source succID resultEnvelope merged rest node merge errs calls t hphase hnode hmerge hready hmerged =>
    have hleft := (hallow succID (by rw [hphase]; rfl) node hnode).2 merge hmerge hready
    have hsent := hfired succID node merge hnode hmerge
    rw [firings_succ hready] at hleft
    intro id
    rw [sentCount_append, sentCount_single (hmerged.calls_eq ..).1]
    have hbefore := hv id
    grind

theorem withinHops_of_reachableUnder (hmax : 1 ≤ opts.maxHops)
    (hreach : (ledger g opts env).ReachableUnder (hopsInFlight g opts) v) : WithinHops opts v := by
  have hall : (Conserved v ∧ HopsCounted g v ∧ FiredAtMost g v) ∧ WithinHops opts v := by
    have hinit : (ledger g opts env).Reachable (Ledger.init g env) := LTS.ReachableUnder.init _
    refine invariant_of_known
      (I := fun v => (Conserved v ∧ HopsCounted g v ∧ FiredAtMost g v) ∧ WithinHops opts v) hreach ?_
      ⟨⟨conserved_of_reachable hinit, hopsCounted_of_reachable hinit, firedAtMost_of_reachable hinit⟩, ?_⟩
    · grind [Step.conserved, Step.hopsCounted, Step.firedAtMost, Step.withinHops]
    · intro id
      simp only [Ledger.init, sentCount_sent]
      split <;> omega
  exact hall.2

theorem sentItems_mem_of_reachable (hreach : (ledger g opts env).Reachable v) :
    ∀ item ∈ sentItems v.calls, item.nodeID ∈ g.nodeOrder := by
  refine invariant_of_known (I := fun v => ∀ item ∈ sentItems v.calls, item.nodeID ∈ g.nodeOrder) hreach ?_
    (by simpa [Ledger.init, sentItems] using g.entry_mem)
  intro v a v' hknown hv _ hstep
  cases hstep with
  | sent t hphase =>
    intro item hitem
    rw [sentItems_append, mem_append] at hitem
    rcases hitem with hitem | hitem
    · exact hv item hitem
    · rw [List.mem_singleton.mp hitem]
      exact (hknown.scheduled hphase).1
  | fired t hphase _ _ _ hmerged =>
    intro item hitem
    rw [sentItems_append, (hmerged.calls_eq ..).1, mem_append] at hitem
    rcases hitem with hitem | hitem
    · exact hv item hitem
    · rw [List.mem_singleton.mp hitem]
      exact (hknown.scheduled hphase).1
  | receiveRouted =>
    simp only [sentItems_append]
    simpa [sentItems] using hv
  | receiveFailed | receivePanicked => simpa [take, sentItems] using hv
  | receiveAbsent => simpa [take, leave, sentItems] using hv
  | refused | arrived | mergeFailed => simpa [sentItems] using hv
  | _ => exact hv

end Ledger

theorem length_le_of_count_le (ids order : List String) {k : Nat} (hmem : ∀ id ∈ ids, id ∈ order)
    (hcount : ∀ id, ids.count id ≤ k) : ids.length ≤ k * order.length := by
  calc ids.length = ∑ id ∈ ids.toFinset, ids.count id := (sum_toFinset_count_eq_length ids).symm
    _ ≤ ∑ _id ∈ ids.toFinset, k := Finset.sum_le_sum fun id _ => hcount id
    _ = ids.toFinset.card * k := by rw [Finset.sum_const_nat fun _ _ => rfl]
    _ ≤ order.length * k := by
      apply Nat.mul_le_mul_right
      have hsub : ids.toFinset ⊆ order.toFinset := fun id hid => by simpa using hmem id (by simpa using hid)
      exact (card_le_card hsub).trans order.toFinset_card_le
    _ = k * order.length := Nat.mul_comm _ _

def totalExecutions (log : List Event) : Nat := log.countP (·.kind = .nodeStarted)

section

variable {g : Graph} {opts : RunOptions} {env : Envelope} {v : Ledger}

theorem sentItems_length_le (hreach : (ledger g opts env).Reachable v) (hhops : v.WithinHops opts) :
    (sentItems v.calls).length ≤ opts.maxHops * g.nodeOrder.length := by
  have hmem := Ledger.sentItems_mem_of_reachable hreach
  have hcount : ∀ id, ((sentItems v.calls).map WorkItem.nodeID).count id = sentCount v.calls id := by
    intro id
    rw [count, countP_map, sentCount]
    exact countP_congr (by simp)
  have hle := length_le_of_count_le ((sentItems v.calls).map WorkItem.nodeID) g.nodeOrder
    (by simpa using hmem) fun id => hcount id ▸ hhops id
  simpa using hle

theorem totalExecutions_le (hreach : (ledger g opts env).Reachable v)
    (hexec : ∀ id, executions v.log id ≤ opts.maxHops) :
    totalExecutions v.log ≤ opts.maxHops * g.nodeOrder.length := by
  have hcount : ∀ id, ((v.log.filter (·.kind = .nodeStarted)).map Event.nodeID).count id = executions v.log id := by
    intro id
    rw [count, countP_map, countP_filter, executions]
    exact countP_congr (by simp [Event.isOf, and_comm])
  have hmem : ∀ id ∈ (v.log.filter (·.kind = .nodeStarted)).map Event.nodeID, id ∈ g.nodeOrder := by
    intro id hid
    -- a node that was started was sent before
    have hstarted : 0 < executions v.log id := hcount id ▸ count_pos_iff.mpr hid
    have hsent := Ledger.started_of_reachable hreach id
    obtain ⟨item, hitem, hnode⟩ := countP_pos_iff.mp (show 0 < sentCount v.calls id by omega)
    rw [← decide_eq_true_eq.mp hnode]
    exact Ledger.sentItems_mem_of_reachable hreach item hitem
  have hle := length_le_of_count_le _ g.nodeOrder hmem fun id => hcount id ▸ hexec id
  simpa [totalExecutions, countP_eq_length_filter] using hle

end

theorem Scheduling.sentItems_eq {opts : RunOptions} {t : Nat} {source succID : String}
    {env : Envelope} {state : ParallelState} {scheduled : Scheduled} {calls : List Call}
    (hsched : Scheduling g opts t source succID env state scheduled calls) : sentItems calls = [] := by
  cases hsched with
  | fired _ _ _ hmerged => cases hmerged <;> rfl
  | _ => rfl

/-- What the steps of the coordinator cost at each of its positions, for nodes of
out-degree at most `d`. The handling of a result is paid for by the result. -/
def Coordinator.weight (d : Nat) : Coordinator → Nat
  | selecting => 2
  | scheduling _ _ successors _ => successors.length + 3
  | sending _ _ _ successors _ => successors.length + 3 + (d + 9)
  | stopping _ => 1
  | returned _ => 0

/-- A bound on the steps that can follow a state when at most `b` executions are
sent in all. Every execution still to be sent pays for its send, for the four
steps of its worker, for its receipt and for the scheduling of its successors. -/
def State.potential {n : Nat} (d b : Nat) (s : State n) : Nat :=
  (d + 9) * (b - ((sentItems s.calls).length + s.coordinator.held.length)) + s.pool.fuel +
    (d + 3) * s.pool.inFlight.card + s.coordinator.weight d + s.ctxErr.elim 1 fun _ => 0

section

variable {n : Nat} {g : Graph} {opts : RunOptions} {env : Envelope} {s s' : State n} {d b c : Nat}

theorem stopWorkers_potential {ret : Return} (hheld : s.coordinator.held = [])
    (hpaid : 1 < s.coordinator.weight d + c) : (s.stopWorkers ret).potential d b < s.potential d b + c := by
  change (d + 9) * (b - ((sentItems s.calls).length + 0)) + s.pool.fuel +
    (d + 3) * s.pool.inFlight.card + 1 + (s.ctxErr.elim 1 fun _ => 0) < _
  rw [potential, hheld, length_nil]
  omega

variable {addedPending : Nat}

theorem finishResult_potential {final : Option Envelope} (hheld : s.coordinator.held = [])
    (hpaid : 2 < s.coordinator.weight d + c) :
    (s.finishResult env final addedPending).potential d b < s.potential d b + c := by
  unfold finishResult
  dsimp only
  split
  · exact stopWorkers_potential (s := { s with finalEnvelope := _, pendingCount := _ }) hheld
      (Nat.lt_of_succ_lt hpaid)
  · change (d + 9) * (b - ((sentItems s.calls).length + 0)) + s.pool.fuel +
      (d + 3) * s.pool.inFlight.card + 2 + (s.ctxErr.elim 1 fun _ => 0) < _
    rw [potential, hheld, length_nil]
    omega

theorem Handled.potential_lt {result : NodeResult}
    (hhandled : Handled g opts env result s s') (hcoord : s.coordinator = .selecting)
    (hfan : ∀ id, (g.successors id).length ≤ d) : s'.potential d b < s.potential d b + (d + 3) := by
  have hheld : s.coordinator.held = [] := by rw [hcoord]; rfl
  cases hhandled with
  | failed | panicked => exact stopWorkers_potential (s := { s with state := _ }) hheld (by dsimp only; omega)
  | missing | absent => exact finishResult_potential (s := { s with state := _ }) hheld (by dsimp only; omega)
  | @routed resultEnvelope state node succ env' _ _ hsucc =>
    have hlength := (determineSuccessors_sublist hsucc).length_le.trans (hfan node.id)
    grind [sentItems, potential, Coordinator.held, Coordinator.weight]

theorem Iterated.potential_lt {t : Nat} {source : String} {resultEnvelope : Envelope} {successors : List String}
    (hiter : Iterated g opts env t source resultEnvelope addedPending s successors s')
    (hcoord : s.coordinator = .scheduling source resultEnvelope successors addedPending)
    (hsends : (sentItems s'.calls).length + s'.coordinator.held.length ≤ b) : s'.potential d b < s.potential d b := by
  have hheld : s.coordinator.held = [] := by rw [hcoord]; rfl
  have hweight : s.coordinator.weight d = successors.length + 3 := by rw [hcoord]; rfl
  cases hiter with
  | done => exact finishResult_potential (c := 0) hheld (by omega)
  | skip hsched =>
    simp only [potential, sentItems_append, (scheduling_of_eq hsched).sentItems_eq,
      append_nil, hcoord, Coordinator.held, Coordinator.weight, length_cons]
    omega
  | send hsched =>
    have hsent := (scheduling_of_eq hsched).sentItems_eq
    simp only [sentItems_append, hsent, append_nil, Coordinator.held, length_singleton] at hsends
    simp only [potential, sentItems_append, hsent, append_nil, hcoord, Coordinator.held,
      Coordinator.weight, length_cons, length_nil, Nat.add_zero]
    -- the execution that is sent now leaves the budget
    have hleft : b - (sentItems s.calls).length = b - ((sentItems s.calls).length + (0 + 1)) + 1 := by omega
    grind [Nat.mul_add_one]
  | @fail succID rest err state calls hsched =>
    have hsame : { s with state, calls := s.calls ++ calls }.potential d b = s.potential d b := by
      simp [potential, sentItems_append, (scheduling_of_eq hsched).sentItems_eq]
    rw [← hsame]
    exact stopWorkers_potential (c := 0) hheld (by dsimp only; omega)

theorem Moves.potential_lt {l : Label n} (hmoves : Moves g opts env s l s')
    (hfan : ∀ id, (g.successors id).length ≤ d)
    (hsends : (sentItems s'.calls).length + s'.coordinator.held.length ≤ b) : s'.potential d b < s.potential d b := by
  cases hmoves with
  | cancel cause hctx =>
    change (d + 9) * (b - ((sentItems s.calls).length + s.coordinator.held.length)) + s.pool.fuel +
      (d + 3) * s.pool.inFlight.card + s.coordinator.weight d + 0 < _
    rw [potential, hctx]
    exact Nat.lt_succ_self _
  | ctxDone hcoord =>
    exact stopWorkers_potential (c := 0) (by rw [hcoord]; rfl) (by rw [hcoord]; exact Nat.lt_succ_self 1)
  | @receive item result pool _ hcoord hcollect hhandled =>
    have hless := hhandled.potential_lt (b := b) hcoord hfan
    have hcard := card_inFlight_collect hcollect
    have hreceived : sentItems [Call.received item result] = [] := rfl
    have hfuel : pool.fuel = s.pool.fuel := by
      obtain ⟨answers, _, rfl⟩ := Pool.collect_eq_some_iff.mp hcollect
      rfl
    have hpaid := Nat.mul_add_one (d + 3) pool.inFlight.card
    simp only [potential, sentItems_append, hreceived, append_nil, hfuel] at hless ⊢
    rw [hcard]
    omega
  | schedule t hcoord hiter => exact hiter.potential_lt hcoord hsends
  | @send item source resultEnvelope successors addedPending pool hcoord hsubmit =>
    have hcard := card_inFlight_submit hsubmit
    have hsent : sentItems [Call.sent item] = [item] := rfl
    obtain ⟨jobs, hjobs, rfl⟩ := Pool.submit_eq_some_iff.mp hsubmit
    have hfuel := (Chan.send_eq_some_iff.mp hjobs).2
    simp only [potential, sentItems_append, hsent, hcoord, Coordinator.held, Coordinator.weight,
      length_append, length_singleton, length_nil, Nat.add_zero, hcard, Nat.mul_succ, Pool.fuel, hfuel]
    omega
  | wait hcoord =>
    simp only [potential, hcoord, Coordinator.held, Coordinator.weight]
    omega
  | worker hact =>
    have hfuel := hact.fuel_lt
    simp only [potential, hact.inFlight]
    omega

end

theorem sentItems_ledger {n : Nat} (s : State n) :
    (sentItems s.ledger.calls).length = (sentItems s.calls).length + s.coordinator.held.length := by
  simp [sentItems, State.ledger]

/-- A bound on the length of a run in which every node is run at most `maxHops` times. -/
def parallelSteps (g : BasicGraph) (opts : RunOptions) : Nat :=
  (g.edges.length + 9) * (opts.maxHops * g.nodeOrder.length) + opts.concurrency + g.edges.length + 11

theorem potential_init_le (g : Graph) (opts : RunOptions) (env : Envelope) (hconc : 0 < opts.concurrency) :
    (executeGraphParallel g opts env).init.potential g.edges.length
      (opts.maxHops * g.nodeOrder.length) ≤ parallelSteps g opts := by
  obtain ⟨pool, hsubmit, ⟨hwait, hact, hans⟩, _⟩ := submit_fresh hconc { nodeID := g.entry, envelope := env }
  have hpool : (executeGraphParallel g opts env).init.pool = pool := by
    simp [executeGraphParallel, State.init, hsubmit]
  have hfuel : pool.fuel = 5 + opts.concurrency := by
    obtain ⟨jobs, hjobs, rfl⟩ := Pool.submit_eq_some_iff.mp hsubmit
    simp [Pool.fuel, (Chan.send_eq_some_iff.mp hjobs).2, Worker.weight, Pool.fresh, Chan.empty]
  have hcard : pool.inFlight.card = 1 := by simp [Pool.inFlight, hwait, hact, hans]
  have hless := Nat.mul_le_mul_left (g.edges.length + 9)
    (Nat.sub_le (opts.maxHops * g.nodeOrder.length) 1)
  simp only [potential, hpool, hfuel, hcard]
  simp only [executeGraphParallel, State.init, sentItems, Coordinator.held, Coordinator.weight,
    filterMap_cons, filterMap_nil, length_cons, length_nil, Option.elim_none,
    Nat.zero_add, Nat.add_zero, parallelSteps]
  omega

section

variable {g : Graph} {opts : RunOptions} {env : Envelope} {s : State opts.concurrency}

theorem ledger_withinHops (hmax : 1 ≤ opts.maxHops) (hconc : 0 < opts.concurrency)
    (hrun : (executeGraphParallel g opts env).ReachesUnder
      (Admits (hopsInFlight g opts)) (executeGraphParallel g opts env).init s) :
    (ledger g opts env).Reachable s.ledger ∧ s.ledger.WithinHops opts := by
  have hview : (ledger g opts env).ReachableUnder (hopsInFlight g opts) s.ledger :=
    (executeGraphParallel_refines g opts env hconc).reachableUnder (fun _ _ a hallow hact => hallow a hact) hrun
  exact ⟨hview.reachable, Ledger.withinHops_of_reachableUnder hmax hview⟩

end

/-- In every run in which the outstanding executions count against the hop limit,
no node is executed more than `maxHops` times, and the run has a bounded number
of steps. It cannot get stuck before it returns if it also has the room it needs. -/
theorem executeGraphParallel_withinHops (g : Graph) (opts : RunOptions) (env : Envelope)
    (hmax : 1 ≤ opts.maxHops) (hconc : 1 < opts.concurrency) (k : Nat) (s : State opts.concurrency)
    (hrun : (executeGraphParallel g.toBasicGraph opts env).StepsUnder
      (Admits (hopsInFlight g.toBasicGraph opts)) k (executeGraphParallel g.toBasicGraph opts env).init s) :
    (∀ id, executions s.log id ≤ opts.maxHops) ∧
    totalExecutions s.log ≤ opts.maxHops * g.nodeOrder.length ∧
    k ≤ parallelSteps g.toBasicGraph opts ∧
    ((executeGraphParallel g.toBasicGraph opts env).ReachesUnder
        (fun s l => s.fits g.toBasicGraph opts env l = true)
        (executeGraphParallel g.toBasicGraph opts env).init s →
      (∀ ret, s.coordinator ≠ .returned ret) → ¬ Stuck g.toBasicGraph opts env s) := by
  obtain ⟨hview, hhops⟩ := ledger_withinHops hmax (by omega) hrun.reaches
  have hexec : ∀ id, executions s.log id ≤ opts.maxHops := by
    intro id
    have hstarted := Ledger.started_of_reachable hview id
    have hsent := hhops id
    change executions s.log id + _ = _ at hstarted
    omega
  refine ⟨hexec, totalExecutions_le hview hexec, ?_, ?_⟩
  · -- every state of the run has sent at most `maxHops` executions of each node
    have hbound := hrun.le_measure (I := fun s => (executeGraphParallel g opts env).ReachesUnder
        (Admits (hopsInFlight g opts)) (executeGraphParallel g opts env).init s)
      (potential g.edges.length (opts.maxHops * g.nodeOrder.length))
      (fun _ _ _ hreach hallow hstep => hreach.step hallow hstep) ?_ (Machine.ReachesUnder.refl _)
    · have hinit := potential_init_le g opts env (by omega)
      omega
    · intro s l s' hreach hallow hstep
      obtain ⟨hview', hhops'⟩ := ledger_withinHops hmax (by omega) (hreach.step hallow hstep)
      have hsends := sentItems_length_le hview' hhops'
      rw [sentItems_ledger] at hsends
      exact (moves_of_step hstep).potential_lt g.successors_length_le hsends
  · intro hfits hreturned
    exact (roomy_of_fits (by omega) hfits).progress (by omega) hreturned

namespace diamond

def graph : Graph :=
  (Graph.build? (["e", "a", "b", "x"].map newNoopNode)
    [⟨"e", "a"⟩, ⟨"e", "b"⟩, ⟨"a", "x"⟩, ⟨"b", "x"⟩] "e").get (by decide)

def opts (maxHops : Nat) : RunOptions := { maxHops, continueOnError := false, concurrency := 2 }

def schedule : List (Label 2) :=
  open Label in
  complete w₀ ++ [receive] ++ push ++ push ++ [Label.schedule 0] ++ complete w₀ ++ complete w₁ ++
    [receive] ++ push ++ [Label.schedule 0, receive] ++ push ++ [Label.schedule 0] ++ complete w₀ ++ complete w₁

end diamond

/-- With a limit of two the two executions of the common node are within it. -/
theorem diamond_withinHops :
    ∃ s, (executeGraphParallel diamond.graph.toBasicGraph (diamond.opts 2) {}).StepsUnder
        (Admits (hopsInFlight diamond.graph.toBasicGraph (diamond.opts 2))) diamond.schedule.length
        (executeGraphParallel diamond.graph.toBasicGraph (diamond.opts 2) {}).init s ∧
      executions s.log "x" = 2 ∧ (∀ id, executions s.log id ≤ 2) ∧
      diamond.schedule.length ≤ parallelSteps diamond.graph.toBasicGraph (diamond.opts 2) := by
  obtain ⟨s, hrun, htest⟩ := Machine.exists_stepsUnder_of_exec
    (m := executeGraphParallel diamond.graph (diamond.opts 2) {})
    (P := fun s l => decide (Admits (hopsInFlight diamond.graph (diamond.opts 2)) s l))
    diamond.schedule (fun s => decide (executions s.log "x" = 2)) (by decide +kernel)
  simp only [decide_eq_true_eq] at hrun htest
  obtain ⟨hexec, _, hsteps, _⟩ :=
    executeGraphParallel_withinHops diamond.graph (diamond.opts 2) {} (by decide) (by decide) _ s hrun
  exact ⟨s, hrun, htest, hexec, hsteps⟩

/-- With a limit of one the common node is still executed twice: neither execution
has been counted when the other is scheduled. -/
theorem diamond_exceedsHops :
    ∃ s, (executeGraphParallel diamond.graph.toBasicGraph (diamond.opts 1) {}).Reachable s ∧
      (diamond.opts 1).maxHops < executions s.log "x" := by
  obtain ⟨s, hreach, htest⟩ := Machine.exists_reachable_of_exec
    (m := executeGraphParallel diamond.graph (diamond.opts 1) {})
    diamond.schedule (fun s => decide ((diamond.opts 1).maxHops < executions s.log "x")) (by decide +kernel)
  exact ⟨s, hreach, of_decide_eq_true htest⟩

end petalflow.runtime
