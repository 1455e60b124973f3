import Petalflow.Lib.Keyed
import Petalflow.Runtime.Parallel.Hops

open petalflow.core petalflow.graph machine List Option Multiset pool

namespace petalflow.runtime

/-! What becomes of the envelopes that are handed to successors. -/

def deliveries (nodeID : String) (calls : List Call) : List (String × Envelope) :=
  calls.filterMap fun
    | .routed source env targets => if nodeID ∈ targets then some (source, env) else none
    | _ => none

def decisions (nodeID : String) (calls : List Call) : List Envelope :=
  calls.filterMap fun
    | .sent item => if item.nodeID = nodeID then some item.envelope else none
    | .refused id env => if id = nodeID then some env else none
    | _ => none

def refusedCount (calls : List Call) (nodeID : String) : Nat :=
  calls.countP fun
    | .refused id _ => id = nodeID
    | _ => false

def Phase.pending (nodeID : String) : Phase → List (String × Envelope)
  | scheduling source env successors => if nodeID ∈ successors then [(source, env)] else []
  | _ => []

@[simp] theorem deliveries_append (nodeID : String) (left right : List Call) :
    deliveries nodeID (left ++ right) = deliveries nodeID left ++ deliveries nodeID right :=
  filterMap_append

@[simp] theorem decisions_append (nodeID : String) (left right : List Call) :
    decisions nodeID (left ++ right) = decisions nodeID left ++ decisions nodeID right :=
  filterMap_append

@[simp] theorem refusedCount_append (left right : List Call) (nodeID : String) :
    refusedCount (left ++ right) nodeID = refusedCount left nodeID + refusedCount right nodeID :=
  countP_append

theorem decisions_length (nodeID : String) (calls : List Call) :
    (decisions nodeID calls).length = sentCount calls nodeID + refusedCount calls nodeID := by
  induction calls with
  | nil => rfl
  | cons call rest ih =>
    rw [← singleton_append, decisions_append, sentCount_append, refusedCount_append, length_append, ih]
    have hone : (decisions nodeID [call]).length = sentCount [call] nodeID + refusedCount [call] nodeID := by
      cases call with
      | sent item => by_cases h : item.nodeID = nodeID <;> simp [decisions, sentCount, sentItems, refusedCount, h]
      | refused id env => by_cases h : id = nodeID <;> simp [decisions, sentCount, sentItems, refusedCount, h]
      | _ => rfl
    omega

theorem Phase.pending_cons {source succID : String} {env : Envelope} {rest : List String} (nodeID : String)
    (hfresh : succID ∉ rest) : (scheduling source env (succID :: rest)).pending nodeID =
      (if nodeID = succID then [(source, env)] else []) ++ (scheduling source env rest).pending nodeID := by
  grind [pending]

namespace Ledger

def Intact (v : Ledger) : Prop := ∀ ret, v.phase = .stopped ret → ∃ final, ret = .returned final none

/-- Everything handed to a node was dealt with or is pending: a merge node has
got it as an input and was run as often as its inputs allow, an ordinary node
was sent or refused with it. -/
structure Flow (g : Graph) (env : Envelope) (v : Ledger) : Prop where
  arrived : ∀ id, isMerge g.toBasicGraph id = true → deliveries id v.calls = arrivals id v.calls ++ v.phase.pending id
  decided : ∀ id, isMerge g.toBasicGraph id = false →
    (if id = g.entry then [env] else []) ++ (deliveries id v.calls).map Prod.snd =
      decisions id v.calls ++ (v.phase.pending id).map Prod.snd
  fired : ∀ id node merge, g.nodeByID id = some node → node.mergeCapable = some merge →
    sentCount v.calls id = firings g.toBasicGraph id merge (arrivals id v.calls).length

variable {g : Graph} {opts : RunOptions} {env : Envelope} {v v' : Ledger}

theorem leave_pending (final : Option Envelope) (id : String) : (v.leave env final).phase.pending id = [] := by
  unfold leave
  dsimp only
  split <;> rfl

variable {source succID : String} {resultEnvelope : Envelope} {rest : List String}

theorem Known.fresh (hv : Known g v) (hphase : v.phase = .scheduling source resultEnvelope (succID :: rest)) :
    succID ∉ rest :=
  (List.nodup_cons.mp ((hv.successors _ _ _ hphase).nodup (g.successors_nodup source))).1

variable {id : String} {node : Node}

theorem ne_of_isMerge (hnode : g.nodeByID succID = some node) (hplain : node.mergeCapable = none)
    (hmerge : isMerge g id = true) : id ≠ succID := by
  rintro rfl
  rw [isMerge_of_none hnode hplain] at hmerge
  cases hmerge

variable {merge : MergeCapable}

theorem ne_of_not_isMerge (hnode : g.nodeByID succID = some node) (hsome : node.mergeCapable = some merge)
    (hplain : isMerge g id = false) : id ≠ succID := by
  rintro rfl
  rw [isMerge_of_some hnode hsome] at hplain
  cases hplain

variable {calls : List Call}

theorem Flow.extend (hv : Flow g env v) (hcalls : v'.calls = v.calls ++ calls)
    (harrived : ∀ id, isMerge g id = true → v.phase.pending id ++ deliveries id calls =
      arrivals id calls ++ v'.phase.pending id)
    (hdecided : ∀ id, isMerge g id = false →
      (v.phase.pending id).map Prod.snd ++ (deliveries id calls).map Prod.snd =
        decisions id calls ++ (v'.phase.pending id).map Prod.snd)
    (hfired : ∀ id node merge, g.nodeByID id = some node → node.mergeCapable = some merge →
      firings g id merge (arrivals id v.calls).length + sentCount calls id =
        firings g id merge ((arrivals id v.calls).length + (arrivals id calls).length)) :
    Flow g env v' := by
  refine ⟨?_, ?_, ?_⟩
  · intro id hid
    rw [hcalls, deliveries_append, arrivals_append, hv.arrived id hid, append_assoc, harrived id hid, append_assoc]
  · intro id hid
    rw [hcalls, deliveries_append, decisions_append, map_append, ← append_assoc, hv.decided id hid,
      append_assoc, hdecided id hid, append_assoc]
  · intro id node merge hnode hmerge
    rw [hcalls, sentCount_append, arrivals_append, length_append, hv.fired id node merge hnode hmerge]
    exact hfired id node merge hnode hmerge

theorem Flow.quiet (hv : Flow g env v) (hcalls : v'.calls = v.calls ++ calls)
    (hphase : ∀ id, v'.phase.pending id = v.phase.pending id) (hdeliveries : ∀ id, deliveries id calls = [])
    (harrivals : ∀ id, arrivals id calls = []) (hdecisions : ∀ id, decisions id calls = [])
    (hsent : sentItems calls = []) : Flow g env v' := by
  refine hv.extend hcalls ?_ ?_ ?_
  · simp_all
  · simp_all
  · intro id node merge _ _
    simp [harrivals, sentCount, hsent]

theorem Known.pending (hknown : Known g v) (hphase : v.phase = .scheduling source resultEnvelope (succID :: rest))
    (hphase' : v'.phase = .scheduling source resultEnvelope rest) (id : String) :
    v.phase.pending id = (if id = succID then [(source, resultEnvelope)] else []) ++ v'.phase.pending id := by
  rw [hphase, hphase']
  exact Phase.pending_cons id (hknown.fresh hphase)

theorem Flow.decide {call : Call} (hv : Flow g env v) (hknown : Known g v)
    (hphase : v.phase = .scheduling source resultEnvelope (succID :: rest)) (hnode : g.nodeByID succID = some node)
    (hplain : node.mergeCapable = none) (hphase' : v'.phase = .scheduling source resultEnvelope rest)
    (hcalls : v'.calls = v.calls ++ [call])
    (hcall : call = .refused succID resultEnvelope ∨ call = .sent { nodeID := succID, envelope := resultEnvelope }) :
    Flow g env v' := by
  have hpending := hknown.pending hphase hphase'
  refine hv.extend hcalls ?_ ?_ ?_
  · intro id hid
    rw [hpending, if_neg (ne_of_isMerge hnode hplain hid)]
    rcases hcall with rfl | rfl <;> simp [deliveries, arrivals]
  · intro id _
    rw [hpending]
    rcases hcall with rfl | rfl <;>
      by_cases hid : id = succID <;> simp [deliveries, decisions, hid, eq_comm]
  · intro id node' merge hnode' hmerge
    have hne := ne_of_isMerge hnode hplain (isMerge_of_some hnode' hmerge)
    rcases hcall with rfl | rfl <;> simp [sentCount, sentItems, arrivals, Ne.symm hne]

theorem Flow.arrive (hv : Flow g env v) (hknown : Known g v)
    (hphase : v.phase = .scheduling source resultEnvelope (succID :: rest)) (hnode : g.nodeByID succID = some node)
    (hmerge : node.mergeCapable = some merge) (hphase' : v'.phase = .scheduling source resultEnvelope rest)
    (hcalls : v'.calls = v.calls ++ calls) (hdeliveries : ∀ id, deliveries id calls = [])
    (harrivals : ∀ id, arrivals id calls = if id = succID then [(source, resultEnvelope)] else [])
    (hdecisions : ∀ id, id ≠ succID → decisions id calls = [] ∧ sentCount calls id = 0)
    (hfired : firings g succID merge (arrivals succID v.calls).length + sentCount calls succID =
      firings g succID merge ((arrivals succID v.calls).length + 1))
    : Flow g env v' := by
  have hpending := hknown.pending hphase hphase'
  refine hv.extend hcalls ?_ ?_ ?_
  · intro id _
    rw [hpending, hdeliveries, harrivals, append_nil]
  · intro id hid
    have hne := ne_of_not_isMerge hnode hmerge hid
    simp_all
  grind

variable {errs : List NodeError}

theorem Merged.calls_other {t : Nat} {kind : NodeKind} {inputs : List Envelope} {merged : Envelope}
    (hmerged : Merged opts t succID kind merge inputs merged errs calls) (source : String) (env : Envelope) :
    (∀ id, deliveries id (.addMergeInput succID source env :: calls ++
        [.sent { nodeID := succID, envelope := merged }]) = []) ∧
      ∀ id, id ≠ succID → decisions id (.addMergeInput succID source env :: calls ++
        [.sent { nodeID := succID, envelope := merged }]) = [] := by
  cases hmerged <;>
    exact ⟨fun id => by simp [deliveries], fun id hid => by simp [decisions, Ne.symm hid]⟩

theorem not_intact_of_stopped {ret : Return} (hphase : v.phase = .stopped ret)
    (hret : ∀ final, ret ≠ .returned final none) : ¬ Intact v := by
  intro hintact
  obtain ⟨final, hfinal⟩ := hintact ret hphase
  exact hret final hfinal

variable {a : Action} (hstep : Step g opts env v a v')
include hstep

theorem Step.refusedCount_eq (id : String) : refusedCount v'.calls id = refusedCount v.calls id ∨
      ∃ t source resultEnvelope rest, a = .schedule t ∧
        v.phase = .scheduling source resultEnvelope (id :: rest) ∧ isMerge g id = false ∧
        opts.maxHops ≤ (v.state.stateOf id).hopCount := by
  cases hstep with
  | @refused source succID resultEnvelope rest node t hphase hnode hplain hhops =>
    grind [isMerge_of_none, refusedCount]
  | fired _ _ _ _ _ hmerged => cases hmerged <;> exact .inl (by simp [refusedCount])
  | _ => exact .inl (by simp [refusedCount, take, leave])

theorem Step.intact (hintact : Intact v') : Intact v := by
  cases hstep with
  | start | finish => exact hintact
  | cancel _ hphase | receiveFailed hphase | receivePanicked hphase | receiveAbsent hphase
  | receiveRouted hphase | done _ hphase | refused _ hphase | sent _ hphase | arrived _ hphase
  | fired _ hphase | mergeFailed _ hphase => simp [Intact, hphase]

theorem Step.flow (hknown : Known g v) (hkept : InputsKept v) (hintact : Intact v')
    (hv : Flow g env v) : Flow g env v' := by
  have hlength := hkept.length
  cases hstep with
  | start | finish =>
    obtain ⟨harrived, hdecided, hfired⟩ := hv
    exact ⟨harrived, hdecided, hfired⟩
  | cancel | receiveFailed | receivePanicked | mergeFailed =>
    exact absurd hintact (not_intact_of_stopped rfl (by simp))
  | receiveAbsent hphase =>
    refine hv.quiet rfl (fun id => ?_) (fun _ => rfl) (fun _ => rfl)
      (fun _ => rfl) rfl
    rw [leave_pending, hphase]
    rfl
  | @receiveRouted item result answered node errs resultEnvelope env' succ hphase =>
    refine hv.extend rfl ?_ ?_ ?_
    · grind [deliveries, arrivals, Phase.pending]
    · grind [deliveries, decisions, Phase.pending]
    · intro id node merge _ _
      rfl
  | done t hphase =>
    refine hv.quiet (append_nil _).symm (fun id => ?_) (fun _ => rfl)
      (fun _ => rfl) (fun _ => rfl) rfl
    rw [leave_pending, hphase]
    rfl
  | refused t hphase hnode hplain => exact hv.decide hknown hphase hnode hplain rfl rfl (.inl rfl)
  | sent t hphase hnode hplain => exact hv.decide hknown hphase hnode hplain rfl rfl (.inr rfl)
  | arrived t hphase hnode hmerge hshort =>
    refine hv.arrive hknown hphase hnode hmerge rfl rfl (fun _ => rfl)
      (fun _ => arrivals_singleton ..) (fun _ _ => ⟨rfl, rfl⟩) ?_
    rw [hlength] at hshort
    rw [firings_short hshort]
    rfl
  | @fired source succID resultEnvelope merged rest node merge errs calls t hphase hnode hmerge hready hmerged =>
    obtain ⟨hsent, _, harrivals⟩ := hmerged.calls_eq source resultEnvelope
      { nodeID := succID, envelope := merged }
    obtain ⟨hdeliveries, hdecisions⟩ := Merged.calls_other hmerged source resultEnvelope
    refine hv.arrive hknown hphase hnode hmerge rfl rfl hdeliveries harrivals
      (fun id hid => ⟨hdecisions id hid, ?_⟩) ?_
    · rw [sentCount_single hsent, if_neg (Ne.symm hid)]
    simp_all [firings_succ, sentCount_single]

omit hstep

theorem flow_of_reachable (hreach : (ledger g opts env).Reachable v) (hintact : Intact v) : Flow g env v := by
  refine hreach.invariant_back hintact (fun _ _ _ hstep => Step.intact hstep) ?_ ⟨?_, ?_, ?_⟩
  · intro v a v' hreach hv hintact hstep
    exact Step.flow hstep (known_of_reachable hreach) (inputsKept_of_reachable hreach) hintact hv
  · intro id _
    rfl
  · intro id _
    by_cases hid : id = g.entry
    · simp [ledger, Ledger.init, deliveries, decisions, Phase.pending, hid]
    · simp [ledger, Ledger.init, deliveries, decisions, Phase.pending, hid, Ne.symm hid]
  · intro id node merge _ _
    have hneeded : 1 ≤ neededInputs g id merge := le_max_left _ _
    simp only [ledger, Ledger.init, sentCount_sent, firings, arrivals, List.filterMap_cons, filterMap_nil, length_nil]
    grind

theorem Flow.decided_length (hv : Flow g env v) (hplain : isMerge g id = false) :
    (if id = g.entry then 1 else 0) + (deliveries id v.calls).length =
      sentCount v.calls id + refusedCount v.calls id + (v.phase.pending id).length := by
  have hlength := congrArg List.length (hv.decided id hplain)
  grind [decisions_length]

theorem intact_of_scheduling {successors : List String}
    (hphase : v.phase = .scheduling source resultEnvelope successors) : Intact v := by
  intro ret hret
  rw [hphase] at hret
  cases hret

variable {final : Option Envelope}

theorem intact_of_returned (hphase : v.phase = .stopped (.returned final none)) : Intact v := by
  intro ret hret
  rw [hphase] at hret
  cases hret
  exact ⟨final, rfl⟩

def Drained (v : Ledger) : Prop := ∀ final, v.phase = .stopped (.returned final none) → v.items = 0

theorem leave_drained (final : Option Envelope) : Drained (v.leave env final) := by
  intro final' hphase
  rw [leave_items]
  unfold leave at hphase
  dsimp only at hphase
  split at hphase
  · next hcard => exact card_eq_zero.mp hcard
  · cases hphase

theorem Step.drained (hstep : Step g opts env v a v') (hv : Drained v) : Drained v' := by
  cases hstep with
  | start hitem => exact fun final hphase => (items_start hitem).trans (hv final hphase)
  | finish t hitem => exact fun final hphase => (items_finish hitem).trans (hv final hphase)
  | receiveAbsent => exact leave_drained none
  | done => exact leave_drained _
  | mergeFailed => exact fun final hphase => absurd (Phase.stopped.inj hphase) (by simp)
  | _ => simp [Drained]

variable (hreach : (ledger g opts env).Reachable v)
include hreach

theorem drained_of_reachable : Drained v :=
  hreach.invariant (fun _ _ _ hv hstep => Step.drained hstep hv) (by simp [Drained, ledger, Ledger.init])

theorem receivedCount_of_returned (hphase : v.phase = .stopped (.returned final none)) (id : String) :
    receivedCount v.calls id = sentCount v.calls id := by
  have hsent := (conserved_of_reachable hreach).sentCount_eq id
  rw [copies, drained_of_reachable hreach final hphase, countP_zero] at hsent
  omega

theorem executions_of_returned (hphase : v.phase = .stopped (.returned final none)) (id : String) :
    executions v.log id = sentCount v.calls id := by
  have hstarted := started_of_reachable hreach id
  have hitems := drained_of_reachable hreach final hphase
  simp_all [items]

omit hreach

/-- What a handled result hands to a node: the result's envelope, or after a
failure the one the execution received, as the choice of successors leaves it. -/
def delivery (g : BasicGraph) (nodeID : String) (r : WorkItem × NodeResult) : Option (String × Envelope) :=
  (g.nodeByID r.1.nodeID).bind fun node =>
    (if r.2.err.isSome then some r.1.envelope else r.2.envelope).bind fun env =>
      let succ := routeSuccessors (g.successors r.1.nodeID) node env
      if nodeID ∈ succ.targets then succ.envelope.map fun env' => (r.1.nodeID, env') else none

variable {nodeID : String} {r : WorkItem × NodeResult}

theorem delivery_source {g : BasicGraph} {d : String × Envelope} (hdelivery : delivery g nodeID r = some d) :
    d.1 = r.1.nodeID ∧ nodeID ∈ g.successors d.1 := by
  grind [delivery, bind_eq_some_iff, map_eq_some_iff, routeSuccessors_sublist]

theorem delivery_leaf {g : BasicGraph} (hleaf : g.successors r.1.nodeID = []) : delivery g nodeID r = none := by
  cases hdelivery : delivery g nodeID r with
  | none => rfl
  | some d =>
    obtain ⟨hsource, hmem⟩ := delivery_source hdelivery
    rw [hsource, hleaf] at hmem
    cases hmem

def Delivered (g : Graph) (v : Ledger) : Prop :=
  ∀ id, deliveries id v.calls = (receivedItems v.calls).filterMap (delivery g.toBasicGraph id)

theorem Delivered.quiet (hv : Delivered g v) (hcalls : v'.calls = v.calls ++ calls)
    (hdeliveries : ∀ id, deliveries id calls = []) (hreceived : receivedItems calls = []) : Delivered g v' := by
  intro id
  rw [hcalls, deliveries_append, hdeliveries, receivedItems_append, hreceived, append_nil, append_nil, hv id]

theorem delivery_routed {item : WorkItem} {result : NodeResult} {answered : Multiset (WorkItem × NodeResult)}
    {env' : Envelope} {succ : Successors} (hknown : Known g v) (hrecorded : Recorded g v)
    (hallow : inputRecorded g v (.receive item result)) (hanswer : v.answered = (item, result) ::ₘ answered)
    (hresolved : Resolved g opts result v.state (some resultEnvelope) errs)
    (hnode : g.nodeByID result.nodeID = some node)
    (hsucc : determineSuccessors g node (some resultEnvelope) = some succ)
    (henv : succ.envelope = some env') (id : String) :
    delivery g id (item, result) = if id ∈ succ.targets then some (result.nodeID, env') else none := by
  obtain ⟨_, _, _, hid⟩ := hknown.take hanswer
  have hnodeID := g.wellFormed.node_id _ _ hnode
  by_cases hleaf : g.successors item.nodeID = []
  · have htargets : id ∉ succ.targets := by
      intro hmem
      have hmem' := (determineSuccessors_sublist hsucc).subset hmem
      rw [hnodeID, hid, hleaf] at hmem'
      cases hmem'
    rw [if_neg htargets]
    exact delivery_leaf hleaf
  · have hinput : ∀ {resolved : Option Envelope}, Resolved g opts result v.state resolved errs →
        (if result.err.isSome then some item.envelope else result.envelope) = resolved := by
      intro resolved hresolved
      obtain ⟨received, hreceived, hfailed⟩ :=
        Resolved.received hknown hrecorded hallow hanswer hleaf hresolved
      cases hresolved with
      | ok herr => simp [herr]
      | fallback herr => simp [herr, hreceived, hfailed]
    rw [determineSuccessors, hnodeID, hid, if_neg hleaf, map_some, some.injEq] at hsucc
    grind [delivery]

theorem Step.delivered (hstep : Step g opts env v a v') (hknown : Known g v) (hrecorded : Recorded g v)
    (hallow : inputRecorded g v a) (hintact : Intact v') (hv : Intact v → Delivered g v) : Delivered g v' := by
  have hrunning : (∀ ret, v.phase ≠ .stopped ret) → Delivered g v := by
    intro hphase
    exact hv fun ret hret => absurd hret (hphase ret)
  cases hstep with
  | start | finish => exact hv hintact
  | cancel | receiveFailed | receivePanicked => exact absurd hintact (not_intact_of_stopped rfl (by simp))
  | @receiveAbsent item result answered node errs hphase hanswer _ hnode hleaf =>
    obtain ⟨_, _, _, hid⟩ := hknown.take hanswer
    rw [g.wellFormed.node_id _ _ hnode, hid] at hleaf
    intro id
    have hbefore := hrunning (by simp [hphase]) id
    grind [deliveries, delivery_leaf, leave, take, receivedItems]
  | @receiveRouted item result answered node errs resultEnvelope env' succ hphase hanswer hresolved hnode hsucc
      henv =>
    intro id
    have hbefore := hrunning (by simp [hphase]) id
    have hnow := delivery_routed hknown hrecorded hallow hanswer hresolved hnode hsucc henv id
    grind [deliveries, receivedItems]
  | done t hphase => exact hrunning (by simp [hphase])
  | refused t hphase => exact (hrunning (by simp [hphase])).quiet rfl (fun _ => rfl) rfl
  | sent t hphase => exact (hrunning (by simp [hphase])).quiet rfl (fun _ => rfl) rfl
  | arrived t hphase => exact (hrunning (by simp [hphase])).quiet rfl (fun _ => rfl) rfl
  | fired t hphase _ _ _ hmerged =>
    exact (hrunning (by simp [hphase])).quiet rfl (Merged.calls_other hmerged ..).1 (hmerged.calls_eq ..).2.1
  | mergeFailed => exact absurd hintact (not_intact_of_stopped rfl (by simp))

theorem delivered_of_reachableUnder
    (hreach : (ledger g opts env).ReachableUnder (inputRecorded g) v) (hintact : Intact v) : Delivered g v := by
  have hboth : Recorded g v ∧ (Intact v → Delivered g v) := by
    refine invariant_of_known (I := fun v => Recorded g v ∧ (Intact v → Delivered g v)) hreach ?_
      ⟨recorded_of_reachable (LTS.ReachableUnder.init (a := ledger g opts env) _), fun _ _ => rfl⟩
    rintro v a v' hknown ⟨hrecorded, hv⟩ hallow hstep
    exact ⟨Step.recorded hstep hknown hrecorded,
      fun hintact => Step.delivered hstep hknown hrecorded hallow hintact hv⟩
  exact hboth.2 hintact

theorem received_of_reachable (hreach : (ledger g opts env).Reachable v) :
    ∀ r ∈ receivedItems v.calls, r.1.nodeID ∈ g.nodeOrder ∧ ∃ t, r.2 = runWork g r.1 t := by
  refine invariant_of_known (I := fun v => ∀ r ∈ receivedItems v.calls,
    r.1.nodeID ∈ g.nodeOrder ∧ ∃ t, r.2 = runWork g r.1 t) hreach ?_ (by
      simp [Ledger.init, receivedItems])
  intro v a v' hknown hv _ hstep r hr
  rcases Step.receivedItems_eq hstep with hsame | ⟨item, result, answered, _, hanswer, hcalls⟩
  · exact hv r (hsame ▸ hr)
  · rw [hcalls, mem_append, List.mem_singleton] at hr
    rcases hr with hr | rfl
    · exact hv r hr
    · refine ⟨(hknown.take hanswer).2.2.1, hknown.answers _ ?_⟩
      rw [hanswer]
      exact Multiset.mem_cons_self _ _

end Ledger

structure Passes (g : BasicGraph) (r : WorkItem × NodeResult) : Prop where
  ok : r.2.err = none
  envelope : g.successors r.1.nodeID ≠ [] →
    ∃ env, r.2.envelope = some env ∧ redirectTarget (g.successors r.1.nodeID) env = none

theorem Passes.route {g : Graph} {r : WorkItem × NodeResult} (hpasses : Passes g r)
    (hrouter : ∀ id node, g.nodeByID id = some node → node.router = false) {node : Node}
    {resultEnvelope env' : Envelope} {succ : Successors} (hnode : g.nodeByID r.1.nodeID = some node)
    (hresult : r.2.envelope = some resultEnvelope)
    (hsucc : determineSuccessors g node (some resultEnvelope) = some succ)
    (henv : succ.envelope = some env') : resultEnvelope = env' := by
  have hid := g.wellFormed.node_id _ _ hnode
  by_cases hleaf : g.successors r.1.nodeID = []
  · rw [determineSuccessors, hid, if_pos hleaf] at hsucc
    cases hsucc
    cases henv
    rfl
  · obtain ⟨passed, hpassed, hhint⟩ := hpasses.envelope hleaf
    grind [determineSuccessors_all]

namespace Ledger

def Passed (g : Graph) (v : Ledger) : Prop := ∀ r ∈ receivedItems v.calls, Passes g.toBasicGraph r

variable {g : Graph} {opts : RunOptions} {env : Envelope} {v v' : Ledger} {a : Action}

theorem Step.receivedItems_subset (hstep : Step g opts env v a v') :
    receivedItems v.calls ⊆ receivedItems v'.calls := by
  obtain ⟨calls, hcalls⟩ := hstep.calls_append
  rw [hcalls, receivedItems_append]
  exact subset_append_left _ _

theorem Step.passed (hstep : Step g opts env v a v') (hv : Passed g v') : Passed g v :=
  fun r hr => hv r (hstep.receivedItems_subset hr)

theorem reachableUnder_of_passed (hreach : (ledger g opts env).Reachable v) (hpassed : Passed g v) :
    (ledger g opts env).ReachableUnder (inputRecorded g) v := by
  refine hreach.under hpassed ?_
  intro v a v' _ hstep hpassed
  refine ⟨Step.passed hstep hpassed, ?_⟩
  have hreceived : ∀ {item : WorkItem} {result : NodeResult},
      (item, result) ∈ receivedItems v'.calls → inputRecorded g v (.receive item result) := by
    intro item result hmem hsuccessors
    have hpasses := hpassed _ hmem
    obtain ⟨env', henv, _⟩ := hpasses.envelope hsuccessors
    have hok : result.err = none := hpasses.ok
    have hsome : result.envelope = some env' := henv
    simp [hok, hsome]
  cases hstep with
  | receiveFailed | receivePanicked => exact hreceived (by simp [take, receivedItems])
  | receiveAbsent => exact hreceived (by simp [take, leave, receivedItems])
  | receiveRouted => exact hreceived (by simp [receivedItems])
  | _ => trivial

variable (hrouter : ∀ id node, g.nodeByID id = some node → node.router = false)
include hrouter

theorem delivery_passed {r : WorkItem × NodeResult} (hnode : r.1.nodeID ∈ g.nodeOrder) (hpasses : Passes g r)
    (id : String) : (delivery g id r).isSome = decide (r.1.nodeID ∈ g.preds id) := by
  by_cases hleaf : g.successors r.1.nodeID = []
  · rw [delivery_leaf hleaf]
    simp [Graph.Edge, hleaf]
  · obtain ⟨node, hfound, _⟩ := g.exists_node hnode
    obtain ⟨env', henv, hhint⟩ := hpasses.envelope hleaf
    have hroute : routeSuccessors (g.successors r.1.nodeID) node env' =
        { targets := g.successors r.1.nodeID, envelope := some env', events := [] } := by
      simp [routeSuccessors, hhint, hrouter _ node hfound]
    simp only [delivery, hfound, hpasses.ok, henv, hroute, isSome_none, Bool.false_eq_true, if_false,
      bind_some, map_some, Graph.mem_preds, Graph.Edge]
    split <;> simp [*]

theorem deliveries_passed
    (hreach : (ledger g opts env).Reachable v) (hpassed : Passed g v) (hintact : Intact v) (id : String) :
    (deliveries id v.calls).length = ∑ m ∈ g.preds id, receivedCount v.calls m := by
  have hreceived := received_of_reachable hreach
  rw [delivered_of_reachableUnder (reachableUnder_of_passed hreach hpassed) hintact id, length_filterMap_eq_countP]
  simp only [receivedCount]
  rw [← keyed.countP_mem_eq_sum (receivedItems v.calls) (fun r => r.1.nodeID) (g.preds id)]
  apply List.countP_congr
  intro r hr
  rw [delivery_passed hrouter (hreceived r hr).1 (hpassed r hr) id]

end Ledger

theorem calls_map_sent (items : List WorkItem) : sentItems (items.map .sent) = items ∧
    receivedItems (items.map .sent) = [] ∧ ∀ id, arrivals id (items.map .sent) = [] := by
  simp [sentItems, receivedItems, arrivals, List.filterMap_map]

section

variable (g : Graph) (opts : RunOptions) (env : Envelope) (s : State opts.concurrency)
  (hconc : 0 < opts.concurrency) (hreach : (executeGraphParallel g opts env).Reachable s)
include hconc hreach

/-- In every interleaving, what was sent is in flight or was received. The count that ends the
run is exact, never zero while the coordinator waits, and without an error nothing is left. -/
theorem work_conserved :
    (sentItems s.calls : Multiset WorkItem) = s.pool.inFlight + ((receivedItems s.calls).map Prod.fst : List WorkItem) ∧
      (s.coordinator.running = true → s.pendingCount + s.coordinator.addedPending = s.pool.inFlight.card) ∧
      (s.coordinator = .selecting → 0 < s.pendingCount) ∧
      ∀ final, s.coordinator = .returned (.returned final none) → s.pool.inFlight = 0 := by
  have hs := accounted_of_reachable hconc hreach
  have hview := ledger_reachable hconc hreach
  refine ⟨?_, hs.pending, hs.positive, fun final hcoord => ?_⟩
  · have hconserved := Ledger.conserved_of_reachable hview
    simp only [Ledger.Conserved, State.ledger, Ledger.items, sentItems_append, receivedItems_append,
      calls_map_sent] at hconserved
    -- the item that the coordinator holds is on both sides
    rw [append_nil, ← coe_add, add_comm, add_assoc, add_assoc, add_assoc] at hconserved
    rw [Pool.inFlight, add_assoc, add_assoc]
    exact add_left_cancel hconserved
  · have hdrained := Ledger.drained_of_reachable hview final (by simp [State.ledger, hcoord, Coordinator.phase])
    simpa [State.ledger, Ledger.items, hcoord, Coordinator.held, Pool.inFlight] using hdrained

/-- The coordinator's tables are exact: hop counts are results, merge nodes have the inputs that
arrived in their order, and the log starts what was sent and does not wait. -/
theorem bookkeeping_exact (id : String) :
    (isMerge g id = false → (s.state.stateOf id).hopCount = receivedCount s.calls id) ∧
      s.state.mergeInputs id = (arrivals id s.calls).map Prod.snd ∧
      executions s.log id + s.pool.waiting.countP (·.nodeID = id) = sentCount s.calls id := by
  have hview := ledger_reachable hconc hreach
  have hhops := Ledger.hopsCounted_of_reachable hview id
  have hinputs := Ledger.inputsKept_of_reachable hview id
  have hstarted := Ledger.started_of_reachable hview id
  simp only [State.ledger, receivedCount, sentCount, receivedItems_append, sentItems_append, arrivals_append,
    calls_map_sent, append_nil, countP_append, Multiset.countP_add, Multiset.coe_countP] at hhops hinputs hstarted
  exact ⟨hhops, hinputs, by rw [sentCount]; omega⟩

end

theorem fanOut_conserved : ∃ s, (executeGraphParallel fanOut.graph fanOut.opts {}).Reachable s ∧
    s.pendingCount + s.coordinator.addedPending = s.pool.inFlight.card :=
  (Machine.exists_reachable_of_exec fanOut.jam (·.coordinator.running) (by decide +kernel)).imp fun s h =>
    ⟨h.1, (work_conserved fanOut.graph fanOut.opts {} s (by decide) h.1).2.1 h.2⟩

theorem fanOut_counted : ∃ s, (executeGraphParallel fanOut.graph fanOut.opts {}).Reachable s ∧
    receivedCount s.calls "a" = 1 :=
  (Machine.exists_reachable_of_exec fanOut.jam (fun s => (s.state.stateOf "a").hopCount = 1) (by decide +kernel)).imp
    fun s h => ⟨h.1, ((bookkeeping_exact fanOut.graph fanOut.opts {} s (by decide) h.1 "a").1 rfl).symm.trans
      (of_decide_eq_true h.2)⟩

end petalflow.runtime
