import Petalflow.Runtime.Parallel.ForkJoin

open petalflow.core petalflow.graph petalflow.nodes machine List

namespace petalflow.runtime

open Graph

/-! What a run does that does not depend on its timing. -/

def sentTo (nodeID : String) (calls : List Call) : List Envelope :=
  (keyed.group WorkItem.nodeID (sentItems calls) nodeID).map WorkItem.envelope

@[simp] theorem sentTo_append (nodeID : String) (left right : List Call) :
    sentTo nodeID (left ++ right) = sentTo nodeID left ++ sentTo nodeID right := by
  simp [sentTo, keyed.group]

variable {calls : List Call}

theorem sentTo_of_sentItems {item : WorkItem} (hsent : sentItems calls = [item]) (nodeID : String) :
    sentTo nodeID calls = if nodeID = item.nodeID then [item.envelope] else [] := by
  by_cases hid : nodeID = item.nodeID
  · simp [sentTo, keyed.group, hsent, hid]
  · simp [sentTo, keyed.group, hsent, hid, Ne.symm hid]

theorem group_sentItems (nodeID : String) (calls : List Call) : keyed.group WorkItem.nodeID (sentItems calls) nodeID =
      (sentTo nodeID calls).map fun env => { nodeID, envelope := env } := by
  rw [sentTo, List.map_map]
  refine (map_id _).symm.trans (map_congr_left ?_)
  intro item hitem
  rw [← (keyed.mem_group.mp hitem).2]
  rfl

variable {nodeID : String}

theorem decisions_eq_sentTo (hnone : refusedCount calls nodeID = 0) :
    decisions nodeID calls = sentTo nodeID calls := by
  induction calls with
  | nil => rfl
  | cons call rest ih =>
    rw [← singleton_append, refusedCount_append] at hnone
    rw [← singleton_append, decisions_append, sentTo_append, ih (by omega), append_cancel_right_eq]
    cases call with
    | sent item =>
      rw [sentTo_of_sentItems rfl]
      by_cases hid : nodeID = item.nodeID
      · simp [decisions, hid]
      · simp [decisions, hid, Ne.symm hid]
    | refused id env => grind [refusedCount, decisions, sentTo, sentItems, keyed.group]
    | _ => rfl

def mergedEnvelope (opts : RunOptions) (merge : MergeCapable) (inputs : List Envelope) : Option Envelope :=
  match merge.mergeInputs with
  | none => inputs.head?
  | some merger =>
    match merger 0 inputs with
    | .merged env => some env
    | .failed _ => if opts.continueOnError then inputs.head? else none
    | .panicked => none

def branchSources (g : BasicGraph) (nodeID : String) (calls : List Call) : List String :=
  ((receivedItems calls).filter fun r => r.1.nodeID ∈ g.predecessors nodeID).map fun r => r.1.nodeID

/-- The condition on the order of results: the predecessors of a merge node have
their results handled in the order of the branches, each at most once. -/
def inBranchOrder (g : BasicGraph) (v : Ledger) : Action → Prop
  | .receive item _ =>
    ∀ id ∈ g.successors item.nodeID, isMerge g id = true →
      (branchSources g id v.calls ++ [item.nodeID]).Sublist (g.predecessors id)
  | _ => True

/-- The condition on scheduling: an ordinary successor has hops left. -/
def hopsSuffice (g : BasicGraph) (opts : RunOptions) (v : Ledger) : Action → Prop
  | .schedule _ =>
    ∀ succID ∈ v.phase.next, isMerge g succID = false → (v.state.stateOf succID).hopCount < opts.maxHops
  | _ => True

instance (g : BasicGraph) (v : Ledger) : (a : Action) → Decidable (inBranchOrder g v a)
  | .receive _ _ => by
    unfold inBranchOrder
    infer_instance
  | .start _ | .finish _ _ | .cancel | .schedule _ => .isTrue trivial

instance (g : BasicGraph) (opts : RunOptions) (v : Ledger) : (a : Action) → Decidable (hopsSuffice g opts v a)
  | .schedule _ => by
    unfold hopsSuffice
    infer_instance
  | .start _ | .finish _ _ | .cancel | .receive _ _ => .isTrue trivial

def timely (g : BasicGraph) (opts : RunOptions) (v : Ledger) (a : Action) : Prop :=
  inputRecorded g v a ∧ inBranchOrder g v a ∧ hopsSuffice g opts v a

instance (g : BasicGraph) (opts : RunOptions) (v : Ledger) (a : Action) : Decidable (timely g opts v a) := by
  unfold timely
  infer_instance

def Deterministic (g : Graph) : Prop := ∀ id node, g.nodeByID id = some node → node.Deterministic

variable {opts : RunOptions} {t : Nat} {node : Node} {merge : MergeCapable} {inputs : List Envelope}

theorem Merged.envelope_eq {merged : Envelope} {errs : List NodeError}
    (hmerged : Merged opts t nodeID node.kind merge inputs merged errs calls) (hdet : node.Deterministic)
    (hmerge : node.mergeCapable = some merge) : mergedEnvelope opts merge inputs = some merged := by
  unfold mergedEnvelope
  cases hmerged with
  | first hnone hhead => rw [hnone, ← hhead]
  | merged hsome hok =>
    rw [hdet.merge merge hmerge _ hsome] at hok
    simp only [hsome, hok]
  | fallback hsome herr hcont hhead =>
    rw [hdet.merge merge hmerge _ hsome] at herr
    simp [hsome, herr, hcont, hhead]

theorem MergeStops.envelope_eq {merger : Nat → List Envelope → MergeOutcome} {stop : MergeStop}
    (hstops : MergeStops opts nodeID (merger t inputs) stop) (hdet : node.Deterministic)
    (hmerge : node.mergeCapable = some merge) (hsome : merge.mergeInputs = some merger) :
    mergedEnvelope opts merge inputs = none := by
  rw [hdet.merge merge hmerge merger hsome] at hstops
  unfold mergedEnvelope
  generalize houtcome : merger 0 inputs = outcome at hstops
  cases hstops with
  | failed message hstop => simp [hsome, houtcome, hstop]
  | panicked => simp only [hsome, houtcome]

namespace Ledger

variable {g : Graph} {env : Envelope} {v v' : Ledger}

def MergedSent (g : Graph) (opts : RunOptions) (env : Envelope) (v : Ledger) : Prop :=
  ∀ id node merge, g.nodeByID id = some node → node.mergeCapable = some merge →
    sentTo id v.calls = (if id = g.entry then [env] else []) ++
      (readyInputs g.toBasicGraph id merge v.calls).filterMap (mergedEnvelope opts merge)

theorem MergedSent.quiet (hv : MergedSent g opts env v) (hcalls : v'.calls = v.calls ++ calls)
    (hsent : ∀ id, isMerge g id = true → sentTo id calls = [])
    (harrivals : ∀ id, arrivals id calls = []) : MergedSent g opts env v' := by
  grind [sentTo_append, readyInputs, arrivals_append, MergedSent, isMerge]

theorem MergedSent.arrive {source succID : String} {resultEnvelope : Envelope} (hv : MergedSent g opts env v)
    (hnode : g.nodeByID succID = some node) (hmerge : node.mergeCapable = some merge)
    (hcalls : v'.calls = v.calls ++ calls)
    (harrivals : ∀ id, arrivals id calls = if id = succID then [(source, resultEnvelope)] else [])
    (hother : ∀ id, id ≠ succID → sentTo id calls = []) (hsent : sentTo succID calls =
      (if neededInputs g succID merge ≤ (arrivals succID v.calls).length + 1 then
        [(arrivals succID v.calls).map Prod.snd ++ [resultEnvelope]] else []).filterMap
          (mergedEnvelope opts merge)) : MergedSent g opts env v' := by
  intro id node' merge' hnode' hmerge'
  rw [hcalls, sentTo_append, hv id node' merge' hnode' hmerge']
  by_cases hid : id = succID
  · subst hid
    rw [hnode] at hnode'
    cases hnode'
    rw [hmerge] at hmerge'
    cases hmerge'
    rw [readyInputs_arrive ((harrivals id).trans (if_pos rfl)), filterMap_append, hsent, append_assoc]
  simp_all [readyInputs]

theorem Step.mergedSent {a : Action} (hstep : Step g opts env v a v') (hdet : Deterministic g)
    (hkept : InputsKept v) (hv : MergedSent g opts env v) : MergedSent g opts env v' := by
  cases hstep with
  | receiveFailed | receivePanicked | receiveAbsent | receiveRouted | refused =>
    exact hv.quiet rfl (fun _ _ => rfl) (fun _ => rfl)
  | sent t hphase hnode hplain =>
    refine hv.quiet rfl ?_ (fun _ => rfl)
    intro id hid
    rw [sentTo_of_sentItems rfl, if_neg (ne_of_isMerge hnode hplain hid)]
  | arrived t hphase hnode hmerge hshort =>
    refine hv.arrive hnode hmerge rfl (fun _ => arrivals_singleton ..) (fun _ _ => rfl) ?_
    rw [hkept.length, ← not_le, ready_iff] at hshort
    rw [if_neg hshort]
    rfl
  | @fired source succID resultEnvelope merged rest node merge errs calls t hphase hnode hmerge hready hmerged =>
    obtain ⟨hsent, _, harrivals⟩ := hmerged.calls_eq source resultEnvelope
      { nodeID := succID, envelope := merged }
    rw [hkept.length, ready_iff] at hready
    refine hv.arrive hnode hmerge rfl harrivals ?_ ?_
    · intro id hid
      rw [sentTo_of_sentItems hsent, if_neg hid]
    · have hmerged' := hmerged.envelope_eq (hdet succID node hnode) hmerge
      rw [hkept succID] at hmerged'
      rw [sentTo_of_sentItems hsent, if_pos hready]
      simp [hmerged']
  | @mergeFailed source succID resultEnvelope rest node merge merger stop t hphase hnode hmerge hready hsome
      hstops =>
    rw [hkept.length, ready_iff] at hready
    refine hv.arrive hnode hmerge rfl (fun id => arrivals_singleton id succID source resultEnvelope)
      (fun _ _ => rfl) ?_
    have hmerged := hstops.envelope_eq (hdet succID node hnode) hmerge hsome
    rw [hkept succID] at hmerged
    rw [if_pos hready]
    simp [hmerged, sentTo, sentItems, keyed.group]
  | _ => exact hv

theorem mergedSent_of_reachable (hdet : Deterministic g) (hreach : (ledger g opts env).Reachable v) :
    MergedSent g opts env v := by
  have hboth : InputsKept v ∧ MergedSent g opts env v := by
    refine hreach.invariant (I := fun v => InputsKept v ∧ MergedSent g opts env v) ?_ ⟨fun _ => rfl, ?_⟩
    · rintro v a v' ⟨hkept, hv⟩ hstep
      exact ⟨Step.inputsKept hstep hkept, Step.mergedSent hstep hdet hkept hv⟩
    · intro id node merge _ _
      have hready : readyInputs g id merge (Ledger.init g env).calls = [] :=
        drop_eq_nil_of_le (le_max_left _ _)
      have hsent : sentItems (Ledger.init g env).calls = [{ nodeID := g.entry, envelope := env }] := rfl
      change sentTo id (Ledger.init g env).calls = _ ++ (readyInputs _ _ _ (Ledger.init g env).calls).filterMap _
      rw [hready, filterMap_nil, append_nil, sentTo_of_sentItems hsent]
  exact hboth.2

def BranchOrdered (g : Graph) (v : Ledger) : Prop :=
  ∀ id, isMerge g.toBasicGraph id = true → (branchSources g.toBasicGraph id v.calls).Sublist (g.predecessors id)

variable (hreach : (ledger g opts env).ReachableUnder (timely g opts) v)
include hreach

theorem branchOrdered_of_reachableUnder : BranchOrdered g v := by
  refine hreach.invariant ?_ (fun _ _ => nil_sublist _)
  rintro v a v' hv ⟨_, hallow, _⟩ hstep id hid
  unfold branchSources
  rcases Step.receivedItems_eq hstep with hsame | ⟨item, result, answered, rfl, _, hcalls⟩
  · rw [hsame]
    exact hv id hid
  · rw [hcalls, filter_append, map_append]
    by_cases hmem : id ∈ g.successors item.nodeID
    · have hpred : item.nodeID ∈ g.predecessors id := edge_iff_mem_predecessors.mp hmem
      have hnext := hallow id hmem hid
      rw [branchSources] at hnext
      simpa [hpred] using hnext
    · have hpred : item.nodeID ∉ g.predecessors id := fun h => hmem (edge_iff_mem_predecessors.mpr h)
      have hbefore := hv id hid
      rw [branchSources] at hbefore
      simpa [hpred] using hbefore

theorem refusedCount_of_reachableUnder (id : String) : refusedCount v.calls id = 0 := by
  have hnone : ∀ id, refusedCount v.calls id = 0 := by
    refine hreach.invariant (I := fun v => ∀ id, refusedCount v.calls id = 0) ?_ (fun _ => rfl)
    rintro v a v' hv ⟨_, _, hallow⟩ hstep id
    rcases Step.refusedCount_eq hstep id with hsame | ⟨t, source, resultEnvelope, rest, rfl, hphase, hplain, hhops⟩
    · rw [hsame]
      exact hv id
    · have hleft := hallow id (by rw [hphase]; rfl) hplain
      omega
  exact hnone id

omit hreach

structure Settled (g : Graph) (opts : RunOptions) (env : Envelope) (v : Ledger) : Prop where
  handled : (receivedItems v.calls).Perm
    ((sentItems v.calls).map fun item => (item, runWork g.toBasicGraph item 0))
  delivered : Delivered g v
  arrived : ∀ id, isMerge g.toBasicGraph id = true → arrivals id v.calls = deliveries id v.calls
  sent : ∀ id, isMerge g.toBasicGraph id = false →
    sentTo id v.calls = (if id = g.entry then [env] else []) ++ (deliveries id v.calls).map Prod.snd
  merged : MergedSent g opts env v
  ordered : BranchOrdered g v

theorem settled_of_reachableUnder (hdet : Deterministic g)
    (hreach : (ledger g opts env).ReachableUnder (timely g opts) v) {final : Option Envelope}
    (hphase : v.phase = .stopped (.returned final none)) : Settled g opts env v := by
  have hreach' := hreach.reachable
  have hintact := intact_of_returned hphase
  have hflow := flow_of_reachable hreach' hintact
  have hpending : ∀ id, v.phase.pending id = [] := fun id => by rw [hphase]; rfl
  refine ⟨?_, ?_, ?_, ?_, mergedSent_of_reachable hdet hreach', branchOrdered_of_reachableUnder hreach⟩
  · have hresults : receivedItems v.calls =
        ((receivedItems v.calls).map Prod.fst).map fun item => (item, runWork g item 0) := by
      rw [List.map_map]
      refine (map_id _).symm.trans (map_congr_left ?_)
      intro r hr
      obtain ⟨hnode, t, hresult⟩ := received_of_reachable hreach' r hr
      obtain ⟨node, hfound, _⟩ := g.exists_node hnode
      have hrun : runWork g r.1 t = runWork g r.1 0 := by
        simp only [runWork, hfound, (hdet _ node hfound).run t]
      exact Prod.ext rfl (hresult.trans hrun)
    have hconserved := conserved_of_reachable hreach'
    rw [Conserved, drained_of_reachable hreach' final hphase, zero_add, Multiset.coe_eq_coe] at hconserved
    rw [hresults]
    exact hconserved.symm.map _
  · exact delivered_of_reachableUnder (LTS.ReachableUnder.mono hreach fun _ _ hallow => hallow.1) hintact
  · intro id hid
    have harrived := hflow.arrived id hid
    simp_all
  · intro id hid
    have hdecided := hflow.decided id hid
    grind [decisions_eq_sentTo, refusedCount_of_reachableUnder]

variable {w : Ledger}

theorem Settled.group_eq (hv : Settled g opts env v) (id : String) :
    (keyed.group (fun r => r.1.nodeID) (receivedItems v.calls) id).Perm
      ((sentTo id v.calls).map fun env' =>
        ({ nodeID := id, envelope := env' }, runWork g { nodeID := id, envelope := env' } 0)) := by
  have hgroup := hv.handled.filter fun r => r.1.nodeID = id
  rw [filter_map] at hgroup
  refine hgroup.trans (Perm.of_eq ?_)
  have hsent := congrArg (List.map fun item => (item, runWork g item 0))
    (group_sentItems id v.calls)
  rw [List.map_map] at hsent
  exact hsent

variable {id : String}

theorem delivery_of_not_mem (r : WorkItem × NodeResult) (hpred : r.1.nodeID ∉ g.predecessors id) :
    delivery g id r = none := by
  cases hdelivery : delivery g id r with
  | none => rfl
  | some d =>
    obtain ⟨hsource, hmem⟩ := delivery_source hdelivery
    rw [hsource] at hmem
    exact absurd (edge_iff_mem_predecessors.mp hmem) hpred

variable (hv : Settled g opts env v)
include hv

theorem Settled.deliveries_perm (hw : Settled g opts env w)
    (hpreds : ∀ m, g.Edge m id → (sentTo m v.calls).Perm (sentTo m w.calls)) :
    (deliveries id v.calls).Perm (deliveries id w.calls) := by
  have hparts : ∀ u, Delivered g u → (deliveries id u.calls).Perm ((g.predecessors id).flatMap fun m =>
      (keyed.group (fun r => r.1.nodeID) (receivedItems u.calls) m).filterMap (delivery g id)) := by
    intro u hu
    rw [hu id]
    exact keyed.filterMap_perm_flatMap (g.predecessors_nodup id) delivery_of_not_mem _
  refine (hparts v hv.delivered).trans (Perm.trans ?_ (hparts w hw.delivered).symm)
  refine Perm.flatMap_left _ fun m hm => Perm.filterMap _ ?_
  have hsent := hpreds m (edge_iff_mem_predecessors.mpr hm)
  exact (hv.group_eq m).trans ((hsent.map _).trans (hw.group_eq m).symm)

theorem Settled.deliveries_eq (hw : Settled g opts env w) (hmerge : isMerge g id = true)
    (hpreds : ∀ m, g.Edge m id → (sentTo m v.calls).Perm (sentTo m w.calls)) :
    deliveries id v.calls = deliveries id w.calls := by
  have hparts : ∀ u, Settled g opts env u → deliveries id u.calls = (g.predecessors id).flatMap fun m =>
      (keyed.group (fun r => r.1.nodeID) (receivedItems u.calls) m).filterMap (delivery g id) := by
    intro u hu
    rw [hu.delivered id]
    exact keyed.filterMap_eq_flatMap (g.predecessors_nodup id) delivery_of_not_mem (hu.ordered id hmerge)
  rw [hparts v hv, hparts w hw]
  apply flatMap_congr
  intro m hm
  have hsent := hpreds m (edge_iff_mem_predecessors.mpr hm)
  have hperm := (hv.group_eq m).trans ((hsent.map _).trans (hw.group_eq m).symm)
  -- a branch has at most one result, so there is nothing to reorder
  rw [keyed.eq_of_perm_of_length_le hperm
    (keyed.group_length_le (g.predecessors_nodup id) (hv.ordered id hmerge) hm)]

theorem Settled.sentTo_perm (hacyclic : g.Acyclic) (hw : Settled g opts env w) (id : String) :
    (sentTo id v.calls).Perm (sentTo id w.calls) := by
  induction id using hacyclic.wellFounded.induction with
  | h id ih =>
    by_cases hmerge : isMerge g id = true
    · obtain ⟨node, merge, hnode, hmerge'⟩ := exists_of_isMerge hmerge
      have harrivals : arrivals id v.calls = arrivals id w.calls := by
        rw [hv.arrived id hmerge, hw.arrived id hmerge, hv.deliveries_eq hw hmerge ih]
      rw [hv.merged id node merge hnode hmerge', hw.merged id node merge hnode hmerge', readyInputs, readyInputs,
        harrivals]
    · rw [Bool.not_eq_true] at hmerge
      rw [hv.sent id hmerge, hw.sent id hmerge]
      exact ((hv.deliveries_perm hw ih).map Prod.snd).append_left _

theorem Settled.arrivals_eq (hacyclic : g.Acyclic) (hw : Settled g opts env w)
    (hmerge : isMerge g id = true) : arrivals id v.calls = arrivals id w.calls := by
  rw [hv.arrived id hmerge, hw.arrived id hmerge]
  exact hv.deliveries_eq hw hmerge fun m _ => hv.sentTo_perm hacyclic hw m

theorem Settled.arrivals_sublist (hmerge : isMerge g id = true) :
    ((arrivals id v.calls).map Prod.fst).Sublist (g.predecessors id) := by
  refine Sublist.trans ?_ (hv.ordered id hmerge)
  rw [hv.arrived id hmerge, hv.delivered id, branchSources]
  generalize receivedItems v.calls = received
  induction received with
  | nil => exact .slnil
  | cons r rest ih =>
    cases hdelivery : delivery g id r with
    | none => grind
    | some d =>
      obtain ⟨hsource, hmem⟩ := delivery_source hdelivery
      have hpred : r.1.nodeID ∈ g.predecessors id := by
        rw [← hsource]
        exact edge_iff_mem_predecessors.mp hmem
      simp_all

omit hv

theorem mergeCalls_of_reachable (hdet : Deterministic g) (hreach : (ledger g opts env).Reachable v)
    {merger : Nat → List Envelope → MergeOutcome} (hnode : g.nodeByID id = some node)
    (hmerge : node.mergeCapable = some merge) (hmerger : merge.mergeInputs = some merger) :
    mergeCalls id v.calls = (readyInputs g id merge v.calls).map fun inputs =>
      (inputs, merger 0 inputs) := by
  obtain ⟨hprefixes, houtcomes⟩ := mergedPrefixes_of_reachable hreach id node merge merger hnode hmerge hmerger
  rw [← hprefixes, List.map_map]
  refine (map_id _).symm.trans (map_congr_left ?_)
  intro call hcall
  obtain ⟨t, ht⟩ := houtcomes call hcall
  rw [(hdet id node hnode).merge merge hmerge merger hmerger] at ht
  exact Prod.ext rfl ht

end Ledger

/-- Every node is a function of its envelope, or a merge node that leaves its inputs as they are. (The branches
of a graph may share the maps that are nested in an envelope, and a deep merge writes into them.) -/
def PureBranches (g : Graph) : Prop := ∀ id node, g.nodeByID id = some node →
  (node.mergeCapable = none ∧ node.Deterministic) ∨
    ∃ id config, node = newMergeNode id config ∧ ∀ strategy ∈ config.strategy, strategy.LeavesInputs

theorem PureBranches.deterministic (hpure : PureBranches g) : Deterministic g := by
  intro id node hnode
  rcases hpure id node hnode with ⟨_, hdet⟩ | ⟨id, config, rfl, hleaves⟩
  · exact hdet
  · exact newMergeNode_deterministic id config fun strategy hstrategy => (hleaves strategy hstrategy).deterministic

namespace race

def newBranch (id : String) : Node :=
  newFuncNode id fun _ env => .ok (some ((env.setVar "winner" (.str id)).setVar "score" (.num .int 1)))

def nodes (strategy : MergeStrategy) : List Node :=
  [newNoopNode "e", newBranch "a", newBranch "b", newMergeNode "m" { strategy := some strategy }]

def build (strategy : MergeStrategy) : Option Graph :=
  Graph.build? (nodes strategy) [⟨"e", "a"⟩, ⟨"e", "b"⟩, ⟨"a", "m"⟩, ⟨"b", "m"⟩] "e"

def json : Graph := (build (newJSONMergeStrategy {})).get (by decide)

def concat : Graph := (build (newConcatMergeStrategy (fun _ => "") { varName := "winner" })).get (by decide)

def bestScore : Graph := (build (newBestScoreMergeStrategy { scoreVar := "score" })).get (by decide)

/-- The two branches run at once; the results are handled in the order of delivery. -/
def run (finish deliver : List (Fin 2)) : List (Label 2) :=
  open Label in
  complete w₀ ++ [receive] ++ push ++ push ++
    [schedule 0, worker w₀ .take, worker w₁ .take, worker w₀ .start, worker w₁ .start] ++
    finish.map (worker · (.finish 0)) ++ deliver.map (worker · .deliver) ++
    [receive, schedule 0, schedule 0, receive] ++ push ++ [schedule 0] ++ complete w₀ ++
    [receive, schedule 0] ++ branches.stop

def winner {n : Nat} (s : State n) : Option String :=
  match s.coordinator with
  | .returned (.returned (some env) none) =>
    match env.getVar "winner" with
    | some (.str name) => some name
    | _ => none
  | _ => none

theorem pure {strategy : MergeStrategy} (hbuild : (build strategy).isSome) (hleaves : strategy.LeavesInputs) :
    PureBranches ((build strategy).get hbuild) := by
  intro id node hnode
  have hmem := build?_nodes hbuild hnode
  simp only [nodes, mem_cons, not_mem_nil, or_false] at hmem
  rcases hmem with rfl | rfl | rfl | rfl
  · exact .inl ⟨rfl, fun _ _ => rfl, nofun⟩
  · exact .inl ⟨rfl, fun _ _ => rfl, nofun⟩
  · exact .inl ⟨rfl, fun _ _ => rfl, nofun⟩
  · exact .inr ⟨"m", _, rfl, fun _ hstrategy => Option.some.inj hstrategy ▸ hleaves⟩

/-- On a graph of two branches the envelope of a completed run depends on which
of the branches is handled first. -/
def Depends (g : Graph) : Prop :=
  g.Acyclic ∧ PureBranches g ∧ ∃ s₁ s₂ name₁ name₂,
    (executeGraphParallel g.toBasicGraph branches.opts {}).Reachable s₁ ∧
    (executeGraphParallel g.toBasicGraph branches.opts {}).Reachable s₂ ∧
    winner s₁ = some name₁ ∧ winner s₂ = some name₂ ∧ name₁ ≠ name₂

theorem depends {g : Graph} (hacyclic : g.Acyclic) (hpure : PureBranches g) {name₁ name₂ : String}
    (hne : name₁ ≠ name₂) (hfirst : ((executeGraphParallel g branches.opts {}).exec (run [0, 1] [0, 1])
      (State.init g {})).any (fun s => decide (winner s = some name₁)) = true)
    (hsecond : ((executeGraphParallel g branches.opts {}).exec (run [0, 1] [1, 0])
      (State.init g {})).any (fun s => decide (winner s = some name₂)) = true) : Depends g := by
  obtain ⟨s₁, hreach₁, htest₁⟩ := Machine.exists_reachable_of_exec
    (m := executeGraphParallel g branches.opts {}) _ _ hfirst
  obtain ⟨s₂, hreach₂, htest₂⟩ := Machine.exists_reachable_of_exec
    (m := executeGraphParallel g branches.opts {}) _ _ hsecond
  rw [decide_eq_true_eq] at htest₁ htest₂
  exact ⟨hacyclic, hpure, s₁, s₂, name₁, name₂, hreach₁, hreach₂, htest₁, htest₂, hne⟩

end race

end petalflow.runtime
