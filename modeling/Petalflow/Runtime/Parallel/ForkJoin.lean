import Petalflow.Nodes.Merge
import Petalflow.Runtime.Parallel.Kept

open petalflow.core petalflow.graph petalflow.nodes machine List

namespace petalflow.runtime

/-- The merges that were made for a node: their inputs and their outcomes. -/
def mergeCalls (nodeID : String) (calls : List Call) : List (List Envelope × MergeOutcome) :=
  calls.filterMap fun
    | .mergeInputs id inputs outcome => if id = nodeID then some (inputs, outcome) else none
    | _ => none

@[simp] theorem mergeCalls_append (nodeID : String) (left right : List Call) :
    mergeCalls nodeID (left ++ right) = mergeCalls nodeID left ++ mergeCalls nodeID right :=
  filterMap_append

/-- In how many merges of a node the `i`-th of the inputs that arrived takes part,
when every merge is given the inputs that arrived so far. -/
def mergesOf (nodeID : String) (calls : List Call) (i : Nat) : Nat :=
  (mergeCalls nodeID calls).countP fun call => i < call.1.length

def readyInputs (g : BasicGraph) (nodeID : String) (merge : MergeCapable) (calls : List Call) :
    List (List Envelope) :=
  ((arrivals nodeID calls).map Prod.snd).inits.drop (neededInputs g nodeID merge)

variable {calls : List Call} {g : BasicGraph}

theorem readyInputs_arrive {nodeID source : String} {merge : MergeCapable} {env : Envelope}
    {new : List Call} (harrival : arrivals nodeID new = [(source, env)]) :
    readyInputs g nodeID merge (calls ++ new) = readyInputs g nodeID merge calls ++
      if neededInputs g nodeID merge ≤ (arrivals nodeID calls).length + 1 then
        [(arrivals nodeID calls).map Prod.snd ++ [env]] else [] := by
  rw [readyInputs, readyInputs, arrivals_append, harrival, map_append, map_singleton, trace.inits_concat,
    drop_append, length_inits, length_map]
  split
  · next hready => rw [Nat.sub_eq_zero_of_le hready, drop_zero]
  · grind [drop_eq_nil_iff]

namespace Ledger

variable {g : Graph} {opts : RunOptions} {env : Envelope} {v v' : Ledger}

/-- Every merge is given all inputs that have arrived, from the first moment on at
which they are enough. -/
def MergedPrefixes (g : Graph) (v : Ledger) : Prop :=
  ∀ id node merge merger, g.nodeByID id = some node → node.mergeCapable = some merge →
    merge.mergeInputs = some merger →
    (mergeCalls id v.calls).map Prod.fst = readyInputs g.toBasicGraph id merge v.calls ∧
      ∀ call ∈ mergeCalls id v.calls, ∃ t, call.2 = merger t call.1

theorem MergedPrefixes.quiet {calls : List Call} (hv : MergedPrefixes g v)
    (hcalls : v'.calls = v.calls ++ calls) (hmerges : ∀ id, mergeCalls id calls = [])
    (harrivals : ∀ id, arrivals id calls = []) : MergedPrefixes g v' := by
  intro id node merge merger hnode hmerge hmerger
  rw [hcalls, mergeCalls_append, hmerges, append_nil, readyInputs, arrivals_append, harrivals, append_nil]
  exact hv id node merge merger hnode hmerge hmerger

theorem MergedPrefixes.arrive {source succID : String} {resultEnvelope : Envelope} {node : Node}
    {merge : MergeCapable} {calls : List Call} (hv : MergedPrefixes g v)
    (hnode : g.nodeByID succID = some node) (hmerge : node.mergeCapable = some merge)
    (hcalls : v'.calls = v.calls ++ calls)
    (harrivals : ∀ id, arrivals id calls = if id = succID then [(source, resultEnvelope)] else [])
    (hother : ∀ id, id ≠ succID → mergeCalls id calls = [])
    (hmerges : ∀ merger, merge.mergeInputs = some merger → ∃ t, mergeCalls succID calls =
      (if neededInputs g succID merge ≤ (arrivals succID v.calls).length + 1 then
        [(arrivals succID v.calls).map Prod.snd ++ [resultEnvelope]] else []).map fun inputs =>
          (inputs, merger t inputs)) : MergedPrefixes g v' := by
  intro id node' merge' merger hnode' hmerge' hmerger
  obtain ⟨hprefixes, houtcomes⟩ := hv id node' merge' merger hnode' hmerge' hmerger
  rw [hcalls, mergeCalls_append, map_append, hprefixes]
  by_cases hid : id = succID
  · subst hid
    rw [hnode] at hnode'
    cases hnode'
    rw [hmerge] at hmerge'
    cases hmerge'
    obtain ⟨t, hnew⟩ := hmerges merger hmerger
    rw [readyInputs_arrive ((harrivals id).trans (if_pos rfl)), hnew, map_map]
    grind
  · rw [hother id hid, readyInputs, readyInputs, arrivals_append, harrivals, if_neg hid, append_nil,
      append_nil, map_nil, append_nil]
    exact ⟨rfl, houtcomes⟩

theorem Step.mergedPrefixes {a : Action} (hstep : Step g opts env v a v') (hkept : InputsKept v)
    (hv : MergedPrefixes g v) : MergedPrefixes g v' := by
  cases hstep with
  | receiveFailed | receivePanicked | receiveAbsent | receiveRouted | refused | sent =>
    exact hv.quiet rfl (fun _ => rfl) (fun _ => rfl)
  | arrived t hphase hnode hmerge hshort =>
    refine hv.arrive hnode hmerge rfl (fun _ => arrivals_singleton ..) (fun _ _ => rfl) fun _ _ => ⟨t, ?_⟩
    rw [hkept.length, ← not_le, ready_iff] at hshort
    rw [if_neg hshort]
    rfl
  | @fired source succID resultEnvelope merged rest node merge errs calls t hphase hnode hmerge hready hmerged =>
    obtain ⟨_, _, harrivals⟩ := hmerged.calls_eq source resultEnvelope
      { nodeID := succID, envelope := merged }
    rw [hkept.length, ready_iff] at hready
    refine hv.arrive hnode hmerge rfl harrivals ?_ fun merger hsome => ⟨t, ?_⟩
    · intro id hid
      cases hmerged <;> simp [mergeCalls, Ne.symm hid]
    · rw [if_pos hready, ← hkept succID]
      cases hmerged with
      | first hnone => simp [hnone] at hsome
      | merged hsome' hok =>
        rw [hsome] at hsome'
        cases hsome'
        simp [mergeCalls, hok]
      | fallback hsome' herr =>
        rw [hsome] at hsome'
        cases hsome'
        simp [mergeCalls, herr]
  | @mergeFailed source succID resultEnvelope rest node merge merger stop t hphase hnode hmerge hready hsome =>
    rw [hkept.length, ready_iff] at hready
    refine hv.arrive hnode hmerge rfl (fun id => arrivals_singleton id succID source resultEnvelope) ?_
      fun merger' hsome' => ⟨t, ?_⟩
    · intro id hid
      simp [mergeCalls, Ne.symm hid]
    · rw [hsome] at hsome'
      cases hsome'
      rw [if_pos hready, ← hkept succID]
      simp [mergeCalls]
  | _ => exact hv

theorem mergedPrefixes_of_reachable (hreach : (ledger g opts env).Reachable v) : MergedPrefixes g v := by
  have hboth : InputsKept v ∧ MergedPrefixes g v := by
    refine hreach.invariant (I := fun v => InputsKept v ∧ MergedPrefixes g v) ?_ ⟨fun _ => rfl, ?_⟩
    · rintro v a v' ⟨hkept, hv⟩ hstep
      exact ⟨Step.inputsKept hstep hkept, Step.mergedPrefixes hstep hkept hv⟩
    · intro id node merge merger _ _ _
      have hneeded : 1 ≤ neededInputs g id merge := le_max_left _ _
      exact ⟨(drop_eq_nil_of_le hneeded).symm, fun call hcall => absurd hcall not_mem_nil⟩
  exact hboth.2

end Ledger

theorem ledger_arrivals {n : Nat} (s : State n) (id : String) :
    arrivals id s.ledger.calls = arrivals id s.calls ∧ mergeCalls id s.ledger.calls = mergeCalls id s.calls := by
  simp [arrivals, mergeCalls, State.ledger]

/-- A merge node is given the inputs that have arrived at it, again and again from
the moment on at which they are enough. So every input takes part in exactly one
merge if and only if none has arrived or exactly as many as the node waits for. -/
theorem merged_once_iff (g : Graph) (opts : RunOptions) (env : Envelope) (hconc : 1 < opts.concurrency)
    (s : State opts.concurrency) (hreach : (executeGraphParallel g.toBasicGraph opts env).Reachable s)
    (id : String) (node : Node) (merge : MergeCapable) (merger : Nat → List Envelope → MergeOutcome)
    (hnode : g.nodeByID id = some node) (hmerge : node.mergeCapable = some merge)
    (hmerger : merge.mergeInputs = some merger) :
    (∀ call ∈ mergeCalls id s.calls, call.1 <+: (arrivals id s.calls).map Prod.snd) ∧
    ((∀ i, i < (arrivals id s.calls).length → mergesOf id s.calls i = 1) ↔ (arrivals id s.calls).length = 0 ∨
        (arrivals id s.calls).length = neededInputs g.toBasicGraph id merge) := by
  have hview := ledger_reachable (by omega) hreach
  obtain ⟨hprefixes, _⟩ := Ledger.mergedPrefixes_of_reachable hview id node merge merger hnode hmerge hmerger
  rw [readyInputs, (ledger_arrivals s id).1, (ledger_arrivals s id).2] at hprefixes
  have hcount : ∀ i, mergesOf id s.calls i =
      (arrivals id s.calls).length + 1 - max (neededInputs g id merge) (i + 1) := by
    intro i
    rw [← length_map (f := Prod.snd), ← trace.countP_inits, ← hprefixes, countP_map]
    rfl
  have hneeded : 1 ≤ neededInputs g id merge := le_max_left _ _
  refine ⟨?_, ?_, ?_⟩
  · grind [mem_map_of_mem, mem_inits]
  · intro honce
    by_cases hnone : (arrivals id s.calls).length = 0
    · exact .inl hnone
    · have hfirst := honce 0 (by omega)
      rw [hcount] at hfirst
      omega
  grind

namespace branches

def build (expectedInputs : Int) : Option Graph :=
  Graph.build? (["e", "a", "b"].map newNoopNode ++ [newMergeNode "m" { expectedInputs }])
    [⟨"e", "a"⟩, ⟨"e", "b"⟩, ⟨"a", "m"⟩, ⟨"b", "m"⟩] "e"

def waitsForAll : Graph := (build 0).get (by decide)

def waitsForOne : Graph := (build 1).get (by decide)

def waitsForThree : Graph := (build 3).get (by decide)

def rank (id : String) : Nat :=
  if id = "e" then 0 else if id = "m" then 2 else 1

def opts : RunOptions := { maxHops := 100, continueOnError := false, concurrency := 2 }

def start : List (Label 2) :=
  open Label in
  complete w₀ ++ [receive] ++ push ++ push ++ [schedule 0] ++ complete w₀ ++ complete w₁

def stop : List (Label 2) := [.worker Label.w₀ .exit, .worker Label.w₁ .exit, .wait]

def runOnce : List (Label 2) :=
  open Label in
  start ++ [receive, schedule 0, schedule 0, receive] ++ push ++ [schedule 0] ++ complete w₀ ++
    [receive, schedule 0] ++ stop

def runTwice : List (Label 2) :=
  open Label in
  start ++ [receive] ++ push ++ [schedule 0, receive] ++ push ++ [schedule 0] ++ complete w₀ ++ complete w₁ ++
    [receive, schedule 0, receive, schedule 0] ++ stop

def runNever : List (Label 2) :=
  start ++ [.receive, .schedule 0, .schedule 0, .receive, .schedule 0, .schedule 0] ++ stop

end branches

/-- With two branches and a merge node that waits for all of them, each of the two
inputs is merged once. -/
theorem waitsForAll_merged_once :
    ∃ s final, (executeGraphParallel branches.waitsForAll.toBasicGraph branches.opts {}).Reachable s ∧
      s.coordinator = .returned (.returned final none) ∧ (arrivals "m" s.calls).length = 2 ∧
      ∀ i, i < 2 → mergesOf "m" s.calls i = 1 := by
  obtain ⟨s, hreach, htest⟩ := Machine.exists_reachable_of_exec
    (m := executeGraphParallel branches.waitsForAll branches.opts {}) branches.runOnce
    (fun s => s.completed && decide ((arrivals "m" s.calls).length = 2)) (by decide +kernel)
  rw [Bool.and_eq_true, decide_eq_true_eq] at htest
  obtain ⟨final, hcoord⟩ := State.exists_of_completed htest.1
  obtain ⟨_, honce⟩ := merged_once_iff branches.waitsForAll branches.opts {} (by decide) s hreach "m" _ _ _
    rfl rfl rfl
  rw [htest.2] at honce
  exact ⟨s, final, hreach, hcoord, htest.2, honce.mpr (.inr (by decide))⟩

/-- A merge node that waits for one of its two inputs merges the first one twice;
one that waits for three merges none. -/
theorem waitsForOther_not_merged_once :
    branches.waitsForOne.Acyclic ∧ branches.waitsForThree.Acyclic ∧
    (∃ s final, (executeGraphParallel branches.waitsForOne.toBasicGraph branches.opts {}).Reachable s ∧
      s.coordinator = .returned (.returned final none) ∧ (arrivals "m" s.calls).length = 2 ∧
      mergesOf "m" s.calls 0 = 2) ∧
    ∃ s final, (executeGraphParallel branches.waitsForThree.toBasicGraph branches.opts {}).Reachable s ∧
      s.coordinator = .returned (.returned final none) ∧ (arrivals "m" s.calls).length = 2 ∧
      mergesOf "m" s.calls 0 = 0 := by
  obtain ⟨s₁, hreach₁, htest₁⟩ := Machine.exists_reachable_of_exec
    (m := executeGraphParallel branches.waitsForOne branches.opts {}) branches.runTwice
    (fun s => s.completed && decide ((arrivals "m" s.calls).length = 2 ∧ mergesOf "m" s.calls 0 = 2))
    (by decide +kernel)
  obtain ⟨s₂, hreach₂, htest₂⟩ := Machine.exists_reachable_of_exec
    (m := executeGraphParallel branches.waitsForThree branches.opts {}) branches.runNever
    (fun s => s.completed && decide ((arrivals "m" s.calls).length = 2 ∧ mergesOf "m" s.calls 0 = 0))
    (by decide +kernel)
  rw [Bool.and_eq_true, decide_eq_true_eq] at htest₁ htest₂
  obtain ⟨final₁, hcoord₁⟩ := State.exists_of_completed htest₁.1
  obtain ⟨final₂, hcoord₂⟩ := State.exists_of_completed htest₂.1
  exact ⟨Graph.acyclic_of_rank branches.rank (by decide +kernel),
    Graph.acyclic_of_rank branches.rank (by decide +kernel),
    ⟨s₁, final₁, hreach₁, hcoord₁, htest₁.2⟩, ⟨s₂, final₂, hreach₂, hcoord₂, htest₂.2⟩⟩

open Option Multiset Finset trace

open Ledger Graph

structure ForkJoin (g : Graph) : Prop where
  acyclic : g.Acyclic
  reachable : ∀ id ∈ g.nodeOrder, Relation.ReflTransGen g.Edge g.entry id
  joins : ∀ id node, g.nodeByID id = some node → 1 < (g.predecessors id).length →
    ∃ merge, node.mergeCapable = some merge ∧ merge.expectedInputs = 0
  router : ∀ id node, g.nodeByID id = some node → node.router = false

def SingleInputs (g : Graph) : Prop :=
  ∀ id node merge, g.nodeByID id = some node → node.mergeCapable = some merge →
    (g.predecessors id).length ≤ 1 → merge.expectedInputs ≤ 1

namespace ForkJoin

variable {g : Graph} {id : String} {node : Node}

theorem not_edge_entry (hg : ForkJoin g) (m : String) : ¬ g.Edge m g.entry := by
  intro hedge
  have hpath := hg.reachable m hedge.mem_nodeOrder.1
  exact hg.acyclic g.entry (Relation.TransGen.tail' hpath hedge)

theorem predecessors_pos (hg : ForkJoin g) (hid : id ∈ g.nodeOrder) (hne : id ≠ g.entry) :
    1 ≤ (g.predecessors id).length := by
  cases Relation.ReflTransGen.cases_tail (hg.reachable id hid) with
  | inl heq => exact absurd heq hne
  | inr hpath =>
    obtain ⟨m, _, hedge⟩ := hpath
    exact length_pos_of_mem (edge_iff_mem_predecessors.mp hedge)

theorem predecessors_le_one (hg : ForkJoin g) (hid : id ∈ g.nodeOrder)
    (hplain : isMerge g id = false) : (g.predecessors id).length ≤ 1 := by
  obtain ⟨node, hnode, _⟩ := g.exists_node hid
  by_contra hmany
  obtain ⟨merge, hmerge, _⟩ := hg.joins id node hnode (by omega)
  exact ne_of_not_isMerge hnode hmerge hplain rfl

theorem neededInputs_eq (hg : ForkJoin g) (hsingle : SingleInputs g) {merge : MergeCapable}
    (hnode : g.nodeByID id = some node) (hmerge : node.mergeCapable = some merge)
    (hpos : 1 ≤ (g.predecessors id).length) : neededInputs g id merge = (g.predecessors id).length := by
  unfold neededInputs expectedInputs
  by_cases hmany : 1 < (g.predecessors id).length
  · obtain ⟨merge', hmerge', hzero⟩ := hg.joins id node hnode hmany
    simp_all
  · have hone := hsingle id node merge hnode hmerge (by omega)
    split <;> omega

theorem of_check (rank : String → Nat) (hrank : ∀ e ∈ g.edges, rank e.fromNode < rank e.toNode)
    (hcheck : ∀ id ∈ g.nodeOrder, (id = g.entry ∨ g.predecessors id ≠ []) ∧ ∀ node ∈ g.nodeByID id,
      node.router = false ∧ (1 < (g.predecessors id).length →
        ∃ merge ∈ node.mergeCapable, merge.expectedInputs = 0)) : ForkJoin g where
  acyclic := acyclic_of_rank rank hrank
  reachable := by
    intro id
    induction id using (acyclic_of_rank rank hrank).wellFounded.induction with
    | h id ih =>
      intro hid
      rcases (hcheck id hid).1 with rfl | hpreds
      · exact .refl
      · obtain ⟨m, hm⟩ := exists_mem_of_ne_nil _ hpreds
        have hedge := edge_iff_mem_predecessors.mpr hm
        exact (ih m hedge hedge.mem_nodeOrder.1).tail hedge
  joins := fun id node hnode => ((hcheck id (g.mem_nodeOrder_of_node hnode)).2 node hnode).2
  router := fun id node hnode => ((hcheck id (g.mem_nodeOrder_of_node hnode)).2 node hnode).1

end ForkJoin

theorem SingleInputs.of_check {g : Graph} (hcheck : ∀ id ∈ g.nodeOrder, ∀ node ∈ g.nodeByID id,
    ∀ merge ∈ node.mergeCapable, (g.predecessors id).length ≤ 1 → merge.expectedInputs ≤ 1) : SingleInputs g :=
  fun id node merge hnode hmerge => hcheck id (g.mem_nodeOrder_of_node hnode) node hnode merge hmerge

def StartedInOrder (g : Graph) (log : List Event) : Prop :=
  trace.Preceded (fun before e => ∀ id m, e.isOf .nodeStarted id = true → g.Edge m id →
    ∃ e' ∈ before, e'.isOf .nodeFinished m = true) log

theorem StartedInOrder.append {g : Graph} {log events : List Event} (hlog : StartedInOrder g log)
    (hevents : ∀ e ∈ events, e.kind ≠ .nodeStarted) : StartedInOrder g (log ++ events) := by
  apply Preceded.append hlog
  grind [Event.isOf]

namespace Ledger

section

variable {g : Graph} {opts : RunOptions} {env : Envelope} {v v' : Ledger} {a : Action}

theorem Step.receivedCount_le (hstep : Step g opts env v a v') (id : String) :
    receivedCount v.calls id ≤ receivedCount v'.calls id := by
  obtain ⟨calls, hcalls⟩ := hstep.calls_append
  rw [hcalls, receivedCount_append]
  exact Nat.le_add_right _ _

variable (hreach : (ledger g opts env).Reachable v)
include hreach

theorem maxHops_le_of_refused : ∀ id, 0 < refusedCount v.calls id → opts.maxHops ≤ receivedCount v.calls id := by
  refine hreach.invariant_back (B := fun _ => True)
    (I := fun v => ∀ id, 0 < refusedCount v.calls id → opts.maxHops ≤ receivedCount v.calls id) trivial
    (fun _ _ _ _ _ => trivial) ?_ ?_
  · intro v a v' hreach hv _ hstep id hrefused
    refine le_trans ?_ (Step.receivedCount_le hstep id)
    rcases Step.refusedCount_eq hstep id with hsame | ⟨_, _, _, _, _, _, hplain, hhops⟩
    · rw [hsame] at hrefused
      exact hv id hrefused
    · rwa [hopsCounted_of_reachable hreach id hplain] at hhops
  · intro id hrefused
    cases hrefused

theorem envelope_of_intact (hintact : Intact v) :
    ∀ r ∈ receivedItems v.calls, r.2.err = none → g.successors r.1.nodeID ≠ [] → r.2.envelope.isSome = true := by
  refine hreach.invariant_back (I := fun v => ∀ r ∈ receivedItems v.calls, r.2.err = none →
    g.successors r.1.nodeID ≠ [] → r.2.envelope.isSome = true) hintact
    (fun _ _ _ hstep => Step.intact hstep) ?_ (by simp [ledger, Ledger.init, receivedItems])
  intro v a v' hreach hv hintact hstep r hr herr hsuccessors
  rcases Step.receivedItems_eq hstep with hsame | ⟨item, result, answered, rfl, hanswer, hcalls⟩
  · exact hv r (hsame ▸ hr) herr hsuccessors
  · rw [hcalls, mem_append, List.mem_singleton] at hr
    rcases hr with hr | rfl
    · exact hv r hr herr hsuccessors
    · obtain ⟨_, _, _, hid⟩ := (known_of_reachable hreach).take hanswer
      cases hstep with
      | receiveFailed _ _ hfailed =>
        rw [herr] at hfailed
        cases hfailed
      | receivePanicked => exact absurd hintact (not_intact_of_stopped rfl (by simp))
      | receiveAbsent _ _ _ hnode hleaf =>
        rw [g.wellFormed.node_id _ _ hnode, hid] at hleaf
        exact absurd hleaf hsuccessors
      | receiveRouted _ _ hresolved =>
        rw [← (hresolved.of_success herr).1]
        rfl

structure Smooth (g : Graph) (v : Ledger) : Prop where
  passed : Passed g v
  intact : Intact v
  once : ∀ id, receivedCount v.calls id ≤ 1

omit hreach in
theorem Step.smooth (hstep : Step g opts env v a v') (hv : Smooth g v') : Smooth g v :=
  ⟨Step.passed hstep hv.passed, Step.intact hstep hv.intact,
    fun id => (Step.receivedCount_le hstep id).trans (hv.once id)⟩

theorem sentCount_pos {item : WorkItem} (hitem : item ∈ v.items) : 0 < sentCount v.calls item.nodeID := by
  have hsent := (conserved_of_reachable hreach).sentCount_eq item.nodeID
  have hcopies : 0 < v.copies item.nodeID := countP_pos.mpr ⟨item, hitem, rfl⟩
  omega

theorem exists_finished (hpassed : Passed g v) {m : String} (hreceived : 0 < receivedCount v.calls m) :
    ∃ e ∈ v.log, e.isOf .nodeFinished m = true := by
  obtain ⟨r, hr, hid⟩ := countP_pos_iff.mp hreceived
  have hmem : endedOf g r ∈ (endings v.log : Multiset Ended) := by
    rw [logged_of_reachable hreach]
    apply Multiset.mem_map_of_mem
    exact mem_add.mpr (.inr hr)
  have hfinished := exists_nodeFinished (mem_coe.mp hmem) (hpassed r hr).ok
  rwa [← of_decide_eq_true hid]

omit hreach

theorem finishEvents_kind (g : BasicGraph) (item : WorkItem) (t : Nat) :
    ∀ e ∈ finishEvents g item t, e.kind ≠ .nodeStarted := by
  unfold finishEvents
  cases g.nodeByID item.nodeID with
  | none => simp
  | some node =>
    cases hrun : node.run t item.envelope <;>
      simp [hrun, nodeEnded, Event.withNode, Event.withPayload, Event.newEvent]

end

variable {g : Graph} {opts : RunOptions} {env : Envelope} {v v' : Ledger} (hg : ForkJoin g)
  (hsingle : SingleInputs g)

include hg hsingle

variable (hreach : (ledger g opts env).Reachable v)
include hreach

theorem predecessors_le_deliveries (hintact : Intact v) {id : String} (hid : id ∈ g.nodeOrder) (hne : id ≠ g.entry)
    (hsent : 0 < sentCount v.calls id) : (g.predecessors id).length ≤ (deliveries id v.calls).length := by
  have hflow := flow_of_reachable hreach hintact
  have hpos := hg.predecessors_pos hid hne
  cases hmerge : isMerge g id with
  | false =>
    have hdecided := hflow.decided_length hmerge
    have hone := hg.predecessors_le_one hid hmerge
    rw [if_neg hne] at hdecided
    omega
  | true =>
    obtain ⟨node, merge, hnode, hmerge'⟩ := exists_of_isMerge hmerge
    have hfired := hflow.fired id node merge hnode hmerge'
    rw [firings, hg.neededInputs_eq hsingle hnode hmerge' hpos, if_neg hne] at hfired
    rw [hflow.arrived id hmerge, length_append]
    omega

theorem received_of_sent (hpassed : Passed g v) (hintact : Intact v) (honce : ∀ id, receivedCount v.calls id ≤ 1)
    {id m : String} (hsent : 0 < sentCount v.calls id) (hedge : g.Edge m id) : 0 < receivedCount v.calls m := by
  have hne : id ≠ g.entry := by
    rintro rfl
    exact hg.not_edge_entry m hedge
  have hle := predecessors_le_deliveries hg hsingle hreach hintact hedge.mem_nodeOrder.2 hne hsent
  rw [deliveries_passed hg.router hreach hpassed hintact, ← card_preds, card_eq_sum_ones] at hle
  by_contra hnone
  have hless := Finset.sum_lt_sum (s := g.preds id) (fun i _ => honce i)
    ⟨m, mem_preds.mpr hedge, show receivedCount v.calls m < 1 by omega⟩
  omega

omit hreach in
theorem sentCount_eq_one (hmax : 1 ≤ opts.maxHops) (hreach : (ledger g opts env).Reachable v)
    (hpassed : Passed g v) {final : Option Envelope} (hphase : v.phase = .stopped (.returned final none))
    (id : String) : id ∈ g.nodeOrder → sentCount v.calls id = 1 := by
  have hintact := intact_of_returned hphase
  have hflow := flow_of_reachable hreach hintact
  have hpending : ∀ id, v.phase.pending id = [] := fun id => by rw [hphase]; rfl
  have hreceived := receivedCount_of_returned hreach hphase
  induction id using hg.acyclic.wellFounded.induction with
  | h id ih =>
    intro hid
    -- the predecessors have sent one envelope each
    have hdeliveries : (deliveries id v.calls).length = (g.predecessors id).length := by
      rw [deliveries_passed hg.router hreach hpassed hintact, ← card_preds, card_eq_sum_ones]
      refine sum_congr rfl fun m hm => ?_
      have hedge := mem_preds.mp hm
      rw [hreceived m, ih m hedge hedge.mem_nodeOrder.1]
    have hentry : id = g.entry → (g.predecessors id).length = 0 := by
      rintro rfl
      rw [length_eq_zero_iff, eq_nil_iff_forall_not_mem]
      exact fun m hm => hg.not_edge_entry m (edge_iff_mem_predecessors.mpr hm)
    cases hmerge : isMerge g id with
    | false =>
      have hdecided := hflow.decided_length hmerge
      have hone := hg.predecessors_le_one hid hmerge
      have hrefused := maxHops_le_of_refused hreach id
      have hsame := hreceived id
      rw [hpending, length_nil] at hdecided
      by_cases hid' : id = g.entry
      · grind
      · rw [if_neg hid'] at hdecided
        have hpos := hg.predecessors_pos hid hid'
        omega
    | true =>
      obtain ⟨node, merge, hnode, hmerge'⟩ := exists_of_isMerge hmerge
      have hfired := hflow.fired id node merge hnode hmerge'
      have harrived := congrArg List.length (hflow.arrived id hmerge)
      rw [hpending, append_nil] at harrived
      rw [← harrived, hdeliveries, firings] at hfired
      by_cases hid' : id = g.entry
      · simp_all [neededInputs]
      · rw [if_neg hid', hg.neededInputs_eq hsingle hnode hmerge' (hg.predecessors_pos hid hid')] at hfired
        omega

theorem receivedInOrder_of_reachable (hsmooth : Smooth g v) :
    trace.Preceded (fun before r => ∀ m, g.Edge m r.1.nodeID → ∃ r' ∈ before, r'.1.nodeID = m)
      (receivedItems v.calls) := by
  refine hreach.invariant_back
    (I := fun v => Preceded (fun before r => ∀ m, g.Edge m r.1.nodeID → ∃ r' ∈ before, r'.1.nodeID = m)
      (receivedItems v.calls)) hsmooth (fun _ _ _ hstep => Step.smooth hstep) ?_ Preceded.nil
  intro v a v' hreach hv hsmooth hstep
  rcases Step.receivedItems_eq hstep with hsame | ⟨item, result, answered, rfl, hanswer, hcalls⟩
  · rw [hsame]
    exact hv
  · rw [hcalls]
    apply hv.concat
    intro m hedge
    have hbefore := Step.smooth hstep hsmooth
    have hsent : 0 < sentCount v.calls item.nodeID := by
      apply sentCount_pos hreach
      rw [items_take hanswer]
      exact Multiset.mem_cons_self _ _
    have hreceived := received_of_sent hg hsingle hreach hbefore.passed hbefore.intact hbefore.once hsent hedge
    obtain ⟨r, hr, hid⟩ := countP_pos_iff.mp hreceived
    exact ⟨r, hr, of_decide_eq_true hid⟩

theorem startedInOrder_of_reachable (hsmooth : Smooth g v) : StartedInOrder g v.log := by
  have hinit : StartedInOrder g (ledger g opts env).init.log := Preceded.nil
  refine hreach.invariant_back (I := fun v => StartedInOrder g v.log) hsmooth
    (fun _ _ _ hstep => Step.smooth hstep) ?_ hinit
  intro v a v' hreach hv hsmooth hstep
  have hbefore := Step.smooth hstep hsmooth
  cases hstep with
  | @start item waiting hitem =>
    have hmem : item ∈ v.items := by simp [items, hitem]
    obtain ⟨node, hnode, hid⟩ := g.exists_node ((known_of_reachable hreach).items item hmem)
    simp only [startEvents, hnode, elim_some]
    apply Preceded.concat hv
    intro id m hstarted hedge
    have hsame : item.nodeID = id := by
      simpa [Event.isOf, nodeStarted, Event.withNode, Event.newEvent, hid] using hstarted
    rw [← hsame] at hedge
    exact exists_finished hreach hbefore.passed (received_of_sent hg hsingle hreach hbefore.passed
      hbefore.intact hbefore.once (sentCount_pos hreach hmem) hedge)
  | finish t => exact hv.append (finishEvents_kind _ _ t)
  | receiveRouted _ _ _ _ hsucc => exact hv.append fun e he => ((determineSuccessors_interim hsucc).quiet e he).1
  | _ => exact hv

omit hg hsingle hreach

structure LastResult (env : Envelope) (v : Ledger) : Prop where
  scheduled : ∀ source resultEnvelope successors, v.phase = .scheduling source resultEnvelope successors →
    ∃ before r, receivedItems v.calls = before ++ [r] ∧ r.2.envelope = some resultEnvelope
  returned : ∀ final, v.phase = .stopped (.returned final none) →
    ∃ before r, receivedItems v.calls = before ++ [r] ∧
      final = some (v.state.appendRecordedErrors (r.2.envelope.getD env))

theorem LastResult.schedule {source : String} {resultEnvelope : Envelope} {successors rest : List String}
    (hv : LastResult env v) (hphase : v.phase = .scheduling source resultEnvelope successors)
    (hphase' : v'.phase = .scheduling source resultEnvelope rest)
    (hcalls : receivedItems v'.calls = receivedItems v.calls) : LastResult env v' := by
  refine ⟨?_, ?_⟩
  · intro source' env' successors' hscheduling
    rw [hphase'] at hscheduling
    cases hscheduling
    rw [hcalls]
    exact hv.scheduled _ _ _ hphase
  · intro final hreturned
    rw [hphase'] at hreturned
    cases hreturned

variable {before : List (WorkItem × NodeResult)} {r : WorkItem × NodeResult}

theorem LastResult.leave (hcalls : receivedItems v.calls = before ++ [r]) :
    LastResult env (v.leave env r.2.envelope) := by
  refine ⟨fun _ _ _ hphase => absurd hphase leave_phase_ne, ?_⟩
  grind [Ledger.leave]

theorem Step.lastResult {a : Action} (hstep : Step g opts env v a v')
    (hrouter : ∀ id node, g.nodeByID id = some node → node.router = false) (hknown : Known g v)
    (hpassed : Passed g v') (hv : LastResult env v) : LastResult env v' := by
  cases hstep with
  | start | finish => exact ⟨hv.scheduled, hv.returned⟩
  | cancel | receiveFailed | receivePanicked => exact ⟨by simp, by simp⟩
  | @receiveAbsent item result answered node errs _ hanswer hresolved =>
    have hcalls : receivedItems (v.calls ++ [.received item result]) = receivedItems v.calls ++ [(item, result)] :=
      receivedItems_append ..
    have hpasses : Passes g (item, result) := hpassed _ (by simp [Ledger.leave, take, receivedItems])
    have hnone : none = result.envelope := (hresolved.of_success hpasses.ok).1
    rw [hnone]
    exact LastResult.leave (r := (item, result)) hcalls
  | @receiveRouted item result answered node errs resultEnvelope env' succ _ hanswer hresolved hnode hsucc henv =>
    have hcalls : receivedItems (v.calls ++ [.received item result, .routed result.nodeID env' succ.targets]) =
        receivedItems v.calls ++ [(item, result)] := receivedItems_append ..
    have hpasses : Passes g (item, result) := hpassed _ (by simp [receivedItems])
    have hsome : some resultEnvelope = result.envelope := (hresolved.of_success hpasses.ok).1
    obtain ⟨_, _, _, hid⟩ := hknown.take hanswer
    rw [hid] at hnode
    have hsame := hpasses.route hrouter hnode hsome.symm hsucc henv
    refine ⟨?_, by simp⟩
    intro source env'' successors hphase
    cases hphase
    exact ⟨_, _, hcalls, hsame ▸ hsome.symm⟩
  | done t hphase =>
    obtain ⟨before, r, hcalls, henv⟩ := hv.scheduled _ _ _ hphase
    rw [← henv]
    exact LastResult.leave hcalls
  | refused t hphase | sent t hphase | arrived t hphase => exact hv.schedule hphase rfl (by simp [receivedItems])
  | fired t hphase _ _ _ hmerged =>
    refine hv.schedule hphase rfl ?_
    rw [receivedItems_append, (hmerged.calls_eq ..).2.1, append_nil]
  | mergeFailed => exact ⟨by simp, fun final hphase => absurd (Phase.stopped.inj hphase) (by simp)⟩

theorem lastResult_of_reachable (hrouter : ∀ id node, g.nodeByID id = some node → node.router = false)
    (hreach : (ledger g opts env).Reachable v) (hpassed : Passed g v) : LastResult env v := by
  refine hreach.invariant_back hpassed (fun _ _ _ hstep => Step.passed hstep) ?_ ⟨?_, ?_⟩
  · intro v a v' hreach hv hpassed hstep
    exact Step.lastResult hstep hrouter (known_of_reachable hreach) hpassed hv
  · simp [ledger, Ledger.init]
  · simp [ledger, Ledger.init]

theorem last_is_sink (hacyclic : g.Acyclic) (honce : ∀ id, receivedCount v.calls id ≤ 1)
    (hall : ∀ id ∈ g.nodeOrder, 0 < receivedCount v.calls id)
    (horder : trace.Preceded (fun before r => ∀ m, g.Edge m r.1.nodeID → ∃ r' ∈ before, r'.1.nodeID = m)
      (receivedItems v.calls))
    (hlast : receivedItems v.calls = before ++ [r]) : g.successors r.1.nodeID = [] := by
  rw [eq_nil_iff_forall_not_mem]
  intro n hn
  have hedge : g.Edge r.1.nodeID n := hn
  obtain ⟨r', hmem, hid⟩ := countP_pos_iff.mp (hall n hedge.mem_nodeOrder.2)
  replace hid : r'.1.nodeID = n := of_decide_eq_true hid
  rw [hlast, mem_append, List.mem_singleton] at hmem
  rcases hmem with hmem | rfl
  · -- a successor was handled earlier, and so this node before it
    obtain ⟨earlier, later, hsplit⟩ := append_of_mem hmem
    have hstart : earlier ++ [r'] <+: receivedItems v.calls := by
      refine ⟨later ++ [r], ?_⟩
      rw [hlast, hsplit]
      simp
    obtain ⟨r'', hmem'', hid''⟩ := horder earlier r' hstart r.1.nodeID (hid ▸ hedge)
    have hfirst : 0 < earlier.countP (·.1.nodeID = r.1.nodeID) :=
      countP_pos_iff.mpr ⟨r'', hmem'', decide_eq_true hid''⟩
    have htwice := honce r.1.nodeID
    rw [receivedCount, hlast, hsplit, countP_append, countP_append, countP_singleton,
      if_pos (decide_eq_true rfl)] at htwice
    omega
  · rw [hid] at hedge
    exact hacyclic n (.single hedge)

end Ledger

structure Succeeded (g : BasicGraph) (calls : List Call) : Prop where
  ok : ∀ r ∈ receivedItems calls, r.2.err = none
  redirect : ∀ r ∈ receivedItems calls, ∀ env ∈ r.2.envelope,
    redirectTarget (g.successors r.1.nodeID) env = none
  merged : ∀ id, ∀ call ∈ mergeCalls id calls, ∃ env, call.2 = .merged env

theorem Succeeded.filterMap_failure (hcalls : Succeeded g calls) : calls.filterMap (Call.failure g) = [] := by
  rw [filterMap_eq_nil_iff]
  intro call hcall
  cases call with
  | received item result =>
    have herr : result.err = none := hcalls.ok (item, result) (List.mem_filterMap.mpr ⟨_, hcall, rfl⟩)
    simp [Call.failure, Ended.failure, endedOf, herr]
  | mergeInputs id inputs outcome =>
    obtain ⟨env', houtcome⟩ := hcalls.merged id (inputs, outcome) (List.mem_filterMap.mpr ⟨_, hcall, by simp⟩)
    replace houtcome : outcome = .merged env' := houtcome
    rw [houtcome]
    rfl
  | _ => rfl

namespace Ledger

variable {g : Graph} {opts : RunOptions} {env : Envelope} {v : Ledger} {final : Option Envelope}
  (hreach : (ledger g opts env).Reachable v)
include hreach

theorem passed_of_succeeded (hintact : Intact v) (hcalls : Succeeded g v.calls) : Passed g v := by
  intro r hr
  refine ⟨hcalls.ok r hr, fun hsuccessors => ?_⟩
  obtain ⟨env', henv⟩ := isSome_iff_exists.mp
    (envelope_of_intact hreach hintact r hr (hcalls.ok r hr) hsuccessors)
  exact ⟨env', henv, hcalls.redirect r hr env' henv⟩

theorem recordedErrors_of_succeeded (hintact : Intact v) (hcalls : Succeeded g v.calls) :
    v.state.recordedErrors = [] := by
  have hrecorded := errorsRecorded_of_reachable hreach hintact
  rwa [ErrorsRecorded, hcalls.filterMap_failure, map_eq_nil_iff] at hrecorded

theorem smooth_of_returned (hg : ForkJoin g) (hsingle : SingleInputs g) (hmax : 1 ≤ opts.maxHops)
    (hpassed : Passed g v) (hphase : v.phase = .stopped (.returned final none)) : Smooth g v := by
  refine ⟨hpassed, intact_of_returned hphase, fun id => ?_⟩
  by_cases hid : id ∈ g.nodeOrder
  · grind [receivedCount_of_returned, sentCount_eq_one]
  · by_contra hmany
    obtain ⟨r, hr, hrid⟩ := countP_pos_iff.mp (show 0 < receivedCount v.calls id by omega)
    exact hid (of_decide_eq_true hrid ▸ (received_of_reachable hreach r hr).1)

theorem returned_of_sink (hg : ForkJoin g) (hsingle : SingleInputs g) (hmax : 1 ≤ opts.maxHops)
    (hcalls : Succeeded g v.calls) (hphase : v.phase = .stopped (.returned final none)) {sink : String}
    (hsink : ∀ id ∈ g.nodeOrder, g.successors id = [] ↔ id = sink) :
    ∃ r, keyed.group (fun r => r.1.nodeID) (receivedItems v.calls) sink = [r] ∧
      final = some (r.2.envelope.getD env) := by
  have hintact := intact_of_returned hphase
  have hpassed := passed_of_succeeded hreach hintact hcalls
  have hsmooth := smooth_of_returned hreach hg hsingle hmax hpassed hphase
  have hreceived : ∀ id ∈ g.nodeOrder, receivedCount v.calls id = 1 := by
    intro id hid
    grind [receivedCount_of_returned, sentCount_eq_one]
  obtain ⟨before, r, hlast, hfinal⟩ := (lastResult_of_reachable hg.router hreach hpassed).returned final hphase
  have hmem : r ∈ receivedItems v.calls := by simp [hlast]
  have hnode := (received_of_reachable hreach r hmem).1
  have hleaf := last_is_sink hg.acyclic hsmooth.once (fun id hid => (hreceived id hid).ge)
    (receivedInOrder_of_reachable hg hsingle hreach hsmooth) hlast
  have hid : r.1.nodeID = sink := (hsink _ hnode).mp hleaf
  have hlength : (keyed.group (fun r => r.1.nodeID) (receivedItems v.calls) sink).length = 1 := by
    rw [keyed.group, ← countP_eq_length_filter, ← hid]
    exact hreceived _ hnode
  obtain ⟨only, honly⟩ := length_eq_one_iff.mp hlength
  have hr : r ∈ keyed.group (fun r => r.1.nodeID) (receivedItems v.calls) sink :=
    keyed.mem_group.mpr ⟨hmem, hid⟩
  grind [ParallelState.appendRecordedErrors, recordedErrors_of_succeeded]

end Ledger

/-- A fork-join graph runs every node exactly once, and after all of its
predecessors, in every run that completes with all executions and merges
succeeding and no redirect; if the graph has a single sink, the envelope of its
execution is returned. -/
theorem forkJoin_runs_once (g : Graph) (opts : RunOptions) (env : Envelope) (hconc : 1 < opts.concurrency)
    (hmax : 1 ≤ opts.maxHops) (hg : ForkJoin g) (hsingle : SingleInputs g) (s : State opts.concurrency)
    (hreach : (executeGraphParallel g.toBasicGraph opts env).Reachable s) (final : Option Envelope)
    (hdone : s.coordinator = .returned (.returned final none)) (hcalls : Succeeded g.toBasicGraph s.calls) :
    (∀ id ∈ g.nodeOrder, executions s.log id = 1) ∧ StartedInOrder g s.log ∧
    ∀ sink, (∀ id ∈ g.nodeOrder, g.successors id = [] ↔ id = sink) →
      ∃ r, keyed.group (fun r => r.1.nodeID) (receivedItems s.calls) sink = [r] ∧
        final = some (r.2.envelope.getD env) := by
  have hview := ledger_reachable (by omega) hreach
  have hphase : s.ledger.phase = .stopped (.returned final none) := congrArg Coordinator.phase hdone
  rw [← State.ledger_calls_of_returned hdone] at hcalls ⊢
  have hpassed := passed_of_succeeded hview (intact_of_returned hphase) hcalls
  have hsmooth := smooth_of_returned hview hg hsingle hmax hpassed hphase
  refine ⟨?_, startedInOrder_of_reachable hg hsingle hview hsmooth, ?_⟩
  · intro id hid
    rw [← sentCount_eq_one hg hsingle hmax hview hpassed hphase id hid]
    exact executions_of_returned hview hphase id
  · intro sink hsink
    exact returned_of_sink hview hg hsingle hmax hcalls hphase hsink

def Call.succeeds (g : BasicGraph) : Call → Bool
  | .received item result => result.err.isNone && result.envelope.all fun env =>
      (redirectTarget (g.successors item.nodeID) env).isNone
  | .mergeInputs _ _ (.merged _) => true
  | .mergeInputs _ _ _ => false
  | _ => true

theorem succeeded_of_all (hall : calls.all (Call.succeeds g) = true) : Succeeded g calls := by
  rw [List.all_eq_true] at hall
  have hreceived : ∀ r ∈ receivedItems calls, r.2.err = none ∧
      ∀ env ∈ r.2.envelope, redirectTarget (g.successors r.1.nodeID) env = none := by
    intro r hr
    obtain ⟨call, hcall, hsome⟩ := List.mem_filterMap.mp hr
    cases call with
    | received item result =>
      cases hsome
      simpa [Call.succeeds, Option.all_eq_true] using hall _ hcall
    | _ => cases hsome
  refine ⟨fun r hr => (hreceived r hr).1, fun r hr => (hreceived r hr).2, ?_⟩
  intro id call hcall
  obtain ⟨call', hcall', hsome⟩ := List.mem_filterMap.mp hcall
  cases call' with
  | mergeInputs id' inputs outcome =>
    have hsucceeds := hall _ hcall'
    cases outcome with
    | merged env => grind
    | failed | panicked => cases hsucceeds
  | _ => cases hsome

namespace branches

def waitsForMore : Graph :=
  (Graph.build? [newNoopNode "e", newMergeNode "m" { expectedInputs := 2 }] [⟨"e", "m"⟩] "e").get (by decide)

def runEntry : List (Label 2) := Label.complete Label.w₀ ++ [.receive, .schedule 0, .schedule 0] ++ stop

end branches

/-- Two branches that meet in a merge node: each of the four nodes is run once,
and the merge node's envelope is returned. -/
theorem waitsForAll_runs_once :
    ∃ s final, (executeGraphParallel branches.waitsForAll.toBasicGraph branches.opts {}).Reachable s ∧
      s.coordinator = .returned (.returned final none) ∧
      (∀ id ∈ branches.waitsForAll.nodeOrder, executions s.log id = 1) ∧
      StartedInOrder branches.waitsForAll s.log ∧
      ∃ r, keyed.group (fun r => r.1.nodeID) (receivedItems s.calls) "m" = [r] ∧
        final = some (r.2.envelope.getD {}) := by
  obtain ⟨s, hreach, htest⟩ := Machine.exists_reachable_of_exec
    (m := executeGraphParallel branches.waitsForAll branches.opts {}) branches.runOnce
    (fun s => s.completed && s.calls.all (Call.succeeds branches.waitsForAll)) (by decide +kernel)
  rw [Bool.and_eq_true] at htest
  obtain ⟨final, hdone⟩ := State.exists_of_completed htest.1
  obtain ⟨honce, horder, hsink⟩ := forkJoin_runs_once branches.waitsForAll branches.opts {} (by decide) (by decide)
    (ForkJoin.of_check branches.rank (by decide +kernel) (by decide +kernel))
    (SingleInputs.of_check (by decide +kernel)) s hreach final hdone (succeeded_of_all htest.2)
  exact ⟨s, final, hreach, hdone, honce, horder, hsink "m" (by decide +kernel)⟩

/-- A merge node on a single branch that waits for two inputs is never run. -/
theorem waitsForMore_not_run :
    ForkJoin branches.waitsForMore ∧ "m" ∈ branches.waitsForMore.nodeOrder ∧
    ∃ s final, (executeGraphParallel branches.waitsForMore.toBasicGraph branches.opts {}).Reachable s ∧
      s.coordinator = .returned (.returned final none) ∧
      Succeeded branches.waitsForMore.toBasicGraph s.calls ∧ executions s.log "m" = 0 := by
  obtain ⟨s, hreach, htest⟩ := Machine.exists_reachable_of_exec
    (m := executeGraphParallel branches.waitsForMore branches.opts {}) branches.runEntry
    (fun s => s.completed && (s.calls.all (Call.succeeds branches.waitsForMore) &&
      decide (executions s.log "m" = 0))) (by decide +kernel)
  rw [Bool.and_eq_true, Bool.and_eq_true, decide_eq_true_eq] at htest
  obtain ⟨final, hdone⟩ := State.exists_of_completed htest.1
  exact ⟨ForkJoin.of_check branches.rank (by decide +kernel) (by decide +kernel), by decide +kernel, s, final,
    hreach, hdone, succeeded_of_all htest.2.1, htest.2.2⟩

end petalflow.runtime
