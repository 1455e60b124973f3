import Petalflow.Runtime.Parallel.Kept
import Petalflow.Runtime.Sequential.Paths

open petalflow.core petalflow.graph machine

namespace petalflow.runtime

namespace Ledger

variable {g : Graph} {Good : Envelope → Prop}

theorem runWork_straight (hstraight : Straight g Good) {item : WorkItem} (hitem : item.nodeID ∈ g.nodeOrder)
    (hgood : Good item.envelope) (t : Nat) :
    ∃ env', runWork g item t = { nodeID := item.nodeID, envelope := some env', err := none } ∧ Good env' := by
  obtain ⟨node, hnode, _⟩ := g.exists_node hitem
  obtain ⟨env', hrun, hgood'⟩ := hstraight.run _ node hnode t item.envelope hgood
  exact ⟨env', by simp [runWork, hnode, hrun], hgood'⟩

theorem keeps_of_straight (hstraight : Straight g Good) (hplain : ∀ id, isMerge g id = false) : Keeps g Good where
  run := by
    intro id node hnode t env env' hgood hrun
    obtain ⟨env'', hrun', hgood'⟩ := hstraight.run id node hnode t env hgood
    rw [hrun] at hrun'
    cases hrun'
    exact hgood'
  merge := fun id node merge _ hnode hmerge => absurd rfl (ne_of_not_isMerge hnode hmerge (hplain id))
  redirect := by
    intro id env target hgood htarget
    rw [hstraight.hint id env hgood] at htarget
    cases htarget

variable {opts : RunOptions} {env : Envelope} {v v' : Ledger} (hacyclic : g.Acyclic)
  (hstraight : Straight g Good)
  (hgood : Good env) (hplain : ∀ id, isMerge g id = false)

include hstraight hgood hplain

variable (hreach : (ledger g opts env).Reachable v)
include hreach

theorem passed_of_straight : Passed g v := by
  intro r hr
  obtain ⟨hnode, t, hresult⟩ := received_of_reachable hreach r hr
  have hreceived := (allGood_of_reachable (keeps_of_straight hstraight hplain) hgood hreach).received r hr
  obtain ⟨env', hrun, hgood'⟩ := runWork_straight hstraight hnode hreceived t
  rw [hrun] at hresult
  exact ⟨by rw [hresult], fun _ => ⟨env', by rw [hresult], hstraight.hint _ env' hgood'⟩⟩

theorem deliveries_straight (hintact : Intact v) (id : String) :
    (deliveries id v.calls).length = ∑ m ∈ g.preds id, receivedCount v.calls m :=
  deliveries_passed hstraight.router hreach (passed_of_straight hstraight hgood hplain hreach) hintact id

include hacyclic

theorem decisions_le_pathCount (hintact : Intact v) (id : String) :
    (if id = g.entry then 1 else 0) + (deliveries id v.calls).length ≤ g.pathCount id := by
  have hflow := flow_of_reachable hreach hintact
  refine Graph.le_pathCount hacyclic
    (f := fun id => (if id = g.entry then 1 else 0) + (deliveries id v.calls).length) ?_ id
  intro id
  rw [deliveries_straight hstraight hgood hplain hreach hintact]
  refine Nat.add_le_add_left (Finset.sum_le_sum ?_) _
  intro m _
  have hsent := (conserved_of_reachable hreach).sentCount_eq m
  have hdecided := hflow.decided_length (hplain m)
  omega

omit hreach

theorem refusedCount_straight (hpaths : ∀ id, g.pathCount id ≤ opts.maxHops)
    (hreach : (ledger g opts env).Reachable v) (id : String) : refusedCount v.calls id = 0 := by
  have hboth : (ledger g opts env).Reachable v ∧ ∀ id, refusedCount v.calls id = 0 := by
    refine hreach.invariant
      (I := fun v => (ledger g opts env).Reachable v ∧ ∀ id, refusedCount v.calls id = 0) ?_
      ⟨LTS.ReachableUnder.init _, fun _ => rfl⟩
    rintro v a v' ⟨hreach, hv⟩ hstep
    refine ⟨LTS.ReachableUnder.step hreach trivial hstep, ?_⟩
    intro id
    rcases Ledger.Step.refusedCount_eq hstep id with hsame | ⟨t, source, resultEnvelope, rest, _, hphase, _, hhops⟩
    · rw [hsame]
      exact hv id
    · -- the envelope at hand was not counted among the handled results
      have hintact := intact_of_scheduling hphase
      have hle := decisions_le_pathCount hacyclic hstraight hgood hplain hreach hintact id
      have hdecided := (flow_of_reachable hreach hintact).decided_length (hplain id)
      have hsent := (conserved_of_reachable hreach).sentCount_eq id
      have hcounted := hopsCounted_of_reachable hreach id (hplain id)
      grind [Phase.pending]
  exact hboth.2 id

theorem sentCount_straight (hpaths : ∀ id, g.pathCount id ≤ opts.maxHops)
    (hreach : (ledger g opts env).Reachable v) {final : Option Envelope}
    (hphase : v.phase = .stopped (.returned final none)) (id : String) : sentCount v.calls id = g.pathCount id := by
  have hintact := intact_of_returned hphase
  apply Graph.eq_pathCount hacyclic
  intro id
  have hdecided := (flow_of_reachable hreach hintact).decided_length (hplain id)
  grind [refusedCount_straight, Phase.pending, deliveries_straight, receivedCount_of_returned]

end Ledger

theorem parallel_executions {g : Graph} {opts : RunOptions} {env : Envelope} (hacyclic : g.Acyclic)
    {Good : Envelope → Prop} (hstraight : Straight g Good) (hgood : Good env) (hplain : ∀ id, isMerge g id = false)
    (hpaths : ∀ id, g.pathCount id ≤ opts.maxHops) (hconc : 0 < opts.concurrency)
    {s : State opts.concurrency} (hreach : (executeGraphParallel g opts env).Reachable s)
    {final : Option Envelope} (hcoord : s.coordinator = .returned (.returned final none)) (id : String) :
    executions s.log id = g.pathCount id := by
  have hview := ledger_reachable hconc hreach
  have hphase : s.ledger.phase = .stopped (.returned final none) := congrArg Coordinator.phase hcoord
  rw [← Ledger.sentCount_straight hacyclic hstraight hgood hplain hpaths hview hphase id]
  exact Ledger.executions_of_returned hview hphase id

/-- On an acyclic graph without merge nodes, routers and redirects, whose nodes
all succeed and whose paths fit the hop limit, both executors execute every node
exactly once for every path from the entry to it. -/
theorem executors_same_work (g : Graph) (opts : RunOptions) (env : Envelope) (Good : Envelope → Prop)
    (hacyclic : g.Acyclic) (hplain : ∀ id, isMerge g.toBasicGraph id = false) (hstraight : Straight g Good)
    (hgood : Good env) (hpaths : ∀ id, g.pathCount id ≤ opts.maxHops) (hcont : opts.Continues)
    (hconc : 1 < opts.concurrency) :
    (∃ done final, (∀ fuel, sequentialFuel g.toBasicGraph opts ≤ fuel →
        executeGraphSequential fuel g.toBasicGraph (fun _ => none) env opts = some done) ∧
      done.ret = .returned (some final) none ∧ ∀ id, executions done.log id = g.pathCount id) ∧
    ∀ s final, (executeGraphParallel g.toBasicGraph opts env).Reachable s →
      s.coordinator = .returned (.returned final none) → ∀ id, executions s.log id = g.pathCount id := by
  refine ⟨sequential_executions hacyclic hstraight hcont hpaths hgood, ?_⟩
  grind [parallel_executions]

namespace diamond

def rank (id : String) : Nat :=
  if id = "e" then 0 else if id = "x" then 2 else 1

def counts (id : String) : Nat :=
  if id = "x" then 2 else if id ∈ ["e", "a", "b"] then 1 else 0

theorem acyclic : graph.Acyclic := Graph.acyclic_of_rank rank (by decide +kernel)

theorem exists_noop {id : String} {node : Node} (hnode : graph.nodeByID id = some node) :
    ∃ id, node = newNoopNode id := by
  have hmem := Graph.build?_nodes (by decide) hnode
  grind

theorem plain (id : String) : isMerge graph id = false := by
  cases hnode : graph.nodeByID id with
  | none => simp [isMerge, hnode]
  | some node =>
    obtain ⟨_, rfl⟩ := exists_noop hnode
    simp [isMerge, hnode, newNoopNode]

theorem straight : Straight graph fun env => env.getVar gateRedirect = none where
  router := by
    intro id node hnode
    obtain ⟨_, rfl⟩ := exists_noop hnode
    rfl
  run := by
    intro id node hnode t env hgood
    obtain ⟨_, rfl⟩ := exists_noop hnode
    exact ⟨env, rfl, hgood⟩
  hint := by
    intro id env hgood
    simp [redirectTarget, hgood]

theorem pathCount_eq (id : String) : graph.pathCount id = counts id := by
  refine Graph.pathCount_eq_of_nodes acyclic (by decide +kernel) ?_ id
  intro id hid
  have horder : graph.nodeOrder = ["e", "a", "b", "x"] := by decide
  simp_all [counts]

def complete : List (Label 2) :=
  schedule ++ [.receive, .schedule 0, .receive, .schedule 0, .worker Label.w₀ .exit, .worker Label.w₁ .exit, .wait]

end diamond

/-- Both executors run the common node of the two branches twice. -/
theorem diamond_same_work :
    (∃ done, executeGraphSequential (sequentialFuel diamond.graph.toBasicGraph (diamond.opts 2))
        diamond.graph.toBasicGraph (fun _ => none) {} (diamond.opts 2) = some done ∧
      executions done.log "x" = 2) ∧
    ∃ s final, (executeGraphParallel diamond.graph.toBasicGraph (diamond.opts 2) {}).Reachable s ∧
      s.coordinator = .returned (.returned final none) ∧ executions s.log "x" = 2 := by
  have hlimit : ∀ id, diamond.graph.pathCount id ≤ (diamond.opts 2).maxHops := by
    intro id
    rw [diamond.pathCount_eq]
    unfold diamond.counts
    split
    · exact le_rfl
    · split <;> decide
  obtain ⟨⟨done, _, hrun, _, hcount⟩, hparallel⟩ := executors_same_work diamond.graph (diamond.opts 2) {} _
    diamond.acyclic diamond.plain diamond.straight rfl hlimit (by simp [RunOptions.Continues, diamond.opts])
    (by decide)
  obtain ⟨s, hreach, htest⟩ := Machine.exists_reachable_of_exec
    (m := executeGraphParallel diamond.graph (diamond.opts 2) {}) diamond.complete
    State.completed (by decide +kernel)
  obtain ⟨final, hcoord⟩ := State.exists_of_completed htest
  refine ⟨⟨done, hrun _ le_rfl, (hcount "x").trans (diamond.pathCount_eq "x")⟩, s, final, hreach, hcoord, ?_⟩
  exact (hparallel s final hreach hcoord "x").trans (diamond.pathCount_eq "x")

/-- A straight graph, cycles included, is run breadth first: a node never starts before
the nodes that are nearer to the entry have finished. -/
theorem sequential_breadth_first (g : Graph) (ctx : Nat → Option String) (env : Envelope) (opts : RunOptions)
    (Good : Envelope → Prop) (hstraight : Straight g Good) (hcont : opts.Continues) (hgood : Good env) :
    ∃ done, (∀ fuel, sequentialFuel g opts ≤ fuel → executeGraphSequential fuel g ctx env opts = some done) ∧
      ∀ near far, Nearer g near far → StartsAfter done.log far near := by
  obtain ⟨done, hdone⟩ := runLoop_total (sequentialBody g ctx opts) (fun _ _ => sequentialBody_withinBudget)
    (fun _ _ _ => sequentialBody_hopsLeft) (sequentialInit_withinBudget g opts env) (hopsLeft_init_lt g opts env)
  exact ⟨done, fun _ => runLoop_mono hdone, fun _ _ => starts_after_nearer hstraight hcont ctx hgood hdone⟩

theorem diamond_breadth_first :
    ∃ done, executeGraphSequential 99 diamond.graph (fun _ => none) {} (diamond.opts 2) = some done ∧
      ∀ near far, Nearer diamond.graph near far → StartsAfter done.log far near :=
  (sequential_breadth_first diamond.graph (fun _ => none) {} (diamond.opts 2) _ diamond.straight nofun rfl).imp
    fun _ h => ⟨h.1 _ (by decide), h.2⟩

end petalflow.runtime
