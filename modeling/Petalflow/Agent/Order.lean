import Petalflow.Agent.Definitions
import Petalflow.Graph.Hydration
import Petalflow.Runtime.Sequential.Redirects

open dict network petalflow.core petalflow.graph petalflow.registry petalflow.runtime List Relation

namespace petalflow.agent

open GraphDefinition AgentWorkflow

/-- The task that the graph is entered at: the first of the order, else the first in the order of the ids
that refers to no other (in a parallel execution) or depends on no other (in a custom one), else the first. -/
def entryTask (wf : AgentWorkflow) : Option String :=
  match wf.strategy? with
  | some .sequential => wf.execution.taskOrder.head?
  | some .parallel => ((sortedKeys wf.tasks).find? (wf.references · = [])).or (sortedKeys wf.tasks).head?
  | some .custom => ((sortedKeys wf.tasks).find? (wf.dependsOn · = [])).or (sortedKeys wf.tasks).head?
  | _ => none

variable {reg : Registry} {exprValidator : Option ExprValidator} {wf : AgentWorkflow} {now : String}
  {gd : GraphDefinition} {g : BasicGraph}

variable {a b id root : String} {p : Part}

/-- If no node is without an edge into it, the graph is entered at the first node. -/
theorem Compiled.enters_first (hgd : Compiled reg wf gd) (hentry : gd.entry = "")
    (hlinked : ∀ p ∈ planUnits wf, ∃ q, (plan reg wf).Link q p) (hid : id ∈ wf.tasks.keys) :
    ∃ first ∈ wf.tasks.keys, (sortedKeys wf.tasks).head? = some first ∧ gd.resolveEntry = startNode reg wf first := by
  obtain ⟨first, hfirst⟩ : ∃ first, (sortedKeys wf.tasks).head? = some first :=
    ⟨_, head?_eq_some_head (ne_nil_of_mem (mem_sortedKeys.mpr hid))⟩
  have hhead : gd.nodeIDs.headD "" = startNode reg wf first := by
    obtain ⟨more, hmore⟩ := hgd.taskNodes
    obtain ⟨rest, hrest⟩ := head?_eq_some_iff.mp hfirst
    have hchain := cons_head_tail (partChain_ne_nil reg wf (.task first))
    rw [← hmore, agent.taskNodes, hrest, flatMap_cons, ← hchain]
    rfl
  refine ⟨first, mem_sortedKeys.mp (mem_of_head? hfirst), hfirst, ?_⟩
  rw [← hhead]
  refine resolveEntry_of_inbound hentry fun node hnode => ?_
  by_contra hnone
  have hfree (b : String) : ¬ (plan reg wf).Edge b node := fun hedge => hnone ⟨b, (hgd.links b node).mpr hedge⟩
  obtain ⟨p, hp, _, hunlinked⟩ := Network.exists_root_of_not_edge ((hgd.mem_nodeIDs node).mp hnode) hfree
  obtain ⟨q, hlink⟩ := hlinked p hp
  exact hunlinked q hlink

theorem sequential_entry (hwf : Accepted wf) (hsequential : wf.strategy? = some .sequential)
    (hgd : Compiled reg wf gd) :
    ∃ root ∈ wf.tasks.keys, entryTask wf = some root ∧ gd.resolveEntry = startNode reg wf root := by
  obtain ⟨hne, hdefined, _⟩ := hwf.order hsequential
  have hmem := hdefined _ (head_mem hne)
  have hentry : gd.entry = startNode reg wf (wf.execution.taskOrder.head hne) := by
    rw [hgd.entry]
    simp only [plannedEntry, hsequential]
    split
    · next hempty => exact absurd hempty hne
    · simp_all
  refine ⟨_, hmem, ?_, resolveEntry_of_entry hentry (first_task_ne_empty _)⟩
  simp only [entryTask, hsequential]
  exact head?_eq_some_head hne

theorem plannedEntry_custom (hcustom : wf.strategy? = some .custom) (hwf : Accepted wf) (hid : id ∈ wf.tasks.keys) :
    plannedEntry reg wf = ((sortedKeys wf.tasks).find? (wf.dependsOn · = [])).elim "" (startNode reg wf) := by
  cases htasks : wf.execution.tasks with
  | none =>
    rw [hwf.executed hcustom htasks] at hid
    cases hid
  | some tasks =>
    have hroots : isRoot tasks = fun id => decide (wf.dependsOn id = []) := by
      funext id
      grind [isRoot, dependsOn, dependencies]
    simp only [plannedEntry, hcustom, htasks, hroots]
    cases (sortedKeys wf.tasks).find? (wf.dependsOn · = []) <;> rfl

theorem exists_first_root (hcustom : wf.strategy? = some .custom) (hwf : Accepted wf) (hgd : Compiled reg wf gd)
    (hkey : root ∈ wf.tasks.keys) (hnone : wf.dependsOn root = []) :
    ∃ first ∈ wf.tasks.keys, wf.dependsOn first = [] ∧ gd.entry = startNode reg wf first := by
  rw [hgd.entry, plannedEntry_custom hcustom hwf hkey]
  cases hfind : (sortedKeys wf.tasks).find? (wf.dependsOn · = []) with
  | none => exact absurd (decide_eq_true hnone) (find?_eq_none.mp hfind root (mem_sortedKeys.mpr hkey))
  | some first =>
    exact ⟨first, mem_sortedKeys.mp (mem_of_find?_eq_some hfind), by simpa using find?_some hfind, rfl⟩

theorem linked_of_dependency (hcustom : wf.strategy? = some .custom) (hpair : (a, b) ∈ wf.dependencyPairs) :
    ∃ q, (plan reg wf).Link q (.task b) := by
  have hmem : (a, b) ∈ wf.precedence := mem_append_right _ (by simpa only [hcustom] using hpair)
  obtain ⟨q, _, hlink⟩ := TransGen.tail'_iff.mp (precedence_linked hmem)
  exact ⟨q, hlink⟩

theorem custom_entry (hwf : Accepted wf) (hcustom : wf.strategy? = some .custom) (hgd : Compiled reg wf gd)
    (hid : id ∈ wf.tasks.keys) :
    ∃ root ∈ wf.tasks.keys, entryTask wf = some root ∧ gd.resolveEntry = startNode reg wf root := by
  have hentry := hgd.entry.trans (plannedEntry_custom hcustom hwf hid)
  simp only [entryTask, hcustom]
  cases hfind : (sortedKeys wf.tasks).find? (wf.dependsOn · = []) with
  | some root =>
    rw [hfind] at hentry
    exact ⟨root, mem_sortedKeys.mp (mem_of_find?_eq_some hfind), rfl,
      resolveEntry_of_entry hentry (first_task_ne_empty _)⟩
  | none =>
    -- every task has dependencies, so that no node is without an edge into it
    rw [hfind] at hentry
    refine hgd.enters_first hentry (fun p hp => ?_) hid
    rcases mem_append.mp hp with hp | hp
    · obtain ⟨task, htask, rfl⟩ := mem_map.mp hp
      have hsome := find?_eq_none.mp hfind task htask
      obtain ⟨dep, hdep⟩ := exists_mem_of_ne_nil _ (by simpa using hsome)
      exact linked_of_dependency hcustom (wf.mem_dependencyPairs.mpr
        ⟨hdep, hwf.dependencies hcustom task dep hdep, mem_sortedKeys.mp htask⟩)
    · simp only [extraParts, hcustom, mem_dedup, mem_map] at hp
      obtain ⟨pair, hpair, rfl⟩ := hp
      refine ⟨.task pair.1, mem_append_right _ ?_⟩
      simp only [strategyLinks, hcustom]
      refine mem_flatMap.mpr ⟨pair, mem_of_mem_filter hpair, ?_⟩
      rw [dependencyLinks, if_neg (of_decide_eq_true (mem_filter.mp hpair).2)]
      exact mem_cons_self

variable (hparallel : wf.strategy? = some .parallel)
include hparallel

theorem parallel_link_iff {q : Part} :
    (plan reg wf).Link p q ↔ (∃ a b, (a, b) ∈ wf.referencePairs ∧ .task a = p ∧ .task b = q) ∨
      ∃ a ∈ wf.tasks.keys, .task a = p ∧ .merge = q := by
  show (p, q) ∈ planLinks wf ↔ _
  grind [planLinks, strategyLinks, mem_sortedKeys]

theorem parallel_linked_iff (hwf : Accepted wf) (hid : id ∈ wf.tasks.keys) :
    (∃ q, (plan reg wf).Link q (.task id)) ↔ wf.references id ≠ [] := by
  simp only [parallel_link_iff hparallel, wf.mem_referencePairs]
  constructor
  · rintro ⟨q, ⟨a, b, ⟨_, href, _⟩, _, hb⟩ | ⟨_, _, _, hmerge⟩⟩
    · cases hb
      exact ne_nil_of_mem href
    · cases hmerge
  · intro hne
    obtain ⟨ref, href⟩ := exists_mem_of_ne_nil _ hne
    exact ⟨.task ref, .inl ⟨ref, id, ⟨hid, href, hwf.references id ref href⟩, rfl, rfl⟩⟩

theorem parallel_entry (hwf : Accepted wf) (hgd : Compiled reg wf gd) (hg : gd.Hydrates g)
    (hid : id ∈ wf.tasks.keys) :
    ∃ root ∈ wf.tasks.keys, entryTask wf = some root ∧ gd.resolveEntry = startNode reg wf root := by
  have hnodes := hgd.nodeIDs (by simp [hparallel])
  have hunits : planUnits wf = (sortedKeys wf.tasks).map .task ++ [.merge] := by
    simp only [planUnits, extraParts, hparallel]
  have hmerge : (plan reg wf).Link (.task id) .merge :=
    (parallel_link_iff hparallel).mpr (.inr ⟨id, hid, rfl, rfl⟩)
  have hempty : gd.entry = "" := by
    rw [hgd.entry]
    simp only [plannedEntry, hparallel]
  simp only [entryTask, hparallel]
  cases hfind : (sortedKeys wf.tasks).find? (wf.references · = []) with
  | some root =>
    refine ⟨root, mem_sortedKeys.mp (mem_of_find?_eq_some hfind), rfl, ?_⟩
    refine resolveEntry_of_find hempty (first_task_ne_empty root) ?_
    -- the free nodes are the first ones of the tasks without references
    let isRoot (p : Part) : Bool := p.casesOn (wf.references · = []) (fun _ _ => false) false false
    have hfree : (planUnits wf).find? isRoot = some (.task root) := by
      rw [hunits, find?_append, find?_map]
      exact congrArg (fun found => (Option.map Part.task found).or _) hfind
    rw [hnodes]
    refine (Network.find?_flatMap_chain ?_ ?_).trans (congrArg _ hfree)
    · intro p hp
      have hmem : p ∈ planUnits wf := hp
      rw [hunits] at hmem
      rcases mem_append.mp hmem with hp | hp
      · obtain ⟨task, htask, rfl⟩ := mem_map.mp hp
        have hkey := mem_sortedKeys.mp htask
        rw [decide_eq_decide, inbound_iff, ← not_iff_not, not_not, ← ne_eq, ← parallel_linked_iff hparallel hwf hkey]
        constructor
        · rintro ⟨source, hedge⟩
          by_contra hnone
          exact Network.not_edge_first (hnodes ▸ hg.nodup) (task_mem_planUnits hkey) (not_exists.mp hnone)
            ((hgd.links _ _).mp hedge)
        · rintro ⟨q, hlink⟩
          exact ⟨_, (hgd.links _ _).mpr (.of_link hlink)⟩
      · rw [mem_singleton.mp hp, decide_eq_false_iff_not, not_not, inbound_iff]
        exact ⟨_, (hgd.links _ _).mpr (.of_link hmerge)⟩
    · intro p hp a ha
      obtain ⟨source, hpair⟩ := exists_mem_consecutivePairs ha
      rw [decide_eq_false_iff_not, not_not, inbound_iff]
      exact ⟨source, (hgd.links _ _).mpr (.of_chain hp hpair)⟩
  | none =>
    refine hgd.enters_first hempty (fun p hp => ?_) hid
    rw [hunits] at hp
    rcases mem_append.mp hp with hp | hp
    · obtain ⟨task, htask, rfl⟩ := mem_map.mp hp
      have hsome := find?_eq_none.mp hfind task htask
      exact (parallel_linked_iff hparallel hwf (mem_sortedKeys.mp htask)).mpr (by simpa using hsome)
    · rw [mem_singleton.mp hp]
      exact ⟨_, hmerge⟩

omit hparallel

theorem exists_entry (hwf : Accepted wf) (hstrategy : wf.strategy? ≠ some .hierarchical) (hgd : Compiled reg wf gd)
    (hg : gd.Hydrates g) (hid : id ∈ wf.tasks.keys) :
    ∃ root ∈ wf.tasks.keys, entryTask wf = some root ∧ gd.resolveEntry = startNode reg wf root := by
  cases hkind : wf.strategy? with
  | none => exact absurd hkind hwf.strategy
  | some strategy =>
    cases strategy with
    | sequential => exact sequential_entry hwf hkind hgd
    | parallel => exact parallel_entry hkind hwf hgd hg hid
    | hierarchical => exact absurd hkind hstrategy
    | custom => exact custom_entry hwf hkind hgd hid

theorem links_of_precedes (hpath : ReflTransGen (fun a b => (a, b) ∈ wf.precedence) a b) :
    ReflTransGen (plan reg wf).Link (.task a) (.task b) := by
  induction hpath with
  | refl => exact .refl
  | tail _ hpair ih => exact ih.trans (precedence_linked hpair).to_reflTransGen

/-- Links lead from a task to those after it, past the conditions between them. -/
theorem precedes_of_links (hstrategy : wf.strategy? ≠ some .hierarchical)
    (hlinks : ReflTransGen (plan reg wf).Link (.task a) p) (hp : p ≠ .merge) :
    ReflTransGen (fun a b => (a, b) ∈ wf.precedence) a p.owner := by
  induction hlinks with
  | refl => exact .refl
  | @tail p q _ hlink ih =>
    cases link_ordered hstrategy hlink with
    | task hpair | fromCond hpair => exact .tail (ih nofun) hpair
    | toCond => exact ih nofun
    | merge => exact absurd rfl hp

/-- In an accepted workflow the first node of every task can be reached from the entry of the graph exactly if
its plan leads there from the first task, nodes that are joined to one id being one. If they stay apart, that
is: if the order that the workflow asks for leads from this task to all others. -/
theorem tasks_reachable (reg : Registry) (exprValidator : Option ExprValidator) (now : String) (wf : AgentWorkflow)
    (gd : GraphDefinition) (factory : NodeDef → Except String Node) (g : BasicGraph)
    (hok : hasErrors (validate reg exprValidator (some wf)) = false) (hstrategy : wf.strategy? ≠ some .hierarchical)
    (hcompile : compile reg now (some wf) = .ok gd) (hfactory : GraphDefinition.KeepsIDs factory)
    (hgraph : gd.toGraph (some factory) = .ok g) :
    ((∀ id ∈ wf.tasks.keys, g.ReachesFromEntry (startNode reg wf id)) ↔
      ∀ root ∈ entryTask wf, ∀ id ∈ wf.tasks.keys,
        ReflTransGen (plan reg wf).Edge (startNode reg wf root) (startNode reg wf id)) ∧
    ((∀ root ∈ entryTask wf, ∀ id ∈ wf.tasks.keys, ReflTransGen (fun a b => (a, b) ∈ wf.precedence) root id) →
      ∀ id ∈ wf.tasks.keys, g.ReachesFromEntry (startNode reg wf id)) ∧
    (JoinedApart reg wf → (∀ id ∈ wf.tasks.keys, g.ReachesFromEntry (startNode reg wf id)) →
      ∀ root ∈ entryTask wf, ∀ id ∈ wf.tasks.keys, ReflTransGen (fun a b => (a, b) ∈ wf.precedence) root id) := by
  have hwf := accepted_of_validate hok
  have hgd := compile_compiled hcompile
  have hg := toGraph_hydrates hfactory hgraph
  have hedge : (fun a b => (⟨a, b⟩ : Edge) ∈ g.edges) = (plan reg wf).Edge := by
    funext a b
    exact propext ((hg.edges a b).trans (hgd.links a b))
  have hreach : (∀ id ∈ wf.tasks.keys, g.ReachesFromEntry (startNode reg wf id)) ↔
      ∀ root ∈ entryTask wf, ∀ id ∈ wf.tasks.keys,
        ReflTransGen (plan reg wf).Edge (startNode reg wf root) (startNode reg wf id) := by
    rw [forall₂_comm]
    refine forall₂_congr fun id hid => ?_
    obtain ⟨root, _, hroot, hentry⟩ := exists_entry hwf hstrategy hgd hg hid
    rw [BasicGraph.ReachesFromEntry, hg.entry, hentry, hedge]
    simp only [hroot, Option.mem_some_iff, forall_eq']
  refine ⟨hreach, fun hpaths => hreach.mpr fun root hroot id hid => ?_, fun hapart hall root hroot id hid => ?_⟩
  · exact Network.reaches_first (links_of_precedes (hpaths root hroot id hid))
  · obtain ⟨root', hkey, hroot', _⟩ := exists_entry hwf hstrategy hgd hg hid
    have hsame : root = root' := Option.mem_unique hroot hroot'
    have hlinks := Network.links_of_reaches (plan_nodes_nodup_iff.mpr hapart) (task_mem_planUnits (hsame ▸ hkey))
      (hreach.mp hall root hroot id hid) (task_mem_planUnits hid) (Network.first_mem _)
    exact precedes_of_links hstrategy hlinks nofun

def noopFactory (nd : NodeDef) : Except String Node := .ok (newNoopNode nd.id)

theorem noopFactory_keepsIDs : KeepsIDs noopFactory := by
  intro nd node hnode
  cases hnode
  rfl

def hydrated (wf : AgentWorkflow) : Except String BasicGraph := do
  let gd ← compile global "2024-01-01T00:00:00Z" (some wf)
  gd.toGraph (some noopFactory)

theorem editorial_connected : ∀ root ∈ entryTask editorial, ∀ id ∈ editorial.tasks.keys,
    ReflTransGen (fun a b => (a, b) ∈ editorial.precedence) root id := by
  have hentry : entryTask editorial = some "collect" := by decide +kernel
  have hpair : ("collect", "draft") ∈ editorial.precedence := by decide +kernel
  have hkeys : editorial.tasks.keys = ["collect", "draft"] := rfl
  simp only [hentry, Option.mem_some_iff, forall_eq', hkeys, forall_mem_cons]
  exact ⟨.refl, .single hpair, nofun⟩

theorem editorial_reachable :
    ∃ g, hydrated editorial = .ok g ∧
      ∀ id ∈ editorial.tasks.keys, g.ReachesFromEntry (startNode global editorial id) := by
  have hok : (hydrated editorial).isOk = true := by decide +kernel
  cases hgraph : hydrated editorial with
  | error err => rw [hgraph] at hok; cases hok
  | ok g =>
    obtain ⟨gd, hcompile, hg⟩ := fold.bind_eq_ok.mp hgraph
    exact ⟨g, rfl, (tasks_reachable global none _ editorial gd noopFactory g editorial_accepted (by decide +kernel)
      hcompile noopFactory_keepsIDs hg).2.1 editorial_connected⟩

def independent (strategy : String) : AgentWorkflow where
  id := "pair"
  agents := writers
  tasks := { entries := [("first", writeTask "writer" []), ("second", writeTask "writer" [])], nodup := by decide }
  execution :=
    { strategy
      tasks := some
        { entries := [("first", { dependsOn := [] }), ("second", { dependsOn := [] })]
          nodup := by decide } }

theorem second_unreached {strategy : String} (hstrategy : strategy ∈ ["parallel", "custom"]) :
    ∃ g, hydrated (independent strategy) = .ok g ∧
      ¬ g.ReachesFromEntry (startNode global (independent strategy) "second") := by
  -- no edge leaves the first task and the merge node
  have hclosed : ∀ strategy ∈ ["parallel", "custom"], (hydrated (independent strategy)).toOption.any fun g =>
      g.entry ∈ ["first__writer", "pair__merge"] ∧
      (∀ e ∈ g.edges, e.fromNode ∈ ["first__writer", "pair__merge"] → e.toNode ∈ ["first__writer", "pair__merge"]) ∧
      startNode global (independent strategy) "second" ∉ ["first__writer", "pair__merge"] := by
    decide +kernel
  have hany := hclosed strategy hstrategy
  cases hgraph : hydrated (independent strategy) with
  | error err => rw [hgraph] at hany; cases hany
  | ok g =>
    rw [hgraph] at hany
    obtain ⟨hentry, hedges, hnot⟩ := of_decide_eq_true hany
    exact ⟨g, rfl, fun hreach => hnot (hreach.mem_of_closed hentry hedges)⟩

/-- A graph has one entry: only the first of two independent tasks is reached,
whether they are executed in parallel or by their dependencies. -/
theorem independent_unreached :
    (hasErrors (validate global none (some (independent "parallel"))) = false ∧
      ∃ g, hydrated (independent "parallel") = .ok g ∧
        ¬ g.ReachesFromEntry (startNode global (independent "parallel") "second")) ∧
    hasErrors (validate global none (some (independent "custom"))) = false ∧
      ∃ g, hydrated (independent "custom") = .ok g ∧
        ¬ g.ReachesFromEntry (startNode global (independent "custom") "second") :=
  ⟨⟨by decide +kernel, second_unreached (by decide)⟩, by decide +kernel, second_unreached (by decide)⟩

open Network

namespace AgentWorkflow

variable (wf : AgentWorkflow)

/-- Executed task by task: in the task order, or by dependencies without conditions. -/
def Unconditional : Prop :=
  wf.strategy? = some .sequential ∨ (wf.strategy? = some .custom ∧ ∀ id, wf.condition id = "")

/-- A task that has to be complete before another one: one that is earlier in the
task order, or one that the other depends on. -/
def Requires (earlier later : String) : Prop :=
  match wf.strategy? with
  | some .sequential => [earlier, later].Sublist wf.execution.taskOrder
  | some .custom => earlier ∈ wf.dependsOn later
  | _ => False

def requiredPairs : List (String × String) :=
  match wf.strategy? with
  | some .sequential => wf.orderPairs
  | some .custom => wf.dependencyPairs
  | _ => []

def entryTask? : Option String :=
  match wf.strategy? with
  | some .sequential => wf.execution.taskOrder.head?
  | some .custom => (sortedKeys wf.tasks).find? fun id => wf.dependsOn id = []
  | _ => none

theorem precedence_eq : wf.precedence = wf.referencePairs ++ wf.requiredPairs := rfl

variable {wf} in
theorem precedence_keys (hpair : (a, b) ∈ wf.precedence) : a ∈ wf.tasks.keys ∧ b ∈ wf.tasks.keys := by
  rw [precedence_eq] at hpair
  rcases mem_append.mp hpair with href | hrequired
  · obtain ⟨hb, _, ha⟩ := wf.mem_referencePairs.mp href
    exact ⟨ha, hb⟩
  · unfold requiredPairs at hrequired
    split at hrequired
    · exact (wf.mem_orderPairs.mp hrequired).2
    · exact (wf.mem_dependencyPairs.mp hrequired).2
    · cases hrequired

end AgentWorkflow

def taskLength (reg : Registry) (wf : AgentWorkflow) (taskID : String) : Nat :=
  (partChain reg wf (.task taskID)).length

/-- The tasks have places, counted in nodes from the first task: a task has its
place right behind each task that it requires, no reference makes the way to it
shorter, and it is behind some task if it is not the first. -/
structure InStep (reg : Registry) (wf : AgentWorkflow) (place : String → Nat) : Prop where
  entry : ∀ id, wf.entryTask? = some id → place id = 0
  required : ∀ a b, (a, b) ∈ wf.requiredPairs → place b = place a + taskLength reg wf a
  referenced : ∀ a b, (a, b) ∈ wf.referencePairs → place b ≤ place a + taskLength reg wf a
  reached : ∀ b ∈ wf.tasks.keys, wf.entryTask? = some b ∨
    ∃ a, (a, b) ∈ wf.precedence ∧ place b = place a + taskLength reg wf a

variable {place : String → Nat}

theorem planLinks_eq (hplain : wf.Unconditional) :
    planLinks wf = wf.precedence.map fun pair => (.task pair.1, .task pair.2) := by
  rw [wf.precedence_eq, map_append, planLinks]
  refine congrArg _ ?_
  rcases hplain with hsequential | ⟨hcustom, hcond⟩
  · simp only [strategyLinks, AgentWorkflow.requiredPairs, hsequential]
  · have hlinks : dependencyLinks wf = fun pair => [(.task pair.1, .task pair.2)] := by
      funext pair
      exact if_pos (hcond pair.2)
    simp only [strategyLinks, AgentWorkflow.requiredPairs, hcustom, hlinks, map_eq_flatMap]

theorem planUnits_eq (hplain : wf.Unconditional) : planUnits wf = (sortedKeys wf.tasks).map .task := by
  have hextra : extraParts wf = [] := by
    rcases hplain with hsequential | ⟨hcustom, hcond⟩
    · simp only [extraParts, hsequential]
    · simp [extraParts, hcustom, AgentWorkflow.conditionalPairs, hcond]
  rw [planUnits, hextra, append_nil]

theorem plan_nodes_nodup_of_hydrates (hplain : wf.Unconditional) (hcompile : compile reg now (some wf) = .ok gd)
    (hnodup : gd.nodeIDs.Nodup) : (plan reg wf).nodes.Nodup := by
  have hnodes : (plan reg wf).nodes = taskNodes reg wf := by
    show (planUnits wf).flatMap (partChain reg wf) = _
    rw [planUnits_eq hplain, flatMap_map]
    rfl
  rcases hplain with hsequential | ⟨hcustom, _⟩
  · rwa [← (compile_compiled hcompile).nodeIDs (by simp [hsequential])]
  · rw [hnodes]
    exact hnodup.sublist (compile_taskNodes hcustom hcompile)

theorem entryTask_spec (reg : Registry) (hwf : Accepted wf) (hid : wf.entryTask? = some id) :
    id ∈ wf.tasks.keys ∧ plannedEntry reg wf = startNode reg wf id := by
  unfold AgentWorkflow.entryTask? at hid
  split at hid
  · next hsequential =>
    have hkey := (hwf.order hsequential).2.1 id (mem_of_head? hid)
    refine ⟨hkey, ?_⟩
    obtain ⟨rest, horder⟩ := List.head?_eq_some_iff.mp hid
    simp only [plannedEntry, hsequential, horder, if_pos hkey]
  · next hcustom =>
    have hkey := mem_sortedKeys.mp (mem_of_find?_eq_some hid)
    exact ⟨hkey, by rw [plannedEntry_custom hcustom hwf hkey, hid]; rfl⟩
  · cases hid

def partPlace (place : String → Nat) : Part → Nat
  | .task id => place id
  | _ => 0

variable {t : String}

theorem InStep.exists_entry (hplace : InStep reg wf place) (ht : t ∈ wf.tasks.keys) :
    ∃ root, wf.entryTask? = some root := by
  induction hk : place t using Nat.strong_induction_on generalizing t with
  | _ k ih =>
    rcases hplace.reached t ht with hentry | ⟨a, hpair, hbehind⟩
    · exact ⟨t, hentry⟩
    · have hpos : 0 < taskLength reg wf a := length_pos_iff.mpr (partChain_ne_nil reg wf _)
      exact ih (place a) (by omega) (AgentWorkflow.precedence_keys hpair).1 rfl

theorem InStep.places (hplain : wf.Unconditional) (hwf : Accepted wf) (hplace : InStep reg wf place)
    (hroot : wf.entryTask? = some root) : Places (plan reg wf) (.task root) (partPlace place) where
  root_mem := task_mem_planUnits (entryTask_spec reg hwf hroot).1
  zero := hplace.entry root hroot
  links := by
    intro p q hlink
    have hmem : (p, q) ∈ planLinks wf := hlink
    rw [planLinks_eq hplain] at hmem
    obtain ⟨⟨a, b⟩, hpair, heq⟩ := mem_map.mp hmem
    cases heq
    rw [wf.precedence_eq] at hpair
    rcases mem_append.mp hpair with href | hrequired
    · exact hplace.referenced a b href
    · exact (hplace.required a b hrequired).le
  reached := by
    intro p hp
    have hmem : p ∈ planUnits wf := hp
    rw [planUnits_eq hplain] at hmem
    obtain ⟨b, hb, rfl⟩ := mem_map.mp hmem
    rcases hplace.reached b (mem_sortedKeys.mp hb) with hentry | ⟨a, hpair, hbehind⟩
    · simp_all
    · refine .inr ⟨.task a, ?_, hbehind⟩
      show _ ∈ planLinks wf
      grind [planLinks_eq]

variable {u : String}

theorem InStep.behind (hwf : Accepted wf) (hplace : InStep reg wf place) (ht : t ∈ wf.tasks.keys)
    (hrequires : wf.Requires u t) : u ∈ wf.tasks.keys ∧ place u + taskLength reg wf u ≤ place t := by
  unfold AgentWorkflow.Requires at hrequires
  split at hrequires
  · next hsequential =>
    have hdefined := (hwf.order hsequential).2.1
    refine ⟨hdefined u (hrequires.subset mem_cons_self), ?_⟩
    have hordered : wf.execution.taskOrder.Pairwise fun a b => place a + taskLength reg wf a ≤ place b := by
      refine pairwise_of_consecutivePairs ?_ ?_
      · intro a b c hab hbc
        omega
      · intro a b hpair
        obtain ⟨ha, hb⟩ := mem_of_mem_consecutivePairs hpair
        refine (hplace.required a b ?_).ge
        simp only [AgentWorkflow.requiredPairs, hsequential]
        exact wf.mem_orderPairs.mpr ⟨hpair, hdefined a ha, hdefined b (mem_of_mem_tail hb)⟩
    grind
  · next hcustom =>
    have hu := hwf.dependencies hcustom t u hrequires
    refine ⟨hu, (hplace.required u t ?_).ge⟩
    simp only [AgentWorkflow.requiredPairs, hcustom]
    exact wf.mem_dependencyPairs.mpr ⟨hrequires, hu, ht⟩
  · exact hrequires.elim

theorem nearer_of_places (hnodup : (plan reg wf).nodes.Nodup)
    (hplaces : Places (plan reg wf) (.task root) (partPlace place)) {g : Graph}
    (hedge : g.Edge = (plan reg wf).Edge) (hentry : g.entry = startNode reg wf root) (hu : u ∈ wf.tasks.keys)
    (ht : t ∈ wf.tasks.keys) (hbehind : place u + taskLength reg wf u ≤ place t)
    (hid : id ∈ partChain reg wf (.task t)) : Nearer g (outputNode reg wf u) id := by
  obtain ⟨i, hi⟩ := mem_iff_getElem?.mp hid
  have hpos : 0 < taskLength reg wf u := length_pos_iff.mpr (partChain_ne_nil reg wf _)
  have hlast := reach_chain (task_mem_planUnits hu) (reach_first hplaces (task_mem_planUnits hu))
    (last_eq_getElem? (Part.task u))
  refine ⟨place u + (taskLength reg wf u - 1), ?_, ?_⟩
  · rw [hedge, hentry]
    exact hlast
  · intro j hreach
    rw [hedge, hentry] at hreach
    have hlong : place t + i ≤ j := place_le_of_reach hnodup hplaces hreach
      (u := .task t) (task_mem_planUnits ht) hi
    omega

/-- The declared order of tasks is respected where the tasks are in step: a node of
a task is started only after the output nodes of all tasks that it requires have
finished. -/
theorem declared_order (reg : Registry) (exprValidator : Option ExprValidator) (now : String) (wf : AgentWorkflow)
    (gd : GraphDefinition) (factory : NodeDef → Except String Node) (g : Graph) (Good : Envelope → Prop)
    (ctx : Nat → Option String) (opts : RunOptions) (env : Envelope) (fuel : Nat) (done : Finished)
    (place : String → Nat) (hok : hasErrors (validate reg exprValidator (some wf)) = false)
    (hplain : wf.Unconditional) (hplace : InStep reg wf place) (hcompile : compile reg now (some wf) = .ok gd)
    (hfactory : GraphDefinition.KeepsIDs factory) (hgraph : gd.toGraph (some factory) = .ok g.toBasicGraph)
    (hstraight : Straight g Good) (hgood : Good env) (hcont : opts.Continues)
    (hrun : executeGraphSequential fuel g.toBasicGraph ctx env opts = some done) :
    ∀ t ∈ wf.tasks.keys, ∀ id ∈ partChain reg wf (.task t), ∀ u, wf.Requires u t →
      StartsAfter done.log id (outputNode reg wf u) := by
  intro t ht id hid u hrequires
  have hwf := accepted_of_validate hok
  have hgd := compile_compiled hcompile
  have hg := GraphDefinition.toGraph_hydrates hfactory hgraph
  have hedge : g.Edge = (plan reg wf).Edge := by
    funext a b
    exact propext (g.edge_iff.trans ((hg.edges a b).trans (hgd.links a b)))
  obtain ⟨root, hroot⟩ := hplace.exists_entry ht
  have hentry : g.entry = startNode reg wf root := by
    rw [hg.entry]
    refine GraphDefinition.resolveEntry_of_entry ?_ (first_task_ne_empty root)
    rw [hgd.entry, (entryTask_spec reg hwf hroot).2]
  obtain ⟨hu, hbehind⟩ := hplace.behind hwf ht hrequires
  have hnodup := plan_nodes_nodup_of_hydrates hplain hcompile hg.nodup
  exact starts_after_nearer hstraight hcont ctx hgood hrun
    (nearer_of_places hnodup (hplace.places hplain hwf hroot) hedge hentry hu ht hbehind hid)

/-- Three tasks one after the other, by their order or by dependencies; the last one has a context. -/
def series (strategy : String) (context : List String) : AgentWorkflow where
  id := "series"
  agents := writers
  tasks :=
    { entries := [("collect", writeTask "writer" []), ("review", writeTask "writer" ["collect"]),
        ("announce", writeTask "writer" context)]
      nodup := by simp }
  execution :=
    { strategy
      taskOrder := ["collect", "review", "announce"]
      tasks := some
        { entries := [("collect", { dependsOn := [] }), ("review", { dependsOn := ["collect"] }),
            ("announce", { dependsOn := ["review"] })]
          nodup := by decide } }

theorem noopFactory_straight {g : Graph} (hgraph : gd.toGraph (some noopFactory) = .ok g) :
    Straight g fun env => ¬ Pending env := by
  have hnode : ∀ id node, g.nodeByID id = some node → ∃ id, node = newNoopNode id := by
    intro id node hfound
    obtain ⟨nd, _, hmade⟩ := GraphDefinition.toGraph_nodes hgraph hfound
    cases hmade
    exact ⟨nd.id, rfl⟩
  refine ⟨?_, ?_, fun id env henv => redirectTarget_of_not_pending henv _⟩
  · intro id node hfound
    obtain ⟨_, rfl⟩ := hnode id node hfound
    rfl
  · grind [core.newNoopNode]

def steps (wf : AgentWorkflow) : Option (List (EventKind × String)) := do
  let g ← (hydrated wf).toOption
  let done ← executeGraphSequential 10 g (fun _ => none) {} defaultRunOptions
  return done.log.map fun e => (e.kind, e.nodeID)

def seriesPlace (id : String) : Nat := ["collect", "review", "announce"].idxOf id

theorem series_inStep : InStep global (series "sequential" ["review"]) seriesPlace := by
  have hentry : (series "sequential" ["review"]).entryTask? = some "collect" := by decide +kernel
  have hrequired : ∀ pair ∈ (series "sequential" ["review"]).requiredPairs,
      seriesPlace pair.2 = seriesPlace pair.1 + taskLength global (series "sequential" ["review"]) pair.1 := by
    decide +kernel
  have hreferenced : ∀ pair ∈ (series "sequential" ["review"]).referencePairs,
      seriesPlace pair.2 ≤ seriesPlace pair.1 + taskLength global (series "sequential" ["review"]) pair.1 := by
    decide +kernel
  have hreached : ∀ b ∈ (series "sequential" ["review"]).tasks.keys, b = "collect" ∨
      ∃ pair ∈ (series "sequential" ["review"]).requiredPairs, pair.2 = b := by
    decide +kernel
  refine ⟨?_, fun a b hpair => hrequired _ hpair, fun a b hpair => hreferenced _ hpair, ?_⟩
  · intro id hid
    rw [hentry] at hid
    cases hid
    decide
  · grind [AgentWorkflow.precedence, AgentWorkflow.requiredPairs]

theorem series_accepted : hasErrors (validate global none (some (series "sequential" ["review"]))) = false := by
  decide +kernel

/-- Behind the task that it depends on, the last task is started last. -/
theorem series_in_order :
    ∃ g done, hydrated (series "sequential" ["review"]) = .ok g ∧
      executeGraphSequential 10 g (fun _ => none) {} defaultRunOptions = some done ∧
      StartsAfter done.log "announce__writer" "review__writer" ∧
      StartsAfter done.log "announce__writer" "collect__writer" := by
  have hruns : (hydrated (series "sequential" ["review"])).toOption.any (fun g => g.validate.isOk &&
      (executeGraphSequential 10 g (fun _ => none) {} defaultRunOptions).isSome) = true := by
    decide +kernel
  cases hgraph : hydrated (series "sequential" ["review"]) with
  | error err => rw [hgraph] at hruns; cases hruns
  | ok g =>
    rw [hgraph] at hruns
    obtain ⟨hvalid, hsome⟩ := Bool.and_eq_true_iff.mp hruns
    obtain ⟨gd, hcompile, htoGraph⟩ := fold.bind_eq_ok.mp hgraph
    obtain ⟨done, hrun⟩ := Option.isSome_iff_exists.mp hsome
    have hstrategy : (series "sequential" ["review"]).strategy? = some .sequential := by decide +kernel
    have hordered := declared_order global none _ _ gd noopFactory
      ⟨g, GraphDefinition.toGraph_wellFormed htoGraph, g.validate_eq_ok hvalid⟩
        (fun env => ¬ Pending env) _ _ _ 10 done seriesPlace
      series_accepted (.inl hstrategy) series_inStep hcompile noopFactory_keepsIDs htoGraph
      (noopFactory_straight htoGraph) (by rintro ⟨_, hget, _⟩; cases hget) (fun ctrl hctrl => by cases hctrl) hrun
      "announce" (by decide +kernel) "announce__writer" (by decide +kernel)
    simp only [AgentWorkflow.Requires, hstrategy] at hordered
    exact ⟨g, done, rfl, hrun, hordered "review" (by decide +kernel), hordered "collect" (by decide +kernel)⟩

def overtaken : List (EventKind × String) :=
  [(.nodeStarted, "collect__writer"), (.nodeFinished, "collect__writer"),
   (.nodeStarted, "announce__writer"), (.nodeFinished, "announce__writer"),
   (.nodeStarted, "review__writer"), (.nodeFinished, "review__writer"),
   (.nodeStarted, "announce__writer"), (.nodeFinished, "announce__writer")]

/-- A reference to the first task makes a way around the second one: the last task
is started before the one that it requires, and once more after it. -/
theorem series_out_of_order :
    (hasErrors (validate global none (some (series "sequential" ["collect"]))) = false ∧
      ["review", "announce"].Sublist (series "sequential" ["collect"]).execution.taskOrder ∧
      steps (series "sequential" ["collect"]) = some overtaken) ∧
    hasErrors (validate global none (some (series "custom" ["collect"]))) = false ∧
      "review" ∈ (series "custom" ["collect"]).dependsOn "announce" ∧
      steps (series "custom" ["collect"]) = some overtaken := by
  decide +kernel

end petalflow.agent
