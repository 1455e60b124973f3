import Petalflow.Agent.Order
import Petalflow.Runtime.Routing

open dict network fold petalflow.core petalflow.graph petalflow.registry petalflow.nodes petalflow.hydrate List
  petalflow.runtime

namespace petalflow.agent

open GraphDefinition

def ConditionHeld (reg : Registry) (wf : AgentWorkflow) (r : LiveFactory) (taskID : String) (x : NodeExecution) :
    Prop :=
  ∃ dep ∈ wf.dependsOn taskID, x.node.id = dep ++ "__cond__" ++ taskID ∧
    ∃ e value, r.parse (compiledCondition reg wf taskID) = .ok e ∧
      expr.eval r.lib (ConditionalNode.namespaceOf x.received) e = .ok value ∧ expr.isTruthy value = true

/-- A task that is only linked through its conditional nodes: it has dependencies
and refers to no task, ids stay apart, and the execution starts with another task. -/
structure Enforceable (reg : Registry) (wf : AgentWorkflow) (taskID : String) : Prop where
  depends : wf.dependsOn taskID ≠ []
  references : wf.references taskID = []
  ids : JoinedApart reg wf
  root : ∃ id ∈ wf.tasks.keys, wf.dependsOn id = []

def SetsNoRedirect (g : Graph) : Prop :=
  ∀ id node, g.nodeByID id = some node → ∀ t env env', ¬ Pending env →
    (node.run t env = .ok (some env') ∨ ∃ message, node.run t env = .failed message env') → ¬ Pending env'

variable {reg : Registry} {exprValidator : Option ExprValidator} {wf : AgentWorkflow} {now : String}
  {gd : GraphDefinition} {r : LiveFactory} {g : Graph} {taskID dep : String}

variable {n : ConditionalNode}

theorem buildConditionalNode_ok (hbuild : buildConditionalNode r.parse (conditionDef reg wf dep taskID) = .ok n) :
    n.id = dep ++ "__cond__" ++ taskID ∧ n.default = "_skip" ∧ n.passThrough = true ∧
      ∃ e, r.parse (compiledCondition reg wf taskID) = .ok e ∧ n.conditions =
          [{ name := startNode reg wf taskID, expression := compiledCondition reg wf taskID, parsed := e }] := by
  obtain ⟨hid, hdefault, hpass, hparse⟩ := newConditionalNode_ok hbuild
  refine ⟨hid, hdefault, hpass, ?_⟩
  have hconfig : (conditionalConfig (conditionDef reg wf dep taskID).config).conditions =
      [{ name := startNode reg wf taskID, expression := compiledCondition reg wf taskID }] := rfl
  rw [hconfig] at hparse
  simp only [parseConditions, not_mem_nil, if_false] at hparse
  split at hparse
  · cases hparse
  · split at hparse
    · cases hparse
    · split at hparse
      · cases hparse
      · next e he => exact ⟨e, he, (Except.ok.inj hparse).symm⟩

theorem startNode_ne_skip (hwf : Accepted wf) (htask : taskID ∈ wf.tasks.keys) : startNode reg wf taskID ≠ "_skip" := by
  obtain ⟨c, cs, hlist, hlower, _⟩ := @startNode_toList reg _ _ hwf htask
  intro hskip
  rw [hskip] at hlist
  grind

theorem route_truthy (hwf : Accepted wf) (htask : taskID ∈ wf.tasks.keys) {e : expr.Expr}
    (hdefault : n.default = "_skip")
    (hconditions : n.conditions =
      [{ name := startNode reg wf taskID, expression := compiledCondition reg wf taskID, parsed := e }])
    {env : Envelope} {d : RouteDecision} (hroute : n.route r.lib env = .ok d)
    (hmem : startNode reg wf taskID ∈ d.targets) :
    ∃ value, expr.eval r.lib (ConditionalNode.namespaceOf env) e = .ok value ∧ expr.isTruthy value = true := by
  simp only [ConditionalNode.route, hconditions, ConditionalNode.matching, hdefault] at hroute
  cases heval : expr.eval r.lib (ConditionalNode.namespaceOf env) e with
  | error err => simp [heval, bind, Except.bind] at hroute
  | ok value =>
    refine ⟨value, rfl, ?_⟩
    by_contra hfalse
    simp only [heval, hfalse, if_false, bind, Except.bind] at hroute
    grind [startNode_ne_skip]

theorem link_to_enforceable (hcustom : wf.strategy? = some .custom) (hcond : wf.condition taskID ≠ "")
    (henforce : Enforceable reg wf taskID) {p : Part} (hlink : (plan reg wf).Link p (.task taskID)) :
    ∃ dep, (dep, taskID) ∈ wf.dependencyPairs ∧ p = .cond dep taskID := by
  rcases mem_append.mp hlink with href | hstrategy
  · obtain ⟨⟨a, b⟩, hpair, heq⟩ := mem_map.mp href
    cases heq
    have hmem := (wf.mem_referencePairs.mp hpair).2.1
    rw [henforce.references] at hmem
    cases hmem
  grind [dependencyLinks, strategyLinks]

theorem entry_not_mem (hwf : Accepted wf) (hcustom : wf.strategy? = some .custom) (htask : taskID ∈ wf.tasks.keys)
    (henforce : Enforceable reg wf taskID) (hgd : Compiled reg wf gd) (hg : gd.Hydrates g) :
    g.entry ∉ partChain reg wf (.task taskID) := by
  obtain ⟨id, hid, hnone⟩ := henforce.root
  obtain ⟨first, hkey, hfirst, hentry⟩ := exists_first_root hcustom hwf hgd hid hnone
  rw [hg.entry, resolveEntry_of_entry hentry (first_task_ne_empty first)]
  intro hmem
  -- the first task would be the one with dependencies
  have hnodup : (plan reg wf).nodes.Nodup := plan_nodes_nodup_iff.mpr henforce.ids
  have hsame := Network.unit_unique hnodup (task_mem_planUnits hkey) (task_mem_planUnits htask)
    (Network.first_mem (n := plan reg wf) (.task first)) hmem
  cases hsame
  exact henforce.depends hfirst

variable {env received : Envelope} {opts : RunOptions} {node : Node} {t : Nat}

theorem cond_node_built (hother : KeepsIDs r.other)
    (hgraph : gd.toGraph (some r.buildNode) = .ok g) (hdef : conditionDef reg wf dep taskID ∈ gd.nodes)
    (hfound : g.nodeByID node.id = some node) (hid : node.id = dep ++ "__cond__" ++ taskID) :
    ∃ n, buildConditionalNode r.parse (conditionDef reg wf dep taskID) = .ok n ∧ node = (n.router r.lib).node := by
  have hbuild := toGraph_built (r.keepsIDs hother) hgraph hdef hfound hid
  have htype : (conditionDef reg wf dep taskID).type = "conditional" := rfl
  simp only [LiveFactory.buildNode, htype] at hbuild
  obtain ⟨n, hn, rfl⟩ := map_eq_ok.mp hbuild
  exact ⟨n, hn, rfl⟩

theorem router_outcome (hstop : opts.continueOnError = false) {outcome : Outcome} {left : Option Envelope}
    (hleft : LeftBy opts (n.router r.lib).node t received (some outcome) left) :
    ∃ d env', (n.router r.lib).run t received = .ok (d, env') ∧ n.route r.lib received = .ok d ∧ left = some env' := by
  obtain ⟨hrun, attempt, hresolve⟩ := hleft
  simp only [Router.node, Router.run, ConditionalNode.router] at hrun ⊢
  cases hroute : n.route r.lib received with
  | error message =>
    simp only [hroute, Except.map] at hrun
    subst hrun
    simp [resolveSequentialNodeOutcome, hstop] at hresolve
  | ok d =>
    simp only [hroute, Except.map] at hrun
    subst hrun
    cases hresolve
    exact ⟨d, _, rfl, rfl, rfl⟩

theorem enforceable_opened (hwf : Accepted wf) (hcustom : wf.strategy? = some .custom)
    (htask : taskID ∈ wf.tasks.keys) (hcond : wf.condition taskID ≠ "") (henforce : Enforceable reg wf taskID)
    (hcompile : compile reg now (some wf) = .ok gd) (hother : KeepsIDs r.other)
    (hgraph : gd.toGraph (some r.buildNode) = .ok g) (hstop : opts.continueOnError = false) :
    OpenedBy g opts (· ∈ partChain reg wf (.task taskID)) (ConditionHeld reg wf r taskID) := by
  intro t node received outcome left succ hfound hreceived hleft hsucc id hid hclosed
  have hgd := compile_compiled hcompile
  have hg := toGraph_hydrates (r.keepsIDs hother) hgraph
  have hnodup : (plan reg wf).nodes.Nodup := plan_nodes_nodup_iff.mpr henforce.ids
  have hunit := task_mem_planUnits htask
  have hedge : g.Edge node.id id := (determineSuccessors_sublist hsucc).subset hid
  rw [g.edge_iff, hg.edges, hgd.links, Network.edge_iff] at hedge
  rcases hedge with ⟨u, hu, hpair⟩ | ⟨p, q, hlink, hlast, hfirst⟩
  · -- the node before it in the chain of the task
    obtain ⟨hbefore, hafter⟩ := mem_of_mem_consecutivePairs hpair
    obtain rfl := Network.unit_unique hnodup hu hunit (mem_of_mem_tail hafter) hclosed
    exact .inl hbefore
  · right
    obtain ⟨-, hq⟩ : p ∈ (plan reg wf).units ∧ q ∈ (plan reg wf).units := (plan reg wf).links_units _ hlink
    obtain rfl := Network.unit_unique hnodup hq hunit (Network.first_mem (n := plan reg wf) q) (hfirst ▸ hclosed)
    obtain ⟨dep, hpair, rfl⟩ := link_to_enforceable hcustom hcond henforce hlink
    have hdef := compile_condition henforce.ids hcustom hcompile hpair hcond
    obtain ⟨n, hbuild, hnode⟩ := cond_node_built hother hgraph hdef hfound hlast.symm
    obtain ⟨hnid, hdefault, hpass, e, hparse, hconditions⟩ := buildConditionalNode_ok hbuild
    subst hnode
    obtain ⟨d, env', hrun, hroute, rfl⟩ := router_outcome hstop hleft
    obtain ⟨succ', hsucc', htargets⟩ := decision_filters r.lib g (.conditional n) (.inl hpass) hrun
      (redirectTarget_of_not_pending hreceived _)
    cases hsucc.symm.trans hsucc'
    rw [htargets, mem_filter, decide_eq_true_eq, ← hfirst] at hid
    obtain ⟨value, heval, htruthy⟩ := route_truthy hwf htask hdefault hconditions hroute hid.2
    exact ⟨dep, (wf.mem_dependencyPairs.mp hpair).1, hlast.symm, e, value, hparse, heval, htruthy⟩

/-- The condition of a task that can only be reached through its conditional nodes
is enforced: a node of the task is executed only after an execution of one of these
nodes that found the condition to be true, and never if there is none. -/
theorem condition_enforced (reg : Registry) (exprValidator : Option ExprValidator) (now : String) (wf : AgentWorkflow)
    (gd : GraphDefinition) (r : LiveFactory) (g : Graph) (ctx : Nat → Option String) (opts : RunOptions)
    (env : Envelope) (fuel : Nat) (taskID : String)
    (hok : hasErrors (validate reg exprValidator (some wf)) = false) (hcustom : wf.strategy? = some .custom)
    (htask : taskID ∈ wf.tasks.keys) (hcond : wf.condition taskID ≠ "") (henforce : Enforceable reg wf taskID)
    (hcompile : compile reg now (some wf) = .ok gd) (hother : GraphDefinition.KeepsIDs r.other)
    (hgraph : gd.toGraph (some r.buildNode) = .ok g.toBasicGraph) (hnodes : SetsNoRedirect g) (henv : ¬ Pending env)
    (hredirects : opts.SetsNoRedirect) (hskips : opts.SkipsNothing) (hstop : opts.continueOnError = false) :
    (∀ before x after, executionsOf fuel g.toBasicGraph ctx env opts = before ++ x :: after →
      x.node.id ∈ partChain reg wf (.task taskID) → ∃ y ∈ before, ConditionHeld reg wf r taskID y) ∧
    ((∀ y ∈ executionsOf fuel g.toBasicGraph ctx env opts, ¬ ConditionHeld reg wf r taskID y) →
      ∀ x ∈ executionsOf fuel g.toBasicGraph ctx env opts, x.node.id ∉ partChain reg wf (.task taskID)) := by
  have hwf := accepted_of_validate hok
  have hg := toGraph_hydrates (r.keepsIDs hother) hgraph
  have hlocal : LocalRedirects g := by
    intro id node hfound t env env' henv hrun hpending
    exact absurd hpending (hnodes id node hfound t env env' henv hrun)
  have hfirst : ∀ before x after, executionsOf fuel g ctx env opts = before ++ x :: after →
      x.node.id ∈ partChain reg wf (.task taskID) → ∃ y ∈ before, ConditionHeld reg wf r taskID y := by
    intro before x after hsplit hx
    refine closed_preceded ?_ hlocal hredirects hskips ?_ henv hsplit hx
    · grind [enforceable_opened]
    · exact entry_not_mem hwf hcustom htask henforce (compile_compiled hcompile) hg
  refine ⟨hfirst, ?_⟩
  intro hnever x hx hmem
  obtain ⟨before, after, hsplit⟩ := append_of_mem hx
  grind

theorem prompt_not_pending {n : LLMNode} (hkey : n.config.outputKey ≠ gateRedirect) {a : LLMAnswer}
    (henv : ¬ Pending env) : ¬ Pending (n.store a env) := by
  have hstored : ¬ Pending ((env.setVar n.config.outputKey a.output).setVar (n.config.outputKey ++ "_usage")
      a.usage.value) := by
    by_cases husage : gateRedirect = n.config.outputKey ++ "_usage"
    · rw [← husage]
      exact not_pending_of_ne_str (by simp [TokenUsage.value])
    · grind [pending_congr, Envelope.getVar_setVar_of_ne]
  exact hstored

theorem router_not_pending (router : RouterNode) {lib : Library} {d : RouteDecision}
    (henv : ¬ Pending env) : ¬ Pending ((router.router lib).store d env) := by
  rintro ⟨target, hget, hne⟩
  exact henv ⟨target, router.getVar_store hget, hne⟩

theorem setsNoRedirect (hgraph : gd.toGraph (some r.buildNode) = .ok g)
    (hkeys : ∀ nd ∈ gd.nodes, configString nd.config "output_key" ≠ gateRedirect)
    (hother : ∀ nd node, r.other nd = .ok node → ∀ t env env', ¬ Pending env →
      (node.run t env = .ok (some env') ∨ ∃ message, node.run t env = .failed message env') → ¬ Pending env') :
    SetsNoRedirect g := by
  intro id node hfound t env env' henv hrun
  obtain ⟨nd, hnd, hbuild⟩ := toGraph_nodes hgraph hfound
  unfold LiveFactory.buildNode at hbuild
  split at hbuild
  · obtain ⟨n, hn, rfl⟩ := map_eq_ok.mp hbuild
    have hkey : n.config.outputKey ≠ gateRedirect := by
      rw [(buildLLMNode_ok hn).2]
      split
      · intro heq
        have hlast := congrArg (fun s : String => s.toList.getLast?) heq
        simp [gateRedirect] at hlast
      · exact hkeys nd hnd
    grind [LLMNode.node, prompt_not_pending]
  · split at hbuild
    · obtain ⟨n, hn, rfl⟩ := map_eq_ok.mp hbuild
      simp only [Router.node, Router.run] at hrun
      cases hroute : (n.router r.lib).route t env with
      | error message =>
        simp only [hroute, Except.map] at hrun
        simp_all
      | ok d =>
        simp only [hroute, Except.map] at hrun
        cases hrun.resolve_right (by rintro ⟨_, ⟨⟩⟩)
        exact router_not_pending (.conditional n) henv
    grind [core.newNoopNode]

namespace gated

def client : PromptClient :=
  { complete := fun _ _ _ => .ok { text := "done" }, ctxErr := fun _ _ => none, pauseErr := fun _ _ => none }

def live : LiveFactory :=
  { lib := fork.lib, parse := approval.parse, templates := fun _ => .ok fun _ => .ok "",
    getClient := fun _ => .ok client
    other := fun _ => .error "" }

/-- A text is written after the collection when there is something ready; the task may have a context. -/
def workflow (context : List String) : AgentWorkflow where
  id := "gated"
  agents := writers
  tasks := { entries := [("collect", writeTask "writer" []), ("draft", writeTask "writer" context)], nodup := by simp }
  execution :=
    { strategy := "custom"
      tasks := some
        { entries := [("collect", { dependsOn := [] }), ("draft", { dependsOn := ["collect"], condition := "ready" })]
          nodup := by decide } }

def alone : AgentWorkflow where
  id := "gated"
  agents := writers
  tasks := (managed "").tasks
  execution :=
    { strategy := "custom"
      tasks := some { entries := [("draft", { dependsOn := [], condition := "ready" })], nodup := by decide } }

def graph (wf : AgentWorkflow) : Except String BasicGraph := do
  let gd ← compile global "2024-01-01T00:00:00Z" (some wf)
  gd.toGraph (some live.buildNode)

def steps (wf : AgentWorkflow) (env : Envelope) : Option (List (String × Option Bool)) := do
  let g ← (graph wf).toOption
  return (executionsOf 10 g (fun _ => none) env defaultRunOptions).map fun x =>
    (x.node.id, ((live.parse (compiledCondition global wf "draft")).bind
      (expr.eval live.lib (ConditionalNode.namespaceOf x.received))).toOption.map expr.isTruthy)

theorem workflow_accepted : hasErrors (validate global none (some (workflow []))) = false := by
  decide +kernel

theorem workflow_enforceable : Enforceable global (workflow []) "draft" :=
  ⟨by decide +kernel, by decide +kernel, plan_nodes_nodup_iff.mp (by decide +kernel), by decide +kernel⟩

end gated

/-- With something ready the text is written after the condition was found to be true. -/
theorem gated_enforced :
    ∃ g, gated.graph (gated.workflow []) = .ok g ∧
      (executionsOf 10 g (fun _ => none) fork.env defaultRunOptions).map (·.node.id) =
        ["collect__writer", "collect__cond__draft", "draft__writer"] ∧
      ∃ y ∈ executionsOf 10 g (fun _ => none) fork.env defaultRunOptions,
        ConditionHeld global (gated.workflow []) gated.live "draft" y := by
  have hruns : (gated.graph (gated.workflow [])).toOption.any (fun g => g.validate.isOk &&
      (executionsOf 10 g (fun _ => none) fork.env defaultRunOptions).map (·.node.id) =
        ["collect__writer", "collect__cond__draft", "draft__writer"]) = true := by
    decide +kernel
  have hkeys : (compile global "2024-01-01T00:00:00Z" (some (gated.workflow []))).toOption.all (fun gd =>
      gd.nodes.all fun nd => configString nd.config "output_key" ≠ gateRedirect) = true := by
    decide +kernel
  cases hgraph : gated.graph (gated.workflow []) with
  | error err => rw [hgraph] at hruns; cases hruns
  | ok g =>
    rw [hgraph] at hruns
    obtain ⟨hvalid, hids⟩ := Bool.and_eq_true_iff.mp hruns
    obtain ⟨gd, hcompile, htoGraph⟩ := bind_eq_ok.mp hgraph
    have hkeys : ∀ nd ∈ gd.nodes, configString nd.config "output_key" ≠ gateRedirect := by
      rw [hcompile] at hkeys
      exact fun nd hnd => of_decide_eq_true (all_eq_true.mp hkeys nd hnd)
    have hids := of_decide_eq_true hids
    have henforced := condition_enforced global none _ _ gd gated.live
      ⟨g, toGraph_wellFormed htoGraph, g.validate_eq_ok hvalid⟩ (fun _ => none) defaultRunOptions fork.env 10 "draft"
      gated.workflow_accepted (by decide +kernel) (by decide +kernel) (by decide +kernel) gated.workflow_enforceable
      hcompile nofun htoGraph (setsNoRedirect htoGraph hkeys nofun)
      (by rintro ⟨_, hget, _⟩; cases hget) (fun ctrl hctrl => by cases hctrl) (fun ctrl hctrl => by cases hctrl) rfl
    have hmem : "draft__writer" ∈
        (executionsOf 10 g (fun _ => none) fork.env defaultRunOptions).map (·.node.id) := by simp [hids]
    obtain ⟨x, hx, hid⟩ := mem_map.mp hmem
    obtain ⟨before, after, hsplit⟩ := append_of_mem hx
    obtain ⟨y, hy, hheld⟩ := henforced.1 before x after hsplit (by rw [hid]; decide +kernel)
    exact ⟨g, rfl, hids, y, hsplit ▸ mem_append_left _ hy, hheld⟩

/-- Nothing is ready and the condition is false on all envelopes, but the text is
written: through a reference to the collection, where the task is the only one and
has no conditional node, and with a redirect in the envelope. -/
theorem gated_not_enforced :
    (hasErrors (validate global none (some (gated.workflow ["collect"]))) = false ∧
      gated.steps (gated.workflow ["collect"]) {} =
        some [("collect__writer", some false), ("collect__cond__draft", some false), ("draft__writer", some false)]) ∧
    (hasErrors (validate global none (some gated.alone)) = false ∧
      gated.steps gated.alone {} = some [("draft__writer", some false)]) ∧
    gated.steps (gated.workflow []) (Envelope.setVar {} gateRedirect (.str "draft__writer")) =
      some [("collect__writer", some false), ("collect__cond__draft", some false), ("draft__writer", some false)] := by
  decide +kernel

def Approved (rt : HumanRuntime) (handler : HumanHandler) (taskID : String) (task : Task) (t : Nat)
    (received : Envelope) : Prop :=
  ∃ n prompt resp, buildHumanNode rt (some handler) (reviewDef taskID task) = .ok n ∧
    n.buildPrompt rt received = .ok prompt ∧ handler.request t (n.request rt t prompt received) = .ok resp ∧
    resp.approved = true

variable {rt : HumanRuntime} {handler : HumanHandler} {task : Task}

theorem review_node_built (hother : GraphDefinition.KeepsIDs r.other)
    (hgraph : gd.toGraph (some (r.withHumanHandler rt (some handler)).buildNode) = .ok g)
    (hdef : reviewDef taskID task ∈ gd.nodes) (hfound : g.nodeByID node.id = some node)
    (hid : node.id = taskID ++ "__" ++ task.agent ++ "__hitl") :
    ∃ n, buildHumanNode rt (some handler) (reviewDef taskID task) = .ok n ∧ node = n.node rt := by
  have hkeeps := LiveFactory.keepsIDs _ (LiveFactory.withHumanHandler_keepsIDs hother rt (some handler))
  have hbuild := GraphDefinition.toGraph_built hkeeps hgraph hdef hfound hid
  rw [LiveFactory.withHumanHandler_human (show (reviewDef taskID task).type = "human" from rfl)] at hbuild
  obtain ⟨n, hn, rfl⟩ := map_eq_ok.mp hbuild
  exact ⟨n, hn, rfl⟩

theorem review_answered {n : HumanNode} (hbuild : buildHumanNode rt (some handler) (reviewDef taskID task) = .ok n)
    {result : Option Envelope} (hrun : (n.node rt).run t received = .ok result) :
    ∃ prompt resp, n.buildPrompt rt received = .ok prompt ∧
      handler.request t (n.request rt t prompt received) = .ok resp := by
  obtain ⟨_, hhandler, hfail⟩ := buildHumanNode_ok hbuild
  obtain ⟨handler', prompt, resp, hsome, hprompt, hresp, _⟩ := HumanNode.run_ok (.inl hfail) hrun
  simp_all

/-- If whoever does not approve answers with an error, and errors end the run, then
nothing at all is executed after a review that was not approved. -/
theorem review_gates (reg : Registry) (now : String) (wf : AgentWorkflow) (gd : GraphDefinition) (r : LiveFactory)
    (rt : HumanRuntime) (handler : HumanHandler) (g : Graph) (ctx : Nat → Option String) (opts : RunOptions)
    (env : Envelope) (fuel : Nat) (taskID : String) (task : Task) (htask : wf.tasks.get? taskID = some task)
    (hreview : task.review = "human") (hcompile : compile reg now (some wf) = .ok gd)
    (hother : GraphDefinition.KeepsIDs r.other)
    (hgraph : gd.toGraph (some (r.withHumanHandler rt (some handler)).buildNode) = .ok g.toBasicGraph)
    (hstop : opts.continueOnError = false) (hrefuses : handler.RefusesByError)
    (before between after : List (Nat × NodeExecution)) (t u : Nat) (x y : NodeExecution)
    (hsplit : occasionsOf fuel g.toBasicGraph ctx env opts = before ++ (t, x) :: between ++ (u, y) :: after)
    (hx : x.node.id = taskID ++ "__" ++ task.agent ++ "__hitl") :
    Approved rt handler taskID task t x.received := by
  obtain ⟨hfound, result, hrun⟩ := succeeded_of_followed hstop hsplit
  have hdef := compile_review hcompile htask hreview
  grind [review_node_built, review_answered, nodes.HumanHandler.RefusesByError, Approved]

namespace published

def workflow : AgentWorkflow where
  id := "published"
  agents := writers
  tasks :=
    { entries := [("draft", { writeTask "writer" [] with review := "human" }),
      ("publish", writeTask "writer" ["draft"])]
      nodup := by simp }
  execution := { strategy := "sequential", taskOrder := ["draft", "publish"] }

def runtime : HumanRuntime :=
  { templates := gated.live.templates, parseDuration := fun _ => .error "", durationText := fun _ => ""
    newID := fun _ => "", now := fun _ => 0, ctxErr := fun _ => none, deadlineExceeded := fun _ => false }

def graph (handler : HumanHandler) : Except String BasicGraph := do
  let gd ← compile global "2024-01-01T00:00:00Z" (some workflow)
  gd.toGraph (some (gated.live.withHumanHandler runtime (some handler)).buildNode)

def steps (handler : HumanHandler) (opts : RunOptions) : Option (List String) := do
  let g ← (graph handler).toOption
  return (occasionsOf 10 g (fun _ => none) {} opts).map fun x => x.2.node.id

end published

/-- The draft is published although the reviewer has rejected it, and also if the
review has failed and the run goes on after errors. -/
theorem published_ungated :
    hasErrors (validate global none (some published.workflow)) = false ∧
    (published.graph strictRunHumanHandler).toOption.any (fun g =>
      "publish__writer" ∈ g.successors "draft__writer__hitl") = true ∧
    published.steps (newAutoRejectHandler.handler fun _ => 0) defaultRunOptions =
      some ["draft__writer", "draft__writer__hitl", "publish__writer"] ∧
    published.steps strictRunHumanHandler { defaultRunOptions with continueOnError := true } =
      some ["draft__writer", "draft__writer__hitl", "publish__writer"] := by
  decide +kernel

/-- With a reviewer who approves, the draft is published after the approval. -/
theorem published_gated :
    ∃ g, published.graph (newAutoApproveHandler.handler fun _ => 0) = .ok g ∧
      ∃ before x y, occasionsOf 10 g (fun _ => none) {} defaultRunOptions = before ++ [x, y] ∧
        y.2.node.id = "publish__writer" ∧
        Approved published.runtime (newAutoApproveHandler.handler fun _ => 0) "draft"
          { writeTask "writer" [] with review := "human" } x.1 x.2.received := by
  have hruns : (published.graph (newAutoApproveHandler.handler fun _ => 0)).toOption.any (fun g => g.validate.isOk &&
      (occasionsOf 10 g (fun _ => none) {} defaultRunOptions).map (fun x => x.2.node.id) =
        ["draft__writer", "draft__writer__hitl", "publish__writer"]) = true := by
    decide +kernel
  cases hgraph : published.graph (newAutoApproveHandler.handler fun _ => 0) with
  | error err => rw [hgraph] at hruns; cases hruns
  | ok g =>
    rw [hgraph] at hruns
    obtain ⟨hvalid, hids⟩ := Bool.and_eq_true_iff.mp hruns
    obtain ⟨gd, hcompile, htoGraph⟩ := bind_eq_ok.mp hgraph
    have hids := of_decide_eq_true hids
    obtain ⟨first, _, hexecutions, _, hids⟩ := map_eq_cons_iff.mp hids
    obtain ⟨⟨t, x⟩, _, rfl, hx, hids⟩ := map_eq_cons_iff.mp hids
    obtain ⟨⟨u, y⟩, _, rfl, hy, hids⟩ := map_eq_cons_iff.mp hids
    obtain rfl := map_eq_nil_iff.mp hids
    refine ⟨g, rfl, [first], (t, x), (u, y), hexecutions, hy, ?_⟩
    exact review_gates global _ _ gd gated.live published.runtime _
      ⟨g, GraphDefinition.toGraph_wellFormed htoGraph, g.validate_eq_ok hvalid⟩ (fun _ => none) defaultRunOptions
        {} 10 "draft" _
      rfl rfl hcompile nofun htoGraph rfl (newAutoApproveHandler_refusesByError _) [first] [] [] t u x y
      hexecutions hx

end petalflow.agent
