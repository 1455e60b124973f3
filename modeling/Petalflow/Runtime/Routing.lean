import Petalflow.Hydrate.Factory
import Petalflow.Runtime.Sequential.Redirects

open petalflow.core petalflow.graph petalflow.nodes Option petalflow.hydrate List

namespace petalflow.runtime

variable {graphSuccessors : List String}

theorem redirectTarget_store (r : RouterNode) (lib : Library) (decision : RouteDecision) {env : Envelope}
    (hnone : redirectTarget graphSuccessors env = none) :
    redirectTarget graphSuccessors ((r.router lib).store decision env) = none := by
  unfold redirectTarget
  split
  · next redirectNode hstr =>
    rw [redirectTarget, r.getVar_store hstr] at hnone
    exact hnone
  · rfl

variable {d : RouteDecision}

theorem routeSuccessors_decision {node : Node} {env : Envelope} (hrouter : node.router = true)
    (hnone : redirectTarget graphSuccessors env = none)
    (hdecision : env.getVar (node.id ++ "_decision") = some (.decision d)) :
    (routeSuccessors graphSuccessors node env).targets = graphSuccessors.filter (· ∈ d.targets) := by
  simp [routeSuccessors, hnone, hrouter, hdecision]

theorem run_env {r : Router} {t : Nat} {env env' : Envelope} (hrun : r.run t env = .ok (d, env')) :
    env' = r.store d env := by
  unfold Router.run at hrun
  cases hroute : r.route t env with
  | error message =>
    rw [hroute] at hrun
    cases hrun
  | ok decision =>
    rw [hroute] at hrun
    cases hrun
    rfl

theorem decision_filters (lib : Library) (g : BasicGraph) (r : RouterNode) (hkeeps : r.KeepsDecision) {t : Nat}
    {env env' : Envelope} (hrun : (r.router lib).run t env = .ok (d, env'))
    (hredirect : redirectTarget (g.successors (r.router lib).id) env = none) :
    ∃ succ, determineSuccessors g (r.router lib).node (some env') = some succ ∧
      succ.targets = (g.successors (r.router lib).id).filter (· ∈ d.targets) := by
  have henv := run_env hrun
  have hstored := hkeeps.stored lib d env
  have hnone := redirectTarget_store r lib d hredirect
  rw [← henv] at hstored hnone
  unfold determineSuccessors
  split
  · next hnil =>
    have hempty : g.successors (r.router lib).id = [] := hnil
    exact ⟨_, rfl, by rw [hempty]; rfl⟩
  · exact ⟨_, rfl, routeSuccessors_decision rfl hnone hstored⟩

/-- The redirect that the runtime finds behind a router, which may write its decision over it. -/
def redirectAfter (r : RouterNode) (graphSuccessors : List String) (env : Envelope) : Option String :=
  if gateRedirect ∈ r.writes then none else redirectTarget graphSuccessors env

def decisionOf : Option Value → Option RouteDecision
  | some (.decision d) => some d
  | _ => none

/-- What stands where the runtime looks for a decision if the router has not left its own there. -/
def earlierDecision (r : RouterNode) (id : String) (env : Envelope) : Option RouteDecision :=
  if id ++ "_decision" ∈ r.writes then none else decisionOf (env.getVar (id ++ "_decision"))

section

variable (r : RouterNode) (lib : Library) (decision : RouteDecision) (env : Envelope)

theorem redirectTarget_after (graphSuccessors : List String) :
    redirectTarget graphSuccessors ((r.router lib).store decision env) = redirectAfter r graphSuccessors env := by
  unfold redirectAfter
  split
  · next hwrites =>
    rcases r.getVar_store_of_mem hwrites lib decision env with hget | hget
    · rw [redirectTarget, hget]
    · rw [redirectTarget, hget]
      rfl
  · next hwrites => rw [redirectTarget, r.getVar_store_of_notMem hwrites lib decision env, redirectTarget]

theorem decisionOf_store (hkeeps : ¬ r.KeepsDecision) :
    decisionOf (((r.router lib).store decision env).getVar ((r.router lib).id ++ "_decision")) =
      earlierDecision r (r.router lib).id env := by
  unfold earlierDecision
  split
  · next hwrites =>
    cases r with
    | rule id config | llm id client config =>
      refine absurd ?_ hkeeps
      have hkey : id ++ "_decision" = decisionKeyOr id config.decisionKey := mem_singleton.mp hwrites
      grind [decisionKeyOr, RouterNode.KeepsDecision]
    | conditional node =>
      obtain ⟨hpass, hkey⟩ := not_or.mp hkeeps
      have hstored : ((node.router lib).store decision env).getVar (node.id ++ "_decision") =
          some (ConditionalNode.output decision) := by
        rw [← not_not.mp hkey]
        simp [ConditionalNode.router, hpass]
      exact congrArg decisionOf hstored
  · next hwrites => rw [r.getVar_store_of_notMem hwrites lib decision env]

end

theorem routeSuccessors_targets {node : Node} {env : Envelope} (hrouter : node.router = true)
    (hnone : redirectTarget graphSuccessors env = none) :
    (routeSuccessors graphSuccessors node env).targets =
      ((decisionOf (env.getVar (node.id ++ "_decision"))).map fun d => graphSuccessors.filter (· ∈ d.targets)).getD
        graphSuccessors := by
  simp only [routeSuccessors, hnone, hrouter, if_true]
  cases env.getVar (node.id ++ "_decision") with
  | none => rfl
  | some value => cases value <;> rfl

theorem filter_eq_filter_iff {l targets targets' : List String} :
    l.filter (· ∈ targets) = l.filter (· ∈ targets') ↔ ∀ id ∈ l, id ∈ targets ↔ id ∈ targets' := by
  refine ⟨fun hsame id hid => ?_, fun hsame => filter_congr fun id hid => by simp [hsame id hid]⟩
  have hmem := congrArg (id ∈ ·) hsame
  simpa [hid] using hmem

/-- Exactly the successors that the decision of a router names are chosen: if a redirect is pending behind
the router, when it is to the only one of them; else when the configuration leaves the decision where the
runtime looks for it, or what the runtime takes in its place (an earlier decision, all successors) agrees. -/
theorem decision_obeyed (lib : Library) (g : BasicGraph) (r : RouterNode) (t : Nat) (env env' : Envelope)
    (d : RouteDecision) (hrun : (r.router lib).run t env = .ok (d, env')) :
    (∃ succ, determineSuccessors g (r.router lib).node (some env') = some succ ∧
      succ.targets = (g.successors (r.router lib).id).filter (· ∈ d.targets)) ↔
    match redirectAfter r (g.successors (r.router lib).id) env with
    | some target => (g.successors (r.router lib).id).filter (· ∈ d.targets) = [target]
    | none => r.KeepsDecision ∨
        match earlierDecision r (r.router lib).id env with
        | some earlier => ∀ id ∈ g.successors (r.router lib).id, id ∈ earlier.targets ↔ id ∈ d.targets
        | none => ∀ id ∈ g.successors (r.router lib).id, id ∈ d.targets := by
  have henv := run_env hrun
  have hredirect := redirectTarget_after r lib d env (g.successors (r.router lib).id)
  have hnode : (r.router lib).node.id = (r.router lib).id := rfl
  simp only [determineSuccessors, hnode]
  by_cases hnil : g.successors (r.router lib).id = []
  · have hnone : redirectAfter r (g.successors (r.router lib).id) env = none := by
      rw [← hredirect, hnil]
      grind [redirectTarget]
    rw [hnone, if_pos hnil]
    simp only [hnil]
    refine iff_of_true ⟨_, rfl, rfl⟩ (.inr ?_)
    split <;> simp
  rw [if_neg hnil]
  rw [← henv] at hredirect
  cases hafter : redirectAfter r (g.successors (r.router lib).id) env with
  | some target =>
    rw [hafter] at hredirect
    have hchosen : (routeSuccessors (g.successors (r.router lib).id) (r.router lib).node env').targets = [target] := by
      simp [routeSuccessors, hredirect]
    simp only [Option.map_some, some.injEq, exists_eq_left', hchosen]
    exact eq_comm
  | none =>
    rw [hafter] at hredirect
    have hchosen := routeSuccessors_targets (rfl : (r.router lib).node.router = true) hredirect
    simp only [Option.map_some, some.injEq, exists_eq_left', hchosen, hnode]
    by_cases hkeeps : r.KeepsDecision
    · rw [henv, hkeeps.stored lib d env]
      simp [decisionOf, hkeeps]
    · rw [henv, decisionOf_store r lib d env hkeeps]
      cases earlierDecision r (r.router lib).id env with
      | some earlier => simpa [hkeeps] using filter_eq_filter_iff
      | none =>
        rw [Option.map_none, Option.getD_none, eq_comm, filter_eq_self]
        simp [hkeeps]

namespace fork

def lib : Library :=
  { sprint := fun _ => "", typeName := fun _ => "", marshal := fun _ => "", toLower := id,
    compileRegexp := fun _ => .error "" }

def rule (decisionKey : String) : RouterNode :=
  .rule "r"
    { rules := [{ conditions := [{ varPath := "ready", op := .opExists }], target := "a" }]
      defaultTarget := "b"
      decisionKey }

def conditional (outputKey : String) : RouterNode :=
  .conditional
    { id := "r", conditions := [{ name := "a", expression := "ready", parsed := .ident "ready" }], default := "b"
      passThrough := false, outputKey }

def graph (r : RouterNode) : Option Graph :=
  Graph.build? [(r.router lib).node, newNoopNode "a", newNoopNode "b"] [⟨"r", "a"⟩, ⟨"r", "b"⟩] "r"

def env : Envelope := { vars := some [("ready", .bool true)] }

def chosen (r : RouterNode) (env : Envelope) : Option (List String × List String) :=
  (graph r).bind fun g =>
    match (r.router lib).run 0 env with
    | .error _ => none
    | .ok (d, env') =>
      (determineSuccessors g.toBasicGraph (r.router lib).node (some env')).map fun succ => (d.targets, succ.targets)

end fork

/-- A rule router with the default key sends its envelope to the branch it chose. -/
theorem fork_obeyed :
    ∃ (g : Graph) (d : RouteDecision) (env' : Envelope) (succ : Successors),
      fork.graph (fork.rule "") = some g ∧ ((fork.rule "").router fork.lib).run 0 fork.env = .ok (d, env') ∧
      determineSuccessors g.toBasicGraph ((fork.rule "").router fork.lib).node (some env') = some succ ∧
      succ.targets = ["a"] := by
  have hsome : (fork.graph (fork.rule "")).isSome := by decide +kernel
  obtain ⟨g, hg⟩ := isSome_iff_exists.mp hsome
  have hsuccessors : (fork.graph (fork.rule "")).map (fun g => g.successors "r") = some ["a", "b"] := by
    decide +kernel
  rw [hg, map_some, some.injEq] at hsuccessors
  obtain ⟨succ, hsucc, htargets⟩ := (decision_obeyed fork.lib g (fork.rule "") 0 fork.env _ _ rfl).mpr
    (.inl (.inl rfl))
  refine ⟨g, _, _, succ, hg, rfl, hsucc, ?_⟩
  rw [htargets]
  show (g.successors "r").filter _ = _
  rw [hsuccessors]
  decide +kernel

/-- A router decides for the branch `a`, but both branches are chosen if it has a
key of its own or writes its output over the decision, and only the other one if
its envelope carries a redirect. -/
theorem fork_not_obeyed :
    fork.chosen (fork.rule "route") fork.env = some (["a"], ["a", "b"]) ∧
    fork.chosen (fork.conditional "r_decision") fork.env = some (["a"], ["a", "b"]) ∧
    fork.chosen (fork.rule "") (fork.env.setVar gateRedirect (.str "b")) = some (["a"], ["b"]) := by
  decide +kernel

open GraphDefinition

def ports (n : ConditionalNode) : List String := n.conditions.map (·.name) ++ [n.default]

def portTargets (gd : GraphDefinition) (id : String) (chosen : List String) : List String :=
  (gd.edges.filter fun e => e.source = id ∧ e.sourceHandle ∈ chosen).map (·.target)

variable {gd : GraphDefinition} {id target : String}

theorem mem_portTargets {chosen : List String} : target ∈ portTargets gd id chosen ↔
      ∃ e ∈ gd.edges, e.source = id ∧ e.sourceHandle ∈ chosen ∧ e.target = target := by
  simp [portTargets, and_assoc]

theorem mem_successors {factory : NodeDef → Except String Node} {g : BasicGraph}
    (hfactory : KeepsIDs factory) (hgraph : gd.toGraph (some factory) = .ok g) :
    target ∈ g.successors id ↔ ∃ e ∈ gd.edges, e.source = id ∧ e.target = target := by
  have hwf := toGraph_wellFormed hgraph
  have hedges := (toGraph_hydrates hfactory hgraph).edges
  rw [hwf.successors_eq]
  simp only [List.mem_map, mem_filter, decide_eq_true_eq]
  constructor
  · rintro ⟨⟨a, b⟩, ⟨hmem, rfl⟩, rfl⟩
    obtain ⟨e, he, heq⟩ := mem_map.mp ((hedges a b).mp hmem)
    cases heq
    exact ⟨e, he, rfl, rfl⟩
  · rintro ⟨e, he, rfl, rfl⟩
    exact ⟨⟨e.source, e.target⟩, ⟨(hedges _ _).mpr (mem_map_of_mem he), rfl⟩, rfl⟩

/-- A conditional node that writes its output over its decision is followed by all successors. -/
theorem conditional_chosen (lib : Library) (g : BasicGraph) {n : ConditionalNode} {t : Nat} {env env' : Envelope}
    (henv : ¬ Pending env) (hrun : (n.router lib).run t env = .ok (d, env')) :
    ∃ succ, determineSuccessors g (n.router lib).node (some env') = some succ ∧
      ∀ id, id ∈ succ.targets ↔ id ∈ g.successors n.id ∧
        ((n.passThrough = true ∨ n.outputKey ≠ n.id ++ "_decision") → id ∈ d.targets) := by
  have hredirect := redirectTarget_of_not_pending henv (g.successors n.id)
  by_cases hkeeps : n.passThrough = true ∨ n.outputKey ≠ n.id ++ "_decision"
  · obtain ⟨succ, hsucc, htargets⟩ := decision_filters lib g (.conditional n) hkeeps hrun hredirect
    refine ⟨succ, hsucc, fun id => ?_⟩
    rw [htargets, mem_filter, decide_eq_true_eq]
    simp only [hkeeps, forall_const]
    rfl
  · have hnone := redirectTarget_store (.conditional n) lib d hredirect
    have hlost := decisionOf_store (.conditional n) lib d env hkeeps
    have hwrites : n.id ++ "_decision" ∈ (RouterNode.conditional n).writes := mem_cons_self
    have hempty : earlierDecision (.conditional n) n.id env = none := if_pos hwrites
    have htargets := routeSuccessors_targets (rfl : (n.router lib).node.router = true) hnone
    rw [← run_env (r := (RouterNode.conditional n).router lib) hrun] at hlost htargets
    have hall : (routeSuccessors (g.successors n.id) (n.router lib).node env').targets = g.successors n.id := by
      rw [htargets]
      exact congrArg (fun found => (Option.map _ found).getD _) (hlost.trans hempty)
    unfold determineSuccessors
    split
    · next hnil => exact ⟨_, rfl, fun id => by simp [show g.successors n.id = [] from hnil]⟩
    · refine ⟨_, rfl, fun id => ?_⟩
      rw [show (n.router lib).node.id = n.id from rfl, hall]
      simp [hkeeps]

/-- A conditional node is followed exactly by the targets of the ports it chooses if each of its edges leads
to a node that is called like a chosen port and lies behind one, or neither. If the node has
written its output over the decision, all of them have to lie behind a chosen port. -/
theorem ports_followed (lib : Library) (parse : String → Except String expr.Expr) (gd : GraphDefinition)
    (factory : NodeDef → Except String Node) (g : BasicGraph) (hfactory : GraphDefinition.KeepsIDs factory)
    (hgraph : gd.toGraph (some factory) = .ok g) (nd : NodeDef) (n : ConditionalNode)
    (hbuild : buildConditionalNode parse nd = .ok n) (t : Nat) (env env' : Envelope) (henv : ¬ Pending env)
    (d : RouteDecision) (hrun : (n.router lib).run t env = .ok (d, env')) :
    (∃ succ, determineSuccessors g (n.router lib).node (some env') = some succ ∧
      ∀ id, id ∈ succ.targets ↔ id ∈ portTargets gd nd.id d.targets) ↔
    ∀ e ∈ gd.edges, e.source = nd.id → (e.target ∈ portTargets gd nd.id d.targets ↔
      ((n.passThrough = true ∨ n.outputKey ≠ n.id ++ "_decision") → e.target ∈ d.targets)) := by
  have hid : n.id = nd.id := (newConditionalNode_ok hbuild).1
  obtain ⟨succ, hsucc, htargets⟩ := conditional_chosen lib g henv hrun
  have hsuccessors (id : String) : id ∈ g.successors n.id ↔ ∃ e ∈ gd.edges, e.source = nd.id ∧ e.target = id := by
    rw [mem_successors hfactory hgraph, hid]
  have hbehind {id : String} (hport : id ∈ portTargets gd nd.id d.targets) : id ∈ g.successors n.id := by
    obtain ⟨e, he, hsource, _, htarget⟩ := mem_portTargets.mp hport
    exact (hsuccessors id).mpr ⟨e, he, hsource, htarget⟩
  rw [hsucc]
  simp only [some.injEq, exists_eq_left', htargets]
  constructor
  · intro hsame e he hsource
    rw [← hsame e.target]
    exact ⟨And.right, fun hnamed => ⟨(hsuccessors _).mpr ⟨e, he, hsource, rfl⟩, hnamed⟩⟩
  · intro hedges id
    constructor
    · rintro ⟨hmem, hnamed⟩
      obtain ⟨e, he, hsource, rfl⟩ := (hsuccessors id).mp hmem
      exact (hedges e he hsource).mpr hnamed
    · intro hport
      obtain ⟨e, he, hsource, rfl⟩ := (hsuccessors id).mp (hbehind hport)
      exact ⟨hbehind hport, (hedges e he hsource).mp hport⟩

namespace approval

def checkDef (yes no : String) : NodeDef where
  id := "check"
  type := "conditional"
  config := [("conditions", .list [.map [("name", .str yes), ("expression", .str "ready")]]), ("default", .str no)]

def definition (yes no : String) : GraphDefinition where
  id := "approval"
  version := "1"
  schemaVersion := ""
  kind := ""
  metadata := []
  nodes :=
    [checkDef yes no, { id := "publish", type := "noop", config := [] },
      { id := "revise", type := "noop", config := [] }]
  edges := [⟨"check", yes, "publish", "input"⟩, ⟨"check", no, "revise", "input"⟩]
  entry := "check"

def parse (_ : String) : Except String expr.Expr := .ok (.ident "ready")

def live : LiveFactory :=
  { lib := fork.lib, parse, templates := fun _ => .error "", getClient := fun _ => .error ""
    other := fun _ => .error "" }

theorem live_keepsIDs : KeepsIDs live.buildNode := live.keepsIDs nofun

def check (yes no : String) : Except String ConditionalNode := buildConditionalNode parse (checkDef yes no)

/-- The ports that the conditional node chooses on an envelope, and the nodes that
the runtime schedules then. -/
def scheduled (yes no : String) (env : Envelope) : Option (List String × List String) := do
  let g ← ((definition yes no).toGraph (some live.buildNode)).toOption
  let n ← (check yes no).toOption
  let (d, env') ← ((n.router live.lib).run 0 env).toOption
  let succ ← determineSuccessors g (n.router live.lib).node (some env')
  return (d.targets, succ.targets)

end approval

/-- With ports called after the nodes, the branch of the chosen port is scheduled. -/
theorem approval_followed :
    ∃ g n d env' succ, (approval.definition "publish" "revise").toGraph (some approval.live.buildNode) = .ok g ∧
      approval.check "publish" "revise" = .ok n ∧ (n.router fork.lib).run 0 fork.env = .ok (d, env') ∧
      determineSuccessors g (n.router fork.lib).node (some env') = some succ ∧
      ∀ id, id ∈ succ.targets ↔ id ∈ portTargets (approval.definition "publish" "revise") "check" d.targets := by
  have hsome : ((approval.definition "publish" "revise").toGraph (some approval.live.buildNode)).isOk = true := by
    decide +kernel
  cases hgraph : (approval.definition "publish" "revise").toGraph (some approval.live.buildNode) with
  | error err => rw [hgraph] at hsome; cases hsome
  | ok g =>
    obtain ⟨succ, hsucc, htargets⟩ := (ports_followed fork.lib approval.parse _ _ g approval.live_keepsIDs hgraph
      (approval.checkDef "publish" "revise") _ rfl 0 fork.env _ (fun ⟨_, hredirect, _⟩ => by cases hredirect)
      _ rfl).mpr (by decide +kernel)
    exact ⟨g, _, _, _, succ, rfl, rfl, rfl, hsucc, htargets⟩

/-- A definition without errors whose edges leave the ports of its conditional
node: the port for a ready document is chosen, and nothing is scheduled. -/
theorem approval_not_followed :
    hasErrors ((approval.definition "yes" "no").validate none) = false ∧
    (approval.check "yes" "no").toOption.map ports = some ["yes", "no"] ∧
    approval.scheduled "yes" "no" fork.env = some (["yes"], []) ∧
    portTargets (approval.definition "yes" "no") "check" ["yes"] = ["publish"] := by
  decide +kernel

end petalflow.runtime
