import Petalflow.Runtime.Routing
import Petalflow.Runtime.Sequential.Interference

open petalflow.core petalflow.graph petalflow.nodes petalflow.runtime List

namespace petalflow.server

inductive IsJSON : Value → Prop where
  | nil : IsJSON .nil
  | bool (b : Bool) : IsJSON (.bool b)
  | str (s : String) : IsJSON (.str s)
  | num (value : Rat) : IsJSON (.num .float64 value)
  | list {elems : List Value} (helems : ∀ elem ∈ elems, IsJSON elem) : IsJSON (.list elems)
  | map {entries : Vars} (hentries : ∀ entry ∈ entries, IsJSON entry.2) : IsJSON (.map entries)

def envelopeFromJSON (data : Vars) : Envelope :=
  data.foldr (fun entry env => env.setVar entry.1 entry.2) Envelope.newEnvelope

theorem envelopeFromJSON_getVar (data : Vars) (name : String) :
    (envelopeFromJSON data).getVar name = data.lookup name := by
  induction data with
  | nil => rfl
  | cons entry rest ih => grind [envelopeFromJSON, Envelope.getVar_setVar_self, Envelope.getVar_setVar_of_ne]

theorem envelopeFromJSON_fields (data : Vars) :
    envelopeFromJSON data = { Envelope.newEnvelope with vars := (envelopeFromJSON data).vars } := by
  induction data with
  | nil => rfl
  | cons entry rest ih =>
    show (envelopeFromJSON rest).setVar entry.1 entry.2 = _
    rw [ih]
    rfl

def DifferInside (data data' : Vars) : Prop :=
  ∀ name, isInternal name = false → data'.lookup name = data.lookup name

def SameRedirect (g : BasicGraph) (data data' : Vars) : Prop :=
  data'.lookup gateRedirect = data.lookup gateRedirect ∨
    ∀ input ∈ [data, data'], ∀ target, input.lookup gateRedirect = some (.str target) →
      ∀ id, target ∉ g.successors id

variable {g : BasicGraph} {data data' : Vars}

theorem not_decision_of_isJSON (hdata : ∀ entry ∈ data, IsJSON entry.2) (name : String) (d : RouteDecision) :
    data.lookup name ≠ some (.decision d) := by
  intro hlookup
  obtain ⟨before, after, rfl, _⟩ := lookup_eq_some_iff.mp hlookup
  cases hdata (name, .decision d) (by simp)

theorem not_hints (hnone : ∀ target, data.lookup gateRedirect = some (.str target) → ∀ id, target ∉ g.successors id) :
    ¬ Hints g (envelopeFromJSON data) := by
  rintro ⟨id, hne⟩
  apply hne
  unfold redirectTarget
  rw [envelopeFromJSON_getVar]
  grind

theorem envelopeFromJSON_alike (hdata : ∀ entry ∈ data, IsJSON entry.2)
    (hdata' : ∀ entry ∈ data', IsJSON entry.2) (hdiffer : DifferInside data data')
    (hredirect : SameRedirect g data data') : Alike g (envelopeFromJSON data) (envelopeFromJSON data') := by
  refine ⟨?_, ?_, ?_⟩
  · rw [envelopeFromJSON_fields data, envelopeFromJSON_fields data']
    refine ⟨rfl, rfl, rfl, rfl, rfl, fun name hname => ?_⟩
    show (envelopeFromJSON data').getVar name = (envelopeFromJSON data).getVar name
    rw [envelopeFromJSON_getVar, envelopeFromJSON_getVar]
    exact hdiffer name hname
  · rcases hredirect with hsame | hnone
    · left
      rw [envelopeFromJSON_getVar, envelopeFromJSON_getVar, hsame]
    grind [not_hints]
  grind [envelopeFromJSON_getVar, not_decision_of_isJSON]

theorem newNoopNode_readsNoInternal (id : String) : ReadsNoInternal (newNoopNode id) :=
  fun _ env env' hsame => ⟨hsame, HandedOn.refl env env'⟩

theorem newRuleRouter_readsNoInternal (lib : Library) (id : String) {config : RuleRouterConfig}
    (hroute : ∀ env env', SameOutside env env' → config.route lib env' = config.route lib env) :
    ReadsNoInternal (newRuleRouter lib id config).node := by
  intro t env env' hsame
  show AlikeOutcomes env env' (.ok (some (env.setVar _ (.decision (config.route lib env)))))
    (.ok (some (env'.setVar _ (.decision (config.route lib env')))))
  rw [hroute env env' hsame]
  exact ⟨hsame.setVar _ _, (HandedOn.refl env env').setVar _ _⟩

/-- Inputs that differ in internal variables, and not in a redirect that the graph
can follow, lead to the execution of the same nodes in the same order. -/
theorem runInput_same_executions (g : BasicGraph) (ctx : Nat → Option String) (opts : RunOptions)
    (hopts : opts.ReadsNoInternal) (hnodes : ∀ id node, g.nodeByID id = some node → ReadsNoInternal node)
    (data data' : Vars) (hdata : ∀ entry ∈ data, IsJSON entry.2) (hdata' : ∀ entry ∈ data', IsJSON entry.2)
    (hdiffer : DifferInside data data') (hredirect : SameRedirect g data data') (fuel : Nat) :
    (executionsOf fuel g ctx (envelopeFromJSON data) opts).map (·.node.id) =
      (executionsOf fuel g ctx (envelopeFromJSON data') opts).map (·.node.id) :=
  executionsOf_alike hopts hnodes (envelopeFromJSON_alike hdata hdata' hdiffer hredirect) fuel

namespace steering

def opts : RunOptions := { maxHops := 100, continueOnError := false, concurrency := 1 }

def router : Node := (newRuleRouter fork.lib "r" { rules := [], defaultTarget := "a" }).node

def graph : Graph :=
  (Graph.build? [router, newNoopNode "a", newNoopNode "b"] [⟨"r", "a"⟩, ⟨"r", "b"⟩] "r").get (by decide)

def input (name : String) (value : String) : Vars := [("topic", .str "x"), (name, .str value)]

theorem graph_readsNoInternal (id : String) (node : Node) (hnode : graph.toBasicGraph.nodeByID id = some node) :
    ReadsNoInternal node := by
  have hmem := Graph.build?_nodes (by decide) hnode
  simp only [mem_cons, not_mem_nil, or_false] at hmem
  rcases hmem with rfl | rfl | rfl
  · exact newRuleRouter_readsNoInternal fork.lib "r" fun _ _ _ => rfl
  · exact newNoopNode_readsNoInternal "a"
  · exact newNoopNode_readsNoInternal "b"

theorem input_isJSON (name value : String) : ∀ entry ∈ input name value, IsJSON entry.2 := by
  intro entry hentry
  simp only [input, mem_cons, not_mem_nil, or_false] at hentry
  rcases hentry with rfl | rfl
  · exact .str "x"
  · exact .str value

theorem input_differInside {name : String} (hname : isInternal name = true) (value value' : String) :
    DifferInside (input name value) (input name value') := by
  intro other hother
  grind [input]

end steering

/-- The decision of a router is ignored if the input carries a redirect. -/
theorem runInput_steers :
    (∀ id node, steering.graph.toBasicGraph.nodeByID id = some node → ReadsNoInternal node) ∧
    DifferInside (steering.input gateRedirect "") (steering.input gateRedirect "b") ∧
    (∀ entry ∈ steering.input gateRedirect "b", IsJSON entry.2) ∧
    (executionsOf 10 steering.graph.toBasicGraph (fun _ => none)
      (envelopeFromJSON (steering.input gateRedirect "")) steering.opts).map (·.node.id) = ["r", "a"] ∧
    (executionsOf 10 steering.graph.toBasicGraph (fun _ => none)
      (envelopeFromJSON (steering.input gateRedirect "b")) steering.opts).map (·.node.id) = ["r", "b"] := by
  refine ⟨steering.graph_readsNoInternal, steering.input_differInside isInternal_gateRedirect _ _,
    steering.input_isJSON _ _, ?_, ?_⟩
  · decide +kernel
  · decide +kernel

/-- Another internal variable does not change what is executed. -/
theorem runInput_steers_not :
    (executionsOf 10 steering.graph.toBasicGraph (fun _ => none)
      (envelopeFromJSON (steering.input "__note" "y")) steering.opts).map (·.node.id) = ["r", "a"] := by
  have hsame := runInput_same_executions steering.graph (fun _ => none) steering.opts
    (by simp [RunOptions.ReadsNoInternal, steering.opts]) steering.graph_readsNoInternal
    (steering.input "__note" "x") (steering.input "__note" "y") (steering.input_isJSON _ _)
    (steering.input_isJSON _ _) (steering.input_differInside (by decide +kernel) _ _)
    (.inl rfl) 10
  rw [← hsame]
  decide +kernel

end petalflow.server
