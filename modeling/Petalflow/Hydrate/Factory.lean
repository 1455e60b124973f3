import Petalflow.Graph.Hydration
import Petalflow.Nodes.Expr.Reprint
import Petalflow.Nodes.Human
import Petalflow.Nodes.Router

open petalflow.core petalflow.graph petalflow.nodes fold List

namespace petalflow.hydrate

open GraphDefinition

def configString (config : Vars) (key : String) : String :=
  match config.lookup key with
  | some (.str s) => s
  | _ => ""

def configFloat64 (config : Vars) (key : String) : Option Rat :=
  match config.lookup key with
  | some (.num .float64 v) => some v
  | _ => none

def configInt (config : Vars) (key : String) : Option Int := (configFloat64 config key).map expr.truncate

def configBool (config : Vars) (key : String) : Option Bool :=
  match config.lookup key with
  | some (.bool b) => some b
  | _ => none

def configDuration (parseDuration : String → Except String Int) (config : Vars) (key : String) : Int :=
  match config.lookup key with
  | some (.str s) => (parseDuration s).toOption.getD 0
  | some (.num .float64 v) => expr.truncate (v * 1000000000)
  | _ => 0

/-- The prompt node of a definition; `getClient` gives the client of a provider. -/
def buildLLMNode (getClient : String → Except String PromptClient) (nd : NodeDef) : Except String LLMNode := do
  let providerName := configString nd.config "provider"
  if providerName = "" then throw s!"node {nd.id.quote}: missing \"provider\" in config"
  let client ← (getClient providerName).mapError fun err => s!"node {nd.id.quote}: {err}"
  return newLLMNode nd.id client
    { model := configString nd.config "model"
      system := configString nd.config "system_prompt"
      promptTemplate := configString nd.config "prompt_template"
      outputKey := configString nd.config "output_key"
      temperature := configFloat64 nd.config "temperature"
      maxTokens := configInt nd.config "max_tokens" }

def conditionConfig : Value → Option ConditionConfig
  | .map m =>
    some { name := configString m "name", expression := configString m "expression"
           description := configString m "description" }
  | _ => none

def conditionalConfig (config : Vars) : ConditionalConfig :=
  let conditionsRaw :=
    match config.lookup "conditions" with
    | some (.list raw) => raw
    | _ => []
  { conditions := conditionsRaw.filterMap conditionConfig
    default := configString config "default"
    evaluationOrder := configString config "evaluation_order"
    passThrough := (configBool config "pass_through").getD true
    outputKey := configString config "output_key" }

/-- The conditional node of a definition; `parse` is the parser of expressions. -/
def buildConditionalNode (parse : String → Except String expr.Expr) (nd : NodeDef) : Except String ConditionalNode :=
  newConditionalNode parse nd.id (conditionalConfig nd.config)

def buildHumanNode (rt : HumanRuntime) (handler : Option HumanHandler) (nd : NodeDef) : Except String HumanNode :=
  match handler with
  | none => .error s!"node {nd.id.quote}: human node requires a HumanHandler (use WithHumanHandler)"
  | some handler =>
    .ok (newHumanNode nd.id
      { requestType := .ofText (configString nd.config "mode")
        prompt := configString nd.config "prompt"
        outputVar := configString nd.config "output_var"
        timeout := configDuration rt.parseDuration nd.config "timeout"
        handler := some handler })

/-- What the nodes of a live graph are made with. `other` makes the nodes of the
types that are not modelled. -/
structure LiveFactory where
  lib : Library
  parse : String → Except String expr.Expr
  templates : Templates
  getClient : String → Except String PromptClient
  other : NodeDef → Except String Node

def LiveFactory.buildNode (r : LiveFactory) (nd : NodeDef) : Except String Node :=
  if nd.type = "llm_prompt" then (buildLLMNode r.getClient nd).map (·.node r.lib r.templates)
  else if nd.type = "conditional" then (buildConditionalNode r.parse nd).map fun n => (n.router r.lib).node
  else if nd.type = "noop" then .ok (newNoopNode nd.id)
  else r.other nd

def LiveFactory.withHumanHandler (r : LiveFactory) (rt : HumanRuntime) (handler : Option HumanHandler) : LiveFactory :=
  { r with
    other := fun nd => if nd.type = "human" then (buildHumanNode rt handler nd).map (·.node rt) else r.other nd }

variable {nd : NodeDef}

theorem buildLLMNode_ok {getClient : String → Except String PromptClient} {n : LLMNode}
    (hbuild : buildLLMNode getClient nd = .ok n) : n.id = nd.id ∧ n.config.outputKey =
      if configString nd.config "output_key" = "" then nd.id ++ "_output" else configString nd.config "output_key" := by
  unfold buildLLMNode at hbuild
  dsimp only at hbuild
  split at hbuild
  · cases hbuild
  · simp only [bind_eq_ok] at hbuild
    obtain ⟨client, _, hreturn⟩ := hbuild
    cases hreturn
    exact ⟨rfl, rfl⟩

theorem newConditionalNode_ok {parse : String → Except String expr.Expr} {id : String} {cfg : ConditionalConfig}
    {n : ConditionalNode} (hnew : newConditionalNode parse id cfg = .ok n) :
    n.id = id ∧ n.default = cfg.default ∧ n.passThrough = cfg.passThrough ∧
      parseConditions parse id [] 0 cfg.conditions = .ok n.conditions := by
  unfold newConditionalNode at hnew
  dsimp only at hnew
  split at hnew
  · cases hnew
  · split at hnew
    all_goals
      simp only [bind_eq_ok] at hnew
      obtain ⟨order, _, conditions, hparse, hreturn⟩ := hnew
      cases hreturn
      exact ⟨rfl, rfl, rfl, hparse⟩

theorem LiveFactory.keepsIDs (r : LiveFactory) (hother : KeepsIDs r.other) : KeepsIDs r.buildNode := by
  intro nd node hbuild
  unfold buildNode at hbuild
  split at hbuild
  · obtain ⟨n, hn, rfl⟩ := map_eq_ok.mp hbuild
    exact (buildLLMNode_ok hn).1
  · split at hbuild
    · obtain ⟨n, hn, rfl⟩ := map_eq_ok.mp hbuild
      exact (newConditionalNode_ok hn).1
    · split at hbuild
      · cases hbuild
        rfl
      · exact hother nd node hbuild

variable {rt : HumanRuntime} {handler : Option HumanHandler}

theorem buildHumanNode_ok {n : HumanNode} (hbuild : buildHumanNode rt handler nd = .ok n) :
    n.id = nd.id ∧ n.config.handler = handler ∧ n.config.onTimeout = .fail := by
  unfold buildHumanNode at hbuild
  split at hbuild
  · cases hbuild
  · cases hbuild
    exact ⟨rfl, rfl, rfl⟩

variable {r : LiveFactory}

theorem LiveFactory.withHumanHandler_keepsIDs (hother : KeepsIDs r.other) (rt : HumanRuntime)
    (handler : Option HumanHandler) : KeepsIDs (r.withHumanHandler rt handler).other := by
  intro nd node hbuild
  simp only [withHumanHandler] at hbuild
  split at hbuild
  · obtain ⟨n, hn, rfl⟩ := map_eq_ok.mp hbuild
    exact (buildHumanNode_ok hn).1
  · exact hother nd node hbuild

theorem LiveFactory.withHumanHandler_human (htype : nd.type = "human") :
    (r.withHumanHandler rt handler).buildNode nd = (buildHumanNode rt handler nd).map (·.node rt) := by
  simp only [buildNode, withHumanHandler, htype]
  rfl

end petalflow.hydrate

namespace petalflow.nodes

open petalflow.hydrate

/-- A configuration with conditions, each with a name of its own and an expression,
and with an evaluation order that exists. -/
structure ConditionalConfig.Complete (cfg : ConditionalConfig) : Prop where
  conditions : cfg.conditions ≠ []
  named : ∀ c ∈ cfg.conditions, c.name ≠ ""
  distinct : (cfg.conditions.map (·.name)).Nodup
  expressions : ∀ c ∈ cfg.conditions, c.expression ≠ ""
  order : cfg.evaluationOrder ∈ ["", "first_match", "all"]

variable {parse : String → Except String expr.Expr} {id : String}

theorem parseConditions_ok_iff (seen : List String) (i : Nat) (conditions : List ConditionConfig) :
    (∃ parsed, parseConditions parse id seen i conditions = .ok parsed) ↔
      (∀ c ∈ conditions, c.name ≠ "" ∧ c.name ∉ seen ∧ c.expression ≠ "" ∧ ∃ e, parse c.expression = .ok e) ∧
        (conditions.map (·.name)).Nodup := by
  induction conditions generalizing seen i with
  | nil => simp [parseConditions]
  | cons c rest ih =>
    have hlater := ih (c.name :: seen) (i + 1)
    simp only [forall_mem_cons, map_cons, nodup_cons, mem_map, not_exists, not_and]
    constructor
    · rintro ⟨parsed, hparsed⟩
      unfold parseConditions at hparsed
      split at hparsed
      · cases hparsed
      · next hname =>
        split at hparsed
        · cases hparsed
        · next hseen =>
          split at hparsed
          · cases hparsed
          · next hexpression =>
            split at hparsed
            · cases hparsed
            · next e he =>
              obtain ⟨others, hothers, _⟩ := fold.map_eq_ok.mp hparsed
              simp_all
    · rintro ⟨⟨⟨hname, hseen, hexpression, e, he⟩, hall⟩, hnew, hnodup⟩
      obtain ⟨others, hothers⟩ := hlater.mpr ⟨fun c' hc' => by simp_all, hnodup⟩
      simp only [parseConditions, if_neg hname, if_neg hseen, if_neg hexpression, he, hothers]
      exact ⟨_, rfl⟩

variable {cfg : ConditionalConfig}

theorem newConditionalNode_order {n : ConditionalNode} (hnew : newConditionalNode parse id cfg = .ok n) :
    cfg.conditions ≠ [] ∧ cfg.evaluationOrder ∈ ["", "first_match", "all"] := by
  unfold newConditionalNode at hnew
  dsimp only at hnew
  split at hnew
  · cases hnew
  · next hne =>
    refine ⟨hne, ?_⟩
    split at hnew
    · next heq => simp [heq]
    · next heq => simp [heq]
    · next heq => simp [heq]
    · cases hnew

theorem newConditionalNode_ok_iff : (∃ n, newConditionalNode parse id cfg = .ok n) ↔
      cfg.Complete ∧ ∀ c ∈ cfg.conditions, ∃ e, parse c.expression = .ok e := by
  have hparsed := @parseConditions_ok_iff parse id [] 0 cfg.conditions
  constructor
  · rintro ⟨n, hn⟩
    obtain ⟨hall, hnodup⟩ := hparsed.mp ⟨_, (newConditionalNode_ok hn).2.2.2⟩
    obtain ⟨hne, horder⟩ := newConditionalNode_order hn
    exact ⟨⟨hne, fun c hc => (hall c hc).1, hnodup, fun c hc => (hall c hc).2.2.1, horder⟩,
      fun c hc => (hall c hc).2.2.2⟩
  · rintro ⟨hcfg, hall⟩
    obtain ⟨conditions, hconditions⟩ := hparsed.mpr ⟨fun c hc =>
      ⟨hcfg.named c hc, not_mem_nil, hcfg.expressions c hc, hall c hc⟩, hcfg.distinct⟩
    have horder := hcfg.order
    simp only [mem_cons, not_mem_nil, or_false] at horder
    unfold newConditionalNode
    dsimp only
    rw [if_neg hcfg.conditions]
    rcases horder with horder | horder | horder <;> simp only [horder, hconditions] <;> exact ⟨_, rfl⟩

end petalflow.nodes

namespace petalflow.hydrate

def exprValidator (parse : String → Except String expr.Expr) : ExprValidator := fun expression =>
  (parse expression).map fun _ => ()

section validated

variable {parse : String → Except String expr.Expr} {gd : GraphDefinition} {nd : NodeDef}

theorem hasErrors_of_subset {diags more : List Diagnostic} (hsubset : diags ⊆ more) (hmore : hasErrors more = false) :
    hasErrors diags = false :=
  any_eq_false.mpr fun d hd => any_eq_false.mp hmore d (hsubset hd)

theorem parse_of_validateCondition {condPath : String} {cond : Vars}
    (hvalid : hasErrors (gd.validateCondition (some (exprValidator parse)) nd condPath cond) = false)
    (hexpression : configString cond "expression" ≠ "") : ∃ e, parse (configString cond "expression") = .ok e := by
  cases hparse : parse (configString cond "expression") with
  | ok e => exact ⟨e, rfl⟩
  | error err =>
    have hvalidator : exprValidator parse (GraphDefinition.stringAt cond "expression") = .error err := by
      show (parse (configString cond "expression")).map _ = _
      rw [hparse]
      rfl
    have hne : GraphDefinition.stringAt cond "expression" ≠ "" := hexpression
    simp [GraphDefinition.validateCondition, hasErrors, hne, hvalidator] at hvalid

theorem validateCondition_ok {exprValidator : Option ExprValidator} {i : Nat} {cond : Vars} {raw : List Value}
    (hvalid : hasErrors (gd.validateConditionalNode exprValidator nd i) = false)
    (hlookup : nd.config.lookup "conditions" = some (.list raw)) (hcond : .map cond ∈ raw) :
    ∃ condPath, hasErrors (gd.validateCondition exprValidator nd condPath cond) = false := by
  obtain ⟨j, hj⟩ := mem_iff_getElem?.mp hcond
  have hmem : (Value.map cond, j) ∈ raw.zipIdx := mk_mem_zipIdx_iff_getElem?.mpr hj
  refine ⟨s!"nodes[{i}]" ++ s!".config.conditions[{j}]", hasErrors_of_subset ?_ hvalid⟩
  grind [GraphDefinition.validateConditionalNode]

theorem validateConditionalNode_ok {exprValidator : Option ExprValidator}
    (hvalid : hasErrors (gd.validate exprValidator) = false) (hnode : nd ∈ gd.nodes) (htype : nd.type = "conditional") :
    ∃ i, hasErrors (gd.validateConditionalNode exprValidator nd i) = false := by
  obtain ⟨i, hi⟩ := mem_iff_getElem?.mp hnode
  have hmem : (nd, i) ∈ gd.nodes.zipIdx := mk_mem_zipIdx_iff_getElem?.mpr hi
  refine ⟨i, hasErrors_of_subset ?_ hvalid⟩
  intro d hd
  refine mem_append_right _ (mem_flatMap.mpr ⟨_, hmem, ?_⟩)
  simpa only [htype, if_true] using hd

/-- In a definition that has been validated with the parser of the conditional nodes,
the node of a conditional definition can be built exactly if its configuration is
complete. -/
theorem validated_conditional_built (gd : GraphDefinition)
    (hvalid : hasErrors (gd.validate (some (exprValidator parse))) = false) (nd : NodeDef) (hnode : nd ∈ gd.nodes)
    (htype : nd.type = "conditional") :
    (∃ n, buildConditionalNode parse nd = .ok n) ↔ (conditionalConfig nd.config).Complete := by
  unfold buildConditionalNode
  rw [newConditionalNode_ok_iff]
  refine ⟨And.left, fun hcfg => ⟨hcfg, fun c hc => ?_⟩⟩
  have hexpression := hcfg.expressions c hc
  obtain ⟨i, hi⟩ := validateConditionalNode_ok hvalid hnode htype
  obtain ⟨value, hvalue, hconfig⟩ := mem_filterMap.mp hc
  split at hvalue
  · next raw hlookup =>
    unfold conditionConfig at hconfig
    grind [validateCondition_ok, parse_of_validateCondition]
  · cases hvalue

end validated

namespace sample

def conditionalGraph (config : Vars) : GraphDefinition :=
  { id := "g", version := "1", schemaVersion := "", kind := "graph", metadata := [], edges := [], entry := ""
    nodes := [{ id := "c", type := "conditional", config }] }

def condition (name expression : String) : Value :=
  .map [("name", .str name), ("expression", .str expression)]

/-- Conditions that share a name, that have no name or no expression or are no
objects, and an unknown evaluation order. -/
def incomplete : List Vars :=
  [[("conditions", .list [condition "a" "true", condition "a" "false"])],
    [("conditions", .list [condition "" "true"])], [("conditions", .list [condition "a" ""])],
    [("conditions", .list [.str "true"])],
    [("conditions", .list [condition "a" "true"]), ("evaluation_order", .str "last_match")]]

def complete : Vars :=
  [("conditions", .list [condition "a" "true", condition "b" "x.y > 1"]), ("default", .str "c")]

def parse : String → Except String expr.Expr :=
  expr.parseString expr.sample.latin1 fun _ => some (.num .float64 1)

end sample

/-- Validation accepts conditional nodes that cannot be built. -/
theorem validated_conditional_not_built :
    (sample.incomplete.all fun config =>
      !hasErrors ((sample.conditionalGraph config).validate (some (exprValidator sample.parse))) &&
        (sample.conditionalGraph config).nodes.all fun nd =>
          nd.type = "conditional" && !(buildConditionalNode sample.parse nd).isOk) = true := by
  decide +kernel

theorem validated_conditional_built_complete :
    ∃ n, buildConditionalNode sample.parse { id := "c", type := "conditional", config := sample.complete } = .ok n :=
  (validated_conditional_built (sample.conditionalGraph sample.complete) (by decide +kernel) _ mem_cons_self
    rfl).mpr ⟨by decide, by decide, by decide, by decide, by decide⟩

end petalflow.hydrate
