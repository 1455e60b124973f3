import Petalflow.Nodes.Expr

open petalflow.core

namespace petalflow.nodes

open Envelope

inductive ConditionOp where
  | opEquals | opNotEquals | opContains | opGreaterThan | opLessThan | opExists | opNotExists | opIn
  | other (name : String)
deriving DecidableEq, Repr

structure RouteCondition where
  varPath : String
  op : ConditionOp
  value : Value := .nil
  values : List Value := []

structure RouteRule where
  conditions : List RouteCondition
  target : String
  reason : String := ""

structure RuleRouterConfig where
  rules : List RouteRule
  defaultTarget : String := ""
  decisionKey : String := ""
  allowMultiple : Bool := false

def evaluateCondition (lib : Library) (env : Envelope) (cond : RouteCondition) : Bool :=
  let val := (env.getVarNested cond.varPath).or (env.getVar cond.varPath)
  match cond.op, val with
  | .opExists, val => val.isSome
  | .opNotExists, val => val.isNone
  | .opEquals, some v => compare lib v cond.value = .eq
  | .opNotEquals, none => true
  | .opNotEquals, some v => compare lib v cond.value ≠ .eq
  | .opGreaterThan, some v => compare lib v cond.value = .gt
  | .opLessThan, some v => compare lib v cond.value = .lt
  | .opContains, some v => containsValue lib v cond.value
  | .opIn, some v => inValues lib v cond.values
  | _, _ => false

def evaluateRule (lib : Library) (env : Envelope) (rule : RouteRule) : Bool :=
  rule.conditions.all (evaluateCondition lib env)

def matchingRules (lib : Library) (env : Envelope) (allowMultiple : Bool) : List RouteRule → List RouteRule
  | [] => []
  | rule :: rest =>
    if evaluateRule lib env rule then
      if allowMultiple then rule :: matchingRules lib env allowMultiple rest else [rule]
    else matchingRules lib env allowMultiple rest

def RuleRouterConfig.route (config : RuleRouterConfig) (lib : Library) (env : Envelope) : RouteDecision :=
  match matchingRules lib env config.allowMultiple config.rules with
  | [] =>
    if config.defaultTarget = "" then { targets := [], reason := "", confidence := none }
    else { targets := [config.defaultTarget], reason := "default route", confidence := none }
  | matched =>
    { targets := matched.map RouteRule.target
      reason := "; ".intercalate (matched.map RouteRule.reason)
      confidence := none }

structure Router where
  id : String
  kind : NodeKind
  route : Nat → Envelope → Except String RouteDecision
  store : RouteDecision → Envelope → Envelope

/-- One call of `Run`, with the decision it makes. -/
def Router.run (r : Router) (t : Nat) (env : Envelope) : Except String (RouteDecision × Envelope) :=
  (r.route t env).map fun decision => (decision, r.store decision env)

/-- The router as the runtime sees it. A failed call has not touched the envelope. -/
def Router.node (r : Router) : Node :=
  { id := r.id
    kind := r.kind
    router := true
    run := fun t env =>
      match r.run t env with
      | .error message => .failed message env
      | .ok (_, env') => .ok (some env') }

def decisionKeyOr (id decisionKey : String) : String :=
  if decisionKey = "" then id ++ "_decision" else decisionKey

def newRuleRouter (lib : Library) (id : String) (config : RuleRouterConfig) : Router :=
  { id
    kind := .router
    route := fun _ env => .ok (config.route lib env)
    store := fun decision env => env.setVar (decisionKeyOr id config.decisionKey) (.decision decision) }

structure LLMRequest where
  model : String
  system : String
  inputText : String
  temperature : Rat
  labels : List String

structure LLMResponse where
  text : String := ""
  json : Option Vars := none
  model : String := ""

/-- A model together with the context of the call: its answer to each attempt, and
whether the context is done after it or during the pause that follows. -/
structure LLMClient where
  complete : Nat → Nat → LLMRequest → Except String LLMResponse
  ctxErr : Nat → Nat → Option String
  pauseErr : Nat → Nat → Option String

structure ParsedChoice where
  choice : String := ""
  reason : String := ""
  confidence : Option Rat := none

/-- `allowedTargets` lists the map from labels to node ids in the order of the
iteration over it; `unmarshal` decodes JSON into a choice, field by field. -/
structure LLMRouterConfig where
  model : String := ""
  system : String := ""
  inputVars : List String := []
  allowedTargets : List (String × String)
  decisionKey : String := ""
  temperature : Option Rat := none
  maxAttempts : Int := 0
  unmarshal : String → ParsedChoice → ParsedChoice × Option String

namespace LLMRouterConfig

def buildPrompt (config : LLMRouterConfig) (lib : Library) (env : Envelope) : String :=
  "\n\n".intercalate ((config.inputVars.filterMap env.getVar).map (toString lib))

def buildSystemPrompt (config : LLMRouterConfig) (labels : List String) : String :=
  let base := if config.system = "" then
      "You are a classifier. Analyze the input and choose the most appropriate category."
    else config.system
  s!"{base}\n\nYou must choose exactly one of these options: " ++ ", ".intercalate labels ++
    "\n\nRespond with JSON containing your choice and brief reason."

/-- The attempts that are left. Without any the answer is empty. -/
def attempts (client : LLMClient) (req : LLMRequest) (t : Nat) : Nat → Nat → Except String LLMResponse
  | 0, _ => .ok {}
  | left + 1, attempt =>
    match client.complete t attempt req with
    | .ok resp => .ok resp
    | .error err =>
      match client.ctxErr t attempt with
      | some canceled => .error canceled
      | none =>
        if left = 0 then .error s!"LLM router failed: {err}"
        else
          match client.pauseErr t attempt with
          | some canceled => .error canceled
          | none => attempts client req t left (attempt + 1)

def decide (config : LLMRouterConfig) (lib : Library) (parsed : ParsedChoice) : Except String RouteDecision :=
  match config.allowedTargets.lookup parsed.choice with
  | none =>
    let allowed := lib.sprint (.map (config.allowedTargets.map fun e => (e.1, .str e.2)))
    .error s!"invalid choice {parsed.choice.quote}, allowed: {allowed}"
  | some target => .ok { targets := [target], reason := parsed.reason, confidence := parsed.confidence }

def parseJSON (config : LLMRouterConfig) (lib : Library) : Option Vars → ParsedChoice × Bool
  | none => ({}, false)
  | some json =>
    match config.unmarshal (lib.marshal (.map json)) {} with
    | (parsed, none) => (parsed, parsed.choice ≠ "")
    | (parsed, some _) => (parsed, false)

def parseResponse (config : LLMRouterConfig) (lib : Library) (resp : LLMResponse) :
    Except String RouteDecision :=
  match config.parseJSON lib resp.json with
  | (parsed, true) => config.decide lib parsed
  | (parsed, false) =>
    match config.unmarshal resp.text parsed with
    | (parsed, none) => config.decide lib parsed
    | (parsed, some _) =>
      match config.allowedTargets.find? fun e => text.contains (lib.toLower resp.text) (lib.toLower e.1) with
      | some (label, _) =>
        config.decide lib { parsed with choice := label, reason := "extracted from text" }
      | none => .error s!"could not parse routing decision from: {resp.text}"

def route (config : LLMRouterConfig) (lib : Library) (client : LLMClient) (t : Nat) (env : Envelope) :
    Except String RouteDecision := do
  let labels := config.allowedTargets.map Prod.fst
  let req : LLMRequest :=
    { model := config.model
      system := config.buildSystemPrompt labels
      inputText := config.buildPrompt lib env
      temperature := config.temperature.getD (1 / 10)
      labels }
  let maxAttempts := if config.maxAttempts = 0 then 3 else config.maxAttempts
  let resp ← attempts client req t maxAttempts.toNat 1
  config.parseResponse lib resp

end LLMRouterConfig

def newLLMRouter (lib : Library) (id : String) (client : LLMClient) (config : LLMRouterConfig) : Router :=
  { id
    kind := .router
    route := config.route lib client
    store := fun decision env => env.setVar (decisionKeyOr id config.decisionKey) (.decision decision) }

structure Condition where
  name : String
  expression : String
  description : String := ""
  parsed : expr.Expr

inductive EvaluationOrder where
  | firstMatch | all
deriving DecidableEq, Repr

structure ConditionalNode where
  id : String
  conditions : List Condition
  default : String := ""
  evaluationOrder : EvaluationOrder := .firstMatch
  passThrough : Bool
  outputKey : String

namespace ConditionalNode

/-- The variables of the expressions: those of the envelope, and all of them again
under `input` unless that is one of them. -/
def namespaceOf (env : Envelope) : Vars :=
  let vars := env.vars.getD []
  match vars.lookup "input" with
  | some _ => vars
  | none => Vars.set "input" (.map vars) vars

def matching (n : ConditionalNode) (lib : Library) (vars : Vars) :
    List Condition → Except String (List Condition)
  | [] => .ok []
  | cond :: rest =>
    match expr.eval lib vars cond.parsed with
    | .error err => .error s!"conditional node {n.id.quote}: condition {cond.name.quote}: {err}"
    | .ok result =>
      if expr.isTruthy result then
        if n.evaluationOrder = .firstMatch then .ok [cond]
        else (n.matching lib vars rest).map (cond :: ·)
      else n.matching lib vars rest

def reasonOf (cond : Condition) : String :=
  if cond.description = "" then cond.name else cond.description

def route (n : ConditionalNode) (lib : Library) (env : Envelope) : Except String RouteDecision := do
  let matched ← n.matching lib (namespaceOf env) n.conditions
  match matched with
  | [] =>
    if n.default = "" then
      .error s!"conditional node {n.id.quote}: no conditions matched and no default branch configured"
    else .ok { targets := [n.default], reason := "default branch", confidence := none }
  | [cond] => .ok { targets := [cond.name], reason := reasonOf cond, confidence := none }
  | matched =>
    .ok { targets := matched.map Condition.name, reason := s!"{matched.length} branches matched",
          confidence := none }

def output (decision : RouteDecision) : Value :=
  .map [("matched", .bool (decision.targets.length > 0)), ("condition", .str (decision.targets.head?.getD ""))]

def router (n : ConditionalNode) (lib : Library) : Router :=
  { id := n.id
    kind := .conditional
    route := fun _ env => n.route lib env
    store := fun decision env =>
      let env := env.setVar (n.id ++ "_decision") (.decision decision)
      if n.passThrough then env else env.setVar n.outputKey (output decision) }

end ConditionalNode

structure ConditionConfig where
  name : String
  expression : String
  description : String := ""

structure ConditionalConfig where
  conditions : List ConditionConfig
  default : String := ""
  evaluationOrder : String := ""
  passThrough : Bool := false
  outputKey : String := ""

def parseConditions (parse : String → Except String expr.Expr) (id : String) :
    List String → Nat → List ConditionConfig → Except String (List Condition)
  | _, _, [] => .ok []
  | seen, i, c :: rest =>
    if c.name = "" then .error s!"conditional node {id.quote}: condition {i} has empty name"
    else if c.name ∈ seen then .error s!"conditional node {id.quote}: duplicate condition name {c.name.quote}"
    else if c.expression = "" then
      .error s!"conditional node {id.quote}: condition {c.name.quote} has empty expression"
    else
      match parse c.expression with
      | .error err => .error s!"conditional node {id.quote}: condition {c.name.quote}: {err}"
      | .ok parsed =>
        (parseConditions parse id (c.name :: seen) (i + 1) rest).map fun conditions =>
          { name := c.name, expression := c.expression, description := c.description, parsed } :: conditions

def newConditionalNode (parse : String → Except String expr.Expr) (id : String) (cfg : ConditionalConfig) :
    Except String ConditionalNode := do
  if cfg.conditions = [] then
    throw s!"conditional node {id.quote}: at least one condition is required"
  let evaluationOrder ←
    match cfg.evaluationOrder with
    | "" | "first_match" => .ok .firstMatch
    | "all" => .ok .all
    | other => .error (s!"conditional node {id.quote}: evaluation_order must be \"first_match\" or \"all\", " ++
        s!"got {other.quote}")
  let conditions ← parseConditions parse id [] 0 cfg.conditions
  return { id, conditions, default := cfg.default, evaluationOrder, passThrough := cfg.passThrough,
           outputKey := if cfg.outputKey = "" then id ++ "_output" else cfg.outputKey }

inductive RouterNode where
  | rule (id : String) (config : RuleRouterConfig)
  | llm (id : String) (client : LLMClient) (config : LLMRouterConfig)
  | conditional (node : ConditionalNode)

def RouterNode.router (lib : Library) : RouterNode → Router
  | rule id config => newRuleRouter lib id config
  | llm id client config => newLLMRouter lib id client config
  | conditional node => node.router lib

/-- The configuration leaves the decision where the runtime looks for it: a rule
or LLM router keeps the default key, and a conditional node does not write its
output over the decision. -/
def RouterNode.KeepsDecision : RouterNode → Prop
  | rule id config => config.decisionKey = "" ∨ config.decisionKey = id ++ "_decision"
  | llm id _ config => config.decisionKey = "" ∨ config.decisionKey = id ++ "_decision"
  | conditional node => node.passThrough = true ∨ node.outputKey ≠ node.id ++ "_decision"

theorem decisionKeyOr_eq {id decisionKey : String} (hkey : decisionKey = "" ∨ decisionKey = id ++ "_decision") :
    decisionKeyOr id decisionKey = id ++ "_decision" := by
  grind [decisionKeyOr]

theorem RouterNode.KeepsDecision.stored {r : RouterNode} (hkeeps : r.KeepsDecision) (lib : Library)
    (decision : RouteDecision) (env : Envelope) :
    ((r.router lib).store decision env).getVar ((r.router lib).id ++ "_decision") = some (.decision decision) := by
  cases r with
  | rule id config =>
    have hkey := decisionKeyOr_eq hkeeps
    simp only [RouterNode.router, newRuleRouter, hkey, getVar_setVar_self]
  | llm id client config =>
    have hkey := decisionKeyOr_eq hkeeps
    simp only [RouterNode.router, newLLMRouter, hkey, getVar_setVar_self]
  | conditional node =>
    grind [ConditionalNode.router, getVar_setVar_self, getVar_setVar_of_ne, RouterNode.KeepsDecision, RouterNode.router]

/-- The variables that the router writes. -/
def RouterNode.writes : RouterNode → List String
  | rule id config => [decisionKeyOr id config.decisionKey]
  | llm id _ config => [decisionKeyOr id config.decisionKey]
  | conditional node => (node.id ++ "_decision") :: if node.passThrough then [] else [node.outputKey]

theorem RouterNode.getVar_store_of_notMem {r : RouterNode} {name : String} (hname : name ∉ r.writes) (lib : Library)
    (decision : RouteDecision) (env : Envelope) :
    ((r.router lib).store decision env).getVar name = env.getVar name := by
  cases r with
  | rule id config | llm id client config => exact getVar_setVar_of_ne (by simpa [writes] using hname) env _
  | conditional node => grind [writes, router, ConditionalNode.router, getVar_setVar_of_ne]

theorem RouterNode.getVar_store_of_mem {r : RouterNode} {name : String} (hname : name ∈ r.writes) (lib : Library)
    (decision : RouteDecision) (env : Envelope) :
    ((r.router lib).store decision env).getVar name = some (.decision decision) ∨
      ((r.router lib).store decision env).getVar name = some (ConditionalNode.output decision) := by
  cases r with
  | rule id config | llm id client config =>
    rw [List.mem_singleton.mp hname]
    exact .inl (getVar_setVar_self _ _ _)
  | conditional node =>
    grind [writes, router, ConditionalNode.router, getVar_setVar_self, getVar_setVar_of_ne]

theorem RouterNode.getVar_store {r : RouterNode} {lib : Library} {decision : RouteDecision} {env : Envelope}
    {name s : String} (hstr : ((r.router lib).store decision env).getVar name = some (.str s)) :
    env.getVar name = some (.str s) := by
  have hset : ∀ {env : Envelope} {key : String} {value : Value}, (∀ s, value ≠ .str s) →
      (env.setVar key value).getVar name = some (.str s) → env.getVar name = some (.str s) := by
    intro env key value hvalue hstr
    by_cases hname : name = key
    · simp_all
    · rwa [getVar_setVar_of_ne hname] at hstr
  cases r with
  | rule id config | llm id client config => exact hset (by simp) hstr
  | conditional node => grind [RouterNode.router, ConditionalNode.router, ConditionalNode.output]

end petalflow.nodes
