import Petalflow.Nodes.Helpers

open petalflow.core

namespace petalflow.nodes

structure TokenUsage where
  inputTokens : Int := 0
  outputTokens : Int := 0
  totalTokens : Int := 0
  costUSD : Rat := 0

def TokenUsage.value (u : TokenUsage) : Value :=
  .record "TokenUsage" [("InputTokens", .num .int u.inputTokens), ("OutputTokens", .num .int u.outputTokens),
    ("TotalTokens", .num .int u.totalTokens), ("CostUSD", .num .float64 u.costUSD)]

/-- Limits of a call. A limit of zero or less is none. -/
structure Budget where
  maxInputTokens : Int := 0
  maxOutputTokens : Int := 0
  maxTotalTokens : Int := 0
  maxCostUSD : Rat := 0

structure PromptRequest where
  model : String
  system : String
  inputText : String
  jsonSchema : Option Vars
  temperature : Option Rat
  maxTokens : Option Int

structure PromptResponse where
  text : String := ""
  json : Option Vars := none
  usage : TokenUsage := {}
  provider : String := ""
  model : String := ""

inductive StreamChunk where
  | error (message : String)
  | done (usage : Option TokenUsage)
  | delta (text : String)

/-- A model together with the context of the call: its answer to each attempt,
whether the context is done after it or during the pause that follows, and the
pieces of the answer if it can be streamed. -/
structure PromptClient where
  complete : Nat → Nat → PromptRequest → Except String PromptResponse
  ctxErr : Nat → Nat → Option String
  pauseErr : Nat → Nat → Option String
  completeStream : Option (Nat → PromptRequest → Except String (List StreamChunk)) := none

/-- The configuration of a prompt node. `maxAttempts` is that of the retry policy. -/
structure LLMNodeConfig where
  model : String := ""
  system : String := ""
  promptTemplate : String := ""
  inputVars : List String := []
  outputKey : String := ""
  jsonSchema : Option Vars := none
  temperature : Option Rat := none
  maxTokens : Option Int := none
  maxAttempts : Int := 0
  budget : Option Budget := none
  recordMessages : Bool := false

/-- Templates of prompts: a text is parsed, and what comes out is executed on data. -/
abbrev Templates := String → Except String (Vars → Except String String)

structure LLMNode where
  id : String
  client : PromptClient
  config : LLMNodeConfig

def newLLMNode (id : String) (client : PromptClient) (config : LLMNodeConfig) : LLMNode :=
  { id
    client
    config := { config with
      outputKey := if config.outputKey = "" then id ++ "_output" else config.outputKey
      maxAttempts := if config.maxAttempts = 0 then 3 else config.maxAttempts } }

structure LLMAnswer where
  output : Value
  usage : TokenUsage
  messages : List Message
  -- the text of the event node.output.final
  finalText : String

namespace LLMNode

/-- The data of a template: the variables, and the input of the run if there is one. -/
def templateData (env : Envelope) : Vars :=
  let data := env.vars.getD []
  match env.input with
  | .nil => data
  | input => Vars.set "input" input data

def executeTemplate (n : LLMNode) (templates : Templates) (env : Envelope) : Except String String := do
  let tmpl ← (templates n.config.promptTemplate).mapError fun err => s!"invalid prompt template: {err}"
  (tmpl (templateData env)).mapError fun err => s!"template execution failed: {err}"

def buildPrompt (n : LLMNode) (lib : Library) (templates : Templates) (env : Envelope) : Except String String :=
  if n.config.promptTemplate ≠ "" then n.executeTemplate templates env
  else .ok ("\n".intercalate ((n.config.inputVars.filterMap env.getVar).map (toString lib)))

def request (n : LLMNode) (prompt : String) : PromptRequest :=
  { model := n.config.model, system := n.config.system, inputText := prompt, jsonSchema := n.config.jsonSchema
    temperature := n.config.temperature, maxTokens := n.config.maxTokens }

def fixed4 (q : Rat) : String :=
  let scaled := q * 10000
  let below := scaled.floor.toNat
  let rest := scaled - scaled.floor
  let n := if rest < 1 / 2 ∨ (rest = 1 / 2 ∧ below % 2 = 0) then below else below + 1
  let decimals := (n % 10000).repr
  s!"{n / 10000}." ++ "".pushn '0' (4 - decimals.length) ++ decimals

def checkBudget (b : Budget) (usage : TokenUsage) : Except String Unit :=
  if b.maxInputTokens > 0 ∧ usage.inputTokens > b.maxInputTokens then
    .error s!"input tokens {usage.inputTokens} exceeds budget {b.maxInputTokens}"
  else if b.maxOutputTokens > 0 ∧ usage.outputTokens > b.maxOutputTokens then
    .error s!"output tokens {usage.outputTokens} exceeds budget {b.maxOutputTokens}"
  else if b.maxTotalTokens > 0 ∧ usage.totalTokens > b.maxTotalTokens then
    .error s!"total tokens {usage.totalTokens} exceeds budget {b.maxTotalTokens}"
  else if b.maxCostUSD > 0 ∧ usage.costUSD > b.maxCostUSD then
    .error s!"cost ${fixed4 usage.costUSD} exceeds budget ${fixed4 b.maxCostUSD}"
  else .ok ()

def withinBudget (n : LLMNode) (usage : TokenUsage) : Except String Unit :=
  match n.config.budget with
  | none => .ok ()
  | some b => checkBudget b usage

/-- The attempts that are left. Without any the answer is empty. -/
def attempts (n : LLMNode) (req : PromptRequest) (t : Nat) : Nat → Nat → Except String PromptResponse
  | 0, _ => .ok {}
  | left + 1, attempt =>
    match n.client.complete t attempt req with
    | .ok resp => .ok resp
    | .error err =>
      match n.client.ctxErr t attempt with
      | some canceled => .error canceled
      | none =>
        if left = 0 then .error s!"LLM call failed after {n.config.maxAttempts} attempts: {err}"
        else
          match n.client.pauseErr t attempt with
          | some canceled => .error canceled
          | none => n.attempts req t left (attempt + 1)

def conversation (n : LLMNode) (prompt text : String) (metadata : Option Vars) : List Message :=
  if n.config.recordMessages then
    [{ role := "user", content := prompt, name := n.id },
     { role := "assistant", content := text, name := n.id, metadata }]
  else []

def runSync (n : LLMNode) (t : Nat) (prompt : String) : Except String LLMAnswer := do
  let resp ← n.attempts (n.request prompt) t n.config.maxAttempts.toNat 1
  n.withinBudget resp.usage
  let output :=
    match n.config.jsonSchema, resp.json with
    | some _, some json => Value.map json
    | _, _ => Value.str resp.text
  return { output, usage := resp.usage
           messages := n.conversation prompt resp.text
             (some [("model", .str resp.model), ("provider", .str resp.provider)])
           finalText := resp.text }

def accumulate : List StreamChunk → Except String (String × TokenUsage)
  | [] => .ok ("", {})
  | .error err :: _ => .error s!"streaming error: {err}"
  | .done usage :: _ => .ok ("", usage.getD {})
  | .delta text :: rest => (accumulate rest).map fun (more, usage) => (text ++ more, usage)

def runStreaming (n : LLMNode) (stream : PromptRequest → Except String (List StreamChunk))
    (prompt : String) : Except String LLMAnswer := do
  let chunks ← (stream (n.request prompt)).mapError fun err => s!"streaming LLM call failed: {err}"
  let (text, usage) ← accumulate chunks
  n.withinBudget usage
  return { output := .str text, usage, messages := n.conversation prompt text none, finalText := text }

def answer (n : LLMNode) (lib : Library) (templates : Templates) (t : Nat) (env : Envelope) :
    Except String LLMAnswer := do
  let prompt ← (n.buildPrompt lib templates env).mapError fun err => s!"failed to build prompt: {err}"
  match n.client.completeStream with
  | some stream => n.runStreaming (stream t) prompt
  | none => n.runSync t prompt

def store (n : LLMNode) (a : LLMAnswer) (env : Envelope) : Envelope :=
  let env := (env.setVar n.config.outputKey a.output).setVar (n.config.outputKey ++ "_usage") a.usage.value
  { env with messages := env.messages ++ a.messages }

/-- The node as the runtime sees it. A failed call has not touched the envelope. -/
def node (n : LLMNode) (lib : Library) (templates : Templates) : Node :=
  { id := n.id
    kind := .llm
    run := fun t env =>
      match n.answer lib templates t env with
      | .error message => .failed message env
      | .ok a => .ok (some (n.store a env)) }

theorem getVar_outputKey (n : LLMNode) {lib : Library} {templates : Templates} {t : Nat} {env env' : Envelope}
    (hrun : (n.node lib templates).run t env = .ok (some env')) :
    ∃ a, n.answer lib templates t env = .ok a ∧ env'.getVar n.config.outputKey = some a.output := by
  simp only [node] at hrun
  split at hrun
  · cases hrun
  · next a hanswer =>
    cases hrun
    have hne : n.config.outputKey ≠ n.config.outputKey ++ "_usage" := by
      intro heq
      have hlength := congrArg String.length heq
      simp at hlength
    refine ⟨a, hanswer, ?_⟩
    show ((env.setVar _ _).setVar _ _).getVar _ = _
    rw [Envelope.getVar_setVar_of_ne hne, Envelope.getVar_setVar_self]

end LLMNode

end petalflow.nodes
