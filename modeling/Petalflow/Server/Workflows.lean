import Petalflow.Agent.Ready
import Petalflow.Lib.Machine

open petalflow.agent petalflow.graph petalflow.registry machine Function fold

namespace petalflow.server

inductive SchemaKind where
  | agent | graph
  | other (name : String)
deriving DecidableEq, Repr

/-- A stored workflow. Times are in nanoseconds. -/
structure WorkflowRecord where
  id : String
  schemaKind : SchemaKind
  name : String
  source : String
  compiled : GraphDefinition
  createdAt : Int
  updatedAt : Int

abbrev WorkflowStore := String → Option WorkflowRecord

/-- What the handlers work with: the node types, the check of expressions, the
decoders of the two schemas, and the form of times in compiled graphs. -/
structure WorkflowLibrary where
  reg : Registry
  exprValidator : Option ExprValidator
  loadFromBytes : String → Except String AgentWorkflow
  unmarshal : String → Except String GraphDefinition
  timestamp : Int → String

inductive RequestBody where
  | bytes (text : String)
  | tooLarge
  | unreadable (err : String)

inductive WorkflowRequest where
  | createAgent (body : RequestBody)
  | createGraph (body : RequestBody)
  | update (id : String) (body : RequestBody)
  | delete (id : String)

/-- The circumstances of a request: the time, a fresh id, and the errors of the
store's reads and writes, if they fail. -/
structure Occasion where
  now : Int
  uuid : String
  getErr : Option String := none
  writeErr : Option String := none

inductive WorkflowResponse where
  | error (status : Nat) (code message : String) (details : List String)
  | stored (status : Nat) (record : WorkflowRecord)
  | noContent

abbrev Failure := Nat × String × String × List String

def diagMessages (diags : List Diagnostic) : List String :=
  (diags.filter (·.severity = .error)).map (·.message)

def rejected (message : String) (diags : List Diagnostic) : Failure :=
  (422, "VALIDATION_ERROR", message, diagMessages diags)

def notFound (id : String) : Failure := (404, "NOT_FOUND", s!"workflow {id.quote} not found", [])

def storeError (err : String) : Failure := (500, "STORE_ERROR", err, [])

def readBody : RequestBody → Except Failure String
  | .bytes text => .ok text
  | .tooLarge => .error (413, "BODY_TOO_LARGE", "request body exceeds size limit", [])
  | .unreadable err => .error (400, "READ_ERROR", err, [])

def parsed {α : Type} (result : Except String α) : Except Failure α :=
  result.mapError fun err => (400, "PARSE_ERROR", err, [])

variable (lib : WorkflowLibrary) (o : Occasion)

/-- The workflow and the graph of an agent schema. The graph is not validated. -/
def compileAgent (body : String) : Except Failure (AgentWorkflow × GraphDefinition) := do
  let wf ← parsed (lib.loadFromBytes body)
  let diags := agent.validate lib.reg lib.exprValidator (some wf)
  if hasErrors diags then throw (rejected "agent workflow validation failed" diags)
  let gd ← (agent.compile lib.reg (lib.timestamp o.now) (some wf)).mapError fun err => (422, "COMPILE_ERROR", err, [])
  return (wf, gd)

def validated (message : String) (gd : GraphDefinition) : Except Failure Unit :=
  let diags := gd.validateWithRegistry (some lib.reg) lib.exprValidator
  if hasErrors diags then .error (rejected message diags) else .ok ()

/-- `Create` of the store, which fails if the id is taken. -/
def createRecord (record : WorkflowRecord) (store : WorkflowStore) :
    Except Failure (WorkflowResponse × WorkflowStore) :=
  match o.writeErr with
  | some err => .error (storeError err)
  | none =>
    if (store record.id).isSome then .error (409, "CONFLICT", s!"workflow {record.id.quote} already exists", [])
    else .ok (.stored 201 record, Function.update store record.id (some record))

def newRecord (id : String) (kind : SchemaKind) (name source : String) (gd : GraphDefinition) : WorkflowRecord :=
  { id, schemaKind := kind, name, source, compiled := gd, createdAt := o.now, updatedAt := o.now }

def idOr (id : String) : String :=
  if id = "" then o.uuid else id

def handleCreateAgentWorkflow (body : RequestBody) (store : WorkflowStore) :
    Except Failure (WorkflowResponse × WorkflowStore) := do
  let body ← readBody body
  let (wf, gd) ← compileAgent lib o body
  validated lib "compiled graph validation failed" gd
  createRecord o (newRecord o (idOr o wf.id) .agent wf.name body gd) store

def handleCreateGraphWorkflow (body : RequestBody) (store : WorkflowStore) :
    Except Failure (WorkflowResponse × WorkflowStore) := do
  let body ← readBody body
  let gd ← parsed (lib.unmarshal body)
  validated lib "graph validation failed" gd
  createRecord o (newRecord o (idOr o gd.id) .graph (idOr o gd.id) body gd) store

def recompile (record : WorkflowRecord) (body : String) : Except Failure WorkflowRecord :=
  match record.schemaKind with
  | .agent => do
    let (wf, gd) ← compileAgent lib o body
    return { record with source := body, compiled := gd, name := wf.name }
  | .graph => do
    let gd ← parsed (lib.unmarshal body)
    validated lib "graph validation failed" gd
    return { record with source := body, compiled := gd }
  | .other name => .error (400, "UNKNOWN_KIND", s!"unknown schema kind {name.quote}", [])

/-- `Get` of the store. -/
def getRecord (id : String) (store : WorkflowStore) : Except Failure WorkflowRecord :=
  match o.getErr with
  | some err => .error (storeError err)
  | none =>
    match store id with
    | none => .error (notFound id)
    | some record => .ok record

/-- `Update` of the store, at the time of the request. -/
def updateRecord (record : WorkflowRecord) (store : WorkflowStore) :
    Except Failure (WorkflowResponse × WorkflowStore) :=
  match o.writeErr with
  | some err => .error (storeError err)
  | none =>
    let record := { record with updatedAt := o.now }
    .ok (.stored 200 record, Function.update store record.id (some record))

def handleUpdateWorkflow (id : String) (body : RequestBody) (store : WorkflowStore) :
    Except Failure (WorkflowResponse × WorkflowStore) := do
  let record ← getRecord o id store
  let body ← readBody body
  let next ← recompile lib o record body
  updateRecord o next store

def handleDeleteWorkflow (id : String) (store : WorkflowStore) : Except Failure (WorkflowResponse × WorkflowStore) :=
  match o.writeErr with
  | some err => .error (storeError err)
  | none =>
    if (store id).isSome then .ok (.noContent, Function.update store id none) else .error (notFound id)

def handle (store : WorkflowStore) : WorkflowRequest → Except Failure (WorkflowResponse × WorkflowStore)
  | .createAgent body => handleCreateAgentWorkflow lib o body store
  | .createGraph body => handleCreateGraphWorkflow lib o body store
  | .update id body => handleUpdateWorkflow lib o id body store
  | .delete id => handleDeleteWorkflow o id store

/-- The server between requests. A failed request leaves the store alone. -/
def workflows (lib : WorkflowLibrary) : Machine WorkflowStore (Occasion × WorkflowRequest) :=
  { init := fun _ => none
    step := fun (o, req) store =>
      match handle lib o store req with
      | .error _ => some store
      | .ok (_, store') => some store' }

variable {lib : WorkflowLibrary} {o : Occasion} {store store' : WorkflowStore}

def ValidGraph (lib : WorkflowLibrary) (gd : GraphDefinition) : Prop :=
  hasErrors (gd.validateWithRegistry (some lib.reg) lib.exprValidator) = false

def ValidStore (lib : WorkflowLibrary) (store : WorkflowStore) : Prop :=
  ∀ id record, store id = some record → ValidGraph lib record.compiled

variable {gd : GraphDefinition}

theorem validated_ok {message : String} {u : Unit} (hok : validated lib message gd = .ok u) : ValidGraph lib gd := by
  unfold validated at hok
  dsimp only at hok
  split at hok
  · cases hok
  · next hvalid => exact Bool.eq_false_iff.mpr hvalid

variable (hstore : ValidStore lib store)
include hstore

theorem ValidStore.update (record : WorkflowRecord) (hrecord : ValidGraph lib record.compiled) (id : String) :
    ValidStore lib (Function.update store id (some record)) := by
  intro other found hfound
  by_cases hid : other = id
  · simp_all
  · rw [update_of_ne hid] at hfound
    exact hstore other found hfound

theorem ValidStore.delete (id : String) : ValidStore lib (Function.update store id none) := by
  intro other found hfound
  by_cases hid : other = id
  · rw [hid, update_self] at hfound
    cases hfound
  · rw [update_of_ne hid] at hfound
    exact hstore other found hfound

variable {record : WorkflowRecord} {response : WorkflowResponse}

theorem createRecord_valid (hrecord : ValidGraph lib record.compiled)
    (hok : createRecord o record store = .ok (response, store')) : ValidStore lib store' := by
  unfold createRecord at hok
  split at hok
  · cases hok
  · split at hok
    · cases hok
    · cases hok
      exact hstore.update record hrecord record.id

variable {body : RequestBody}

theorem handleCreateAgentWorkflow_valid (hok : handleCreateAgentWorkflow lib o body store = .ok (response, store')) :
    ValidStore lib store' := by
  simp only [handleCreateAgentWorkflow, bind_eq_ok] at hok
  obtain ⟨_, _, ⟨wf, gd⟩, _, _, hvalid, hcreate⟩ := hok
  have hgd : ValidGraph lib gd := validated_ok hvalid
  refine createRecord_valid hstore ?_ hcreate
  exact hgd

theorem handleCreateGraphWorkflow_valid (hok : handleCreateGraphWorkflow lib o body store = .ok (response, store')) :
    ValidStore lib store' := by
  simp only [handleCreateGraphWorkflow, bind_eq_ok] at hok
  obtain ⟨_, _, gd, _, _, hvalid, hcreate⟩ := hok
  have hgd : ValidGraph lib gd := validated_ok hvalid
  refine createRecord_valid hstore ?_ hcreate
  exact hgd

omit hstore

theorem compileAgent_ok {body : String} {wf : AgentWorkflow} (hok : compileAgent lib o body = .ok (wf, gd)) :
    lib.loadFromBytes body = .ok wf ∧ hasErrors (agent.validate lib.reg lib.exprValidator (some wf)) = false ∧
      agent.compile lib.reg (lib.timestamp o.now) (some wf) = .ok gd := by
  simp only [compileAgent, parsed, bind_eq_ok, mapError_eq_ok] at hok
  obtain ⟨wf', hload, hok⟩ := hok
  split at hok
  · cases hok
  · next hvalid =>
    simp only [bind_eq_ok, mapError_eq_ok] at hok
    obtain ⟨gd', hcompile, hreturn⟩ := hok
    cases hreturn
    exact ⟨hload, Bool.eq_false_iff.mpr hvalid, hcompile⟩

theorem recompile_valid {next : WorkflowRecord} {body : String}
    (hagent : record.schemaKind = .agent → ∀ wf gd, compileAgent lib o body = .ok (wf, gd) → ValidGraph lib gd)
    (hok : recompile lib o record body = .ok next) : ValidGraph lib next.compiled := by
  unfold recompile at hok
  split at hok
  · next hkind =>
    simp only [bind_eq_ok] at hok
    obtain ⟨⟨wf, gd⟩, hcompile, hreturn⟩ := hok
    cases hreturn
    exact hagent hkind wf gd hcompile
  · simp only [bind_eq_ok] at hok
    obtain ⟨gd, _, _, hvalid, hreturn⟩ := hok
    cases hreturn
    exact validated_ok hvalid
  · cases hok

variable {id : String}

theorem readBody_ok {text : String} (hok : readBody body = .ok text) : body = .bytes text := by
  cases body <;> cases hok
  rfl

include hstore

theorem handleDeleteWorkflow_valid (hok : handleDeleteWorkflow o id store = .ok (response, store')) :
    ValidStore lib store' := by
  unfold handleDeleteWorkflow at hok
  split at hok
  · cases hok
  · split at hok
    · cases hok
      exact hstore.delete id
    · cases hok

theorem handleUpdateWorkflow_valid
    (hagent : ∀ record text wf gd, store id = some record → record.schemaKind = .agent → body = .bytes text →
      compileAgent lib o text = .ok (wf, gd) → ValidGraph lib gd)
    (hok : handleUpdateWorkflow lib o id body store = .ok (response, store')) : ValidStore lib store' := by
  simp only [handleUpdateWorkflow, bind_eq_ok] at hok
  obtain ⟨record, hget, text, hbody, next, hnext, hupdate⟩ := hok
  have hvalid := recompile_valid
    (fun hkind wf gd => hagent record text wf gd (by grind [getRecord]) hkind (readBody_ok hbody)) hnext
  unfold updateRecord at hupdate
  split at hupdate
  · cases hupdate
  · cases hupdate
    exact hstore.update { next with updatedAt := o.now } hvalid next.id

/-- The condition on a request: a workflow that is to replace one of the agent kind
is one whose graph is valid. -/
def UpdatesReady (lib : WorkflowLibrary) (store : WorkflowStore) (label : Occasion × WorkflowRequest) : Prop :=
  ∀ id text record wf, label.2 = .update id (.bytes text) → store id = some record → record.schemaKind = .agent →
    lib.loadFromBytes text = .ok wf → GraphReady lib.reg wf

theorem workflows_step_valid {label : Occasion × WorkflowRequest} (hlabel : UpdatesReady lib store label)
    (hstep : (workflows lib).step label store = some store') : ValidStore lib store' := by
  obtain ⟨o, req⟩ := label
  simp only [workflows] at hstep
  cases hhandle : handle lib o store req with
  | error failure =>
    rw [hhandle] at hstep
    cases hstep
    exact hstore
  | ok result =>
    rw [hhandle] at hstep
    cases hstep
    cases req with
    | createAgent body => exact handleCreateAgentWorkflow_valid hstore hhandle
    | createGraph body => exact handleCreateGraphWorkflow_valid hstore hhandle
    | update id body =>
      refine handleUpdateWorkflow_valid hstore ?_ hhandle
      rintro record text wf gd hrecord hkind rfl hcompile
      obtain ⟨hload, hok, hgd⟩ := compileAgent_ok hcompile
      exact (hlabel id text record wf rfl hrecord hkind hload).valid hok hgd
    | delete id => exact handleDeleteWorkflow_valid hstore hhandle

omit hstore

/-- After any requests, the validator finds no error in a stored graph, provided that
the workflows that have replaced ones of the agent kind were ready. -/
theorem stored_workflows_valid (lib : WorkflowLibrary) (store : WorkflowStore)
    (hreach : (workflows lib).ReachesUnder (UpdatesReady lib) (workflows lib).init store) (id : String)
    (record : WorkflowRecord) (hrecord : store id = some record) :
    hasErrors (record.compiled.validateWithRegistry (some lib.reg) lib.exprValidator) = false := by
  have hvalid : ValidStore lib store := by
    refine hreach.invariant (fun _ _ _ hstore hlabel hstep => workflows_step_valid hstore hlabel hstep) ?_
    intro _ _ hnone
    cases hnone
  exact hvalid id record hrecord

namespace sample

def chain : AgentWorkflow :=
  { circular "sequential" with
    tasks := { entries := [("first", writeTask "writer" []), ("second", writeTask "writer" ["first"])]
               nodup := by decide } }

theorem chain_ready : GraphReady global chain where
  ids := plan_nodes_nodup_iff.mp (by decide +kernel)
  strategy := by decide +kernel
  order := by
    have hpairs : ∀ pair ∈ chain.precedence, pair = ("first", "second") := by decide +kernel
    refine .of_rank (fun id => if id = "second" then 1 else 0) fun a b hpair => ?_
    cases hpairs _ hpair
    decide
  builtins := by decide +kernel
  tools := by decide +kernel
  conditions := by decide +kernel

def library : WorkflowLibrary :=
  { reg := global
    exprValidator := none
    loadFromBytes := fun text => .ok (if text = "circular" then circular "sequential" else chain)
    unmarshal := fun _ => .error "unexpected end of JSON input"
    timestamp := fun _ => "2024-01-01T00:00:00Z" }

def occasion : Occasion := { now := 0, uuid := "0" }

def isPlain : WorkflowRequest → Bool
  | .update _ (.bytes text) => text ≠ "circular"
  | _ => true

theorem isPlain_ready {label : Occasion × WorkflowRequest} (hplain : isPlain label.2 = true) :
    UpdatesReady library store label := by
  intro id text record wf hlabel _ _ hload
  rw [hlabel] at hplain
  have hne : text ≠ "circular" := of_decide_eq_true hplain
  simp only [library, if_neg hne] at hload
  cases hload
  exact chain_ready

def invalidAfter (reqs : List WorkflowRequest) : Option Bool := do
  let store ← (workflows library).exec (reqs.map fun req => (occasion, req)) (workflows library).init
  let record ← store "circle"
  return hasErrors (record.compiled.validateWithRegistry (some library.reg) library.exprValidator)

end sample

/-- A workflow with a cycle cannot be created, but an update stores it. -/
theorem stored_workflow_invalid :
    sample.invalidAfter [.createAgent (.bytes "circular")] = none ∧
    sample.invalidAfter [.createAgent (.bytes "chain")] = some false ∧
    sample.invalidAfter [.createAgent (.bytes "chain"), .update "circle" (.bytes "circular")] = some true := by
  decide +kernel

/-- A chain that was updated to itself is valid. -/
theorem stored_chain_valid :
    ∃ store record, (workflows sample.library).ReachesUnder (UpdatesReady sample.library)
        (workflows sample.library).init store ∧
      store "circle" = some record ∧
      hasErrors (record.compiled.validateWithRegistry (some sample.library.reg)
        sample.library.exprValidator) = false := by
  obtain ⟨store, hreach, hsome⟩ := Machine.exists_reachesUnder_of_exec (m := workflows sample.library)
    (P := fun _ label => sample.isPlain label.2)
    ([.createAgent (.bytes "chain"), .update "circle" (.bytes "chain")].map fun req => (sample.occasion, req))
    (fun store => (store "circle").isSome) (by decide +kernel)
  obtain ⟨record, hrecord⟩ := Option.isSome_iff_exists.mp hsome
  have hready : (workflows sample.library).ReachesUnder (UpdatesReady sample.library) _ store :=
    hreach.mono fun _ _ => sample.isPlain_ready
  exact ⟨store, record, hready, hrecord, stored_workflows_valid _ store hready "circle" record hrecord⟩

end petalflow.server
