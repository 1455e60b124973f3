import Petalflow.Core.Envelope
import Petalflow.Lib.Dict
import Petalflow.Lib.Program

open petalflow.core
open dict (Dict)
open text (trimSpace)
open program (Program)

namespace petalflow.tool

/-- The transport protocol of a tool. A text that is none of the constants is kept. -/
inductive TransportType where
  | native | http | stdio | mcp
  | other (text : String)
deriving DecidableEq, Repr

def TransportType.text : TransportType → String
  | .native => "native"
  | .http => "http"
  | .stdio => "stdio"
  | .mcp => "mcp"
  | .other text => text

inductive MCPMode where
  | stdio | sse
  | other (text : String)
deriving DecidableEq, Repr

def MCPMode.text : MCPMode → String
  | .stdio => "stdio"
  | .sse => "sse"
  | .other text => text

/-- How a tool is integrated. The empty text is an origin that is not set. -/
inductive ToolOrigin where
  | native | mcp | http | stdio
  | other (text : String)
deriving DecidableEq, Repr

def ToolOrigin.unset : ToolOrigin := .other ""

/-- The availability of a tool. The empty text is a status that is not set. -/
inductive Status where
  | ready | unhealthy | disabled | unverified
  | other (text : String)
deriving DecidableEq, Repr

def Status.unset : Status := .other ""

/-- Describes a field of inputs, outputs and configurations. No default is `nil`. -/
structure FieldSpec where
  type : String := ""
  required : Bool := false
  description : String := ""
  default : Value := .nil
  sensitive : Bool := false
  items : Option FieldSpec := none
  properties : List (String × FieldSpec) := []

structure ActionSpec where
  mcpToolName : String := ""
  description : String := ""
  inputs : Dict String FieldSpec := .empty
  outputs : Dict String FieldSpec := .empty
  llmCallable : Option Bool := none
  idempotent : Bool := false

structure RetryPolicy where
  maxAttempts : Int := 0
  backoffMS : Int := 0
  retryableCodes : List Int := []

structure TransportSpec where
  type : TransportType
  endpoint : String := ""
  command : String := ""
  args : List String := []
  env : Dict String String := .empty
  mode : MCPMode := .other ""
  timeoutMS : Int := 0
  retry : RetryPolicy := {}

structure MCPTransport where
  mode : MCPMode
  endpoint : String := ""
  command : String := ""
  args : List String := []
  env : Dict String String := .empty
  timeoutMS : Int := 0
  retry : RetryPolicy := {}

def newMCPTransport (cfg : MCPTransport) : TransportSpec :=
  { type := .mcp, mode := cfg.mode, endpoint := cfg.endpoint, command := cfg.command, args := cfg.args, env := cfg.env,
    timeoutMS := cfg.timeoutMS, retry := cfg.retry }

def TransportSpec.asMCP (t : TransportSpec) : Option MCPTransport :=
  if t.type ≠ .mcp then none
  else
    some { mode := t.mode, endpoint := t.endpoint, command := t.command, args := t.args, env := t.env,
           timeoutMS := t.timeoutMS, retry := t.retry }

structure HealthConfig where
  endpoint : String := ""
  method : String := ""
  intervalSeconds : Int := 0
  timeoutMS : Int := 0
  unhealthyThreshold : Int := 0

structure ToolMetadata where
  name : String
  version : String := ""
  description : String := ""
  author : String := ""
  license : String := ""
  homepage : String := ""
  tags : List String := []

structure ToolManifest where
  schema : String := ""
  manifestVersion : String
  metadata : ToolMetadata
  transport : TransportSpec
  actions : Dict String ActionSpec := .empty
  config : Dict String FieldSpec := .empty
  health : Option HealthConfig := none

def manifestVersionV1 : String := "1.0"

def schemaToolV1 : String := "https://petalflow.dev/schemas/tool-manifest/v1.json"

def newManifest (name : String) : ToolManifest :=
  { schema := schemaToolV1, manifestVersion := manifestVersionV1, metadata := { name },
    transport := { type := .other "" } }

structure ToolOverlay where
  path : String
deriving DecidableEq, Repr

/-- The record of a tool in the registry. A time that is not set is `none`. -/
structure ToolRegistration where
  name : String
  manifest : ToolManifest
  origin : ToolOrigin := .unset
  config : Dict String String := .empty
  status : Status := .unset
  registeredAt : Option Int := none
  lastHealthCheck : Option Int := none
  healthFailures : Int := 0
  overlay : Option ToolOverlay := none
  enabled : Bool := false

def ToolManifest.sensitive (m : ToolManifest) (key : String) : Bool := (m.config.get? key).any (·.sensitive)

inductive Severity where
  | error | warning
deriving DecidableEq, Repr

structure Diagnostic where
  field : String
  code : String
  severity : Severity
  message : String
deriving DecidableEq, Repr

def hasValidationErrors (diags : List Diagnostic) : Bool := diags.any (·.severity = .error)

def quote (s : String) : String := "\"" ++ s ++ "\""

def object (fields : List (String × Option Value)) : Value :=
  .map (fields.filterMap fun field => field.2.map (field.1, ·))

/-- A text that is omitted when it is empty; likewise below. -/
def textOrNone (s : String) : Option Value :=
  if s = "" then none else some (.str s)

def intOrNone (i : Int) : Option Value :=
  if i = 0 then none else some (.num .jsonNumber i)

def boolOrNone (b : Bool) : Option Value :=
  if b then some (.bool true) else none

def listOrNone (elems : List Value) : Option Value :=
  if elems.isEmpty then none else some (.list elems)

def mapOrNone (entries : Vars) : Option Value :=
  if entries.isEmpty then none else some (.map entries)

mutual

def FieldSpec.json : FieldSpec → Value
  | { type, required, description, default, sensitive, items, properties } =>
    object [("type", some (.str type)), ("required", boolOrNone required), ("description", textOrNone description),
      ("default", match default with
        | .nil => none
        | value => some value),
      ("sensitive", boolOrNone sensitive), ("items", itemsJSON items),
      ("properties", mapOrNone (fieldsJSON properties))]

def itemsJSON : Option FieldSpec → Option Value
  | none => none
  | some spec => some spec.json

def fieldsJSON : List (String × FieldSpec) → Vars
  | [] => []
  | (name, spec) :: rest => (name, spec.json) :: fieldsJSON rest

end

def ActionSpec.json (a : ActionSpec) : Value :=
  object [("mcp_tool_name", textOrNone a.mcpToolName), ("description", textOrNone a.description),
    ("inputs", mapOrNone (fieldsJSON a.inputs.entries)), ("outputs", mapOrNone (fieldsJSON a.outputs.entries)),
    ("llm_callable", a.llmCallable.map .bool), ("idempotent", boolOrNone a.idempotent)]

def RetryPolicy.json (r : RetryPolicy) : Value :=
  object [("max_attempts", intOrNone r.maxAttempts), ("backoff_ms", intOrNone r.backoffMS),
    ("retryable_codes", listOrNone (r.retryableCodes.map fun code => .num .jsonNumber code))]

def TransportSpec.json (t : TransportSpec) : Value :=
  object [("type", some (.str t.type.text)), ("endpoint", textOrNone t.endpoint), ("command", textOrNone t.command),
    ("args", listOrNone (t.args.map .str)), ("env", mapOrNone (t.env.entries.map fun e => (e.1, .str e.2))),
    ("mode", textOrNone t.mode.text), ("timeout_ms", intOrNone t.timeoutMS), ("retry", some t.retry.json)]

def HealthConfig.json (h : HealthConfig) : Value :=
  object [("endpoint", textOrNone h.endpoint), ("method", textOrNone h.method),
    ("interval_seconds", intOrNone h.intervalSeconds), ("timeout_ms", intOrNone h.timeoutMS),
    ("unhealthy_threshold", intOrNone h.unhealthyThreshold)]

def ToolMetadata.json (m : ToolMetadata) : Value :=
  object [("name", some (.str m.name)), ("version", textOrNone m.version), ("description", textOrNone m.description),
    ("author", textOrNone m.author), ("license", textOrNone m.license), ("homepage", textOrNone m.homepage),
    ("tags", listOrNone (m.tags.map .str))]

def ToolManifest.json (m : ToolManifest) : Value :=
  object [("$schema", textOrNone m.schema), ("manifest_version", some (.str m.manifestVersion)),
    ("tool", some m.metadata.json), ("transport", some m.transport.json),
    ("actions", some (.map (m.actions.entries.map fun e => (e.1, e.2.json)))),
    ("config", mapOrNone (fieldsJSON m.config.entries)), ("health", m.health.map (·.json))]

def report (field code message : String) : List Diagnostic := [{ field, code, severity := .error, message }]

namespace manifestSchemaValidator

def asInteger : Value → Option Int
  | .num _ n => if n.den = 1 then some n.num else none
  | _ => none

def asNonNegativeInt (value : Value) : Option Int := (asInteger value).filter (0 ≤ ·)

def requireObject (obj : Vars) (key path : String) (check : Vars → List Diagnostic) : List Diagnostic :=
  match obj.lookup key with
  | none => report path "REQUIRED" "is required"
  | some (.map next) => check next
  | some _ => report path "TYPE" "must be an object"

def requireString (obj : Vars) (key path : String) (check : String → List Diagnostic) : List Diagnostic :=
  match obj.lookup key with
  | none => report path "REQUIRED" "is required"
  | some (.str s) => check s
  | some _ => report path "TYPE" "must be a string"

def requireText (obj : Vars) (key path message : String) : List Diagnostic :=
  requireString obj key path fun s => if trimSpace s = "" then report path "MIN_LENGTH" message else []

def optional (obj : Vars) (key path message : String) (valid : Value → Bool) : List Diagnostic :=
  match obj.lookup key with
  | none => []
  | some value => if valid value then [] else report path "TYPE" message

def isString : Value → Bool
  | .str _ => true
  | _ => false

def isBool : Value → Bool
  | .bool _ => true
  | _ => false

def optionalString (obj : Vars) (key path : String) : List Diagnostic :=
  optional obj key path "must be a string" isString

def optionalBool (obj : Vars) (key path : String) : List Diagnostic :=
  optional obj key path "must be a boolean" isBool

def optionalCount (obj : Vars) (key path : String) : List Diagnostic :=
  optional obj key path "must be a non-negative integer" fun value => (asNonNegativeInt value).isSome

def optionalElems (obj : Vars) (key path message elemMessage : String) (valid : Value → Bool) : List Diagnostic :=
  match obj.lookup key with
  | none => []
  | some (.list elems) =>
    elems.zipIdx.flatMap fun elem =>
      if valid elem.1 then [] else report s!"{path}[{elem.2}]" "TYPE" elemMessage
  | some _ => report path "TYPE" message

def optionalObject (obj : Vars) (key path message : String) (check : Vars → List Diagnostic) : List Diagnostic :=
  match obj.lookup key with
  | none => []
  | some (.map next) => check next
  | some _ => report path "TYPE" message

def validateTool (obj : Vars) : List Diagnostic :=
  requireText obj "name" "tool.name" "must not be empty" ++
    (["version", "description", "author", "license", "homepage"].flatMap fun key =>
      optionalString obj key ("tool." ++ key)) ++
    optionalElems obj "tags" "tool.tags" "must be an array of strings" "must be a string" isString

def validateRetry (path : String) (obj : Vars) : List Diagnostic :=
  optionalCount obj "max_attempts" (path ++ ".max_attempts") ++
    optionalCount obj "backoff_ms" (path ++ ".backoff_ms") ++
    optionalElems obj "retryable_codes" (path ++ ".retryable_codes") "must be an array of integers" "must be an integer"
      fun value => (asInteger value).isSome

def validateTransportType (type : String) : List Diagnostic :=
  if type ∈ ["native", "http", "stdio", "mcp"] then []
  else report "transport.type" "ENUM" "must be one of: native, http, stdio, mcp"

def validateTransportArgs (obj : Vars) : List Diagnostic :=
  optionalElems obj "args" "transport.args" "must be an array of strings" "must be a string" isString

def validateTransportEnv (obj : Vars) : List Diagnostic :=
  optionalObject obj "env" "transport.env" "must be an object of string values" fun env =>
    env.flatMap fun e => if isString e.2 then [] else report ("transport.env." ++ e.1) "TYPE" "must be a string"

def validateTransportRetry (obj : Vars) : List Diagnostic :=
  optionalObject obj "retry" "transport.retry" "must be an object" (validateRetry "transport.retry")

def validateTransportCommonFields (obj : Vars) : List Diagnostic :=
  optionalCount obj "timeout_ms" "transport.timeout_ms" ++ optionalString obj "endpoint" "transport.endpoint" ++
    optionalString obj "command" "transport.command" ++
    validateTransportArgs obj ++ validateTransportEnv obj ++ validateTransportRetry obj

def validateHTTPTransport (obj : Vars) : List Diagnostic :=
  requireText obj "endpoint" "transport.endpoint" "must not be empty for http transport"

def validateStdioTransport (obj : Vars) : List Diagnostic :=
  requireText obj "command" "transport.command" "must not be empty for stdio transport"

def validateMCPTransport (obj : Vars) : List Diagnostic :=
  requireString obj "mode" "transport.mode" fun mode =>
    if mode = "stdio" then requireText obj "command" "transport.command" "must not be empty for mcp stdio mode"
    else if mode = "sse" then requireText obj "endpoint" "transport.endpoint" "must not be empty for mcp sse mode"
    else report "transport.mode" "ENUM" "must be one of: stdio, sse"

def validateTransportTypeSpecificFields (type : String) (obj : Vars) : List Diagnostic :=
  if type = "http" then validateHTTPTransport obj
  else if type = "stdio" then validateStdioTransport obj
  else if type = "mcp" then validateMCPTransport obj
  else []

def validateTransport (obj : Vars) : List Diagnostic :=
  requireString obj "type" "transport.type" fun type =>
    validateTransportType type ++ validateTransportCommonFields obj ++ validateTransportTypeSpecificFields type obj

def allowedFieldTypes : List String :=
  ["string", "integer", "float", "boolean", "bytes", "array", "object", "any"]

mutual

def validateFieldSpec (path : String) : Value → List Diagnostic
  | .map spec =>
    requireString spec "type" (path ++ ".type") fun fieldType =>
      (if fieldType ∈ allowedFieldTypes then []
        else report (path ++ ".type") "ENUM"
          "must be one of: string, integer, float, boolean, bytes, array, object, any") ++
      optionalBool spec "required" (path ++ ".required") ++
      optionalString spec "description" (path ++ ".description") ++
      optionalBool spec "sensitive" (path ++ ".sensitive") ++
      validateItems (path ++ ".items") spec ++
      (if fieldType = "array" ∧ (spec.lookup "items").isNone then
        report (path ++ ".items") "REQUIRED" "is required when type is array" else []) ++
      validateProperties (path ++ ".properties") spec
  | _ => report path "TYPE" "must be an object"

/-- Checks the entry `items` of an object. -/
def validateItems (path : String) : Vars → List Diagnostic
  | [] => []
  | (key, value) :: rest => if key = "items" then validateFieldSpec path value else validateItems path rest

/-- Checks the entry `properties` of an object. -/
def validateProperties (path : String) : Vars → List Diagnostic
  | [] => []
  | (key, .map props) :: rest =>
    if key = "properties" then validateFieldMap path props else validateProperties path rest
  | (key, _) :: rest =>
    if key = "properties" then report path "TYPE" "must be an object" else validateProperties path rest

def validateFieldMap (path : String) : Vars → List Diagnostic
  | [] => []
  | (key, value) :: rest => validateFieldSpec (path ++ "." ++ key) value ++ validateFieldMap path rest

end

def validateAction (path : String) (action : Vars) : List Diagnostic :=
  optionalString action "description" (path ++ ".description") ++
    optionalBool action "idempotent" (path ++ ".idempotent") ++
    optionalObject action "inputs" (path ++ ".inputs") "must be an object" (validateFieldMap (path ++ ".inputs")) ++
    optionalObject action "outputs" (path ++ ".outputs") "must be an object" (validateFieldMap (path ++ ".outputs"))

def validateActions (path : String) (actions : Vars) : List Diagnostic :=
  (if actions.isEmpty then report path "REQUIRED" "must define at least one action" else []) ++ actions.flatMap fun e =>
      match e.2 with
      | .map action => validateAction (path ++ "." ++ e.1) action
      | _ => report (path ++ "." ++ e.1) "TYPE" "must be an object"

def validateHealth (path : String) (health : Vars) : List Diagnostic :=
  optionalString health "endpoint" (path ++ ".endpoint") ++ optionalString health "method" (path ++ ".method") ++
    ["interval_seconds", "timeout_ms", "unhealthy_threshold"].flatMap fun key =>
      optionalCount health key (path ++ "." ++ key)

def validateRoot (root : Vars) : List Diagnostic :=
  (requireString root "manifest_version" "manifest_version" fun version =>
      if version ≠ manifestVersionV1 then
        report "manifest_version" "ENUM" ("must be " ++ quote manifestVersionV1) else []) ++
    optionalString root "$schema" "$schema" ++
    requireObject root "tool" "tool" validateTool ++
    requireObject root "transport" "transport" validateTransport ++
    requireObject root "actions" "actions" (validateActions "actions") ++
    optionalObject root "config" "config" "must be an object" (validateFieldMap "config") ++
    optionalObject root "health" "health" "must be an object" (validateHealth "health")

end manifestSchemaValidator

def validateManifestJSON : Value → List Diagnostic
  | .map root => manifestSchemaValidator.validateRoot root
  | _ => report "$" "TYPE" "Manifest must be a JSON object"

/-- `SchemaManifestValidator`. -/
def validateManifestSchema (manifest : ToolManifest) : List Diagnostic := validateManifestJSON manifest.json

/-- The errors of the tool service. A failed validation carries its findings. -/
inductive ToolError where
  | text (message : String)
  | validation (details : List Diagnostic)
deriving DecidableEq, Repr

inductive StoreOp where
  | get (name : String)
  | upsert (reg : ToolRegistration)
  | delete (name : String)

/-- What an operation answers: a registration if there is one, or else an error if
there was one. -/
@[reducible] def StoreOp.Res : StoreOp → Type
  | .get _ => Except String (Option ToolRegistration)
  | .upsert _ => Option String
  | .delete _ => Option String

abbrev Method := Program StoreOp StoreOp.Res ToolError

def storeGet (name : String) : Method (Except String (Option ToolRegistration)) :=
  Program.perform (StoreOp.get name)

def storeUpsert (reg : ToolRegistration) : Method (Option String) := Program.perform (StoreOp.upsert reg)

def storeDelete (name : String) : Method (Option String) := Program.perform (StoreOp.delete name)

structure ToolEnv where
  toLower : String → String
  checkHTTP : Nat → String → Option String
  checkStdio : Nat → String → Option String
  checkMCP : Nat → ToolRegistration → Option String

def isValidV1Type (typeName : String) : Bool :=
  typeName ∈ ["string", "integer", "float", "boolean", "bytes", "array", "object", "any"]

def inOrder (found : List (String × List Diagnostic)) : List Diagnostic :=
  (found.insertionSort fun a b => a.1 ≤ b.1).flatMap Prod.snd

mutual

def validateFieldSpec (path : String) : FieldSpec → List Diagnostic
  | { type, items, properties, .. } =>
    if isValidV1Type type then
      if type = "array" ∧ items.isNone then
        report (path ++ ".items") "REQUIRED_ITEMS" "items is required when type is array"
      else
        (if type = "array" then validateItems (path ++ ".items") items else []) ++
          inOrder (validateFields (path ++ ".properties.") properties)
    else
      report (path ++ ".type") "INVALID_TYPE"
        s!"Unsupported type {quote type}; allowed: string, integer, float, boolean, bytes, array, object, any"

def validateItems (path : String) : Option FieldSpec → List Diagnostic
  | none => []
  | some spec => validateFieldSpec path spec

def validateFields (path : String) : List (String × FieldSpec) → List (String × List Diagnostic)
  | [] => []
  | (name, spec) :: rest => (name, validateFieldSpec (path ++ name) spec) :: validateFields path rest

end

/-- `V1TypeSystemValidator`. -/
def validateManifestTypes (manifest : ToolManifest) : List Diagnostic :=
  inOrder (manifest.actions.entries.map fun e =>
      (e.1, inOrder (validateFields ("actions." ++ e.1 ++ ".inputs.") e.2.inputs.entries) ++
        inOrder (validateFields ("actions." ++ e.1 ++ ".outputs.") e.2.outputs.entries))) ++
    inOrder (validateFields "config." manifest.config.entries)

/-- The pattern `^[a-z][a-z0-9_]{1,63}$`. -/
def matchesToolName (name : String) : Bool :=
  match name.toList with
  | [] => false
  | c :: rest =>
    c.isLower && 1 ≤ rest.length && rest.length ≤ 63 && rest.all fun c => c.isLower || c.isDigit || c = '_'

/-- `RegistrationNameValidator`, which asks the store when the name has to be new. -/
def validateRegistrationName (requireUnique : Bool) (reg : ToolRegistration) : Method (List Diagnostic) := do
  let name := trimSpace reg.name
  if name = "" then return report "name" "REQUIRED_FIELD" "Tool name is required"
  let invalid :=
    if matchesToolName name then []
    else report "name" "INVALID_NAME" "Tool name must match ^[a-z][a-z0-9_]\x7b1,63\x7d$"
  if !requireUnique then return invalid
  match ← storeGet name with
  | .error err => return invalid ++ report "name" "STORE_LOOKUP_FAILED" s!"Failed to verify name uniqueness: {err}"
  | .ok (some _) =>
    return invalid ++ report "name" "NAME_NOT_UNIQUE" s!"Tool name {quote name} is already registered"
  | .ok none => return invalid

/-- One round of `ActionNameValidator`, with the names seen before. -/
def validateActionName (env : ToolEnv) (state : List Diagnostic × List (String × String)) (actionName : String) :
    List Diagnostic × List (String × String) :=
  let (diags, seen) := state
  let clean := trimSpace actionName
  if clean = "" then (diags ++ report "actions" "INVALID_ACTION_NAME" "Action names must not be empty", seen)
  else
    let diags :=
      if matchesToolName clean then diags
      else
        diags ++ report ("actions." ++ clean) "INVALID_ACTION_NAME"
          "Action name must match ^[a-z][a-z0-9_]\x7b1,63\x7d$"
    let lower := env.toLower clean
    match seen.lookup lower with
    | none => (diags, (lower, clean) :: seen)
    | some prev =>
      if prev ≠ clean then
        (diags ++ report ("actions." ++ clean) "ACTION_NOT_UNIQUE"
          s!"Action name {quote clean} conflicts with {quote prev}", seen)
      else (diags, (lower, clean) :: seen)

/-- `ActionNameValidator`. -/
def validateActionNames (env : ToolEnv) (reg : ToolRegistration) : List Diagnostic :=
  if reg.manifest.actions.entries.isEmpty then report "actions" "REQUIRED_FIELD" "At least one action is required"
  else (reg.manifest.actions.keys.foldl (validateActionName env) ([], [])).1

/-- `TransportReachabilityValidator`. -/
def validateReachability (env : ToolEnv) (t : Nat) (reg : ToolRegistration) : List Diagnostic :=
  match reg.manifest.transport.type with
  | .native => []
  | .http =>
    let endpoint := trimSpace reg.manifest.transport.endpoint
    if endpoint = "" then report "transport.endpoint" "REQUIRED_FIELD" "HTTP transport requires endpoint"
    else if (env.checkHTTP t endpoint).isSome then
      report "transport.endpoint" "UNREACHABLE" s!"Could not connect to {endpoint}"
    else []
  | .stdio =>
    let command := trimSpace reg.manifest.transport.command
    if command = "" then report "transport.command" "REQUIRED_FIELD" "Stdio transport requires command"
    else if (env.checkStdio t command).isSome then
      report "transport.command" "UNREACHABLE" s!"Command {quote command} is not executable"
    else []
  | .mcp =>
    if (env.checkMCP t reg).isSome then report "transport" "UNREACHABLE" "MCP transport initialization failed" else []
  | .other text => report "transport.type" "INVALID_TRANSPORT" s!"Unsupported transport type {quote text}"

/-- `ConfigCompletenessValidator`. -/
def validateCompleteness (reg : ToolRegistration) : List Diagnostic :=
  reg.manifest.config.entries.flatMap fun e =>
    if e.2.required ∧ trimSpace ((reg.config.get? e.1).getD "") = "" then
      report ("config." ++ e.1) "REQUIRED_FIELD" s!"Required config field {quote e.1} has no value"
    else []

/-- `SensitiveFieldValidator`. -/
def validateSensitiveFields (reg : ToolRegistration) : List Diagnostic :=
  reg.manifest.config.entries.flatMap fun e =>
    match e.2.default with
    | .nil => []
    | _ =>
      if e.2.sensitive then
        report ("config." ++ e.1 ++ ".default") "SENSITIVE_DEFAULT_FORBIDDEN"
          s!"Sensitive config field {quote e.1} must not define a default"
      else []

/-- The findings of the pipeline of `validateConfigOnlyRegistration`. -/
def configOnlyDiagnostics (reg : ToolRegistration) : List Diagnostic :=
  validateManifestSchema reg.manifest ++ validateManifestTypes reg.manifest ++
    (validateCompleteness reg ++ validateSensitiveFields reg)

def validateConfigOnlyRegistration (reg : ToolRegistration) : Except ToolError Unit :=
  if hasValidationErrors (configOnlyDiagnostics reg) then .error (.validation (configOnlyDiagnostics reg)) else .ok ()

/-- The findings of the pipeline of `ValidateNewRegistration`, with those on the name. -/
def newRegistrationDiagnostics (env : ToolEnv) (t : Nat) (named : List Diagnostic) (reg : ToolRegistration) :
    List Diagnostic :=
  validateManifestSchema reg.manifest ++ validateManifestTypes reg.manifest ++
    (named ++ validateActionNames env reg ++ validateReachability env t reg ++ validateCompleteness reg ++
      validateSensitiveFields reg)

def validateNewRegistration (env : ToolEnv) (t : Nat) (allowExistingName : Bool) (reg : ToolRegistration) :
    Method Unit := do
  let named ← validateRegistrationName (!allowExistingName) reg
  let diags := newRegistrationDiagnostics env t named reg
  if hasValidationErrors diags then .fail (.validation diags) else return ()

/-- The registration passes `validateConfigOnlyRegistration`. -/
def ToolRegistration.Valid (reg : ToolRegistration) : Prop := validateConfigOnlyRegistration reg = .ok ()

theorem hasValidationErrors_append (diags diags' : List Diagnostic) :
    hasValidationErrors (diags ++ diags') = (hasValidationErrors diags || hasValidationErrors diags') := by
  simp [hasValidationErrors]

variable {reg : ToolRegistration}

theorem valid_iff : reg.Valid ↔ hasValidationErrors (configOnlyDiagnostics reg) = false := by
  unfold ToolRegistration.Valid validateConfigOnlyRegistration
  split <;> simp_all

theorem valid_of_newRegistrationDiagnostics {env : ToolEnv} {t : Nat} {named : List Diagnostic}
    (hnone : hasValidationErrors (newRegistrationDiagnostics env t named reg) = false) :
    reg.Valid ∧ hasValidationErrors named = false := by
  simp only [newRegistrationDiagnostics, hasValidationErrors_append, Bool.or_eq_false_iff] at hnone
  obtain ⟨⟨hschema, htypes⟩, ⟨⟨⟨⟨hnamed, -⟩, -⟩, hcomplete⟩, hsensitive⟩⟩ := hnone
  refine ⟨valid_iff.mpr ?_, hnamed⟩
  grind [configOnlyDiagnostics, hasValidationErrors_append]

theorem ToolRegistration.Valid.congr {reg' : ToolRegistration} (hvalid : reg.Valid)
    (hmanifest : reg'.manifest = reg.manifest) (hconfig : reg'.config = reg.config) : reg'.Valid := by
  rw [valid_iff] at hvalid ⊢
  rw [← hvalid]
  simp only [configOnlyDiagnostics, validateCompleteness, validateSensitiveFields, hmanifest, hconfig]

end petalflow.tool
