import Petalflow.Tool.Service

open petalflow.core fold
open dict (Dict sortedKeys)
open text (trimSpace)

namespace petalflow.tool

structure MCPOverlayConfigField where
  spec : FieldSpec
  envVar : String := ""

structure MCPOverlayHealth where
  strategy : String := ""
  endpoint : String := ""
  method : String := ""
  intervalSeconds : Int := 0
  timeoutMS : Int := 0
  unhealthyThreshold : Int := 0

structure MCPOverlayMetadata where
  author : String := ""
  version : String := ""
  homepage : String := ""
  tags : List String := []

structure MCPOverlay where
  overlayVersion : String
  groupActions : Dict String String := .empty
  actionModes : Dict String String := .empty
  outputSchemas : Dict String (Dict String FieldSpec) := .empty
  config : Dict String MCPOverlayConfigField := .empty
  health : MCPOverlayHealth := {}
  descriptionOverrides : Dict String String := .empty
  inputOverrides : Dict String (Dict String FieldSpec) := .empty
  metadata : MCPOverlayMetadata := {}

structure DiscoveredTool where
  name : String
  description : String := ""
  inputSchema : Vars := []

/-- The library functions, the files and the MCP servers. Files and servers may answer
differently on each occasion. -/
structure MCPEnv extends ToolEnv where
  equalFold : String → String → Bool
  readOverlay : Nat → String → Except String MCPOverlay
  listTools : Nat → String → MCPTransport → Dict String String → Option MCPOverlay → Except String (List DiscoveredTool)
  evaluateMCPHealth : Nat → ToolRegistration → HealthReport
  now : Nat → Int

def mcpOverlayVersionV1 : String := "1.0"

def sortDiagnostics (diags : List Diagnostic) : List Diagnostic :=
  diags.insertionSort fun a b => a.field < b.field ∨ a.field = b.field ∧ a.code ≤ b.code

variable (env : MCPEnv)

def validateGroupAction (action target : String) : List Diagnostic :=
  (if trimSpace action = "" then report "group_actions" "INVALID_ACTION_NAME" "group_actions keys must not be empty"
    else []) ++
  (if trimSpace target = "" then
    report ("group_actions." ++ action) "REQUIRED_FIELD" "group_actions value must map to an MCP tool name"
    else [])

def validateActionMode (action mode : String) : List Diagnostic :=
  if trimSpace (env.toLower mode) ∈ ["llm_callable", "standalone"] then []
  else report ("action_modes." ++ action) "ENUM" "action mode must be \"llm_callable\" or \"standalone\""

def validateOverlayHealth (health : MCPOverlayHealth) : List Diagnostic :=
  let strategy := trimSpace (env.toLower health.strategy)
  (if strategy ∈ ["", "process", "connection", "ping", "endpoint"] then []
    else report "health.strategy" "ENUM" "health.strategy must be one of: process, connection, ping, endpoint") ++
  (if strategy = "endpoint" ∧ trimSpace health.endpoint = "" then
    report "health.endpoint" "REQUIRED_FIELD" "health.endpoint is required when strategy is endpoint"
    else [])

def overlayTypeManifest (overlay : MCPOverlay) : ToolManifest :=
  let outputs : Dict String ActionSpec := overlay.outputSchemas.mapEntries fun _ outputs => { outputs }
  { newManifest "overlay_type_validation" with
    actions := overlay.inputOverrides.entries.foldl
      (fun actions e => actions.insert e.1 { (actions.get? e.1).getD {} with inputs := e.2 }) outputs
    config := overlay.config.mapEntries fun _ field => field.spec }

def validateMCPOverlay (overlay : MCPOverlay) : List Diagnostic :=
  sortDiagnostics
    ((if trimSpace overlay.overlayVersion = "" then
        report "overlay_version" "REQUIRED_FIELD" "overlay_version is required"
      else if overlay.overlayVersion ≠ mcpOverlayVersionV1 then
        report "overlay_version" "ENUM" s!"overlay_version must be {quote mcpOverlayVersionV1}"
      else []) ++
    overlay.groupActions.entries.flatMap (fun e => validateGroupAction e.1 e.2) ++
    overlay.actionModes.entries.flatMap (fun e => validateActionMode env e.1 e.2) ++
    overlay.config.entries.flatMap (fun e =>
      if trimSpace e.2.spec.type = "" then
        report ("config." ++ e.1 ++ ".type") "REQUIRED_FIELD" "config field type is required"
      else []) ++
    validateOverlayHealth env overlay.health ++
    validateManifestTypes (overlayTypeManifest overlay))

def modifyAction (actions : Dict String ActionSpec) (name : String) (change : ActionSpec → ActionSpec) :
    Dict String ActionSpec :=
  match actions.get? name with
  | none => actions
  | some spec => actions.insert name (change spec)

def ensureActionMCPToolNames (merged : ToolManifest) : ToolManifest :=
  { merged with
    actions := merged.actions.mapEntries fun name action =>
      if trimSpace action.mcpToolName ≠ "" then action else { action with mcpToolName := name } }

/-- One round of `applyGroupActions`: an action is called by an alias. -/
def applyGroupAction (discovered : Dict String ActionSpec) (overlay : MCPOverlay)
    (state : Dict String ActionSpec × List Diagnostic) (name : String) : Dict String ActionSpec × List Diagnostic :=
  let (grouped, diags) := state
  let target := (overlay.groupActions.get? name).getD ""
  match discovered.get? target with
  | none =>
    (grouped, diags ++
      report ("group_actions." ++ name) "UNKNOWN_ACTION" s!"MCP tool {quote target} was not discovered")
  | some source =>
    let grouped := grouped.insert name { source with mcpToolName := target }
    (if name ≠ target then grouped.erase target else grouped, diags)

section

variable (merged : ToolManifest) (overlay : MCPOverlay)

def applyGroupActions : ToolManifest × List Diagnostic :=
  let (actions, diags) :=
    (sortedKeys overlay.groupActions).foldl (applyGroupAction merged.actions overlay) (merged.actions, [])
  ({ merged with actions }, diags)

def applyDescriptionOverrides : ToolManifest :=
  { merged with
    actions := overlay.descriptionOverrides.entries.foldl
      (fun actions e => modifyAction actions e.1 fun spec => { spec with description := e.2 }) merged.actions }

def applyInputOverrides : ToolManifest :=
  { merged with
    actions := overlay.inputOverrides.entries.foldl
      (fun actions e => modifyAction actions e.1 fun spec => { spec with inputs := spec.inputs.overlay e.2 })
      merged.actions }

def applyOutputSchemas : ToolManifest :=
  { merged with
    actions := overlay.outputSchemas.entries.foldl
      (fun actions e => modifyAction actions e.1 fun spec => { spec with outputs := e.2 }) merged.actions }

def applyActionMode (mode : String) (spec : ActionSpec) : ActionSpec :=
  let mode := env.toLower (trimSpace mode)
  if mode = "llm_callable" then { spec with llmCallable := some true }
  else if mode = "standalone" then { spec with llmCallable := some false }
  else spec

def applyActionModes : ToolManifest :=
  { merged with
    actions := overlay.actionModes.entries.foldl
      (fun actions e => modifyAction actions e.1 (applyActionMode env e.2)) merged.actions }

def applyConfigOverrides : ToolManifest :=
  { merged with config := merged.config.overlay (overlay.config.mapEntries fun _ field => field.spec) }

def orKeep (text kept : String) : String :=
  if trimSpace text ≠ "" then text else kept

def applyMetadataOverrides : ToolManifest :=
  { merged with
    metadata := { merged.metadata with
      author := orKeep overlay.metadata.author merged.metadata.author
      version := orKeep overlay.metadata.version merged.metadata.version
      homepage := orKeep overlay.metadata.homepage merged.metadata.homepage
      tags := if overlay.metadata.tags.isEmpty then merged.metadata.tags else overlay.metadata.tags } }

def applyHealthOverrides : ToolManifest :=
  if trimSpace overlay.health.strategy = "" ∧ trimSpace overlay.health.endpoint = "" then merged
  else
    let health := merged.health.getD {}
    let orKeepInt (value kept : Int) : Int := if value > 0 then value else kept
    { merged with
      health := some
        { endpoint := orKeep overlay.health.endpoint health.endpoint
          method := orKeep overlay.health.method health.method
          intervalSeconds := orKeepInt overlay.health.intervalSeconds health.intervalSeconds
          timeoutMS := orKeepInt overlay.health.timeoutMS health.timeoutMS
          unhealthyThreshold := orKeepInt overlay.health.unhealthyThreshold health.unhealthyThreshold } }

end

def mergeMCPOverlay (base : ToolManifest) (overlay : MCPOverlay) : Except ToolError (ToolManifest × List Diagnostic) :=
  let diags := validateMCPOverlay env overlay
  if hasValidationErrors diags then .error (.validation diags)
  else
    let (grouped, unknown) := applyGroupActions (ensureActionMCPToolNames base) overlay
    let described := applyInputOverrides (applyDescriptionOverrides grouped overlay) overlay
    let moded := applyActionModes env (applyOutputSchemas described overlay) overlay
    let merged := applyHealthOverrides (applyMetadataOverrides (applyConfigOverrides moded overlay) overlay) overlay
    let diags := sortDiagnostics (diags ++ unknown)
    if hasValidationErrors diags then .error (.validation diags) else .ok (merged, diags)

/-- The letters, digits and underscores of a name. What stands between them becomes one
underscore. -/
def sanitizeStep (out : List Char) (c : Char) : List Char :=
  if c.isAlphanum ∨ c = '_' then out ++ [c]
  else if out.isEmpty ∨ out.getLast? = some '_' then out
  else out ++ ['_']

def trimUnderscores (chars : List Char) : List Char :=
  ((chars.dropWhile (· = '_')).reverse.dropWhile (· = '_')).reverse

def sanitizeMCPActionName (name : String) : String :=
  let trimmed := trimSpace name
  if trimmed = "" then "action"
  else
    let out := (trimUnderscores (trimmed.toList.foldl sanitizeStep [])).map Char.toLower
    match out with
    | [] => "action"
    | c :: _ => if c.isDigit then "a_" ++ String.ofList out else String.ofList out

def mapJSONSchemaType (jsonType : String) : String :=
  match env.toLower (trimSpace jsonType) with
  | "string" => "string"
  | "integer" => "integer"
  | "number" => "float"
  | "boolean" => "boolean"
  | "array" => "array"
  | "object" => "object"
  | _ => "any"

/-- The type of a schema: the one that is given, or the first of several that is not null. -/
def schemaType (schema : Vars) : String :=
  match schema.lookup "type" with
  | some (.str fieldType) => mapJSONSchemaType env fieldType
  | some (.list types) =>
    let names := types.map fun
      | .str name => name
      | _ => ""
    ((names.find? fun name => !env.equalFold name "null").map (mapJSONSchemaType env)).getD "any"
  | _ => "any"

def schemaDescription (schema : Vars) : String :=
  match schema.lookup "description" with
  | some (.str desc) => desc
  | _ => ""

mutual

def jsonSchemaToFieldSpec : Value → FieldSpec
  | .map schema =>
    { type := schemaType env schema
      description := schemaDescription schema
      default := (schema.lookup "default").getD .nil
      items := if schemaType env schema = "array" then some (itemSpec schema) else none
      properties := if schemaType env schema = "object" then propertySpecs schema else [] }
  | _ => { type := "any" }

/-- The field of the entry `items` of a schema. -/
def itemSpec : Vars → FieldSpec
  | [] => { type := "any" }
  | (key, value) :: rest => if key = "items" then jsonSchemaToFieldSpec value else itemSpec rest

/-- The fields of the entry `properties` of a schema. -/
def propertySpecs : Vars → List (String × FieldSpec)
  | [] => []
  | (key, value) :: rest => if key = "properties" then objectSpecs value else propertySpecs rest

def objectSpecs : Value → List (String × FieldSpec)
  | .map props => fieldSpecs props
  | _ => []

def fieldSpecs : Vars → List (String × FieldSpec)
  | [] => []
  | (key, value) :: rest => (key, jsonSchemaToFieldSpec value) :: fieldSpecs rest

end

def mapInputSchema (schema : Vars) : Dict String FieldSpec :=
  let required :=
    match schema.lookup "required" with
    | some (.list items) => items
    | _ => []
  match schema.lookup "properties" with
  | some (.map properties) =>
    properties.foldl (fun inputs e =>
      inputs.insert e.1 { jsonSchemaToFieldSpec env e.2 with required := required.any (· == .str e.1) }) .empty
  | _ => .empty

def discoveredActions (tools : List DiscoveredTool) : Dict String ActionSpec :=
  tools.foldl (fun actions discovered =>
    actions.insert (sanitizeMCPActionName discovered.name)
      { mcpToolName := discovered.name
        description := trimSpace discovered.description
        inputs := mapInputSchema env discovered.inputSchema }) .empty

def discoveredManifest (name : String) (transport : MCPTransport) (tools : List DiscoveredTool) : ToolManifest :=
  { newManifest name with
    transport := newMCPTransport transport
    actions := discoveredActions env tools }

def discoverMCPManifest (t : Nat) (name : String) (transport : MCPTransport) (config : Dict String String)
    (overlay : Option MCPOverlay) : Except ToolError ToolManifest :=
  if trimSpace name = "" then .error (.text "tool: mcp discovery requires registration name")
  else do
    let tools ← (env.listTools t name transport config overlay).mapError .text
    match overlay with
    | none => return discoveredManifest env name transport tools
    | some overlay => return (← mergeMCPOverlay env (discoveredManifest env name transport tools) overlay).1

def parseOverlay (t : Nat) (overlayPath : String) : Except ToolError (Option MCPOverlay) :=
  if trimSpace overlayPath = "" then .ok none
  else
    match env.readOverlay t overlayPath with
    | .error err => .error (.text err)
    | .ok parsed =>
      let diags := validateMCPOverlay env parsed
      if hasValidationErrors diags then .error (.validation diags) else .ok (some parsed)

def buildMCPRegistration (t : Nat) (name : String) (transport : MCPTransport) (config : Dict String String)
    (overlayPath : String) : Except ToolError ToolRegistration := do
  let overlay ← parseOverlay env t overlayPath
  let manifest ← discoverMCPManifest env t name transport config overlay
  let reg : ToolRegistration :=
    { name, origin := .mcp, manifest, config, status := .ready, enabled := true
      overlay := if trimSpace overlayPath = "" then none else some { path := overlayPath } }
  let health := env.evaluateMCPHealth t reg
  return { applyHealthOutcome reg health with lastHealthCheck := some health.checkedAt }

def refreshMCPRegistration (t : Nat) (existing : ToolRegistration) : Except ToolError ToolRegistration :=
  match existing.manifest.transport.asMCP with
  | none => .error (.text s!"tool {quote existing.name} is not an mcp registration")
  | some transport => do
    let overlayPath := (existing.overlay.map (·.path)).getD ""
    let updated ← buildMCPRegistration env t existing.name transport existing.config overlayPath
    return { updated with registeredAt := existing.registeredAt, enabled := existing.enabled }

def newDaemonToolService : DaemonToolService where
  env := env.toToolEnv
  mcpBuilder := buildMCPRegistration env
  mcpRefresher := refreshMCPRegistration env
  mcpHealthEvaluator := env.evaluateMCPHealth
  now := env.now

variable {env : MCPEnv} {t : Nat} {reg : ToolRegistration} {name overlayPath : String}
  {transport : MCPTransport}
  {config : Dict String String}

theorem applyHealthOverrides_config (merged : ToolManifest) (overlay : MCPOverlay) :
    (applyHealthOverrides merged overlay).config = merged.config := by
  unfold applyHealthOverrides
  split
  · rfl
  · rfl

theorem mergeMCPOverlay_config {base merged : ToolManifest} {overlay : MCPOverlay} {diags : List Diagnostic}
    (hmerge : mergeMCPOverlay env base overlay = .ok (merged, diags)) (key : String) :
    merged.config.get? key = ((overlay.config.get? key).map (·.spec)).or (base.config.get? key) := by
  unfold mergeMCPOverlay at hmerge
  obtain ⟨-, hmerge⟩ := ite_error_eq_ok.mp hmerge
  obtain ⟨-, hmerge⟩ := ite_error_eq_ok.mp hmerge
  cases hmerge
  rw [applyHealthOverrides_config]
  exact (Dict.get?_overlay _ _ key).trans (by rw [Dict.get?_mapEntries]; rfl)

theorem discoverMCPManifest_sensitive {overlay : Option MCPOverlay} {manifest : ToolManifest}
    (hdiscover : discoverMCPManifest env t name transport config overlay = .ok manifest) (key : String) :
    manifest.sensitive key = (overlay.bind (·.config.get? key)).any (·.spec.sensitive) := by
  unfold discoverMCPManifest at hdiscover
  obtain ⟨-, hdiscover⟩ := ite_error_eq_ok.mp hdiscover
  obtain ⟨tools, -, hdiscover⟩ := bind_eq_ok.mp hdiscover
  cases overlay with
  | none =>
    cases hdiscover
    rfl
  | some overlay =>
    obtain ⟨⟨merged, diags⟩, hmerge, hdiscover⟩ := bind_eq_ok.mp hdiscover
    cases hdiscover
    unfold ToolManifest.sensitive
    rw [mergeMCPOverlay_config hmerge]
    rw [show (discoveredManifest env name transport tools).config.get? key = none from rfl, Option.or_none,
      Option.any_map]
    rfl

/-- What a registration from a server has: its name, a status, and the sensitive fields
of the overlay. -/
structure ToolRegistration.Built (env : MCPEnv) (t : Nat) (name overlayPath : String)
    (reg : ToolRegistration) : Prop where
  name : reg.name = name
  status : reg.status ≠ .disabled
  sensitive : ∃ overlay, parseOverlay env t overlayPath = .ok overlay ∧
    ∀ key, reg.manifest.sensitive key = (overlay.bind (·.config.get? key)).any (·.spec.sensitive)

theorem buildMCPRegistration_built (hbuild : buildMCPRegistration env t name transport config overlayPath = .ok reg) :
    reg.Built env t name overlayPath := by
  obtain ⟨overlay, hoverlay, hbuild⟩ := bind_eq_ok.mp hbuild
  obtain ⟨manifest, hmanifest, hbuild⟩ := bind_eq_ok.mp hbuild
  cases hbuild
  obtain ⟨hsame, -, hstatus⟩ := applyHealthOutcome_spec
    { name, origin := .mcp, manifest, config, status := .ready, enabled := true,
      overlay := if trimSpace overlayPath = "" then none else some { path := overlayPath } } _
  refine ⟨hsame.name, hstatus, overlay, hoverlay, fun key => ?_⟩
  exact (congrArg (·.sensitive key) hsame.manifest).trans (discoverMCPManifest_sensitive hmanifest key)

theorem refreshMCPRegistration_built {existing : ToolRegistration}
    (hrefresh : refreshMCPRegistration env t existing = .ok reg) :
    reg.Built env t existing.name ((existing.overlay.map (·.path)).getD "") := by
  unfold refreshMCPRegistration at hrefresh
  split at hrefresh
  · cases hrefresh
  · obtain ⟨updated, hbuild, hrefresh⟩ := bind_eq_ok.mp hrefresh
    cases hrefresh
    obtain ⟨hname, hstatus, hsensitive⟩ := buildMCPRegistration_built hbuild
    exact ⟨hname, hstatus, hsensitive⟩

variable {next : ToolRegistration}

theorem refreshed_built (hnext : (newDaemonToolService env).refreshed t reg = .ok next) :
    ∃ updated, ToolRegistration.Built env t reg.name ((reg.overlay.map (·.path)).getD "") updated ∧
      next.SameTool updated ∧ next.enabled = reg.enabled := by
  obtain ⟨updated, hupdated, hsame, henabled, -⟩ := refreshed_spec hnext
  exact ⟨updated, refreshMCPRegistration_built hupdated, hsame, henabled⟩

theorem registered_name {input : RegisterToolInput}
    (hreg : (newDaemonToolService env).registrationFromRegisterInput t input = .ok reg) :
    reg.name = trimSpace input.name := by
  obtain ⟨base, hbase, rfl⟩ := registrationFromRegisterInput_spec hreg
  cases hbase with
  | given hname hstatus =>
    have hready : base.status ≠ .disabled := by
      rw [hstatus]
      exact Status.noConfusion
    exact (finalizeRegistrationEnabledState_spec input.enabled hready).1.name.trans hname
  | built hbuild =>
    have hbuilt := buildMCPRegistration_built hbuild
    exact (finalizeRegistrationEnabledState_spec input.enabled hbuilt.status).1.name.trans hbuilt.name

theorem updated_name {current : ToolRegistration} {input : UpdateToolInput}
    (hnext : (newDaemonToolService env).registrationFromUpdateInput t current input = .ok next) :
    next.name = current.name := by
  cases registrationFromUpdateInput_spec hnext with
  | rebuilt hrebuild hbuild hsame hstatus => exact hsame.name.trans (buildMCPRegistration_built hbuild).name
  | changed hname hconfig hstatus => exact hname

theorem refreshed_name (hnext : (newDaemonToolService env).refreshed t reg = .ok next) : next.name = reg.name := by
  obtain ⟨updated, hbuilt, hsame, -⟩ := refreshed_built hnext
  exact hsame.name.trans hbuilt.name

end petalflow.tool
