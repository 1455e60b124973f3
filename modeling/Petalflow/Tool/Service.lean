import Petalflow.Tool.Store

open dict (Dict)
open program (Program)
open text (trimSpace)

open fold

namespace petalflow.tool

inductive HealthState where
  | unknown | healthy | unhealthy
  | other (text : String)
deriving DecidableEq, Repr

structure HealthReport where
  toolName : String
  state : HealthState
  checkedAt : Int
  latencyMS : Int := 0
  failureCount : Int := 0
  errorMessage : String := ""

/-- The dependencies of the service. Discovery and probes may answer differently on
each occasion. -/
structure DaemonToolService where
  env : ToolEnv
  mcpBuilder : Nat → String → MCPTransport → Dict String String → String → Except ToolError ToolRegistration
  mcpRefresher : Nat → ToolRegistration → Except ToolError ToolRegistration
  mcpHealthEvaluator : Nat → ToolRegistration → HealthReport
  now : Nat → Int

structure RegisterToolInput where
  name : String
  origin : ToolOrigin := .unset
  manifest : Option ToolManifest := none
  config : Dict String String := .empty
  mcpTransport : Option MCPTransport := none
  overlayPath : String := ""
  enabled : Option Bool := none

structure UpdateToolInput where
  origin : Option ToolOrigin := none
  manifest : Option ToolManifest := none
  config : Option (Dict String String) := none
  mcpTransport : Option MCPTransport := none
  overlayPath : Option String := none
  enabled : Option Bool := none

structure ConfigUpdateInput where
  set : List (String × String) := []
  setSecret : List (String × String) := []

def templateRenderManifest : ToolManifest :=
  { newManifest "template_render" with
    metadata :=
      { name := "template_render", version := "built-in"
        description := "Render a Go template string with provided variables." }
    transport := { type := .native }
    actions := Dict.empty.insert "render"
      { description := "Render template content into a final string."
        inputs := (Dict.empty.insert "template" { type := "string", required := true }).insert "values"
          { type := "object", description := "Optional object of template values." }
        outputs := Dict.empty.insert "rendered" { type := "string" }
        idempotent := true } }

def httpFetchManifest : ToolManifest :=
  { newManifest "http_fetch" with
    metadata :=
      { name := "http_fetch", version := "built-in"
        description := "Fetch a URL over HTTP(S) and return status/body." }
    transport := { type := .native }
    actions := Dict.empty.insert "fetch"
      { description := "Execute an HTTP request and return response data."
        inputs := ((Dict.empty.insert "url" { type := "string", required := true }).insert "method"
          { type := "string" }).insert "body" { type := "string" }
        outputs := ((Dict.empty.insert "status_code" { type := "integer" }).insert "body"
          { type := "string" }).insert "headers" { type := "object" } }
    config := Dict.empty.insert "authorization"
      { type := "string", sensitive := true, description := "Optional Authorization header value." } }

def builtinRegistration (name : String) : Option ToolRegistration :=
  let manifest :=
    if name = "http_fetch" then some httpFetchManifest
    else if name = "template_render" then some templateRenderManifest
    else none
  manifest.map fun manifest => { name, origin := .native, manifest, status := .ready, enabled := true }

def unhealthyThresholdForRegistration (reg : ToolRegistration) : Int :=
  match reg.manifest.health with
  | none => 1
  | some health => if health.unhealthyThreshold ≤ 0 then 1 else health.unhealthyThreshold

def applyHealthOutcome (reg : ToolRegistration) (report : HealthReport) : ToolRegistration :=
  match report.state with
  | .healthy => { reg with healthFailures := 0, status := .ready }
  | .unhealthy =>
    { reg with
      healthFailures := reg.healthFailures + 1
      status :=
        if reg.healthFailures + 1 ≥ unhealthyThresholdForRegistration reg then .unhealthy else .unverified }
  | _ => { reg with status := .unverified }

def inferToolOrigin : TransportType → ToolOrigin
  | .native => .native
  | .http => .http
  | .stdio => .stdio
  | .mcp => .mcp
  | .other _ => .unset

def errToolNotFound : String := "tool: registration not found"

def errToolNotMCP : String := "tool: registration is not mcp"

def fillStatus (reg : ToolRegistration) : ToolRegistration :=
  if reg.status = .unset then { reg with status := if reg.enabled then .ready else .disabled } else reg

def finalizeRegistrationEnabledState (reg : ToolRegistration) (enabledOverride : Option Bool) : ToolRegistration :=
  let reg := { reg with enabled := enabledOverride.getD reg.enabled }
  fillStatus (if reg.enabled then reg else { reg with status := .disabled })

def overlayOf (path : String) : Option ToolOverlay :=
  if path = "" then none else some { path }

def resolveRegisterOrigin (input : RegisterToolInput) : ToolOrigin :=
  match input.manifest with
  | some manifest => if input.origin = .unset then inferToolOrigin manifest.transport.type else input.origin
  | none => input.origin

def buildManifestRegistration (name : String) (origin : ToolOrigin) (manifest : ToolManifest)
    (input : RegisterToolInput) : Except ToolError ToolRegistration :=
  let manifest :=
    if trimSpace manifest.metadata.name = "" then { manifest with metadata := { manifest.metadata with name } }
    else manifest
  if manifest.metadata.name ≠ name then
    .error (.text s!"tool: manifest tool.name {quote manifest.metadata.name} does not match {quote name}")
  else
    let origin := if origin = .unset then inferToolOrigin manifest.transport.type else origin
    if origin = .unset then .error (.text s!"tool: unable to infer registration origin for {quote name}")
    else
      .ok { name, origin, manifest, config := input.config, status := .ready, enabled := true,
            overlay := if origin = .mcp then overlayOf (trimSpace input.overlayPath) else none }

section

variable (current : ToolRegistration) (input : UpdateToolInput)

def resolveUpdateOrigin : ToolOrigin :=
  let origin := input.origin.getD current.origin
  if origin = .unset then inferToolOrigin current.manifest.transport.type else origin

def shouldRebuildMCPRegistration (origin : ToolOrigin) (input : UpdateToolInput) : Bool :=
  origin = .mcp ∧ input.manifest.isNone

def resolveMCPUpdateTransport : Except ToolError MCPTransport :=
  match input.mcpTransport with
  | some transport => .ok transport
  | none =>
    match current.manifest.transport.asMCP with
    | some transport => .ok transport
    | none => .error (.text s!"{errToolNotMCP}: {current.name}")

def resolveUpdatedOverlayPath (currentOverlay : Option ToolOverlay) (overlayPath : Option String) : String :=
  match overlayPath with
  | some path => trimSpace path
  | none => (currentOverlay.map (·.path)).getD ""

def applyNonRebuildUpdate (origin : ToolOrigin) : Except ToolError ToolRegistration :=
  let manifest := input.manifest.getD current.manifest
  let manifest :=
    if trimSpace manifest.metadata.name = "" then
      { manifest with metadata := { manifest.metadata with name := current.name } }
    else manifest
  if manifest.metadata.name ≠ current.name then
    .error (.text s!"tool: manifest tool.name {quote manifest.metadata.name} does not match {quote current.name}")
  else
    .ok { current with
      origin
      manifest
      config := input.config.getD current.config
      overlay :=
        match input.overlayPath with
        | some path => overlayOf (trimSpace path)
        | none => current.overlay
      enabled := input.enabled.getD current.enabled }

end

def setPlain (reg : ToolRegistration) (entry : String × String) : Except ToolError ToolRegistration :=
  let clean := trimSpace entry.1
  if clean = "" then .error (.text "tool: config key is required")
  else if reg.manifest.sensitive clean then
    .error (.text s!"tool: config {quote clean} is sensitive; use secret update")
  else .ok { reg with config := reg.config.insert clean entry.2 }

def setSecret (reg : ToolRegistration) (entry : String × String) : Except ToolError ToolRegistration :=
  let clean := trimSpace entry.1
  if clean = "" then .error (.text "tool: config key is required")
  else if trimSpace entry.2 = "" then .error (.text s!"tool: secret value for {quote clean} is empty")
  else
    let spec := (reg.manifest.config.get? clean).getD {}
    let spec := { spec with type := if spec.type = "" then "string" else spec.type, sensitive := true }
    .ok { reg with
      manifest := { reg.manifest with config := reg.manifest.config.insert clean spec }
      config := reg.config.insert clean entry.2 }

namespace DaemonToolService

variable (svc : DaemonToolService)

def mustGetStored (name : String) : Method ToolRegistration := do
  match ← storeGet name with
  | .error err => .fail (.text err)
  | .ok none => .fail (.text s!"{errToolNotFound}: {name}")
  | .ok (some reg) => return reg

def getMutableRegistration (name : String) : Method ToolRegistration :=
  if trimSpace name = "" then .fail (.text s!"{errToolNotFound}: {quote name}") else mustGetStored (trimSpace name)

def store (reg : ToolRegistration) : Method ToolRegistration := do
  match ← storeUpsert reg with
  | some err => .fail (.text err)
  | none => mustGetStored reg.name

def probed (t : Nat) (reg : ToolRegistration) : ToolRegistration :=
  applyHealthOutcome { reg with lastHealthCheck := some (svc.mcpHealthEvaluator t reg).checkedAt }
    (svc.mcpHealthEvaluator t reg)

def restoreStatusForEnabled (t : Nat) (reg : ToolRegistration) : ToolRegistration :=
  if reg.origin ≠ .mcp then { reg with status := .ready } else svc.probed t reg

def buildManifestlessRegistration (t : Nat) (name : String) (origin : ToolOrigin) (input : RegisterToolInput) :
    Except ToolError ToolRegistration :=
  match origin with
  | .native =>
    match builtinRegistration name with
    | some builtin => .ok builtin
    | none => .error (.text s!"tool: native registration {quote name} requires a manifest")
  | .mcp =>
    match input.mcpTransport with
    | none => .error (.text s!"tool: mcp registration {quote name} requires transport")
    | some transport => svc.mcpBuilder t name transport input.config (trimSpace input.overlayPath)
  | _ => .error (.text s!"tool: registration {quote name} requires a manifest")

def registrationFromRegisterInput (t : Nat) (input : RegisterToolInput) : Except ToolError ToolRegistration :=
  let name := trimSpace input.name
  if name = "" then .error (.text "tool: registration name is required")
  else
    let origin := resolveRegisterOrigin input
    let built :=
      match input.manifest with
      | none => svc.buildManifestlessRegistration t name origin input
      | some manifest => buildManifestRegistration name origin manifest input
    built.map fun reg => finalizeRegistrationEnabledState reg input.enabled

def register (t : Nat) (input : RegisterToolInput) : Method ToolRegistration := do
  let reg ← Program.ofExcept (svc.registrationFromRegisterInput t input)
  validateNewRegistration svc.env t false reg
  store reg

def rebuildMCPRegistrationFromUpdate (t : Nat) (current : ToolRegistration) (input : UpdateToolInput) :
    Except ToolError ToolRegistration := do
  let transport ← resolveMCPUpdateTransport current input
  let overlayPath := resolveUpdatedOverlayPath current.overlay input.overlayPath
  let updated ← svc.mcpBuilder t current.name transport (input.config.getD current.config) overlayPath
  let enabled := input.enabled.getD current.enabled
  return { updated with
    registeredAt := current.registeredAt
    enabled
    status := if enabled then updated.status else .disabled }

def finalizeUpdatedRegistration (t : Nat) (current next : ToolRegistration) : ToolRegistration :=
  fillStatus
    (if !next.enabled then { next with status := .disabled }
    else if current.status = .disabled then svc.restoreStatusForEnabled t next
    else next)

def registrationFromUpdateInput (t : Nat) (current : ToolRegistration) (input : UpdateToolInput) :
    Except ToolError ToolRegistration :=
  let origin := resolveUpdateOrigin current input
  if shouldRebuildMCPRegistration origin input then svc.rebuildMCPRegistrationFromUpdate t current input
  else (applyNonRebuildUpdate current input origin).map (svc.finalizeUpdatedRegistration t current)

def update (t : Nat) (name : String) (input : UpdateToolInput) : Method ToolRegistration := do
  let current ← getMutableRegistration name
  let next ← Program.ofExcept (svc.registrationFromUpdateInput t current input)
  validateNewRegistration svc.env t true next
  store next

def delete (name : String) : Method Unit := do
  let regName := trimSpace name
  if regName = "" then .fail (.text s!"{errToolNotFound}: {quote name}")
  else
    match ← storeGet regName with
    | .error err => .fail (.text err)
    | .ok none => .fail (.text s!"{errToolNotFound}: {regName}")
    | .ok (some _) =>
      match ← storeDelete regName with
      | some err => .fail (.text err)
      | none => return ()

def configUpdated (reg : ToolRegistration) (input : ConfigUpdateInput) : Except ToolError ToolRegistration := do
  let reg ← input.set.foldlM setPlain reg
  let reg ← input.setSecret.foldlM setSecret reg
  validateConfigOnlyRegistration reg
  return reg

def updateConfig (name : String) (input : ConfigUpdateInput) : Method ToolRegistration := do
  let reg ← getMutableRegistration name
  let reg ← Program.ofExcept (configUpdated reg input)
  store reg

def healthChecked (t : Nat) (reg : ToolRegistration) : ToolRegistration × HealthReport :=
  if !reg.enabled then
    ({ reg with status := .disabled },
      { toolName := reg.name, state := .unknown, checkedAt := svc.now t, failureCount := reg.healthFailures })
  else if reg.origin ≠ .mcp then
    ({ reg with status := .ready, healthFailures := 0 },
      { toolName := reg.name, state := .healthy, checkedAt := svc.now t, failureCount := 0 })
  else
    (svc.probed t reg, { svc.mcpHealthEvaluator t reg with failureCount := (svc.probed t reg).healthFailures })

def health (t : Nat) (name : String) : Method (ToolRegistration × HealthReport) := do
  let regName := trimSpace name
  if regName = "" then .fail (.text s!"{errToolNotFound}: {quote name}")
  else
    match ← storeGet regName with
    | .error err => .fail (.text err)
    | .ok none =>
      match builtinRegistration regName with
      | none => .fail (.text s!"{errToolNotFound}: {regName}")
      | some builtin => return (builtin, { toolName := builtin.name, state := .healthy, checkedAt := svc.now t })
    | .ok (some reg) =>
      let (checked, report) := svc.healthChecked t reg
      match ← storeUpsert checked with
      | some err => .fail (.text err)
      | none =>
        let updated ← mustGetStored regName
        return (updated, report)

def refreshed (t : Nat) (reg : ToolRegistration) : Except ToolError ToolRegistration :=
  (svc.mcpRefresher t reg).map fun updated =>
    { updated with enabled := reg.enabled, status := if reg.enabled then updated.status else .disabled }

/-- The common end of `Refresh` and `UpdateOverlay`. -/
def refreshAndStore (t : Nat) (reg : ToolRegistration) : Method ToolRegistration := do
  let updated ← Program.ofExcept (svc.refreshed t reg)
  validateNewRegistration svc.env t true updated
  store updated

def refresh (t : Nat) (name : String) : Method ToolRegistration := do
  let reg ← getMutableRegistration name
  if reg.origin ≠ .mcp then .fail (.text s!"{errToolNotMCP}: {reg.name}")
  else svc.refreshAndStore t reg

def updateOverlay (t : Nat) (name overlayPath : String) : Method ToolRegistration := do
  let reg ← getMutableRegistration name
  if reg.origin ≠ .mcp then .fail (.text s!"{errToolNotMCP}: {reg.name}")
  else svc.refreshAndStore t { reg with overlay := overlayOf (trimSpace overlayPath) }

def switched (t : Nat) (reg : ToolRegistration) (enabled : Bool) : ToolRegistration :=
  if enabled then svc.restoreStatusForEnabled t { reg with enabled := true }
  else { reg with enabled := false, status := .disabled }

def setEnabled (t : Nat) (name : String) (enabled : Bool) : Method ToolRegistration := do
  let reg ← getMutableRegistration name
  store (svc.switched t reg enabled)

end DaemonToolService

inductive Call where
  | register (input : RegisterToolInput)
  | update (name : String) (input : UpdateToolInput)
  | updateConfig (name : String) (input : ConfigUpdateInput)
  | health (name : String)
  | refresh (name : String)
  | updateOverlay (name overlayPath : String)
  | setEnabled (name : String) (enabled : Bool)
  | delete (name : String)

/-- A call on its occasion. The result is the registration that the call returns. -/
def DaemonToolService.perform (svc : DaemonToolService) (t : Nat) : Call → Method (Option ToolRegistration)
  | .register input => some <$> svc.register t input
  | .update name input => some <$> svc.update t name input
  | .updateConfig name input => some <$> DaemonToolService.updateConfig name input
  | .health name => (some ·.1) <$> svc.health t name
  | .refresh name => some <$> svc.refresh t name
  | .updateOverlay name overlayPath => some <$> svc.updateOverlay t name overlayPath
  | .setEnabled name enabled => some <$> svc.setEnabled t name enabled
  | .delete name => (fun _ => none) <$> DaemonToolService.delete name

structure ToolRegistration.SameTool (reg reg' : ToolRegistration) : Prop where
  name : reg.name = reg'.name
  manifest : reg.manifest = reg'.manifest
  config : reg.config = reg'.config

variable {svc : DaemonToolService} {t : Nat} {reg next : ToolRegistration} {report : HealthReport}
  {reg' reg'' reg : ToolRegistration}

theorem ToolRegistration.SameTool.trans (hleft : reg.SameTool reg')
    (hright : reg'.SameTool reg'') : reg.SameTool reg'' :=
  ⟨hleft.name.trans hright.name, hleft.manifest.trans hright.manifest, hleft.config.trans hright.config⟩

theorem ToolRegistration.SameTool.valid (hsame : reg.SameTool reg') (hvalid : reg'.Valid) : reg.Valid :=
  hvalid.congr hsame.manifest hsame.config

theorem applyHealthOutcome_spec (reg : ToolRegistration) (report : HealthReport) :
    (applyHealthOutcome reg report).SameTool reg ∧
    (applyHealthOutcome reg report).enabled = reg.enabled ∧ (applyHealthOutcome reg report).status ≠ .disabled := by
  unfold applyHealthOutcome
  split
  · exact ⟨⟨rfl, rfl, rfl⟩, rfl, Status.noConfusion⟩
  · refine ⟨⟨rfl, rfl, rfl⟩, rfl, ?_⟩
    grind
  · exact ⟨⟨rfl, rfl, rfl⟩, rfl, Status.noConfusion⟩

/-- The unhealthy reports since the last healthy one, added to the given count if none was healthy. -/
def failuresSince (count : Int) (states : List HealthState) : Int :=
  (states.reverse.takeWhile (· ≠ .healthy)).count .unhealthy + if .healthy ∈ states then 0 else count

theorem applyHealthOutcome_failures {count : Int} {states : List HealthState}
    (hcount : reg.healthFailures = failuresSince count states) (report : HealthReport) :
    (applyHealthOutcome reg report).healthFailures = failuresSince count (states ++ [report.state]) := by
  unfold applyHealthOutcome failuresSince at *
  cases report.state <;> simp [hcount, Int.add_right_comm]

theorem applyHealthOutcome_status (reg : ToolRegistration) (report : HealthReport) :
    ((applyHealthOutcome reg report).status = .ready ↔ report.state = .healthy) ∧
    ((applyHealthOutcome reg report).status = .unhealthy ↔ report.state = .unhealthy ∧
      unhealthyThresholdForRegistration reg ≤ (applyHealthOutcome reg report).healthFailures) := by
  unfold applyHealthOutcome
  cases report.state <;> grind

theorem foldl_applyHealthOutcome (reg : ToolRegistration) (reports : List HealthReport) :
    (reports.foldl applyHealthOutcome reg).healthFailures = failuresSince reg.healthFailures (reports.map (·.state)) ∧
    (reports.foldl applyHealthOutcome reg).SameTool reg := by
  induction reports using List.reverseRecOn with
  | nil => exact ⟨by simp [failuresSince], rfl, rfl, rfl⟩
  | append_singleton reports report ih =>
    rw [List.foldl_concat, List.map_append]
    exact ⟨applyHealthOutcome_failures ih.1 report, (applyHealthOutcome_spec _ report).1.trans ih.2⟩

/-- After each report of a history, the count and the status are those of the history and of
the threshold in the manifest. -/
theorem health_follows_threshold (reg : ToolRegistration) (health : HealthConfig)
    (hhealth : reg.manifest.health = some health) (hthreshold : 1 ≤ health.unhealthyThreshold)
    (reports : List HealthReport) (report : HealthReport) :
    let probed := (reports ++ [report]).foldl applyHealthOutcome reg
    probed.healthFailures = failuresSince reg.healthFailures ((reports ++ [report]).map (·.state)) ∧
    (probed.status = .ready ↔ report.state = .healthy) ∧
    (probed.status = .unhealthy ↔
      report.state = .unhealthy ∧ health.unhealthyThreshold ≤ probed.healthFailures) := by
  have hstatus := applyHealthOutcome_status (reports.foldl applyHealthOutcome reg) report
  rw [unhealthyThresholdForRegistration, (foldl_applyHealthOutcome reg reports).2.manifest] at hstatus
  simp only [hhealth, if_neg (show ¬ health.unhealthyThreshold ≤ 0 by omega)] at hstatus
  exact ⟨(foldl_applyHealthOutcome reg _).1, List.foldl_concat .. ▸ hstatus⟩

theorem health_follows_threshold_two :
    let reg : ToolRegistration :=
      { name := "crm", manifest := { newManifest "crm" with health := some { unhealthyThreshold := 2 } } }
    let report : HealthReport := { toolName := "crm", state := .unhealthy, checkedAt := 0 }
    ([report, report].foldl applyHealthOutcome reg).status = .unhealthy ∧
      ([report].foldl applyHealthOutcome reg).status ≠ .unhealthy :=
  ⟨(health_follows_threshold _ { unhealthyThreshold := 2 } rfl (by decide) [_] _).2.2.mpr ⟨rfl, by decide⟩,
    fun h => absurd ((health_follows_threshold _ { unhealthyThreshold := 2 } rfl (by decide) [] _).2.2.mp h).2
      (by decide)⟩

theorem probed_spec (svc : DaemonToolService) (t : Nat) (reg : ToolRegistration) :
    (svc.probed t reg).SameTool reg ∧ (svc.probed t reg).enabled = reg.enabled ∧
    (svc.probed t reg).status ≠ .disabled := by
  obtain ⟨hsame, hrest⟩ : (svc.probed t reg).SameTool _ ∧ _ := applyHealthOutcome_spec _ _
  exact ⟨{ hsame with }, hrest⟩

theorem restoreStatusForEnabled_spec (svc : DaemonToolService) (t : Nat) (reg : ToolRegistration) :
    (svc.restoreStatusForEnabled t reg).SameTool reg ∧ (svc.restoreStatusForEnabled t reg).enabled = reg.enabled ∧
    (svc.restoreStatusForEnabled t reg).status ≠ .disabled := by
  unfold DaemonToolService.restoreStatusForEnabled
  split
  · exact ⟨⟨rfl, rfl, rfl⟩, rfl, Status.noConfusion⟩
  · exact probed_spec svc t reg

theorem healthChecked_spec (svc : DaemonToolService) (t : Nat) (reg : ToolRegistration) :
    (svc.healthChecked t reg).1.SameTool reg ∧ (svc.healthChecked t reg).1.enabled = reg.enabled ∧
    ((svc.healthChecked t reg).1.status = .disabled ↔ reg.enabled = false) := by
  unfold DaemonToolService.healthChecked
  split
  · next hoff =>
    rw [Bool.not_eq_true'] at hoff
    exact ⟨⟨rfl, rfl, rfl⟩, rfl, iff_of_true rfl hoff⟩
  · next hon =>
    rw [Bool.not_eq_true', Bool.not_eq_false] at hon
    have henabled : reg.enabled ≠ false := by
      rw [hon]
      exact Bool.noConfusion
    split
    · exact ⟨⟨rfl, rfl, rfl⟩, rfl, iff_of_false Status.noConfusion henabled⟩
    simp_all [probed_spec]

theorem switched_spec (svc : DaemonToolService) (t : Nat) (reg : ToolRegistration) (enabled : Bool) :
    (svc.switched t reg enabled).SameTool reg ∧ (svc.switched t reg enabled).enabled = enabled ∧
    ((svc.switched t reg enabled).status = .disabled ↔ enabled = false) := by
  unfold DaemonToolService.switched
  cases enabled with
  | false => exact ⟨⟨rfl, rfl, rfl⟩, rfl, iff_of_true rfl rfl⟩
  | true =>
    rw [if_pos rfl]
    obtain ⟨hsame, henabled, hstatus⟩ := restoreStatusForEnabled_spec svc t { reg with enabled := true }
    exact ⟨{ hsame with }, henabled, iff_of_false hstatus Bool.noConfusion⟩

theorem refreshed_spec (hnext : svc.refreshed t reg = .ok next) : ∃ updated, svc.mcpRefresher t reg = .ok updated ∧
    next.SameTool updated ∧ next.enabled = reg.enabled ∧
    next.status = if reg.enabled then updated.status else .disabled := by
  obtain ⟨updated, hupdated, rfl⟩ := map_eq_ok.mp hnext
  exact ⟨updated, hupdated, ⟨rfl, rfl, rfl⟩, rfl, rfl⟩

structure ToolRegistration.SameState (reg reg' : ToolRegistration) : Prop where
  name : reg.name = reg'.name
  status : reg.status = reg'.status
  enabled : reg.enabled = reg'.enabled

theorem ToolRegistration.SameState.trans (hleft : reg.SameState reg')
    (hright : reg'.SameState reg'') : reg.SameState reg'' :=
  ⟨hleft.name.trans hright.name, hleft.status.trans hright.status, hleft.enabled.trans hright.enabled⟩

variable {entry : String × String}

theorem setPlain_spec (hset : setPlain reg entry = .ok next) :
    next.SameState reg ∧ next.manifest = reg.manifest ∧ reg.manifest.sensitive (trimSpace entry.1) = false := by
  unfold setPlain at hset
  dsimp only at hset
  split at hset
  · cases hset
  · split at hset
    · cases hset
    · next hplain =>
      cases hset
      exact ⟨⟨rfl, rfl, rfl⟩, rfl, Bool.not_eq_true _ ▸ hplain⟩

theorem sensitive_insert (manifest : ToolManifest) (key : String) (spec : FieldSpec) (k : String) :
    ToolManifest.sensitive { manifest with config := manifest.config.insert key spec } k =
      if k = key then spec.sensitive else manifest.sensitive k := by
  unfold ToolManifest.sensitive
  by_cases hk : k = key
  · rw [if_pos hk, hk, Dict.get?_insert_self, Option.any_some]
  · rw [if_neg hk, Dict.get?_insert_of_ne hk]

theorem setSecret_spec (hset : setSecret reg entry = .ok next) :
    next.SameState reg ∧ ∀ key, next.manifest.sensitive key =
      (decide (key = trimSpace entry.1) || reg.manifest.sensitive key) := by
  unfold setSecret at hset
  dsimp only at hset
  split at hset
  · cases hset
  · split at hset
    · cases hset
    · cases hset
      refine ⟨⟨rfl, rfl, rfl⟩, fun key => ?_⟩
      grind [sensitive_insert]

variable {entries : List (String × String)}

theorem foldlM_setPlain (hfold : entries.foldlM setPlain reg = .ok next) :
    next.SameState reg ∧ next.manifest = reg.manifest ∧
      ∀ entry ∈ entries, reg.manifest.sensitive (trimSpace entry.1) = false := by
  induction entries generalizing reg with
  | nil =>
    cases hfold
    exact ⟨⟨rfl, rfl, rfl⟩, rfl, fun _ hentry => absurd hentry List.not_mem_nil⟩
  | cons entry rest ih =>
    obtain ⟨mid, hset, hrest⟩ := bind_eq_ok.mp hfold
    obtain ⟨hstate, hmanifest, hplain⟩ := setPlain_spec hset
    obtain ⟨hstate', hmanifest', hplains⟩ := ih hrest
    rw [hmanifest] at hmanifest' hplains
    refine ⟨hstate'.trans hstate, hmanifest', ?_⟩
    rw [List.forall_mem_cons]
    exact ⟨hplain, hplains⟩

theorem foldlM_setSecret (hfold : entries.foldlM setSecret reg = .ok next) :
    next.SameState reg ∧ ∀ key, next.manifest.sensitive key = true ↔
      (∃ entry ∈ entries, trimSpace entry.1 = key) ∨ reg.manifest.sensitive key = true := by
  induction entries generalizing reg with
  | nil =>
    cases hfold
    exact ⟨⟨rfl, rfl, rfl⟩, by simp⟩
  | cons entry rest ih =>
    obtain ⟨mid, hset, hrest⟩ := bind_eq_ok.mp hfold
    obtain ⟨hstate, hmarks⟩ := setSecret_spec hset
    obtain ⟨hstate', hmarks'⟩ := ih hrest
    refine ⟨hstate'.trans hstate, fun key => ?_⟩
    grind

theorem configUpdated_spec {input : ConfigUpdateInput}
    (hupdated : DaemonToolService.configUpdated reg input = .ok next) :
    next.SameState reg ∧ next.Valid ∧ (∀ entry ∈ input.set, reg.manifest.sensitive (trimSpace entry.1) = false) ∧
      ∀ key, next.manifest.sensitive key = true ↔
        (∃ entry ∈ input.setSecret, trimSpace entry.1 = key) ∨ reg.manifest.sensitive key = true := by
  obtain ⟨mid, hplain, hupdated⟩ := bind_eq_ok.mp hupdated
  obtain ⟨last, hsecret, hupdated⟩ := bind_eq_ok.mp hupdated
  obtain ⟨_, hvalid, hupdated⟩ := bind_eq_ok.mp hupdated
  cases hupdated
  obtain ⟨hstate, hmanifest, hset⟩ := foldlM_setPlain hplain
  obtain ⟨hstate', hmarks⟩ := foldlM_setSecret hsecret
  rw [hmanifest] at hmarks
  exact ⟨hstate'.trans hstate, hvalid, hset, hmarks⟩

def ToolRegistration.StatusAgrees (reg : ToolRegistration) : Prop :=
  reg.status = .disabled ↔ reg.enabled = false

theorem fillStatus_spec (reg : ToolRegistration) :
    (fillStatus reg).SameTool reg ∧ (fillStatus reg).enabled = reg.enabled ∧
    (reg.StatusAgrees → (fillStatus reg).StatusAgrees) := by
  unfold fillStatus
  split
  · refine ⟨⟨rfl, rfl, rfl⟩, rfl, fun _ => ?_⟩
    simp [ToolRegistration.StatusAgrees]
  · exact ⟨⟨rfl, rfl, rfl⟩, rfl, id⟩

theorem finalizeRegistrationEnabledState_spec (enabledOverride : Option Bool) (hstatus : reg.status ≠ .disabled) :
    (finalizeRegistrationEnabledState reg enabledOverride).SameTool reg ∧
      (finalizeRegistrationEnabledState reg enabledOverride).StatusAgrees := by
  unfold finalizeRegistrationEnabledState
  dsimp only
  split
  · next hon =>
    obtain ⟨hsame, -, hagrees⟩ := fillStatus_spec { reg with enabled := enabledOverride.getD reg.enabled }
    refine ⟨{ hsame with }, hagrees (iff_of_false hstatus ?_)⟩
    rw [hon]
    exact Bool.noConfusion
  · next hoff =>
    rw [Bool.not_eq_true] at hoff
    obtain ⟨hsame, -, hagrees⟩ := fillStatus_spec
      { reg with enabled := enabledOverride.getD reg.enabled, status := .disabled }
    exact ⟨{ hsame with }, hagrees (iff_of_true rfl hoff)⟩

theorem finalizeUpdatedRegistration_spec (svc : DaemonToolService) (t : Nat) (current next : ToolRegistration) :
    (svc.finalizeUpdatedRegistration t current next).SameTool next ∧
      (svc.finalizeUpdatedRegistration t current next).enabled = next.enabled ∧
      (next.status = current.status → (svc.finalizeUpdatedRegistration t current next).StatusAgrees) := by
  unfold DaemonToolService.finalizeUpdatedRegistration
  split
  · next hoff =>
    rw [Bool.not_eq_true'] at hoff
    obtain ⟨hsame, henabled, hagrees⟩ := fillStatus_spec { next with status := .disabled }
    exact ⟨{ hsame with }, henabled, fun _ => hagrees (iff_of_true rfl hoff)⟩
  · next hon =>
    rw [Bool.not_eq_true', Bool.not_eq_false] at hon
    have henabled : next.enabled ≠ false := by
      rw [hon]
      exact Bool.noConfusion
    split
    · obtain ⟨hsame, hkeeps, hstatus⟩ := restoreStatusForEnabled_spec svc t next
      obtain ⟨hsame', hkeeps', hagrees⟩ := fillStatus_spec (svc.restoreStatusForEnabled t next)
      exact ⟨hsame'.trans hsame, hkeeps'.trans hkeeps, fun _ => hagrees (iff_of_false hstatus (hkeeps ▸ henabled))⟩
    · next hstatus =>
      obtain ⟨hsame, hkeeps, hagrees⟩ := fillStatus_spec next
      exact ⟨hsame, hkeeps, fun hcurrent => hagrees (iff_of_false (hcurrent ▸ hstatus) henabled)⟩

/-- Where a new registration comes from: the input, the built-in tools or the builder. -/
inductive RegisterCase (svc : DaemonToolService) (t : Nat) (input : RegisterToolInput)
    (reg : ToolRegistration) : Prop where
  | given (hname : reg.name = trimSpace input.name) (hstatus : reg.status = .ready)
  | built {transport : MCPTransport}
      (hbuild : svc.mcpBuilder t (trimSpace input.name) transport input.config (trimSpace input.overlayPath) = .ok reg)

variable {origin : ToolOrigin} {input : RegisterToolInput} {name : String}

theorem buildManifestRegistration_spec {manifest : ToolManifest}
    (hbuild : buildManifestRegistration name origin manifest input = .ok reg) :
    reg.name = name ∧ reg.status = .ready := by
  grind [buildManifestRegistration]

theorem builtinRegistration_spec (hbuiltin : builtinRegistration name = some reg) :
    reg.name = name ∧ reg.status = .ready := by
  obtain ⟨manifest, -, rfl⟩ := Option.map_eq_some_iff.mp hbuiltin
  exact ⟨rfl, rfl⟩

theorem buildManifestlessRegistration_spec
    (hbuild : svc.buildManifestlessRegistration t (trimSpace input.name) origin input = .ok reg) :
    RegisterCase svc t input reg := by
  unfold DaemonToolService.buildManifestlessRegistration at hbuild
  split at hbuild
  · split at hbuild
    · next hbuiltin =>
      cases hbuild
      obtain ⟨hname, hstatus⟩ := builtinRegistration_spec hbuiltin
      exact .given hname hstatus
    · cases hbuild
  · split at hbuild
    · cases hbuild
    · exact .built hbuild
  · cases hbuild

theorem registrationFromRegisterInput_spec (hreg : svc.registrationFromRegisterInput t input = .ok reg) :
    ∃ base, RegisterCase svc t input base ∧ reg = finalizeRegistrationEnabledState base input.enabled := by
  unfold DaemonToolService.registrationFromRegisterInput at hreg
  dsimp only at hreg
  split at hreg
  · cases hreg
  · obtain ⟨base, hbuild, rfl⟩ := map_eq_ok.mp hreg
    refine ⟨base, ?_, rfl⟩
    split at hbuild
    · exact buildManifestlessRegistration_spec hbuild
    · obtain ⟨hname, hstatus⟩ := buildManifestRegistration_spec hbuild
      exact .given hname hstatus

/-- What an update writes: a registration that was built anew, or the current one with
changes. -/
inductive UpdateCase (svc : DaemonToolService) (t : Nat) (current : ToolRegistration) (input : UpdateToolInput)
    (next : ToolRegistration) : Prop where
  | rebuilt {transport : MCPTransport} {updated : ToolRegistration}
      (hrebuild : shouldRebuildMCPRegistration (resolveUpdateOrigin current input) input = true)
      (hbuild : svc.mcpBuilder t current.name transport (input.config.getD current.config)
        (resolveUpdatedOverlayPath current.overlay input.overlayPath) = .ok updated)
      (hsame : next.SameTool updated)
      (hstatus : next.status = if next.enabled then updated.status else .disabled)
  | changed (hname : next.name = current.name)
      (hconfig : next.manifest.config = (input.manifest.getD current.manifest).config)
      (hstatus : next.StatusAgrees)

variable {current : ToolRegistration} {input : UpdateToolInput}

theorem applyNonRebuildUpdate_spec (hupdate : applyNonRebuildUpdate current input origin = .ok next) :
    next.name = current.name ∧ next.status = current.status ∧
      next.manifest.config = (input.manifest.getD current.manifest).config := by
  grind [applyNonRebuildUpdate]

theorem registrationFromUpdateInput_spec
    (hnext : svc.registrationFromUpdateInput t current input = .ok next) : UpdateCase svc t current input next := by
  unfold DaemonToolService.registrationFromUpdateInput at hnext
  dsimp only at hnext
  split at hnext
  · next hrebuild =>
    obtain ⟨transport, -, hnext⟩ := bind_eq_ok.mp hnext
    obtain ⟨updated, hbuild, hnext⟩ := bind_eq_ok.mp hnext
    cases hnext
    exact .rebuilt hrebuild hbuild ⟨rfl, rfl, rfl⟩ rfl
  · obtain ⟨changed, hupdate, rfl⟩ := map_eq_ok.mp hnext
    obtain ⟨hname, hstatus, hconfig⟩ := applyNonRebuildUpdate_spec hupdate
    obtain ⟨hsame, -, hagrees⟩ := finalizeUpdatedRegistration_spec svc t current changed
    exact .changed (hsame.name.trans hname) (by rw [hsame.manifest, hconfig]) (hagrees hstatus)

end petalflow.tool
