import Petalflow.Tool.Secrecy

open List Function
open dict (Dict)
open program (Program run_bind_eq_ok run_ofExcept_eq_ok run_pure_eq_ok)
open text (trimSpace trimSpace_trimSpace)

namespace petalflow.daemon

open petalflow.tool

/-- A tool of the config file. The settings are its configuration and transport fields. -/
structure ToolDeclaration (Settings : Type) where
  type : String
  manifest : String := ""
  overlay : String := ""
  enabled : Option Bool := none
  health : Option HealthConfig := none
  settings : Settings

/-- The files, the variables of the environment and the library functions, which stay the
same from one start to the next. -/
structure ConfigEnv (Settings : Type) where
  toLower : String → String
  dir : String → String
  expandEnvValue : String → String
  resolveConfigRelative : String → String → String
  loadToolConfig : String → Except ToolError (Dict String (ToolDeclaration Settings))
  loadManifestFile : String → Except String ToolManifest
  toConfigStrings : Settings → Dict String String
  declarationToMCPTransport : ToolDeclaration Settings → Except ToolError MCPTransport
  applyManifestDeclarationOverrides : ToolManifest → ToolDeclaration Settings → ToolOrigin → ToolManifest

variable {Settings : Type} (env : ConfigEnv Settings)

namespace ConfigEnv

def parseToolOrigin (value : String) : Except ToolError ToolOrigin :=
  match env.toLower (trimSpace value) with
  | "native" => .ok .native
  | "mcp" => .ok .mcp
  | "http" => .ok .http
  | "stdio" => .ok .stdio
  | _ => .error (.text s!"unsupported tool type {quote value}")

def declaredManifest (name : String) (decl : ToolDeclaration Settings) (configBaseDir : String) (origin : ToolOrigin)
    (originText : String) : Except ToolError ToolManifest :=
  let manifestPath := trimSpace (env.expandEnvValue decl.manifest)
  if manifestPath = "" then
    .error (.text s!"tool {quote name}: manifest is required for {originText} declarations")
  else
    match env.loadManifestFile (env.resolveConfigRelative configBaseDir manifestPath) with
    | .error err => .error (.text s!"tool {quote name}: {err}")
    | .ok manifest =>
      let manifest := env.applyManifestDeclarationOverrides manifest decl origin
      .ok { manifest with health := decl.health.or manifest.health }

def declarationToRegisterInput (name : String) (decl : ToolDeclaration Settings) (configBaseDir : String) :
    Except ToolError RegisterToolInput := do
  let origin ← env.parseToolOrigin decl.type
  let overlayPath := trimSpace (env.expandEnvValue decl.overlay)
  let input : RegisterToolInput :=
    { name := trimSpace name
      origin
      config := env.toConfigStrings decl.settings
      overlayPath := if overlayPath = "" then "" else env.resolveConfigRelative configBaseDir overlayPath
      enabled := decl.enabled }
  match origin with
  | .native => return input
  | .mcp =>
    let transport ← env.declarationToMCPTransport decl
    return { input with mcpTransport := some transport }
  | .http =>
    let manifest ← env.declaredManifest name decl configBaseDir .http "http"
    return { input with manifest := some manifest }
  | .stdio =>
    let manifest ← env.declaredManifest name decl configBaseDir .stdio "stdio"
    return { input with manifest := some manifest }
  | .other text => .error (.text s!"tool {quote name}: unsupported origin {quote text}")

/-- The tools of the file, in the order of their names. No path names the file without
tools. -/
def declarations (configPath : String) : Except ToolError (List (String × ToolDeclaration Settings)) :=
  let clean := trimSpace configPath
  if clean = "" then .ok []
  else (env.loadToolConfig clean).map fun tools => tools.entries.insertionSort fun e e' => e.1 ≤ e'.1

end ConfigEnv

variable (svc : DaemonToolService) (t : Nat)

def registerDeclarations (baseDir : String) :
    List (String × ToolDeclaration Settings) → Method (List ToolRegistration)
  | [] => return []
  | (name, decl) :: rest => do
    let input ← Program.ofExcept (env.declarationToRegisterInput name decl baseDir)
    let reg ← svc.register t input
    let registered ← registerDeclarations baseDir rest
    return reg :: registered

def registerToolsFromConfig (configPath : String) : Method (List ToolRegistration) := do
  let decls ← Program.ofExcept (env.declarations configPath)
  registerDeclarations env svc t (env.dir (trimSpace configPath)) decls

def ConfigEnv.Declares (configPath name : String) : Prop :=
  ∃ decls, env.declarations configPath = .ok decls ∧ name ∈ decls.map fun e => trimSpace e.1

def startup {Settings : Type} (env : ConfigEnv Settings) (svc : DaemonToolService) (t : Nat) (configPath : String)
    (now : Nat → Int) (s : Records) : Except ToolError (List ToolRegistration) × Records :=
  (registerToolsFromConfig env svc t configPath).run (Records.act (fun _ => none) now) s

def SameRegistration (reg reg' : ToolRegistration) : Prop :=
  reg' = { reg with registeredAt := reg'.registeredAt }

variable {svc : DaemonToolService} {t : Nat} {reg : ToolRegistration} {now : Nat → Int}
  {s s' : Records}

def invalidName (reg : ToolRegistration) : List Diagnostic :=
  if matchesToolName (trimSpace reg.name) then []
  else report "name" "INVALID_NAME" "Tool name must match ^[a-z][a-z0-9_]\x7b1,63\x7d$"

theorem storeGet_run (name : String) : (storeGet name).run (Records.act (fun _ => none) now) s =
    (.ok (.ok (s.find name)), { s with ops := s.ops + 1 }) :=
  rfl

theorem validateRegistrationName_run {named : List Diagnostic} (hnamed : hasValidationErrors named = false) :
    (validateRegistrationName true reg).run (Records.act (fun _ => none) now) s = (.ok named, s') ↔
      trimSpace reg.name ≠ "" ∧ s.find (trimSpace reg.name) = none ∧ named = invalidName reg ∧
        s' = { s with ops := s.ops + 1 } := by
  have hreported : ∀ diags field code message, named ≠ diags ++ report field code message := by
    rintro diags field code message rfl
    rw [hasValidationErrors_report] at hnamed
    cases hnamed
  unfold validateRegistrationName
  dsimp only
  by_cases hname : trimSpace reg.name = ""
  · rw [if_pos hname, run_pure_eq_ok]
    exact ⟨fun h => absurd h.1 (hreported [] _ _ _), fun h => absurd hname h.1⟩
  · rw [if_neg hname]
    simp only [Bool.not_true, Bool.false_eq_true, if_false]
    rw [run_bind_eq_ok]
    simp only [storeGet_run]
    constructor
    · rintro ⟨answer, mid, ⟨⟩, hrun⟩
      cases hfind : s.find (trimSpace reg.name) with
      | none =>
        simp only [hfind] at hrun
        exact ⟨hname, rfl, run_pure_eq_ok.mp hrun⟩
      | some found =>
        simp only [hfind] at hrun
        exact absurd (run_pure_eq_ok.mp hrun).1 (hreported _ _ _ _)
    · rintro ⟨-, hfind, rfl, rfl⟩
      refine ⟨_, _, rfl, ?_⟩
      simp only [hfind]
      rfl

theorem validateNewRegistration_run :
    (validateNewRegistration svc.env t false reg).run (Records.act (fun _ => none) now) s = (.ok (), s') ↔
      trimSpace reg.name ≠ "" ∧ s.find (trimSpace reg.name) = none ∧
        hasValidationErrors (newRegistrationDiagnostics svc.env t (invalidName reg) reg) = false ∧
        s' = { s with ops := s.ops + 1 } := by
  unfold validateNewRegistration
  rw [run_bind_eq_ok]
  constructor
  · rintro ⟨named, mid, hnamed, hcheck⟩
    dsimp only at hcheck
    split at hcheck
    · cases hcheck
    · rename_i hnone
      obtain ⟨-, rfl⟩ := run_pure_eq_ok.mp hcheck
      rw [Bool.not_eq_true] at hnone
      obtain ⟨hname, hfind, rfl, rfl⟩ :=
        (validateRegistrationName_run (valid_of_newRegistrationDiagnostics hnone).2).mp hnamed
      exact ⟨hname, hfind, hnone, rfl⟩
  · rintro ⟨hname, hfind, hnone, rfl⟩
    have hnamed := valid_of_newRegistrationDiagnostics hnone
    refine ⟨invalidName reg, _, (validateRegistrationName_run hnamed.2).mpr ⟨hname, hfind, rfl, rfl⟩, ?_⟩
    simp only [hnone, Bool.false_eq_true, if_false]
    rfl

theorem store_run (hname : trimSpace reg.name ≠ "") (hnew : s.find reg.name = none) :
    (DaemonToolService.store reg).run (Records.act (fun _ => none) now) s =
      (.ok (StoreEnv.prepare (now s.ops) none reg),
        { find := Function.update s.find reg.name (some (StoreEnv.prepare (now s.ops) none reg))
          ops := s.ops + 2, stored := s.stored + 1 }) := by
  have hwritten : (storeUpsert reg).run (Records.act (fun _ => none) now) s =
      (.ok none, { find := Function.update s.find reg.name (some (StoreEnv.prepare (now s.ops) none reg))
                   ops := s.ops + 1, stored := s.stored + 1 }) := by
    simp [storeUpsert, Program.perform, Program.run, Records.act, storeAct, actOn, hname, hnew, storedBy]
  refine run_bind_eq_ok.mpr ⟨none, _, hwritten, run_bind_eq_ok.mpr ⟨_, _, storeGet_run reg.name, ?_⟩⟩
  simp only [update_self]
  rfl

structure Accepted (mcp : MCPEnv) (t : Nat) (input : RegisterToolInput) (reg : ToolRegistration) : Prop where
  built : (newDaemonToolService mcp).registrationFromRegisterInput t input = .ok reg
  name : reg.name = trimSpace input.name
  nonblank : trimSpace reg.name ≠ ""
  valid : hasValidationErrors (newRegistrationDiagnostics mcp.toToolEnv t (invalidName reg) reg) = false

def written (now : Nat → Int) (s : Records) (reg : ToolRegistration) : ToolRegistration :=
  StoreEnv.prepare (now (s.ops + 1)) none reg

def extended (now : Nat → Int) (s : Records) (name : String) (reg : ToolRegistration) : Records where
  find := Function.update s.find name (some (written now s reg))
  ops := s.ops + 3
  stored := s.stored + 1

theorem extended_find_self (name : String) : (extended now s name reg).find name = some (written now s reg) :=
  update_self _ _ _

theorem extended_find_of_ne {name other : String} (hne : other ≠ name) :
    (extended now s name reg).find other = s.find other :=
  update_of_ne hne _ _

variable {input : RegisterToolInput}

theorem register_run {mcp : MCPEnv} {stored : ToolRegistration} :
    ((newDaemonToolService mcp).register t input).run (Records.act (fun _ => none) now) s = (.ok stored, s') ↔
      s.find (trimSpace input.name) = none ∧ ∃ reg, Accepted mcp t input reg ∧
        stored = written now s reg ∧ s' = extended now s (trimSpace input.name) reg := by
  unfold DaemonToolService.register
  constructor
  · intro hrun
    obtain ⟨reg, first, hbuild, hrest⟩ := run_bind_eq_ok.mp hrun
    obtain ⟨hbuilt, rfl⟩ := run_ofExcept_eq_ok.mp hbuild
    obtain ⟨⟨⟩, mid, hvalidate, hstore⟩ := run_bind_eq_ok.mp hrest
    obtain ⟨hname, hfind, hvalid, rfl⟩ := validateNewRegistration_run.mp hvalidate
    have hreg := registered_name hbuilt
    rw [hreg, trimSpace_trimSpace] at hfind
    rw [store_run hname (by rw [hreg]; exact hfind)] at hstore
    cases hstore
    refine ⟨hfind, reg, ⟨hbuilt, hreg, hname, hvalid⟩, rfl, ?_⟩
    rw [← hreg]
    rfl
  · rintro ⟨hfind, reg, haccepted, rfl, rfl⟩
    have hnew : s.find reg.name = none := by
      rw [haccepted.name]
      exact hfind
    have htrimmed : trimSpace reg.name = reg.name := by rw [haccepted.name, trimSpace_trimSpace]
    refine run_bind_eq_ok.mpr ⟨reg, s, run_ofExcept_eq_ok.mpr ⟨haccepted.built, rfl⟩, ?_⟩
    refine run_bind_eq_ok.mpr ⟨(), _,
      validateNewRegistration_run.mpr ⟨haccepted.nonblank, ?_, haccepted.valid, rfl⟩, ?_⟩
    · rw [htrimmed]
      exact hnew
    · rw [store_run haccepted.nonblank (s := { s with ops := s.ops + 1 }) hnew, ← haccepted.name]
      rfl

variable {env : ConfigEnv Settings} {mcp : MCPEnv} {baseDir : String}
  {decls : List (String × ToolDeclaration Settings)} {regs : List ToolRegistration} {name : String}
  {decl : ToolDeclaration Settings}

theorem declarationToRegisterInput_name
    (hinput : env.declarationToRegisterInput name decl baseDir = .ok input) : input.name = trimSpace name := by
  unfold ConfigEnv.declarationToRegisterInput at hinput
  obtain ⟨origin, -, hinput⟩ := fold.bind_eq_ok.mp hinput
  cases origin with
  | native =>
    cases hinput
    rfl
  | mcp | http | stdio =>
    obtain ⟨_, -, hinput⟩ := fold.bind_eq_ok.mp hinput
    cases hinput
    rfl
  | other text => cases hinput

theorem registerDeclarations_cons_run :
    (registerDeclarations env (newDaemonToolService mcp) t baseDir ((name, decl) :: decls)).run
        (Records.act (fun _ => none) now) s = (.ok regs, s') ↔
      s.find (trimSpace name) = none ∧ ∃ input reg rest,
        env.declarationToRegisterInput name decl baseDir = .ok input ∧ Accepted mcp t input reg ∧
        (registerDeclarations env (newDaemonToolService mcp) t baseDir decls).run (Records.act (fun _ => none) now)
          (extended now s (trimSpace name) reg) = (.ok rest, s') ∧
        regs = written now s reg :: rest := by
  rw [registerDeclarations]
  constructor
  · intro hrun
    obtain ⟨input, first, hdeclared, hregistered⟩ := run_bind_eq_ok.mp hrun
    obtain ⟨hinput, rfl⟩ := run_ofExcept_eq_ok.mp hdeclared
    obtain ⟨stored, mid, hregister, htail⟩ := run_bind_eq_ok.mp hregistered
    obtain ⟨rest, last, hrest, hlast⟩ := run_bind_eq_ok.mp htail
    obtain ⟨rfl, rfl⟩ := run_pure_eq_ok.mp hlast
    obtain ⟨hnew, reg, haccepted, rfl, rfl⟩ := register_run.mp hregister
    grind [declarationToRegisterInput_name, trimSpace_trimSpace]
  · rintro ⟨hnew, input, reg, rest, hinput, haccepted, hrest, rfl⟩
    have hname : trimSpace input.name = trimSpace name := by
      rw [declarationToRegisterInput_name hinput, trimSpace_trimSpace]
    rw [← hname] at hnew hrest
    refine run_bind_eq_ok.mpr ⟨input, s, run_ofExcept_eq_ok.mpr ⟨hinput, rfl⟩, ?_⟩
    refine run_bind_eq_ok.mpr ⟨_, _, register_run.mpr ⟨hnew, reg, haccepted, rfl, rfl⟩, ?_⟩
    exact run_bind_eq_ok.mpr ⟨rest, s', hrest, run_pure_eq_ok.mpr ⟨rfl, rfl⟩⟩

structure Installed (names : List String) (regs : List ToolRegistration) (s s' : Records) : Prop where
  kept : ∀ name reg, s.find name = some reg → s'.find name = some reg
  others : ∀ name ∉ names, s'.find name = s.find name
  stored : ∀ reg ∈ regs, s'.find reg.name = some reg

theorem registerDeclarations_installed
    (hrun : (registerDeclarations env (newDaemonToolService mcp) t baseDir decls).run
      (Records.act (fun _ => none) now) s = (.ok regs, s')) :
    Installed (decls.map fun e => trimSpace e.1) regs s s' := by
  induction decls generalizing s regs with
  | nil =>
    rw [registerDeclarations] at hrun
    obtain ⟨rfl, rfl⟩ := run_pure_eq_ok.mp hrun
    exact ⟨fun _ _ h => h, fun _ _ => rfl, fun _ hmem => absurd hmem not_mem_nil⟩
  | cons e rest ih =>
    obtain ⟨name, decl⟩ := e
    obtain ⟨hnew, input, reg, regs', hinput, haccepted, hrest, rfl⟩ := registerDeclarations_cons_run.mp hrun
    have hrest := ih hrest
    refine ⟨?_, ?_, ?_⟩
    · intro other found hfind
      apply hrest.kept
      grind [extended_find_of_ne]
    · intro other hother
      rw [map_cons, mem_cons, not_or] at hother
      rw [hrest.others other hother.2]
      exact extended_find_of_ne hother.1
    · intro found hfound
      cases hfound with
      | head =>
        apply hrest.kept
        have hname : (written now s reg).name = trimSpace name := by
          change reg.name = _
          rw [haccepted.name, declarationToRegisterInput_name hinput, trimSpace_trimSpace]
        rw [hname, extended_find_self]
      | tail _ hmem => exact hrest.stored found hmem

theorem registerDeclarations_again (now' : Nat → Int) (s₂ : Records)
    (hrun : (registerDeclarations env (newDaemonToolService mcp) t baseDir decls).run
      (Records.act (fun _ => none) now) s = (.ok regs, s'))
    (hnew : ∀ e ∈ decls, s.find (trimSpace e.1) = none → s₂.find (trimSpace e.1) = none) :
    ∃ regs' s₂', (registerDeclarations env (newDaemonToolService mcp) t baseDir decls).run
        (Records.act (fun _ => none) now') s₂ = (.ok regs', s₂') ∧ Forall₂ SameRegistration regs regs' := by
  induction decls generalizing s s₂ regs with
  | nil =>
    rw [registerDeclarations] at hrun
    obtain ⟨rfl, rfl⟩ := run_pure_eq_ok.mp hrun
    exact ⟨[], s₂, rfl, .nil⟩
  | cons e rest ih =>
    obtain ⟨name, decl⟩ := e
    obtain ⟨habsent, input, reg, regs', hinput, haccepted, hrest, rfl⟩ := registerDeclarations_cons_run.mp hrun
    have habsent₂ := hnew (name, decl) mem_cons_self habsent
    have hnext : ∀ e' ∈ rest, (extended now s (trimSpace name) reg).find (trimSpace e'.1) = none →
        (extended now' s₂ (trimSpace name) reg).find (trimSpace e'.1) = none := by
      intro e' he' hfind
      have hne : trimSpace e'.1 ≠ trimSpace name := by
        intro heq
        rw [heq, extended_find_self] at hfind
        cases hfind
      rw [extended_find_of_ne hne] at hfind ⊢
      exact hnew e' (mem_cons_of_mem _ he') hfind
    obtain ⟨regs₂, s₂', hrun₂, hsame⟩ := ih (extended now' s₂ (trimSpace name) reg) hrest hnext
    exact ⟨_, s₂', registerDeclarations_cons_run.mpr ⟨habsent₂, input, reg, regs₂, hinput, haccepted, hrun₂, rfl⟩,
      .cons (rfl) hsame⟩

theorem startup_run {configPath : String} : startup env (newDaemonToolService mcp) t configPath now s = (.ok regs, s') ↔
    ∃ decls, env.declarations configPath = .ok decls ∧
      (registerDeclarations env (newDaemonToolService mcp) t (env.dir (trimSpace configPath)) decls).run
        (Records.act (fun _ => none) now) s = (.ok regs, s') := by
  simp [startup, registerToolsFromConfig, run_bind_eq_ok, run_ofExcept_eq_ok]

/-- A start that succeeds has found none of the declared names in the store, and leaves them all there. -/
theorem registerDeclarations_names
    (hrun : (registerDeclarations env (newDaemonToolService mcp) t baseDir decls).run
      (Records.act (fun _ => none) now) s = (.ok regs, s')) :
    ∀ name ∈ decls.map fun e => trimSpace e.1, s.find name = none ∧ s'.find name ≠ none := by
  induction decls generalizing s regs with
  | nil => exact nofun
  | cons e rest ih =>
    obtain ⟨name, decl⟩ := e
    obtain ⟨hnew, input, reg, regs', -, -, hrest, rfl⟩ := registerDeclarations_cons_run.mp hrun
    have hstored := (registerDeclarations_installed hrest).kept _ _ (extended_find_self (trimSpace name))
    refine forall_mem_cons.mpr ⟨⟨hnew, by simp [hstored]⟩, fun other hother => ?_⟩
    obtain ⟨hnone, hkept⟩ := ih hrest other hother
    have hne : other ≠ trimSpace name := by
      rintro rfl
      rw [extended_find_self] at hnone
      cases hnone
    rw [extended_find_of_ne hne] at hnone
    exact ⟨hnone, hkept⟩

/-- A config file whose tools can be registered is registered by a later start exactly if it
finds none of its names in the store: the same registrations are stored, and nothing else
changes. On the store that the first start left it is only if no tool is declared. -/
theorem declared_tools_register_again {Settings : Type} (env : ConfigEnv Settings) (mcp : MCPEnv) (t : Nat)
    (configPath : String) (now now' : Nat → Int) (s s' s₂ : Records) (regs : List ToolRegistration)
    (hrun : startup env (newDaemonToolService mcp) t configPath now s = (.ok regs, s')) :
    ((∃ regs₂ s₂', startup env (newDaemonToolService mcp) t configPath now' s₂ = (.ok regs₂, s₂') ∧
      List.Forall₂ SameRegistration regs regs₂ ∧
      (∀ reg ∈ regs, s'.find reg.name = some reg) ∧ (∀ reg ∈ regs₂, s₂'.find reg.name = some reg) ∧
      ∀ name, ¬ env.Declares configPath name → s₂'.find name = s₂.find name) ↔
        ∀ name, env.Declares configPath name → s₂.find name = none) ∧
    ((startup env (newDaemonToolService mcp) t configPath now' s').1.isOk = true ↔
      ∀ name, ¬ env.Declares configPath name) := by
  obtain ⟨decls, hdecls, hrun⟩ := startup_run.mp hrun
  have hdeclared : ∀ name, env.Declares configPath name ↔ name ∈ decls.map fun e => trimSpace e.1 := by
    intro name
    constructor
    · rintro ⟨decls', hdecls', hname⟩
      cases hdecls.symm.trans hdecls'
      exact hname
    · exact fun hname => ⟨decls, hdecls, hname⟩
  have hfails : ∀ s₂ regs₂ s₂', startup env (newDaemonToolService mcp) t configPath now' s₂ = (.ok regs₂, s₂') →
      ∀ name, env.Declares configPath name → s₂.find name = none := by
    intro s₂ regs₂ s₂' hrun₂ name hname
    obtain ⟨decls', hdecls', hrun₂⟩ := startup_run.mp hrun₂
    cases hdecls.symm.trans hdecls'
    exact (registerDeclarations_names hrun₂ name ((hdeclared name).mp hname)).1
  have hagain : ∀ s₂ : Records, (∀ name, env.Declares configPath name → s₂.find name = none) →
      ∃ regs₂ s₂', startup env (newDaemonToolService mcp) t configPath now' s₂ = (.ok regs₂, s₂') ∧
        List.Forall₂ SameRegistration regs regs₂ ∧
        (∀ reg ∈ regs, s'.find reg.name = some reg) ∧ (∀ reg ∈ regs₂, s₂'.find reg.name = some reg) ∧
        ∀ name, ¬ env.Declares configPath name → s₂'.find name = s₂.find name := by
    intro s₂ hnew
    obtain ⟨regs₂, s₂', hrun₂, hsame⟩ := registerDeclarations_again now' s₂ hrun
      fun e he _ => hnew _ ((hdeclared _).mpr (mem_map_of_mem he))
    have hinstalled := registerDeclarations_installed hrun₂
    refine ⟨regs₂, s₂', startup_run.mpr ⟨decls, hdecls, hrun₂⟩, hsame, (registerDeclarations_installed hrun).stored,
      hinstalled.stored, ?_⟩
    intro name hname
    exact hinstalled.others name fun hmem => hname ((hdeclared name).mpr hmem)
  refine ⟨⟨fun ⟨regs₂, s₂', hrun₂, _⟩ => hfails s₂ regs₂ s₂' hrun₂, hagain s₂⟩,
    fun hok name hname => ?_, fun hnone => ?_⟩
  · -- the first start has stored the name
    cases hrun₂ : startup env (newDaemonToolService mcp) t configPath now' s' with
    | mk result s₂' =>
      rw [hrun₂] at hok
      cases result with
      | error err => cases hok
      | ok regs₂ =>
        exact (registerDeclarations_names hrun name ((hdeclared name).mp hname)).2
          (hfails s' regs₂ s₂' hrun₂ name hname)
  · obtain ⟨regs₂, s₂', hrun₂, -⟩ := hagain s' fun name hname => absurd hname (hnone name)
    rw [hrun₂]
    rfl

/-- Files with an MCP tool, with a tool that is built in, and with the MCP tool and one that
cannot be registered. -/
def crmConfig : ConfigEnv Unit where
  toLower text := text
  dir _ := "."
  expandEnvValue text := text
  resolveConfigRelative _ path := path
  loadToolConfig path :=
    let crm := Dict.empty.insert "crm" { type := "mcp", settings := () }
    if path = "tools.yaml" then .ok crm
    else if path = "builtin.yaml" then .ok (Dict.empty.insert "http_fetch" { type := "native", settings := () })
    else .ok (crm.insert "zeta" { type := "native", settings := () })
  loadManifestFile _ := .error "no such file"
  toConfigStrings _ := .empty
  declarationToMCPTransport _ := .ok { mode := .stdio, command := "crm-server" }
  applyManifestDeclarationOverrides manifest _ _ := manifest

def noRecords : Records where
  find _ := none
  ops := 0
  stored := 0

def crmStartup (configPath : String) : Records → Except ToolError (List ToolRegistration) × Records :=
  startup crmConfig (newDaemonToolService crmServer) 0 configPath fun n => n

def nameNotUnique : Except ToolError (List ToolRegistration) → Bool
  | .error (.validation diags) => diags.any (·.code = "NAME_NOT_UNIQUE")
  | _ => false

theorem crmStartup_ok (configPath : String) (s : Records) (hok : (crmStartup configPath s).1.isOk = true) :
    ∃ regs s', crmStartup configPath s = (.ok regs, s') := by
  cases hresult : crmStartup configPath s with
  | mk result s' =>
    cases result with
    | ok regs => exact ⟨regs, s', rfl⟩
    | error err =>
      rw [hresult] at hok
      cases hok

theorem declared_tools_register_again_crm :
    ∃ regs s', crmStartup "tools.yaml" noRecords = (.ok regs, s') ∧
      ∃ regs₂ s₂', crmStartup "tools.yaml" (crmStartup "builtin.yaml" noRecords).2 = (.ok regs₂, s₂') ∧
        List.Forall₂ SameRegistration regs regs₂ ∧ (s₂'.find "http_fetch").isSome = true := by
  obtain ⟨regs, s', hrun⟩ := crmStartup_ok "tools.yaml" noRecords (by decide +kernel)
  have hnames : (crmConfig.declarations "tools.yaml").toOption.map (·.map fun e => trimSpace e.1) = some ["crm"] := by
    decide +kernel
  have hdeclared : ∀ name, crmConfig.Declares "tools.yaml" name → name = "crm" := by
    rintro name ⟨decls, hdecls, hname⟩
    rw [hdecls] at hnames
    have hcrm : (decls.map fun e => trimSpace e.1) = ["crm"] := Option.some.inj hnames
    rw [hcrm] at hname
    exact mem_singleton.mp hname
  have hnew : ∀ name, crmConfig.Declares "tools.yaml" name →
      (crmStartup "builtin.yaml" noRecords).2.find name = none := by
    intro name hname
    rw [hdeclared name hname]
    exact Option.isNone_iff_eq_none.mp (by decide +kernel)
  obtain ⟨regs₂, s₂', hrun₂, hsame, -, -, hothers⟩ := (declared_tools_register_again crmConfig crmServer 0 "tools.yaml"
    (fun n => n) (fun n => n) noRecords s' (crmStartup "builtin.yaml" noRecords).2 regs hrun).1.mpr hnew
  refine ⟨regs, s', hrun, regs₂, s₂', hrun₂, hsame, ?_⟩
  rw [hothers "http_fetch" fun hname => absurd (hdeclared _ hname) (by decide)]
  decide +kernel

/-- A second start with the same file fails on the name the first one stored, and so does
one with a corrected file after a start that failed part-way. -/
theorem declared_tools_refused_again :
    (crmStartup "tools.yaml" noRecords).1.isOk = true ∧
      nameNotUnique (crmStartup "tools.yaml" (crmStartup "tools.yaml" noRecords).2).1 = true ∧
      (crmStartup "broken.yaml" noRecords).1.isOk = false ∧
      nameNotUnique (crmStartup "tools.yaml" (crmStartup "broken.yaml" noRecords).2).1 = true := by
  decide +kernel

/-- The fields that stand both in a declaration and in its transport. A map that is nil is `none`. -/
structure TransportFields where
  endpoint : String := ""
  command : String := ""
  args : List String := []
  env : Option (Dict String String) := none

structure ToolDeclarationBinding extends TransportFields where
  mode : String := ""

structure TransportSettings extends TransportFields where
  transport : ToolDeclarationBinding := {}

variable (toLower expandEnvValue : String → String) (decl : ToolDeclaration TransportSettings)

def expandStringMap (values : Option (Dict String String)) : Option (Dict String String) :=
  values.bind fun values => if values.entries = [] then none else some (values.mapEntries fun _ => expandEnvValue)

def setEntry (env : Option (Dict String String)) (e : String × String) : Option (Option (Dict String String)) :=
  env.map fun env => some (env.insert e.1 e.2)

/-- Both conversions merge the environments. A write to a nil map panics, which is `none`. -/
def mergedEnv : Option (Dict String String) :=
  (((expandStringMap expandEnvValue decl.settings.transport.env).getD .empty).entries.foldlM setEntry
    (expandStringMap expandEnvValue decl.settings.env)).map (·.getD .empty)

def declarationToMCPTransport : Option (Except ToolError MCPTransport) :=
  let expanded (text : String) := trimSpace (expandEnvValue text)
  let orElse (text other : String) := if text = "" then other else text
  let declared := toLower (expanded decl.type)
  let mode := orElse (toLower (expanded decl.settings.transport.mode)) (if declared = "mcp" then "" else declared)
  let endpoint := orElse (expanded decl.settings.transport.endpoint) (expanded decl.settings.endpoint)
  let command := orElse (expanded decl.settings.transport.command) (expanded decl.settings.command)
  let args := if decl.settings.transport.args = [] then decl.settings.args else decl.settings.transport.args
  (mergedEnv expandEnvValue decl).map fun env =>
    match orElse mode (if endpoint ≠ "" then "sse" else if command ≠ "" then "stdio" else "") with
    | "sse" =>
      if endpoint = "" then .error (.text "mcp sse transport requires endpoint")
      else .ok { mode := .sse, endpoint, args := args.map expandEnvValue, env }
    | "stdio" =>
      if command = "" then .error (.text "mcp stdio transport requires command")
      else .ok { mode := .stdio, command, args := args.map expandEnvValue, env }
    | mode => .error (.text s!"unsupported mcp mode {quote mode}")

def applyManifestDeclarationOverrides (manifest : ToolManifest) (origin : ToolOrigin) : Option ToolManifest :=
  let endpoint := trimSpace (expandEnvValue decl.settings.endpoint)
  let command := trimSpace (expandEnvValue decl.settings.command)
  let args := if decl.settings.args = [] then decl.settings.transport.args else decl.settings.args
  let old := manifest.transport
  (mergedEnv expandEnvValue decl).map fun env =>
    match origin with
    | .http =>
      { manifest with
        transport := { old with type := .http, endpoint := if endpoint ≠ "" then endpoint else old.endpoint } }
    | .stdio =>
      { manifest with
        transport := { old with
          type := .stdio
          command := if command ≠ "" then command else old.command
          args := if args = [] then old.args else args.map expandEnvValue
          env := if env.entries = [] then old.env else env } }
    | _ => manifest

variable {expandEnvValue decl}

theorem get?_expandStringMap (values : Option (Dict String String)) (key : String) :
    ((expandStringMap expandEnvValue values).getD .empty).get? key = (values.bind (·.get? key)).map expandEnvValue := by
  cases values with
  | none => rfl
  | some values =>
    simp only [expandStringMap, Option.bind_some]
    split
    · next hnone => simp [Dict.get?, hnone, Dict.empty]
    · simp

/-- The map has an entry; a nil map has none. -/
def HasEntries (values : Option (Dict String String)) : Prop := ∃ env ∈ values, env.entries ≠ []

theorem expandStringMap_ne_none {values : Option (Dict String String)} :
    expandStringMap expandEnvValue values ≠ none ↔ HasEntries values := by
  cases values with
  | none => simp [expandStringMap, HasEntries]
  | some values => by_cases hnone : values.entries = [] <;> simp [expandStringMap, HasEntries, hnone]

/-- The environment of the declaration, overridden by that of its transport, with the values
expanded. -/
def Merged (expandEnvValue : String → String) (decl : ToolDeclaration TransportSettings) (env : Dict String String) :
    Prop :=
  ∀ key, env.get? key =
    ((decl.settings.transport.env.bind (·.get? key)).or (decl.settings.env.bind (·.get? key))).map expandEnvValue

theorem mergedEnv_of_entries (hbase : HasEntries decl.settings.env) :
    ∃ env, mergedEnv expandEnvValue decl = some env ∧ Merged expandEnvValue decl env ∧ env.entries ≠ [] := by
  obtain ⟨base, hsome⟩ : ∃ base, expandStringMap expandEnvValue decl.settings.env = some base :=
    Option.ne_none_iff_exists'.mp (expandStringMap_ne_none.mpr hbase)
  have hwritten (entries : List (String × String)) : ∀ env : Dict String String,
      entries.foldlM setEntry (some env) = some (some (entries.foldl (fun env e => env.insert e.1 e.2) env)) := by
    induction entries with
    | nil => exact fun _ => rfl
    | cons e rest ih => exact fun env => ih _
  have hmerged : ∃ env, mergedEnv expandEnvValue decl = some env ∧ Merged expandEnvValue decl env := by
    refine ⟨base.overlay ((expandStringMap expandEnvValue decl.settings.transport.env).getD .empty), ?_, fun key => ?_⟩
    · simp only [mergedEnv, hsome, hwritten]
      rfl
    · rw [Dict.get?_overlay, Option.map_or, ← get?_expandStringMap, ← get?_expandStringMap, hsome]
      rfl
  obtain ⟨env, henv, hget⟩ := hmerged
  refine ⟨env, henv, hget, fun hnone => ?_⟩
  -- an entry of the declaration is an entry of the merged environment
  obtain ⟨values, hvalues, hentries⟩ := hbase
  obtain ⟨e, he⟩ := List.exists_mem_of_ne_nil _ hentries
  have hfound : values.get? e.1 = some e.2 := Dict.get?_eq_some_iff.mpr he
  have hkey := hget e.1
  rw [Option.mem_def.mp hvalues, Option.bind_some, hfound] at hkey
  cases hother : decl.settings.transport.env.bind (·.get? e.1) <;> rw [hother] at hkey <;>
    simp [Dict.get?, hnone] at hkey

theorem mergedEnv_of_no_entries (hbase : ¬ HasEntries decl.settings.env) :
    mergedEnv expandEnvValue decl = some .empty ∧ ¬ HasEntries decl.settings.transport.env ∨
      mergedEnv expandEnvValue decl = none ∧ HasEntries decl.settings.transport.env := by
  have hnone : expandStringMap expandEnvValue decl.settings.env = none :=
    not_not.mp (mt expandStringMap_ne_none.mp hbase)
  by_cases hother : HasEntries decl.settings.transport.env
  · obtain ⟨values, hvalues, hentries⟩ := hother
    obtain ⟨e, rest, hcons⟩ := List.exists_cons_of_ne_nil hentries
    refine .inr ⟨?_, values, hvalues, hentries⟩
    have hfirst : ((expandStringMap expandEnvValue decl.settings.transport.env).getD .empty).entries =
        (e.1, expandEnvValue e.2) :: rest.map fun e => (e.1, expandEnvValue e.2) := by
      simp [Option.mem_def.mp hvalues, expandStringMap, hcons, Dict.mapEntries]
    rw [mergedEnv, hnone, hfirst]
    rfl
  · have hempty : expandStringMap expandEnvValue decl.settings.transport.env = none :=
      not_not.mp (mt expandStringMap_ne_none.mp hother)
    refine .inl ⟨?_, hother⟩
    simp only [mergedEnv, hnone, hempty]
    rfl

def tokenEnv : Option (Dict String String) := some (Dict.empty.insert "TOKEN" "$SECRET")

end petalflow.daemon
