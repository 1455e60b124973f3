import Petalflow.Tool.Mcp
import Petalflow.Tool.Protocol

open Option Function
open dict (Dict)
open text (trimSpace)
open machine (Machine)
open program (Program Obeys run_obeys)

namespace petalflow.tool

open ToolRegistration

/-- An operation of a store that keeps registrations as they are under their names, which are
looked up by `find` and written by `put`. It may fail. -/
def actOn {S : Type} (find : S → String → Option ToolRegistration) (put : S → String → Option ToolRegistration → S)
    (fail : Option String) (now : Int) : (op : StoreOp) → S → op.Res × S
  | .get name, s =>
    match fail with
    | some err => (.error err, s)
    | none => (.ok (find s name), s)
  | .upsert reg, s =>
    match fail with
    | some err => (some err, s)
    | none =>
      if trimSpace reg.name = "" then (some "tool: registration name is required", s)
      else (none, put s reg.name (some (StoreEnv.prepare now (find s reg.name) reg)))
  | .delete name, s =>
    match fail with
    | some err => (some err, s)
    | none => (none, put s name none)

def storeAct (fail : Option String) (now : Int) (op : StoreOp) (find : String → Option ToolRegistration) :
    op.Res × (String → Option ToolRegistration) :=
  actOn (fun find => find) Function.update fail now op find

/-- The registrations by their names, and how many operations and how many successful
upserts there were. -/
structure Records where
  find : String → Option ToolRegistration
  ops : Nat
  stored : Nat

def storedBy : (op : StoreOp) → op.Res → Nat
  | .upsert _, none => 1
  | _, _ => 0

/-- An operation on the records. `fails` says which operations fail. -/
def Records.act (fails : Nat → Option String) (now : Nat → Int) (op : StoreOp) (s : Records) : op.Res × Records :=
  let result := storeAct (fails s.ops) (now s.ops) op s.find
  (result.1, { find := result.2, ops := s.ops + 1, stored := s.stored + storedBy op result.1 })

def serviceCalls (svc : DaemonToolService) (fails : Nat → Option String) (now : Nat → Int) :
    Machine Records (Nat × Call) where
  init := { find := fun _ => none, ops := 0, stored := 0 }
  step
    | (t, call), s => some ((svc.perform t call).run (Records.act fails now) s).2

/-- What an operation does: it keeps the registrations, or it writes or removes one. -/
inductive ActCase (now : Int) (find : String → Option ToolRegistration) :
    (op : StoreOp) → op.Res × (String → Option ToolRegistration) → Prop where
  | get (name : String) : ActCase now find (.get name) (.ok (find name), find)
  | getFailed (name err : String) : ActCase now find (.get name) (.error err, find)
  | upsert (reg : ToolRegistration) : ActCase now find (.upsert reg)
      (none, Function.update find reg.name (some (StoreEnv.prepare now (find reg.name) reg)))
  | upsertFailed (reg : ToolRegistration) (err : String) : ActCase now find (.upsert reg) (some err, find)
  | delete (name : String) : ActCase now find (.delete name) (none, Function.update find name none)
  | deleteFailed (name err : String) : ActCase now find (.delete name) (some err, find)

theorem act_cases (fail : Option String) (now : Int) (op : StoreOp) (find : String → Option ToolRegistration) :
    ActCase now find op (storeAct fail now op find) := by
  cases op with
  | get name =>
    cases fail with
    | some err => exact .getFailed name err
    | none => exact .get name
  | upsert reg =>
    cases fail with
    | some err => exact .upsertFailed reg err
    | none =>
      by_cases hname : trimSpace reg.name = ""
      · simp only [storeAct, actOn, if_pos hname]
        exact .upsertFailed reg _
      · simp only [storeAct, actOn, if_neg hname]
        exact .upsert reg
  | delete name =>
    cases fail with
    | some err => exact .deleteFailed name err
    | none => exact .delete name

/-- What a call does under a discipline: nothing, or one write. -/
inductive CallCase (d : Discipline) (s s' : Records) : Prop where
  | unchanged (hfind : s'.find = s.find) (hstored : s'.stored = s.stored)
  | upserted {found : Option ToolRegistration} {reg : ToolRegistration} {now : Int} (hwrites : d.writes found reg)
      (hfind : s'.find = Function.update s.find reg.name (some (StoreEnv.prepare now (s.find reg.name) reg)))
  | deleted {found : Option ToolRegistration} {name : String} (hdeletes : d.deletes found name)
      (hfind : s'.find = Function.update s.find name none) (hstored : s'.stored = s.stored)

def Underway (d : Discipline) (s : Records) : Progress → Records → Prop
  | .written, s' => CallCase d s s'
  | _, s' => s'.find = s.find ∧ s'.stored = s.stored

variable {d : Discipline} {s s' : Records} {g : Progress}

theorem CallCase.congr {s'' : Records} (hcase : CallCase d s s') (hfind : s''.find = s'.find)
    (hstored : s''.stored = s'.stored) : CallCase d s s'' := by
  cases hcase with
  | unchanged hfind' hstored' => exact .unchanged (hfind.trans hfind') (hstored.trans hstored')
  | upserted hwrites hfind' => exact .upserted hwrites (hfind.trans hfind')
  | deleted hdeletes hfind' hstored' => exact .deleted hdeletes (hfind.trans hfind') (hstored.trans hstored')

theorem underway_get (hway : Underway d s g s') (hreads : ∀ name reg, s.find name = some reg → d.reads name reg)
    (fails : Nat → Option String) (now : Nat → Int) (name : String) :
    d.protocol.answers g (.get name) (Records.act fails now (.get name) s').1 ∧
      Underway d s (remember g (.get name) (Records.act fails now (.get name) s').1)
        (Records.act fails now (.get name) s').2 := by
  unfold Records.act
  have hcase := act_cases (fails s'.ops) (now s'.ops) (.get name) s'.find
  generalize storeAct (fails s'.ops) (now s'.ops) (.get name) s'.find = result at hcase ⊢
  cases g with
  | written =>
    refine ⟨trivial, hway.congr ?_ rfl⟩
    cases hcase with
    | get | getFailed => rfl
  | started =>
    cases hcase with
    | get =>
      refine ⟨fun reg hfound => hreads name reg ?_, hway⟩
      rw [← hway.1]
      exact Except.ok.inj hfound
    | getFailed err =>
      refine ⟨fun reg hfound => ?_, hway⟩
      cases hfound
  | read found =>
    refine ⟨trivial, ?_⟩
    cases hcase with
    | get | getFailed => exact hway

theorem underway_write {found : Option ToolRegistration} {op : StoreOp} (hway : Underway d s (.read found) s')
    (hallowed : d.protocol.allowed (.read found) op) (hop : ∀ name, op ≠ .get name) (fails : Nat → Option String)
    (now : Nat → Int) : CallCase d s (Records.act fails now op s').2 := by
  obtain ⟨hfind, hstored⟩ := hway
  unfold Records.act
  rw [hfind, hstored]
  have hcase := act_cases (fails s'.ops) (now s'.ops) op s.find
  generalize storeAct (fails s'.ops) (now s'.ops) op s.find = result at hcase ⊢
  cases hcase with
  | get name | getFailed name err => exact absurd rfl (hop name)
  | upsert reg => exact .upserted hallowed rfl
  | upsertFailed reg err | deleteFailed name err => exact .unchanged rfl rfl
  | delete name => exact .deleted hallowed rfl rfl

variable {svc : DaemonToolService} {t : Nat} {call : Call}

theorem call_cases (hreads : ∀ name reg, s.find name = some reg → d.reads name reg) (hpermits : d.Permits svc t call)
    (fails : Nat → Option String) (now : Nat → Int) :
    CallCase d s ((svc.perform t call).run (Records.act fails now) s).2 := by
  have hact : ∀ (g : Progress) (op : StoreOp) (s' : Records), Underway d s g s' → d.protocol.allowed g op →
      d.protocol.answers g op (Records.act fails now op s').1 ∧
        Underway d s (d.protocol.next g op (Records.act fails now op s').1) (Records.act fails now op s').2 := by
    intro g op s' hway hallowed
    by_cases hget : ∃ name, op = .get name
    · obtain ⟨name, rfl⟩ := hget
      exact underway_get hway hreads fails now name
    · rw [not_exists] at hget
      obtain ⟨found, rfl⟩ := read_of_allowed hallowed hget
      refine ⟨trivial, ?_⟩
      change Underway d s (remember _ op _) _
      rw [remember_write _ hget]
      exact underway_write hway hallowed hget fails now
  obtain ⟨g, hway, -⟩ := run_obeys hact (obeys_call hpermits) ⟨rfl, rfl⟩
  cases g with
  | started | read found => exact .unchanged hway.1 hway.2
  | written => exact hway

structure Keeps (kept : String → ToolRegistration → Prop) (must : String → Prop)
    (find : String → Option ToolRegistration) : Prop where
  kept : ∀ name reg, find name = some reg → kept name reg
  must : ∀ name, must name → (find name).isSome = true

variable {kept : String → ToolRegistration → Prop} {must : String → Prop}
  {find : String → Option ToolRegistration}
  {name : String}

theorem Keeps.set (hkeeps : Keeps kept must find) {entry : Option ToolRegistration}
    (hkept : ∀ reg, entry = some reg → kept name reg) (hmust : must name → entry.isSome = true) :
    Keeps kept must (Function.update find name entry) where
  kept name' found hfound := by
    by_cases hname : name' = name
    · subst hname
      rw [update_self] at hfound
      exact hkept found hfound
    · rw [update_of_ne hname] at hfound
      exact hkeeps.kept name' found hfound
  must name' hmust' := by
    by_cases hname : name' = name
    · subst hname
      rw [update_self]
      exact hmust hmust'
    · rw [update_of_ne hname]
      exact hkeeps.must name' hmust'

theorem Keeps.perform (hkeeps : Keeps kept must s.find)
    (hreads : ∀ name reg, s.find name = some reg → d.reads name reg)
    (hwrites : ∀ found reg now existing, d.writes found reg → kept reg.name (StoreEnv.prepare now existing reg))
    (hdeletes : ∀ found name, d.deletes found name → ¬must name) (hpermits : d.Permits svc t call)
    (fails : Nat → Option String) (now : Nat → Int) :
    Keeps kept must ((svc.perform t call).run (Records.act fails now) s).2.find := by
  cases call_cases hreads hpermits fails now with
  | unchanged hfind =>
    rw [hfind]
    exact hkeeps
  | upserted hallowed hfind =>
    rw [hfind]
    exact hkeeps.set (by rintro _ ⟨⟩; exact hwrites _ _ _ _ hallowed) fun _ => rfl
  | deleted hallowed hfind =>
    rw [hfind]
    exact hkeeps.set (by rintro _ ⟨⟩) fun hmust => absurd hmust (hdeletes _ _ hallowed)

theorem Keeps.empty : Keeps kept (fun _ => False) fun _ => none := by
  refine ⟨fun name reg hnone => ?_, fun _ hfalse => hfalse.elim⟩
  cases hnone

variable {fails : Nat → Option String} {now : Nat → Int}

theorem eq_of_serviceCalls_step (hstep : (serviceCalls svc fails now).step (t, call) s = some s') :
    s' = ((svc.perform t call).run (Records.act fails now) s).2 :=
  (Option.some.inj hstep).symm

theorem keeps_of_reachesUnder {P : Records → Nat × Call → Prop}
    (hreach : (serviceCalls svc fails now).ReachesUnder P s s') {d : Records → Discipline}
    (hreads : ∀ s name reg, Keeps kept must s.find → s.find name = some reg → (d s).reads name reg)
    (hwrites : ∀ s found reg now existing, (d s).writes found reg → kept reg.name (StoreEnv.prepare now existing reg))
    (hdeletes : ∀ s found name, (d s).deletes found name → ¬must name)
    (hpermits : ∀ s t call, P s (t, call) → (d s).Permits svc t call) (hkeeps : Keeps kept must s.find) :
    Keeps kept must s'.find := by
  refine machine.Machine.ReachesUnder.invariant (I := fun s => Keeps kept must s.find) hreach ?_ hkeeps
  rintro s ⟨t, call⟩ s' hs hcall hstep
  rw [eq_of_serviceCalls_step hstep]
  exact hs.perform (fun name reg => hreads s name reg hs) (hwrites s) (hdeletes s) (hpermits s t call hcall) fails now

structure ToolRegistration.Settled (reg : ToolRegistration) : Prop where
  status : reg.StatusAgrees
  valid : reg.Valid

structure DaemonToolService.BuildsEnabled (svc : DaemonToolService) : Prop where
  builder : ∀ t name transport config overlayPath reg,
    svc.mcpBuilder t name transport config overlayPath = .ok reg → reg.status ≠ .disabled
  refresher : ∀ t current reg, svc.mcpRefresher t current = .ok reg → reg.status ≠ .disabled

theorem newDaemonToolService_buildsEnabled (env : MCPEnv) : (newDaemonToolService env).BuildsEnabled where
  builder _ _ _ _ _ _ hbuild := (buildMCPRegistration_built hbuild).status
  refresher _ _ _ hrefresh := (refreshMCPRegistration_built hrefresh).status

def settledDiscipline : Discipline where
  reads _ reg := reg.Settled
  writes _ reg := reg.Settled

variable {reg next : ToolRegistration}

theorem statusAgrees_of_ite {status : Status} (hstatus : status ≠ .disabled)
    (hnext : next.status = if next.enabled then status else .disabled) : next.StatusAgrees := by
  simp_all [StatusAgrees]

theorem refreshed_statusAgrees (hbuilds : svc.BuildsEnabled) (hnext : svc.refreshed t reg = .ok next) :
    next.StatusAgrees := by
  obtain ⟨updated, hupdated, -, henabled, hstatus⟩ := refreshed_spec hnext
  rw [← henabled] at hstatus
  exact statusAgrees_of_ite (hbuilds.refresher _ _ _ hupdated) hstatus

theorem permits_settled (hbuilds : svc.BuildsEnabled) (call : Call) : settledDiscipline.Permits svc t call := by
  cases call with
  | register input =>
    intro reg hreg
    obtain ⟨base, hbase, rfl⟩ := registrationFromRegisterInput_spec hreg
    have hstatus : base.status ≠ .disabled := by
      cases hbase with
      | given hname hstatus =>
        rw [hstatus]
        exact Status.noConfusion
      | built hbuild => exact hbuilds.builder _ _ _ _ _ _ hbuild
    exact ⟨trivial, fun hvalid => ⟨⟨(finalizeRegistrationEnabledState_spec input.enabled hstatus).2, hvalid⟩, trivial⟩⟩
  | update name input =>
    refine ⟨trivial, fun reg hreg next hnext hvalid => ⟨⟨?_, hvalid⟩, trivial⟩⟩
    cases registrationFromUpdateInput_spec hnext with
    | rebuilt hrebuild hbuild hsame hstatus => exact statusAgrees_of_ite (hbuilds.builder _ _ _ _ _ _ hbuild) hstatus
    | changed hname hconfig hstatus => exact hstatus
  | updateConfig name input =>
    refine ⟨trivial, fun reg hreg next hnext => ⟨?_, trivial⟩⟩
    obtain ⟨hstate, hvalid, -⟩ := configUpdated_spec hnext
    refine ⟨?_, hvalid⟩
    unfold StatusAgrees
    rw [hstate.status, hstate.enabled]
    exact hreg.status
  | health name =>
    refine ⟨trivial, fun reg hreg => ?_⟩
    obtain ⟨hsame, henabled, hstatus⟩ := healthChecked_spec svc t reg
    exact ⟨by rwa [StatusAgrees, henabled], hsame.valid hreg.valid⟩
  | refresh name | updateOverlay name overlayPath =>
    exact ⟨trivial, fun reg _ next hnext hvalid => ⟨⟨refreshed_statusAgrees hbuilds hnext, hvalid⟩, trivial⟩⟩
  | setEnabled name enabled =>
    refine ⟨trivial, fun reg hreg => ⟨?_, trivial⟩⟩
    obtain ⟨hsame, henabled, hstatus⟩ := switched_spec svc t reg enabled
    exact ⟨by rwa [StatusAgrees, henabled], hsame.valid hreg.valid⟩
  | delete name => exact ⟨trivial, fun _ _ => trivial⟩

theorem settled_prepare (hreg : reg.Settled) (now : Int) (existing : Option ToolRegistration) :
    (StoreEnv.prepare now existing reg).Settled := by
  refine ⟨?_, hreg.valid.congr rfl rfl⟩
  have hstatus := hreg.status
  unfold StatusAgrees StoreEnv.prepare at *
  dsimp only
  split
  · next hunset =>
    rw [hunset] at hstatus
    refine iff_of_false Status.noConfusion fun henabled => ?_
    exact absurd (hstatus.mpr henabled) Status.noConfusion
  · exact hstatus

/-- After any calls of the service one after the other, the status of every stored
registration is disabled exactly if the registration is, and the registration is valid. -/
theorem stored_registrations_settled (svc : DaemonToolService) (hbuilds : svc.BuildsEnabled)
    (fails : Nat → Option String) (now : Nat → Int) (s : Records) (hreach : (serviceCalls svc fails now).Reachable s)
    (name : String) (reg : ToolRegistration) (hfind : s.find name = some reg) :
    (reg.status = .disabled ↔ reg.enabled = false) ∧ validateConfigOnlyRegistration reg = .ok () := by
  have hkeeps : Keeps (fun _ reg => reg.Settled) (fun _ => False) s.find :=
    keeps_of_reachesUnder (d := fun _ => settledDiscipline) hreach (fun _ name reg hs => hs.kept name reg)
      (fun _ _ _ now existing hreg => settled_prepare hreg now existing) (fun _ _ _ _ hfalse => hfalse)
      (fun _ _ call _ => permits_settled hbuilds call) Keeps.empty
  obtain ⟨hstatus, hvalid⟩ := hkeeps.kept name reg hfind
  exact ⟨hstatus, hvalid⟩

def crmServer : MCPEnv where
  toLower text := text
  checkHTTP _ _ := none
  checkStdio _ _ := none
  checkMCP _ _ := none
  equalFold a b := a == b
  readOverlay _ path :=
    if path = "crm.yaml" then
      .ok { overlayVersion := "1.0",
            config := Dict.empty.insert "token" { spec := { type := "string", sensitive := true } } }
    else .error "no such file"
  listTools _ _ _ _ _ := .ok [{ name := "Find Contact" }]
  evaluateMCPHealth _ reg := { toolName := reg.name, state := .healthy, checkedAt := 0 }
  now t := t

def crmCalls : Machine Records (Nat × Call) :=
  serviceCalls (newDaemonToolService crmServer) (fun _ => none) fun n => n

def registerCrm (overlayPath : String) : Call :=
  .register { name := "crm", origin := .mcp, overlayPath,
              mcpTransport := some { mode := .stdio, command := "crm-server" } }

theorem stored_registrations_settled_switchedOff :
    ∃ s reg, crmCalls.Reachable s ∧ s.find "crm" = some reg ∧ reg.enabled = false ∧
      (reg.status = .disabled ↔ reg.enabled = false) ∧ validateConfigOnlyRegistration reg = .ok () := by
  obtain ⟨s, hreach, hstored⟩ := machine.Machine.exists_reachable_of_exec (m := crmCalls)
    [(0, registerCrm "crm.yaml"), (1, .setEnabled " crm" false), (2, .refresh "crm"), (3, .health "crm")]
    (fun s => (s.find "crm").any fun reg => !reg.enabled) (by decide +kernel)
  obtain ⟨reg, hfind, henabled⟩ := (Option.any_eq_true _ _).mp hstored
  refine ⟨s, reg, hreach, hfind, by simpa using henabled, ?_⟩
  exact stored_registrations_settled _ (newDaemonToolService_buildsEnabled crmServer) _ _ s hreach _ reg hfind

def maskedSecretValue : String := "**********"

def maskSensitiveConfig (specs : Dict String FieldSpec) (values : Dict String String) : Dict String String :=
  values.mapEntries fun key value =>
    if (specs.get? key).any (·.sensitive) ∧ trimSpace value ≠ "" then maskedSecretValue else value

def redactRegistration (reg : ToolRegistration) : ToolRegistration :=
  { reg with config := maskSensitiveConfig reg.manifest.config reg.config }

/-- A registration guards the secret of a key: the field is sensitive, its value is
masked where it is shown and encrypted where it is stored, and it is not set as plain text. -/
structure ToolRegistration.Guards (reg : ToolRegistration) (key : String) : Prop where
  sensitive : reg.manifest.sensitive key = true
  masked : ∀ value, (redactRegistration reg).config.get? key = some value →
    value = maskedSecretValue ∨ trimSpace value = ""
  encrypted : ∀ (Payload : Type) (env : StoreEnv Payload) (t : Nat) (row : ToolRegistration),
    encryptSensitiveRegistration env t reg = .ok row → ∀ value, reg.config.get? key = some value →
      trimSpace value ≠ "" → ∃ encrypted, row.config.get? key = some encrypted ∧
        env.codec.encrypt (env.nonce t key) value = .ok encrypted
  notPlain : ∀ input : ConfigUpdateInput, (∃ entry ∈ input.set, trimSpace entry.1 = key) →
    ∀ next, DaemonToolService.configUpdated reg input ≠ .ok next

variable {key : String} (hsensitive : reg.manifest.sensitive key = true)
include hsensitive

theorem redactRegistration_masks {value : String} (hvalue : (redactRegistration reg).config.get? key = some value) :
    value = maskedSecretValue ∨ trimSpace value = "" := by
  rw [redactRegistration, maskSensitiveConfig, Dict.get?_mapEntries] at hvalue
  obtain ⟨plain, -, rfl⟩ := map_eq_some_iff.mp hvalue
  by_cases hblank : trimSpace plain = ""
  · rw [if_neg fun hmask => hmask.2 hblank]
    exact .inr hblank
  · rw [if_pos ⟨hsensitive, hblank⟩]
    exact .inl rfl

theorem encryptSensitiveRegistration_encrypts {Payload : Type} {env : StoreEnv Payload}
    {row : ToolRegistration} (hrow : encryptSensitiveRegistration env t reg = .ok row) {value : String}
    (hvalue : reg.config.get? key = some value) (hfilled : trimSpace value ≠ "") :
    ∃ encrypted, row.config.get? key = some encrypted ∧ env.codec.encrypt (env.nonce t key) value = .ok encrypted := by
  obtain ⟨config, hconvert, rfl⟩ := fold.map_eq_ok.mp hrow
  have hrel := convertSensitive_converts hconvert key
  rw [hvalue, hsensitive] at hrel
  dsimp only
  generalize config.get? key = value' at hrel ⊢
  cases hrel with
  | @some _ encrypted hencrypted => simp_all [converted]

theorem guards_of_sensitive : reg.Guards key where
  sensitive := hsensitive
  masked _ hvalue := redactRegistration_masks hsensitive hvalue
  encrypted _ _ _ _ hrow _ hvalue hfilled := encryptSensitiveRegistration_encrypts hsensitive hrow hvalue hfilled
  notPlain input hset next hnext := by
    obtain ⟨entry, hentry, rfl⟩ := hset
    have hplain := (configUpdated_spec hnext).2.2.1 entry hentry
    rw [hsensitive] at hplain
    cases hplain

omit hsensitive

def MCPEnv.Declares (env : MCPEnv) (t : Nat) (overlayPath key : String) : Prop :=
  trimSpace overlayPath ≠ "" ∧
    ∀ overlay, env.readOverlay t overlayPath = .ok overlay → (overlay.config.get? key).any (·.spec.sensitive) = true

/-- The calls after which a field is still sensitive: where the manifest is built anew,
the overlay declares the field, and no other manifest and no other tool takes its place. -/
def KeepsMark (env : MCPEnv) (name key : String) (s : Records) : Nat × Call → Prop
  | (_, .register input) => trimSpace input.name ≠ name
  | (t, .update name' input) => trimSpace name' = name → input.manifest = none ∧
      ∀ reg, s.find name = some reg → resolveUpdateOrigin reg input = .mcp →
        env.Declares t (resolveUpdatedOverlayPath reg.overlay input.overlayPath) key
  | (t, .refresh name') => trimSpace name' = name →
      ∀ reg, s.find name = some reg → env.Declares t ((reg.overlay.map (·.path)).getD "") key
  | (t, .updateOverlay name' overlayPath) => trimSpace name' = name → env.Declares t (trimSpace overlayPath) key
  | _ => True

structure Marked (name key name' : String) (reg : ToolRegistration) : Prop where
  named : reg.name = name'
  sensitive : name' = name → reg.manifest.sensitive key = true

def markDiscipline (name key : String) (s : Records) : Discipline where
  reads name' reg := s.find name' = some reg ∧ Marked name key name' reg
  writes _ reg := reg.name = name → reg.manifest.sensitive key = true

variable {env : MCPEnv}

theorem Built.sensitive_of_declares {name' overlayPath : String} (hbuilt : reg.Built env t name' overlayPath)
    (hdeclares : env.Declares t overlayPath key) : reg.manifest.sensitive key = true := by
  obtain ⟨overlay, hoverlay, hsensitive⟩ := hbuilt.sensitive
  rw [hsensitive key]
  rw [parseOverlay, if_neg hdeclares.1] at hoverlay
  split at hoverlay
  · cases hoverlay
  · next parsed hread =>
    obtain ⟨-, hoverlay⟩ := fold.ite_error_eq_ok.mp hoverlay
    cases hoverlay
    exact hdeclares.2 parsed hread

theorem overlayOf_path (path : String) : ((overlayOf path).map (·.path)).getD "" = path := by
  unfold overlayOf
  split
  · next hempty => exact hempty.symm
  · rfl

theorem permits_mark (hkeeps : KeepsMark env name key s (t, call)) :
    (markDiscipline name key s).Permits (newDaemonToolService env) t call := by
  cases call with
  | register input =>
    intro reg hreg
    refine ⟨trivial, fun _ => ⟨fun hname => ?_, trivial⟩⟩
    rw [registered_name hreg] at hname
    exact absurd hname hkeeps
  | update name' input =>
    refine ⟨trivial, ?_⟩
    rintro reg ⟨hfind, hmarked⟩ next hnext -
    refine ⟨fun hname => ?_, trivial⟩
    rw [updated_name hnext, hmarked.named] at hname
    obtain ⟨hmanifest, hdeclares⟩ := hkeeps hname
    cases registrationFromUpdateInput_spec hnext with
    | rebuilt hrebuild hbuild hsame hstatus =>
      rw [hsame.manifest]
      refine Built.sensitive_of_declares (buildMCPRegistration_built hbuild) (hdeclares reg (hname ▸ hfind) ?_)
      exact (of_decide_eq_true hrebuild).1
    | changed hname' hconfig hstatus =>
      have hsensitive := hmarked.sensitive hname
      grind [ToolManifest.sensitive]
  | updateConfig name' input =>
    refine ⟨trivial, ?_⟩
    rintro reg ⟨-, hmarked⟩ next hnext
    obtain ⟨hstate, -, -, hmarks⟩ := configUpdated_spec hnext
    refine ⟨fun hname => ?_, trivial⟩
    rw [hstate.name, hmarked.named] at hname
    exact (hmarks key).mpr (.inr (hmarked.sensitive hname))
  | health name' =>
    refine ⟨trivial, ?_⟩
    rintro reg ⟨-, hmarked⟩ hname
    obtain ⟨hsame, -⟩ := healthChecked_spec (newDaemonToolService env) t reg
    rw [hsame.name, hmarked.named] at hname
    rw [hsame.manifest]
    exact hmarked.sensitive hname
  | refresh name' =>
    refine ⟨trivial, ?_⟩
    rintro reg ⟨hfind, hmarked⟩ next hnext -
    refine ⟨fun hname => ?_, trivial⟩
    rw [refreshed_name hnext, hmarked.named] at hname
    obtain ⟨updated, hbuilt, hsame, -⟩ := refreshed_built hnext
    rw [hsame.manifest]
    exact Built.sensitive_of_declares hbuilt (hkeeps hname reg (hname ▸ hfind))
  | updateOverlay name' overlayPath =>
    refine ⟨trivial, ?_⟩
    rintro reg ⟨hfind, hmarked⟩ next hnext -
    refine ⟨fun hname => ?_, trivial⟩
    rw [refreshed_name hnext] at hname
    obtain ⟨updated, hbuilt, hsame, -⟩ := refreshed_built hnext
    dsimp only at hbuilt
    rw [overlayOf_path] at hbuilt
    rw [hsame.manifest]
    exact Built.sensitive_of_declares hbuilt (hkeeps (hmarked.named.symm.trans hname))
  | setEnabled name' enabled =>
    refine ⟨trivial, ?_⟩
    rintro reg ⟨-, hmarked⟩
    obtain ⟨hsame, -⟩ := switched_spec (newDaemonToolService env) t reg enabled
    refine ⟨fun hname => ?_, trivial⟩
    rw [hsame.name, hmarked.named] at hname
    rw [hsame.manifest]
    exact hmarked.sensitive hname
  | delete name' => exact ⟨trivial, fun _ _ => trivial⟩

theorem reachable_named (hreach : (serviceCalls svc fails now).Reachable s) :
    Keeps (fun name reg => reg.name = name) (fun _ => False) s.find :=
  keeps_of_reachesUnder (d := fun _ => freeDiscipline) hreach (fun _ _ _ _ _ => trivial) (fun _ _ _ _ _ _ => rfl)
    (fun _ _ _ _ hfalse => hfalse) (fun _ t call _ => permits_free svc t call) Keeps.empty

def secretDiscipline (name key : String) : Discipline where
  reads name' reg := reg.name = name'
  writes _ reg := reg.name = name ∧ reg.manifest.sensitive key = true
  deletes _ _ := False

theorem updateConfig_marks {input : ConfigUpdateInput} {entry : String × String}
    (hentry : entry ∈ input.setSecret) (hnamed : Keeps (fun name reg => reg.name = name) (fun _ => False) s.find)
    (hstep : (serviceCalls svc fails now).step (t, .updateConfig name input) s = some s')
    (hstored : s'.stored ≠ s.stored) :
    Keeps (Marked (trimSpace name) (trimSpace entry.1)) (fun _ => False) s'.find := by
  have hpermits : (secretDiscipline (trimSpace name) (trimSpace entry.1)).Permits svc t (.updateConfig name input) := by
    refine ⟨trivial, fun reg hreads next hnext => ⟨?_, trivial⟩⟩
    obtain ⟨hstate, -, -, hmarks⟩ := configUpdated_spec hnext
    exact ⟨hstate.name.trans hreads, (hmarks _).mpr (.inl ⟨entry, hentry, rfl⟩)⟩
  rw [eq_of_serviceCalls_step hstep] at hstored ⊢
  cases call_cases hnamed.kept hpermits fails now with
  | unchanged hfind hstored' => exact absurd hstored' hstored
  | upserted hwrites hfind =>
    rw [hfind]
    refine ⟨fun name' reg hfound => ?_, fun _ hfalse => hfalse.elim⟩
    by_cases hname : name' = trimSpace name
    · rw [hname, ← hwrites.1, Function.update_self] at hfound
      cases hfound
      exact ⟨hwrites.1.trans hname.symm, fun _ => hwrites.2⟩
    · rw [Function.update_of_ne (hwrites.1 ▸ hname)] at hfound
      exact ⟨hnamed.kept name' reg hfound, fun heq => absurd heq hname⟩
  | deleted hdeletes => exact hdeletes.elim

/-- Once a secret was stored for a key of a tool, the registration of the tool guards it
after any later calls that keep the mark. -/
theorem stored_secret_stays_guarded (env : MCPEnv) (fails : Nat → Option String) (now : Nat → Int) (s₀ s₁ s : Records)
    (hreach : (serviceCalls (newDaemonToolService env) fails now).Reachable s₀)
    (t : Nat) (name : String) (input : ConfigUpdateInput) (entry : String × String) (hentry : entry ∈ input.setSecret)
    (hupdate : (serviceCalls (newDaemonToolService env) fails now).step (t, .updateConfig name input) s₀ = some s₁)
    (hstored : s₁.stored ≠ s₀.stored) (hlater : (serviceCalls (newDaemonToolService env) fails now).ReachesUnder
      (KeepsMark env (trimSpace name) (trimSpace entry.1)) s₁ s)
    (reg : ToolRegistration) (hfind : s.find (trimSpace name) = some reg) : reg.Guards (trimSpace entry.1) := by
  have hmarked := updateConfig_marks hentry (reachable_named hreach) hupdate hstored
  have hkeeps : Keeps (Marked (trimSpace name) (trimSpace entry.1)) (fun _ => False) s.find :=
    keeps_of_reachesUnder (d := markDiscipline (trimSpace name) (trimSpace entry.1)) hlater
      (fun s name' reg hs hfound => ⟨hfound, hs.kept name' reg hfound⟩) (fun _ _ _ _ _ hwrites => ⟨rfl, hwrites⟩)
      (fun _ _ _ _ hfalse => hfalse) (fun _ _ _ hcall => permits_mark hcall) hmarked
  exact guards_of_sensitive ((hkeeps.kept _ reg hfind).sensitive rfl)

def setToken : Call := .updateConfig "crm" { setSecret := [("token", "s3cret")] }

theorem stored_secret_stays_guarded_refresh :
    ∃ (s : Records) (reg : ToolRegistration),
      s.find "crm" = some reg ∧ reg.config.get? "token" = some "s3cret" ∧ reg.Guards "token" := by
  have hrun : (crmCalls.exec [(0, registerCrm "crm.yaml")] crmCalls.init).any (fun s₀ =>
      (crmCalls.step (1, setToken) s₀).any fun s₁ =>
        (s₁.stored ≠ s₀.stored && (s₁.find "crm").all fun reg => reg.overlay = some { path := "crm.yaml" }) &&
          (crmCalls.step (2, .refresh "crm") s₁).any fun s =>
            (s.find "crm").any fun reg => reg.config.get? "token" = some "s3cret") = true := by
    decide +kernel
  obtain ⟨s₀, hregister, hrun⟩ := (any_eq_true _ _).mp hrun
  obtain ⟨s₁, hset, hrun⟩ := (any_eq_true _ _).mp hrun
  obtain ⟨hbefore, hrun⟩ := (Bool.and_eq_true _ _).mp hrun
  obtain ⟨hstored, hoverlay⟩ := (Bool.and_eq_true _ _).mp hbefore
  obtain ⟨s, hrefresh, hrun⟩ := (any_eq_true _ _).mp hrun
  obtain ⟨reg, hfind, hvalue⟩ := (any_eq_true _ _).mp hrun
  have hkeeps : KeepsMark crmServer (trimSpace "crm") (trimSpace "token") s₁ (2, .refresh "crm") := by
    intro _ reg hfind
    rw [show trimSpace "crm" = "crm" by decide] at hfind
    rw [hfind, all_some, decide_eq_true_eq] at hoverlay
    rw [hoverlay]
    refine ⟨by decide, fun overlay hread => ?_⟩
    cases hread
    decide
  refine ⟨s, reg, hfind, of_decide_eq_true hvalue, ?_⟩
  exact stored_secret_stays_guarded crmServer _ _ s₀ s₁ s
    (machine.Machine.stepsUnder_of_exec hregister).reaches.reaches 1
    "crm" _ ("token", "s3cret") (List.mem_singleton.mpr rfl) hset (of_decide_eq_true hstored)
    (Relation.ReflTransGen.single ⟨_, hkeeps, hrefresh⟩) reg hfind

/-- A refresh without an overlay drops the mark: the secret is shown and stored as it is,
and it may be set as plain text. -/
theorem refreshed_secret_shown :
    (crmCalls.exec [(0, registerCrm ""), (1, setToken)] crmCalls.init).any (fun s =>
      s.stored = 2 && (s.find "crm").any fun reg => reg.manifest.sensitive "token") = true ∧
    (crmCalls.exec [(0, registerCrm ""), (1, setToken), (2, .refresh "crm")] crmCalls.init).any (fun s =>
      (s.find "crm").any fun reg =>
        !reg.manifest.sensitive "token" && (redactRegistration reg).config.get? "token" = some "s3cret" &&
          (encryptSensitiveRegistration plainStore 3 reg).toOption.any (fun row =>
            row.config.get? "token" = some "s3cret") &&
          (DaemonToolService.configUpdated reg { set := [("token", "other")] }).toOption.isSome) = true := by
  decide +kernel

end petalflow.tool
