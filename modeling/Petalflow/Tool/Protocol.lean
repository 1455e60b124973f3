import Petalflow.Tool.Service

open program (Program Protocol Obeys obeys_bind obeys_fail obeys_map obeys_ofExcept_bind obeys_perform_bind obeys_pure)
open text (trimSpace)

namespace petalflow.tool

open DaemonToolService

/-- How far a method is: it has read what is registered, and then it has written. -/
inductive Progress where
  | started
  | read (found : Option ToolRegistration)
  | written

/-- A discipline for the methods of the service: the names they may read, what is to be
found there, and what they may write or delete after what they have read. -/
structure Discipline where
  names : String → Prop := fun _ => True
  reads : String → ToolRegistration → Prop
  writes : Option ToolRegistration → ToolRegistration → Prop
  deletes : Option ToolRegistration → String → Prop := fun _ _ => True

def remember : Progress → (op : StoreOp) → op.Res → Progress
  | .written, .get _, _ => .written
  | _, .get _, .ok found => .read found
  | _, .get _, .error _ => .started
  | _, .upsert _, _ => .written
  | _, .delete _, _ => .written

/-- A method writes once, after a read. What it reads afterwards is of no importance. -/
def Discipline.protocol (d : Discipline) : Protocol StoreOp StoreOp.Res Progress where
  allowed
    | _, .get name => d.names name
    | .read found, .upsert reg => d.writes found reg
    | .read found, .delete name => d.deletes found name
    | _, _ => False
  answers
    | .started, .get name, answer => ∀ reg, answer = .ok (some reg) → d.reads name reg
    | _, _, _ => True
  next := remember

variable {g : Progress} {op : StoreOp}

theorem read_of_allowed {d : Discipline} (hallowed : d.protocol.allowed g op) (hop : ∀ name, op ≠ .get name) :
    ∃ found, g = .read found := by
  cases op with
  | get name => exact absurd rfl (hop name)
  | upsert reg | delete name =>
    cases g with
    | started | written => exact hallowed.elim
    | read found => exact ⟨found, rfl⟩

theorem remember_write (answer : op.Res) (hop : ∀ name, op ≠ .get name) : remember g op answer = .written := by
  cases op with
  | get name => exact absurd rfl (hop name)
  | upsert reg | delete name => cases g <;> rfl

def Discipline.Permits (d : Discipline) (svc : DaemonToolService) (t : Nat) : Call → Prop
  | .register input => ∀ reg, svc.registrationFromRegisterInput t input = .ok reg →
      d.names (trimSpace reg.name) ∧ (reg.Valid → d.writes none reg ∧ d.names reg.name)
  | .update name input => d.names (trimSpace name) ∧ ∀ reg, d.reads (trimSpace name) reg →
      ∀ next, svc.registrationFromUpdateInput t reg input = .ok next → next.Valid →
        d.writes (some reg) next ∧ d.names next.name
  | .updateConfig name input => d.names (trimSpace name) ∧ ∀ reg, d.reads (trimSpace name) reg →
      ∀ next, DaemonToolService.configUpdated reg input = .ok next → d.writes (some reg) next ∧ d.names next.name
  | .health name => d.names (trimSpace name) ∧ ∀ reg, d.reads (trimSpace name) reg →
      d.writes (some reg) (svc.healthChecked t reg).1
  | .refresh name => d.names (trimSpace name) ∧ ∀ reg, d.reads (trimSpace name) reg →
      ∀ next, svc.refreshed t reg = .ok next → next.Valid → d.writes (some reg) next ∧ d.names next.name
  | .updateOverlay name overlayPath => d.names (trimSpace name) ∧ ∀ reg, d.reads (trimSpace name) reg →
      ∀ next, svc.refreshed t { reg with overlay := overlayOf (trimSpace overlayPath) } = .ok next → next.Valid →
        d.writes (some reg) next ∧ d.names next.name
  | .setEnabled name enabled => d.names (trimSpace name) ∧ ∀ reg, d.reads (trimSpace name) reg →
      d.writes (some reg) (svc.switched t reg enabled) ∧ d.names (svc.switched t reg enabled).name
  | .delete name => d.names (trimSpace name) ∧ ∀ reg, d.reads (trimSpace name) reg →
      d.deletes (some reg) (trimSpace name)

def freeDiscipline : Discipline where
  reads _ _ := True
  writes _ _ := True

theorem permits_free (svc : DaemonToolService) (t : Nat) (call : Call) : freeDiscipline.Permits svc t call := by
  cases call with
  | register input => exact fun _ _ => ⟨trivial, fun _ => ⟨trivial, trivial⟩⟩
  | update name input | refresh name | updateOverlay name overlayPath =>
    exact ⟨trivial, fun _ _ _ _ _ => ⟨trivial, trivial⟩⟩
  | updateConfig name input => exact ⟨trivial, fun _ _ _ _ => ⟨trivial, trivial⟩⟩
  | health name | delete name => exact ⟨trivial, fun _ _ => trivial⟩
  | setEnabled name enabled => exact ⟨trivial, fun _ _ => ⟨trivial, trivial⟩⟩

variable {d : Discipline} {svc : DaemonToolService} {t : Nat} {found : Option ToolRegistration}
  {α : Type}
  {post : Progress → α → Prop}

variable {name : String}

theorem obeys_storeGet (hname : d.names name) {f : Except String (Option ToolRegistration) → Method α}
    (herror : ∀ err, Obeys d.protocol post .started (f (.error err)))
    (hmissing : Obeys d.protocol post (.read none) (f (.ok none)))
    (hfound : ∀ reg, d.reads name reg → Obeys d.protocol post (.read (some reg)) (f (.ok (some reg)))) :
    Obeys d.protocol post .started (storeGet name >>= f) := by
  refine obeys_perform_bind hname fun answer hanswer => ?_
  match answer with
  | .error err => exact herror err
  | .ok none => exact hmissing
  | .ok (some reg) => exact hfound reg (hanswer reg rfl)

variable {reg : ToolRegistration} {f : Option String → Method α}

theorem obeys_storeUpsert (hwrites : d.writes found reg)
    (hnext : ∀ answer, Obeys d.protocol post .written (f answer)) :
    Obeys d.protocol post (.read found) (storeUpsert reg >>= f) :=
  obeys_perform_bind hwrites fun answer _ => hnext answer

theorem obeys_storeDelete (hdeletes : d.deletes found name)
    (hnext : ∀ answer, Obeys d.protocol post .written (f answer)) :
    Obeys d.protocol post (.read found) (storeDelete name >>= f) :=
  obeys_perform_bind hdeletes fun answer _ => hnext answer

theorem obeys_getMutableRegistration (hname : d.names (trimSpace name)) {f : ToolRegistration → Method α}
    (hnext : ∀ reg, d.reads (trimSpace name) reg → Obeys d.protocol post (.read (some reg)) (f reg)) :
    Obeys d.protocol post .started (getMutableRegistration name >>= f) := by
  unfold getMutableRegistration
  split
  · exact obeys_fail _
  · exact obeys_storeGet hname (fun _ => obeys_fail _) (obeys_fail _) hnext

theorem obeys_mustGetStored (hname : d.names name) :
    Obeys d.protocol (fun _ _ => True) .written (mustGetStored name) := by
  refine obeys_perform_bind hname fun answer _ => ?_
  match answer with
  | .error err => exact obeys_fail _
  | .ok none => exact obeys_fail _
  | .ok (some reg) => exact obeys_pure trivial

theorem obeys_store (hwrites : d.writes found reg) (hname : d.names reg.name) :
    Obeys d.protocol (fun _ _ => True) (.read found) (DaemonToolService.store reg) := by
  apply obeys_storeUpsert hwrites
  grind [obeys_fail, obeys_mustGetStored]

theorem hasValidationErrors_report (diags : List Diagnostic) (field code message : String) :
    hasValidationErrors (diags ++ report field code message) = true := by
  rw [hasValidationErrors_append]
  exact Bool.or_true _

theorem obeys_validateRegistrationName (hname : d.names (trimSpace reg.name)) :
    Obeys d.protocol (fun g diags => hasValidationErrors diags = false → g = .read none) .started
      (validateRegistrationName true reg) := by
  unfold validateRegistrationName
  dsimp only
  by_cases hblank : trimSpace reg.name = ""
  · rw [if_pos hblank]
    apply obeys_pure
    intro hnone
    rw [← List.nil_append (report _ _ _), hasValidationErrors_report] at hnone
    cases hnone
  simp_all [obeys_storeGet, obeys_pure, hasValidationErrors_report]

theorem obeys_validateExistingName :
    Obeys d.protocol (fun g' _ => g' = g) g (validateRegistrationName false reg) := by
  grind [validateRegistrationName, obeys_pure]

theorem obeys_validateNewRegistration {env : ToolEnv} {existing : Bool} {g' : Progress}
    (hname : Obeys d.protocol (fun g'' diags => hasValidationErrors diags = false →
      g'' = g') g (validateRegistrationName (!existing) reg)) :
    Obeys d.protocol (fun g'' _ => reg.Valid ∧ g'' = g') g (validateNewRegistration env t existing reg) := by
  refine obeys_bind hname ?_
  intro g'' named hnamed
  dsimp only
  by_cases herrors : hasValidationErrors (newRegistrationDiagnostics env t named reg) = true
  · rw [if_pos herrors]
    exact obeys_fail _
  · rw [if_neg herrors]
    rw [Bool.not_eq_true] at herrors
    grind [valid_of_newRegistrationDiagnostics, obeys_pure]

theorem obeys_register {input : RegisterToolInput} (hpermits : d.Permits svc t (.register input)) :
    Obeys d.protocol (fun _ _ => True) .started (svc.register t input) := by
  apply obeys_ofExcept_bind
  intro reg hreg
  obtain ⟨hname, hwrites⟩ := hpermits reg hreg
  refine obeys_bind (obeys_validateNewRegistration (obeys_validateRegistrationName hname)) ?_
  grind [obeys_store]

theorem obeys_validateThenStore {made : Except ToolError ToolRegistration}
    (hwrites : ∀ next, made = .ok next → next.Valid → d.writes found next ∧ d.names next.name) :
    Obeys d.protocol (fun _ _ => True) (.read found) (do
      let next ← Program.ofExcept made
      validateNewRegistration svc.env t true next
      DaemonToolService.store next) := by
  apply obeys_ofExcept_bind
  intro next hnext
  have hname : Obeys d.protocol (fun g diags => hasValidationErrors diags = false → g = .read found) (.read found)
      (validateRegistrationName (!true) next) :=
    obeys_validateExistingName.mono fun _ _ hsame _ => hsame
  refine obeys_bind (obeys_validateNewRegistration hname) ?_
  grind [obeys_store]

theorem obeys_update {input : UpdateToolInput} (hpermits : d.Permits svc t (.update name input)) :
    Obeys d.protocol (fun _ _ => True) .started (svc.update t name input) := by
  apply obeys_getMutableRegistration hpermits.1
  intro reg hreads
  exact obeys_validateThenStore (hpermits.2 reg hreads)

theorem obeys_updateConfig {input : ConfigUpdateInput} (hpermits : d.Permits svc t (.updateConfig name input)) :
    Obeys d.protocol (fun _ _ => True) .started (updateConfig name input) := by
  apply obeys_getMutableRegistration hpermits.1
  intro reg hreads
  apply obeys_ofExcept_bind
  intro next hnext
  obtain ⟨hwrites, hname⟩ := hpermits.2 reg hreads next hnext
  exact obeys_store hwrites hname

theorem obeys_health (hpermits : d.Permits svc t (.health name)) :
    Obeys d.protocol (fun _ _ => True) .started (svc.health t name) := by
  unfold health
  dsimp only
  split
  · exact obeys_fail _
  · apply obeys_storeGet hpermits.1
    · exact fun _ => obeys_fail _
    · dsimp only
      split
      · exact obeys_fail _
      · exact obeys_pure trivial
    · intro reg hreads
      apply obeys_storeUpsert (hpermits.2 reg hreads)
      intro answer
      cases answer with
      | some err => exact obeys_fail _
      | none => exact obeys_bind (obeys_mustGetStored hpermits.1) fun _ _ _ => obeys_pure trivial

theorem obeys_refresh (hpermits : d.Permits svc t (.refresh name)) :
    Obeys d.protocol (fun _ _ => True) .started (svc.refresh t name) := by
  apply obeys_getMutableRegistration hpermits.1
  intro reg hreads
  split
  · exact obeys_fail _
  · exact obeys_validateThenStore (hpermits.2 reg hreads)

theorem obeys_updateOverlay {overlayPath : String} (hpermits : d.Permits svc t (.updateOverlay name overlayPath)) :
    Obeys d.protocol (fun _ _ => True) .started (svc.updateOverlay t name overlayPath) := by
  apply obeys_getMutableRegistration hpermits.1
  intro reg hreads
  split
  · exact obeys_fail _
  · exact obeys_validateThenStore (hpermits.2 reg hreads)

theorem obeys_setEnabled {enabled : Bool} (hpermits : d.Permits svc t (.setEnabled name enabled)) :
    Obeys d.protocol (fun _ _ => True) .started (svc.setEnabled t name enabled) := by
  apply obeys_getMutableRegistration hpermits.1
  intro reg hreads
  obtain ⟨hwrites, hname⟩ := hpermits.2 reg hreads
  exact obeys_store hwrites hname

theorem obeys_delete (hpermits : d.Permits svc t (.delete name)) :
    Obeys d.protocol (fun _ _ => True) .started (DaemonToolService.delete name) := by
  unfold DaemonToolService.delete
  dsimp only
  split
  · exact obeys_fail _
  · apply obeys_storeGet hpermits.1
    · exact fun _ => obeys_fail _
    · exact obeys_fail _
    · intro reg hreads
      apply obeys_storeDelete (hpermits.2 reg hreads)
      intro answer
      cases answer with
      | some err => exact obeys_fail _
      | none => exact obeys_pure trivial

theorem obeys_call {call : Call} (hpermits : d.Permits svc t call) :
    Obeys d.protocol (fun _ _ => True) .started (svc.perform t call) := by
  cases call with
  | register input => exact obeys_map (obeys_register hpermits)
  | update name input => exact obeys_map (obeys_update hpermits)
  | updateConfig name input => exact obeys_map (obeys_updateConfig hpermits)
  | health name => exact obeys_map (obeys_health hpermits)
  | refresh name => exact obeys_map (obeys_refresh hpermits)
  | updateOverlay name overlayPath => exact obeys_map (obeys_updateOverlay hpermits)
  | setEnabled name enabled => exact obeys_map (obeys_setEnabled hpermits)
  | delete name => exact obeys_map (obeys_delete hpermits)

end petalflow.tool
