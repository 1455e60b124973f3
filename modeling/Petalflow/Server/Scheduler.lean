import Petalflow.Lib.Machine
import Petalflow.Server.Schedules

open calendar table machine Option

namespace petalflow.server

open ScheduleTable

section

open fold Function

/-- A pass of a scheduler: between two schedules, before the update of one, and
before the run of one is started. -/
inductive Pass where
  | idle
  | looping (now : Time) (due : List WorkflowSchedule)
  | checked (now : Time) (schedule : WorkflowSchedule) (active : Bool) (due : List WorkflowSchedule)
  | updated (now : Time) (schedule : WorkflowSchedule) (due : List WorkflowSchedule)

/-- A run of a schedule: in progress, with its result still to be stored, and
still marked as active. -/
inductive ScheduledRun where
  | idle
  | running (schedule : WorkflowSchedule) (scheduledAt : Time)
  | loaded (latest : WorkflowSchedule)
  | leaving (scheduleID : String)

def Pass.snapshots : Pass → List WorkflowSchedule
  | .looping _ due => due
  | .checked _ schedule _ due => schedule :: due
  | .updated _ _ due => due
  | .idle => []

def ScheduledRun.snapshots : ScheduledRun → List WorkflowSchedule
  | .loaded latest => [latest]
  | _ => []

/-- The store, the passes and runs that are in progress, the updates of users that
have read a schedule, and the due times for which runs were started. -/
structure Scheduling where
  table : ScheduleTable
  active : List String
  passes : Nat → Pass
  runs : Nat → ScheduledRun
  updates : Nat → Option WorkflowSchedule
  started : List (String × Time)

/-- The calls of the store, and what happens to the marks between them. A call of
the store that writes has the time of the store, or fails. -/
inductive SchedulingLabel where
  | list (pass : Nat) (now : Time)
  | check (pass : Nat)
  | process (pass : Nat) (call : Option Time)
  | start (pass run : Nat)
  | load (run : Nat) (finish : Time) (result : Except String String) (ok : Bool)
  | record (run : Nat) (call : Option Time)
  | leave (run : Nat)
  | get (update : Nat) (workflowID scheduleID : String)
  | put (update : Nat) (req : WorkflowScheduleRequest) (now : Time) (call : Option Time)
  | create (id workflowID : String) (req : WorkflowScheduleRequest) (now : Time) (call : Option Time)
  | delete (workflowID scheduleID : String)
  | deleteByWorkflow (workflowID : String)

/-- The update of a schedule that was read before: what is answered, and the store then. -/
def handleUpdateWorkflowSchedule (lib : ScheduleLibrary) (table : ScheduleTable) (existing : WorkflowSchedule)
    (req : WorkflowScheduleRequest) (now : Time) (call : Option Time) : Option (WorkflowSchedule × ScheduleTable) := do
  let next ← (applyScheduleRequest lib existing req false now).toOption
  let next := { next with updatedAt := now }
  let clock ← call
  let table ← table.updateSchedule clock next
  return (next, table)

/-- A new schedule: what is answered, and the store then. -/
def handleCreateWorkflowSchedule (lib : ScheduleLibrary) (table : ScheduleTable) (id workflowID : String)
    (req : WorkflowScheduleRequest) (now : Time) (call : Option Time) : Option (WorkflowSchedule × ScheduleTable) := do
  let schedule : WorkflowSchedule :=
    { id, workflowID, cron := "", enabled := true, input := none, options := {}, nextRunAt := Time.zero
      lastRunAt := none, lastRunID := "", lastStatus := none, lastError := "", createdAt := now, updatedAt := now }
  let updated ← (applyScheduleRequest lib schedule req true now).toOption
  let clock ← call
  let table ← table.createSchedule clock updated
  return (updated, table)

namespace Scheduling

variable (lib : ScheduleLibrary) (batchLimit : Nat) (s : Scheduling)

def setPass (pass : Nat) (phase : Pass) : Scheduling :=
  { s with passes := Function.update s.passes pass phase }

def setRun (run : Nat) (phase : ScheduledRun) : Scheduling :=
  { s with runs := Function.update s.runs run phase }

@[simp] theorem setPass_passes_self (pass : Nat) (phase : Pass) : (s.setPass pass phase).passes pass = phase :=
  update_self ..

variable {pass : Nat} {other : Nat}

theorem setPass_passes_of_ne (hne : other ≠ pass) (phase : Pass) :
    (s.setPass pass phase).passes other = s.passes other :=
  update_of_ne hne ..

@[simp] theorem setRun_runs_self (run : Nat) (phase : ScheduledRun) : (s.setRun run phase).runs run = phase :=
  update_self ..

variable {run : Nat}

theorem setRun_runs_of_ne (hne : other ≠ run) (phase : ScheduledRun) :
    (s.setRun run phase).runs other = s.runs other :=
  update_of_ne hne ..

def process (pass : Nat) (call : Option Time) : Option Scheduling :=
  match s.passes pass with
  | .checked now schedule active due =>
    let processed := processDueSchedule lib schedule now active
    match call.bind fun clock => s.table.updateSchedule clock processed.schedule with
    | none => some (s.setPass pass (.looping now due))
    | some table =>
      if processed.starts then
        some <| { s with table, started := s.started ++ [(schedule.id, schedule.nextRunAt)] }.setPass pass
          (.updated now processed.schedule due)
      else some <| { s with table }.setPass pass (.looping now due)
  | _ => none

def list (pass : Nat) (now : Time) : Option Scheduling :=
  match s.passes pass with
  | .idle => some (s.setPass pass (.looping now (s.table.listDueSchedules now batchLimit)))
  | _ => none

def check (pass : Nat) : Option Scheduling :=
  match s.passes pass with
  | .looping _ [] => some (s.setPass pass .idle)
  | .looping now (schedule :: due) =>
    if schedule.enabled then some (s.setPass pass (.checked now schedule (schedule.id ∈ s.active) due))
    else some (s.setPass pass (.looping now due))
  | _ => none

def start (pass run : Nat) : Option Scheduling :=
  match s.passes pass, s.runs run with
  | .updated now schedule due, .idle =>
    some <| ({ s with active := schedule.id :: s.active }.setPass pass (.looping now due)).setRun run
      (.running schedule now)
  | _, _ => none

def load (run : Nat) (finish : Time) (result : Except String String) (ok : Bool) : Option Scheduling :=
  match s.runs run with
  | .running schedule _ =>
    match if ok then s.table.getSchedule schedule.workflowID schedule.id else none with
    | none => some (s.setRun run (.leaving schedule.id))
    | some latest => some (s.setRun run (.loaded (recordRun latest finish result)))
  | _ => none

def record (run : Nat) (call : Option Time) : Option Scheduling :=
  match s.runs run with
  | .loaded latest =>
    match call.bind fun clock => s.table.updateSchedule clock latest with
    | none => some (s.setRun run (.leaving latest.id))
    | some table => some ({ s with table }.setRun run (.leaving latest.id))
  | _ => none

def leave (run : Nat) : Option Scheduling :=
  match s.runs run with
  | .leaving scheduleID => some ({ s with active := s.active.filter (· ≠ scheduleID) }.setRun run .idle)
  | _ => none

def get (update : Nat) (workflowID scheduleID : String) : Option Scheduling :=
  match s.updates update with
  | some _ => none
  | none => some { s with updates := Function.update s.updates update (s.table.getSchedule workflowID scheduleID) }

def put (update : Nat) (req : WorkflowScheduleRequest) (now : Time) (call : Option Time) : Option Scheduling :=
  match s.updates update with
  | none => none
  | some existing =>
    match handleUpdateWorkflowSchedule lib s.table existing req now call with
    | none => some { s with updates := Function.update s.updates update none }
    | some (_, table) => some { s with table, updates := Function.update s.updates update none }

def create (id workflowID : String) (req : WorkflowScheduleRequest) (now : Time) (call : Option Time) : Scheduling :=
  match handleCreateWorkflowSchedule lib s.table id workflowID req now call with
  | none => s
  | some (_, table) => { s with table }

def step : SchedulingLabel → Scheduling → Option Scheduling
  | .list pass now, s => s.list batchLimit pass now
  | .check pass, s => s.check pass
  | .process pass call, s => s.process lib pass call
  | .start pass run, s => s.start pass run
  | .load run finish result ok, s => s.load run finish result ok
  | .record run call, s => s.record run call
  | .leave run, s => s.leave run
  | .get update workflowID scheduleID, s => s.get update workflowID scheduleID
  | .put update req now call, s => s.put lib update req now call
  | .create id workflowID req now call, s => some (s.create lib id workflowID req now call)
  | .delete workflowID scheduleID, s =>
    some { s with table := (s.table.deleteSchedule workflowID scheduleID).getD s.table }
  | .deleteByWorkflow workflowID, s => some { s with table := s.table.deleteSchedulesByWorkflow workflowID }

inductive StepCase : SchedulingLabel → Scheduling → Prop where
  | list {pass : Nat} {now : Time} (hpass : s.passes pass = .idle) :
      StepCase (.list pass now) (s.setPass pass (.looping now (s.table.listDueSchedules now batchLimit)))
  | finish {pass : Nat} {now : Time} (hpass : s.passes pass = .looping now []) :
      StepCase (.check pass) (s.setPass pass .idle)
  | check {pass : Nat} {now : Time} {schedule : WorkflowSchedule} {due : List WorkflowSchedule}
      (hpass : s.passes pass = .looping now (schedule :: due)) (henabled : schedule.enabled = true) :
      StepCase (.check pass) (s.setPass pass (.checked now schedule (schedule.id ∈ s.active) due))
  | disabled {pass : Nat} {now : Time} {schedule : WorkflowSchedule} {due : List WorkflowSchedule}
      (hpass : s.passes pass = .looping now (schedule :: due)) (henabled : schedule.enabled = false) :
      StepCase (.check pass) (s.setPass pass (.looping now due))
  | unprocessed {pass : Nat} {call : Option Time} {now : Time} {schedule : WorkflowSchedule} {active : Bool}
      {due : List WorkflowSchedule} (hpass : s.passes pass = .checked now schedule active due) :
      StepCase (.process pass call) (s.setPass pass (.looping now due))
  | started {pass : Nat} {clock now : Time} {schedule : WorkflowSchedule} {active : Bool}
      {due : List WorkflowSchedule} {table : ScheduleTable} (hpass : s.passes pass = .checked now schedule active due)
      (htable : s.table.updateSchedule clock (processDueSchedule lib schedule now active).schedule = some table)
      (hstarts : (processDueSchedule lib schedule now active).starts = true) :
      StepCase (.process pass (some clock))
        ({ s with table, started := s.started ++ [(schedule.id, schedule.nextRunAt)] }.setPass pass
          (.updated now (processDueSchedule lib schedule now active).schedule due))
  | marked {pass : Nat} {clock now : Time} {schedule : WorkflowSchedule} {active : Bool}
      {due : List WorkflowSchedule} {table : ScheduleTable} (hpass : s.passes pass = .checked now schedule active due)
      (htable : s.table.updateSchedule clock (processDueSchedule lib schedule now active).schedule = some table)
      (hstarts : (processDueSchedule lib schedule now active).starts = false) :
      StepCase (.process pass (some clock)) ({ s with table }.setPass pass (.looping now due))
  | start {pass run : Nat} {now : Time} {schedule : WorkflowSchedule} {due : List WorkflowSchedule}
      (hpass : s.passes pass = .updated now schedule due) (hrun : s.runs run = .idle) :
      StepCase (.start pass run)
        (({ s with active := schedule.id :: s.active }.setPass pass (.looping now due)).setRun run
          (.running schedule now))
  | load {run : Nat} {finish scheduledAt : Time} {result : Except String String} {schedule latest : WorkflowSchedule}
      (hrun : s.runs run = .running schedule scheduledAt)
      (hlatest : s.table.getSchedule schedule.workflowID schedule.id = some latest) :
      StepCase (.load run finish result true) (s.setRun run (.loaded (recordRun latest finish result)))
  | lost {run : Nat} {finish scheduledAt : Time} {result : Except String String} {ok : Bool}
      {schedule : WorkflowSchedule} (hrun : s.runs run = .running schedule scheduledAt) :
      StepCase (.load run finish result ok) (s.setRun run (.leaving schedule.id))
  | record {run : Nat} {clock : Time} {latest : WorkflowSchedule} {table : ScheduleTable}
      (hrun : s.runs run = .loaded latest) (htable : s.table.updateSchedule clock latest = some table) :
      StepCase (.record run (some clock)) ({ s with table }.setRun run (.leaving latest.id))
  | unrecorded {run : Nat} {call : Option Time} {latest : WorkflowSchedule} (hrun : s.runs run = .loaded latest) :
      StepCase (.record run call) (s.setRun run (.leaving latest.id))
  | leave {run : Nat} {scheduleID : String} (hrun : s.runs run = .leaving scheduleID) :
      StepCase (.leave run) ({ s with active := s.active.filter (· ≠ scheduleID) }.setRun run .idle)
  | get {update : Nat} {workflowID scheduleID : String} (hupdate : s.updates update = none) :
      StepCase (.get update workflowID scheduleID)
        { s with updates := Function.update s.updates update (s.table.getSchedule workflowID scheduleID) }
  | put {update : Nat} {req : WorkflowScheduleRequest} {now : Time} {call : Option Time}
      {existing next : WorkflowSchedule} {table : ScheduleTable} (hupdate : s.updates update = some existing)
      (htable : handleUpdateWorkflowSchedule lib s.table existing req now call = some (next, table)) :
      StepCase (.put update req now call) { s with table, updates := Function.update s.updates update none }
  | refused {update : Nat} {req : WorkflowScheduleRequest} {now : Time} {call : Option Time}
      {existing : WorkflowSchedule} (hupdate : s.updates update = some existing) :
      StepCase (.put update req now call) { s with updates := Function.update s.updates update none }
  | create {id workflowID : String} {req : WorkflowScheduleRequest} {now : Time} {call : Option Time}
      {schedule : WorkflowSchedule} {table : ScheduleTable}
      (htable : handleCreateWorkflowSchedule lib s.table id workflowID req now call = some (schedule, table)) :
      StepCase (.create id workflowID req now call) { s with table }
  | uncreated {id workflowID : String} {req : WorkflowScheduleRequest} {now : Time} {call : Option Time} :
      StepCase (.create id workflowID req now call) s
  | delete {workflowID scheduleID : String} :
      StepCase (.delete workflowID scheduleID)
        { s with table := (s.table.deleteSchedule workflowID scheduleID).getD s.table }
  | deleteByWorkflow {workflowID : String} :
      StepCase (.deleteByWorkflow workflowID) { s with table := s.table.deleteSchedulesByWorkflow workflowID }

variable {lib batchLimit s} {call : Option Time} {s' : Scheduling}

theorem process_cases (hstep : s.process lib pass call = some s') :
    StepCase lib batchLimit s (.process pass call) s' := by
  unfold process at hstep
  split at hstep
  · next now schedule active due hpass =>
    dsimp only at hstep
    split at hstep
    · cases hstep
      exact .unprocessed hpass
    · next table htable =>
      obtain ⟨clock, rfl, htable⟩ := bind_eq_some_iff.mp htable
      split at hstep
      · next hstarts =>
        cases hstep
        exact .started hpass htable hstarts
      · next hstarts =>
        cases hstep
        exact .marked hpass htable (Bool.eq_false_of_not_eq_true hstarts)
  · cases hstep

theorem check_cases (hstep : s.check pass = some s') : StepCase lib batchLimit s (.check pass) s' := by
  unfold check at hstep
  split at hstep
  · next hpass =>
    cases hstep
    exact .finish hpass
  · next hpass =>
    split at hstep
    · next henabled =>
      cases hstep
      exact .check hpass henabled
    · next henabled =>
      cases hstep
      exact .disabled hpass (Bool.eq_false_of_not_eq_true henabled)
  · cases hstep

theorem load_cases {finish : Time} {result : Except String String} {ok : Bool}
    (hstep : s.load run finish result ok = some s') : StepCase lib batchLimit s (.load run finish result ok) s' := by
  unfold load at hstep
  split at hstep
  · next hrun =>
    split at hstep
    · cases hstep
      exact .lost hrun
    · next hlatest =>
      cases hstep
      cases ok with
      | true => exact .load hrun hlatest
      | false => cases hlatest
  · cases hstep

theorem record_cases (hstep : s.record run call = some s') : StepCase lib batchLimit s (.record run call) s' := by
  unfold record at hstep
  split at hstep
  · next hrun =>
    split at hstep
    · cases hstep
      exact .unrecorded hrun
    · next htable =>
      obtain ⟨clock, rfl, htable⟩ := bind_eq_some_iff.mp htable
      cases hstep
      exact .record hrun htable
  · cases hstep

theorem put_cases {update : Nat} {req : WorkflowScheduleRequest} {now : Time}
    (hstep : s.put lib update req now call = some s') : StepCase lib batchLimit s (.put update req now call) s' := by
  unfold put at hstep
  split at hstep
  · cases hstep
  · next hupdate =>
    split at hstep
    · cases hstep
      exact .refused hupdate
    · next htable =>
      cases hstep
      exact .put hupdate htable

theorem create_cases (id workflowID : String) (req : WorkflowScheduleRequest) (now : Time) (call : Option Time) :
    StepCase lib batchLimit s (.create id workflowID req now call) (s.create lib id workflowID req now call) := by
  unfold create
  split
  · exact .uncreated
  · next htable => exact .create htable

theorem step_cases {l : SchedulingLabel} (hstep : step lib batchLimit l s = some s') :
    StepCase lib batchLimit s l s' := by
  cases l with
  | list pass now =>
    change s.list batchLimit pass now = some s' at hstep
    unfold list at hstep
    split at hstep
    · next hpass =>
      cases hstep
      exact .list hpass
    · cases hstep
  | check pass => exact check_cases hstep
  | process pass call => exact process_cases hstep
  | start pass run =>
    change s.start pass run = some s' at hstep
    unfold start at hstep
    split at hstep
    · next hpass hrun =>
      cases hstep
      exact .start hpass hrun
    · cases hstep
  | load run finish result ok => exact load_cases hstep
  | record run call => exact record_cases hstep
  | leave run =>
    change s.leave run = some s' at hstep
    unfold leave at hstep
    split at hstep
    · next hrun =>
      cases hstep
      exact .leave hrun
    · cases hstep
  | get update workflowID scheduleID =>
    change s.get update workflowID scheduleID = some s' at hstep
    unfold get at hstep
    split at hstep
    · cases hstep
    · next hupdate =>
      cases hstep
      exact .get hupdate
  | put update req now call => exact put_cases hstep
  | create id workflowID req now call =>
    obtain rfl := some.inj hstep
    exact create_cases id workflowID req now call
  | delete workflowID scheduleID =>
    obtain rfl := some.inj hstep
    exact .delete
  | deleteByWorkflow workflowID =>
    obtain rfl := some.inj hstep
    exact .deleteByWorkflow

end Scheduling

variable {lib : ScheduleLibrary} {t t' : ScheduleTable} {req : WorkflowScheduleRequest} {now : Time}
  {call : Option Time}

theorem handleUpdateWorkflowSchedule_some {existing next : WorkflowSchedule}
    (hupdate : handleUpdateWorkflowSchedule lib t existing req now call = some (next, t')) :
    next.id = existing.id ∧ t.Written next t' ∧
      ∃ accepted, applyScheduleRequest lib existing req false now = .ok accepted ∧
        next.nextRunAt = accepted.nextRunAt ∧ next.cron = accepted.cron := by
  unfold handleUpdateWorkflowSchedule at hupdate
  obtain ⟨applied, happly, hupdate⟩ := bind_eq_some_iff.mp hupdate
  obtain ⟨clock, _, hupdate⟩ := bind_eq_some_iff.mp hupdate
  obtain ⟨table, htable, hupdate⟩ := bind_eq_some_iff.mp hupdate
  cases hupdate
  have hresult := toOption_eq_some.mp happly
  exact ⟨(applyScheduleRequest_ok hresult).1, updateSchedule_written htable, applied, hresult, rfl, rfl⟩

theorem handleCreateWorkflowSchedule_some {id workflowID : String} {schedule : WorkflowSchedule}
    (hcreate : handleCreateWorkflowSchedule lib t id workflowID req now call = some (schedule, t')) :
    ∃ row : WorkflowSchedule, row.id = id ∧ t'.rows = t.rows ++ [row] ∧
      (∃ recurrence, parseCronExpressionUTC lib row.cron = .ok recurrence) ∧
      (row.nextRunAt = Time.zero ∨ ∃ recurrence : Recurrence, row.nextRunAt = recurrence.next now) := by
  unfold handleCreateWorkflowSchedule at hcreate
  obtain ⟨updated, happly, hcreate⟩ := bind_eq_some_iff.mp hcreate
  obtain ⟨clock, _, hcreate⟩ := bind_eq_some_iff.mp hcreate
  obtain ⟨table, htable, hcreate⟩ := bind_eq_some_iff.mp hcreate
  cases hcreate
  obtain ⟨hid, _, recurrence, hparse, hnext⟩ := applyScheduleRequest_ok (toOption_eq_some.mp happly)
  obtain ⟨_, createdAt, updatedAt, hrows⟩ := createSchedule_rows htable
  refine ⟨schedule.stored createdAt updatedAt, hid, hrows, ⟨recurrence, hparse⟩, ?_⟩
  rcases hnext with hsame | hcomputed
  · exact .inl hsame
  · exact .inr ⟨recurrence, hcomputed⟩

def Scheduling.Holds (s : Scheduling) (schedule : WorkflowSchedule) : Prop :=
  (∃ pass, schedule ∈ (s.passes pass).snapshots) ∨ ∃ run, schedule ∈ (s.runs run).snapshots

variable {batchLimit : Nat} {s s' : Scheduling} {l : SchedulingLabel} {y : WorkflowSchedule}

namespace Scheduling

variable {pass run : Nat}

theorem holds_setPass {phase : Pass} (hy : (s.setPass pass phase).Holds y) : y ∈ phase.snapshots ∨ s.Holds y := by
  rcases hy with ⟨other, hmem⟩ | hrun
  · by_cases hsame : other = pass
    · rw [hsame, setPass_passes_self] at hmem
      exact .inl hmem
    · rw [setPass_passes_of_ne _ hsame] at hmem
      exact .inr (.inl ⟨other, hmem⟩)
  · exact .inr (.inr hrun)

theorem holds_setRun {phase : ScheduledRun} (hy : (s.setRun run phase).Holds y) :
    y ∈ phase.snapshots ∨ s.Holds y := by
  rcases hy with hpass | ⟨other, hmem⟩
  · exact .inr (.inl hpass)
  · by_cases hsame : other = run
    · rw [hsame, setRun_runs_self] at hmem
      exact .inl hmem
    · rw [setRun_runs_of_ne _ hsame] at hmem
      exact .inr (.inr ⟨other, hmem⟩)

theorem holds_of_setPass {before after : Pass} (hy : (s.setPass pass after).Holds y)
    (hpass : s.passes pass = before) (hsub : after.snapshots ⊆ before.snapshots) : s.Holds y := by
  rcases holds_setPass hy with hmem | hold
  · exact .inl ⟨pass, hpass ▸ hsub hmem⟩
  · exact hold

theorem holds_of_setRun {after : ScheduledRun} (hy : (s.setRun run after).Holds y)
    (hafter : after.snapshots = []) : s.Holds y := by
  rcases holds_setRun hy with hmem | hold
  · rw [hafter] at hmem
    cases hmem
  · exact hold

theorem StepCase.holds (hstep : StepCase lib batchLimit s l s') (hy : s'.Holds y) :
    s.Holds y ∨ ∃ row ∈ s.table.rows, row.SameSettings y ∧ y.nextRunAt = row.nextRunAt := by
  cases hstep with
  | list hpass =>
    rcases holds_setPass hy with hmem | hold
    · exact .inr ⟨y, (mem_listDueSchedules hmem).1, ⟨rfl, rfl, rfl⟩, rfl⟩
    · exact .inl hold
  | finish hpass | check hpass henabled => exact .inl (holds_of_setPass hy hpass fun _ hmem => hmem)
  | disabled hpass henabled | unprocessed hpass | started hpass htable hstarts | marked hpass htable hstarts =>
    exact .inl (holds_of_setPass hy hpass (List.subset_cons_self _ _))
  | start hpass hrun => exact .inl (holds_of_setPass (holds_of_setRun hy rfl) hpass fun _ hmem => hmem)
  | load hrun hlatest =>
    rcases holds_setRun hy with hmem | hold
    · rw [List.mem_singleton.mp hmem]
      exact .inr ⟨_, (getSchedule_eq_some.mp hlatest).1, recordRun_sameSettings _ _ _, recordRun_nextRunAt _ _ _⟩
    · exact .inl hold
  | lost hrun | record hrun htable | unrecorded hrun | leave hrun => exact .inl (holds_of_setRun hy rfl)
  | get | put | refused | create | uncreated | delete | deleteByWorkflow => exact .inl hy

end Scheduling

def scheduling (lib : ScheduleLibrary) (batchLimit : Nat) (table : ScheduleTable) :
    Machine Scheduling SchedulingLabel where
  init :=
    { table, active := [], passes := fun _ => .idle, runs := fun _ => .idle, updates := fun _ => none, started := [] }
  step := Scheduling.step lib batchLimit

end

structure Shows (workflowID id : String) (x : ScheduleSettings) (schedule : WorkflowSchedule) : Prop where
  id : schedule.id = id
  workflowID : schedule.workflowID = workflowID
  settings : schedule.settings = x

def Replaces (workflowID id : String) (s : Scheduling) : SchedulingLabel → Prop
  | .put update _ _ _ => ∃ existing, s.updates update = some existing ∧ existing.id = id
  | .delete _ scheduleID => scheduleID = id
  | .deleteByWorkflow workflowID' => workflowID' = workflowID
  | _ => False

structure Settled (workflowID id : String) (x : ScheduleSettings) (s : Scheduling) : Prop where
  row : ∃ row ∈ s.table.rows, Shows workflowID id x row
  held : ∀ y, s.Holds y → y.id = id → Shows workflowID id x y

variable {lib : ScheduleLibrary} {batchLimit : Nat} {s s' : Scheduling} {l : SchedulingLabel}
  {workflowID id : String}
  {x : ScheduleSettings}

variable {t t' : ScheduleTable} {y : WorkflowSchedule}

theorem Shows.of_sameSettings {a b : WorkflowSchedule} (ha : Shows workflowID id x a) (hab : a.SameSettings b) :
    Shows workflowID id x b :=
  ⟨hab.id.trans ha.id, hab.workflowID.trans ha.workflowID, hab.settings.trans ha.settings⟩

theorem exists_shows_of_written (hrow : ∃ row ∈ t.rows, Shows workflowID id x row) (hwritten : t.Written y t')
    (hy : y.id = id → Shows workflowID id x y) : ∃ row ∈ t'.rows, Shows workflowID id x row := by
  by_cases hid : y.id = id
  · obtain ⟨row, hmem, hsame, _⟩ := hwritten.row
    exact ⟨row, hmem, (hy hid).of_sameSettings hsame⟩
  · obtain ⟨row, hmem, hshows⟩ := hrow
    exact ⟨row, hwritten.kept row hmem (hshows.id ▸ Ne.symm hid), hshows⟩

variable {clock : Time} {table : ScheduleTable} (hs : Settled workflowID id x s)
include hs

theorem Settled.process {pass : Nat} {now : Time} {schedule : WorkflowSchedule} {active : Bool}
    {due : List WorkflowSchedule} (hpass : s.passes pass = .checked now schedule active due)
    (htable : s.table.updateSchedule clock (processDueSchedule lib schedule now active).schedule = some table) :
    ∃ row ∈ table.rows, Shows workflowID id x row := by
  have hsame := processDueSchedule_sameSettings lib schedule now active
  have hheld : s.Holds schedule := by
    refine .inl ⟨pass, ?_⟩
    rw [hpass]
    exact List.mem_cons_self
  refine exists_shows_of_written hs.row (updateSchedule_written htable) ?_
  intro hid
  exact (hs.held schedule hheld (hsame.id.symm.trans hid)).of_sameSettings hsame

theorem Settled.record {run : Nat} {latest : WorkflowSchedule} (hrun : s.runs run = .loaded latest)
    (htable : s.table.updateSchedule clock latest = some table) : ∃ row ∈ table.rows, Shows workflowID id x row := by
  have hheld : s.Holds latest := by
    refine .inr ⟨run, ?_⟩
    rw [hrun]
    exact List.mem_cons_self
  exact exists_shows_of_written hs.row (updateSchedule_written htable) (hs.held latest hheld)

theorem Settled.step (hother : ¬ Replaces workflowID id s l) (hstep : Scheduling.StepCase lib batchLimit s l s') :
    Settled workflowID id x s' := by
  refine ⟨?_, ?_⟩
  · cases hstep with
    | started hpass htable hstarts | marked hpass htable hstarts => exact hs.process hpass htable
    | record hrun htable => exact hs.record hrun htable
    | put hupdate htable =>
      obtain ⟨hid, hwritten, _⟩ := handleUpdateWorkflowSchedule_some htable
      refine exists_shows_of_written hs.row hwritten fun hnext => ?_
      exact absurd ⟨_, hupdate, hid.symm.trans hnext⟩ hother
    | create htable => grind [handleCreateWorkflowSchedule_some, row]
    | delete =>
      obtain ⟨row, hmem, hshows⟩ := hs.row
      exact ⟨row, mem_deleteSchedule hmem (hshows.id ▸ Ne.symm hother), hshows⟩
    | deleteByWorkflow =>
      obtain ⟨row, hmem, hshows⟩ := hs.row
      exact ⟨row, mem_deleteSchedulesByWorkflow hmem (hshows.workflowID ▸ Ne.symm hother), hshows⟩
    | _ => exact hs.row
  · intro y hy hid
    rcases hstep.holds hy with hold | ⟨row, hmem, hsame, _⟩
    · exact hs.held y hold hid
    · obtain ⟨row', hmem', hshows⟩ := hs.row
      have heq : row = row' := Table.eq_of_key hmem hmem' (hsame.id.symm.trans (hid.trans hshows.id.symm))
      exact (heq ▸ hshows).of_sameSettings hsame

omit hs

/-- The settings of a user's update stay in the store until they are replaced, if
no pass and no run had read the schedule before and can still write it. -/
theorem settings_kept (lib : ScheduleLibrary) (batchLimit : Nat) (initial : ScheduleTable) (s s₁ s₂ : Scheduling)
    (update : Nat) (req : WorkflowScheduleRequest) (now : Time) (call : Option Time)
    (existing next : WorkflowSchedule) (table : ScheduleTable) (hexisting : s.updates update = some existing)
    (hupdate : handleUpdateWorkflowSchedule lib s.table existing req now call = some (next, table))
    (hstep : (scheduling lib batchLimit initial).step (.put update req now call) s = some s₁)
    (hquiet : ∀ y, s.Holds y → y.id ≠ next.id) (hreach : (scheduling lib batchLimit initial).ReachesUnder
      (fun s l => ¬ Replaces next.workflowID next.id s l) s₁ s₂) :
    ∃ row, s₂.table.getSchedule next.workflowID next.id = some row ∧ row.settings = next.settings := by
  have hs₁ : s₁ = { s with table, updates := Function.update s.updates update none } := by
    have hput : s.put lib update req now call = some s₁ := hstep
    simp only [Scheduling.put, hexisting, hupdate] at hput
    exact (some.inj hput).symm
  have hsettled : Settled next.workflowID next.id next.settings s₁ := by
    rw [hs₁]
    refine ⟨?_, fun y hy hid => absurd hid (hquiet y hy)⟩
    obtain ⟨row, hmem, hsame, _⟩ := (handleUpdateWorkflowSchedule_some hupdate).2.1.row
    exact ⟨row, hmem, hsame.id, hsame.workflowID, hsame.settings⟩
  have hend := hreach.invariant (fun s l s' hs hl hstep => hs.step hl (Scheduling.step_cases hstep)) hsettled
  obtain ⟨row, hmem, hshows⟩ := hend.row
  exact ⟨row, getSchedule_eq_some.mpr ⟨hmem, hshows.workflowID, hshows.id⟩, hshows.settings⟩

namespace annual

def machine : Machine Scheduling SchedulingLabel := scheduling annual.lib 100 annual.table

def disable : SchedulingLabel := .put 0 { enabled := some false } now (some now)

def enabledAfter (labels : List SchedulingLabel) : Option Bool := do
  let s ← machine.exec labels machine.init
  let row ← s.table.getSchedule "report" "annual"
  return row.enabled

end annual

/-- A pass that begins after the report was disabled leaves it so. -/
theorem annual_kept :
    ∃ s row, annual.machine.exec [.get 0 "report" "annual", annual.disable, .list 0 annual.now, .check 0]
        annual.machine.init = some s ∧
      s.table.getSchedule "report" "annual" = some row ∧ row.enabled = false := by
  have hruns : (annual.machine.exec [.get 0 "report" "annual", annual.disable, .list 0 annual.now, .check 0]
      annual.machine.init).isSome = true := by
    decide +kernel
  have hanswer : (handleUpdateWorkflowSchedule annual.lib annual.table annual.report { enabled := some false }
      annual.now (some annual.now)).any (fun answer => answer.1.id = "annual" ∧ answer.1.workflowID = "report" ∧
        answer.1.enabled = false) = true := by
    decide +kernel
  obtain ⟨s₂, hs₂⟩ := isSome_iff_exists.mp hruns
  obtain ⟨⟨next, table⟩, hupdate, hnext⟩ := any_eq_true _ _ |>.mp hanswer
  obtain ⟨hid, hworkflow, henabled⟩ := of_decide_eq_true hnext
  let s : Scheduling :=
    { annual.machine.init with updates := Function.update (fun _ => none) 0 (some annual.report) }
  have hget : annual.machine.step (.get 0 "report" "annual") annual.machine.init = some s := rfl
  have hsteps := hs₂
  simp only [Machine.exec, Machine.execUnder, hget, bind_some, if_true] at hsteps
  obtain ⟨s₁, hput, hsteps⟩ := bind_eq_some_iff.mp hsteps
  obtain ⟨s', hlist, hsteps⟩ := bind_eq_some_iff.mp hsteps
  obtain ⟨_, hcheck, hsteps⟩ := bind_eq_some_iff.mp hsteps
  cases hsteps
  have hquiet : ∀ y, s.Holds y → y.id ≠ next.id := by rintro y (⟨_, hmem⟩ | ⟨_, hmem⟩) <;> cases hmem
  obtain ⟨row, hrow, hsettings⟩ := settings_kept annual.lib 100 annual.table s s₁ s₂ 0 _ _ _ _ next table rfl hupdate
    hput hquiet (((Machine.ReachesUnder.refl s₁).step (l := .list 0 annual.now) id hlist).step
      (l := .check 0) id hcheck)
  rw [hid, hworkflow] at hrow
  exact ⟨s₂, row, hs₂, hrow, (congrArg ScheduleSettings.enabled hsettings).trans henabled⟩

/-- A pass or a run that has read the report before it is disabled enables it again. -/
theorem annual_lost :
    (annual.enabledAfter [.list 0 annual.now, .get 0 "report" "annual"] = some true ∧
      annual.enabledAfter [.list 0 annual.now, .get 0 "report" "annual", annual.disable] = some false ∧
      annual.enabledAfter
        [.list 0 annual.now, .get 0 "report" "annual", annual.disable, .check 0, .process 0 (some annual.now)] =
          some true) ∧
    annual.enabledAfter
      [.list 0 annual.now, .check 0, .process 0 (some annual.now), .start 0 0, .load 0 annual.now (.ok "run") true,
        .get 0 "report" "annual", annual.disable] = some false ∧
    annual.enabledAfter
      [.list 0 annual.now, .check 0, .process 0 (some annual.now), .start 0 0, .load 0 annual.now (.ok "run") true,
        .get 0 "report" "annual", annual.disable, .record 0 (some annual.now)] = some true := by
  decide +kernel

end petalflow.server
