import Petalflow.Server.DueSchedules

open calendar table machine fold List Option

namespace petalflow.server

open Scheduling ScheduleTable

def Parses (lib : ScheduleLibrary) (cron : String) : Prop :=
  ∃ recurrence, parseCronExpressionUTC lib cron = .ok recurrence

def Pass.starting : Pass → Option String
  | .updated _ schedule _ => some schedule.id
  | _ => none

def Pass.scheduleIDs : Pass → List String
  | .idle => []
  | .looping _ due => due.map (·.id)
  | .checked _ schedule _ due => schedule.id :: due.map (·.id)
  | .updated _ schedule due => schedule.id :: due.map (·.id)

def Scheduling.Underway (s : Scheduling) (id : String) : Prop :=
  id ∈ s.active ∨ (s.passes 0).starting = some id

/-- What holds of one scheduler at work: the marks are those of the runs, and the
expressions of schedules with a run have a meaning, as they are stored and as they
were read. -/
structure Supervised (lib : ScheduleLibrary) (s : Scheduling) : Prop where
  exclusive : Exclusive s
  marked : ∀ id ∈ s.active, ∃ run, (s.runs run).scheduleID = some id
  distinct : (s.passes 0).scheduleIDs.Nodup
  rows : ∀ row ∈ s.table.rows, s.Underway row.id → Parses lib row.cron
  held : ∀ y, s.Holds y → s.Underway y.id → Parses lib y.cron
  found : ∀ now schedule due, s.passes 0 = .checked now schedule true due → Parses lib schedule.cron

section requests

variable {lib : ScheduleLibrary} {now : Time}

theorem WorkflowSchedule.SameSettings.cron {a b : WorkflowSchedule} (hsame : a.SameSettings b) : b.cron = a.cron :=
  congrArg ScheduleSettings.cron hsame.settings

variable {schedule : WorkflowSchedule}

theorem parses_of_starts {active : Bool} (hstarts : (processDueSchedule lib schedule now active).starts = true) :
    Parses lib schedule.cron := by
  obtain rfl := processDueSchedule_starts hstarts
  cases hparse : parseCronExpressionUTC lib schedule.cron with
  | ok recurrence => exact ⟨recurrence, hparse⟩
  | error err => grind [nextCronRunUTC, processDueSchedule]

end requests

variable {lib : ScheduleLibrary} {batchLimit : Nat} {s s' : Scheduling} {l : SchedulingLabel}

theorem Scheduling.underway_setPass {phase : Pass} {id : String} (hunder : (s.setPass 0 phase).Underway id) :
    s.Underway id ∨ phase.starting = some id := by
  obtain hactive | hstarting := hunder
  · exact .inl (.inl hactive)
  simp_all

theorem Supervised.started (hs : Supervised lib s) {now : Time} {schedule processed : WorkflowSchedule}
    {due : List WorkflowSchedule} {clock : Time} {table : ScheduleTable}
    (hpass : s.passes 0 = .checked now schedule false due) (hparses : Parses lib schedule.cron)
    (hsame : schedule.SameSettings processed) (htable : s.table.updateSchedule clock processed = some table) :
    (∀ row ∈ table.rows, row.id = schedule.id → Parses lib row.cron) ∧
      ∀ y, (s.setPass 0 (.updated now processed due)).Holds y → y.id ≠ schedule.id := by
  refine ⟨fun row hrow hid => ?_, fun y hy hid => ?_⟩
  · obtain ⟨_, hne⟩ | ⟨hrow, _⟩ := (updateSchedule_written htable).rows row hrow
    · exact absurd (hid.trans hsame.id.symm) hne
    · rw [hrow.cron, hsame.cron]
      exact hparses
  · obtain ⟨pass, hmem⟩ | ⟨run, hmem⟩ := hy
    · obtain rfl : pass = 0 := by
        by_contra hne
        rw [setPass_passes_of_ne _ hne, hs.exclusive.single pass hne] at hmem
        cases hmem
      rw [setPass_passes_self] at hmem
      have hdistinct := hs.distinct
      rw [hpass] at hdistinct
      apply (nodup_cons.mp hdistinct).1
      rw [← hid]
      exact List.mem_map_of_mem hmem
    · apply hs.exclusive.vacant run schedule.id
      · rw [hpass]
        rfl
      · rw [← hid]
        exact ScheduledRun.scheduleID_of_mem hmem

theorem Supervised.underway_before (hs : Supervised lib s) (hl : l.InTurn)
    (hstep : Scheduling.StepCase lib batchLimit s l s') {id : String} (hunder : s'.Underway id) :
    s.Underway id ∨ (∀ row ∈ s'.table.rows, row.id = id → Parses lib row.cron) ∧ ∀ y, s'.Holds y → y.id ≠ id := by
  have hphase : ∀ {phase : Pass}, phase.starting = none → (s.setPass 0 phase).Underway id → s.Underway id := by
    intro phase hnone h
    obtain h | h := underway_setPass h
    · exact h
    · rw [hnone] at h
      cases h
  cases hstep with
  | list hpass =>
    obtain rfl := hl
    exact .inl (hphase rfl hunder)
  | finish hpass | check hpass henabled | disabled hpass henabled | unprocessed hpass | marked hpass htable hstarts =>
    obtain rfl := hs.exclusive.pass_eq_zero hpass nofun
    exact .inl (hphase rfl hunder)
  | @started pass clock now schedule active due table hpass htable hstarts =>
    obtain rfl := hs.exclusive.pass_eq_zero hpass nofun
    obtain hunder | hstarting := underway_setPass hunder
    · exact .inl hunder
    · have hparses := parses_of_starts hstarts
      obtain rfl := processDueSchedule_starts hstarts
      have hsame := processDueSchedule_sameSettings lib schedule now false
      obtain rfl : schedule.id = id := hsame.id.symm.trans (some.inj hstarting)
      exact .inr (hs.started hpass hparses hsame htable)
  | start hpass hrun =>
    obtain rfl := hs.exclusive.pass_eq_zero hpass nofun
    obtain hactive | hstarting := hunder
    · obtain rfl | hactive := mem_cons.mp hactive
      · refine .inl (.inr ?_)
        rw [hpass]
        rfl
      · exact .inl (.inl hactive)
    · dsimp only [Scheduling.setRun] at hstarting
      rw [setPass_passes_self] at hstarting
      cases hstarting
  | leave hrun =>
    obtain hactive | hstarting := hunder
    · exact .inl (.inl (mem_of_mem_filter hactive))
    · exact .inl (.inr hstarting)
  | load | lost | record | unrecorded | get | put | refused | create | uncreated | delete | deleteByWorkflow =>
    exact .inl hunder

theorem Scheduling.StepCase.row_origin (hstep : Scheduling.StepCase lib batchLimit s l s') {row : WorkflowSchedule}
    (hrow : row ∈ s'.table.rows) :
    row ∈ s.table.rows ∨ (∃ y, s.Holds y ∧ y.SameSettings row) ∨ Parses lib row.cron := by
  have hwritten : ∀ {y processed : WorkflowSchedule} {clock : Time} {table : ScheduleTable}, s.Holds y →
      y.SameSettings processed → s.table.updateSchedule clock processed = some table → row ∈ table.rows →
      row ∈ s.table.rows ∨ (∃ y, s.Holds y ∧ y.SameSettings row) ∨ Parses lib row.cron := by
    intro y processed clock table hy hsame htable hrow
    obtain ⟨hold, _⟩ | ⟨hrow, _⟩ := (updateSchedule_written htable).rows row hrow
    · exact .inl hold
    · exact .inr (.inl ⟨y, hy, hsame.trans hrow⟩)
  cases hstep with
  | @started pass clock now schedule active due table hpass htable hstarts
  | @marked pass clock now schedule active due table hpass htable hstarts =>
    refine hwritten (.inl ⟨pass, ?_⟩) (processDueSchedule_sameSettings lib schedule now active) htable hrow
    rw [hpass]
    exact mem_cons_self
  | @record run clock latest table hrun htable =>
    refine hwritten (y := latest) (.inr ⟨run, ?_⟩) ⟨rfl, rfl, rfl⟩ htable hrow
    rw [hrun]
    exact mem_cons_self
  | put hupdate htable =>
    obtain ⟨_, hwritten, accepted, haccepted, _, hcron⟩ := handleUpdateWorkflowSchedule_some htable
    obtain ⟨hold, _⟩ | ⟨hsame, _⟩ := hwritten.rows row hrow
    · exact .inl hold
    · rw [hsame.cron, hcron]
      obtain ⟨_, _, recurrence, hparse, _⟩ := applyScheduleRequest_ok haccepted
      exact .inr (.inr ⟨recurrence, hparse⟩)
  | create htable =>
    obtain ⟨new, _, hrows, hparse, _⟩ := handleCreateWorkflowSchedule_some htable
    rw [hrows, mem_append, mem_singleton] at hrow
    obtain hold | rfl := hrow
    · exact .inl hold
    · exact .inr (.inr hparse)
  | delete => exact .inl (mem_of_mem_deleteSchedule hrow)
  | deleteByWorkflow => exact .inl (mem_of_mem_filter hrow)
  | list | finish | check | disabled | unprocessed | start | load | lost | unrecorded | leave | get | refused
  | uncreated => exact .inl hrow

variable (hs : Supervised lib s)
include hs

theorem Supervised.marked_step (hstep : Scheduling.StepCase lib batchLimit s l s') :
    ∀ id ∈ s'.active, ∃ run, (s'.runs run).scheduleID = some id := by
  have hgoesOn : ∀ {run : Nat} {phase : ScheduledRun}, phase.scheduleID = (s.runs run).scheduleID →
      ∀ id ∈ s.active, ∃ other, ((s.setRun run phase).runs other).scheduleID = some id := by
    intro run phase hid id hmem
    obtain ⟨other, hother⟩ := hs.marked id hmem
    exact ⟨other, (scheduleID_setRun hid other).trans hother⟩
  cases hstep with
  | @start pass run now schedule due hpass hrun =>
    intro id hmem
    obtain rfl | hmem := mem_cons.mp hmem
    · exact ⟨run, congrArg ScheduledRun.scheduleID (setRun_runs_self ..)⟩
    · obtain ⟨other, hother⟩ := hs.marked id hmem
      have hne : other ≠ run := by
        rintro rfl
        rw [hrun] at hother
        cases hother
      refine ⟨other, ?_⟩
      rw [setRun_runs_of_ne _ hne]
      exact hother
  | @leave run scheduleID hrun =>
    intro id hmem
    obtain ⟨hmem, hkept⟩ := mem_filter.mp hmem
    obtain ⟨other, hother⟩ := hs.marked id hmem
    have hne : other ≠ run := by
      rintro rfl
      rw [hrun] at hother
      exact of_decide_eq_true hkept (some.inj hother).symm
    refine ⟨other, ?_⟩
    rw [setRun_runs_of_ne _ hne]
    exact hother
  | load hrun hlatest => exact hgoesOn (scheduleID_load hrun hlatest)
  | lost hrun | record hrun htable | unrecorded hrun =>
    apply hgoesOn
    rw [hrun]
    rfl
  | list | finish | check | disabled | unprocessed | started | marked | get | put | refused | create | uncreated
  | delete | deleteByWorkflow => exact hs.marked

variable (hl : l.InTurn) (hstep : Scheduling.StepCase lib batchLimit s l s')
include hl hstep

theorem Supervised.rows_step : ∀ row ∈ s'.table.rows, s'.Underway row.id → Parses lib row.cron := by
  intro row hrow hunder
  obtain hunder | ⟨hrows, _⟩ := hs.underway_before hl hstep hunder
  · obtain hold | ⟨y, hy, hsame⟩ | hparses := hstep.row_origin hrow
    · exact hs.rows row hold hunder
    · rw [hsame.cron]
      exact hs.held y hy (hsame.id ▸ hunder)
    · exact hparses
  · exact hrows row hrow rfl

theorem Supervised.held_step : ∀ y, s'.Holds y → s'.Underway y.id → Parses lib y.cron := by
  intro y hy hunder
  obtain hunder | ⟨_, hheld⟩ := hs.underway_before hl hstep hunder
  · obtain hold | ⟨row, hrow, hsame, _⟩ := hstep.holds hy
    · exact hs.held y hold hunder
    · rw [hsame.cron]
      exact hs.rows row hrow (hsame.id ▸ hunder)
  · exact absurd rfl (hheld y hy)

theorem Supervised.distinct_step : (s'.passes 0).scheduleIDs.Nodup := by
  have hdistinct := hs.distinct
  cases hstep with
  | list hpass =>
    obtain rfl := hl
    rw [setPass_passes_self]
    exact listDueSchedules_nodup _ _ _
  | finish hpass =>
    obtain rfl := hs.exclusive.pass_eq_zero hpass nofun
    rw [setPass_passes_self]
    exact nodup_nil
  | check hpass henabled =>
    obtain rfl := hs.exclusive.pass_eq_zero hpass nofun
    rw [hpass] at hdistinct
    rw [setPass_passes_self]
    exact hdistinct
  | disabled hpass henabled | unprocessed hpass | marked hpass htable hstarts =>
    obtain rfl := hs.exclusive.pass_eq_zero hpass nofun
    rw [hpass] at hdistinct
    rw [setPass_passes_self]
    exact (nodup_cons.mp hdistinct).2
  | @started pass clock now schedule active due table hpass htable hstarts =>
    obtain rfl := hs.exclusive.pass_eq_zero hpass nofun
    rw [hpass] at hdistinct
    rw [setPass_passes_self, Pass.scheduleIDs, (processDueSchedule_sameSettings lib schedule now active).id]
    exact hdistinct
  | start hpass hrun =>
    obtain rfl := hs.exclusive.pass_eq_zero hpass nofun
    rw [hpass] at hdistinct
    dsimp only [Scheduling.setRun]
    rw [setPass_passes_self]
    exact (nodup_cons.mp hdistinct).2
  | load | lost | record | unrecorded | leave | get | put | refused | create | uncreated | delete | deleteByWorkflow =>
    exact hdistinct

theorem Supervised.found_step :
    ∀ now schedule due, s'.passes 0 = .checked now schedule true due → Parses lib schedule.cron := by
  intro at_ found rest hfound
  cases hstep with
  | list hpass =>
    obtain rfl := hl
    rw [setPass_passes_self] at hfound
    cases hfound
  | check hpass henabled =>
    obtain rfl := hs.exclusive.pass_eq_zero hpass nofun
    rw [setPass_passes_self] at hfound
    obtain ⟨rfl, rfl, hactive, rfl⟩ := Pass.checked.inj hfound
    refine hs.held _ (.inl ⟨0, ?_⟩) (.inl (of_decide_eq_true hactive))
    rw [hpass]
    exact mem_cons_self
  | finish hpass | disabled hpass henabled | unprocessed hpass | marked hpass htable hstarts
  | started hpass htable hstarts =>
    obtain rfl := hs.exclusive.pass_eq_zero hpass nofun
    rw [setPass_passes_self] at hfound
    cases hfound
  | start hpass hrun =>
    obtain rfl := hs.exclusive.pass_eq_zero hpass nofun
    grind [Scheduling.setRun, setPass_passes_self]
  | load | lost | record | unrecorded | leave | get | put | refused | create | uncreated | delete | deleteByWorkflow =>
    exact hs.found _ _ _ hfound

theorem Supervised.step : Supervised lib s' where
  exclusive := hs.exclusive.step hl hstep
  marked := hs.marked_step hstep
  distinct := hs.distinct_step hl hstep
  rows := hs.rows_step hl hstep
  held := hs.held_step hl hstep
  found := hs.found_step hl hstep

omit hs hl hstep

theorem supervised_init (lib : ScheduleLibrary) (batchLimit : Nat) (table : ScheduleTable) :
    Supervised lib (scheduling lib batchLimit table).init where
  exclusive := exclusive_init lib batchLimit table
  marked id hmem := by cases hmem
  distinct := nodup_nil
  rows row _ hunder := by
    obtain hactive | hstarting := hunder
    · cases hactive
    · cases hstarting
  held y hy := by
    obtain ⟨_, hmem⟩ | ⟨_, hmem⟩ := hy
    · cases hmem
    · cases hmem
  found now schedule due hfound := by cases hfound

section results

variable {schedule : WorkflowSchedule} {due : List WorkflowSchedule} {now : Time}

/-- A due schedule was left out because of its run: no run begins, the pass goes on, and
this is stored if the store answers and still has the schedule. -/
structure Skipped (s : Scheduling) (now : Time) (schedule : WorkflowSchedule) (due : List WorkflowSchedule)
    (call : Option Time) (s' : Scheduling) : Prop where
  runs : s'.runs = s.runs
  active : s'.active = s.active
  started : s'.started = s.started
  pass : s'.passes 0 = .looping now due
  recorded : call.isSome = true → (s.table.getSchedule schedule.workflowID schedule.id).isSome = true →
    ∃ row, s'.table.getSchedule schedule.workflowID schedule.id = some row ∧
      row.lastStatus = some .skippedOverlap ∧ row.lastError = "skipped because prior scheduled run is still active"

theorem ScheduleTable.updateSchedule_some {t : ScheduleTable} (schedule : WorkflowSchedule) (clock : Time)
    (hget : (t.getSchedule schedule.workflowID schedule.id).isSome = true) :
    ∃ t' createdAt updatedAt, t.updateSchedule clock schedule = some t' ∧
      t'.getSchedule schedule.workflowID schedule.id = some (schedule.stored createdAt updatedAt) := by
  obtain ⟨row, hrow⟩ := isSome_iff_exists.mp hget
  obtain ⟨hmem, hworkflow, hid⟩ := getSchedule_eq_some.mp hrow
  simp only [updateSchedule, hget, if_true]
  refine ⟨_, row.createdAt, if schedule.updatedAt = Time.zero then clock else schedule.updatedAt, rfl, ?_⟩
  refine getSchedule_eq_some.mpr ⟨List.mem_map.mpr ⟨row, hmem, ?_⟩, rfl, rfl⟩
  rw [if_pos ⟨hworkflow, hid⟩]

theorem processDueSchedule_active (hparses : Parses lib schedule.cron) (now : Time) :
    ∃ nextRunAt, processDueSchedule lib schedule now true =
      { schedule := schedule.mark nextRunAt .skippedOverlap "skipped because prior scheduled run is still active" now,
        starts := false } := by
  obtain ⟨recurrence, hparse⟩ := hparses
  have hnext : nextCronRunUTC lib schedule.cron now = .ok (recurrence.next now) := by rw [nextCronRunUTC, hparse]
  exact ⟨recurrence.next now, by simp only [processDueSchedule, if_true, markSkippedOverlap, hnext]⟩

theorem Supervised.skipped (hs : Supervised lib s) (hpass : s.passes 0 = .checked now schedule true due)
    (call : Option Time) : ∃ s', s.process lib 0 call = some s' ∧ Skipped s now schedule due call s' := by
  obtain ⟨nextRunAt, hprocessed⟩ := processDueSchedule_active (hs.found now schedule due hpass) now
  simp only [Scheduling.process, hpass, hprocessed]
  generalize hskip :
    schedule.mark nextRunAt .skippedOverlap "skipped because prior scheduled run is still active" now = skip
  -- the store answers to the skip as long as it has the schedule
  have hstored : call.isSome = true → (s.table.getSchedule schedule.workflowID schedule.id).isSome = true →
      ∃ table row, (call.bind fun clock => s.table.updateSchedule clock skip) = some table ∧
        table.getSchedule schedule.workflowID schedule.id = some row ∧
        row.lastStatus = some .skippedOverlap ∧
          row.lastError = "skipped because prior scheduled run is still active" := by
    intro hsome hget
    obtain ⟨clock, rfl⟩ := isSome_iff_exists.mp hsome
    subst hskip
    obtain ⟨table, createdAt, updatedAt, htable, hrow⟩ := updateSchedule_some
      (schedule.mark nextRunAt .skippedOverlap "skipped because prior scheduled run is still active" now) clock hget
    have hkept : nullIfEmpty "skipped because prior scheduled run is still active" =
        "skipped because prior scheduled run is still active" := by decide +kernel
    refine ⟨table, _, htable, hrow, rfl, ?_⟩
    simp only [WorkflowSchedule.stored, WorkflowSchedule.mark, hkept]
  cases hupdate : call.bind fun clock => s.table.updateSchedule clock skip with
  | none =>
    refine ⟨_, rfl, rfl, rfl, rfl, setPass_passes_self .., fun hsome hget => ?_⟩
    simp_all
  | some table =>
    refine ⟨_, rfl, rfl, rfl, rfl, setPass_passes_self .., fun hsome hget => ?_⟩
    obtain ⟨table', row, htable, hrow⟩ := hstored hsome hget
    rw [hupdate] at htable
    cases htable
    exact ⟨row, hrow⟩

/-- With the passes of one loop, whatever the runs and the users do in between, a schedule
has at most one run in progress, the marks are those of the runs in progress, and a due
schedule that is found active is skipped. -/
theorem scheduled_runs_never_overlap (lib : ScheduleLibrary) (batchLimit : Nat) (table : ScheduleTable) (s : Scheduling)
    (hreach : (scheduling lib batchLimit table).ReachesUnder (fun _ l => l.InTurn)
      (scheduling lib batchLimit table).init
      s) :
    (∀ run run' id, (s.runs run).scheduleID = some id → (s.runs run').scheduleID = some id → run = run') ∧
    (∀ id, id ∈ s.active ↔ ∃ run, (s.runs run).scheduleID = some id) ∧
    (∀ now schedule due, s.passes 0 = .looping now (schedule :: due) → schedule.enabled = true →
      schedule.id ∈ s.active →
      ∃ s', (scheduling lib batchLimit table).step (.check 0) s = some s' ∧
        s'.passes 0 = .checked now schedule true due ∧
        s'.runs = s.runs ∧ s'.started = s.started) ∧
    ∀ now schedule due, s.passes 0 = .checked now schedule true due → ∀ call,
      ∃ s', (scheduling lib batchLimit table).step (.process 0 call) s = some s' ∧
        Skipped s now schedule due call s' := by
  have hs : Supervised lib s :=
    hreach.invariant (fun _ _ _ hs hl hstep => hs.step hl (Scheduling.step_cases hstep))
      (supervised_init lib batchLimit table)
  refine ⟨hs.exclusive.unique, fun id => ⟨hs.marked id, ?_⟩, ?_, ?_⟩
  · rintro ⟨run, hrun⟩
    exact hs.exclusive.active run id hrun
  · intro now schedule due hpass henabled hactive
    refine ⟨s.setPass 0 (.checked now schedule true due), ?_, setPass_passes_self .., rfl, rfl⟩
    change s.check 0 = _
    simp [Scheduling.check, hpass, henabled, hactive]
  · intro now schedule due hpass call
    exact hs.skipped hpass call

end results

namespace annual

def stored : Machine Scheduling SchedulingLabel := scheduling annual.lib 100 annual.table

def later : Time := { now with year := 2025, date := by decide }

def inTurn (_ : Scheduling) : SchedulingLabel → Bool
  | .list pass _ => pass = 0
  | _ => true

theorem inTurn_of_eq_true (hl : inTurn s l = true) : l.InTurn := by
  cases l with
  | list pass now =>
    change pass = 0
    exact of_decide_eq_true hl
  | _ => trivial

def overlap : Pass → Option WorkflowSchedule
  | .checked now schedule true [] => if now = later then some schedule else none
  | _ => none

theorem overlap_eq_some {pass : Pass} {schedule : WorkflowSchedule} (hpass : overlap pass = some schedule) :
    pass = .checked later schedule true [] := by
  unfold overlap at hpass
  grind

end annual

/-- A report that takes a year is skipped the next time. -/
theorem scheduled_runs_never_overlap_annual :
    ∃ s s' row, annual.stored.Reaches annual.stored.init s ∧ s.active = ["annual"] ∧
      annual.stored.step (.process 0 (some annual.later)) s = some s' ∧
      s'.table.getSchedule "report" "annual" = some row ∧ row.lastStatus = some .skippedOverlap ∧ s'.runs = s.runs := by
  obtain ⟨s, hreach, htest⟩ := Machine.exists_reachesUnder_of_exec (m := annual.stored) (P := annual.inTurn)
    [.list 0 annual.now, .check 0, .process 0 (some annual.now), .start 0 0, .check 0, .list 0 annual.later, .check 0]
    (fun s => s.active = ["annual"] ∧ (s.table.getSchedule "report" "annual").isSome = true ∧
      (annual.overlap (s.passes 0)).any (fun schedule =>
        schedule.workflowID = "report" ∧ schedule.id = "annual") = true)
    (by decide +kernel)
  obtain ⟨hactive, hstored, hfound⟩ := of_decide_eq_true htest
  obtain ⟨schedule, hoverlap, hids⟩ := (Option.any_eq_true _ _).mp hfound
  obtain ⟨hworkflow, hid⟩ := of_decide_eq_true hids
  have hturn := hreach.mono fun _ _ => annual.inTurn_of_eq_true
  obtain ⟨-, -, -, hskips⟩ := scheduled_runs_never_overlap annual.lib 100 annual.table s hturn
  obtain ⟨s', hstep, hskipped⟩ := hskips _ _ _ (annual.overlap_eq_some hoverlap) (some annual.later)
  obtain ⟨row, hrow, hstatus, -⟩ := hskipped.recorded rfl (by rw [hworkflow, hid]; exact hstored)
  rw [hworkflow, hid] at hrow
  exact ⟨s, s', row, hreach.reaches, hactive, hstep, hrow, hstatus, hskipped.runs⟩

end petalflow.server
