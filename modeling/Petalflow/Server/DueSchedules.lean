import Mathlib.Data.List.Pairwise
import Petalflow.Server.Scheduler

open calendar table machine fold List Option

namespace petalflow.server

open Scheduling ScheduleTable

def OccursAfter (recurrence : Recurrence) (now : Time) : Prop :=
  ∃ u, recurrence.Matches u ∧ now < u ∧ u.year ≤ now.year + 5

def WillOccur (lib : ScheduleLibrary) (cron : String) (now : Time) : Prop :=
  ∃ recurrence, parseCronExpressionUTC lib cron = .ok recurrence ∧ OccursAfter recurrence now

/-- A time that is stored with its order: a full second of a year with four digits. -/
def Sortable (t : Time) : Prop := t.nano = 0 ∧ t.year < 10000

section invariants

variable {lib : ScheduleLibrary} {batchLimit : Nat} {s s' : Scheduling} {l : SchedulingLabel}
  {now : Time}

theorem OccursAfter.next {recurrence : Recurrence} (hoccurs : OccursAfter recurrence now)
    (hyear : now.year + 5 < 10000) : now < recurrence.next now ∧ Sortable (recurrence.next now) := by
  obtain ⟨u, hmatches, hlater, hyears⟩ := hoccurs
  obtain ⟨hnext, hlt, hle⟩ := recurrence.next_least now u hmatches hlater hyears
  have hbound := Time.year_le hle
  exact ⟨hlt, (recurrence.minutes _ hnext).2, by omega⟩

theorem next_sortable (recurrence : Recurrence) (hyear : now.year + 5 < 10000) : Sortable (recurrence.next now) := by
  by_cases hsome : OccursAfter recurrence now
  · exact (hsome.next hyear).2
  · have hzero : recurrence.next now = Time.zero := by
      refine recurrence.next_zero now fun u hmatches hlater => ?_
      by_contra hyears
      exact hsome ⟨u, hmatches, hlater, Nat.le_of_not_lt hyears⟩
    rw [hzero]
    exact ⟨rfl, by decide⟩

theorem le_of_text_le {t : Time} (ht : Sortable t) (hyear : now.year < 10000)
    (hle : t.rfc3339Nano ≤ now.rfc3339Nano) : t ≤ now := by
  by_contra hlater
  exact absurd hle (not_le.mpr (Time.rfc3339Nano_lt hyear ht.2 (fun _ => ht.1) (not_le.mp hlater)))

variable {schedule row : WorkflowSchedule} {active : Bool} {clock : Time} {table : ScheduleTable}

theorem processed_row (hoccurs : WillOccur lib schedule.cron now) (hyear : now.year + 5 < 10000)
    (htable : s.table.updateSchedule clock (processDueSchedule lib schedule now active).schedule = some table) :
    ∃ row ∈ table.rows, schedule.SameSettings row ∧ now < row.nextRunAt ∧ Sortable row.nextRunAt := by
  obtain ⟨recurrence, hparse, hoccurs⟩ := hoccurs
  obtain ⟨hlater, hsortable⟩ := hoccurs.next hyear
  obtain ⟨⟨status, err, hmark⟩, _⟩ := processDueSchedule_of_parse hparse now active
  obtain ⟨row, hmem, hsame, hnext⟩ := (updateSchedule_written htable).row
  have hnextRunAt : row.nextRunAt = recurrence.next now := by
    rw [hnext, hmark]
    rfl
  have hsettings := processDueSchedule_sameSettings lib schedule now active
  exact ⟨row, hmem, hsettings.trans hsame, hnextRunAt ▸ hlater, hnextRunAt ▸ hsortable⟩

theorem process_table {pass : Nat} {due : List WorkflowSchedule}
    (hpass : s.passes pass = .checked now schedule active due)
    (htable : s.table.updateSchedule clock (processDueSchedule lib schedule now active).schedule = some table)
    (hstep : s.process lib pass (some clock) = some s') : s'.table = table := by
  simp only [Scheduling.process, hpass, bind_some, htable] at hstep
  split at hstep
  · rw [← some.inj hstep]
    rfl
  · rw [← some.inj hstep]
    rfl

theorem not_listed (hmem : row ∈ table.rows) (hlater : now < row.nextRunAt) (hsortable : Sortable row.nextRunAt)
    (hyear : now.year < 10000) (limit : Nat) : ∀ due ∈ table.listDueSchedules now limit, due.id ≠ row.id := by
  intro due hdue hid
  obtain ⟨hrow, _, hle⟩ := mem_listDueSchedules hdue
  rw [Table.eq_of_key hrow hmem hid] at hle
  exact absurd (le_of_text_le hsortable hyear hle) (not_le.mpr hlater)

def ScheduledRun.scheduleID : ScheduledRun → Option String
  | .idle => none
  | .running schedule _ => some schedule.id
  | .loaded latest => some latest.id
  | .leaving scheduleID => some scheduleID

theorem ScheduledRun.scheduleID_of_mem {run : ScheduledRun} {y : WorkflowSchedule} (hy : y ∈ run.snapshots) :
    run.scheduleID = some y.id := by
  cases run with
  | loaded latest =>
    rw [mem_singleton.mp hy]
    rfl
  | _ => cases hy

def Pass.claim : Pass → Option String
  | .checked _ schedule false _ => some schedule.id
  | .updated _ schedule _ => some schedule.id
  | _ => none

variable {due : List WorkflowSchedule} {phase : Pass}

theorem Pass.claim_checked {id : String}
    (hclaim : (Pass.checked now schedule active due).claim = some id) : id = schedule.id ∧ active = false := by
  cases active with
  | false => exact ⟨(some.inj hclaim).symm, rfl⟩
  | true => cases hclaim

/-- An update of a schedule that no pass has processed since it was read. The request
is not before the due times of runs that were started, and its expression has an
occurrence after it. -/
structure Timely (lib : ScheduleLibrary) (s : Scheduling) (existing : WorkflowSchedule) (req : WorkflowScheduleRequest)
    (now : Time) : Prop where
  current : ∃ row ∈ s.table.rows, row.id = existing.id ∧ row.nextRunAt = existing.nextRunAt
  year : now.year + 5 < 10000
  clock : ∀ o, (existing.id, o) ∈ s.started → o ≤ now
  occurs : ∀ accepted, applyScheduleRequest lib existing req false now = .ok accepted → WillOccur lib accepted.cron now

/-- The steps of one scheduler that is at work on schedules with occurrences, and
of users who create schedules under new ids, update them in time and delete them. -/
def OneScheduler (lib : ScheduleLibrary) (s : Scheduling) : SchedulingLabel → Prop
  | .list pass now =>
    pass = 0 ∧ now.year + 5 < 10000 ∧ ∀ row ∈ s.table.rows, row.enabled = true → WillOccur lib row.cron now
  | .create id _ _ now _ => now.year + 5 < 10000 ∧ ∀ o, (id, o) ∉ s.started
  | .put update req now _ => ∀ existing, s.updates update = some existing → Timely lib s existing req now
  | _ => True

def SchedulingLabel.InTurn : SchedulingLabel → Prop
  | .list pass _ => pass = 0
  | _ => True

theorem OneScheduler.inTurn (hl : OneScheduler lib s l) : l.InTurn := by
  cases l with
  | list pass now => exact hl.1
  | _ => trivial

structure Exclusive (s : Scheduling) : Prop where
  single : ∀ pass, pass ≠ 0 → s.passes pass = .idle
  active : ∀ run id, (s.runs run).scheduleID = some id → id ∈ s.active
  unique : ∀ run run' id, (s.runs run).scheduleID = some id → (s.runs run').scheduleID = some id → run = run'
  vacant : ∀ run id, (s.passes 0).claim = some id → (s.runs run).scheduleID ≠ some id

theorem Exclusive.pass_eq_zero (hs : Exclusive s) {pass : Nat} (hpass : s.passes pass = phase)
    (hbusy : phase ≠ .idle) : pass = 0 := by
  by_contra hne
  exact hbusy (hpass.symm.trans (hs.single pass hne))

theorem Exclusive.setPass (hs : Exclusive s)
    (hvacant : ∀ run id, phase.claim = some id → (s.runs run).scheduleID ≠ some id) :
    Exclusive (s.setPass 0 phase) := by
  refine ⟨?_, hs.active, hs.unique, ?_⟩
  · intro pass hne
    rw [setPass_passes_of_ne _ hne]
    exact hs.single pass hne
  · rw [setPass_passes_self]
    exact hvacant

variable {run : Nat} {phase : ScheduledRun}

theorem Scheduling.scheduleID_setRun (hid : phase.scheduleID = (s.runs run).scheduleID) (other : Nat) :
    ((s.setRun run phase).runs other).scheduleID = (s.runs other).scheduleID := by
  grind [setRun_runs_self, setRun_runs_of_ne]

variable {latest : WorkflowSchedule}

theorem Scheduling.scheduleID_load {finish scheduledAt : Time} {result : Except String String}
    (hrun : s.runs run = .running schedule scheduledAt)
    (hlatest : s.table.getSchedule schedule.workflowID schedule.id = some latest) :
    (ScheduledRun.loaded (recordRun latest finish result)).scheduleID = (s.runs run).scheduleID := by
  rw [hrun]
  have hid := (getSchedule_eq_some.mp hlatest).2.2
  exact congrArg some ((recordRun_sameSettings _ _ _).id.trans hid)

theorem Exclusive.setRun (hs : Exclusive s) (hid : phase.scheduleID = (s.runs run).scheduleID) :
    Exclusive (s.setRun run phase) := by
  have hids := scheduleID_setRun hid
  refine ⟨hs.single, ?_, ?_, ?_⟩
  · intro other id hother
    exact hs.active other id (hids other ▸ hother)
  · intro one other id hone hother
    exact hs.unique one other id (hids one ▸ hone) (hids other ▸ hother)
  · intro other id hclaim
    rw [hids other]
    exact hs.vacant other id hclaim

theorem Exclusive.start (hs : Exclusive s) (hpass : s.passes 0 = .updated now schedule due) :
    Exclusive (({ s with active := schedule.id :: s.active }.setPass 0 (.looping now due)).setRun run
      (.running schedule now)) := by
  have hvacant : ∀ other, (s.runs other).scheduleID ≠ some schedule.id := by
    intro other
    refine hs.vacant other schedule.id ?_
    rw [hpass]
    rfl
  have hids : ∀ other id, ((({ s with active := schedule.id :: s.active }.setPass 0 (.looping now due)).setRun run
      (.running schedule now)).runs other).scheduleID = some id →
      (other = run ∧ id = schedule.id) ∨ (other ≠ run ∧ (s.runs other).scheduleID = some id) := by
    intro other id hother
    by_cases hsame : other = run
    · rw [hsame, setRun_runs_self] at hother
      exact .inl ⟨hsame, (some.inj hother).symm⟩
    · rw [setRun_runs_of_ne _ hsame] at hother
      exact .inr ⟨hsame, hother⟩
  refine ⟨?_, ?_, ?_, ?_⟩
  · intro pass hne
    exact (setPass_passes_of_ne _ hne _).trans (hs.single pass hne)
  · intro other id hother
    rcases hids other id hother with ⟨_, rfl⟩ | ⟨_, hold⟩
    · exact mem_cons_self
    · exact mem_cons_of_mem _ (hs.active other id hold)
  · intro one other id hone hother
    rcases hids one id hone with ⟨hrun, hid⟩ | ⟨_, hold⟩
    · grind
    · rcases hids other id hother with ⟨_, hid'⟩ | ⟨_, hold'⟩
      · exact absurd (hid' ▸ hold) (hvacant one)
      · exact hs.unique one other id hold hold'
  · intro other id hclaim
    have hphase : (.looping now due : Pass).claim = some id := by
      rw [← setPass_passes_self { s with active := schedule.id :: s.active } 0 (.looping now due)]
      exact hclaim
    cases hphase

theorem Exclusive.leave (hs : Exclusive s) {scheduleID : String} (hrun : s.runs run = .leaving scheduleID) :
    Exclusive ({ s with active := s.active.filter (· ≠ scheduleID) }.setRun run .idle) := by
  have hids : ∀ other id, (({ s with active := s.active.filter (· ≠ scheduleID) }.setRun run .idle).runs
      other).scheduleID = some id → other ≠ run ∧ (s.runs other).scheduleID = some id := by
    intro other id hother
    by_cases hsame : other = run
    · rw [hsame, setRun_runs_self] at hother
      cases hother
    · rw [setRun_runs_of_ne _ hsame] at hother
      exact ⟨hsame, hother⟩
  have hleaving : (s.runs run).scheduleID = some scheduleID := by
    rw [hrun]
    rfl
  refine ⟨hs.single, ?_, ?_, ?_⟩
  · intro other id hother
    obtain ⟨hne, hold⟩ := hids other id hother
    refine mem_filter.mpr ⟨hs.active other id hold, decide_eq_true ?_⟩
    rintro rfl
    exact hne (hs.unique other run id hold hleaving)
  · intro one other id hone hother
    exact hs.unique one other id (hids one id hone).2 (hids other id hother).2
  · intro other id hclaim hother
    exact hs.vacant other id hclaim (hids other id hother).2

theorem Exclusive.store (hs : Exclusive s) (table : ScheduleTable) (started : List (String × Time)) :
    Exclusive { s with table, started } :=
  { hs with }

theorem processDueSchedule_starts
    (hstarts : (processDueSchedule lib schedule now active).starts = true) : active = false := by
  cases active with
  | false => rfl
  | true => cases hstarts

theorem Exclusive.step (hs : Exclusive s) (hl : l.InTurn) (hstep : Scheduling.StepCase lib batchLimit s l s') :
    Exclusive s' := by
  cases hstep with
  | list hpass =>
    obtain rfl := hl
    exact hs.setPass nofun
  | finish hpass | disabled hpass henabled | unprocessed hpass =>
    obtain rfl := hs.pass_eq_zero hpass nofun
    exact hs.setPass nofun
  | check hpass henabled =>
    obtain rfl := hs.pass_eq_zero hpass nofun
    refine hs.setPass ?_
    intro run id hclaim hrun
    have hactive := hs.active run id hrun
    grind [Pass.claim_checked]
  | started hpass htable hstarts =>
    obtain rfl := hs.pass_eq_zero hpass nofun
    obtain rfl := processDueSchedule_starts hstarts
    refine (hs.store _ _).setPass ?_
    intro run id hclaim
    refine hs.vacant run id ?_
    rw [hpass, ← hclaim]
    exact congrArg some (processDueSchedule_sameSettings lib _ _ _).id.symm
  | marked hpass htable hstarts =>
    obtain rfl := hs.pass_eq_zero hpass nofun
    exact (hs.store _ s.started).setPass nofun
  | start hpass hrun =>
    obtain rfl := hs.pass_eq_zero hpass nofun
    exact hs.start hpass
  | load hrun hlatest => exact hs.setRun (scheduleID_load hrun hlatest)
  | lost hrun | unrecorded hrun =>
    refine hs.setRun ?_
    rw [hrun]
    rfl
  | record hrun htable =>
    refine (hs.store _ s.started).setRun ?_
    rw [hrun]
    rfl
  | leave hrun => exact hs.leave hrun
  | get | put | refused | create | uncreated | delete | deleteByWorkflow => exact { hs with }

theorem exclusive_init (lib : ScheduleLibrary) (batchLimit : Nat) (table : ScheduleTable) :
    Exclusive (scheduling lib batchLimit table).init := by
  refine ⟨fun _ _ => rfl, ?_, ?_, ?_⟩
  · intro run id hid
    cases hid
  · intro run run' id hid
    cases hid
  · intro run id hclaim
    cases hclaim

def Pass.now? : Pass → Option Time
  | .looping now _ => some now
  | .checked now _ _ _ => some now
  | .updated now _ _ => some now
  | .idle => none

/-- The schedules of a pass were due at its time, each of them is there once, and
they will occur again. -/
structure Pass.Punctual (lib : ScheduleLibrary) (phase : Pass) : Prop where
  year : ∀ now, phase.now? = some now → now.year + 5 < 10000
  due : ∀ now, phase.now? = some now → ∀ y ∈ phase.snapshots, y.nextRunAt ≤ now ∧ WillOccur lib y.cron now
  distinct : (phase.snapshots.map (·.id)).Nodup

variable {before after : Pass}

theorem Pass.Punctual.of_sublist (hbefore : before.Punctual lib) (hnow : after.now? = before.now?)
    (hsub : after.snapshots.Sublist before.snapshots) : after.Punctual lib := by
  refine ⟨?_, ?_, (hsub.map _).nodup hbefore.distinct⟩
  · intro now hafter
    exact hbefore.year now (hnow ▸ hafter)
  · intro now hafter y hy
    exact hbefore.due now (hnow ▸ hafter) y (hsub.subset hy)

theorem Pass.punctual_idle : Pass.idle.Punctual lib := ⟨nofun, nofun, nodup_nil⟩

variable (hsortable : ∀ row ∈ s.table.rows, Sortable row.nextRunAt)
include hsortable

theorem punctual_list (hyear : now.year + 5 < 10000)
    (hoccurs : ∀ row ∈ s.table.rows, row.enabled = true → WillOccur lib row.cron now) :
    (Pass.looping now (s.table.listDueSchedules now batchLimit)).Punctual lib := by
  refine ⟨?_, ?_, s.table.listDueSchedules_nodup now batchLimit⟩
  · rintro _ ⟨⟩
    exact hyear
  · rintro _ ⟨⟩ y hy
    obtain ⟨hrow, henabled, htext⟩ := mem_listDueSchedules hy
    grind [le_of_text_le]

omit hsortable in
theorem punctual_setPass (hs : Exclusive s) (hpunctual : (s.passes 0).Punctual lib) {pass : Nat}
    (hpass : s.passes pass = before) (hbusy : before ≠ .idle) (hnow : after.now? = before.now?)
    (hsub : after.snapshots.Sublist before.snapshots) : ((s.setPass pass after).passes 0).Punctual lib := by
  obtain rfl := hs.pass_eq_zero hpass hbusy
  rw [setPass_passes_self]
  exact (hpass ▸ hpunctual).of_sublist hnow hsub

theorem punctual_step (hs : Exclusive s) (hpunctual : (s.passes 0).Punctual lib) (hl : OneScheduler lib s l)
    (hstep : Scheduling.StepCase lib batchLimit s l s') : (s'.passes 0).Punctual lib := by
  cases hstep with
  | list hpass =>
    obtain ⟨rfl, hyear, hoccurs⟩ := hl
    simp_all [punctual_list]
  | finish hpass =>
    obtain rfl := hs.pass_eq_zero hpass nofun
    rw [setPass_passes_self]
    exact Pass.punctual_idle
  | check hpass henabled | start hpass hrun => exact punctual_setPass hs hpunctual hpass nofun rfl (Sublist.refl _)
  | disabled hpass henabled | unprocessed hpass | started hpass htable hstarts | marked hpass htable hstarts =>
    exact punctual_setPass hs hpunctual hpass nofun rfl (sublist_cons_self _ _)
  | load | lost | record | unrecorded | leave | get | put | refused | create | uncreated | delete
  | deleteByWorkflow => exact hpunctual

omit hsortable

def Scheduling.Version (s : Scheduling) (y : WorkflowSchedule) : Prop := y ∈ s.table.rows ∨ s.Holds y

structure Increasing (s : Scheduling) : Prop where
  sortable : ∀ y, s.Version y → Sortable y.nextRunAt
  after : ∀ y, s.Version y → ∀ o, (y.id, o) ∈ s.started → o < y.nextRunAt
  nodup : s.started.Nodup

/-- Where a version after a step comes from: it has the due time of an earlier one,
a pass has computed it, or a user has asked for it. -/
inductive Origin (s : Scheduling) (z : WorkflowSchedule) : Prop where
  | copied (y : WorkflowSchedule) (hy : s.Version y) (hid : z.id = y.id) (hnext : z.nextRunAt = y.nextRunAt)
  | computed (y : WorkflowSchedule) (hy : s.Version y) (hid : z.id = y.id) (hlater : y.nextRunAt < z.nextRunAt)
      (hsortable : Sortable z.nextRunAt)
  | requested (hlater : ∀ o, (z.id, o) ∈ s.started → o < z.nextRunAt) (hsortable : Sortable z.nextRunAt)

theorem Increasing.of_origin (hs : Increasing s) (hversions : ∀ z, s'.Version z → Origin s z)
    (hstarted : s'.started = s.started) : Increasing s' := by
  refine ⟨?_, ?_, hstarted ▸ hs.nodup⟩
  · intro z hz
    cases hversions z hz with
    | copied y hy hid hnext => exact hnext ▸ hs.sortable y hy
    | computed y hy hid hlater hsortable | requested hlater hsortable => exact hsortable
  · intro z hz o ho
    rw [hstarted] at ho
    cases hversions z hz with
    | copied y hy hid hnext =>
      rw [hnext]
      exact hs.after y hy o (hid ▸ ho)
    | computed y hy hid hlater hsortable => exact (hs.after y hy o (hid ▸ ho)).trans hlater
    | requested hlater hsortable => exact hlater o ho

variable {z : WorkflowSchedule}

theorem origin_of_processed (hpunctual : (s.passes 0).Punctual lib)
    (hpass : s.passes 0 = .checked now schedule active due)
    (htable : s.table.updateSchedule clock (processDueSchedule lib schedule now active).schedule = some table)
    (hz : z ∈ table.rows) : (z ∈ s.table.rows ∧ z.id ≠ schedule.id) ∨
      z.id = schedule.id ∧ schedule.nextRunAt < z.nextRunAt ∧ Sortable z.nextRunAt := by
  have hdue : schedule.nextRunAt ≤ now ∧ WillOccur lib schedule.cron now := by
    refine hpunctual.due now ?_ schedule ?_ <;> rw [hpass]
    · rfl
    · exact mem_cons_self
  have hyear : now.year + 5 < 10000 := hpunctual.year now (by rw [hpass]; rfl)
  obtain ⟨row, hmem, hsame, hlater, hsortable⟩ := processed_row hdue.2 hyear htable
  by_cases hid : z.id = schedule.id
  · have heq : z = row := Table.eq_of_key hz hmem (hid.trans hsame.id.symm)
    rw [heq]
    exact .inr ⟨hsame.id, hdue.1.trans_lt hlater, hsortable⟩
  · rcases (updateSchedule_written htable).rows z hz with ⟨hrow, _⟩ | ⟨hsame', _⟩
    · exact .inl ⟨hrow, hid⟩
    · exact absurd (hsame'.id.trans (processDueSchedule_sameSettings lib schedule now active).id) hid

theorem Increasing.of_table (hs : Increasing s) (hstep : Scheduling.StepCase lib batchLimit s l s')
    (hrows : ∀ row ∈ s'.table.rows, row ∈ s.table.rows) (hstarted : s'.started = s.started) : Increasing s' := by
  refine hs.of_origin ?_ hstarted
  rintro z (hrow | hheld)
  · exact .copied z (.inl (hrows z hrow)) rfl rfl
  · rcases hstep.holds hheld with hold | ⟨row, hrow, hsame, hnext⟩
    · exact .copied z (.inr hold) rfl rfl
    · exact .copied row (.inl hrow) hsame.id hnext

variable {id : String}

theorem Increasing.add (hs : Increasing s) {o : Time} (hfresh : (id, o) ∉ s.started)
    (hlater : ∀ y, s.Version y → y.id = id → o < y.nextRunAt) :
    Increasing { s with started := s.started ++ [(id, o)] } := by
  refine ⟨hs.sortable, ?_, ?_⟩
  · intro y hy o' ho'
    rcases mem_append.mp ho' with hold | hnew
    · exact hs.after y hy o' hold
    · cases mem_singleton.mp hnew
      exact hlater y hy rfl
  · rw [nodup_append]
    refine ⟨hs.nodup, nodup_singleton _, ?_⟩
    rintro a ha b hb rfl
    exact hfresh (mem_singleton.mp hb ▸ ha)

structure Orderly (lib : ScheduleLibrary) (s : Scheduling) : Prop where
  exclusive : Exclusive s
  punctual : (s.passes 0).Punctual lib
  increasing : Increasing s

variable (hs : Orderly lib s)
include hs

theorem Orderly.processed
    {phase : Pass} (hpass : s.passes 0 = .checked now schedule active due) (hphase : phase.snapshots = due)
    (htable : s.table.updateSchedule clock (processDueSchedule lib schedule now active).schedule = some table) :
    Increasing ({ s with table }.setPass 0 phase) := by
  have hheld : s.Holds schedule := by
    refine .inl ⟨0, ?_⟩
    rw [hpass]
    exact mem_cons_self
  refine hs.increasing.of_origin ?_ rfl
  rintro z (hrow | hz)
  · rcases origin_of_processed hs.punctual hpass htable hrow with ⟨hold, _⟩ | ⟨hid, hlater, hsortable⟩
    · exact .copied z (.inl hold) rfl rfl
    · exact .computed schedule (.inr hheld) hid hlater hsortable
  · refine .copied z (.inr (holds_of_setPass hz hpass ?_)) rfl rfl
    rw [hphase]
    exact subset_cons_self _ _

theorem Orderly.started {processed : WorkflowSchedule} (hpass : s.passes 0 = .checked now schedule false due)
    (htable : s.table.updateSchedule clock (processDueSchedule lib schedule now false).schedule = some table) :
    Increasing ({ s with table, started := s.started ++ [(schedule.id, schedule.nextRunAt)] }.setPass 0
      (.updated now processed due)) := by
  have hheld : s.Holds schedule := by
    refine .inl ⟨0, ?_⟩
    rw [hpass]
    exact mem_cons_self
  have hdistinct : schedule.id ∉ due.map (·.id) := by
    have hnodup := hs.punctual.distinct
    rw [hpass] at hnodup
    exact (nodup_cons.mp hnodup).1
  refine (hs.processed hpass rfl htable).add ?_ ?_
  · intro hmem
    exact lt_irrefl _ (hs.increasing.after schedule (.inr hheld) _ hmem)
  · rintro y (hrow | hy) hid
    · rcases origin_of_processed hs.punctual hpass htable hrow with ⟨_, hne⟩ | ⟨_, hlater, _⟩
      · exact absurd hid hne
      · exact hlater
    · -- no other version of the schedule is about to be written
      exfalso
      rcases hy with ⟨pass, hmem⟩ | ⟨run, hmem⟩
      · by_cases hzero : pass = 0
        · rw [hzero, setPass_passes_self] at hmem
          exact hdistinct (List.mem_map.mpr ⟨y, hmem, hid⟩)
        · rw [setPass_passes_of_ne _ hzero] at hmem
          have hidle := hs.exclusive.single pass hzero
          rw [hidle] at hmem
          cases hmem
      · refine hs.exclusive.vacant run schedule.id ?_ (hid ▸ ScheduledRun.scheduleID_of_mem hmem)
        rw [hpass]
        rfl

theorem Orderly.record (hrun : s.runs run = .loaded latest) (hphase : phase.snapshots = [])
    (htable : s.table.updateSchedule clock latest = some table) : Increasing ({ s with table }.setRun run phase) := by
  have hwritten := updateSchedule_written htable
  have hheld : s.Holds latest := by
    refine .inr ⟨run, ?_⟩
    rw [hrun]
    exact mem_cons_self
  refine hs.increasing.of_origin ?_ rfl
  rintro z (hrow | hz)
  · rcases hwritten.rows z hrow with ⟨hold, _⟩ | ⟨hsame, hnext⟩
    · exact .copied z (.inl hold) rfl rfl
    · exact .copied latest (.inr hheld) hsame.id hnext
  · exact .copied z (.inr (holds_of_setRun hz hphase)) rfl rfl

variable {req : WorkflowScheduleRequest} {call : Option Time}

theorem Orderly.create {workflowID : String} (hyear : now.year + 5 < 10000) (hfresh : ∀ o, (id, o) ∉ s.started)
    (htable : handleCreateWorkflowSchedule lib s.table id workflowID req now call = some (schedule, table)) :
    Increasing { s with table } := by
  obtain ⟨row, hid, hrows, _, hnext⟩ := handleCreateWorkflowSchedule_some htable
  have hsortable : Sortable row.nextRunAt := by
    rcases hnext with hzero | ⟨recurrence, hcomputed⟩
    · rw [hzero]
      exact ⟨rfl, by decide⟩
    · rw [hcomputed]
      exact next_sortable recurrence hyear
  refine hs.increasing.of_origin ?_ rfl
  rintro z (hz | hz)
  · rcases mem_append.mp (hrows ▸ hz) with hold | hnew
    · exact .copied z (.inl hold) rfl rfl
    · rw [mem_singleton.mp hnew]
      exact .requested (fun o ho => absurd (hid ▸ ho) (hfresh o)) hsortable
  · exact .copied z (.inr hz) rfl rfl

theorem Orderly.put {update : Nat} {existing next : WorkflowSchedule} (htimely : Timely lib s existing req now)
    (htable : handleUpdateWorkflowSchedule lib s.table existing req now call = some (next, table)) :
    Increasing { s with table, updates := Function.update s.updates update none } := by
  obtain ⟨hid, hwritten, accepted, haccepted, hnext, _⟩ := handleUpdateWorkflowSchedule_some htable
  obtain ⟨row, hrow, hrowID, hrowNext⟩ := htimely.current
  obtain ⟨_, _, recurrence, hparse, hcases⟩ := applyScheduleRequest_ok haccepted
  refine hs.increasing.of_origin ?_ rfl
  rintro z (hz | hz)
  · rcases hwritten.rows z hz with ⟨hold, _⟩ | ⟨hsame, hnextRunAt⟩
    · exact .copied z (.inl hold) rfl rfl
    · have hzID : z.id = existing.id := hsame.id.trans hid
      rcases hcases with hkept | hcomputed
      · exact .copied row (.inl hrow) (hzID.trans hrowID.symm)
          (hnextRunAt.trans (hnext.trans (hkept.trans hrowNext.symm)))
      · obtain ⟨recurrence', hparse', hoccurs⟩ := htimely.occurs accepted haccepted
        obtain rfl : recurrence' = recurrence := Except.ok.inj (hparse'.symm.trans hparse)
        obtain ⟨hlater, hsortable⟩ := hoccurs.next htimely.year
        have hz' : z.nextRunAt = recurrence'.next now := hnextRunAt.trans (hnext.trans hcomputed)
        refine .requested ?_ (hz' ▸ hsortable)
        intro o ho
        rw [hz']
        exact (htimely.clock o (hzID ▸ ho)).trans_lt hlater
  · exact .copied z (.inr hz) rfl rfl

theorem Orderly.step (hl : OneScheduler lib s l) (hstep : Scheduling.StepCase lib batchLimit s l s') :
    Orderly lib s' := by
  refine ⟨hs.exclusive.step hl.inTurn hstep,
    punctual_step (fun row hrow => hs.increasing.sortable row (.inl hrow)) hs.exclusive hs.punctual hl hstep, ?_⟩
  have hcase := hstep
  cases hstep with
  | started hpass htable hstarts =>
    obtain rfl := hs.exclusive.pass_eq_zero hpass nofun
    obtain rfl := processDueSchedule_starts hstarts
    exact hs.started hpass htable
  | marked hpass htable hstarts =>
    obtain rfl := hs.exclusive.pass_eq_zero hpass nofun
    exact hs.processed hpass rfl htable
  | record hrun htable => exact hs.record hrun rfl htable
  | create htable => exact hs.create hl.1 hl.2 htable
  | put hupdate htable => exact hs.put (hl _ hupdate) htable
  | delete => exact hs.increasing.of_table hcase (fun row hrow => mem_of_mem_deleteSchedule hrow) rfl
  | deleteByWorkflow => exact hs.increasing.of_table hcase (fun row hrow => mem_of_mem_filter hrow) rfl
  | list | finish | check | disabled | unprocessed | start | load | lost | unrecorded | leave | get | refused
  | uncreated => exact hs.increasing.of_table hcase (fun row hrow => hrow) rfl

omit hs

theorem orderly_init (lib : ScheduleLibrary) (batchLimit : Nat) :
    Orderly lib (scheduling lib batchLimit Table.empty).init := by
  have hversion : ∀ y, ¬ (scheduling lib batchLimit Table.empty).init.Version y := by
    rintro y (hrow | ⟨_, hmem⟩ | ⟨_, hmem⟩)
    · exact not_mem_nil hrow
    · exact not_mem_nil hmem
    · exact not_mem_nil hmem
  refine ⟨exclusive_init lib batchLimit Table.empty, Pass.punctual_idle, ?_, ?_, nodup_nil⟩
  · exact fun y hy => absurd hy (hversion y)
  · exact fun y hy => absurd hy (hversion y)

end invariants

/-- A schedule that was accepted and has an occurrence in the next five years is
later than the pass that has processed it, and is not due again at the time of the
pass. One scheduler starts at most one run for a due time of a schedule. -/
theorem processed_once (lib : ScheduleLibrary) (batchLimit : Nat) :
    (∀ (initial : ScheduleTable) (base accepted schedule : WorkflowSchedule) (req : WorkflowScheduleRequest)
      (creating : Bool) (earlier now clock : Time) (s s' : Scheduling) (pass : Nat) (active : Bool)
      (due : List WorkflowSchedule) (table : ScheduleTable),
      applyScheduleRequest lib base req creating earlier = .ok accepted → schedule.cron = accepted.cron →
      (∀ recurrence, parseCronExpressionUTC lib schedule.cron = .ok recurrence → OccursAfter recurrence now) →
      now.year + 5 < 10000 → s.passes pass = .checked now schedule active due →
      s.table.updateSchedule clock (processDueSchedule lib schedule now active).schedule = some table →
      (scheduling lib batchLimit initial).step (.process pass (some clock)) s = some s' →
      ∃ row, s'.table.getSchedule schedule.workflowID schedule.id = some row ∧ now < row.nextRunAt ∧
        ∀ limit, ∀ again ∈ s'.table.listDueSchedules now limit, again.id ≠ schedule.id) ∧
    ∀ s, (scheduling lib batchLimit Table.empty).ReachesUnder (OneScheduler lib)
      (scheduling lib batchLimit Table.empty).init s → s.started.Nodup := by
  refine ⟨?_, ?_⟩
  · intro initial base accepted schedule req creating earlier now clock s s' pass active due table happly hcron hoccurs
      hyear hpass htable hstep
    obtain ⟨_, _, recurrence, hparse, _⟩ := applyScheduleRequest_ok happly
    rw [← hcron] at hparse
    obtain ⟨row, hmem, hsame, hlater, hsortable⟩ := processed_row ⟨recurrence, hparse, hoccurs recurrence hparse⟩
      hyear htable
    rw [process_table hpass htable hstep]
    refine ⟨row, getSchedule_eq_some.mpr ⟨hmem, hsame.workflowID, hsame.id⟩, hlater, ?_⟩
    rw [← hsame.id]
    exact not_listed hmem hlater hsortable (by omega)
  · intro s hreach
    have horderly := hreach.invariant (fun s l s' hs hl hstep => hs.step hl (Scheduling.step_cases hstep))
      (orderly_init lib batchLimit)
    exact horderly.increasing.nodup

namespace annual

theorem newYear_occurs (t : Time) : OccursAfter newYear t :=
  ⟨⟨t.year + 1, 1, 1, 0, 0, 0, 0, by simp [daysIn], by decide⟩, by simp [newYear],
    Lex.rel (Nat.lt_succ_self _), by simp⟩

theorem newYear_willOccur (t : Time) : WillOccur annual.lib "0 0 1 1 *" t :=
  ⟨newYear, by rfl, newYear_occurs t⟩

def admitted (s : Scheduling) : SchedulingLabel → Bool
  | .list pass now => pass = 0 ∧ now.year + 5 < 10000 ∧ ∀ row ∈ s.table.rows, row.cron = "0 0 1 1 *"
  | .create id _ _ now _ => now.year + 5 < 10000 ∧ id ∉ s.started.map Prod.fst
  | .put _ _ _ _ => false
  | _ => true

theorem oneScheduler_of_admitted {s : Scheduling} {l : SchedulingLabel} (hl : admitted s l = true) :
    OneScheduler annual.lib s l := by
  cases l with
  | list pass now =>
    obtain ⟨hzero, hyear, hcron⟩ := of_decide_eq_true hl
    exact ⟨hzero, hyear, fun row hrow _ => hcron row hrow ▸ newYear_willOccur now⟩
  | create id workflowID req now call =>
    obtain ⟨hyear, hfresh⟩ := of_decide_eq_true hl
    exact ⟨hyear, fun o ho => hfresh (List.mem_map_of_mem ho)⟩
  | put => cases hl
  | _ => trivial

def empty : Machine Scheduling SchedulingLabel := scheduling annual.lib 100 Table.empty

def checked : Scheduling :=
  { empty.init with
    table := annual.table
    passes := Function.update (fun _ => .idle) 0 (.checked annual.now report false []) }

def steps (cron : String) : List SchedulingLabel :=
  [.create "annual" "report" { cron } report.createdAt (some now), .list 0 now, .check 0, .process 0 (some now),
    .start 0 0, .check 0]

def again : List SchedulingLabel :=
  [.load 0 now (.ok "run") true, .record 0 (some now), .leave 0, .list 0 now, .check 0]

end annual

/-- A report that was due is later then, and the passes of a year start one run of it. -/
theorem annual_processed_once :
    (∃ s' row, annual.empty.step (.process 0 (some annual.now)) annual.checked = some s' ∧
      s'.table.getSchedule "report" "annual" = some row ∧ annual.now < row.nextRunAt) ∧
    ∃ s, annual.empty.Reaches annual.empty.init s ∧ s.started.length = 1 ∧ s.started.Nodup := by
  obtain ⟨hpass, hruns⟩ := processed_once annual.lib 100
  refine ⟨?_, ?_⟩
  · have htable : (annual.table.updateSchedule annual.now
        (processDueSchedule annual.lib annual.report annual.now false).schedule).isSome = true := by decide +kernel
    have hstep : (annual.empty.step (.process 0 (some annual.now)) annual.checked).isSome = true := by decide +kernel
    have haccepted : (applyScheduleRequest annual.lib annual.report {} false annual.now).toOption.any
        (·.cron = "0 0 1 1 *") = true := by decide +kernel
    obtain ⟨table, htable⟩ := isSome_iff_exists.mp htable
    obtain ⟨s', hstep⟩ := isSome_iff_exists.mp hstep
    obtain ⟨accepted, hok, hcron⟩ := (Option.any_eq_true _ _).mp haccepted
    have hoccurs : ∀ recurrence, parseCronExpressionUTC annual.lib annual.report.cron = .ok recurrence →
        OccursAfter recurrence annual.now := by
      intro recurrence hparse
      cases hparse
      exact annual.newYear_occurs _
    obtain ⟨row, hrow, hlater, _⟩ := hpass Table.empty annual.report accepted annual.report {} false annual.now
      annual.now annual.now annual.checked s' 0 false [] table (toOption_eq_some.mp hok) (of_decide_eq_true hcron).symm
      hoccurs (by decide) rfl htable hstep
    exact ⟨s', row, hstep, hrow, hlater⟩
  · obtain ⟨s, hreach, hlength⟩ := Machine.exists_reachesUnder_of_exec (m := annual.empty) (P := annual.admitted)
      (annual.steps "0 0 1 1 *" ++ annual.again) (fun s => s.started.length = 1) (by decide +kernel)
    have hadmitted := hreach.mono fun s l hl => annual.oneScheduler_of_admitted hl
    exact ⟨s, hreach.reaches, of_decide_eq_true hlength, hruns s hadmitted⟩

/-- An expression without any occurrence is accepted, and a run is started at each pass. -/
theorem annual_due_again :
    (applyScheduleRequest annual.lib annual.report { cron := "0 0 31 2 *" } false annual.now).isOk = true ∧
    ((annual.empty.exec (annual.steps "0 0 31 2 *") annual.empty.init).map fun s =>
      (s.table.rows.map (·.nextRunAt), (s.table.listDueSchedules annual.now 100).map (·.id))) =
        some ([Time.zero], ["annual"]) ∧
    ((annual.empty.exec (annual.steps "0 0 31 2 *" ++ annual.again ++ [.process 0 (some annual.now)])
      annual.empty.init).map (·.started)) = some [("annual", Time.zero), ("annual", Time.zero)] := by
  decide +kernel

theorem text_le_iff {t : Time} (ht : t.year < 10000) (hyear : now.year < 10000)
    (hover : ¬ t.Overtakes now ∧ ¬ now.Overtakes t) : t.rfc3339Nano ≤ now.rfc3339Nano ↔ t ≤ now := by
  constructor
  · intro hle
    by_contra hlater
    exact absurd hle (not_le.mpr (Time.rfc3339Nano_lt_of_lt hyear ht (not_le.mp hlater) hover.2))
  · intro hle
    rcases hle.lt_or_eq with hlt | rfl
    · exact (Time.rfc3339Nano_lt_of_lt ht hyear hlt hover.1).le
    · exact le_rfl

/-- Times are compared as texts. The due schedules are listed in order exactly if the text of no enabled
one overtakes that of the present time or of another due one, or is overtaken by it. -/
theorem listDueSchedules_exact (t : ScheduleTable) (now : Time) (hyear : now.year < 10000)
    (hyears : ∀ row ∈ t.rows, row.nextRunAt.year < 10000) :
    ((t.listDueSchedules now 0).Perm (t.rows.filter fun row => row.enabled ∧ row.nextRunAt ≤ now) ∧
      (t.listDueSchedules now 0).Pairwise fun a b => a.nextRunAt ≤ b.nextRunAt) ↔
    ∀ row ∈ t.rows, row.enabled → ¬ row.nextRunAt.Overtakes now ∧ ¬ now.Overtakes row.nextRunAt ∧
      ∀ other ∈ t.rows, other.enabled → row.nextRunAt ≤ now → other.nextRunAt ≤ now →
        ¬ row.nextRunAt.Overtakes other.nextRunAt := by
  have hsorted : (t.listDueSchedules now 0).Pairwise fun a b => a.nextRunAt.rfc3339Nano ≤ b.nextRunAt.rfc3339Nano :=
    List.pairwise_insertionSort _ _
  have hlisted : (t.listDueSchedules now 0).Perm _ := List.perm_insertionSort _ _
  constructor
  · rintro ⟨hperm, horder⟩ row hrow henabled
    have hdue {row : WorkflowSchedule} (hrow : row ∈ t.rows) (henabled : row.enabled) :
        row ∈ t.listDueSchedules now 0 ↔ row.nextRunAt ≤ now := by
      simp [hperm.mem_iff, hrow, henabled]
    have htext : row ∈ t.listDueSchedules now 0 ↔ row.nextRunAt.rfc3339Nano ≤ now.rfc3339Nano := by
      simp [hlisted.mem_iff, hrow, henabled]
    rw [hdue hrow henabled] at htext
    refine ⟨fun hover => ?_, fun hover => ?_, fun other hother hotherEnabled hle hotherLe hover => ?_⟩
    · have hle := ((Time.lt_of_fields_eq hover.1).mpr hover.2.1).le
      exact absurd (htext.mp hle) (not_le.mpr (Time.rfc3339Nano_overtaken hover))
    · have hlater := (Time.lt_of_fields_eq hover.1).mpr hover.2.1
      exact absurd (htext.mpr (Time.rfc3339Nano_overtaken hover).le) (not_le.mpr hlater)
    · have hnever : (t.listDueSchedules now 0).Pairwise fun a b =>
          ¬ a.nextRunAt.Overtakes b.nextRunAt ∧ ¬ b.nextRunAt.Overtakes a.nextRunAt := by
        refine (hsorted.and horder).imp fun ⟨htexts, htimes⟩ => ⟨fun hover => ?_, fun hover => ?_⟩
        · exact absurd htexts (not_le.mpr (Time.rfc3339Nano_overtaken hover))
        · exact absurd htimes (not_le.mpr ((Time.lt_of_fields_eq hover.1).mpr hover.2.1))
      have hne : row ≠ other := fun h => hover.2.1.ne (by rw [h])
      have : Std.Symm fun a b : WorkflowSchedule =>
        ¬ a.nextRunAt.Overtakes b.nextRunAt ∧ ¬ b.nextRunAt.Overtakes a.nextRunAt := ⟨fun _ _ => And.symm⟩
      exact (hnever.forall ((hdue hrow henabled).mpr hle) ((hdue hother hotherEnabled).mpr hotherLe) hne).1 hover
  · intro hexact
    refine ⟨hlisted.trans (.of_eq (List.filter_congr fun row hrow => ?_)), ?_⟩
    · by_cases henabled : row.enabled
      · obtain ⟨hnow, hnow', _⟩ := hexact row hrow henabled
        simp only [text_le_iff (hyears row hrow) hyear ⟨hnow, hnow'⟩]
      · simp [henabled]
    · refine hsorted.imp_of_mem fun {a b} ha hb hle => ?_
      obtain ⟨ha, haEnabled, haText⟩ := ScheduleTable.mem_listDueSchedules ha
      obtain ⟨hb, hbEnabled, hbText⟩ := ScheduleTable.mem_listDueSchedules hb
      obtain ⟨hanow, hanow', haothers⟩ := hexact a ha haEnabled
      obtain ⟨hbnow, hbnow', hbothers⟩ := hexact b hb hbEnabled
      have haDue := (text_le_iff (hyears a ha) hyear ⟨hanow, hanow'⟩).mp haText
      have hbDue := (text_le_iff (hyears b hb) hyear ⟨hbnow, hbnow'⟩).mp hbText
      exact (text_le_iff (hyears a ha) (hyears b hb)
        ⟨haothers b hb hbEnabled haDue hbDue, hbothers a ha haEnabled hbDue haDue⟩).mp hle

theorem annual_listed :
    (annual.table.listDueSchedules annual.now 0).Pairwise fun a b => a.nextRunAt ≤ b.nextRunAt :=
  ((listDueSchedules_exact annual.table annual.now (by decide) (by decide)).mpr
    (List.forall_mem_singleton.mpr fun _ => by decide)).2

/-- A schedule that is due since half a second is not listed. -/
theorem annual_not_listed :
    annual.report.nextRunAt ≤ { annual.report.nextRunAt with nano := 500000000, clock := by decide } ∧
    (annual.table.listDueSchedules
      { annual.report.nextRunAt with nano := 500000000, clock := by decide } 0).length = 0 := by
  decide +kernel

end petalflow.server
