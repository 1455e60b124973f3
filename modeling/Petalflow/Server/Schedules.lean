import Petalflow.Core.Envelope
import Petalflow.Lib.Calendar
import Petalflow.Lib.Fold
import Petalflow.Lib.Dict

open petalflow.core calendar table List fold

namespace petalflow.server

inductive ScheduleRunStatus where
  | running | completed | failed | skippedOverlap
deriving DecidableEq, Repr

structure RunReqHumanOptions where
  mode : String := ""
  choice : String := ""
  notes : String := ""
  respondedBy : String := ""
  delay : String := ""
deriving DecidableEq, Repr

structure RunReqOptions where
  timeout : String := ""
  stream : Bool := false
  human : Option RunReqHumanOptions := none
deriving DecidableEq, Repr

structure WorkflowSchedule where
  id : String
  workflowID : String
  cron : String
  enabled : Bool
  input : Option Vars
  options : RunReqOptions
  nextRunAt : Time
  lastRunAt : Option Time
  lastRunID : String
  lastStatus : Option ScheduleRunStatus
  lastError : String
  createdAt : Time
  updatedAt : Time

structure ScheduleSettings where
  cron : String
  enabled : Bool
  input : Vars
  options : RunReqOptions

def WorkflowSchedule.settings (s : WorkflowSchedule) : ScheduleSettings :=
  ⟨s.cron, s.enabled, s.input.getD [], s.options⟩

structure ScheduleLibrary where
  parseCron : String → Except String Recurrence
  parseDuration : String → Except String Int
  toUpper : String → String
  toLower : String → String

section cron

variable (lib : ScheduleLibrary)

def parseCronExpressionUTC (expr : String) : Except String Recurrence :=
  let clean := text.trimSpace expr
  if clean = "" then .error "cron expression is required"
  else
    let upper := lib.toUpper clean
    if text.contains upper "CRON_TZ=" || text.contains upper "TZ=" then
      .error "cron expression must be UTC-only (timezone prefixes are not allowed)"
    else
      match lib.parseCron clean with
      | .error err => .error ("invalid cron expression: " ++ err)
      | .ok schedule => .ok schedule

def nextCronRunUTC (expr : String) (now : Time) : Except String Time :=
  match parseCronExpressionUTC lib expr with
  | .error err => .error err
  | .ok schedule => .ok (schedule.next now)

end cron

structure AutoApproveHandler where
  approved : Bool
  choice : String
  notes : String
  respondedBy : String
  delay : Int

inductive RunHumanHandler where
  | strict
  | auto (handler : AutoApproveHandler)

def newAutoHandler (approved : Bool) : AutoApproveHandler :=
  { approved, choice := "", notes := "", respondedBy := "auto", delay := 0 }

def override (given default : String) : String :=
  if text.trimSpace given = "" then default else given

def buildRunHumanHandler (lib : ScheduleLibrary) (cfg : Option RunReqHumanOptions) : Except String RunHumanHandler :=
  let mode :=
    match cfg with
    | some cfg => if text.trimSpace cfg.mode = "" then "strict" else lib.toLower (text.trimSpace cfg.mode)
    | none => "strict"
  if mode = "strict" then .ok .strict
  else if mode = "auto_approve" ∨ mode = "auto_reject" then
    let handler := newAutoHandler (mode = "auto_approve")
    match cfg with
    | none => .ok (.auto handler)
    | some cfg =>
      let handler := { handler with
        choice := override cfg.choice handler.choice
        notes := override cfg.notes handler.notes
        respondedBy := override cfg.respondedBy handler.respondedBy }
      if text.trimSpace cfg.delay = "" then .ok (.auto handler)
      else
        match lib.parseDuration cfg.delay with
        | .error err => .error ("options.human.delay: " ++ err)
        | .ok delay => .ok (.auto { handler with delay })
  else .error "options.human.mode must be one of: strict, auto_approve, auto_reject"

structure WorkflowScheduleRequest where
  cron : String := ""
  enabled : Option Bool := none
  input : Option Vars := none
  options : Option RunReqOptions := none

def WorkflowScheduleRequest.set (req : WorkflowScheduleRequest) (base : WorkflowSchedule) : WorkflowSchedule :=
  { base with
    cron := if text.trimSpace req.cron = "" then base.cron else text.trimSpace req.cron
    enabled := req.enabled.getD base.enabled
    input := req.input <|> base.input
    options := req.options.getD base.options }

def checkTimeout (lib : ScheduleLibrary) (timeout : String) : Except String Unit :=
  if text.trimSpace timeout = "" then .ok ()
  else
    match lib.parseDuration timeout with
    | .error err => .error ("options.timeout: " ++ err)
    | .ok _ => .ok ()

def checkSchedule (lib : ScheduleLibrary) (s : WorkflowSchedule) : Except String Unit :=
  if text.trimSpace s.cron = "" then .error "cron is required"
  else if s.options.stream then .error "options.stream is not supported for scheduled runs"
  else do
    checkTimeout lib s.options.timeout
    let _ ← buildRunHumanHandler lib s.options.human
    let _ ← parseCronExpressionUTC lib s.cron
    return ()

def applyScheduleRequest (lib : ScheduleLibrary) (base : WorkflowSchedule) (req : WorkflowScheduleRequest)
    (creating : Bool) (now : Time) : Except String WorkflowSchedule := do
  let next := req.set base
  checkSchedule lib next
  let cronChanged := text.trimSpace base.cron ≠ "" ∧ base.cron ≠ next.cron
  if next.enabled ∧ (creating ∨ cronChanged ∨ ¬ base.enabled ∨ next.nextRunAt = Time.zero) then
    let nextRunAt ← nextCronRunUTC lib next.cron now
    return { next with nextRunAt }
  else return next

abbrev ScheduleTable := Table WorkflowSchedule.id

def nullIfEmpty (value : String) : String :=
  if text.trimSpace value = "" then "" else value

def WorkflowSchedule.stored (s : WorkflowSchedule) (createdAt updatedAt : Time) : WorkflowSchedule :=
  { s with
    input := some (s.input.getD [])
    lastRunAt := s.lastRunAt.filter (· ≠ Time.zero)
    lastRunID := nullIfEmpty s.lastRunID
    lastError := nullIfEmpty s.lastError
    createdAt
    updatedAt }

namespace ScheduleTable

variable (t : ScheduleTable)

def getSchedule (workflowID scheduleID : String) : Option WorkflowSchedule :=
  t.rows.find? fun row => row.workflowID = workflowID ∧ row.id = scheduleID

def createSchedule (clock : Time) (s : WorkflowSchedule) : Option ScheduleTable :=
  let createdAt := if s.createdAt = Time.zero then clock else s.createdAt
  let updatedAt := if s.updatedAt = Time.zero then createdAt else s.updatedAt
  t.insert? (s.stored createdAt updatedAt)

def updateSchedule (clock : Time) (s : WorkflowSchedule) : Option ScheduleTable :=
  let updatedAt := if s.updatedAt = Time.zero then clock else s.updatedAt
  if (t.getSchedule s.workflowID s.id).isSome then
    some <| t.modify
      (fun row => if row.workflowID = s.workflowID ∧ row.id = s.id then s.stored row.createdAt updatedAt else row)
      (fun row => by
        split
        · next hrow => exact hrow.2.symm
        · rfl)
  else none

def deleteSchedule (workflowID scheduleID : String) : Option ScheduleTable :=
  if (t.getSchedule workflowID scheduleID).isSome then
    some (t.restrict fun row => ¬ (row.workflowID = workflowID ∧ row.id = scheduleID))
  else none

def deleteSchedulesByWorkflow (workflowID : String) : ScheduleTable :=
  t.restrict fun row => row.workflowID ≠ workflowID

def listDueSchedules (now : Time) (limit : Nat) : List WorkflowSchedule :=
  let due := (t.rows.filter fun row => row.enabled ∧ row.nextRunAt.rfc3339Nano ≤ now.rfc3339Nano).insertionSort
    fun a b => a.nextRunAt.rfc3339Nano ≤ b.nextRunAt.rfc3339Nano
  if 0 < limit then due.take limit else due

end ScheduleTable

section processing

variable (lib : ScheduleLibrary)

def WorkflowSchedule.mark (schedule : WorkflowSchedule) (nextRunAt : Time) (status : ScheduleRunStatus)
    (lastError : String) (now : Time) : WorkflowSchedule :=
  { schedule with nextRunAt, lastStatus := some status, lastError, updatedAt := now }

def markScheduleFailure (schedule : WorkflowSchedule) (now : Time) (runErr : String) : WorkflowSchedule :=
  match nextCronRunUTC lib schedule.cron now with
  | .ok nextRunAt => schedule.mark nextRunAt .failed runErr now
  | .error _ => schedule.mark schedule.nextRunAt .failed runErr now

def markSkippedOverlap (schedule : WorkflowSchedule) (now : Time) : WorkflowSchedule :=
  match nextCronRunUTC lib schedule.cron now with
  | .error err => markScheduleFailure lib schedule now ("invalid cron expression: " ++ err)
  | .ok nextRunAt =>
    schedule.mark nextRunAt .skippedOverlap "skipped because prior scheduled run is still active" now

structure Processed where
  schedule : WorkflowSchedule
  starts : Bool

def processDueSchedule (schedule : WorkflowSchedule) (now : Time) (active : Bool) : Processed :=
  if active then { schedule := markSkippedOverlap lib schedule now, starts := false }
  else
    match nextCronRunUTC lib schedule.cron now with
    | .error err =>
      { schedule := markScheduleFailure lib schedule now ("invalid cron expression: " ++ err), starts := false }
    | .ok nextRunAt => { schedule := schedule.mark nextRunAt .running "" now, starts := true }

def recordRun (latest : WorkflowSchedule) (finish : Time) (result : Except String String) : WorkflowSchedule :=
  let latest := { latest with updatedAt := finish, lastRunAt := some finish }
  match result with
  | .error err => { latest with lastStatus := some .failed, lastError := err }
  | .ok runID => { latest with lastStatus := some .completed, lastError := "", lastRunID := runID }

end processing

section lemmas

structure WorkflowSchedule.SameSettings (a b : WorkflowSchedule) : Prop where
  id : b.id = a.id
  workflowID : b.workflowID = a.workflowID
  settings : b.settings = a.settings

variable {lib : ScheduleLibrary} {a b c schedule : WorkflowSchedule} {now : Time}

theorem WorkflowSchedule.SameSettings.trans (hab : a.SameSettings b) (hbc : b.SameSettings c) : a.SameSettings c :=
  ⟨hbc.id.trans hab.id, hbc.workflowID.trans hab.workflowID, hbc.settings.trans hab.settings⟩

theorem WorkflowSchedule.stored_sameSettings (s : WorkflowSchedule) (createdAt updatedAt : Time) :
    s.SameSettings (s.stored createdAt updatedAt) :=
  ⟨rfl, rfl, rfl⟩

theorem processDueSchedule_of_parse {recurrence : Recurrence}
    (hparse : parseCronExpressionUTC lib schedule.cron = .ok recurrence) (now : Time) (active : Bool) :
    (∃ status err, (processDueSchedule lib schedule now active).schedule =
      schedule.mark (recurrence.next now) status err now) ∧
      (processDueSchedule lib schedule now active).starts = !active := by
  have hnext : nextCronRunUTC lib schedule.cron now = .ok (recurrence.next now) := by rw [nextCronRunUTC, hparse]
  cases active with
  | false =>
    simp only [processDueSchedule, Bool.false_eq_true, if_false, hnext, Bool.not_false, and_true]
    exact ⟨_, _, rfl⟩
  | true =>
    simp only [processDueSchedule, if_true, markSkippedOverlap, hnext, Bool.not_true, and_true]
    exact ⟨_, _, rfl⟩

theorem processDueSchedule_mark (lib : ScheduleLibrary) (schedule : WorkflowSchedule) (now : Time) (active : Bool) :
    ∃ nextRunAt status err,
      (processDueSchedule lib schedule now active).schedule = schedule.mark nextRunAt status err now := by
  cases hparse : parseCronExpressionUTC lib schedule.cron with
  | ok recurrence =>
    obtain ⟨⟨status, err, hmark⟩, _⟩ := processDueSchedule_of_parse hparse now active
    exact ⟨_, status, err, hmark⟩
  | error err =>
    have hnext : nextCronRunUTC lib schedule.cron now = .error err := by rw [nextCronRunUTC, hparse]
    cases active <;>
      simp only [processDueSchedule, markSkippedOverlap, markScheduleFailure, hnext, Bool.false_eq_true, if_false,
        if_true] <;>
      exact ⟨_, _, _, rfl⟩

theorem processDueSchedule_sameSettings (lib : ScheduleLibrary) (schedule : WorkflowSchedule) (now : Time)
    (active : Bool) : schedule.SameSettings (processDueSchedule lib schedule now active).schedule := by
  obtain ⟨nextRunAt, status, err, hmark⟩ := processDueSchedule_mark lib schedule now active
  rw [hmark]
  exact ⟨rfl, rfl, rfl⟩

theorem recordRun_sameSettings (latest : WorkflowSchedule) (finish : Time) (result : Except String String) :
    latest.SameSettings (recordRun latest finish result) := by
  cases result <;> exact ⟨rfl, rfl, rfl⟩

theorem recordRun_nextRunAt (latest : WorkflowSchedule) (finish : Time) (result : Except String String) :
    (recordRun latest finish result).nextRunAt = latest.nextRunAt := by
  cases result <;> rfl

theorem checkSchedule_ok (hcheck : checkSchedule lib schedule = .ok ()) :
    ∃ recurrence, parseCronExpressionUTC lib schedule.cron = .ok recurrence := by
  unfold checkSchedule at hcheck
  split at hcheck
  · cases hcheck
  · split at hcheck
    · cases hcheck
    · obtain ⟨_, _, hcheck⟩ := bind_eq_ok.mp hcheck
      obtain ⟨_, _, hcheck⟩ := bind_eq_ok.mp hcheck
      obtain ⟨recurrence, hparse, _⟩ := bind_eq_ok.mp hcheck
      exact ⟨recurrence, hparse⟩

variable (req : WorkflowScheduleRequest)
include req

variable (base : WorkflowSchedule)
include base

theorem WorkflowScheduleRequest.set_id : (req.set base).id = base.id := by
  simp only [WorkflowScheduleRequest.set]

theorem WorkflowScheduleRequest.set_workflowID : (req.set base).workflowID = base.workflowID := by
  simp only [WorkflowScheduleRequest.set]

theorem WorkflowScheduleRequest.set_nextRunAt : (req.set base).nextRunAt = base.nextRunAt := by
  simp only [WorkflowScheduleRequest.set]

omit base

omit req

theorem applyScheduleRequest_ok {base next : WorkflowSchedule} {req : WorkflowScheduleRequest} {creating : Bool}
    (happly : applyScheduleRequest lib base req creating now = .ok next) :
    next.id = base.id ∧ next.workflowID = base.workflowID ∧
      ∃ recurrence, parseCronExpressionUTC lib next.cron = .ok recurrence ∧
        (next.nextRunAt = base.nextRunAt ∨ next.nextRunAt = recurrence.next now) := by
  obtain ⟨⟨⟩, hcheck, hnext⟩ := bind_eq_ok.mp happly
  obtain ⟨recurrence, hparse⟩ := checkSchedule_ok hcheck
  dsimp only at hnext
  split at hnext
  · obtain ⟨nextRunAt, hnextRun, hnext⟩ := bind_eq_ok.mp hnext
    cases hnext
    simp only [nextCronRunUTC, hparse, Except.ok.injEq] at hnextRun
    dsimp only
    exact ⟨req.set_id base, req.set_workflowID base, recurrence, hparse, .inr hnextRun.symm⟩
  · cases hnext
    exact ⟨req.set_id base, req.set_workflowID base, recurrence, hparse, .inl (req.set_nextRunAt base)⟩

namespace ScheduleTable

variable {t t' : ScheduleTable} {clock : Time} {s row : WorkflowSchedule}
  {workflowID scheduleID : String}

theorem getSchedule_eq_some : t.getSchedule workflowID scheduleID = some row ↔
      row ∈ t.rows ∧ row.workflowID = workflowID ∧ row.id = scheduleID := by
  constructor
  · intro hget
    have hfound := find?_some hget
    rw [decide_eq_true_eq] at hfound
    exact ⟨mem_of_find?_eq_some hget, hfound⟩
  · rintro ⟨hmem, hworkflow, hid⟩
    cases hget : t.getSchedule workflowID scheduleID with
    | none =>
      have hnone := find?_eq_none.mp hget row hmem
      simp_all
    | some other =>
      have hfound := find?_some hget
      rw [decide_eq_true_eq] at hfound
      exact congrArg some (Table.eq_of_key (mem_of_find?_eq_some hget) hmem (hfound.2.trans hid.symm))

structure Written (t : ScheduleTable) (s : WorkflowSchedule) (t' : ScheduleTable) : Prop where
  row : ∃ row ∈ t'.rows, s.SameSettings row ∧ row.nextRunAt = s.nextRunAt
  rows : ∀ row ∈ t'.rows, (row ∈ t.rows ∧ row.id ≠ s.id) ∨ s.SameSettings row ∧ row.nextRunAt = s.nextRunAt
  kept : ∀ row ∈ t.rows, row.id ≠ s.id → row ∈ t'.rows

theorem updateSchedule_written (hupdate : t.updateSchedule clock s = some t') : Written t s t' := by
  simp only [updateSchedule] at hupdate
  split at hupdate
  · next hsome =>
    cases hupdate
    obtain ⟨old, hold⟩ := Option.isSome_iff_exists.mp hsome
    obtain ⟨hmem, hworkflow, hid⟩ := getSchedule_eq_some.mp hold
    refine ⟨⟨_, mem_map_of_mem hmem, ?_⟩, ?_, ?_⟩
    · rw [if_pos ⟨hworkflow, hid⟩]
      exact ⟨s.stored_sameSettings _ _, rfl⟩
    · intro row hrow
      obtain ⟨before, hbefore, rfl⟩ := mem_map.mp hrow
      by_cases hsame : before.workflowID = s.workflowID ∧ before.id = s.id
      · rw [if_pos hsame]
        exact .inr ⟨s.stored_sameSettings _ _, rfl⟩
      · rw [if_neg hsame]
        grind [Table.eq_of_key]
    · intro row hrow hne
      refine mem_map.mpr ⟨row, hrow, if_neg fun hsame => hne hsame.2⟩
  · cases hupdate

theorem createSchedule_rows (hcreate : t.createSchedule clock s = some t') :
    s.id ∉ t.rows.map (·.id) ∧ ∃ createdAt updatedAt, t'.rows = t.rows ++ [s.stored createdAt updatedAt] := by
  obtain ⟨hfresh, hrows⟩ := Table.insert?_rows hcreate
  exact ⟨hfresh, _, _, hrows⟩

theorem mem_deleteSchedule (hrow : row ∈ t.rows) (hne : row.id ≠ scheduleID) :
    row ∈ ((t.deleteSchedule workflowID scheduleID).getD t).rows := by
  unfold deleteSchedule
  split
  · exact mem_filter.mpr ⟨hrow, decide_eq_true fun hsame => hne hsame.2⟩
  · exact hrow

theorem mem_of_mem_deleteSchedule (hrow : row ∈ ((t.deleteSchedule workflowID scheduleID).getD t).rows) :
    row ∈ t.rows := by
  unfold deleteSchedule at hrow
  split at hrow
  · exact mem_of_mem_filter hrow
  · exact hrow

theorem mem_deleteSchedulesByWorkflow (hrow : row ∈ t.rows) (hne : row.workflowID ≠ workflowID) :
    row ∈ (t.deleteSchedulesByWorkflow workflowID).rows :=
  mem_filter.mpr ⟨hrow, decide_eq_true hne⟩

theorem listDueSchedules_subperm (t : ScheduleTable) (now : Time) (limit : Nat) :
    (t.listDueSchedules now limit).Subperm
      (t.rows.filter fun row => row.enabled ∧ row.nextRunAt.rfc3339Nano ≤ now.rfc3339Nano) := by
  unfold listDueSchedules
  dsimp only
  split
  · exact (take_sublist _ _).subperm.trans (perm_insertionSort _ _).subperm
  · exact (perm_insertionSort _ _).subperm

theorem mem_listDueSchedules {limit : Nat} (hrow : row ∈ t.listDueSchedules now limit) :
    row ∈ t.rows ∧ row.enabled = true ∧ row.nextRunAt.rfc3339Nano ≤ now.rfc3339Nano := by
  have hmem := (listDueSchedules_subperm t now limit).subset hrow
  rwa [mem_filter, decide_eq_true_eq] at hmem

theorem listDueSchedules_nodup (t : ScheduleTable) (now : Time) (limit : Nat) :
    ((t.listDueSchedules now limit).map (·.id)).Nodup := by
  obtain ⟨rows, hperm, hsub⟩ := listDueSchedules_subperm t now limit
  have hnodup := ((hsub.trans filter_sublist).map WorkflowSchedule.id).nodup t.unique
  exact (hperm.map _).nodup_iff.mp hnodup

end ScheduleTable

end lemmas

namespace annual

/-- The start of every year, `0 0 1 1 *`. -/
def newYear : Recurrence where
  Matches t := t.month = 1 ∧ t.day = 1 ∧ t.hour = 0 ∧ t.minute = 0 ∧ t.second = 0 ∧ t.nano = 0
  minutes t ht := ⟨ht.2.2.2.2.1, ht.2.2.2.2.2⟩
  next t := ⟨t.year + 1, 1, 1, 0, 0, 0, 0, by simp [daysIn], Time.midnight⟩
  next_least := by
    rintro t u ⟨hmonth, hday, hhour, hminute, hsecond, hnano⟩ hlt -
    obtain ⟨htmonth, -, htday, -⟩ := t.date
    simp only [Time.lt_iff, Time.key, Time.fields, List.cons_append, List.nil_append, List.cons_lt_cons_iff, hmonth,
      hday, hhour, hminute, hsecond, hnano, List.not_lt_nil, and_false, or_false] at hlt
    refine ⟨by simp, ?_, ?_⟩
    · rw [Time.lt_iff]
      exact List.Lex.rel (Nat.lt_succ_self _)
    · rw [← not_lt]
      simp only [Time.lt_iff, Time.key, Time.fields, List.cons_append, List.nil_append, List.cons_lt_cons_iff, hmonth,
        hday, hhour, hminute, hsecond, hnano, List.not_lt_nil, and_false, or_false]
      omega
  next_zero := by
    intro t hnone
    have hlater := hnone ⟨t.year + 1, 1, 1, 0, 0, 0, 0, by simp [daysIn], by decide⟩ (by simp)
      (List.Lex.rel (Nat.lt_succ_self _))
    simp at hlater

/-- The last day of a month that never has it, `0 0 31 2 *`. -/
def never : Recurrence where
  Matches t := t.month = 2 ∧ t.day = 31 ∧ t.hour = 0 ∧ t.minute = 0 ∧ t.second = 0 ∧ t.nano = 0
  minutes t ht := ⟨ht.2.2.2.2.1, ht.2.2.2.2.2⟩
  next _ := Time.zero
  next_least := by
    rintro t u ⟨hmonth, hday, -⟩ - -
    have hdays := u.date.2.2.2
    rw [hmonth, hday, daysIn] at hdays
    split_ifs at hdays <;> omega
  next_zero _ _ := rfl

def lib : ScheduleLibrary where
  parseCron expr :=
    if expr = "0 0 1 1 *" then .ok newYear else if expr = "0 0 31 2 *" then .ok never else .error "unsupported"
  parseDuration _ := .error "unsupported"
  toUpper := id
  toLower := id

def now : Time := ⟨2024, 1, 1, 0, 0, 10, 0, by decide, by decide⟩

def report : WorkflowSchedule where
  id := "annual"
  workflowID := "report"
  cron := "0 0 1 1 *"
  enabled := true
  input := some []
  options := {}
  nextRunAt := ⟨2024, 1, 1, 0, 0, 0, 0, by decide, Time.midnight⟩
  lastRunAt := none
  lastRunID := ""
  lastStatus := none
  lastError := ""
  createdAt := ⟨2023, 5, 1, 0, 0, 0, 0, by decide, by decide⟩
  updatedAt := ⟨2023, 5, 1, 0, 0, 0, 0, by decide, by decide⟩

def table : ScheduleTable where
  rows := [report]
  unique := List.nodup_singleton _

end annual

end petalflow.server
