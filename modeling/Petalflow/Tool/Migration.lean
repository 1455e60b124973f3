import Petalflow.Lib.Fold
import Petalflow.Tool.Validate

open List
open dict (Dict)
open fold (bind_eq_ok)
open text (trimSpace)

namespace petalflow.tool

/-- A legacy column in a row: the table may not have it, and it may be null. -/
inductive Column (α : Type) where
  | missing
  | null
  | value (a : α)

def Column.scan {α : Type} (fallback : α) : Column α → Except String α
  | .missing => .ok fallback
  | .null => .error "tool: sqlite scan legacy registration: converting NULL is unsupported"
  | .value a => .ok a

/-- A row of a column-based table. A number of failures need not be stored as a number. A payload
that the table has no column for is null. -/
structure LegacyRow (Payload : Type) where
  name : String
  manifestJSON : Column String := .missing
  origin : Column String := .missing
  configJSON : Column String := .missing
  status : Column String := .missing
  registeredAt : Column String := .missing
  lastHealthCheck : Column String := .missing
  healthFailures : Column (Int ⊕ String) := .missing
  overlayPath : Column String := .missing
  enabled : Column (Bool ⊕ String) := .missing
  payload : Option Payload := none
  updatedAt : Option String := none

structure LegacyTable (Payload : Type) where
  hasPayload : Bool
  hasUpdatedAt : Bool
  hasManifestJSON : Bool
  rows : List (LegacyRow Payload)

/-- The decoders of texts (`int` is the conversion of what is scanned into an `int`), and the encoding of
registrations with the decoding that `Get` uses, both of which can fail. `config` is what a text leaves in
the empty map, also when it fails. -/
structure MigrationEnv (Payload : Type) where
  manifest : String → Option ToolManifest
  config : String → Dict String String
  time : String → Option Int
  flag : String → Option Bool
  int : String → Option Int
  encode : ToolRegistration → Except String Payload
  decode : Payload → Except String ToolRegistration

def ToolOrigin.ofText : String → ToolOrigin
  | "native" => .native
  | "mcp" => .mcp
  | "http" => .http
  | "stdio" => .stdio
  | text => .other text

def Status.ofText : String → Status
  | "ready" => .ready
  | "unhealthy" => .unhealthy
  | "disabled" => .disabled
  | "unverified" => .unverified
  | text => .other text

variable {Payload : Type} (env : MigrationEnv Payload)

def parseSQLiteTimeValue (value : String) : Option Int :=
  if trimSpace value = "" then none else env.time value

def sqliteAnyToBool (fallback : Bool) : Column (Bool ⊕ String) → Bool
  | .value (.inl b) => b
  | .value (.inr text) => if trimSpace text = "" then fallback else (env.flag (trimSpace text)).getD fallback
  | _ => fallback

def scanInt : Int ⊕ String → Except String Int
  | .inl n => .ok n
  | .inr text =>
    match env.int text with
    | some n => .ok n
    | none => .error s!"tool: sqlite scan legacy registration: converting {quote text} to an int: invalid syntax"

def legacyManifest (name : String) (manifest : ToolManifest) : ToolManifest :=
  { manifest with
    metadata := if trimSpace manifest.metadata.name = "" then { manifest.metadata with name } else manifest.metadata
    manifestVersion :=
      if trimSpace manifest.manifestVersion = "" then manifestVersionV1 else manifest.manifestVersion
    schema := if trimSpace manifest.schema = "" then schemaToolV1 else manifest.schema }

/-- The scan of a row, and `decodeLegacySQLiteRegistration` on it. -/
def decodeLegacySQLiteRegistration (row : LegacyRow Payload) : Except String ToolRegistration := do
  let manifestJSON ← row.manifestJSON.scan ""
  let origin ← row.origin.scan ""
  let configJSON ← row.configJSON.scan "\x7b\x7d"
  let status ← row.status.scan ""
  let registeredAt ← row.registeredAt.scan ""
  let lastHealthCheck ← row.lastHealthCheck.scan ""
  let healthFailures ← scanInt env (← row.healthFailures.scan (.inl 0))
  let name := trimSpace row.name
  let manifest := if trimSpace manifestJSON = "" then none else env.manifest manifestJSON
  return {
    name
    manifest := manifest.elim (newManifest name) (legacyManifest name)
    origin := .ofText (trimSpace origin)
    status := if trimSpace status = "" then .unverified else .ofText (trimSpace status)
    config := if trimSpace configJSON = "" then .empty else env.config configJSON
    registeredAt := parseSQLiteTimeValue env registeredAt
    lastHealthCheck := parseSQLiteTimeValue env lastHealthCheck
    healthFailures
    overlay :=
      match row.overlayPath with
      | .value path => if trimSpace path = "" then none else some { path }
      | _ => none
    enabled := sqliteAnyToBool env true row.enabled }

/-- `UPDATE tool_registrations SET payload = ?, updated_at = COALESCE(updated_at, ?) WHERE name = ?` -/
def setPayload (payload : Payload) (now name : String) (rows : List (LegacyRow Payload)) : List (LegacyRow Payload) :=
  rows.map fun row =>
    if row.name = name then { row with payload := some payload, updatedAt := row.updatedAt.or (some now) } else row

def backfillLegacyRow (now : String) (written : List (LegacyRow Payload)) (row : LegacyRow Payload) :
    Except String (List (LegacyRow Payload)) := do
  let reg ← decodeLegacySQLiteRegistration env row
  let payload ← env.encode reg
  return setPayload payload now reg.name written

def backfillLegacyPayloadFromColumnSchema (now : String) (rows : List (LegacyRow Payload)) :
    Except String (List (LegacyRow Payload)) :=
  rows.foldlM (backfillLegacyRow env now) rows

def backfillMissingPayloadDefaults (now : String) (rows : List (LegacyRow Payload)) :
    Except String (List (LegacyRow Payload)) :=
  (rows.filter (·.payload.isNone)).foldlM (fun written row => do
    let payload ← env.encode
      { name := row.name, manifest := newManifest row.name, status := .unverified, enabled := true }
    return setPayload payload now row.name written) rows

inductive MigrationStep where
  | addPayload | addUpdatedAt | backfillLegacy | backfillDefaults
deriving DecidableEq

def MigrationStep.run (now : String) (t : LegacyTable Payload) : MigrationStep → Except String (LegacyTable Payload)
  | .addPayload => .ok { t with hasPayload := true }
  | .addUpdatedAt => .ok { t with hasUpdatedAt := true }
  | .backfillLegacy =>
    (backfillLegacyPayloadFromColumnSchema env now t.rows).map fun rows => { t with rows }
  | .backfillDefaults => (backfillMissingPayloadDefaults env now t.rows).map fun rows => { t with rows }

/-- The steps of `migrateLegacySQLiteSchema`, which reads the columns before the first of them. -/
def migrationSteps (t : LegacyTable Payload) : List MigrationStep :=
  (if t.hasPayload then [] else [.addPayload]) ++ (if t.hasUpdatedAt then [] else [.addUpdatedAt]) ++
    (if !t.hasPayload && t.hasManifestJSON then [.backfillLegacy] else []) ++ [.backfillDefaults]

/-- The table that a process leaves which stops after `steps` steps. -/
def stopAfter (now : String) (steps : Nat) (t : LegacyTable Payload) : Except String (LegacyTable Payload) :=
  ((migrationSteps t).take steps).foldlM (MigrationStep.run env now) t

def migrateLegacySQLiteSchema (now : String) (t : LegacyTable Payload) : Except String (LegacyTable Payload) :=
  (migrationSteps t).foldlM (MigrationStep.run env now) t

variable {env}

/-- The columns of a row can be scanned: none is null, and the number of failures is one. -/
structure LegacyRow.Scans (env : MigrationEnv Payload) (row : LegacyRow Payload) : Prop where
  manifestJSON : row.manifestJSON ≠ .null
  origin : row.origin ≠ .null
  configJSON : row.configJSON ≠ .null
  status : row.status ≠ .null
  registeredAt : row.registeredAt ≠ .null
  lastHealthCheck : row.lastHealthCheck ≠ .null
  healthFailures : row.healthFailures ≠ .null
  number : ∀ text, row.healthFailures = .value (.inr text) → env.int text ≠ none

theorem Column.scan_ok {α : Type} {column : Column α} (hcolumn : column ≠ .null) (fallback : α) :
    ∃ a, column.scan fallback = .ok a := by
  cases column with
  | missing => exact ⟨fallback, rfl⟩
  | null => exact absurd rfl hcolumn
  | value a => exact ⟨a, rfl⟩

variable {row : LegacyRow Payload}

theorem LegacyRow.Scans.failures_ok (hrow : row.Scans env) :
    ∃ raw n, row.healthFailures.scan (.inl 0) = .ok raw ∧ scanInt env raw = .ok n := by
  cases hcolumn : row.healthFailures with
  | missing => exact ⟨_, 0, rfl, rfl⟩
  | null => exact absurd hcolumn hrow.healthFailures
  | value raw =>
    cases raw with
    | inl n => exact ⟨_, n, rfl, rfl⟩
    | inr text =>
      obtain ⟨n, hn⟩ := Option.ne_none_iff_exists'.mp (hrow.number text hcolumn)
      exact ⟨_, n, rfl, by simp only [scanInt, hn]⟩

theorem LegacyRow.Scans.decode_ok (hrow : row.Scans env) :
    ∃ reg, decodeLegacySQLiteRegistration env row = .ok reg ∧ reg.name = trimSpace row.name := by
  obtain ⟨manifestJSON, hmanifest⟩ := Column.scan_ok hrow.manifestJSON ""
  obtain ⟨origin, horigin⟩ := Column.scan_ok hrow.origin ""
  obtain ⟨configJSON, hconfig⟩ := Column.scan_ok hrow.configJSON "\x7b\x7d"
  obtain ⟨status, hstatus⟩ := Column.scan_ok hrow.status ""
  obtain ⟨registeredAt, hregistered⟩ := Column.scan_ok hrow.registeredAt ""
  obtain ⟨lastHealthCheck, hcheck⟩ := Column.scan_ok hrow.lastHealthCheck ""
  obtain ⟨raw, healthFailures, hraw, hfailures⟩ := hrow.failures_ok
  simp only [decodeLegacySQLiteRegistration, hmanifest, horigin, hconfig, hstatus, hregistered, hcheck, hraw, hfailures,
    bind, Except.bind, pure, Except.pure]
  exact ⟨_, rfl, rfl⟩

/-- A table that can be migrated: names are keys and have no white space around them, the columns can be
scanned, and every registration can be encoded so that it is decoded again. -/
structure LegacyTable.Decodable (env : MigrationEnv Payload) (t : LegacyTable Payload) : Prop where
  unique : (t.rows.map (·.name)).Nodup
  trimmed : ∀ row ∈ t.rows, trimSpace row.name = row.name
  scans : ∀ row ∈ t.rows, row.Scans env
  encodes : ∀ row ∈ t.rows, ∀ reg, decodeLegacySQLiteRegistration env row = .ok reg →
    ∃ payload, env.encode reg = .ok payload ∧ env.decode payload = .ok reg

def LegacyRow.filled (env : MigrationEnv Payload) (now : String) (row : LegacyRow Payload) : LegacyRow Payload :=
  { row with
    payload := ((decodeLegacySQLiteRegistration env row).bind env.encode).toOption
    updatedAt := row.updatedAt.or (some now) }

/-- The rows after those with the names of `seen` were filled. -/
def filledUpTo (env : MigrationEnv Payload) (now : String) (rows seen : List (LegacyRow Payload)) :
    List (LegacyRow Payload) :=
  rows.map fun row => if row.name ∈ seen.map LegacyRow.name then row.filled env now else row

theorem backfillDefaults_eq {rows : List (LegacyRow Payload)} (hrows : ∀ row ∈ rows, row.payload.isNone = false)
    (now : String) : backfillMissingPayloadDefaults env now rows = .ok rows := by
  have hnone : rows.filter (·.payload.isNone) = [] := by
    rw [filter_eq_nil_iff]
    intro row hmem
    rw [hrows row hmem]
    exact Bool.false_ne_true
  rw [backfillMissingPayloadDefaults, hnone]
  rfl

variable {t : LegacyTable Payload} (ht : t.Decodable env)
include ht

theorem exists_payload (hmem : row ∈ t.rows) :
    ∃ reg payload, decodeLegacySQLiteRegistration env row = .ok reg ∧ reg.name = row.name ∧
      env.encode reg = .ok payload ∧ env.decode payload = .ok reg := by
  obtain ⟨reg, hreg, hname⟩ := (ht.scans row hmem).decode_ok
  obtain ⟨payload, hencode, hdecode⟩ := ht.encodes row hmem reg hreg
  exact ⟨reg, payload, hreg, hname.trans (ht.trimmed row hmem), hencode, hdecode⟩

theorem setPayload_filledUpTo {now : String} {seen rest : List (LegacyRow Payload)} {reg : ToolRegistration}
    {payload : Payload} (hrows : t.rows = seen ++ row :: rest)
    (hreg : decodeLegacySQLiteRegistration env row = .ok reg) (hencode : env.encode reg = .ok payload) :
    setPayload payload now row.name (filledUpTo env now t.rows seen) =
      filledUpTo env now t.rows (seen ++ [row]) := by
  have hmem : row ∈ t.rows := by simp [hrows]
  have hfresh : row.name ∉ seen.map LegacyRow.name := by
    have hunique := ht.unique
    rw [hrows, map_append, map_cons, nodup_append] at hunique
    intro hseen
    exact hunique.2.2 _ hseen _ mem_cons_self rfl
  rw [setPayload, filledUpTo, map_map]
  refine map_congr_left fun other hother => ?_
  by_cases hsame : other.name = row.name
  · obtain rfl : other = row := inj_on_of_nodup_map ht.unique hother hmem hsame
    have hseen : other.name ∈ (seen ++ [other]).map LegacyRow.name := by simp
    simp only [Function.comp, if_neg hfresh, if_pos hseen, if_true, LegacyRow.filled, hreg, Except.bind, hencode,
      Except.toOption]
  · simp only [Function.comp, map_append, map_cons, map_nil, mem_append, mem_singleton, hsame, or_false]
    split
    · exact if_neg hsame
    · rfl

theorem backfillLegacy_eq (now : String) :
    backfillLegacyPayloadFromColumnSchema env now t.rows = .ok (t.rows.map (LegacyRow.filled env now)) := by
  have hloop : ∃ written, t.rows.foldlM (backfillLegacyRow env now) t.rows = .ok written ∧
      written = filledUpTo env now t.rows t.rows := by
    refine fold.foldlM_exists (P := fun seen written => written = filledUpTo env now t.rows seen) ?_ ?_
    · rintro seen row rest hrows _ rfl
      have hmem : row ∈ t.rows := by simp [hrows]
      obtain ⟨reg, payload, hreg, hname, hencode, _⟩ := exists_payload ht hmem
      refine ⟨_, ?_, setPayload_filledUpTo ht hrows hreg hencode⟩
      simp only [backfillLegacyRow, hreg, hencode, ← hname, bind, Except.bind]
      rfl
    · simp [filledUpTo]
  obtain ⟨written, hwritten, rfl⟩ := hloop
  rw [backfillLegacyPayloadFromColumnSchema, hwritten, filledUpTo]
  exact congrArg _ (map_congr_left fun row hmem => if_pos (mem_map_of_mem hmem))

def LegacyTable.migrated (env : MigrationEnv Payload) (now : String) (t : LegacyTable Payload) : LegacyTable Payload :=
  { t with hasPayload := true, hasUpdatedAt := true, rows := t.rows.map (LegacyRow.filled env now) }

theorem migrated_filled (now : String) : ∀ row ∈ (t.migrated env now).rows, row.payload.isNone = false := by
  intro row hmem
  obtain ⟨row, hrow, rfl⟩ := mem_map.mp hmem
  obtain ⟨reg, payload, hreg, _, hencode, _⟩ := exists_payload ht hrow
  simp [LegacyRow.filled, hreg, Except.bind, hencode, Except.toOption]

theorem run_backfillDefaults (now now' : String) :
    MigrationStep.run env now' (t.migrated env now) .backfillDefaults = .ok (t.migrated env now) := by
  rw [MigrationStep.run, backfillDefaults_eq (migrated_filled ht now)]
  rfl

theorem migrate_migrated (now now' : String) :
    migrateLegacySQLiteSchema env now' (t.migrated env now) = .ok (t.migrated env now) := by
  have hsteps : migrationSteps (t.migrated env now) = [.backfillDefaults] := rfl
  rw [migrateLegacySQLiteSchema, hsteps, foldlM_cons, run_backfillDefaults ht]
  rfl

def leadingSteps (t : LegacyTable Payload) : List MigrationStep :=
  .addPayload :: ((if t.hasUpdatedAt then [] else [.addUpdatedAt]) ++ [.backfillLegacy])

theorem run_leadingSteps (now : String) :
    (leadingSteps t).foldlM (MigrationStep.run env now) t = .ok (t.migrated env now) := by
  have hfill : backfillLegacyPayloadFromColumnSchema env now t.rows = .ok _ := backfillLegacy_eq ht now
  cases hupdated : t.hasUpdatedAt with
  | false | true =>
    simp [leadingSteps, hupdated, MigrationStep.run, hfill, LegacyTable.migrated, bind, Except.bind, Except.map, pure,
      Except.pure]

variable (hpayload : t.hasPayload = false) (hmanifest : t.hasManifestJSON = true)
include hpayload hmanifest

omit ht in
theorem migrationSteps_legacy : migrationSteps t = leadingSteps t ++ [.backfillDefaults] := by
  simp [migrationSteps, leadingSteps, hpayload, hmanifest]

theorem migrate_legacy (now : String) : migrateLegacySQLiteSchema env now t = .ok (t.migrated env now) := by
  rw [migrateLegacySQLiteSchema, migrationSteps_legacy hpayload hmanifest, foldlM_append, run_leadingSteps ht]
  change [MigrationStep.backfillDefaults].foldlM (MigrationStep.run env now) (t.migrated env now) = _
  rw [foldlM_cons, run_backfillDefaults ht]
  rfl

def SafeStop (t : LegacyTable Payload) (steps : Nat) : Prop :=
  .addPayload ∈ (migrationSteps t).take steps → .backfillLegacy ∈ (migrationSteps t).take steps

theorem stopAfter_safe {steps : Nat} (hsafe : SafeStop t steps) (now : String) :
    stopAfter env now steps t = .ok t ∨ stopAfter env now steps t = .ok (t.migrated env now) := by
  have htake : steps = 0 ∨ (migrationSteps t).take steps = leadingSteps t ∨
      (migrationSteps t).take steps = migrationSteps t := by
    rw [SafeStop, migrationSteps_legacy hpayload hmanifest] at hsafe
    rw [migrationSteps_legacy hpayload hmanifest]
    cases hupdated : t.hasUpdatedAt with
    | false => rcases steps with _ | _ | _ | _ | steps <;> simp_all [leadingSteps]
    | true => rcases steps with _ | _ | _ | steps <;> simp_all [leadingSteps]
  rcases htake with rfl | htake | htake
  · exact .inl rfl
  · right
    rw [stopAfter, htake, run_leadingSteps ht]
  · right
    rw [stopAfter, htake]
    exact migrate_legacy ht hpayload hmanifest now

omit ht hpayload hmanifest

/-- The registrations that `Get` yields, by name. -/
def LegacyTable.registrations (env : MigrationEnv Payload) (t : LegacyTable Payload) :
    List (String × Option (Except String ToolRegistration)) :=
  t.rows.map fun row => (row.name, row.payload.map env.decode)

theorem migrated_registrations {t : LegacyTable Payload} (ht : t.Decodable env) (now : String) :
    (t.migrated env now).registrations env =
      t.rows.map fun row => (row.name, some (decodeLegacySQLiteRegistration env row)) := by
  refine (map_map ..).trans (map_congr_left fun row hmem => ?_)
  obtain ⟨reg, payload, hreg, _, hencode, hdecode⟩ := exists_payload ht hmem
  simp [LegacyRow.filled, hreg, Except.bind, hencode, Except.toOption, hdecode]

namespace legacy

/-- Payloads are the registrations themselves. -/
def codes : MigrationEnv ToolRegistration where
  manifest _ := none
  config _ := .empty
  time _ := none
  flag _ := none
  int _ := none
  encode reg := .ok reg
  decode reg := .ok reg

def table : LegacyTable ToolRegistration where
  hasPayload := false
  hasUpdatedAt := true
  hasManifestJSON := true
  rows := [{ name := "crm", manifestJSON := .value "", healthFailures := .value (.inl 2),
             enabled := .value (.inl false) }]

def payloads (steps : Nat) : Option (List (Option (String × Int × Bool))) :=
  ((stopAfter codes "1" steps table).bind (migrateLegacySQLiteSchema codes "2")).toOption.map
    (·.rows.map fun row => row.payload.map fun reg => (reg.name, reg.healthFailures, reg.enabled))

theorem decodable : table.Decodable codes where
  unique := by decide
  trimmed := by decide +kernel
  scans row hmem := by
    rw [mem_singleton.mp hmem]
    constructor <;> nofun
  encodes _ _ reg _ := ⟨reg, rfl, rfl⟩

end legacy

end petalflow.tool
