import Petalflow.Lib.Fold

open List Option
open fold (bind_eq_ok)

namespace petalflow.server.sqlite

/-- A row of the table of workflows. A column that the table does not have is null. -/
structure WorkflowRow where
  rowid : Nat
  seq : Option Nat
  id : String
  schemaKind : Option String
  kind : Option String
  name : Option String
  source : Option String
  sourceJSON : Option String
  compiled : Option String
  compiledJSON : Option String
  createdAt : Option String
  updatedAt : Option String

structure WorkflowTable where
  hasKind : Bool
  hasSourceJSON : Bool
  hasCompiledJSON : Bool
  rows : List WorkflowRow

/-- `IS NULL OR TRIM(..) = ''`, where `TRIM` takes away spaces only. -/
def blank (column : Option String) : Bool := column.all fun text => text.toList.all (· = ' ')

/-- A workflow as it is stored. A zero time is none. -/
structure WorkflowRecord (Graph Time : Type) where
  id : String
  schemaKind : String
  name : String
  source : String
  compiled : Option Graph
  createdAt : Option Time
  updatedAt : Option Time

def WorkflowRecord.Complete {Graph Time : Type} (legacy : Bool) (rec : WorkflowRecord Graph Time) : Prop :=
  blank (some rec.schemaKind) = false ∧ (legacy = true → rec.compiled.isSome = true)

/-- The encodings of graphs and times. No time is written as a blank text. -/
structure Codec (Graph Time : Type) where
  zero : Time
  marshal : Graph → Except String String
  unmarshal : String → Except String Graph
  format : Time → String
  parse : String → Except String Time
  format_shown : ∀ t, blank (some (format t)) = false

variable {Graph Time : Type} (codec : Codec Graph Time)

def normalizeWorkflowSource (raw : String) : String :=
  if raw = "" then "\x7b\x7d" else raw

def normalizeLegacyWorkflowCompiled (compiled : Option String) : String :=
  if compiled.getD "" = "" then "\x7b\x7d" else compiled.getD ""

def marshalCompiledGraph : Option Graph → Except String (Option String)
  | none => .ok none
  | some g => (codec.marshal g).map some

def scanWorkflowRecord (row : WorkflowRow) : Except String (WorkflowRecord Graph Time) := do
  let some schemaKind := row.schemaKind | .error "converting NULL to string is unsupported"
  let some createdAt := row.createdAt | .error "converting NULL to string is unsupported"
  let some updatedAt := row.updatedAt | .error "converting NULL to string is unsupported"
  let created ← (codec.parse createdAt).mapError fun err => s!"workflow sqlite store parse created_at: {err}"
  let updated ← (codec.parse updatedAt).mapError fun err => s!"workflow sqlite store parse updated_at: {err}"
  let compiled ←
    if row.compiled.getD "" = "" then pure none
    else
      ((codec.unmarshal (row.compiled.getD "")).map some).mapError fun err =>
        s!"workflow sqlite store unmarshal compiled graph: {err}"
  return { id := row.id, schemaKind, name := row.name.getD "", source := row.source.getD "", compiled
           createdAt := some created, updatedAt := some updated }

namespace WorkflowTable

variable (t : WorkflowTable)

def list : Except String (List (WorkflowRecord Graph Time)) :=
  (t.rows.mergeSort fun row row' => row.seq.getD 0 ≤ row'.seq.getD 0).mapM (scanWorkflowRecord codec)

def get (id : String) : Except String (Option (WorkflowRecord Graph Time)) :=
  match t.rows.find? (·.id = id) with
  | none => .ok none
  | some row => (scanWorkflowRecord codec row).map some

/-- The columns that `Create` and `Update` write, the legacy ones among them if the table has them. -/
def write (rec : WorkflowRecord Graph Time) (compiled : Option String) (createdAt updatedAt : Time)
    (row : WorkflowRow) : WorkflowRow :=
  let source := normalizeWorkflowSource rec.source
  { row with
    schemaKind := some rec.schemaKind
    kind := if t.hasKind then some rec.schemaKind else row.kind
    name := some rec.name
    source := some source
    sourceJSON := if t.hasSourceJSON then some source else row.sourceJSON
    compiled
    compiledJSON := if t.hasCompiledJSON then some (normalizeLegacyWorkflowCompiled compiled) else row.compiledJSON
    createdAt := some (codec.format createdAt)
    updatedAt := some (codec.format updatedAt) }

def create (now : Time) (rec : WorkflowRecord Graph Time) : Except String WorkflowTable := do
  let createdAt := rec.createdAt.getD now
  let compiled ← marshalCompiledGraph codec rec.compiled
  let rowid := (t.rows.map (·.rowid)).foldl max 0 + 1
  let row := t.write codec rec compiled createdAt (rec.updatedAt.getD createdAt)
    { rowid, seq := some rowid, id := rec.id, schemaKind := none, kind := none, name := none, source := none
      sourceJSON := none, compiled := none, compiledJSON := none, createdAt := none, updatedAt := none }
  if t.rows.any (·.id = rec.id) then .error "workflow already exists"
  else return { t with rows := t.rows ++ [row] }

def update (now : Time) (rec : WorkflowRecord Graph Time) : Except String WorkflowTable := do
  let compiled ← marshalCompiledGraph codec rec.compiled
  let written := t.write codec rec compiled (rec.createdAt.getD codec.zero) (rec.updatedAt.getD now)
  if t.rows.any (·.id = rec.id) then
    return { t with rows := t.rows.map fun row => if row.id = rec.id then written row else row }
  else .error "workflow not found"

def delete (id : String) : Except String WorkflowTable :=
  if t.rows.any (·.id = id) then .ok { t with rows := t.rows.filter (·.id ≠ id) }
  else .error "workflow not found"

/-- The `UPDATE`s of `migrateLegacyWorkflowSQLiteSchema` on one row. Each of them sets one column. -/
def backfill (now : Time) (row : WorkflowRow) : WorkflowRow :=
  let schemaKind :=
    if t.hasKind && blank row.schemaKind && !blank row.kind then row.kind else row.schemaKind
  let source := if t.hasSourceJSON then row.source.or row.sourceJSON else row.source
  let createdAt := if blank row.createdAt then some (codec.format now) else row.createdAt
  { row with
    seq := row.seq.or (some row.rowid)
    schemaKind := if blank schemaKind then some "graph" else schemaKind
    source := source.or (some "\x7b\x7d")
    compiled := if t.hasCompiledJSON then row.compiled.or row.compiledJSON else row.compiled
    createdAt
    updatedAt := if blank row.updatedAt then createdAt else row.updatedAt }

def migrateLegacyWorkflowSQLiteSchema (now : Time) : WorkflowTable :=
  { t with rows := t.rows.map (t.backfill codec now) }

variable {codec t}

structure Settled (legacy : Bool) (row : WorkflowRow) : Prop where
  seq : row.seq.isSome = true
  schemaKind : blank row.schemaKind = false
  source : row.source.isSome = true
  compiled : legacy = true → row.compiled = none → row.compiledJSON = none
  createdAt : blank row.createdAt = false
  updatedAt : blank row.updatedAt = false

theorem Settled.backfill_eq {row : WorkflowRow} (hsettled : Settled t.hasCompiledJSON row) (now : Time) :
    t.backfill codec now row = row := by
  obtain ⟨hseq, hkind, hsource, hcompiled, hcreated, hupdated⟩ := hsettled
  have hcompiled : (if t.hasCompiledJSON then row.compiled.or row.compiledJSON else row.compiled) = row.compiled := by
    split
    · next hhas =>
      cases hnull : row.compiled with
      | none => rw [hcompiled hhas hnull, or_none]
      | some compiled => rw [some_or]
    · rfl
  obtain ⟨seq, hseq⟩ := isSome_iff_exists.mp hseq
  obtain ⟨source, hsource⟩ := isSome_iff_exists.mp hsource
  simp only [backfill, hkind, hcreated, hupdated, hcompiled, hseq, hsource, some_or, ite_self, Bool.and_false,
    Bool.false_and, Bool.false_eq_true, if_false]
  rw [← hseq, ← hsource]

def AllSettled (t : WorkflowTable) : Prop := ∀ row ∈ t.rows, Settled t.hasCompiledJSON row

theorem blank_ite {column other : Option String} (hother : blank other = false) :
    blank (if blank column then other else column) = false := by
  split <;> simp_all

theorem backfill_settled (now : Time) (row : WorkflowRow) : Settled t.hasCompiledJSON (t.backfill codec now row) := by
  have hcreated : blank (t.backfill codec now row).createdAt = false := blank_ite (codec.format_shown now)
  refine ⟨?_, blank_ite (by decide), ?_, ?_, hcreated, blank_ite hcreated⟩
  · simp [backfill]
  · simp [backfill]
  · intro hhas
    simp [backfill, hhas]

theorem write_settled {rec : WorkflowRecord Graph Time} {compiled : Option String} {createdAt updatedAt : Time}
    {row : WorkflowRow} (hcomplete : rec.Complete t.hasCompiledJSON)
    (hcompiled : marshalCompiledGraph codec rec.compiled = .ok compiled) (hseq : row.seq.isSome = true) :
    Settled t.hasCompiledJSON (t.write codec rec compiled createdAt updatedAt row) := by
  refine ⟨hseq, hcomplete.1, rfl, ?_, codec.format_shown _, codec.format_shown _⟩
  intro hhas hnull
  have hnull : compiled = none := hnull
  obtain ⟨g, hg⟩ := isSome_iff_exists.mp (hcomplete.2 hhas)
  grind [marshalCompiledGraph, fold.map_eq_ok]

end WorkflowTable

inductive StoreCall (Graph Time : Type) where
  | create (now : Time) (rec : WorkflowRecord Graph Time)
  | update (now : Time) (rec : WorkflowRecord Graph Time)
  | delete (id : String)

namespace StoreCall

variable {codec} {t t' : WorkflowTable}

def run (codec : Codec Graph Time) (t : WorkflowTable) : StoreCall Graph Time → Except String WorkflowTable
  | .create now rec => t.create codec now rec
  | .update now rec => t.update codec now rec
  | .delete id => t.delete id

def runAll (codec : Codec Graph Time) (t : WorkflowTable) (calls : List (StoreCall Graph Time)) : WorkflowTable :=
  calls.foldl (fun t call => (call.run codec t).toOption.getD t) t

def Complete (legacy : Bool) : StoreCall Graph Time → Prop
  | .create _ rec => rec.Complete legacy
  | .update _ rec => rec.Complete legacy
  | .delete _ => True

theorem run_settled {call : StoreCall Graph Time} (hcomplete : call.Complete t.hasCompiledJSON)
    (hsettled : t.AllSettled) (hrun : call.run codec t = .ok t') :
    t'.hasCompiledJSON = t.hasCompiledJSON ∧ t'.AllSettled := by
  cases call with
  | create now rec =>
    obtain ⟨compiled, hcompiled, hrun⟩ := bind_eq_ok.mp hrun
    split at hrun
    · cases hrun
    · cases hrun
      refine ⟨rfl, ?_⟩
      intro row hmem
      rcases mem_append.mp hmem with hmem | hmem
      · exact hsettled row hmem
      · rw [mem_singleton.mp hmem]
        exact WorkflowTable.write_settled hcomplete hcompiled rfl
  | update now rec =>
    obtain ⟨compiled, hcompiled, hrun⟩ := bind_eq_ok.mp hrun
    split at hrun
    · cases hrun
      refine ⟨rfl, ?_⟩
      intro row hmem
      obtain ⟨row, hrow, rfl⟩ := List.mem_map.mp hmem
      split
      · exact WorkflowTable.write_settled hcomplete hcompiled (hsettled row hrow).seq
      · exact hsettled row hrow
    · cases hrun
  | delete id =>
    simp only [run, WorkflowTable.delete] at hrun
    split at hrun
    · cases hrun
      exact ⟨rfl, fun row hmem => hsettled row (mem_filter.mp hmem).1⟩
    · cases hrun

theorem runAll_settled {calls : List (StoreCall Graph Time)}
    (hcomplete : ∀ call ∈ calls, call.Complete t.hasCompiledJSON) (hsettled : t.AllSettled) :
    (runAll codec t calls).AllSettled := by
  induction calls generalizing t with
  | nil => exact hsettled
  | cons call calls ih =>
    obtain ⟨hcall, hcalls⟩ := forall_mem_cons.mp hcomplete
    rw [runAll, foldl_cons]
    cases hrun : call.run codec t with
    | error err => exact ih hcalls hsettled
    | ok t' =>
      obtain ⟨hsame, hsettled'⟩ := run_settled hcall hsettled hrun
      exact ih (hsame ▸ hcalls) hsettled'

end StoreCall

/-- After calls whose records have a kind, and a graph if there is a legacy column for it,
opening the store again leaves the table as it is. -/
theorem reopening_changes_nothing (codec : Codec Graph Time) (t : WorkflowTable) (calls : List (StoreCall Graph Time))
    (hcomplete : ∀ call ∈ calls, call.Complete t.hasCompiledJSON) (opened reopened : Time) :
    let before := StoreCall.runAll codec (t.migrateLegacyWorkflowSQLiteSchema codec opened) calls
    let after := before.migrateLegacyWorkflowSQLiteSchema codec reopened
    after.list codec = before.list codec ∧ ∀ id, after.get codec id = before.get codec id := by
  intro before after
  have hsettled : before.AllSettled := by
    refine StoreCall.runAll_settled (t := t.migrateLegacyWorkflowSQLiteSchema codec opened) hcomplete ?_
    intro row hmem
    obtain ⟨row, -, rfl⟩ := List.mem_map.mp hmem
    exact WorkflowTable.backfill_settled opened row
  have hrows : before.rows.map (before.backfill codec reopened) = before.rows := by
    conv_rhs => rw [← List.map_id before.rows]
    exact map_congr_left fun row hmem => (hsettled row hmem).backfill_eq reopened
  have hsame : after = before := by simp only [after, WorkflowTable.migrateLegacyWorkflowSQLiteSchema, hrows]
  rw [hsame]
  exact ⟨rfl, fun _ => rfl⟩

namespace sample

abbrev Stamp := { text : String // blank (some text) = false }

def plain : Codec String Stamp where
  zero := ⟨"0", rfl⟩
  marshal g := .ok g
  unmarshal text := .ok text
  format := Subtype.val
  parse text := if hshown : blank (some text) = false then .ok ⟨text, hshown⟩ else .error "blank"
  format_shown t := t.2

def legacy : WorkflowTable :=
  { hasKind := false, hasSourceJSON := false, hasCompiledJSON := true, rows := [] }

def drafts (compiled : Option String) : List (StoreCall String Stamp) :=
  [.create ⟨"1", rfl⟩
    { id := "w", schemaKind := "graph", name := "draft", source := "", compiled, createdAt := none, updatedAt := none }]

def created (compiled : Option String) : WorkflowTable :=
  StoreCall.runAll plain (legacy.migrateLegacyWorkflowSQLiteSchema plain ⟨"0", rfl⟩) (drafts compiled)

def reopened (compiled : Option String) : WorkflowTable :=
  (created compiled).migrateLegacyWorkflowSQLiteSchema plain ⟨"2", rfl⟩

def compiledOf (t : WorkflowTable) : Option (Option String) :=
  ((t.get plain "w").toOption.join).map WorkflowRecord.compiled

end sample

theorem reopening_changes_nothing_draft :
    sample.compiledOf (sample.created (some "g")) = some (some "g") ∧
      (sample.reopened (some "g")).list sample.plain = (sample.created (some "g")).list sample.plain :=
  ⟨by decide +kernel, (reopening_changes_nothing sample.plain sample.legacy (sample.drafts (some "g"))
    (by simp [sample.drafts, StoreCall.Complete, WorkflowRecord.Complete, blank]) ⟨"0", rfl⟩ ⟨"2", rfl⟩).1⟩

/-- A record without a graph comes back with an empty one. -/
theorem reopening_changes_compiled :
    sample.compiledOf (sample.created none) = some none ∧
      sample.compiledOf (sample.reopened none) = some (some "\x7b\x7d") := by
  decide +kernel

end petalflow.server.sqlite
