import Petalflow.Lib.Scan

open List

namespace petalflow.core

/-- The kinds a node can report. A custom kind is kept as its text. -/
inductive NodeKind where
  | llm | tool | router | merge | map | gate | noop | filter | transform | guardian | cache
  | webhookCall | webhookTrigger | human | conditional
  | custom (name : String)
deriving DecidableEq, Repr

/-- The Go types of a number held in an `any`. -/
inductive NumType where
  | int | int8 | int16 | int32 | int64
  | uint | uint8 | uint16 | uint32 | uint64
  | float32 | float64 | jsonNumber
deriving DecidableEq, Repr

structure RouteDecision where
  targets : List String
  reason : String
  confidence : Option Rat
deriving DecidableEq, Repr

/-- A dynamically typed value. Numbers are exact and keep their Go type; a map
lists its entries, an earlier entry hiding a later one of the same key; a record
is a value of a struct type. -/
inductive Value where
  | nil
  | bool (b : Bool)
  | str (s : String)
  | num (type : NumType) (value : Rat)
  | list (elems : List Value)
  | map (entries : List (String × Value))
  | decision (d : RouteDecision)
  | record (type : String) (fields : List (String × Value))
deriving Repr, BEq

abbrev Vars := List (String × Value)

namespace Vars

def set (key : String) (value : Value) : Vars → Vars
  | [] => [(key, value)]
  | entry :: rest => if entry.1 = key then (key, value) :: rest else entry :: set key value rest

def delete (key : String) (vars : Vars) : Vars := vars.filter fun entry => entry.1 ≠ key

@[simp] theorem lookup_set_self (key : String) (value : Value) (vars : Vars) :
    (set key value vars).lookup key = some value := by
  induction vars with
  | nil => simp [set]
  | cons entry rest ih =>
    unfold set
    split
    · simp
    · next hne =>
      have hkey : (key == entry.1) = false := by
        rw [beq_eq_false_iff_ne]
        exact fun heq => hne heq.symm
      rw [lookup_cons, hkey]
      exact ih

variable {key other : String}

theorem lookup_set_of_ne (hne : other ≠ key) (value : Value) (vars : Vars) :
    (set key value vars).lookup other = vars.lookup other := by
  have hkey : (other == key) = false := by
    rw [beq_eq_false_iff_ne]
    exact hne
  induction vars with
  | nil => rw [set, lookup_cons, hkey]
  | cons entry rest ih => grind [set]

@[simp] theorem lookup_delete_self (key : String) (vars : Vars) : (delete key vars).lookup key = none := by
  rw [lookup_eq_none_iff]
  intro entry hentry
  have hne := (mem_filter.mp hentry).2
  rw [decide_eq_true_eq] at hne
  exact bne_iff_ne.mpr (Ne.symm hne)

theorem lookup_delete_of_ne (hne : other ≠ key) (vars : Vars) :
    (delete key vars).lookup other = vars.lookup other := by
  induction vars with
  | nil => rfl
  | cons entry rest ih => grind [delete]

end Vars

structure Message where
  role : String
  content : String
  name : String := ""
  metadata : Option Vars := none
deriving Repr

structure Artifact where
  id : String
  type : String
  mimeType : String := ""
  text : String := ""
  bytes : List UInt8 := []
  uri : String := ""
  metadata : Option Vars := none
deriving Repr

structure TraceInfo where
  runID : String := ""
  parentID : String := ""
  spanID : String := ""
  traceID : String := ""
deriving DecidableEq, Repr

structure NodeError where
  nodeID : String
  kind : NodeKind
  message : String
  attempt : Nat
  cause : String
deriving DecidableEq, Repr

/-- The data passed between nodes. `vars` is `none` for a nil map. -/
structure Envelope where
  input : Value := .nil
  vars : Option Vars := none
  artifacts : List Artifact := []
  messages : List Message := []
  errors : List NodeError := []
  trace : TraceInfo := {}

namespace Envelope

def newEnvelope : Envelope := { vars := some [] }

/-- The copy handed to a branch. Envelopes are values here, so a copy has the
fields of its original. -/
def clone (e : Envelope) : Envelope :=
  { input := e.input, vars := e.vars, artifacts := e.artifacts, messages := e.messages,
    errors := e.errors, trace := e.trace }

@[simp] theorem clone_eq (e : Envelope) : e.clone = e := rfl

def getVar (e : Envelope) (name : String) : Option Value :=
  match e.vars with
  | none => none
  | some vars => vars.lookup name

def nestedValue : Value → List String → Option Value
  | current, [] => some current
  | .map entries, part :: parts =>
    match entries.lookup part with
    | none => none
    | some next => nestedValue next parts
  | _, _ :: _ => none

def getVarNested (e : Envelope) (path : String) : Option Value :=
  match e.vars with
  | none => none
  | some vars => nestedValue (.map vars) (text.splitDots path)

def setVar (e : Envelope) (name : String) (value : Value) : Envelope :=
  { e with vars := some (Vars.set name value (e.vars.getD [])) }

/-- `delete(e.Vars, name)`, which is a no-op on a nil map. -/
def deleteVar (e : Envelope) (name : String) : Envelope := { e with vars := e.vars.map (Vars.delete name) }

def appendError (e : Envelope) (err : NodeError) : Envelope := { e with errors := e.errors ++ [err] }

@[simp] theorem getVar_setVar_self (e : Envelope) (name : String) (value : Value) :
    (e.setVar name value).getVar name = some value := by
  simp [getVar, setVar]

variable {name other : String}

theorem getVar_setVar_of_ne (hne : other ≠ name) (e : Envelope) (value : Value) :
    (e.setVar name value).getVar other = e.getVar other := by
  unfold getVar setVar
  dsimp only
  rw [Vars.lookup_set_of_ne hne]
  grind

@[simp] theorem getVar_deleteVar_self (e : Envelope) (name : String) : (e.deleteVar name).getVar name = none := by
  unfold getVar deleteVar
  cases e.vars with
  | none => rfl
  | some vars => exact Vars.lookup_delete_self name vars

theorem getVar_deleteVar_of_ne (hne : other ≠ name) (e : Envelope) :
    (e.deleteVar name).getVar other = e.getVar other := by
  unfold getVar deleteVar
  cases e.vars with
  | none => rfl
  | some vars => exact Vars.lookup_delete_of_ne hne vars

@[simp] theorem appendError_errors (e : Envelope) (err : NodeError) :
    (e.appendError err).errors = e.errors ++ [err] := rfl

end Envelope

/-- What one call of `Run` does. A successful call returns an envelope, or nil;
a failed one leaves the envelope it received as `received`. -/
inductive Outcome where
  | ok (envelope : Option Envelope)
  | failed (message : String) (received : Envelope)

/-- What one call of `MergeInputs` does. -/
inductive MergeOutcome where
  | merged (envelope : Envelope)
  | failed (message : String)
  | panicked

/-- The merge side of a node. `mergeInputs` is `none` for a node that counts its
inputs and has no `MergeInputs` method. -/
structure MergeCapable where
  expectedInputs : Int
  mergeInputs : Option (Nat → List Envelope → MergeOutcome)

/-- A node with the interfaces the runtime asks it for. `run` and `mergeInputs`
are called with the occasion of the call, on which their outcome may depend. -/
structure Node where
  id : String
  kind : NodeKind
  run : Nat → Envelope → Outcome
  router : Bool := false
  mergeCapable : Option MergeCapable := none

structure Node.Deterministic (node : Node) : Prop where
  run : ∀ t env, node.run t env = node.run 0 env
  merge : ∀ merge ∈ node.mergeCapable, ∀ merger ∈ merge.mergeInputs, ∀ t inputs,
    merger t inputs = merger 0 inputs

/-- The node hands on the errors it received: a success returns an envelope with
the same errors, a failure leaves them alone, and envelopes without errors are
merged to one without errors. -/
structure Node.KeepsErrors (node : Node) : Prop where
  ok : ∀ t env result, node.run t env = .ok result → ∃ env', result = some env' ∧ env'.errors = env.errors
  failed : ∀ t env message received, node.run t env = .failed message received → received.errors = env.errors
  merge : ∀ merge ∈ node.mergeCapable, ∀ merger ∈ merge.mergeInputs, ∀ t inputs env',
    (∀ env ∈ inputs, env.errors = []) → merger t inputs = .merged env' → env'.errors = []

def newNoopNode (id : String) : Node := { id, kind := .noop, run := fun _ env => .ok (some env) }

theorem newNoopNode_keepsErrors (id : String) : (newNoopNode id).KeepsErrors where
  ok := by
    rintro t env result ⟨⟩
    exact ⟨env, rfl, rfl⟩
  failed := nofun
  merge := nofun

def newFuncNode (id : String) (fn : Nat → Envelope → Outcome) : Node := { id, kind := .noop, run := fn }

end petalflow.core
