import Petalflow.Nodes.Helpers

open petalflow.core

namespace petalflow.nodes

inductive GateAction where
  | block | skip | redirect
  | other (name : String)
deriving DecidableEq, Repr

def GateAction.text : GateAction → String
  | block => "block"
  | skip => "skip"
  | redirect => "redirect"
  | other name => name

/-- The configuration of a gate. The condition may depend on the occasion. -/
structure GateNodeConfig where
  condition : Option (Nat → Envelope → Except String Bool) := none
  conditionVar : String := ""
  onFail : Option GateAction := none
  failMessage : String := ""
  redirectNodeID : String := ""
  resultVar : String := ""

namespace GateNodeConfig

def evaluateCondition (config : GateNodeConfig) (t : Nat) (env : Envelope) : Except String Bool :=
  match config.condition with
  | some condition => condition t env
  | none =>
    if config.conditionVar = "" then .ok true
    else
      match env.getVar config.conditionVar with
      | none => .ok false
      | some val => .ok (isTruthy val)

def storeResult (config : GateNodeConfig) (passed : Bool) (env : Envelope) : Envelope :=
  if config.resultVar = "" then env
  else env.setVar config.resultVar
    (.record "GateResult" [("Passed", .bool passed), ("Action", .str (config.onFail.getD .block).text)])

def run (config : GateNodeConfig) (id : String) (t : Nat) (env : Envelope) : Outcome :=
  match config.evaluateCondition t env with
  | .error err => .failed s!"gate node {id}: condition error: {err}" env
  | .ok passed =>
    let result := config.storeResult passed env.clone
    if passed then .ok (some result)
    else
      match config.onFail.getD .block with
      | .block =>
        let failMessage := if config.failMessage = "" then "gate condition failed" else config.failMessage
        .failed s!"gate node {id}: {failMessage}" env
      | .skip => .ok (some result)
      | .redirect =>
        if config.redirectNodeID = "" then
          .failed s!"gate node {id}: redirect action requires RedirectNodeID" env
        else .ok (some (result.setVar "__gate_redirect__" (.str config.redirectNodeID)))
      | .other name => .failed s!"gate node {id}: unknown action {name.quote}" env

end GateNodeConfig

def newGateNode (id : String) (config : GateNodeConfig) : Node := { id, kind := .gate, run := config.run id }

inductive GuardianAction where
  | fail | skip | redirect
  | other (name : String)
deriving DecidableEq, Repr

structure GuardianFailure where
  checkName : String
  checkType : String
  field : String := ""
  message : String
  expected : Value := .nil
  actual : Value := .nil
  piiType : String := ""

def GuardianFailure.value (f : GuardianFailure) : Value :=
  .record "GuardianFailure" [("CheckName", .str f.checkName), ("CheckType", .str f.checkType),
    ("Field", .str f.field), ("Message", .str f.message), ("Expected", f.expected), ("Actual", f.actual),
    ("PIIType", .str f.piiType)]

/-- A check by its name and what `runCheck` makes of it on an occasion, for an
input and an envelope. -/
structure GuardianCheck where
  name : String
  runCheck : Nat → Value → Envelope → Except String (List GuardianFailure)

/-- The configuration of a guardian. `ctxErr` tells whether the context is done
before the check of the given index. -/
structure GuardianNodeConfig where
  inputVar : String := ""
  checks : List GuardianCheck
  onFail : Option GuardianAction := none
  failMessage : String := ""
  redirectNodeID : String := ""
  resultVar : String := ""
  stopOnFirstFailure : Bool := false
  ctxErr : Nat → Nat → Option String := fun _ _ => none

namespace GuardianNodeConfig

def input (config : GuardianNodeConfig) (env : Envelope) : Option Value :=
  if config.inputVar = "" then some (.map (env.vars.getD [])) else env.getVarNested config.inputVar

def runChecks (config : GuardianNodeConfig) (id : String) (t : Nat) (input : Value) (env : Envelope) :
    Nat → List GuardianFailure → List GuardianCheck → Except String (List GuardianFailure)
  | _, failures, [] => .ok failures
  | i, failures, check :: rest =>
    match config.ctxErr t i with
    | some err => .error err
    | none =>
      match check.runCheck t input env with
      | .error err => .error s!"guardian node {id}: check {check.name.quote} error: {err}"
      | .ok checkFailures =>
        let failures := failures ++ checkFailures
        if config.stopOnFirstFailure && failures.length > 0 then .ok failures
        else config.runChecks id t input env (i + 1) failures rest

def check (config : GuardianNodeConfig) (id : String) (t : Nat) (env : Envelope) :
    Except String (List GuardianFailure) :=
  match config.input env with
  | none => .error s!"guardian node {id}: variable {config.inputVar.quote} not found"
  | some input => config.runChecks id t input env 0 [] config.checks

def storeResult (config : GuardianNodeConfig) (failures : List GuardianFailure) (env : Envelope) : Envelope :=
  if config.resultVar = "" then env
  else env.setVar config.resultVar (.record "GuardianResult"
    [("Passed", .bool (failures.length = 0)), ("Failures", .list (failures.map GuardianFailure.value))])

def run (config : GuardianNodeConfig) (id : String) (t : Nat) (env : Envelope) : Outcome :=
  match config.check id t env with
  | .error err => .failed err env
  | .ok failures =>
    let result := config.storeResult failures env.clone
    if failures.length = 0 then .ok (some result)
    else
      match config.onFail.getD .fail with
      | .fail =>
        let failMessage := if config.failMessage = "" then "validation failed" else config.failMessage
        .failed (s!"guardian node {id}: {failMessage}: " ++
          "; ".intercalate (failures.map GuardianFailure.message)) env
      | .skip => .ok (some result)
      | .redirect =>
        if config.redirectNodeID = "" then
          .failed s!"guardian node {id}: redirect action requires RedirectNodeID" env
        else .ok (some (result.setVar "__guardian_redirect__" (.str config.redirectNodeID)))
      | .other name => .failed s!"guardian node {id}: unknown action {name.quote}" env

end GuardianNodeConfig

def newGuardianNode (id : String) (config : GuardianNodeConfig) : Node :=
  { id, kind := .guardian, run := config.run id }

end petalflow.nodes
