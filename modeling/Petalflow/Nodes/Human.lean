import Petalflow.Nodes.LLM

open petalflow.core

namespace petalflow.nodes

inductive HumanRequestType where
  | approval | choice | edit | input | review
  | other (name : String)
deriving DecidableEq, Repr

def HumanRequestType.ofText (name : String) : HumanRequestType :=
  if name = "approval" then .approval
  else if name = "choice" then .choice
  else if name = "edit" then .edit
  else if name = "input" then .input
  else if name = "review" then .review
  else .other name

def HumanRequestType.text : HumanRequestType → String
  | approval => "approval"
  | choice => "choice"
  | edit => "edit"
  | input => "input"
  | review => "review"
  | other name => name

inductive HumanTimeoutAction where
  | fail | default | skip
  | other (name : String)
deriving DecidableEq, Repr

structure HumanOption where
  id : String
  label : String
  description : String := ""

structure HumanRequest where
  id : String
  type : HumanRequestType
  prompt : String
  data : Vars
  options : List HumanOption
  schema : Option Vars
  timeout : Int
  createdAt : Int
  envelopeRef : String

structure HumanResponse where
  requestID : String
  choice : String := ""
  data : Value := .nil
  notes : String := ""
  approved : Bool := false
  respondedBy : String := ""
  respondedAt : Int
  metadata : Option Vars := none

def HumanResponse.value (resp : HumanResponse) : Value :=
  .record "HumanResponse" [("RequestID", .str resp.requestID), ("Choice", .str resp.choice), ("Data", resp.data),
    ("Notes", .str resp.notes), ("Approved", .bool resp.approved), ("RespondedBy", .str resp.respondedBy),
    ("RespondedAt", .num .int64 resp.respondedAt), ("Meta", resp.metadata.elim .nil .map)]

/-- Who answers the requests: on each occasion an answer, or an error. -/
structure HumanHandler where
  request : Nat → HumanRequest → Except String HumanResponse

/-- The configuration of a human node. Times are in nanoseconds. -/
structure HumanNodeConfig where
  requestType : HumanRequestType := .other ""
  prompt : String := ""
  promptTemplate : String := ""
  inputVars : List String := []
  outputVar : String := ""
  options : List HumanOption := []
  schema : Option Vars := none
  timeout : Int := 0
  onTimeout : HumanTimeoutAction := .other ""
  defaultOption : String := ""
  handler : Option HumanHandler := none

/-- What surrounds the calls of a human node: templates, durations, ids, the clock,
and whether the context is done before a call, or its deadline exceeded when the
handler is done. -/
structure HumanRuntime where
  templates : Templates
  parseDuration : String → Except String Int
  durationText : Int → String
  newID : Nat → String
  now : Nat → Int
  ctxErr : Nat → Option String
  deadlineExceeded : Nat → Bool

structure HumanNode where
  id : String
  config : HumanNodeConfig

def newHumanNode (id : String) (config : HumanNodeConfig) : HumanNode :=
  { id
    config := { config with
      requestType := if config.requestType = .other "" then .approval else config.requestType
      onTimeout := if config.onTimeout = .other "" then .fail else config.onTimeout } }

namespace HumanNode

variable (n : HumanNode) (rt : HumanRuntime)

def templateData (env : Envelope) : Vars :=
  [("input", env.input), ("vars", env.vars.elim .nil .map),
    ("trace", .record "TraceInfo" [("RunID", .str env.trace.runID), ("ParentID", .str env.trace.parentID),
      ("SpanID", .str env.trace.spanID), ("TraceID", .str env.trace.traceID)])]

def buildPrompt (env : Envelope) : Except String String :=
  if n.config.promptTemplate ≠ "" then do
    let tmpl ← (rt.templates n.config.promptTemplate).mapError fun err => s!"invalid prompt template: {err}"
    (tmpl (templateData env)).mapError fun err => s!"template execution failed: {err}"
  else .ok n.config.prompt

def buildRequestData (env : Envelope) : Vars :=
  if n.config.inputVars ≠ [] then
    n.config.inputVars.foldl (fun data varName =>
      match env.getVar varName with
      | some val => Vars.set varName val data
      | none => data) []
  else env.vars.getD []

def request (t : Nat) (prompt : String) (env : Envelope) : HumanRequest :=
  { id := rt.newID t, type := n.config.requestType, prompt, data := n.buildRequestData env
    options := n.config.options, schema := n.config.schema, timeout := n.config.timeout
    createdAt := rt.now t, envelopeRef := env.trace.runID }

def storeResponse (resp : HumanResponse) (env : Envelope) : Envelope :=
  if n.config.outputVar = "" then env else env.setVar n.config.outputVar resp.value

def handleTimeout (t : Nat) (env : Envelope) (req : HumanRequest) : Outcome :=
  match n.config.onTimeout with
  | .fail => .failed s!"human node {n.id}: request timed out after {rt.durationText n.config.timeout}" env
  | .default =>
    if n.config.defaultOption = "" then
      .failed s!"human node {n.id}: timeout with default action but no DefaultOption configured" env
    else
      let resp : HumanResponse :=
        { requestID := req.id
          choice := n.config.defaultOption
          approved := n.config.defaultOption = "approve" ∨ n.config.defaultOption = "yes"
          respondedAt := rt.now t
          metadata := some [("timeout", .bool true), ("default", .bool true)] }
      .ok (some (n.storeResponse resp env.clone))
  | .skip =>
    let resp : HumanResponse :=
      { requestID := req.id, respondedAt := rt.now t
        metadata := some [("timeout", .bool true), ("skipped", .bool true)] }
    .ok (some (n.storeResponse resp env.clone))
  | .other name => .failed s!"human node {n.id}: unknown timeout action: {name}" env

def mergeEdited (data : Value) (env : Envelope) : Envelope :=
  match data with
  | .map edited => edited.foldr (fun entry env => env.setVar entry.1 entry.2) env
  | _ => env

/-- What an answer makes of the envelope. Whether it is an approval is stored, and
nothing else depends on it. -/
def answered (resp : HumanResponse) (env : Envelope) : Envelope :=
  let result := n.storeResponse resp env
  match n.config.requestType with
  | .approval => result.setVar (n.config.outputVar ++ "_approved") (.bool resp.approved)
  | .edit => mergeEdited resp.data result
  | _ => result

def run (t : Nat) (env : Envelope) : Outcome :=
  match rt.ctxErr t with
  | some err => .failed err env
  | none =>
    match n.config.handler with
    | none => .failed s!"human node {n.id}: no handler configured" env
    | some handler =>
      match n.buildPrompt rt env with
      | .error err => .failed s!"human node {n.id}: failed to build prompt: {err}" env
      | .ok prompt =>
        let req := n.request rt t prompt env
        match handler.request t req with
        | .error err =>
          if rt.deadlineExceeded t then n.handleTimeout rt t env req
          else .failed s!"human node {n.id}: handler error: {err}" env
        | .ok resp => .ok (some (n.answered resp env.clone))

def node : Node := { id := n.id, kind := .human, run := n.run rt }

variable {n rt} {t : Nat} {env : Envelope}

theorem run_ok (hanswer : n.config.onTimeout = .fail ∨ rt.deadlineExceeded t = false) {result : Option Envelope}
    (hrun : n.run rt t env = .ok result) :
    ∃ handler prompt resp, n.config.handler = some handler ∧ n.buildPrompt rt env = .ok prompt ∧
      handler.request t (n.request rt t prompt env) = .ok resp ∧ result = some (n.answered resp env) := by
  unfold run at hrun
  split at hrun
  · cases hrun
  · grind [handleTimeout, core.Envelope.clone]

end HumanNode

/-- A handler that gives the same answer to every request; it may wait, and be
interrupted by the end of the context. -/
structure AutoApproveHandler where
  approved : Bool
  choice : String := ""
  data : Value := .nil
  notes : String := ""
  respondedBy : String := "auto"
  interrupted : Nat → Option String := fun _ => none

def AutoApproveHandler.handler (h : AutoApproveHandler) (now : Nat → Int) : HumanHandler :=
  { request := fun t req =>
      match h.interrupted t with
      | some err => .error err
      | none =>
        .ok
          { requestID := req.id
            choice := if h.choice = "" then if h.approved then "approve" else "reject" else h.choice
            data := h.data
            notes := h.notes
            approved := h.approved
            respondedBy := h.respondedBy
            respondedAt := now t } }

def newAutoApproveHandler : AutoApproveHandler := { approved := true }

def newAutoRejectHandler : AutoApproveHandler := { approved := false }

def strictRunHumanHandler : HumanHandler :=
  { request := fun _ req => .error
      (s!"human request {req.id.quote} ({req.type.text}) requires external handling; " ++
        "set options.human.mode to auto_approve or auto_reject") }

def HumanHandler.RefusesByError (h : HumanHandler) : Prop :=
  ∀ t req resp, h.request t req = .ok resp → resp.approved = true

theorem newAutoApproveHandler_refusesByError (now : Nat → Int) :
    (newAutoApproveHandler.handler now).RefusesByError := by
  rintro t req resp ⟨⟩
  rfl

/-- Whether a request that is not answered in time counts as approved. -/
def HumanNode.timeoutApproves (n : HumanNode) : Bool :=
  match n.config.onTimeout with
  | .default => n.config.defaultOption = "approve" ∨ n.config.defaultOption = "yes"
  | _ => false

/-- What the handler says to the request of a run, if the request is made. -/
def HumanNode.Answers (n : HumanNode) (rt : HumanRuntime) (t : Nat) (env : Envelope)
    (answer : Except String HumanResponse) : Prop :=
  ∃ handler prompt, n.config.handler = some handler ∧ n.buildPrompt rt env = .ok prompt ∧
    handler.request t (n.request rt t prompt env) = answer

/-- The flag and the stored response both say whether the request was approved. -/
def HumanNode.Truthful (n : HumanNode) (approved : Bool) (env : Envelope) : Prop :=
  env.getVar (n.config.outputVar ++ "_approved") = some (.bool approved) ∧
    ∃ fields, env.getVar n.config.outputVar = some (.record "HumanResponse" fields) ∧
      fields.lookup "Approved" = some (.bool approved)

theorem HumanNode.run_cases {n : HumanNode} {rt : HumanRuntime} {t : Nat} {env : Envelope} {result : Option Envelope}
    (hrun : n.run rt t env = .ok result) :
    (∃ resp, n.Answers rt t env (.ok resp) ∧ result = some (n.answered resp env)) ∨
    ∃ err resp, n.Answers rt t env (.error err) ∧ result = some (n.storeResponse resp env) ∧
      resp.approved = n.timeoutApproves := by
  unfold HumanNode.run at hrun
  split at hrun
  · cases hrun
  split at hrun
  · cases hrun
  next handler hhandler =>
  split at hrun
  · cases hrun
  next prompt hprompt =>
  cases hanswer : handler.request t (n.request rt t prompt env) with
  | ok resp =>
    simp only [hanswer] at hrun
    cases hrun
    exact .inl ⟨resp, ⟨handler, prompt, hhandler, hprompt, hanswer⟩, rfl⟩
  | error err =>
    simp only [hanswer] at hrun
    split at hrun
    · unfold HumanNode.handleTimeout at hrun
      split at hrun
      · cases hrun
      · next honTimeout =>
        split at hrun
        · cases hrun
        · cases hrun
          exact .inr ⟨err, _, ⟨handler, prompt, hhandler, hprompt, hanswer⟩, rfl, by
            simp [HumanNode.timeoutApproves, honTimeout]⟩
      · next honTimeout =>
        cases hrun
        exact .inr ⟨err, _, ⟨handler, prompt, hhandler, hprompt, hanswer⟩, rfl, by
          simp [HumanNode.timeoutApproves, honTimeout]⟩
      · cases hrun
    · cases hrun

/-- After an answer to an approval request the flag beside the response says what the response
says. After a timeout it does exactly if an earlier flag happens to say that already. -/
theorem approval_flag_truthful (n : HumanNode) (rt : HumanRuntime) (t : Nat) (env : Envelope)
    (result : Option Envelope) (htype : n.config.requestType = .approval) (hvar : n.config.outputVar ≠ "")
    (hrun : n.run rt t env = .ok result) :
    (∃ answer env', n.Answers rt t env answer ∧ result = some env' ∧
      n.Truthful (answer.toOption.elim n.timeoutApproves HumanResponse.approved) env') ↔
    (∃ resp, n.Answers rt t env (.ok resp)) ∨
      env.getVar (n.config.outputVar ++ "_approved") = some (.bool n.timeoutApproves) := by
  have hother : n.config.outputVar ≠ n.config.outputVar ++ "_approved" := text.ne_append (by decide)
  have hsame : ∀ answer answer', n.Answers rt t env answer → n.Answers rt t env answer' → answer = answer' := by
    rintro _ _ ⟨handler, prompt, hhandler, hprompt, rfl⟩ ⟨handler', prompt', hhandler', hprompt', rfl⟩
    rw [hhandler] at hhandler'
    rw [hprompt] at hprompt'
    cases hhandler'
    cases hprompt'
    rfl
  rcases HumanNode.run_cases hrun with ⟨resp, hresp, rfl⟩ | ⟨err, resp, herr, rfl, happroved⟩
  · refine iff_of_true ⟨_, _, hresp, rfl, ?_, ?_⟩ (.inl ⟨resp, hresp⟩)
    · simp [HumanNode.answered, htype, Except.toOption, Envelope.getVar_setVar_self]
    · simp only [HumanNode.answered, htype, HumanNode.storeResponse, hvar, if_false]
      rw [Envelope.getVar_setVar_of_ne hother, Envelope.getVar_setVar_self]
      exact ⟨_, rfl, rfl⟩
  · -- the response is stored and the flag is left as it was
    have hflag : (n.storeResponse resp env).getVar (n.config.outputVar ++ "_approved") =
        env.getVar (n.config.outputVar ++ "_approved") := by
      rw [HumanNode.storeResponse, if_neg hvar, Envelope.getVar_setVar_of_ne hother.symm]
    constructor
    · rintro ⟨answer, env', hanswer, ⟨⟩, htruthful⟩
      obtain rfl := hsame _ _ hanswer herr
      exact .inr (hflag.symm.trans htruthful.1)
    · rintro (⟨resp', hresp'⟩ | hearlier)
      · cases hsame _ _ hresp' herr
      · have hstored : (n.storeResponse resp env).getVar n.config.outputVar = some resp.value := by
          rw [HumanNode.storeResponse, if_neg hvar, Envelope.getVar_setVar_self]
        refine ⟨_, _, herr, rfl, hflag.trans hearlier, _, hstored, ?_⟩
        exact congrArg (fun b => some (Value.bool b)) happroved

namespace review

/-- A runtime whose deadline is over when the handler fails. -/
def late : HumanRuntime where
  templates _ := .error "no templates"
  parseDuration _ := .error "no durations"
  durationText _ := "1s"
  newID _ := "request"
  now _ := 0
  ctxErr _ := none
  deadlineExceeded _ := true

def node (onTimeout : HumanTimeoutAction) (handler : HumanHandler) : HumanNode :=
  newHumanNode "review" { outputVar := "review", onTimeout, defaultOption := "reject", handler := some handler }

/-- The flag of an earlier review, and the flag and the approval in the stored answer after a run. -/
def flags (n : HumanNode) : Option (Option Value × Option Value) :=
  match n.run late 0 (Envelope.newEnvelope.setVar "review_approved" (.bool true)) with
  | .ok (some env) => some (env.getVar "review_approved",
      (env.getVar "review").bind fun
        | .record _ fields => fields.lookup "Approved"
        | _ => none)
  | _ => none

end review

theorem approval_flag_truthful_answered :
    ∃ answer env', (review.node .skip (newAutoRejectHandler.handler fun _ => 0)).Answers review.late 0 {} answer ∧
      (review.node .skip (newAutoRejectHandler.handler fun _ => 0)).run review.late 0 {} = .ok (some env') ∧
      (review.node .skip (newAutoRejectHandler.handler fun _ => 0)).Truthful
        (answer.toOption.elim false HumanResponse.approved) env' := by
  obtain ⟨answer, env', hanswer, henv, htruthful⟩ :=
    (approval_flag_truthful (review.node .skip (newAutoRejectHandler.handler fun _ => 0)) review.late 0 {} _ rfl
      (by decide) rfl).mpr (.inl ⟨_, _, _, rfl, rfl, rfl⟩)
  exact ⟨answer, env', hanswer, congrArg Outcome.ok henv, htruthful⟩

/-- After a timeout the approval of an earlier review stays beside an answer that is none. -/
theorem approval_flag_stale :
    review.flags (review.node .default strictRunHumanHandler) = some (some (.bool true), some (.bool false)) ∧
      review.flags (review.node .skip strictRunHumanHandler) = some (some (.bool true), some (.bool false)) :=
  ⟨rfl, rfl⟩

end petalflow.nodes
