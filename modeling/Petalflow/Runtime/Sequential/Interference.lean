import Petalflow.Runtime.Sequential.Redirects

open petalflow.core petalflow.graph machine

namespace petalflow.runtime

open Envelope

def isInternal (name : String) : Bool := text.hasPrefix name "__"

structure SameOutside (env env' : Envelope) : Prop where
  input : env'.input = env.input
  artifacts : env'.artifacts = env.artifacts
  messages : env'.messages = env.messages
  errors : env'.errors = env.errors
  trace : env'.trace = env.trace
  vars : ∀ name, isInternal name = false → env'.getVar name = env.getVar name

/-- From two envelopes, two others have been made in which each internal variable was
handed on, or has the same value. -/
def HandedOn (env env' left left' : Envelope) : Prop :=
  ∀ name, isInternal name = true → left'.getVar name = left.getVar name ∨
    (left.getVar name = env.getVar name ∧ left'.getVar name = env'.getVar name)

def AlikeOutcomes (env env' : Envelope) : Outcome → Outcome → Prop
  | .ok none, .ok none => True
  | .ok (some left), .ok (some left') => SameOutside left left' ∧ HandedOn env env' left left'
  | .failed message left, .failed message' left' =>
    message' = message ∧ SameOutside left left' ∧ HandedOn env env' left left'
  | _, _ => False

/-- The node reads no internal variable. It may set some, and hands on the others. -/
def ReadsNoInternal (node : Node) : Prop :=
  ∀ t env env', SameOutside env env' → AlikeOutcomes env env' (node.run t env) (node.run t env')

def RunOptions.ReadsNoInternal (opts : RunOptions) : Prop :=
  ∀ ctrl ∈ opts.stepController, ∀ t req env', SameOutside req.envelope env' →
    ctrl.step t { req with envelope := env' } = ctrl.step t req

def Hints (g : BasicGraph) (env : Envelope) : Prop := ∃ id, redirectTarget (g.successors id) env ≠ none

/-- Envelopes that lead to the same successors of every node: they differ in internal
variables only, and these are neither decisions nor redirects. -/
structure Alike (g : BasicGraph) (env env' : Envelope) : Prop where
  outside : SameOutside env env'
  hint : env'.getVar gateRedirect = env.getVar gateRedirect ∨ (¬ Hints g env ∧ ¬ Hints g env')
  decision : ∀ name, isInternal name = true → env'.getVar name = env.getVar name ∨
    ∀ d, env.getVar name ≠ some (.decision d) ∧ env'.getVar name ≠ some (.decision d)

section envelopes

variable {g : BasicGraph} {env env' left left' : Envelope}

theorem isInternal_gateRedirect : isInternal gateRedirect = true := by
  decide +kernel

variable (hsame : env'.getVar gateRedirect = env.getVar gateRedirect)
include hsame

theorem redirectTarget_congr (graphSuccessors : List String) :
    redirectTarget graphSuccessors env' = redirectTarget graphSuccessors env := by
  unfold redirectTarget
  rw [hsame]

theorem hints_congr : Hints g env' ↔ Hints g env := by
  simp only [Hints, redirectTarget_congr hsame]

omit hsame

theorem Alike.handedOn (h : Alike g env env') (houtside : SameOutside left left')
    (hhanded : HandedOn env env' left left') : Alike g left left' := by
  refine ⟨houtside, ?_, ?_⟩
  · rcases hhanded gateRedirect isInternal_gateRedirect with hsame | ⟨hleft, hleft'⟩
    · exact .inl hsame
    · rw [hints_congr hleft, hints_congr hleft', hleft, hleft']
      exact h.hint
  · intro name hname
    rcases hhanded name hname with hsame | ⟨hleft, hleft'⟩
    · exact .inl hsame
    · rw [hleft, hleft']
      exact h.decision name hname

theorem SameOutside.setVar (h : SameOutside env env') (name : String) (value : Value) :
    SameOutside (env.setVar name value) (env'.setVar name value) := by
  refine { h with vars := fun other hother => ?_ }
  by_cases hname : other = name
  · rw [hname, getVar_setVar_self, getVar_setVar_self]
  · rw [getVar_setVar_of_ne hname, getVar_setVar_of_ne hname]
    exact h.vars other hother

theorem HandedOn.refl (env env' : Envelope) : HandedOn env env' env env' := fun _ _ => .inr ⟨rfl, rfl⟩

theorem HandedOn.setVar (h : HandedOn env env' left left') (name : String) (value : Value) :
    HandedOn env env' (left.setVar name value) (left'.setVar name value) := by
  intro other hother
  by_cases hname : other = name
  · simp_all
  · rw [getVar_setVar_of_ne hname, getVar_setVar_of_ne hname]
    exact h other hother

theorem SameOutside.deleteVar (h : SameOutside env env') (name : String) :
    SameOutside (env.deleteVar name) (env'.deleteVar name) := by
  refine { h with vars := fun other hother => ?_ }
  by_cases hname : other = name
  · rw [hname, getVar_deleteVar_self, getVar_deleteVar_self]
  · rw [getVar_deleteVar_of_ne hname, getVar_deleteVar_of_ne hname]
    exact h.vars other hother

theorem HandedOn.deleteVar (h : HandedOn env env' left left') (name : String) :
    HandedOn env env' (left.deleteVar name) (left'.deleteVar name) := by
  intro other hother
  by_cases hname : other = name
  · simp_all
  · rw [getVar_deleteVar_of_ne hname, getVar_deleteVar_of_ne hname]
    exact h other hother

variable (h : Alike g env env')
include h

theorem Alike.setVar (name : String) (value : Value) : Alike g (env.setVar name value) (env'.setVar name value) :=
  h.handedOn (h.outside.setVar name value) ((HandedOn.refl env env').setVar name value)

theorem Alike.deleteVar (name : String) : Alike g (env.deleteVar name) (env'.deleteVar name) :=
  h.handedOn (h.outside.deleteVar name) ((HandedOn.refl env env').deleteVar name)

theorem Alike.appendError (err : NodeError) : Alike g (env.appendError err) (env'.appendError err) := by
  have houtside := h.outside
  refine h.handedOn { houtside with errors := ?_ }
    (HandedOn.refl env env')
  rw [appendError_errors, appendError_errors, houtside.errors]

theorem Alike.apply (m : EnvelopeModification) : Alike g (m.apply env) (m.apply env') := by
  have hset : ∀ (vars : Vars) (env env' : Envelope), Alike g env env' →
      Alike g (vars.foldl (fun e v => e.setVar v.1 v.2) env) (vars.foldl (fun e v => e.setVar v.1 v.2) env') := by
    intro vars
    induction vars with
    | nil => exact fun _ _ h => h
    | cons v rest ih => exact fun env env' h => ih _ _ (h.setVar v.1 v.2)
  have hdelete : ∀ (names : List String) (env env' : Envelope), Alike g env env' →
      Alike g (names.foldl Envelope.deleteVar env) (names.foldl Envelope.deleteVar env') := by
    intro names
    induction names with
    | nil => exact fun _ _ h => h
    | cons name rest ih => exact fun env env' h => ih _ _ (h.deleteVar name)
  exact hdelete _ _ _ (hset _ _ _ h)

theorem Alike.redirectTarget_eq (id : String) :
    redirectTarget (g.successors id) env' = redirectTarget (g.successors id) env := by
  rcases h.hint with hsame | ⟨hnone, hnone'⟩
  · exact redirectTarget_congr hsame _
  · have hleft : redirectTarget (g.successors id) env = none := by
      by_contra hne
      exact hnone ⟨id, hne⟩
    have hright : redirectTarget (g.successors id) env' = none := by
      by_contra hne
      exact hnone' ⟨id, hne⟩
    rw [hleft, hright]

theorem Alike.decision_iff (name : String) (d : RouteDecision) :
    env'.getVar name = some (.decision d) ↔ env.getVar name = some (.decision d) := by
  cases hname : isInternal name with
  | false => rw [h.outside.vars name hname]
  | true =>
    rcases h.decision name hname with hsame | hplain
    · rw [hsame]
    · exact iff_of_false (hplain d).2 (hplain d).1

end envelopes

variable {g : BasicGraph} {ctx : Nat → Option String} {opts : RunOptions} {env env' : Envelope}
  {s s' : SequentialState} (t : Nat) (node : Node) (nodeID : String) (attempt : Nat)

def AlikeOptions (g : BasicGraph) : Option Envelope → Option Envelope → Prop
  | none, none => True
  | some env, some env' => Alike g env env'
  | _, _ => False

theorem routeSuccessors_alike (h : Alike g env env') : (routeSuccessors (g.successors node.id) node env').targets =
        (routeSuccessors (g.successors node.id) node env).targets ∧
      AlikeOptions g (routeSuccessors (g.successors node.id) node env).envelope
        (routeSuccessors (g.successors node.id) node env').envelope := by
  have htarget := h.redirectTarget_eq node.id
  unfold routeSuccessors
  rw [htarget]
  cases redirectTarget (g.successors node.id) env with
  | some target => exact ⟨rfl, h.setVar gateRedirect .nil⟩
  | none =>
    dsimp only
    split
    · split
      · next d hd =>
        have hd' := (h.decision_iff (node.id ++ "_decision") d).mp hd
        simp only [hd', true_and]
        exact h
      · next hnone =>
        split
        · next d hd => exact absurd ((h.decision_iff (node.id ++ "_decision") d).mpr hd) (hnone d)
        · exact ⟨rfl, h⟩
    · exact ⟨rfl, h⟩

structure InStep (g : BasicGraph) (s s' : SequentialState) : Prop where
  hopCount : s'.hopCount = s.hopCount
  visited : s'.visited = s.visited
  queue : s'.queue = s.queue
  clock : s'.clock = s.clock
  current : AlikeOptions g s.current s'.current

def AlikeSuccessors (g : BasicGraph) : Option Successors → Option Successors → Prop
  | none, none => True
  | some succ, some succ' => succ'.targets = succ.targets ∧ AlikeOptions g succ.envelope succ'.envelope
  | _, _ => False

theorem determineSuccessors_alike {current current' : Option Envelope} (h : AlikeOptions g current current') :
    AlikeSuccessors g (determineSuccessors g node current) (determineSuccessors g node current') := by
  unfold determineSuccessors
  split
  · exact ⟨rfl, h⟩
  · match current, current', h with
    | none, none, _ => trivial
    | some env, some env', h => exact routeSuccessors_alike node h

theorem enqueueSuccessors_together (h : InStep g s s') :
    Together (InStep g) (enqueueSuccessors g node nodeID s) (enqueueSuccessors g node nodeID s') := by
  have hsucc := determineSuccessors_alike node h.current
  unfold enqueueSuccessors
  generalize determineSuccessors g node s.current = succ at hsucc
  generalize determineSuccessors g node s'.current = succ' at hsucc
  match succ, succ', hsucc with
  | none, none, _ => trivial
  | some succ, some succ', ⟨htargets, henvelope⟩ =>
    refine ⟨h.hopCount, ?_, ?_, h.clock, henvelope⟩
    · simp only [h.visited]
    · simp only [h.queue, htargets]

structure AlikeDecisions (g : BasicGraph) (d d' : StepDecision) : Prop where
  action : d'.action = d.action
  err : d'.err = d.err
  modifiedEnv : AlikeOptions g d.modifiedEnv d'.modifiedEnv

variable (hopts : opts.ReadsNoInternal)
include hopts

variable (h : Alike g env env')
include h

theorem handleStepPoint_alike (point : StepPoint) (nodeErr : Option String) :
    AlikeDecisions g (handleStepPoint g opts t node env point attempt nodeErr)
      (handleStepPoint g opts t node env' point attempt nodeErr) := by
  unfold handleStepPoint
  split
  · exact ⟨rfl, rfl, trivial⟩
  · next ctrl hctrl =>
    split
    · have hrequest : stepRequest g node env' point attempt nodeErr =
          { stepRequest g node env point attempt nodeErr with envelope := env' } := by
        simp only [stepRequest, h.outside.trace]
      have hstep := hopts ctrl hctrl t (stepRequest g node env point attempt nodeErr) env' h.outside
      rw [hrequest, hstep]
      cases ctrl.step t (stepRequest g node env point attempt nodeErr) with
      | error message => exact ⟨rfl, rfl, trivial⟩
      | ok resp =>
        refine ⟨rfl, rfl, ?_⟩
        dsimp only
        split
        · cases resp.modifiedEnvelope with
          | none => trivial
          | some m => exact h.apply m
        · trivial
    · exact ⟨rfl, rfl, trivial⟩

structure AlikeBefore (g : BasicGraph) (b b' : BeforeStep) : Prop where
  err : b'.err = b.err
  skipNode : b'.skipNode = b.skipNode
  current : Alike g b.current b'.current

theorem handleSequentialBeforeStep_alike : AlikeBefore g (handleSequentialBeforeStep g opts t node env attempt)
      (handleSequentialBeforeStep g opts t node env' attempt) := by
  obtain ⟨haction, herr, hmodified⟩ := handleStepPoint_alike t node attempt hopts h .beforeNode none
  unfold handleSequentialBeforeStep
  generalize handleStepPoint g opts t node env .beforeNode attempt none = d at *
  generalize handleStepPoint g opts t node env' .beforeNode attempt none = d' at *
  have hcurrent : Alike g (d.modifiedEnv.getD env) (d'.modifiedEnv.getD env') := by
    generalize d.modifiedEnv = m at hmodified
    generalize d'.modifiedEnv = m' at hmodified
    match m, m', hmodified with
    | none, none, _ => exact h
    | some _, some _, hmodified => exact hmodified
  dsimp only
  rw [herr, haction]
  cases d.err with
  | some err => exact ⟨rfl, rfl, h⟩
  | none => cases d.action <;> exact ⟨rfl, rfl, hcurrent⟩

variable {outcome outcome' : Outcome}

theorem handleSequentialAfterStep_alike (houtcome : AlikeOutcomes env env' outcome outcome') :
    (handleSequentialAfterStep g opts t node env' outcome' attempt).1 =
      (handleSequentialAfterStep g opts t node env outcome attempt).1 := by
  unfold handleSequentialAfterStep
  match outcome, outcome', houtcome with
  | .ok none, .ok none, _ =>
    obtain ⟨haction, herr, _⟩ := handleStepPoint_alike t node attempt hopts h .afterNode none
    simp only [Option.getD, herr, haction]
    split
    · rfl
    · split <;> rfl
  | .ok (some left), .ok (some left'), ⟨houtside, hhanded⟩ =>
    have hleft := h.handedOn houtside hhanded
    obtain ⟨haction, herr, _⟩ := handleStepPoint_alike t node attempt hopts hleft .afterNode none
    simp only [Option.getD, herr, haction]
    split
    · rfl
    · split <;> rfl
  | .failed message left, .failed _ left', ⟨rfl, houtside, hhanded⟩ =>
    have hleft := h.handedOn houtside hhanded
    obtain ⟨haction, herr, _⟩ := handleStepPoint_alike t node attempt hopts hleft .afterNode (some message)
    simp only [herr, haction]
    split
    · rfl
    · split <;> rfl

omit hopts

theorem resolveSequentialNodeOutcome_alike (houtcome : AlikeOutcomes env env' outcome outcome') :
    (resolveSequentialNodeOutcome opts node nodeID attempt outcome').2 =
        (resolveSequentialNodeOutcome opts node nodeID attempt outcome).2 ∧
      AlikeOptions g (resolveSequentialNodeOutcome opts node nodeID attempt outcome).1
        (resolveSequentialNodeOutcome opts node nodeID attempt outcome').1 := by
  match outcome, outcome', houtcome with
  | .ok none, .ok none, _ => exact ⟨rfl, trivial⟩
  | .ok (some left), .ok (some left'), ⟨houtside, hhanded⟩ => exact ⟨rfl, h.handedOn houtside hhanded⟩
  | .failed message left, .failed _ left', ⟨rfl, houtside, hhanded⟩ =>
    have hleft := h.handedOn houtside hhanded
    unfold resolveSequentialNodeOutcome
    dsimp only
    split
    · exact ⟨rfl, hleft.appendError _⟩
    · exact ⟨rfl, hleft⟩

omit h

include hopts

theorem runSequentialNode_together (hnode : ReadsNoInternal node) (h : Alike g env env') (hs : InStep g s s') :
    Together (InStep g) (runSequentialNode g opts t node nodeID attempt env s)
      (runSequentialNode g opts t node nodeID attempt env' s') := by
  have houtcome := hnode t env env' h.outside
  have hafter := handleSequentialAfterStep_alike t node attempt hopts h houtcome
  obtain ⟨herr, hresult⟩ := resolveSequentialNodeOutcome_alike node nodeID attempt h houtcome
  unfold runSequentialNode executeNode
  dsimp only
  rw [hafter]
  cases (handleSequentialAfterStep g opts t node env (node.run t env) attempt).1 with
  | some err => trivial
  | none =>
    dsimp only
    generalize resolveSequentialNodeOutcome opts node nodeID attempt (node.run t env) = r at herr hresult
    generalize resolveSequentialNodeOutcome opts node nodeID attempt (node.run t env') = r' at herr hresult
    obtain ⟨result, err⟩ := r
    obtain ⟨result', err'⟩ := r'
    cases herr
    cases err with
    | some err => trivial
    | none => exact enqueueSuccessors_together node nodeID { hs with current := hresult }

theorem visitNode_together (hnode : ReadsNoInternal node) (h : Alike g env env') (hs : InStep g s s') :
    Together (InStep g) (visitNode g opts t node nodeID attempt env s)
      (visitNode g opts t node nodeID attempt env' s') := by
  obtain ⟨herr, hskip, hcurrent⟩ := handleSequentialBeforeStep_alike t node attempt hopts h
  unfold visitNode
  dsimp only
  rw [herr, hskip]
  cases (handleSequentialBeforeStep g opts t node env attempt).err with
  | some err => trivial
  | none =>
    dsimp only
    split
    · exact enqueueSuccessors_together node nodeID { hs with current := hcurrent }
    · exact runSequentialNode_together t node nodeID attempt hopts hnode hcurrent
        { hs with }

theorem sequentialBody_together (hnodes : ∀ id node, g.nodeByID id = some node → ReadsNoInternal node)
    (hs : InStep g s s') : Together (InStep g) (sequentialBody g ctx opts s) (sequentialBody g ctx opts s') := by
  obtain ⟨hhop, hvisited, hqueue, hclock, hcurrent⟩ := hs
  unfold sequentialBody
  rw [hhop, hvisited, hqueue, hclock]
  cases s.queue with
  | nil => trivial
  | cons nodeID queue =>
    dsimp only
    split
    · exact ⟨rfl, rfl, rfl, rfl, hcurrent⟩
    · cases checkRunContext ctx s.clock with
      | some err => trivial
      | none =>
        dsimp only
        split
        · trivial
        · next hopCount attempt hhops =>
          cases hnode : g.nodeByID nodeID with
          | none => trivial
          | some node =>
            generalize s.current = current at hcurrent
            generalize s'.current = current' at hcurrent
            match current, current', hcurrent with
            | none, none, _ => trivial
            | some env, some env', h =>
              have hreads := hnodes nodeID node hnode
              exact visitNode_together _ node nodeID attempt hopts hreads h ⟨rfl, rfl, rfl, rfl, h⟩

theorem visitExecution?_alike (h : Alike g env env') : (visitExecution? g opts t node attempt env).map (·.node.id) =
      (visitExecution? g opts t node attempt env').map (·.node.id) := by
  obtain ⟨herr, hskip, _⟩ := handleSequentialBeforeStep_alike t node attempt hopts h
  unfold visitExecution?
  dsimp only
  rw [herr, hskip]
  split <;> rfl

theorem execution?_inStep (hs : InStep g s s') :
    (execution? g ctx opts s).map (·.node.id) = (execution? g ctx opts s').map (·.node.id) := by
  obtain ⟨hhop, hvisited, hqueue, hclock, hcurrent⟩ := hs
  unfold execution?
  rw [hhop, hvisited, hqueue, hclock]
  cases s.queue with
  | nil => rfl
  | cons nodeID queue =>
    dsimp only
    split
    · rfl
    · split
      · rfl
      · generalize s.current = current at hcurrent
        generalize s'.current = current' at hcurrent
        match g.nodeByID nodeID, current, current', hcurrent with
        | none, _, _, _ => rfl
        | some _, none, none, _ => rfl
        | some node, some env, some env', h => exact visitExecution?_alike _ node _ hopts h

theorem executionsOf_alike (hnodes : ∀ id node, g.nodeByID id = some node → ReadsNoInternal node)
    (h : Alike g env env') (fuel : Nat) :
    (executionsOf fuel g ctx env opts).map (·.node.id) = (executionsOf fuel g ctx env' opts).map (·.node.id) := by
  have hinit : InStep g (sequentialInit g env) (sequentialInit g env') := ⟨rfl, rfl, rfl, rfl, h⟩
  refine loopTrace_lockstep (fun x : NodeExecution => x.node.id) ?_ ?_ hinit
  · intro s s' hs
    exact execution?_inStep hopts hs
  · intro s s' hs
    exact sequentialBody_together hopts hnodes hs

end petalflow.runtime
