import Petalflow.Nodes.Gate
import Petalflow.Runtime.Sequential.Paths

open petalflow.core petalflow.graph petalflow.nodes machine List Option

namespace petalflow.runtime

open Envelope

def Pending (env : Envelope) : Prop := ∃ target, env.getVar gateRedirect = some (.str target) ∧ target ≠ ""

variable {env : Envelope} {env' : Envelope}

theorem pending_congr (hsame : env'.getVar gateRedirect = env.getVar gateRedirect) : Pending env' ↔ Pending env := by
  simp only [Pending, hsame]

theorem not_pending_of_ne_str {value : Value} (hvalue : ∀ s, value ≠ .str s) :
    ¬ Pending (env.setVar gateRedirect value) := by
  rintro ⟨target, htarget, _⟩
  simp_all

theorem redirectTarget_of_not_pending (henv : ¬ Pending env) (graphSuccessors : List String) :
    redirectTarget graphSuccessors env = none := by
  unfold redirectTarget
  split
  · next target htarget =>
    rw [if_neg]
    exact fun hboth => henv ⟨target, htarget, hboth.1⟩
  · rfl

variable {graphSuccessors : List String}

theorem redirectTarget_setVar {target : String} (hne : target ≠ "") (hmem : target ∈ graphSuccessors) :
    redirectTarget graphSuccessors (env.setVar gateRedirect (.str target)) = some target := by
  simp [redirectTarget, hne, hmem]

theorem decisionKey_ne_gateRedirect (id : String) : id ++ "_decision" ≠ gateRedirect := by
  intro heq
  have hlast := congrArg (fun s : String => s.toList.getLast?) heq
  simp [gateRedirect] at hlast

variable {node : Node}

theorem routeSuccessors_deleteVar (hnone : redirectTarget graphSuccessors env = none) :
    (routeSuccessors graphSuccessors node (env.deleteVar gateRedirect)).targets =
      (routeSuccessors graphSuccessors node env).targets := by
  have hdeleted : redirectTarget graphSuccessors (env.deleteVar gateRedirect) = none := by simp [redirectTarget]
  grind [routeSuccessors, getVar_deleteVar_of_ne, decisionKey_ne_gateRedirect]

variable {g : BasicGraph} {succ : Successors}

theorem determineSuccessors_deleteVar {left : Option Envelope} (hsucc : determineSuccessors g node left = some succ)
    (hnone : ∀ env, left = some env → redirectTarget (g.successors node.id) env = none) :
    ∃ succ', determineSuccessors g node (left.map (·.deleteVar gateRedirect)) = some succ' ∧
      succ'.targets = succ.targets := by
  unfold determineSuccessors at hsucc ⊢
  split at hsucc
  · next hnil =>
    cases hsucc
    exact ⟨_, if_pos hnil, rfl⟩
  · next hne =>
    obtain ⟨env, rfl, rfl⟩ := map_eq_some_iff.mp hsucc
    exact ⟨_, if_neg hne, routeSuccessors_deleteVar (hnone env rfl)⟩

theorem determineSuccessors_not_pending
    (hsucc : determineSuccessors g node (some env) = some succ) (henv' : succ.envelope = some env')
    (hfollowed : Pending env → redirectTarget (g.successors node.id) env ≠ none) : ¬ Pending env' := by
  grind [determineSuccessors, redirectTarget, routeSuccessors, not_pending_of_ne_str]

/-- The envelope to go on with after a visit: the one received if the node was
skipped, else what its outcome is resolved to. -/
def LeftBy (opts : RunOptions) (node : Node) (t : Nat) (received : Envelope) :
    Option Outcome → Option Envelope → Prop
  | none, left => left = some received
  | some outcome, left => outcome = node.run t received ∧
      ∃ attempt, resolveSequentialNodeOutcome opts node node.id attempt outcome = (left, none)

/-- An iteration of the loop that visits a node and goes on. The node receives the
envelope at hand as the step controller has changed it; without an outcome it was
skipped; `left` is the envelope the successors are chosen on. -/
structure Visit (g : BasicGraph) (ctx : Nat → Option String) (opts : RunOptions) (s s' : SequentialState)
    (node : Node) (received : Envelope) (outcome : Option Outcome) (left : Option Envelope) : Prop where
  body : sequentialBody g ctx opts s = .inl s'
  found : g.nodeByID node.id = some node
  handed : ∃ current, s.current = some current ∧ (received = current ∨
    ∃ ctrl ∈ opts.stepController, ∃ req resp m, ctrl.step s.clock req = .ok resp ∧
      resp.modifiedEnvelope = some m ∧ received = m.apply current)
  resolved : LeftBy opts node s.clock received outcome left
  chosen : ∃ rest succ, s.queue = node.id :: rest ∧ determineSuccessors g node left = some succ ∧
    s'.queue = rest ++ succ.targets ∧ s'.current = succ.envelope

theorem handleSequentialBeforeStep_current (g : BasicGraph) (opts : RunOptions) (t : Nat) (node : Node)
    (current : Envelope) (attempt : Nat) :
    (handleSequentialBeforeStep g opts t node current attempt).current = current ∨
      ∃ ctrl ∈ opts.stepController, ∃ req resp m, ctrl.step t req = .ok resp ∧ resp.modifiedEnvelope = some m ∧
        (handleSequentialBeforeStep g opts t node current attempt).current = m.apply current := by
  have hmodified : ∀ env', (handleStepPoint g opts t node current .beforeNode attempt none).modifiedEnv =
      some env' → ∃ ctrl ∈ opts.stepController, ∃ req resp m, ctrl.step t req = .ok resp ∧
        resp.modifiedEnvelope = some m ∧ env' = m.apply current := by
    intro env' hsome
    unfold handleStepPoint at hsome
    split at hsome
    · cases hsome
    · next ctrl hctrl =>
      split at hsome
      · split at hsome
        · cases hsome
        · next resp hstep =>
          dsimp only at hsome
          split at hsome
          · obtain ⟨m, hm, rfl⟩ := map_eq_some_iff.mp hsome
            exact ⟨ctrl, hctrl, _, resp, m, hstep, hm, rfl⟩
          · cases hsome
      · cases hsome
  have hget : (handleStepPoint g opts t node current .beforeNode attempt none).modifiedEnv.getD current = current ∨
      ∃ ctrl ∈ opts.stepController, ∃ req resp m, ctrl.step t req = .ok resp ∧ resp.modifiedEnvelope = some m ∧
        (handleStepPoint g opts t node current .beforeNode attempt none).modifiedEnv.getD current =
          m.apply current := by
    cases hsome : (handleStepPoint g opts t node current .beforeNode attempt none).modifiedEnv with
    | none => exact .inl rfl
    | some env' => exact .inr (hmodified env' hsome)
  grind [handleSequentialBeforeStep]

variable {s s' : SequentialState}

theorem enqueueSuccessors_chosen {nodeID : String} (henqueue : enqueueSuccessors g node nodeID s = .inl s') :
    ∃ succ, determineSuccessors g node s.current = some succ ∧ s'.queue = s.queue ++ succ.targets ∧
      s'.current = succ.envelope := by
  grind [enqueueSuccessors]

theorem visitNode_chosen {opts : RunOptions} {t : Nat} {attempt : Nat} {current : Envelope}
    (hvisit : visitNode g opts t node node.id attempt current s = .inl s') :
    (handleSequentialBeforeStep g opts t node current attempt).err = none ∧ ∃ outcome left succ,
      outcome.isNone = (handleSequentialBeforeStep g opts t node current attempt).skipNode ∧
      LeftBy opts node t (handleSequentialBeforeStep g opts t node current attempt).current outcome left ∧
      determineSuccessors g node left = some succ ∧ s'.queue = s.queue ++ succ.targets ∧
      s'.current = succ.envelope := by
  unfold visitNode at hvisit
  dsimp only at hvisit
  split at hvisit
  · cases hvisit
  · next herr =>
    refine ⟨herr, ?_⟩
    split at hvisit
    · next hskip => exact ⟨none, _, (enqueueSuccessors_chosen hvisit).imp fun _ hsucc => ⟨hskip.symm, rfl, hsucc⟩⟩
    · next hskip =>
      unfold runSequentialNode at hvisit
      dsimp only at hvisit
      split at hvisit
      · cases hvisit
      · split at hvisit
        · cases hvisit
        · next result hresolve =>
          exact ⟨some _, result, (enqueueSuccessors_chosen hvisit).imp fun _ hsucc =>
            ⟨(Bool.eq_false_iff.mpr hskip).symm, ⟨rfl, _, hresolve⟩, hsucc⟩⟩

theorem sequentialBody_visit {g : Graph} {ctx : Nat → Option String} {opts : RunOptions}
    (hbody : sequentialBody g ctx opts s = .inl s') : s'.current = s.current ∨
      ∃ node received outcome left, Visit g ctx opts s s' node received outcome left := by
  cases sequentialBody_iteration hbody with
  | skipped => exact .inl rfl
  | @visit nodeID queue node current _ hqueue _ _ _ hnode hcurrent hvisit =>
    right
    obtain rfl := g.wellFormed.node_id _ _ hnode
    obtain ⟨_, outcome, left, succ, _, hleft, hsucc, hchosen, henv⟩ := visitNode_chosen hvisit
    have hhanded := handleSequentialBeforeStep_current g opts s.clock node current
      (s.hopCount node.id + 1)
    exact ⟨node, _, outcome, left, hbody, hnode, ⟨current, hcurrent, hhanded⟩, hleft, queue, succ, hqueue, hsucc,
      hchosen, henv⟩

def LocalRedirects (g : Graph) : Prop :=
  ∀ id node, g.nodeByID id = some node → ∀ t env env', ¬ Pending env →
    (node.run t env = .ok (some env') ∨ ∃ message, node.run t env = .failed message env') →
    Pending env' → redirectTarget (g.successors id) env' ≠ none

def RunOptions.SetsNoRedirect (opts : RunOptions) : Prop :=
  ∀ ctrl ∈ opts.stepController, ∀ t req resp m, ctrl.step t req = .ok resp → resp.modifiedEnvelope = some m →
    ∀ v ∈ m.setVars, v.1 ≠ gateRedirect

theorem EnvelopeModification.apply_not_pending {m : EnvelopeModification} (hset : ∀ v ∈ m.setVars, v.1 ≠ gateRedirect)
    (henv : ¬ Pending env) : ¬ Pending (m.apply env) := by
  have hsetVars : ∀ (vars : Vars) (e : Envelope), (∀ v ∈ vars, v.1 ≠ gateRedirect) → ¬ Pending e →
      ¬ Pending (vars.foldl (fun e v => e.setVar v.1 v.2) e) := by
    intro vars
    induction vars with
    | nil => exact fun _ _ he => he
    | cons v rest ih =>
      intro e hvars he
      have hne := hvars v mem_cons_self
      refine ih _ (fun v hv => hvars v (mem_cons_of_mem _ hv)) ?_
      rwa [pending_congr (getVar_setVar_of_ne hne.symm e v.2)]
  have hdeleteVars : ∀ (names : List String) (e : Envelope), ¬ Pending e →
      ¬ Pending (names.foldl Envelope.deleteVar e) := by
    intro names
    induction names with
    | nil => exact fun _ he => he
    | cons name rest ih =>
      intro e he
      refine ih _ ?_
      by_cases hname : gateRedirect = name
      · rintro ⟨target, htarget, _⟩
        rw [← hname, getVar_deleteVar_self] at htarget
        cases htarget
      · rwa [pending_congr (getVar_deleteVar_of_ne hname e)]
  exact hdeleteVars _ _ (hsetVars _ _ hset henv)

theorem appendError_pending {err : NodeError} : Pending (env.appendError err) ↔ Pending env :=
  pending_congr rfl

section

variable {g : Graph} {ctx : Nat → Option String} {opts : RunOptions} {received : Envelope}
  {outcome : Option Outcome}
  {left : Option Envelope} (hvisit : Visit g ctx opts s s' node received outcome left)
include hvisit

theorem Visit.received_not_pending (hopts : opts.SetsNoRedirect) (hs : ∀ env, s.current = some env → ¬ Pending env) :
    ¬ Pending received := by
  obtain ⟨current, hcurrent, rfl | ⟨ctrl, hctrl, req, resp, m, hstep, hm, rfl⟩⟩ := hvisit.handed
  · exact hs _ hcurrent
  · exact EnvelopeModification.apply_not_pending (hopts ctrl hctrl _ req resp m hstep hm) (hs current hcurrent)

variable (hlocal : LocalRedirects g)
include hlocal

variable {t : Nat}

theorem Visit.followed (hreceived : ¬ Pending received) (henv : left = some env)
    (hpending : Pending env) : redirectTarget (g.successors node.id) env ≠ none := by
  have hleft := hvisit.resolved
  cases outcome with
  | none => grind [LeftBy]
  | some outcome =>
    obtain ⟨hrun, attempt, hresolve⟩ := hleft
    cases outcome with
    | ok result =>
      cases hresolve
      exact hlocal _ node hvisit.found _ received env hreceived (.inl (henv ▸ hrun.symm)) hpending
    | failed message after =>
      simp only [resolveSequentialNodeOutcome] at hresolve
      split at hresolve
      · cases hresolve
        cases henv
        exact hlocal _ node hvisit.found _ received after hreceived (.inr ⟨message, hrun.symm⟩)
          (appendError_pending.mp hpending)
      · cases hresolve

omit hvisit

theorem sequentialBody_not_pending (hopts : opts.SetsNoRedirect) (hs : ∀ env, s.current = some env → ¬ Pending env)
    (hbody : sequentialBody g ctx opts s = .inl s') : ∀ env, s'.current = some env → ¬ Pending env := by
  rcases sequentialBody_visit hbody with hsame | ⟨node, received, outcome, left, hvisit⟩
  · rwa [hsame]
  · intro env henv
    have hreceived := hvisit.received_not_pending hopts hs
    obtain ⟨rest, succ, _, hsucc, _, hcurrent⟩ := hvisit.chosen
    rw [hcurrent] at henv
    cases left with
    | none => grind [determineSuccessors]
    | some after =>
      exact determineSuccessors_not_pending hsucc henv fun hpending => hvisit.followed hlocal hreceived rfl hpending

theorem not_pending_of_reachable (hopts : opts.SetsNoRedirect) (henv : ¬ Pending env)
    (hreach : (loopMachine (sequentialBody g ctx opts) (sequentialInit g env)).Reachable s) :
    ∀ current, s.current = some current → ¬ Pending current := by
  refine loopMachine_invariant (I := fun s => ∀ env, s.current = some env → ¬ Pending env) hreach
    (fun s s' hs hbody => sequentialBody_not_pending hlocal hopts hs hbody) ?_
  intro current hcurrent
  cases hcurrent
  exact henv

omit hlocal

/-- The node is to redirect to the target: a gate whose condition fails, with one
of its successors as its target, or a guardian with failures and its only
successor as its target. -/
inductive Redirects (g : Graph) (node : Node) (t : Nat) (received : Envelope) : String → Prop where
  | gate {config : GateNodeConfig} (hnode : node = newGateNode node.id config)
      (haction : config.onFail = some .redirect) (hfails : config.evaluateCondition t received = .ok false)
      (hne : config.redirectNodeID ≠ "") (hmem : config.redirectNodeID ∈ g.successors node.id) :
      Redirects g node t received config.redirectNodeID
  | guardian {config : GuardianNodeConfig} {failures : List GuardianFailure}
      (hnode : node = newGuardianNode node.id config) (haction : config.onFail = some .redirect)
      (hfails : config.check node.id t received = .ok failures) (hfailures : failures ≠ [])
      (hne : config.redirectNodeID ≠ "") (honly : g.successors node.id = [config.redirectNodeID]) :
      Redirects g node t received config.redirectNodeID

theorem gate_redirects {config : GateNodeConfig} (id : String)
    (haction : config.onFail = some .redirect) (hfails : config.evaluateCondition t received = .ok false)
    (hne : config.redirectNodeID ≠ "") :
    ∃ env : Envelope, (newGateNode id config).run t received =
      .ok (some (env.setVar gateRedirect (.str config.redirectNodeID))) := by
  refine ⟨config.storeResult false received.clone, ?_⟩
  simp only [newGateNode, GateNodeConfig.run, hfails, haction, getD_some, hne, if_false]
  rfl

theorem guardian_redirects {config : GuardianNodeConfig} {failures : List GuardianFailure} {id : String}
    (haction : config.onFail = some .redirect) (hfails : config.check id t received = .ok failures)
    (hfailures : failures ≠ []) (hne : config.redirectNodeID ≠ "") (hreceived : ¬ Pending received) :
    ∃ env, (newGuardianNode id config).run t received = .ok (some env) ∧ ¬ Pending env := by
  refine ⟨(config.storeResult failures received.clone).setVar "__guardian_redirect__"
    (.str config.redirectNodeID), ?_, ?_⟩
  · simp_all [newGuardianNode, GuardianNodeConfig.run]
  · have hother : gateRedirect ≠ "__guardian_redirect__" := by decide
    rw [pending_congr (getVar_setVar_of_ne hother _ _), GuardianNodeConfig.storeResult]
    split
    · exact hreceived
    · by_cases hvar : gateRedirect = config.resultVar
      · rw [← hvar]
        exact not_pending_of_ne_str (by simp)
      · rwa [pending_congr (getVar_setVar_of_ne hvar _ _)]

theorem Visit.redirected (hvisit : Visit g ctx opts s s' node received outcome left)
    (hreceived : ¬ Pending received) (hrun : outcome.isSome) {target : String}
    (hredirects : Redirects g node s.clock received target) {rest : List String} (hqueue : s.queue = node.id :: rest) :
    s'.queue = rest ++ [target] := by
  obtain ⟨rest', succ, hqueue', hsucc, hchosen, _⟩ := hvisit.chosen
  rw [hqueue, List.cons.injEq] at hqueue'
  rw [hchosen, ← hqueue'.2]
  have hleft := hvisit.resolved
  obtain ⟨outcome, rfl⟩ := isSome_iff_exists.mp hrun
  obtain ⟨hrun, attempt, hresolve⟩ := hleft
  congr 1
  cases hredirects with
  | @gate config hnode haction hfails hne hmem =>
    obtain ⟨env, hgate⟩ := gate_redirects node.id haction hfails hne
    rw [hnode] at hrun
    rw [hrun, hgate] at hresolve
    cases hresolve
    have hnil : g.successors node.id ≠ [] := ne_nil_of_mem hmem
    unfold determineSuccessors at hsucc
    rw [if_neg hnil] at hsucc
    cases hsucc
    rw [routeSuccessors, redirectTarget_setVar hne hmem]
  | @guardian config failures hnode haction hfails hfailures hne honly =>
    obtain ⟨env, hguardian, henv⟩ := guardian_redirects haction hfails hfailures hne hreceived
    rw [hnode] at hrun
    have hrouter : node.router = false := by rw [hnode]; rfl
    rw [hrun, hguardian] at hresolve
    cases hresolve
    grind [determineSuccessors_all, redirectTarget_of_not_pending]

end

/-- Redirects are followed and local if every node that sets one names one of its
own successors and nothing else sets one. In every visit of a run, a gate whose
condition fails hands over to its target only, as does a guardian with a single
successor, and after a node that does not set a redirect itself the successors
are those of an envelope without the variable. -/
theorem redirects_local (g : Graph) (ctx : Nat → Option String) (opts : RunOptions) (env : Envelope)
    (hlocal : LocalRedirects g) (hopts : opts.SetsNoRedirect) (henv : ¬ Pending env) (s s' : SequentialState)
    (hreach : (loopMachine (sequentialBody g.toBasicGraph ctx opts) (sequentialInit g.toBasicGraph env)).Reachable s)
    (node : Node) (received : Envelope) (outcome : Option Outcome) (left : Option Envelope)
    (hvisit : Visit g.toBasicGraph ctx opts s s' node received outcome left) (rest : List String)
    (hqueue : s.queue = node.id :: rest) :
    (∀ target, outcome.isSome → Redirects g node s.clock received target → s'.queue = rest ++ [target]) ∧
    ((∀ env, left = some env → env.getVar gateRedirect = received.getVar gateRedirect) →
      ∃ succ, determineSuccessors g.toBasicGraph node (left.map (·.deleteVar gateRedirect)) = some succ ∧
        s'.queue = rest ++ succ.targets) := by
  have hreceived := hvisit.received_not_pending hopts (not_pending_of_reachable hlocal hopts henv hreach)
  refine ⟨fun target hrun hredirects => hvisit.redirected hreceived hrun hredirects hqueue, ?_⟩
  intro hsame
  obtain ⟨rest', succ, hqueue', hsucc, hchosen, _⟩ := hvisit.chosen
  grind [determineSuccessors_deleteVar, redirectTarget_of_not_pending, pending_congr]

theorem newGateNode_local {config : GateNodeConfig} {id : String}
    (hmem : config.redirectNodeID ∈ graphSuccessors) {t : Nat} (henv : ¬ Pending env)
    (hrun : (newGateNode id config).run t env = .ok (some env') ∨
      ∃ message, (newGateNode id config).run t env = .failed message env')
    (hpending : Pending env') : redirectTarget graphSuccessors env' ≠ none := by
  have hstored : ∀ passed, ¬ Pending (config.storeResult passed env.clone) := by
    intro passed
    unfold GateNodeConfig.storeResult
    split
    · exact henv
    · by_cases hvar : gateRedirect = config.resultVar
      · rw [← hvar]
        exact not_pending_of_ne_str (by simp)
      · rwa [pending_congr (getVar_setVar_of_ne hvar _ _)]
  have houtcome : (∃ passed, env' = config.storeResult passed env.clone) ∨ env' = env ∨
      ∃ result : Envelope, config.redirectNodeID ≠ "" ∧
        env' = result.setVar gateRedirect (.str config.redirectNodeID) := by
    rcases hrun with hrun | ⟨message, hrun⟩ <;> simp only [newGateNode, GateNodeConfig.run] at hrun
    · split at hrun
      · cases hrun
      · next passed _ =>
        split at hrun
        · cases hrun
          exact .inl ⟨passed, rfl⟩
        · split at hrun
          · cases hrun
          · cases hrun
            exact .inl ⟨passed, rfl⟩
          · split at hrun
            · cases hrun
            · next hne =>
              cases hrun
              exact .inr (.inr ⟨_, hne, rfl⟩)
          · cases hrun
    · grind
  grind [redirectTarget_setVar]

namespace detour

def opts : RunOptions := { maxHops := 100, continueOnError := false, concurrency := 1 }

def gateConfig (redirectNodeID : String) : GateNodeConfig :=
  { conditionVar := "open", onFail := some .redirect, redirectNodeID }

def gate (redirectNodeID : String) : Node := newGateNode "g" (gateConfig redirectNodeID)

def guardian (redirectNodeID : String) : Node :=
  newGuardianNode "g"
    { checks := [{ name := "c"
                   runCheck := fun _ _ _ => .ok [{ checkName := "c", checkType := "custom", message := "no" }] }]
      onFail := some .redirect
      redirectNodeID }

def build (node : Node) : Option Graph :=
  Graph.build? [node, newNoopNode "a", newNoopNode "b"] [⟨"g", "a"⟩, ⟨"g", "b"⟩] "g"

def fork : Graph := (build (gate "b")).get (by decide)

def guarded : Graph := (build (guardian "b")).get (by decide)

def far : Graph :=
  (Graph.build? [gate "b", newNoopNode "m", newNoopNode "a", newNoopNode "b"]
    [⟨"g", "m"⟩, ⟨"m", "a"⟩, ⟨"m", "b"⟩] "g").get (by decide)

theorem fork_local : LocalRedirects fork := by
  intro id node hnode t env env' henv hrun hpending
  have hid := fork.wellFormed.node_id id node hnode
  have hmem := Graph.build?_nodes (by decide) hnode
  have hnoop : ∀ name, (newNoopNode name).run t env = .ok (some env') ∨
      (∃ message, (newNoopNode name).run t env = .failed message env') → env' = env := by
    rintro name (⟨⟨⟩⟩ | ⟨message, ⟨⟩⟩)
    rfl
  simp only [mem_cons, not_mem_nil, or_false] at hmem
  rcases hmem with rfl | rfl | rfl
  · subst hid
    exact newGateNode_local (by decide) henv hrun hpending
  · exact absurd (hnoop "a" hrun ▸ hpending) henv
  · exact absurd (hnoop "b" hrun ▸ hpending) henv

end detour

/-- A gate that does not open hands over to its target alone. -/
theorem detour_taken :
    ∃ s', sequentialBody detour.fork.toBasicGraph (fun _ => none) detour.opts
        (sequentialInit detour.fork.toBasicGraph {}) = .inl s' ∧ s'.queue = ["b"] := by
  refine ⟨_, rfl, ?_⟩
  have hvisit : Visit detour.fork (fun _ => none) detour.opts
      (sequentialInit detour.fork {}) _ (detour.gate "b") {} (some _) _ :=
    ⟨rfl, rfl, ⟨{}, rfl, .inl rfl⟩, ⟨rfl, 1, rfl⟩, [], _, rfl, rfl, rfl, rfl⟩
  obtain ⟨hredirects, _⟩ := redirects_local detour.fork (fun _ => none) detour.opts {} detour.fork_local
    (by simp [RunOptions.SetsNoRedirect, detour.opts]) (by simp [Pending, getVar]) _ _
    (Machine.ReachesUnder.refl _) (detour.gate "b") {} _ _ hvisit [] rfl
  have hfails : (detour.gateConfig "b").evaluateCondition 0 {} = .ok false := rfl
  exact hredirects "b" rfl (.gate rfl rfl hfails (by decide) (by decide))

/-- A guardian that objects does not redirect: both of its branches are run. A
gate's redirect to a node that is not its successor takes effect after the next
node, of which one branch is not run. -/
theorem detour_not_taken :
    (executeGraphSequential 10 detour.guarded.toBasicGraph (fun _ => none) {} detour.opts).any (fun done =>
      executions done.log "g" = 1 ∧ executions done.log "a" = 1 ∧ executions done.log "b" = 1) = true ∧
    (executeGraphSequential 10 detour.far.toBasicGraph (fun _ => none) {} detour.opts).any (fun done =>
      executions done.log "m" = 1 ∧ executions done.log "a" = 0 ∧ executions done.log "b" = 1) = true := by
  decide +kernel

structure NodeExecution where
  node : Node
  received : Envelope

def visitExecution? (g : BasicGraph) (opts : RunOptions) (t : Nat) (node : Node) (attempt : Nat) (current : Envelope) :
    Option NodeExecution :=
  let before := handleSequentialBeforeStep g opts t node current attempt
  if before.err.isSome || before.skipNode then none else some ⟨node, before.current⟩

def execution? (g : BasicGraph) (ctx : Nat → Option String) (opts : RunOptions) (s : SequentialState) :
    Option NodeExecution :=
  match s.queue with
  | [] => none
  | nodeID :: _ =>
    if shouldSkipVisitedNode nodeID s.visited s.hopCount opts.maxHops then none
    else if (checkRunContext ctx s.clock).isSome || opts.maxHops < s.hopCount nodeID + 1 then none
    else
      match g.nodeByID nodeID, s.current with
      | some node, some current => visitExecution? g opts s.clock node (s.hopCount nodeID + 1) current
      | _, _ => none

def executionsOf (fuel : Nat) (g : BasicGraph) (ctx : Nat → Option String) (env : Envelope) (opts : RunOptions) :
    List NodeExecution :=
  loopTrace (sequentialBody g ctx opts) (execution? g ctx opts) fuel (sequentialInit g env)

variable {ctx : Nat → Option String} {opts : RunOptions} {t : Nat} {nodeID : String} {attempt : Nat}
  {current : Envelope}

theorem execution?_visit {queue : List String} (hqueue : s.queue = nodeID :: queue)
    (hskip : shouldSkipVisitedNode nodeID s.visited s.hopCount opts.maxHops = false)
    (hctx : checkRunContext ctx s.clock = none) (hhops : s.hopCount nodeID + 1 ≤ opts.maxHops)
    (hnode : g.nodeByID nodeID = some node) (hcurrent : s.current = some current) :
    execution? g ctx opts s = visitExecution? g opts s.clock node (s.hopCount nodeID + 1) current := by
  grind [execution?]

def RunOptions.SkipsNothing (opts : RunOptions) : Prop :=
  ∀ ctrl ∈ opts.stepController, ∀ t req resp, ctrl.step t req = .ok resp → resp.action ≠ .skipNode

theorem handleSequentialBeforeStep_skipNode (hopts : opts.SkipsNothing) (g : BasicGraph) (t : Nat)
    (node : Node) (current : Envelope) (attempt : Nat) :
    (handleSequentialBeforeStep g opts t node current attempt).skipNode = false := by
  have haction : (handleStepPoint g opts t node current .beforeNode attempt none).action ≠ .skipNode := by
    unfold handleStepPoint
    split
    · simp [StepDecision.proceed]
    · next ctrl hctrl =>
      split
      · split
        · simp
        · next resp hstep => exact hopts ctrl hctrl t _ resp hstep
      · simp [StepDecision.proceed]
  grind [handleSequentialBeforeStep]

theorem handleSequentialBeforeStep_not_pending (hopts : opts.SetsNoRedirect) (g : BasicGraph)
    (t : Nat) (node : Node) (attempt : Nat) (hcurrent : ¬ Pending current) :
    ¬ Pending (handleSequentialBeforeStep g opts t node current attempt).current := by
  rcases handleSequentialBeforeStep_current g opts t node current attempt with
    hsame | ⟨ctrl, hctrl, req, resp, m, hstep, hm, hsame⟩
  · rwa [hsame]
  · rw [hsame]
    exact EnvelopeModification.apply_not_pending (hopts ctrl hctrl t req resp m hstep hm) hcurrent

variable {g : Graph} {Closed : String → Prop} {Opens : NodeExecution → Prop}

def OpenedBy (g : Graph) (opts : RunOptions) (Closed : String → Prop) (Opens : NodeExecution → Prop) : Prop :=
  ∀ t node received outcome left succ, g.nodeByID node.id = some node → ¬ Pending received →
    LeftBy opts node t received (some outcome) left → determineSuccessors g.toBasicGraph node left = some succ →
    ∀ id ∈ succ.targets, Closed id → Closed node.id ∨ Opens ⟨node, received⟩

/-- The invariant of the loop: if a closed node is queued, an execution has opened it. -/
structure Opened (Closed : String → Prop) (Opens : NodeExecution → Prop) (seen : List NodeExecution)
    (s : SequentialState) : Prop where
  pending : ∀ env, s.current = some env → ¬ Pending env
  queued : ∀ id ∈ s.queue, Closed id → ∃ x ∈ seen, Opens x

variable {x : NodeExecution} {fuel : Nat}

theorem sequentialBody_opened (hopened : OpenedBy g opts Closed Opens) (hlocal : LocalRedirects g)
    (hredirects : opts.SetsNoRedirect) (hskips : opts.SkipsNothing) {seen : List NodeExecution}
    (hs : Opened Closed Opens seen s) (hbody : sequentialBody g ctx opts s = .inl s') :
    Opened Closed Opens (seen ++ (execution? g ctx opts s).toList) s' := by
  refine ⟨sequentialBody_not_pending hlocal hredirects hs.pending hbody, ?_⟩
  have hold : ∀ id ∈ s.queue, Closed id →
      ∃ x ∈ seen ++ (execution? g ctx opts s).toList, Opens x := by
    intro id hid hclosed
    obtain ⟨x, hx, hopens⟩ := hs.queued id hid hclosed
    exact ⟨x, mem_append_left _ hx, hopens⟩
  cases sequentialBody_iteration hbody with
  | skipped hqueue =>
    intro id hid
    exact hold id (hqueue ▸ mem_cons_of_mem _ hid)
  | @visit nodeID queue node current _ hqueue hskip hctx hhops hnode hcurrent hvisit =>
    obtain rfl := g.wellFormed.node_id _ _ hnode
    have hnot := handleSequentialBeforeStep_skipNode hskips g s.clock node current
      (s.hopCount node.id + 1)
    have hexecution := execution?_visit hqueue hskip hctx hhops hnode hcurrent
    obtain ⟨herr, outcome, left, succ, houtcome, hleft, hsucc, hchosen, _⟩ := visitNode_chosen hvisit
    rw [hnot, isNone_eq_false_iff, isSome_iff_exists] at houtcome
    obtain ⟨outcome, rfl⟩ := houtcome
    rw [visitExecution?, herr, hnot] at hexecution
    have hreceived := handleSequentialBeforeStep_not_pending hredirects g s.clock node
      (s.hopCount node.id + 1) (hs.pending current hcurrent)
    intro id hid hclosed
    rw [hchosen] at hid
    rcases mem_append.mp hid with hrest | htarget
    · exact hold id (hqueue ▸ mem_cons_of_mem _ hrest) hclosed
    · rcases hopened _ node _ outcome left succ hnode hreceived hleft hsucc id htarget hclosed with hfrom | hopens
      · exact hold node.id (hqueue ▸ mem_cons_self) hfrom
      simp_all

theorem execution?_queued (hexecution : execution? g ctx opts s = some x) : x.node.id ∈ s.queue := by
  unfold execution? at hexecution
  split at hexecution
  · cases hexecution
  · next nodeID rest hqueue =>
    split at hexecution
    · cases hexecution
    · split at hexecution
      · cases hexecution
      · split at hexecution
        · next node current hnode _ =>
          unfold visitExecution? at hexecution
          dsimp only at hexecution
          split at hexecution
          · cases hexecution
          · cases hexecution
            rw [hqueue, g.wellFormed.node_id _ _ hnode]
            exact mem_cons_self
        · cases hexecution

theorem closed_preceded (hopened : OpenedBy g opts Closed Opens) (hlocal : LocalRedirects g)
    (hredirects : opts.SetsNoRedirect) (hskips : opts.SkipsNothing) (hentry : ¬ Closed g.entry)
    (henv : ¬ Pending env) {before after : List NodeExecution}
    (hsplit : executionsOf fuel g ctx env opts = before ++ x :: after) (hx : Closed x.node.id) :
    ∃ y ∈ before, Opens y := by
  have hinit : Opened Closed Opens [] (sequentialInit g env) := by
    refine ⟨?_, ?_⟩
    · rintro _ ⟨⟩
      exact henv
    · intro id hid hclosed
      cases mem_singleton.mp hid
      exact absurd hclosed hentry
  refine loopTrace_invariant (I := Opened Closed Opens) (Q := fun seen x => Closed x.node.id → ∃ y ∈ seen, Opens y)
    ?_ ?_ hinit hsplit hx
  · intro seen s x hs hexecution
    exact hs.queued _ (execution?_queued hexecution)
  grind [sequentialBody_opened]

def occasionsOf (fuel : Nat) (g : BasicGraph) (ctx : Nat → Option String) (env : Envelope) (opts : RunOptions) :
    List (Nat × NodeExecution) :=
  loopTrace (sequentialBody g ctx opts) (fun s => (execution? g ctx opts s).map fun x => (s.clock, x)) fuel
    (sequentialInit g env)

def SucceededOn (g : Graph) (x : Nat × NodeExecution) : Prop :=
  g.nodeByID x.2.node.id = some x.2.node ∧ ∃ result, x.2.node.run x.1 x.2.received = .ok result

theorem execution?_succeeded (hstop : opts.continueOnError = false) (hexecution : execution? g ctx opts s = some x)
    (hbody : sequentialBody g ctx opts s = .inl s') : SucceededOn g (s.clock, x) := by
  cases sequentialBody_iteration hbody with
  | skipped hqueue hskip => simp [execution?, hqueue, hskip] at hexecution
  | @visit nodeID queue node current _ hqueue hskip hctx hhops hnode hcurrent hvisit =>
    obtain rfl := g.wellFormed.node_id _ _ hnode
    rw [execution?_visit hqueue hskip hctx hhops hnode hcurrent, visitExecution?] at hexecution
    obtain ⟨herr, outcome, left, succ, houtcome, hleft, _⟩ := visitNode_chosen hvisit
    split at hexecution
    · cases hexecution
    · next hnot =>
      cases hexecution
      refine ⟨hnode, ?_⟩
      rw [Bool.or_eq_true, not_or] at hnot
      rw [Bool.eq_false_iff.mpr hnot.2, isNone_eq_false_iff, isSome_iff_exists] at houtcome
      obtain ⟨outcome, rfl⟩ := houtcome
      obtain ⟨rfl, attempt, hresolve⟩ := hleft
      cases hrun : node.run s.clock
          (handleSequentialBeforeStep g opts s.clock node current (s.hopCount node.id + 1)).current with
      | ok result => exact ⟨result, rfl⟩
      | failed message received => simp [hrun, resolveSequentialNodeOutcome, hstop] at hresolve

theorem succeeded_of_followed (hstop : opts.continueOnError = false)
    {before between after : List (Nat × NodeExecution)} {x y : Nat × NodeExecution}
    (hsplit : occasionsOf fuel g ctx env opts = before ++ x :: between ++ y :: after) : SucceededOn g x := by
  have hall : ∀ z ∈ [] ++ (before ++ x :: between), SucceededOn g z := by
    refine loopTrace_invariant (I := fun seen _ => ∀ z ∈ seen, SucceededOn g z)
      (Q := fun seen _ => ∀ z ∈ seen, SucceededOn g z) (fun _ _ _ hseen _ => hseen) ?_ (by simp) hsplit
    intro seen s s' hseen hbody z hz
    rcases mem_append.mp hz with hold | hnew
    · exact hseen z hold
    · grind [map_eq_some_iff, execution?_succeeded]
  exact hall x (by simp)

end petalflow.runtime
