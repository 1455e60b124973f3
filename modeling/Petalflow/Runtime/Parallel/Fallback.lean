import Petalflow.Runtime.Parallel.Refinement

open petalflow.core petalflow.graph machine pool Option Multiset
open channel (Chan)

namespace petalflow.runtime

open ParallelState

def isMerge (g : BasicGraph) (nodeID : String) : Bool :=
  (g.nodeByID nodeID).any fun node => node.mergeCapable.isSome

def Ledger.copies (v : Ledger) (nodeID : String) : Nat := v.items.countP (·.nodeID = nodeID)

/-- The condition on the results of nodes with successors: a success comes with an
envelope, and a failure is that of the entry or of a merge node of which no other
execution is outstanding and no result was handled since its input was recorded. -/
def inputRecorded (g : BasicGraph) (v : Ledger) : Action → Prop
  | .receive item result =>
    g.successors item.nodeID ≠ [] → if result.err.isSome then
        (item.nodeID = g.entry ∨ isMerge g item.nodeID = true) ∧
          (v.state.stateOf item.nodeID).hopCount = 0 ∧ v.copies item.nodeID = 1
      else result.envelope.isSome = true
  | _ => True

instance (g : BasicGraph) (v : Ledger) : (a : Action) → Decidable (inputRecorded g v a)
  | .receive _ _ => by
    unfold inputRecorded
    infer_instance
  | .start _ | .finish _ _ | .cancel | .schedule _ => .isTrue trivial

def Admits {n : Nat} (Q : Ledger → Action → Prop) (s : State n) (l : Label n) : Prop :=
  ∀ a ∈ s.action l, Q s.ledger a

instance {n : Nat} (Q : Ledger → Action → Prop) [∀ v a, Decidable (Q v a)] (s : State n) (l : Label n) :
    Decidable (Admits Q s l) :=
  match hact : s.action l with
  | none => isTrue fun a ha => by simp [hact] at ha
  | some a => decidable_of_iff (Q s.ledger a) (by simp [Admits, hact])

namespace Ledger

/-- While no result of the entry or of a merge node was handled since its input
was recorded, the execution on that input is outstanding. -/
def Recorded (g : Graph) (v : Ledger) : Prop :=
  ∀ id, id = g.entry ∨ isMerge g.toBasicGraph id = true → (v.state.stateOf id).hopCount = 0 →
    (∃ item ∈ v.items, item.nodeID = id ∧ (v.state.stateOf id).envelope = some item.envelope) ∨
      id ≠ g.entry ∧ ∀ item ∈ v.items, item.nodeID ≠ id

variable {g : Graph} {opts : RunOptions} {env : Envelope} {v v' : Ledger} {id : String}
  {node : Node}

theorem isMerge_of_some {g : BasicGraph} {merge : MergeCapable} (hnode : g.nodeByID id = some node)
    (hmerge : node.mergeCapable = some merge) : isMerge g id = true := by
  simp [isMerge, hnode, hmerge]

theorem isMerge_of_none {g : BasicGraph} (hnode : g.nodeByID id = some node) (hplain : node.mergeCapable = none) :
    isMerge g id = false := by
  simp [isMerge, hnode, hplain]

theorem exists_of_isMerge {g : BasicGraph} (hmerge : isMerge g id = true) :
    ∃ node merge, g.nodeByID id = some node ∧ node.mergeCapable = some merge := by
  obtain ⟨node, hnode, hsome⟩ := (any_eq_true ..).mp hmerge
  obtain ⟨merge, hmerge⟩ := isSome_iff_exists.mp hsome
  exact ⟨node, merge, hnode, hmerge⟩

theorem Recorded.congr (hv : Recorded g v) (hstate : ∀ id, v'.state.stateOf id = v.state.stateOf id)
    (hitems : v'.items = v.items) : Recorded g v' := by
  intro id hid hhops
  rw [hstate] at hhops ⊢
  rw [hitems]
  exact hv id hid hhops

variable {item : WorkItem}

theorem Recorded.handled (hv : Recorded g v) (hitems : v.items = item ::ₘ v'.items)
    (hself : (v'.state.stateOf item.nodeID).hopCount ≠ 0)
    (hother : ∀ id, id ≠ item.nodeID → v'.state.stateOf id = v.state.stateOf id) : Recorded g v' := by
  intro id hid hhops
  by_cases hsame : id = item.nodeID
  · rw [hsame] at hhops
    exact absurd hhops hself
  · rw [hother id hsame] at hhops ⊢
    have hbefore := hv id hid hhops
    grind

variable {a : Action}

theorem Step.recorded (hstep : Step g opts env v a v') (hknown : Known g v) (hv : Recorded g v) : Recorded g v' := by
  cases hstep with
  | start hitem => exact hv.congr (fun _ => rfl) (items_start hitem)
  | finish t hitem => exact hv.congr (fun _ => rfl) (items_finish hitem)
  | cancel | done => exact hv.congr (fun _ => rfl) rfl
  | receiveFailed _ hanswer | receivePanicked _ hanswer | receiveRouted _ hanswer =>
    obtain ⟨_, _, _, hid⟩ := hknown.take hanswer
    exact hv.handled (items_take hanswer) (by simp [hid]) (fun id hne => by simp [hid, hne])
  | receiveAbsent _ hanswer =>
    obtain ⟨_, _, _, hid⟩ := hknown.take hanswer
    exact hv.handled (items_take hanswer) (by simp [leave, hid]) (fun id hne => by simp [leave, hid, hne])
  | refused | arrived | mergeFailed => exact hv.congr (fun id => by simp) rfl
  | @sent source succID resultEnvelope rest node t _ hnode hplain =>
    intro id hid hhops
    simp only [touch_stateOf] at hhops ⊢
    simp only [items_sent, mem_cons]
    rcases hv id hid hhops with ⟨item, hmem, hitem, henv⟩ | ⟨hentry, hnone⟩
    · exact .inl ⟨item, .inr hmem, hitem, henv⟩
    grind [isMerge_of_none]
  | @fired source succID resultEnvelope merged rest =>
    intro id hid hhops
    simp only [fire_stateOf] at hhops ⊢
    simp only [items_sent, mem_cons]
    by_cases hsame : id = succID
    · exact .inl ⟨_, .inl rfl, hsame.symm, by simp [hsame]⟩
    · simp only [hsame, if_false] at hhops ⊢
      rcases hv id hid hhops with ⟨item, hmem, hitem, henv⟩ | ⟨hentry, hnone⟩
      · exact .inl ⟨item, .inr hmem, hitem, henv⟩
      grind

theorem recorded_of_reachable (hreach : (ledger g opts env).Reachable v) : Recorded g v := by
  refine invariant_of_known hreach (fun _ _ _ hknown hv _ hstep => Step.recorded hstep hknown hv) ?_
  intro id hid hhops
  by_cases hentry : id = g.entry
  · simp_all [Ledger.init, items, newParallelState, stateOf]
  · refine .inr ⟨hentry, ?_⟩
    intro item hitem
    have heq : item = { nodeID := g.entry, envelope := env } := by simpa [Ledger.init, items] using hitem
    rw [heq]
    exact fun heq => hentry heq.symm

theorem Resolved.received {result : NodeResult} {answered : Multiset (WorkItem × NodeResult)}
    {resultEnvelope : Option Envelope} {errs : List NodeError} (hknown : Known g v) (hrecorded : Recorded g v)
    (hallow : inputRecorded g v (.receive item result))
    (hanswer : v.answered = (item, result) ::ₘ answered) (hsuccessors : g.successors item.nodeID ≠ [])
    (hresolved : Resolved g opts result v.state resultEnvelope errs) :
    ∃ env', resultEnvelope = some env' ∧ (result.err ≠ none → env' = item.envelope) := by
  obtain ⟨_, _, _, hid⟩ := hknown.take hanswer
  replace hallow := hallow hsuccessors
  cases hresolved with
  | ok herr =>
    simp only [herr, isSome_none, Bool.false_eq_true, if_false] at hallow
    obtain ⟨env', henv⟩ := isSome_iff_exists.mp hallow
    exact ⟨env', henv, fun hfailed => absurd herr hfailed⟩
  | fallback herr hcont =>
    simp only [herr, isSome_some, if_true] at hallow
    obtain ⟨hnode, hhops, hsole⟩ := hallow
    have hmem : item ∈ v.items := by
      rw [items_take hanswer]
      exact mem_cons_self _ _
    rcases hrecorded item.nodeID hnode hhops with ⟨item', hmem', hitem', henv⟩ | ⟨_, hnone⟩
    · refine ⟨item'.envelope, by rw [hid, henv], fun _ => ?_⟩
      rw [copies, countP_eq_card_filter, card_eq_one] at hsole
      obtain ⟨only, honly⟩ := hsole
      have hleft : item ∈ v.items.filter (·.nodeID = item.nodeID) := mem_filter.mpr ⟨hmem, rfl⟩
      have hright : item' ∈ v.items.filter (·.nodeID = item.nodeID) := mem_filter.mpr ⟨hmem', hitem'⟩
      rw [honly, mem_singleton] at hleft hright
      rw [hleft, hright]
    · exact absurd rfl (hnone item hmem)

theorem Step.not_panicked (hstep : Step g opts env v a v') (hknown : Known g v) (hrecorded : Recorded g v)
    (hallow : inputRecorded g v a) (hv : v.phase ≠ .stopped .panicked) : v'.phase ≠ .stopped .panicked := by
  cases hstep with
  | start | finish => exact hv
  | receivePanicked _ hanswer hresolved hnode hsuccessors =>
    obtain ⟨_, _, _, hid⟩ := hknown.take hanswer
    rw [g.wellFormed.node_id _ _ hnode, hid] at hsuccessors
    grind [Resolved.received]
  | receiveAbsent | done =>
    unfold leave
    dsimp only
    split <;> simp
  | _ => simp

theorem not_panicked_of_reachableUnder (hreach : (ledger g opts env).ReachableUnder (inputRecorded g) v) :
    v.phase ≠ .stopped .panicked := by
  have hboth : Recorded g v ∧ v.phase ≠ .stopped .panicked := by
    refine invariant_of_known (I := fun v => Recorded g v ∧ v.phase ≠ .stopped .panicked) hreach ?_
      ⟨recorded_of_reachable (LTS.ReachableUnder.init (a := ledger g opts env) _), by simp [Ledger.init]⟩
    rintro v a v' hknown ⟨hrecorded, hphase⟩ hallow hstep
    exact ⟨Step.recorded hstep hknown hrecorded, Step.not_panicked hstep hknown hrecorded hallow hphase⟩
  exact hboth.2

end Ledger

theorem sending_envelope {g : BasicGraph} {opts : RunOptions} {env : Envelope}
    {s : State opts.concurrency} (hreach : (executeGraphParallel g opts env).Reachable s)
    {item : WorkItem} {source : String} {resultEnvelope : Envelope} {successors : List String}
    {addedPending : Nat} (hcoord : s.coordinator = .sending item source resultEnvelope successors addedPending)
    (hplain : isMerge g item.nodeID = false) : item.envelope = resultEnvelope := by
  have hinv : ∀ item source resultEnvelope successors addedPending,
      s.coordinator = .sending item source resultEnvelope successors addedPending →
      isMerge g item.nodeID = false → item.envelope = resultEnvelope := by
    refine hreach.invariant (I := fun s => ∀ item source resultEnvelope successors addedPending,
      s.coordinator = .sending item source resultEnvelope successors addedPending →
      isMerge g item.nodeID = false → item.envelope = resultEnvelope) ?_ (by simp [executeGraphParallel, State.init])
    intro s l s' hs hstep item source resultEnvelope successors addedPending hcoord hordinary
    rcases (moves_of_step hstep).of_sending hcoord with hbefore | ⟨t, succID, state, calls, _, _, hsched, _⟩
    · exact hs _ _ _ _ _ hbefore hordinary
    · cases scheduling_of_eq hsched with
      | sent => rfl
      | fired hnode hmerge =>
        rw [Ledger.isMerge_of_some hnode hmerge] at hordinary
        cases hordinary
  exact hinv _ _ _ _ _ hcoord hplain

/-- In every run in which failures only meet recorded inputs, the coordinator
never uses a nil envelope: a result of a node with successors resolves to an
envelope, after a failure to the one the failed execution received, and it is
this envelope that the successors are chosen from and run with. -/
theorem continueOnError_safe (g : Graph) (opts : RunOptions) (env : Envelope)
    (hconc : 1 < opts.concurrency) (hcont : opts.continueOnError = true) (s : State opts.concurrency)
    (hrun : (executeGraphParallel g.toBasicGraph opts env).ReachesUnder
      (Admits (inputRecorded g.toBasicGraph)) (executeGraphParallel g.toBasicGraph opts env).init s) :
    s.coordinator ≠ .stopping .panicked ∧ s.coordinator ≠ .returned .panicked ∧
    (∀ item result rest s', s.pool.answers.buffer = (item, result) :: rest →
      Admits (inputRecorded g.toBasicGraph) s .receive →
      State.step g.toBasicGraph opts env .receive s = some s' → g.successors item.nodeID ≠ [] →
      ∃ node received succ env', g.nodeByID item.nodeID = some node ∧
        (resolveResult g.toBasicGraph opts result s.state).map Prod.fst = .ok (some received) ∧
        (result.err ≠ none → received = item.envelope) ∧
        determineSuccessors g.toBasicGraph node (some received) = some succ ∧
        succ.envelope = some env' ∧ s'.coordinator = .scheduling item.nodeID env' succ.targets 0) ∧
    ∀ item source resultEnvelope successors addedPending,
      s.coordinator = .sending item source resultEnvelope successors addedPending →
      isMerge g.toBasicGraph item.nodeID = false → item.envelope = resultEnvelope := by
  have hview : (ledger g opts env).ReachableUnder (inputRecorded g) s.ledger :=
    (executeGraphParallel_refines g opts env (by omega)).reachableUnder
      (fun s l a hallow hact => hallow a hact) hrun
  have hknown := Ledger.known_of_reachable hview.reachable
  have hrecorded := Ledger.recorded_of_reachable hview.reachable
  have hphase := Ledger.not_panicked_of_reachableUnder hview
  refine ⟨?_, ?_, ?_, ?_⟩
  · intro hcoord
    exact hphase (congrArg Coordinator.phase hcoord)
  · intro hcoord
    exact hphase (congrArg Coordinator.phase hcoord)
  · intro item result rest s' hanswers hallow hstep hsuccessors
    replace hallow : inputRecorded g s.ledger (.receive item result) :=
      hallow _ (by simp [State.action, hanswers])
    have hmoves := moves_of_step hstep
    cases hmoves with
    | @receive item' result' pool _ hcoord hcollect hhandled =>
      have hans := (Pool.collect_stages hcollect).2.2
      obtain ⟨answers, hrecv, _⟩ := Pool.collect_eq_some_iff.mp hcollect
      rw [Chan.receive_eq_some_iff.mp hrecv] at hanswers
      cases hanswers
      obtain ⟨_, _, _, hid⟩ := hknown.take hans
      have hreceived : ∀ {resultEnvelope errs},
          Resolved g opts result s.state resultEnvelope errs →
          ∃ env', resultEnvelope = some env' ∧ (result.err ≠ none → env' = item.envelope) :=
        fun hresolved => Ledger.Resolved.received hknown hrecorded hallow hans hsuccessors hresolved
      cases hhandled with
      | failed _ hstop => simp [hcont] at hstop
      | missing hresolve hnode =>
        obtain ⟨node, hfound, _⟩ := g.exists_node (hknown.take hans).2.2.1
        rw [hid, hfound] at hnode
        cases hnode
      | panicked hresolve => grind [resolved_of_resolveResult]
      | absent hresolve hnode hleaf =>
        rw [g.wellFormed.node_id _ _ hnode, hid] at hleaf
        exact absurd hleaf hsuccessors
      | @routed received state node succ env' hresolve hnode hsucc henv =>
        obtain ⟨errs, hresolved, _⟩ := resolved_of_resolveResult hresolve
        obtain ⟨env'', henv'', hinput⟩ := hreceived hresolved
        cases henv''
        refine ⟨node, received, succ, env', hid ▸ hnode, ?_, hinput, hsucc, henv, by rw [← hid]⟩
        replace hresolve : resolveResult g opts result s.state = _ := hresolve
        rw [hresolve]
        rfl
  · intro item source resultEnvelope successors addedPending hcoord hplain
    exact sending_envelope hrun.reaches hcoord hplain

namespace failingNode

def opts : RunOptions := { maxHops := 100, continueOnError := true, concurrency := 2 }

def chain (failing : String) : Option Graph :=
  Graph.build? (["e", "a", "b"].map fun id =>
    if id = failing then newFuncNode id fun _ env => .failed "boom" env else newNoopNode id)
    [⟨"e", "a"⟩, ⟨"a", "b"⟩] "e"

def entryFails : Graph := (chain "e").get (by decide)

def innerFails : Graph := (chain "a").get (by decide)

def start : List (Label 2) := Label.complete Label.w₀ ++ [.receive, .schedule 0]

def second : List (Label 2) :=
  Label.complete Label.w₀ ++ [.receive] ++ Label.push ++ [.schedule 0] ++ Label.complete Label.w₀ ++ [.receive]

end failingNode

/-- The failure of the entry is recorded and its successor runs on the start envelope. -/
theorem entryFails_safe :
    ∃ s, (executeGraphParallel failingNode.entryFails.toBasicGraph failingNode.opts {}).ReachesUnder
        (Admits (inputRecorded failingNode.entryFails.toBasicGraph))
        (executeGraphParallel failingNode.entryFails.toBasicGraph failingNode.opts {}).init s ∧
      s.state.recordedErrors.length = 1 ∧ s.coordinator.held.map WorkItem.nodeID = ["a"] ∧
      s.coordinator ≠ .stopping .panicked := by
  obtain ⟨s, hrun, htest⟩ := Machine.exists_reachesUnder_of_exec
    (m := executeGraphParallel failingNode.entryFails failingNode.opts {})
    (P := fun s l => decide (Admits (inputRecorded failingNode.entryFails) s l))
    failingNode.start
    (fun s => decide (s.state.recordedErrors.length = 1) &&
      decide (s.coordinator.held.map WorkItem.nodeID = ["a"])) (by decide +kernel)
  simp only [decide_eq_true_eq] at hrun
  rw [Bool.and_eq_true, decide_eq_true_eq, decide_eq_true_eq] at htest
  exact ⟨s, hrun, htest.1, htest.2,
    (continueOnError_safe failingNode.entryFails failingNode.opts {} (by decide) rfl s hrun).1⟩

def hasPanicked {n : Nat} (s : State n) : Bool :=
  match s.coordinator with
  | .stopping .panicked => true
  | _ => false

theorem innerFails_panics :
    ∃ s, (executeGraphParallel failingNode.innerFails.toBasicGraph failingNode.opts {}).Reachable s ∧
      s.coordinator = .stopping .panicked := by
  obtain ⟨s, hreach, htest⟩ := Machine.exists_reachable_of_exec
    (m := executeGraphParallel failingNode.innerFails failingNode.opts {})
    failingNode.second hasPanicked (by decide +kernel)
  grind [hasPanicked]

end petalflow.runtime
