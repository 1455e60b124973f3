import Petalflow.Tool.Validate

open petalflow.core

namespace petalflow.tool

/-- An error by what stands in its chain: whether the first `ToolError` is retryable, a
deadline, and whether the first network error is a timeout. -/
structure InvokeError where
  message : String
  retryable : Option Bool := none
  deadlineExceeded : Bool := false
  netTimeout : Option Bool := none

def isRetryableError (err : InvokeError) : Bool :=
  match err.retryable with
  | some retryable => retryable
  | none => err.deadlineExceeded || err.netTimeout.getD false

abbrev Outcome := Except InvokeError Vars

/-- What a run meets on each occasion: the errors of its context at a check and during a
pause, the errors of the service and of the adapter before the tool is invoked, and what
an invocation gives. An adapter wraps the error that is left in a text of its own. -/
structure InvokeEnv where
  ctxErr : Nat → Option InvokeError
  pauseErr : Nat → Option InvokeError
  serviceErr : Nat → Option InvokeError
  invoke : Vars → Nat → Outcome
  describe : InvokeError → String

structure Invoked where
  clock : Nat := 0
  outcomes : List Outcome := []

def Invoked.tick (s : Invoked) : Invoked := { s with clock := s.clock + 1 }

variable (env : InvokeEnv) (args : Vars)

def invokeOnce (s : Invoked) : Outcome × Invoked :=
  let outcome := env.invoke args s.clock
  (outcome, { clock := s.clock + 1, outcomes := s.outcomes ++ [outcome] })

/-- The attempt after which `left` are left. -/
def invokeWithRetry (backoffMS : Int) (left : Nat) (s : Invoked) : Outcome × Invoked :=
  match env.ctxErr s.clock with
  | some err => (.error err, s.tick)
  | none =>
    match invokeOnce env args s.tick with
    | (.ok outputs, s) => (.ok outputs, s)
    | (.error err, s) =>
      match left with
      | 0 => (.error err, s)
      | left + 1 =>
        if !isRetryableError err then (.error err, s)
        else if backoffMS ≤ 0 then invokeWithRetry backoffMS left s
        else
          match env.pauseErr s.clock with
          | some err => (.error err, s.tick)
          | none => invokeWithRetry backoffMS left s.tick

def normalizeRetryPolicy (policy : RetryPolicy) : RetryPolicy :=
  { policy with
    maxAttempts := if policy.maxAttempts ≤ 0 then 1 else policy.maxAttempts
    backoffMS := if policy.backoffMS < 0 then 0 else policy.backoffMS }

/-- `DefaultAdapterFactory` makes a native adapter, the only one that does not retry. -/
def ToolRegistration.native (reg : ToolRegistration) : Bool :=
  match reg.origin with
  | .native => true
  | .http | .stdio | .mcp => false
  | _ => reg.manifest.transport.type = .native

/-- `Adapter.Invoke` behind its checks of the request. -/
def adapterInvoke (reg : ToolRegistration) (s : Invoked) : Outcome × Invoked :=
  if reg.native then invokeOnce env args s
  else
    let policy := normalizeRetryPolicy reg.manifest.transport.retry
    let (outcome, s) := invokeWithRetry env args policy.backoffMS (policy.maxAttempts.toNat - 1) s
    (outcome.mapError fun err =>
      { err with message := env.describe err, retryable := some (isRetryableError err) }, s)

def testAction (reg : ToolRegistration) (s : Invoked) : Outcome × Invoked :=
  match env.serviceErr s.clock with
  | some err => (.error err, s.tick)
  | none =>
    if !reg.enabled || reg.status = .disabled then
      (.error { message := s!"tool: registration is disabled: {reg.name}" }, s.tick)
    else adapterInvoke env args reg s.tick

variable {env args}

/-- At most `most` invocations were made, and all but the last failed with an error that is retried. -/
def Tried (most : Nat) (before after : List Outcome) : Prop :=
  ∃ made, after = before ++ made ∧ made.length ≤ most ∧
    ∀ outcome ∈ made.dropLast, ∃ err, outcome = .error err ∧ isRetryableError err = true

theorem Tried.none (most : Nat) (outcomes : List Outcome) : Tried most outcomes outcomes :=
  ⟨[], (List.append_nil _).symm, Nat.zero_le _, by simp⟩

variable {most : Nat} {after : List Outcome}

theorem Tried.mono {more : Nat} {before : List Outcome} (htried : Tried most before after) (hle : most ≤ more) :
    Tried more before after := by
  obtain ⟨made, hmade, hlength, hretried⟩ := htried
  exact ⟨made, hmade, hlength.trans hle, hretried⟩

variable {s s' : Invoked}

theorem Tried.one {outcome : Outcome} (hinvoke : invokeOnce env args s.tick = (outcome, s')) :
    Tried (most + 1) s.outcomes s'.outcomes := by
  cases hinvoke
  exact ⟨[_], rfl, Nat.le_add_left 1 most, by simp⟩

theorem Tried.cons {err : InvokeError} (hinvoke : invokeOnce env args s.tick = (.error err, s'))
    (hretry : isRetryableError err = true) (hrest : Tried most s'.outcomes after) :
    Tried (most + 1) s.outcomes after := by
  obtain ⟨made, rfl, hlength, hretried⟩ := hrest
  obtain ⟨herr, rfl⟩ := Prod.mk.inj hinvoke
  refine ⟨.error err :: made, ?_, Nat.succ_le_succ hlength, ?_⟩
  · rw [herr, List.append_assoc]
    rfl
  · cases made with
    | nil => simp
    | cons outcome made => simp_all

theorem invokeWithRetry_tried (backoffMS : Int) (left : Nat) (s : Invoked) :
    Tried (left + 1) s.outcomes (invokeWithRetry env args backoffMS left s).2.outcomes := by
  induction left generalizing s with
  | zero =>
    unfold invokeWithRetry
    split
    · exact .none _ _
    · split
      · next hinvoke => exact .one hinvoke
      · next hinvoke => exact .one hinvoke
  | succ left ih =>
    unfold invokeWithRetry
    split
    · exact .none _ _
    · split
      · next hinvoke => exact .one hinvoke
      · next err s' hinvoke =>
        dsimp only
        split
        · exact .one hinvoke
        · next hretry =>
          have hretry : isRetryableError err = true := by simpa using hretry
          split
          · exact .cons hinvoke hretry (ih s')
          · split
            · exact .cons hinvoke hretry (.none _ _)
            · exact .cons hinvoke hretry (ih s'.tick)

theorem testAction_tried (reg : ToolRegistration) (s : Invoked) :
    Tried (max 1 reg.manifest.transport.retry.maxAttempts).toNat s.outcomes (testAction env args reg s).2.outcomes := by
  unfold testAction
  split
  · exact .none _ _
  · split
    · exact .none _ _
    · unfold adapterInvoke
      split
      · have hone : Tried 1 s.outcomes (invokeOnce env args s.tick).2.outcomes := .one rfl
        exact hone.mono (by omega)
      · refine (invokeWithRetry_tried _ _ s.tick).mono ?_
        simp only [normalizeRetryPolicy]
        split <;> omega

end petalflow.tool

namespace petalflow.nodes

open petalflow.tool

inductive ErrorPolicy where
  | fail | «continue» | record

/-- The configuration of a tool node. `maxAttempts` is that of the retry policy. -/
structure ToolNodeConfig where
  toolName : String
  argsTemplate : List (String × String) := []
  staticArgs : Vars := []
  outputKey : String := ""
  maxAttempts : Int := 0
  onError : ErrorPolicy := .fail

structure ToolNode where
  id : String
  config : ToolNodeConfig

def newToolNodeWithRegistry (id : String) (config : ToolNodeConfig) : ToolNode where
  id
  config := { config with
    outputKey := if config.outputKey = "" then id ++ "_output" else config.outputKey
    maxAttempts := if config.maxAttempts = 0 then 3 else config.maxAttempts }

namespace ToolNode

variable (n : ToolNode) (env : InvokeEnv)

def buildArgs (envelope : Envelope) : Vars :=
  n.config.argsTemplate.foldl (fun args (argName, varPath) =>
    match (envelope.getVarNested varPath).or (envelope.getVar varPath) with
    | some value => args.set argName value
    | none => args) n.config.staticArgs

/-- The attempts that are left. Without any the result is empty. -/
def attempts (reg : ToolRegistration) (args : Vars) : Nat → Invoked → Except String Vars × Invoked
  | 0, s => (.ok [], s)
  | left + 1, s =>
    match testAction env args reg s with
    | (.ok outputs, s) => (.ok outputs, s)
    | (.error err, s) =>
      match env.ctxErr s.clock with
      | some canceled => (.error canceled.message, s.tick)
      | none =>
        if left = 0 then
          (.error s!"tool \"{n.config.toolName}\" failed after {n.config.maxAttempts} attempts: {err.message}", s.tick)
        else
          match env.pauseErr s.tick.clock with
          | some canceled => (.error canceled.message, s.tick.tick)
          | none => attempts reg args left s.tick.tick

def handleError (envelope : Envelope) (message : String) : Except String Envelope :=
  match n.config.onError with
  | .fail => .error message
  | .continue | .record =>
    .ok (((envelope.appendError { nodeID := n.id, kind := .tool, message, attempt := 0, cause := message }).setVar
      n.config.outputKey .nil).setVar (n.config.outputKey ++ "_error") (.str message))

/-- `Run` over the registry of actions, with the invocations that it makes. -/
def run (registry : String → Option ToolRegistration) (envelope : Envelope) : Except String Envelope × Invoked :=
  match registry n.config.toolName with
  | none => (n.handleError envelope s!"tool \"{n.config.toolName}\" not found in registry", {})
  | some reg =>
    match n.attempts env reg (n.buildArgs envelope) n.config.maxAttempts.toNat {} with
    | (.ok result, s) => (.ok (envelope.setVar n.config.outputKey (.map result)), s)
    | (.error message, s) => (n.handleError envelope message, s)

variable {n env}

theorem run_snd {registry : String → Option ToolRegistration} {reg : ToolRegistration}
    (hreg : registry n.config.toolName = some reg) (envelope : Envelope) : (n.run env registry envelope).2 =
      (n.attempts env reg (n.buildArgs envelope) n.config.maxAttempts.toNat {}).2 := by
  grind [run]

theorem attempts_one (reg : ToolRegistration) (args : Vars) (s : Invoked) :
    (n.attempts env reg args 1 s).2.outcomes = (testAction env args reg s).2.outcomes := by
  unfold attempts
  split
  · next htest => rw [htest]
  · next htest =>
    rw [htest]
    split
    · rfl
    · rfl

end ToolNode

/-- The tool is not invoked again after an invocation that failed with a `ToolError` that is not
retryable, and not more often than the larger of the two policies allows. -/
def NotRetried (n : ToolNode) (env : InvokeEnv) (registry : String → Option ToolRegistration) (envelope : Envelope)
    (reg : ToolRegistration) : Prop :=
  (∀ outcome ∈ (n.run env registry envelope).2.outcomes.dropLast,
    ∀ err, outcome = .error err → err.retryable ≠ some false) ∧
  (n.run env registry envelope).2.outcomes.length ≤
    (max n.config.maxAttempts reg.manifest.transport.retry.maxAttempts).toNat

theorem notRetried_once {n : ToolNode} {registry : String → Option ToolRegistration} {reg : ToolRegistration}
    (hreg : registry n.config.toolName = some reg) (honce : n.config.maxAttempts ≤ 1) (env : InvokeEnv)
    (envelope : Envelope) : NotRetried n env registry envelope reg := by
  have htried : Tried (max n.config.maxAttempts reg.manifest.transport.retry.maxAttempts).toNat []
      (n.run env registry envelope).2.outcomes := by
    rw [ToolNode.run_snd hreg]
    obtain hnone | hone : n.config.maxAttempts.toNat = 0 ∨ n.config.maxAttempts = 1 := by omega
    · rw [hnone]
      exact .none _ _
    · rw [hone]
      change Tried _ _ (n.attempts env reg (n.buildArgs envelope) 1 {}).2.outcomes
      rw [ToolNode.attempts_one]
      exact testAction_tried reg {}
  obtain ⟨made, hmade, hlength, hretried⟩ := htried
  unfold NotRetried
  grind [isRetryableError]

theorem attempts_disabled {n : ToolNode} {env : InvokeEnv} {reg : ToolRegistration} {args : Vars}
    (hdisabled : reg.enabled = false ∨ reg.status = .disabled) (left : Nat) (s : Invoked) :
    (n.attempts env reg args left s).2.outcomes = s.outcomes := by
  have htest : ∀ s, ∃ err, testAction env args reg s = (.error err, s.tick) := by
    intro s
    unfold testAction
    split
    · exact ⟨_, rfl⟩
    · rw [if_pos (by rcases hdisabled with h | h <;> simp [h])]
      exact ⟨_, rfl⟩
  induction left generalizing s with
  | zero => rfl
  | succ left ih =>
    obtain ⟨err, htest⟩ := htest s
    simp only [ToolNode.attempts, htest]
    split
    · rfl
    · split
      · rfl
      · split
        · rfl
        · exact ih _

/-- Every invocation fails with an error that is not retryable, or with one that is. -/
def failing (retryable : Bool) : InvokeEnv where
  ctxErr _ := none
  pauseErr _ := none
  serviceErr _ := none
  invoke _ _ := .error { message := "refused", retryable := some retryable }
  describe err := "tool: HTTP invoke failed: " ++ err.message

theorem testAction_failing {reg : ToolRegistration} (args : Vars) (henabled : reg.enabled = true)
    (hstatus : reg.status ≠ .disabled) (s : Invoked) :
    ∃ err s', testAction (failing false) args reg s = (.error err, s') ∧
      s'.outcomes = s.outcomes ++ [.error { message := "refused", retryable := some false }] := by
  simp only [testAction, failing, henabled, hstatus, adapterInvoke]
  cases reg.native with
  | true => exact ⟨_, _, rfl, rfl⟩
  | false => cases (normalizeRetryPolicy reg.manifest.transport.retry).maxAttempts.toNat - 1 <;> exact ⟨_, _, rfl, rfl⟩

theorem attempts_failing {n : ToolNode} {reg : ToolRegistration} (args : Vars) (henabled : reg.enabled = true)
    (hstatus : reg.status ≠ .disabled) (left : Nat) (s : Invoked) :
    (n.attempts (failing false) reg args left s).2.outcomes =
      s.outcomes ++ List.replicate left (.error { message := "refused", retryable := some false }) := by
  induction left generalizing s with
  | zero => simp [ToolNode.attempts]
  | succ left ih =>
    obtain ⟨err, s', htest, houtcomes⟩ := testAction_failing args henabled hstatus s
    have hctx : ∀ k, (failing false).ctxErr k = none := fun _ => rfl
    have hpause : ∀ k, (failing false).pauseErr k = none := fun _ => rfl
    simp only [ToolNode.attempts, htest, hctx, hpause]
    split
    · next hlast => simp [hlast, Invoked.tick, houtcomes]
    · rw [ih]
      simp [Invoked.tick, houtcomes, List.replicate_succ]

/-- Whatever the invocations give, none is repeated that should not be, exactly if the node
makes at most one attempt or the tool is disabled. -/
theorem failed_invocations_not_retried (n : ToolNode) (registry : String → Option ToolRegistration)
    (envelope : Envelope) (reg : ToolRegistration) (hreg : registry n.config.toolName = some reg) :
    (∀ env, NotRetried n env registry envelope reg) ↔
      n.config.maxAttempts ≤ 1 ∨ reg.enabled = false ∨ reg.status = .disabled := by
  constructor
  · intro hall
    by_contra hexcluded
    simp only [not_or, not_le, Bool.not_eq_false] at hexcluded
    obtain ⟨hmore, henabled, hstatus⟩ := hexcluded
    have hrun : (n.run (failing false) registry envelope).2.outcomes =
        List.replicate n.config.maxAttempts.toNat (.error { message := "refused", retryable := some false }) := by
      rw [ToolNode.run_snd hreg, attempts_failing _ henabled hstatus]
      rfl
    have hagain := (hall (failing false)).1
    rw [hrun, List.dropLast_replicate] at hagain
    exact hagain _ (List.mem_replicate.mpr ⟨by omega, rfl⟩) _ rfl rfl
  · rintro (honce | hdisabled) env
    · exact notRetried_once hreg honce env envelope
    · have hnone : (n.run env registry envelope).2.outcomes = [] := by
        rw [ToolNode.run_snd hreg, attempts_disabled hdisabled]
      simp [NotRetried, hnone]

namespace invocations

def search : ToolRegistration where
  name := "search"
  manifest := { manifestVersion := "1.0", metadata := { name := "search" },
                transport := { type := .http, retry := { maxAttempts := 2 } } }
  origin := .http
  status := .ready
  enabled := true

def registry (name : String) : Option ToolRegistration :=
  if name = "search.query" then some search else none

def node (maxAttempts : Int) : ToolNode :=
  newToolNodeWithRegistry "lookup" { toolName := "search.query", maxAttempts }

def seen (maxAttempts : Int) (retryable : Bool) : List Bool :=
  ((node maxAttempts).run (failing retryable) registry {}).2.outcomes.map fun
    | .ok _ => false
    | .error err => isRetryableError err

end invocations

theorem failed_invocations_not_retried_once :
    invocations.seen 1 true = [true, true] ∧
      NotRetried (invocations.node 1) (failing true) invocations.registry {} invocations.search :=
  ⟨by decide +kernel, (failed_invocations_not_retried (invocations.node 1) invocations.registry {}
    invocations.search rfl).mpr (.inl (by decide)) (failing true)⟩

/-- With two attempts of each policy, a failure that is not retryable is retried by the
node, and one that is retryable leads to four invocations. -/
theorem failed_invocations_retried :
    invocations.seen 2 false = [false, false] ∧ invocations.seen 2 true = [true, true, true, true] := by
  decide +kernel

end petalflow.nodes
