import Petalflow.Nodes.Helpers

open petalflow.core List

namespace petalflow.nodes

/-- What a merge of envelopes does. A nil envelope can come without an error. -/
inductive MergeResult where
  | ok (envelope : Option Envelope)
  | failed (message : String)
  | panicked

/-- How the envelopes of parallel branches are combined. `none` is a nil pointer. -/
structure MergeStrategy where
  name : String
  merge : Nat → List (Option Envelope) → MergeResult

inductive ConflictPolicy where
  | last | first | error
  | other (name : String)
deriving DecidableEq, Repr

structure JSONMergeConfig where
  deepMerge : Bool := false
  conflictPolicy : Option ConflictPolicy := none
  varsOnly : Bool := false

mutual

/-- The merged variables, as a value: the source writes them into the map `dest` and, in a deep merge, into
the maps that are nested in it, which a clone shares with the envelope that it was made from. -/
def mergeVars (policy : ConflictPolicy) (deepMerge : Bool) : Vars → Vars → Except String Vars
  | dest, [] => .ok dest
  | dest, entry :: rest => do mergeVars policy deepMerge (← mergeEntry policy deepMerge dest entry) rest

def mergeEntry (policy : ConflictPolicy) (deepMerge : Bool) : Vars → String × Value → Except String Vars
  | dest, (k, v) =>
    match dest.lookup k with
    | none => .ok (Vars.set k v dest)
    | some existing =>
      match policy with
      | .error => .error s!"key conflict: {k.quote} exists in multiple branches"
      | .first => .ok dest
      | .last => do .ok (Vars.set k (← mergeValue policy deepMerge existing v) dest)
      | .other _ => .ok (Vars.set k v dest)

/-- The value that wins a conflict: the new one, or the merge of two maps. -/
def mergeValue (policy : ConflictPolicy) (deepMerge : Bool) : Value → Value → Except String Value
  | .map destMap, .map srcMap =>
    if deepMerge then do .ok (.map (← mergeVars policy deepMerge destMap srcMap)) else .ok (.map srcMap)
  | _, v => .ok v

end

/-- The assignment of merged variables to an envelope. A nil map has no entries
and cannot be written to. -/
def mergeInto (policy : ConflictPolicy) (deepMerge : Bool) (dest : Envelope) (src : Vars) : MergeResult :=
  match dest.vars, src with
  | _, [] => .ok (some dest)
  | none, _ :: _ => .panicked
  | some vars, src =>
    match mergeVars policy deepMerge vars src with
    | .error message => .failed message
    | .ok vars => .ok (some { dest with vars := some vars })

def appendFields (result input : Envelope) : Envelope :=
  { result with
    artifacts := result.artifacts ++ input.artifacts
    messages := result.messages ++ input.messages
    errors := result.errors ++ input.errors }

def mergeRest (policy : ConflictPolicy) (config : JSONMergeConfig) :
    Option Envelope → List (Option Envelope) → MergeResult
  | result, [] => .ok result
  | result, input :: rest =>
    match input.bind fun input => input.vars.map fun src => (input, src) with
    | none => mergeRest policy config result rest
    | some (input, src) =>
      match result with
      | none => .panicked
      | some dest =>
        match mergeInto policy config.deepMerge dest src with
        | .ok (some dest) =>
          mergeRest policy config (some (if config.varsOnly then dest else appendFields dest input)) rest
        | r => r

def newJSONMergeStrategy (config : JSONMergeConfig) : MergeStrategy :=
  let policy := config.conflictPolicy.getD .last
  { name := "json_merge"
    merge := fun _ inputs =>
      match inputs with
      | [] => .ok (some .newEnvelope)
      | first :: rest => mergeRest policy config (first.map Envelope.clone) rest }

structure ConcatMergeConfig where
  varName : String
  outputKey : String := ""
  separator : String := ""

/-- The values to be concatenated. `sprint` is the default format of a value
that is not a string. -/
def concatValues (sprint : Value → String) (varName : String) (inputs : List (Option Envelope)) :
    List String :=
  inputs.filterMap fun input =>
    (input.bind fun input => input.getVar varName).map fun
      | .str s => s
      | v => sprint v

def newConcatMergeStrategy (sprint : Value → String) (config : ConcatMergeConfig) : MergeStrategy :=
  let separator := if config.separator = "" then "\n" else config.separator
  let outputKey := if config.outputKey = "" then config.varName else config.outputKey
  { name := "concat_merge"
    merge := fun _ inputs =>
      match inputs with
      | [] => .ok (some .newEnvelope)
      | none :: _ => .panicked
      | some first :: rest =>
        let joined := separator.intercalate (concatValues sprint config.varName (some first :: rest))
        .ok (some ((rest.filterMap id).foldl appendFields (first.clone.setVar outputKey (.str joined)))) }

structure BestScoreMergeConfig where
  scoreVar : String
  higherIsBetter : Bool := false

def bestStep (config : BestScoreMergeConfig) (best : Option (Envelope × Rat)) (input : Option Envelope) :
    Option (Envelope × Rat) :=
  match input.bind fun input => ((input.getVar config.scoreVar).bind toFloat64).map fun score => (input, score) with
  | none => best
  | some (input, score) =>
    match best with
    | none => some (input, score)
    | some (bestEnv, bestScore) =>
      if (if config.higherIsBetter then bestScore < score else score < bestScore) then some (input, score)
      else some (bestEnv, bestScore)

def newBestScoreMergeStrategy (config : BestScoreMergeConfig) : MergeStrategy :=
  { name := "best_score_merge"
    merge := fun _ inputs =>
      match inputs.foldl (bestStep config) none with
      | some (bestEnv, _) => .ok (some bestEnv.clone)
      -- without a score the first envelope there is
      | none => .ok (some (((inputs.filterMap id).head?.map Envelope.clone).getD .newEnvelope)) }

def newFuncMergeStrategy (name : String) (fn : Option (Nat → List (Option Envelope) → MergeResult)) :
    MergeStrategy :=
  { name
    merge := fun t inputs =>
      match fn with
      | some fn => fn t inputs
      | none =>
        match inputs with
        | first :: _ => .ok (first.map Envelope.clone)
        | [] => .ok (some .newEnvelope) }

def BestScoreMergeConfig.score (config : BestScoreMergeConfig) (input : Option Envelope) : Option Rat :=
  input.bind fun input => (input.getVar config.scoreVar).bind toFloat64

def BestScoreMergeConfig.beats (config : BestScoreMergeConfig) (s s' : Rat) : Bool :=
  if config.higherIsBetter then s' < s else s < s'

/-- The input is the first one with the best score, for a way to read the scores. -/
def FirstBest (config : BestScoreMergeConfig) (scoreOf : Option Envelope → Option Rat)
    (inputs : List (Option Envelope)) (best : Envelope) (score : Rat) : Prop :=
  ∃ before after, inputs = before ++ some best :: after ∧ scoreOf (some best) = some score ∧
    (∀ input ∈ before, ∀ s ∈ scoreOf input, config.beats score s = true) ∧
    ∀ input ∈ after, ∀ s ∈ scoreOf input, config.beats s score = false

theorem FirstBest.unique {config : BestScoreMergeConfig} {scoreOf : Option Envelope → Option Rat}
    {inputs : List (Option Envelope)} {best best' : Envelope} {score score' : Rat}
    (hbest : FirstBest config scoreOf inputs best score) (hbest' : FirstBest config scoreOf inputs best' score') :
    best = best' := by
  obtain ⟨before, after, rfl, hscore, hbefore, hafter⟩ := hbest
  obtain ⟨before', after', hsplit, hscore', hbefore', hafter'⟩ := hbest'
  rcases append_eq_append_iff.mp hsplit with ⟨mid, rfl, hmid⟩ | ⟨mid, rfl, hmid⟩
  · cases mid with
    | nil => simpa using (cons.inj hmid).1
    | cons head mid =>
      -- the one stands before the other: it is strictly better and not better
      obtain ⟨rfl, rfl⟩ := cons.inj hmid
      have hless := hafter _ (mem_append_right _ mem_cons_self) _ hscore'
      have hmore := hbefore' _ (mem_append_right _ mem_cons_self) _ hscore
      rw [hless] at hmore
      cases hmore
  · cases mid with
    | nil => simpa using (cons.inj hmid).1.symm
    | cons head mid =>
      obtain ⟨rfl, rfl⟩ := cons.inj hmid
      have hless := hafter' _ (mem_append_right _ mem_cons_self) _ hscore
      have hmore := hbefore _ (mem_append_right _ mem_cons_self) _ hscore'
      rw [hless] at hmore
      cases hmore

theorem bestStep_eq (config : BestScoreMergeConfig) (best : Option (Envelope × Rat)) (env : Envelope) :
    bestStep config best (some env) = match config.score (some env), best with
      | none, best => best
      | some s, none => some (env, s)
      | some s, some (bestEnv, bestScore) =>
        if config.beats s bestScore then some (env, s) else some (bestEnv, bestScore) := by
  have hscore : config.score (some env) = (env.getVar config.scoreVar).bind toFloat64 := rfl
  simp only [bestStep, Option.bind_some, ← hscore]
  cases config.score (some env) with
  | none => rfl
  | some s => cases best <;> grind [BestScoreMergeConfig.beats]

theorem foldl_bestStep (config : BestScoreMergeConfig) (inputs : List (Option Envelope)) :
    match inputs.foldl (bestStep config) none with
    | none => ∀ input ∈ inputs, config.score input = none
    | some (best, score) => FirstBest config config.score inputs best score := by
  induction inputs using reverseRecOn with
  | nil => exact nofun
  | append_singleton inputs input ih =>
    have hkeep {best score} (hbest : FirstBest config config.score inputs best score)
        (hless : ∀ s ∈ config.score input, config.beats s score = false) :
        FirstBest config config.score (inputs ++ [input]) best score := by
      obtain ⟨before, after, rfl, hbest, hbefore, hafter⟩ := hbest
      exact ⟨before, after ++ [input], by simp, hbest, hbefore, by grind⟩
    rw [foldl_append, foldl_cons, foldl_nil]
    generalize inputs.foldl (bestStep config) none = best at ih ⊢
    cases input with
    | none =>
      cases best with
      | none => grind [bestStep, BestScoreMergeConfig.score]
      | some best => exact hkeep ih nofun
    | some env =>
      rw [bestStep_eq]
      cases hscore : config.score (some env) with
      | none =>
        cases best with
        | none => grind
        | some best => exact hkeep ih (by simp [hscore])
      | some s =>
        cases best with
        | none => exact ⟨inputs, [], rfl, hscore, by simp_all, nofun⟩
        | some best =>
          by_cases hbeats : config.beats s best.2
          · -- the new score beats the best one, and so all the scores before it
            simp only [hbeats, if_true]
            obtain ⟨before, after, rfl, hbest, hbefore, hafter⟩ := ih
            refine ⟨_, [], rfl, hscore, ?_, nofun⟩
            grind [BestScoreMergeConfig.beats]
          · simp only [hbeats]
            exact hkeep ih (by simp_all)

theorem bestScore_merge (config : BestScoreMergeConfig) (t : Nat) (inputs : List (Option Envelope)) :
    (∃ best score, FirstBest config config.score inputs best score ∧
      (newBestScoreMergeStrategy config).merge t inputs = .ok (some best.clone)) ∨
    (∀ input ∈ inputs, config.score input = none) ∧ (newBestScoreMergeStrategy config).merge t inputs =
      .ok (some (((inputs.filterMap id).head?.map Envelope.clone).getD .newEnvelope)) := by
  have hfold := foldl_bestStep config inputs
  simp only [newBestScoreMergeStrategy]
  split at hfold
  · next hnone =>
    rw [hnone]
    exact .inr ⟨hfold, rfl⟩
  · next best score hsome =>
    rw [hsome]
    exact .inl ⟨best, score, hfold, rfl⟩

/-- The number that an input has under the score variable, whatever its Go type. -/
def BestScoreMergeConfig.number (config : BestScoreMergeConfig) (input : Option Envelope) : Option Rat :=
  match input.bind (·.getVar config.scoreVar) with
  | some (.num _ n) => some n
  | _ => none

theorem BestScoreMergeConfig.number_of_score {config : BestScoreMergeConfig} {input : Option Envelope} {s : Rat}
    (hscore : config.score input = some s) : config.number input = some s := by
  cases input with
  | none => cases hscore
  | some env =>
    obtain ⟨v, hv, hnumber⟩ := Option.bind_eq_some_iff.mp
      (show (env.getVar config.scoreVar).bind toFloat64 = some s from hscore)
    rw [number, Option.bind_some, hv]
    cases v with
    | num type n => cases type <;> simp_all [toFloat64]
    | _ => cases hnumber

theorem FirstBest.of_number {config : BestScoreMergeConfig} {inputs : List (Option Envelope)} {best : Envelope}
    {s s' : Rat} (hbest : FirstBest config config.number inputs best s) (hscore : config.score (some best) = some s') :
    FirstBest config config.score inputs best s := by
  obtain ⟨before, after, hinputs, hnumber, hbefore, hafter⟩ := hbest
  obtain rfl : s' = s := Option.some.inj ((BestScoreMergeConfig.number_of_score hscore).symm.trans hnumber)
  exact ⟨before, after, hinputs, hscore,
    fun input hinput x hx => hbefore input hinput x (BestScoreMergeConfig.number_of_score hx),
    fun input hinput x hx => hafter input hinput x (BestScoreMergeConfig.number_of_score hx)⟩

/-- The merge is the first envelope with the best number as its score, or without such scores
the first envelope there is, exactly if the score of that first optimum has a type that
`toFloat64` knows (or no score has one, and the optimum is the first envelope there is). -/
theorem best_score_merge_first_optimum (config : BestScoreMergeConfig) (t : Nat) (inputs : List (Option Envelope)) :
    ((∃ best score, FirstBest config config.number inputs best score ∧
        (newBestScoreMergeStrategy config).merge t inputs = .ok (some best.clone)) ∨
      (∀ input ∈ inputs, config.number input = none) ∧ (newBestScoreMergeStrategy config).merge t inputs =
        .ok (some (((inputs.filterMap id).head?.map Envelope.clone).getD .newEnvelope))) ↔
    (∃ best score, FirstBest config config.number inputs best score ∧
      ((config.score (some best)).isSome = true ∨
        (∀ input ∈ inputs, config.score input = none) ∧ (inputs.filterMap id).head? = some best)) ∨
    ∀ input ∈ inputs, config.number input = none := by
  have hclone : ∀ e e' : Envelope, MergeResult.ok (some e.clone) = .ok (some e'.clone) → e = e' := by
    intro e e' h
    simpa [Envelope.clone] using h
  have hmerge := bestScore_merge config t inputs
  constructor
  · rintro (⟨best, score, hbest, hresult⟩ | ⟨hnone, -⟩)
    · refine .inl ⟨best, score, hbest, ?_⟩
      rcases hmerge with ⟨chosen, s, hchosen, hchoice⟩ | ⟨hunread, hchoice⟩
      · obtain rfl := hclone _ _ (hresult.symm.trans hchoice)
        obtain ⟨-, -, -, hscore, -⟩ := hchosen
        exact .inl (by simp [hscore])
      · refine .inr ⟨hunread, ?_⟩
        obtain ⟨before, after, rfl, -⟩ := hbest
        have hsome := hresult.symm.trans hchoice
        cases hhead : ((before ++ some best :: after).filterMap id).head? with
        | none => simp [filterMap_append] at hhead
        | some env =>
          rw [hhead] at hsome
          exact congrArg some (hclone _ _ hsome).symm
    · exact .inr hnone
  · rintro (⟨best, score, hbest, hread⟩ | hnone)
    · refine .inl ⟨best, score, hbest, ?_⟩
      rcases hmerge with ⟨chosen, s, hchosen, hchoice⟩ | ⟨hunread, hchoice⟩
      · rcases hread with hscore | ⟨hunread, -⟩
        · obtain ⟨s', hscore⟩ := Option.isSome_iff_exists.mp hscore
          rwa [(hbest.of_number hscore).unique hchosen]
        · obtain ⟨before, after, rfl, hscore, -⟩ := hchosen
          rw [hunread _ (mem_append_right _ mem_cons_self)] at hscore
          cases hscore
      · rcases hread with hscore | ⟨-, hhead⟩
        · obtain ⟨before, after, rfl, -⟩ := hbest
          rw [hunread _ (mem_append_right _ mem_cons_self)] at hscore
          cases hscore
        · rwa [hhead] at hchoice
    · refine .inr ⟨hnone, ?_⟩
      rcases hmerge with ⟨chosen, s, ⟨before, after, rfl, hscore, -⟩, -⟩ | ⟨-, hchoice⟩
      · have hnumber := BestScoreMergeConfig.number_of_score hscore
        rw [hnone _ (mem_append_right _ mem_cons_self)] at hnumber
        cases hnumber
      · exact hchoice

namespace scored

def envelope (name : String) (score : Value) : Option Envelope :=
  some ((Envelope.newEnvelope.setVar "name" (.str name)).setVar "score" score)

def inputs : List (Option Envelope) := [envelope "low" (.num .int 1), envelope "high" (.num .int32 5)]

end scored

/-- A score of type int32 is passed over, though it is the best one. -/
theorem best_score_passed_over :
    (∃ best, FirstBest ⟨"score", true⟩ (BestScoreMergeConfig.number ⟨"score", true⟩) scored.inputs best 5 ∧
      best.getVar "name" = some (.str "high")) ∧
    ∃ merged, (newBestScoreMergeStrategy ⟨"score", true⟩).merge 0 scored.inputs = .ok (some merged) ∧
      merged.getVar "name" = some (.str "low") :=
  ⟨⟨_, ⟨[scored.envelope "low" (.num .int 1)], [], rfl, rfl, by decide +kernel, nofun⟩, rfl⟩, _, rfl, rfl⟩

def MergeStrategy.Deterministic (strategy : MergeStrategy) : Prop :=
  ∀ t inputs, strategy.merge t inputs = strategy.merge 0 inputs

theorem newJSONMergeStrategy_deterministic (config : JSONMergeConfig) : (newJSONMergeStrategy config).Deterministic :=
  fun _ _ => rfl

def MergeStrategy.KeepsErrorFree (strategy : MergeStrategy) : Prop :=
  ∀ t inputs merged, (∀ input, some input ∈ inputs → input.errors = []) →
    strategy.merge t inputs = .ok (some merged) → merged.errors = []

variable {policy : ConflictPolicy} {merged : Envelope}

theorem mergeInto_errors {deepMerge : Bool} {dest : Envelope} {src : Vars}
    (hmerge : mergeInto policy deepMerge dest src = .ok (some merged)) : merged.errors = dest.errors := by
  unfold mergeInto at hmerge
  grind

theorem mergeRest_errors {config : JSONMergeConfig} {result : Option Envelope} {inputs : List (Option Envelope)}
    (hresult : ∀ dest ∈ result, dest.errors = []) (hinputs : ∀ input, some input ∈ inputs → input.errors = [])
    (hmerge : mergeRest policy config result inputs = .ok (some merged)) : merged.errors = [] := by
  induction inputs generalizing result with
  | nil => grind [mergeRest]
  | cons input rest ih =>
    have hrest : ∀ input, some input ∈ rest → input.errors = [] :=
      fun input hmem => hinputs input (mem_cons_of_mem _ hmem)
    unfold mergeRest at hmerge
    split at hmerge
    · exact ih hresult hrest hmerge
    · next input' src hinput =>
      have hsome : input = some input' := by
        cases input with
        | none => cases hinput
        | some input => simp_all
      split at hmerge
      · cases hmerge
      · next dest =>
        split at hmerge
        · grind [mergeInto_errors, appendFields]
        · simp_all

theorem newJSONMergeStrategy_keepsErrorFree (config : JSONMergeConfig) :
    (newJSONMergeStrategy config).KeepsErrorFree := by
  intro t inputs merged hinputs hmerge
  cases inputs with
  | nil =>
    cases hmerge
    rfl
  | cons first rest =>
    refine mergeRest_errors ?_ (fun input hmem => hinputs input (mem_cons_of_mem _ hmem)) hmerge
    simp_all

structure MergeNodeConfig where
  strategy : Option MergeStrategy := none
  expectedInputs : Int := 0

/-- Combines several envelopes by the strategy; a single one is handed through. -/
def MergeNodeConfig.mergeInputs (config : MergeNodeConfig) (t : Nat) (inputs : List (Option Envelope)) :
    MergeResult :=
  let strategy := config.strategy.getD (newJSONMergeStrategy {})
  match inputs with
  | [] => .ok (some .newEnvelope)
  | [input] => .ok input
  | _ =>
    match strategy.merge t inputs with
    | .failed message => .failed s!"merge strategy {strategy.name.quote} failed: {message}"
    | r => r

/-- What the runtime makes of a merge. The worker that is given a nil envelope
dereferences it. -/
def MergeResult.outcome : MergeResult → MergeOutcome
  | ok (some envelope) => .merged envelope
  | ok none => .panicked
  | failed message => .failed message
  | panicked => .panicked

theorem MergeResult.eq_of_outcome {r : MergeResult} (hmerged : r.outcome = .merged merged) :
    r = .ok (some merged) := by
  unfold outcome at hmerged
  split at hmerged <;> cases hmerged
  rfl

/-- A merge node. When it is run it passes on what was merged before. -/
def newMergeNode (id : String) (config : MergeNodeConfig) : Node :=
  { id
    kind := .merge
    run := fun _ env => .ok (some env)
    mergeCapable := some
      { expectedInputs := config.expectedInputs
        mergeInputs := some fun t inputs => (config.mergeInputs t (inputs.map some)).outcome } }

theorem newMergeNode_deterministic (id : String) (config : MergeNodeConfig)
    (hstrategy : ∀ strategy ∈ config.strategy, strategy.Deterministic) : (newMergeNode id config).Deterministic := by
  have hmerge : (config.strategy.getD (newJSONMergeStrategy {})).Deterministic := by
    cases hsome : config.strategy with
    | none => exact newJSONMergeStrategy_deterministic {}
    | some strategy => exact hstrategy strategy hsome
  refine ⟨fun _ _ => rfl, ?_⟩
  rintro merge ⟨⟩ merger ⟨⟩ t inputs
  have hinputs : ∀ inputs, config.mergeInputs t inputs = config.mergeInputs 0 inputs := by
    intro inputs
    unfold MergeNodeConfig.mergeInputs
    split
    · rfl
    · rfl
    · simp only [hmerge t]
  exact congrArg MergeResult.outcome (hinputs (inputs.map some))

/-- The strategy writes into no map that is nested in an input: it is one of the others than a deep merge. -/
inductive MergeStrategy.LeavesInputs : MergeStrategy → Prop where
  | json (config : JSONMergeConfig) (hdeep : config.deepMerge = false ∨ config.conflictPolicy.getD .last ≠ .last) :
    LeavesInputs (newJSONMergeStrategy config)
  | concat (sprint : Value → String) (config : ConcatMergeConfig) :
    LeavesInputs (newConcatMergeStrategy sprint config)
  | bestScore (config : BestScoreMergeConfig) : LeavesInputs (newBestScoreMergeStrategy config)

theorem MergeStrategy.LeavesInputs.deterministic {strategy : MergeStrategy} (hleaves : strategy.LeavesInputs) :
    strategy.Deterministic := by
  cases hleaves <;> exact fun _ _ => rfl

theorem newMergeNode_keepsErrors (id : String) (config : MergeNodeConfig)
    (hstrategy : ∀ strategy ∈ config.strategy, strategy.KeepsErrorFree) : (newMergeNode id config).KeepsErrors := by
  have hkeeps : (config.strategy.getD (newJSONMergeStrategy {})).KeepsErrorFree := by
    cases hsome : config.strategy with
    | none => exact newJSONMergeStrategy_keepsErrorFree {}
    | some strategy => exact hstrategy strategy hsome
  refine ⟨?_, nofun, ?_⟩
  · rintro t env result ⟨⟩
    exact ⟨env, rfl, rfl⟩
  rintro merge ⟨⟩ merger ⟨⟩ t inputs merged hinputs hmerge
  have hmerged := MergeResult.eq_of_outcome hmerge
  unfold MergeNodeConfig.mergeInputs at hmerged
  split at hmerged
  · cases hmerged
    rfl
  · simp_all
  · grind [petalflow.nodes.MergeStrategy.KeepsErrorFree]

end petalflow.nodes
