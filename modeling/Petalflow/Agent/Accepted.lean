import Petalflow.Agent.Compile
import Petalflow.Lib.Network

open dict petalflow.graph petalflow.registry List network

namespace petalflow.agent

/-! The graph that a workflow stands for, as a network: a chain of nodes for
each task, and links for the order that the workflow asks for. -/

inductive Part where
  | task (id : String)
  | cond (dep task : String)
  | merge
  | manager
deriving DecidableEq, Repr

namespace AgentWorkflow

variable (wf : AgentWorkflow)

def references (taskID : String) : List String :=
  match wf.tasks.get? taskID with
  | none => []
  | some task => task.inputs.entries.flatMap (fun e => compileExtractTaskRefs e.2) ++ task.context

def dependsOn (taskID : String) : List String :=
  match wf.dependencies.get? taskID with
  | none => []
  | some deps => deps.dependsOn

def condition (taskID : String) : String :=
  match wf.dependencies.get? taskID with
  | none => ""
  | some deps => deps.condition

def isDefinedPair (pair : String × String) : Bool := pair.1 ∈ wf.tasks.keys && pair.2 ∈ wf.tasks.keys

def referencePairs : List (String × String) :=
  (sortedKeys wf.tasks).flatMap fun taskID =>
    ((wf.references taskID).filter (· ∈ wf.tasks.keys)).map fun ref => (ref, taskID)

def orderPairs : List (String × String) := wf.execution.taskOrder.consecutivePairs.filter wf.isDefinedPair

def dependencyPairs : List (String × String) :=
  (sortedKeys wf.dependencies).flatMap fun taskID =>
    ((wf.dependsOn taskID).map fun dep => (dep, taskID)).filter wf.isDefinedPair

def precedence : List (String × String) :=
  wf.referencePairs ++ match wf.strategy? with
    | some .sequential => wf.orderPairs
    | some .custom => wf.dependencyPairs
    | _ => []

def conditionalPairs : List (String × String) :=
  wf.dependencyPairs.filter fun pair => wf.condition pair.2 ≠ ""

variable {a b : String}

theorem mem_referencePairs :
    (a, b) ∈ wf.referencePairs ↔ b ∈ wf.tasks.keys ∧ a ∈ wf.references b ∧ a ∈ wf.tasks.keys := by
  simp [referencePairs]

theorem mem_orderPairs : (a, b) ∈ wf.orderPairs ↔
      (a, b) ∈ wf.execution.taskOrder.consecutivePairs ∧ a ∈ wf.tasks.keys ∧ b ∈ wf.tasks.keys := by
  simp [orderPairs, isDefinedPair]

theorem mem_dependencyPairs :
    (a, b) ∈ wf.dependencyPairs ↔ a ∈ wf.dependsOn b ∧ a ∈ wf.tasks.keys ∧ b ∈ wf.tasks.keys := by
  simp only [dependencyPairs, mem_flatMap, mem_sortedKeys, mem_filter, mem_map, Prod.mk.injEq,
    isDefinedPair, Bool.and_eq_true, decide_eq_true_eq]
  grind [Dict.mem_keys_iff, dependsOn]

end AgentWorkflow

variable (reg : Registry) (wf : AgentWorkflow)

def standaloneTools (tools : List String) : List String :=
  (tools.map text.trimSpace).filter fun toolRef => resolveToolMode reg toolRef = "standalone"

/-- What the nodes of a task are called after the task's id: the tools, the
agent, and the review. -/
def taskNames (taskID : String) : List String :=
  match wf.tasks.get? taskID with
  | none => [""]
  | some task =>
    let tools :=
      match wf.agents.get? task.agent with
      | none => []
      | some ag => standaloneTools reg ag.tools
    let review := if task.review = "human" then [task.agent ++ "__hitl"] else []
    tools ++ task.agent :: review

def partChain : Part → List String
  | .task id => (taskNames reg wf id).map fun name => id ++ "__" ++ name
  | .cond dep task => [dep ++ "__cond__" ++ task]
  | .merge => [wf.id ++ "__merge"]
  | .manager => [wf.id ++ "__manager__" ++ wf.execution.managerAgent]

theorem partChain_ne_nil (part : Part) : partChain reg wf part ≠ [] := by
  cases part with
  | task id =>
    simp only [partChain, ne_eq, map_eq_nil_iff]
    unfold taskNames
    split
    · exact cons_ne_nil _ _
    · exact append_ne_nil_of_right_ne_nil _ (cons_ne_nil _ _)
  | _ => exact cons_ne_nil _ _

def extraParts : List Part :=
  match wf.strategy? with
  | some .parallel => [.merge]
  | some .hierarchical => [.manager]
  | some .custom => (wf.conditionalPairs.map fun pair => Part.cond pair.1 pair.2).dedup
  | _ => []

def dependencyLinks (pair : String × String) : List (Part × Part) :=
  if wf.condition pair.2 = "" then [(.task pair.1, .task pair.2)]
  else [(.task pair.1, .cond pair.1 pair.2), (.cond pair.1 pair.2, .task pair.2)]

def strategyLinks : List (Part × Part) :=
  match wf.strategy? with
  | some .sequential => wf.orderPairs.map fun pair => (.task pair.1, .task pair.2)
  | some .parallel => (sortedKeys wf.tasks).map fun taskID => (.task taskID, .merge)
  | some .hierarchical =>
    (sortedKeys wf.tasks).flatMap fun taskID => [(.manager, .task taskID), (.task taskID, .manager)]
  | some .custom => wf.dependencyPairs.flatMap (dependencyLinks wf)
  | none => []

def planUnits : List Part := (sortedKeys wf.tasks).map .task ++ extraParts wf

def planLinks : List (Part × Part) :=
  (wf.referencePairs.map fun pair => (.task pair.1, .task pair.2)) ++ strategyLinks wf

variable {wf} {id : String}

theorem task_mem_planUnits (hid : id ∈ wf.tasks.keys) : .task id ∈ planUnits wf :=
  mem_append_left _ (mem_map_of_mem (mem_sortedKeys.mpr hid))

theorem mem_keys_of_task_mem_planUnits (hmem : .task id ∈ planUnits wf) : id ∈ wf.tasks.keys := by
  rcases mem_append.mp hmem with htask | hextra
  · simp_all
  · unfold extraParts at hextra
    split at hextra
    · simp at hextra
    · simp at hextra
    · simp at hextra
    · cases hextra

theorem cond_mem_planUnits (hcustom : wf.strategy? = some .custom) {a b : String}
    (hpair : (a, b) ∈ wf.dependencyPairs) (hcond : wf.condition b ≠ "") : .cond a b ∈ planUnits wf := by
  refine mem_append_right _ ?_
  simp only [extraParts, hcustom, mem_dedup]
  exact mem_map.mpr ⟨(a, b), mem_filter.mpr ⟨hpair, by simpa using hcond⟩, rfl⟩

variable {l : Part × Part}

theorem strategyLinks_units (hl : l ∈ strategyLinks wf) : l.1 ∈ planUnits wf ∧ l.2 ∈ planUnits wf := by
  unfold strategyLinks at hl
  split at hl
  · obtain ⟨⟨a, b⟩, hpair, rfl⟩ := mem_map.mp hl
    obtain ⟨_, ha, hb⟩ := wf.mem_orderPairs.mp hpair
    exact ⟨task_mem_planUnits ha, task_mem_planUnits hb⟩
  · grind [planUnits, extraParts]
  · next hhierarchical =>
    obtain ⟨id, hid, hlink⟩ := mem_flatMap.mp hl
    have htask := task_mem_planUnits (mem_sortedKeys.mp hid)
    have hmanager : Part.manager ∈ planUnits wf := mem_append_right _ (by simp [extraParts, hhierarchical])
    simp only [mem_cons, not_mem_nil, or_false] at hlink
    rcases hlink with rfl | rfl
    · exact ⟨hmanager, htask⟩
    · exact ⟨htask, hmanager⟩
  · next hcustom =>
    obtain ⟨⟨a, b⟩, hpair, hlink⟩ := mem_flatMap.mp hl
    obtain ⟨_, ha, hb⟩ := wf.mem_dependencyPairs.mp hpair
    unfold dependencyLinks at hlink
    split at hlink
    · grind [task_mem_planUnits]
    · next hcond =>
      have hpart := cond_mem_planUnits hcustom hpair hcond
      simp only [mem_cons, not_mem_nil, or_false] at hlink
      grind [task_mem_planUnits]
  · cases hl

theorem planLinks_units (hl : l ∈ planLinks wf) : l.1 ∈ planUnits wf ∧ l.2 ∈ planUnits wf := by
  rcases mem_append.mp hl with href | hstrategy
  · grind [task_mem_planUnits, planUnits, AgentWorkflow.referencePairs]
  · exact strategyLinks_units hstrategy

variable (wf)

def plan : Network Part String where
  units := planUnits wf
  chain := partChain reg wf
  chain_ne_nil := partChain_ne_nil reg wf
  links := planLinks wf
  links_units := fun _ => planLinks_units

def startNode (taskID : String) : String := (plan reg wf).first (.task taskID)

def outputNode (taskID : String) : String := (plan reg wf).last (.task taskID)

open AgentWorkflow

variable {reg : Registry} {exprValidator : Option ExprValidator} {wf : AgentWorkflow}

variable {α : Type} {items : List α}

@[simp] theorem hasErrors_append (left right : List Diagnostic) :
    hasErrors (left ++ right) = (hasErrors left || hasErrors right) :=
  any_append

@[simp] theorem hasErrors_errDiag (code : Code) (message path : String) (rest : List Diagnostic) :
    hasErrors (errDiag code message path :: rest) = true :=
  rfl

theorem hasErrors_flatMap {find : α → List Diagnostic} :
    hasErrors (items.flatMap find) = false ↔ ∀ a ∈ items, hasErrors (find a) = false := by
  simp [hasErrors]

theorem forall_of_filterMap {p : α → Prop} [DecidablePred p] {code : Code} {message path : α → String}
    (hok : hasErrors (items.filterMap fun a =>
      if p a then none else some (errDiag code (message a) (path a))) = false) :
    ∀ a ∈ items, p a := by
  intro a ha
  by_contra hnot
  have hmem : errDiag code (message a) (path a) ∈
      items.filterMap fun a => if p a then none else some (errDiag code (message a) (path a)) :=
    mem_filterMap.mpr ⟨a, ha, if_neg hnot⟩
  have herror := any_eq_false.mp hok _ hmem
  exact herror rfl

structure Accepted (wf : AgentWorkflow) : Prop where
  taskIDs : ∀ id ∈ wf.tasks.keys, isValidID id = true
  agentIDs : ∀ id ∈ wf.agents.keys, isValidID id = true
  agents : ∀ e ∈ wf.tasks.entries, e.2.agent ∈ wf.agents.keys
  references : ∀ id, ∀ ref ∈ wf.references id, ref ∈ wf.tasks.keys
  strategy : wf.strategy? ≠ none
  order : wf.strategy? = some .sequential → wf.execution.taskOrder ≠ [] ∧
    (∀ id ∈ wf.execution.taskOrder, id ∈ wf.tasks.keys) ∧ ∀ id ∈ wf.tasks.keys, id ∈ wf.execution.taskOrder
  dependencies : wf.strategy? = some .custom → ∀ id, ∀ dep ∈ wf.dependsOn id, dep ∈ wf.tasks.keys
  sorted : wf.strategy? = some .custom → ∀ tasks, wf.execution.tasks = some tasks →
    wf.tasks.keys.length ≤ (kahn.run wf.tasks.keys (dependencyEdges wf tasks)).visited
  executed : wf.strategy? = some .custom → wf.execution.tasks = none → wf.tasks.keys = []

theorem validateIDs_ok {what field : String} {ids : List String}
    (hok : hasErrors (validateIDs what field ids) = false) : ∀ id ∈ ids, isValidID id = true :=
  forall_of_filterMap hok

theorem validateTasks_ok (hok : hasErrors (validateTasks wf) = false) :
    (∀ e ∈ wf.tasks.entries, e.2.agent ∈ wf.agents.keys) ∧
      ∀ id, ∀ ref ∈ wf.references id, ref ∈ wf.tasks.keys := by
  rw [validateTasks, hasErrors_flatMap] at hok
  simp only [hasErrors_append, Bool.or_eq_false_iff] at hok
  constructor
  · intro e he
    obtain ⟨⟨⟨hrequired, hagent⟩, _⟩, _⟩ := hok e he
    have hne : e.2.agent ≠ "" := by
      intro hempty
      simp [validateTaskRequiredFields, validateRequired, hempty] at hrequired
    by_contra hnot
    simp [validateTaskAgentReference, hne, hnot] at hagent
  · intro id ref href
    unfold references at href
    split at href
    · cases href
    · next task htask =>
      obtain ⟨⟨_, hinputs⟩, hcontext⟩ := hok _ (Dict.get?_eq_some_iff.mp htask)
      rcases mem_append.mp href with hinput | hctx
      · obtain ⟨e, he, hmem⟩ := mem_flatMap.mp hinput
        rw [validateTaskInputReferences, hasErrors_flatMap] at hinputs
        exact forall_of_filterMap (hinputs e he) ref hmem
      · obtain ⟨i, hi⟩ := mem_iff_getElem?.mp hctx
        have hall := forall_of_filterMap (p := fun a : String × Nat => a.1 ∈ wf.tasks.keys) hcontext
        exact hall (ref, i) (mk_mem_zipIdx_iff_getElem?.mpr hi)

theorem validateExecutionStrategy_ok (hok : hasErrors (validateExecutionStrategy wf) = false) :
    wf.strategy? ≠ none := by
  intro hnone
  have hinvalid : (Strategy.ofName? wf.execution.strategy).isNone = true := by
    rw [← strategy?, hnone]
    rfl
  simp only [validateExecutionStrategy, hinvalid, if_true] at hok
  split at hok
  · cases hok
  · cases hok

theorem validateSequential_ok (hok : hasErrors (validateSequential wf) = false) :
    wf.execution.taskOrder ≠ [] ∧ (∀ id ∈ wf.execution.taskOrder, id ∈ wf.tasks.keys) ∧
      ∀ id ∈ wf.tasks.keys, id ∈ wf.execution.taskOrder := by
  simp only [validateSequential] at hok
  split at hok
  · cases hok
  · next hne =>
    rw [hasErrors_append, Bool.or_eq_false_iff] at hok
    exact ⟨hne, forall_of_filterMap hok.1, forall_of_filterMap hok.2⟩

variable {tasks : Dict String TaskDependencies}

theorem validateCustom_ok (htasks : wf.execution.tasks = some tasks)
    (hok : hasErrors (validateCustom wf exprValidator) = false) :
    (∀ id, ∀ dep ∈ wf.dependsOn id, dep ∈ wf.tasks.keys) ∧
      wf.tasks.keys.length ≤ (kahn.run wf.tasks.keys (dependencyEdges wf tasks)).visited := by
  simp only [validateCustom, htasks, hasErrors_append, Bool.or_eq_false_iff] at hok
  obtain ⟨⟨hresolved, hcycle⟩, _⟩ := hok
  constructor
  · intro id dep hdep
    unfold dependsOn at hdep
    split at hdep
    · cases hdep
    · next deps hdeps =>
      have hentry : (id, deps) ∈ tasks.entries := by
        rw [← Dict.get?_eq_some_iff]
        simpa [dependencies, htasks] using hdeps
      exact forall_of_filterMap (hasErrors_flatMap.mp hresolved _ hentry) dep hdep
  · by_contra hless
    simp_all

theorem mem_dependencyEdges (htasks : wf.execution.tasks = some tasks) {dep : String} :
    (dep, id) ∈ dependencyEdges wf tasks ↔ id ∈ tasks.keys ∧ dep ∈ wf.tasks.keys ∧ dep ∈ wf.dependsOn id := by
  have hdeps : wf.dependencies = tasks := by rw [dependencies, htasks]; rfl
  simp only [dependencyEdges, mem_flatMap, mem_map, mem_filter, decide_eq_true_eq, Prod.mk.injEq]
  constructor
  · rintro ⟨⟨id, deps⟩, hentry, dep, ⟨hdep, hdefined⟩, rfl, rfl⟩
    have hget := Dict.get?_eq_some_iff.mpr hentry
    exact ⟨Dict.mem_keys_of_mem hentry, hdefined, by simpa only [dependsOn, hdeps, hget] using hdep⟩
  · grind [dependsOn, Dict.get?_eq_some_iff]

theorem validateOrphanTasks_ok (hcustom : wf.strategy? = some .custom) (htasks : wf.execution.tasks = none)
    (hok : hasErrors (validateOrphanTasks wf) = false) : wf.tasks.keys = [] := by
  simp only [validateOrphanTasks, hcustom, htasks, if_true] at hok
  cases hkeys : wf.tasks.keys with
  | nil => rfl
  | cons id rest =>
    rw [hkeys] at hok
    cases hok

theorem accepted_of_validate (hok : hasErrors (validate reg exprValidator (some wf)) = false) : Accepted wf := by
  simp only [validate, hasErrors_append, Bool.or_eq_false_iff, validateIDFormats] at hok
  obtain ⟨⟨⟨⟨⟨⟨_, hagentIDs, htaskIDs⟩, _⟩, htasks⟩, hname⟩, hstrategy⟩, horphans⟩ := hok
  obtain ⟨hagents, hreferences⟩ := validateTasks_ok htasks
  have hcustomOk : wf.strategy? = some .custom → hasErrors (validateCustom wf exprValidator) = false := by
    intro hcustom
    simpa only [validateStrategy, hcustom] using hstrategy
  refine ⟨validateIDs_ok htaskIDs, validateIDs_ok hagentIDs, hagents, hreferences,
    validateExecutionStrategy_ok hname, ?_, ?_, ?_, ?_⟩
  · grind [validateStrategy, validateSequential_ok]
  · intro hcustom id dep hdep
    cases hsome : wf.execution.tasks with
    | none => simp [dependsOn, dependencies, hsome, Dict.empty, Dict.get?] at hdep
    | some tasks => exact (validateCustom_ok hsome (hcustomOk hcustom)).1 id dep hdep
  · grind [validateCustom_ok]
  · exact fun hcustom hnone => validateOrphanTasks_ok hcustom hnone horphans

end petalflow.agent
