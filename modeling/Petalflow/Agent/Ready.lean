import Petalflow.Agent.Definitions

open dict network fold petalflow.core petalflow.graph petalflow.registry List text

namespace petalflow.agent

open GraphDefinition AgentWorkflow

/-! Workflows whose compiled graphs are valid. -/

/-- Whether nodes of a type may stand in a graph and have the port `output`. -/
def hasOutput (reg : Registry) (type : String) : Bool :=
  (reg.get type).any fun typeDef => ¬ (typeDef.isTool ∧ typeDef.toolMode = "function_call") ∧
    GraphDefinition.hasPortName typeDef.ports.outputs "output"

theorem hasOutput_eq_true {reg : Registry} {type : String} (houtput : hasOutput reg type = true) :
    ∃ typeDef, reg.get type = some typeDef ∧ ¬ (typeDef.isTool ∧ typeDef.toolMode = "function_call") ∧
      hasPortName typeDef.ports.outputs "output" = true := by
  obtain ⟨typeDef, hget, hgood⟩ := Option.any_eq_true _ _ |>.mp houtput
  exact ⟨typeDef, hget, of_decide_eq_true hgood⟩

/-- Ids that stay apart, an order without a cycle, tools with the port `output`,
and conditions that do not refer to tasks. -/
structure GraphReady (reg : Registry) (wf : AgentWorkflow) : Prop where
  ids : JoinedApart reg wf
  strategy : wf.strategy? ≠ some .hierarchical
  order : dag.Acyclic fun a b => (a, b) ∈ wf.precedence
  builtins : ∀ type ∈ ["llm_prompt", "human", "merge", "conditional"], hasOutput reg type = true
  tools : ∀ e ∈ wf.agents.entries, ∀ toolID ∈ e.2.tools, resolveToolMode reg (text.trimSpace toolID) = "standalone" →
    hasOutput reg (text.trimSpace toolID) = true ∧ text.trimSpace toolID ∉ ["conditional", "webhook_trigger"]
  conditions : ∀ id ∈ wf.tasks.keys, text.contains (wf.condition id) "tasks." = false

variable {reg : Registry} {wf : AgentWorkflow} {now : String} {gd : GraphDefinition} {d d' : Draft}

/-- The nodes of tasks: tools, prompts and reviews. -/
inductive TaskNode (reg : Registry) (wf : AgentWorkflow) (nd : NodeDef) : Prop where
  | tool (e : String × Agent) (he : e ∈ wf.agents.entries) (toolID : String) (htool : toolID ∈ e.2.tools)
      (hmode : resolveToolMode reg (text.trimSpace toolID) = "standalone") (htype : nd.type = text.trimSpace toolID)
  | prompt (htype : nd.type = "llm_prompt")
  | review (htype : nd.type = "human")

def OfTasks (reg : Registry) (wf : AgentWorkflow) (d : Draft) : Prop := ∀ nd ∈ d.gd.nodes, TaskNode reg wf nd

theorem OfTasks.addNode (hd : OfTasks reg wf d) (nd : NodeDef) (hnd : TaskNode reg wf nd) :
    OfTasks reg wf (d.addNode nd) := by
  grind [OfTasks, Draft.addNode]

variable {e : String × Agent}

theorem compileTaskTools_ofTasks (hd : OfTasks reg wf d) (taskID : String) (he : e ∈ wf.agents.entries) :
    OfTasks reg wf (compileTaskTools reg d taskID e.2).draft := by
  refine foldl_induction (P := fun _ (pass : ToolPass) => OfTasks reg wf pass.draft) ?_ hd
  intro _ pass toolID htool hpass
  unfold compileTaskTool
  dsimp only
  split
  · exact hpass
  · split
    · next hmode =>
      have hadded := hpass.addNode ⟨taskID ++ "__" ++ trimSpace toolID, trimSpace toolID,
        buildStandaloneToolNodeConfig reg (trimSpace toolID) e.2⟩ (.tool e he toolID htool hmode rfl)
      split <;> exact hadded
    · exact hpass

theorem compileTaskNode_ofTasks (hd : OfTasks reg wf d) (taskID : String) (task : Task) (he : e ∈ wf.agents.entries) :
    OfTasks reg wf (compileTaskNode reg d taskID task e.2) := by
  have htools : ∀ d, OfTasks reg wf d → OfTasks reg wf (compileTaskTools reg d taskID e.2).draft :=
    fun d hd => compileTaskTools_ofTasks hd taskID he
  have hprompt : OfTasks reg wf (compileTaskPrompt reg d taskID task e.2) := by
    unfold compileTaskPrompt
    dsimp only
    refine OfTasks.addNode ?_ _ (.prompt rfl)
    split
    · exact htools _ hd
    · exact htools _ hd
  unfold compileTaskNode appendTaskHumanReviewNode
  dsimp only
  split
  · exact hprompt.addNode (reviewDef taskID task) (.review rfl)
  · exact hprompt

variable {taskIDs : List String}

theorem compileTaskNodes_ofTasks
    (hcompile : compileTaskNodes reg wf taskIDs (emptyDraft now wf) = .ok d) : OfTasks reg wf d := by
  have hempty : OfTasks reg wf (emptyDraft now wf) := fun _ hnd => absurd hnd not_mem_nil
  refine foldlM_induction (P := fun _ (d : Draft) => OfTasks reg wf d) ?_ hempty hcompile
  intro _ d₁ taskID _ d₂ hd hpass
  split at hpass
  · cases hpass
    exact hd
  · next task _ =>
    split at hpass
    · cases hpass
    · next ag hag =>
      cases hpass
      exact compileTaskNode_ofTasks hd taskID task (e := (task.agent, ag)) (Dict.get?_eq_some_iff.mp hag)

/-- An edge that leaves its node by the port `output`, or a conditional node by the
port of its condition. -/
def LeavesByPort (wf : AgentWorkflow) (e : EdgeDef) : Prop :=
  e.sourceHandle = "output" ∨
    ∃ dep taskID, (dep, taskID) ∈ wf.dependencyPairs ∧ wf.condition taskID ≠ "" ∧
      wf.strategy? = some .custom ∧ e.source = dep ++ "__cond__" ++ taskID

structure Ported (wf : AgentWorkflow) (d : Draft) : Prop where
  kind : d.gd.kind = schemafmt.WorkflowKind.graph.name
  schemaVersion : d.gd.schemaVersion = schemafmt.currentGraphSchemaVersion
  edges : ∀ e ∈ d.gd.edges, LeavesByPort wf e

variable (hd : Ported wf d)
include hd

theorem Ported.addEdge {source sourceHandle target targetHandle : String}
    (he : LeavesByPort wf ⟨source, sourceHandle, target, targetHandle⟩) :
    Ported wf (d.addEdge source sourceHandle target targetHandle) := by
  refine ⟨hd.kind, hd.schemaVersion, ?_⟩
  intro e hmem
  rcases mem_append.mp hmem with hold | hnew
  · exact hd.edges e hold
  simp_all

theorem Ported.addOutput (source target targetHandle : String) :
    Ported wf (d.addEdge source "output" target targetHandle) :=
  hd.addEdge (.inl rfl)

theorem Ported.addNode (nd : NodeDef) : Ported wf (d.addNode nd) := { hd with }

theorem Ported.setEntry (nodeID : String) : Ported wf (d.setEntry nodeID) := { hd with }

theorem compileTaskTools_ported (taskID : String) (ag : Agent) :
    Ported wf (compileTaskTools reg d taskID ag).draft := by
  refine foldl_induction (P := fun _ (pass : ToolPass) => Ported wf pass.draft) ?_ hd
  intro _ pass toolID _ hpass
  have hset : ∀ {d : Draft}, Ported wf d → ∀ nodeID, Ported wf (d.setStart taskID nodeID) :=
    fun hd _ => { hd with }
  unfold compileTaskTool
  dsimp only
  split
  · exact hpass
  · split
    · refine hset ?_ _
      split
      · exact hpass.addNode _
      · exact (hpass.addNode _).addOutput _ _ _
    · exact hpass

theorem compileTaskNode_ported (taskID : String) (task : Task) (ag : Agent) :
    Ported wf (compileTaskNode reg d taskID task ag) := by
  have htools : ∀ d, Ported wf d → Ported wf (compileTaskTools reg d taskID ag).draft :=
    fun d hd => compileTaskTools_ported hd taskID ag
  have hprompt : Ported wf (compileTaskPrompt reg d taskID task ag) := by
    unfold compileTaskPrompt
    dsimp only
    refine Ported.addNode ?_ _
    split
    · exact htools _ { hd with }
    · refine Ported.addOutput (htools _ ?_) _ _ _
      exact { hd with }
  unfold compileTaskNode appendTaskHumanReviewNode
  dsimp only
  split
  · have hreview := (hprompt.addNode (reviewDef taskID task)).addOutput (taskID ++ "__" ++ task.agent)
      (taskID ++ "__" ++ task.agent ++ "__hitl") "input"
    exact { hreview with }
  · exact hprompt

omit hd

theorem compileTaskNodes_ported
    (hcompile : compileTaskNodes reg wf taskIDs (emptyDraft now wf) = .ok d) : Ported wf d := by
  have hempty : Ported wf (emptyDraft now wf) := ⟨rfl, rfl, fun _ he => absurd he not_mem_nil⟩
  refine foldlM_induction (P := fun _ (d : Draft) => Ported wf d) ?_ hempty hcompile
  grind [compileTaskNode_ported]

theorem wireTaskReferenceEdges_ported (hd : Ported wf d) (taskIDs : List String) :
    Ported wf (wireTaskReferenceEdges wf taskIDs d) := by
  have hrefs : ∀ dst targetHandle (refs : List String) (d : Draft), Ported wf d →
      Ported wf (refs.foldl (wireReference dst targetHandle) d) := by
    intro dst targetHandle refs d hd
    refine foldl_induction (P := fun _ (d : Draft) => Ported wf d) ?_ hd
    intro _ d₁ ref _ hd₁
    unfold wireReference
    split
    · exact hd₁.addOutput _ _ _
    · exact hd₁
  refine foldl_induction (P := fun _ (d : Draft) => Ported wf d) ?_ hd
  intro _ d₁ taskID _ hd₁
  unfold wireTaskReferences
  split
  · exact hd₁
  · refine hrefs _ _ _ _ ?_
    refine foldl_induction (P := fun _ (d : Draft) => Ported wf d) ?_ hd₁
    exact fun _ d₂ _ _ hd₂ => hrefs _ _ _ _ hd₂

theorem chainTasks_ported {order : List String} (hd : Ported wf d) (hchain : chainTasks order d = .ok d') :
    Ported wf d' := by
  induction order generalizing d with
  | nil =>
    cases hchain
    exact hd
  | cons first rest ih =>
    cases rest with
    | nil =>
      cases hchain
      exact hd
    | cons second rest =>
      unfold chainTasks at hchain
      split at hchain
      · cases hchain
      · cases hchain
      · exact ih (hd.addOutput _ _ _) hchain

variable {nodes : List NodeDef}

theorem wireDependencies_ported {tasks : Dict String TaskDependencies} (htasks : wf.execution.tasks = some tasks)
    (hcustom : wf.strategy? = some .custom) (taskID : String) (hd : Ported wf d)
    (hadds : AddsConditions reg wf nodes d) : Ported wf (wireDependencies tasks d taskID) := by
  have hdependencies : wf.dependencies = tasks := by rw [dependencies, htasks]; rfl
  unfold wireDependencies
  split
  · exact hd
  · next deps hdeps =>
    split
    · exact hd
    · next hsome =>
      have htask : taskID ∈ wf.tasks.keys := by
        by_contra hnot
        simp [hadds.outputs, outputIDs, hnot] at hsome
      have hcond : deps.condition = wf.condition taskID := by simp [AgentWorkflow.condition, hdependencies, hdeps]
      have hdependsOn : deps.dependsOn = wf.dependsOn taskID := by simp [dependsOn, hdependencies, hdeps]
      rw [hcond]
      have hboth : Ported wf (deps.dependsOn.foldl (wireDependency taskID (wf.condition taskID)) d) ∧
          AddsConditions reg wf nodes (deps.dependsOn.foldl (wireDependency taskID (wf.condition taskID)) d) := by
        refine foldl_induction (P := fun _ (d : Draft) => Ported wf d ∧ AddsConditions reg wf nodes d) ?_ ⟨hd, hadds⟩
        rintro _ d₁ dep hdep ⟨hd₁, hadds₁⟩
        refine ⟨?_, wireDependency_adds htask hadds₁ (hdependsOn ▸ hdep)⟩
        unfold wireDependency
        split
        · exact hd₁
        · next srcNode hsrc =>
          have hkey : dep ∈ wf.tasks.keys := by
            by_contra hnot
            simp [hadds₁.outputs, outputIDs, hnot] at hsrc
          have hpair : (dep, taskID) ∈ wf.dependencyPairs :=
            wf.mem_dependencyPairs.mpr ⟨hdependsOn ▸ hdep, hkey, htask⟩
          dsimp only
          split
          · exact hd₁.addOutput _ _ _
          · next hne =>
            refine Ported.addEdge (Ported.addOutput ?_ _ _ _) (.inr ⟨dep, taskID, hpair, hne, hcustom, rfl⟩)
            split
            · exact hd₁
            · exact hd₁.addNode _
      exact hboth.1

theorem compileCustom_ported (hcustom : wf.strategy? = some .custom) (hd : Ported wf d)
    (hadds : AddsConditions reg wf nodes d) (hcompile : compileCustom wf d = .ok d') : Ported wf d' := by
  unfold compileCustom at hcompile
  split at hcompile
  · cases hcompile
    exact hd
  · next tasks htasks =>
    dsimp only at hcompile
    have hall : Ported wf ((sortedKeys tasks).foldl (wireDependencies tasks) d) ∧
        AddsConditions reg wf nodes ((sortedKeys tasks).foldl (wireDependencies tasks) d) := by
      refine foldl_induction (P := fun _ (d : Draft) => Ported wf d ∧ AddsConditions reg wf nodes d) ?_ ⟨hd, hadds⟩
      rintro _ d₁ taskID _ ⟨hd₁, hadds₁⟩
      exact ⟨wireDependencies_ported htasks hcustom taskID hd₁ hadds₁, wireDependencies_adds htasks taskID hadds₁⟩
    split at hcompile
    · cases hcompile
      exact hall.1.setEntry _
    · cases hcompile
      exact hall.1

theorem parallel_ported (hd : Ported wf d) :
    let d' := (sortedKeys wf.tasks).foldl
      (fun d taskID => d.addEdge (d.outputOf taskID) "output" (mergeNode wf).id "input")
      (d.addNode (mergeNode wf))
    Ported wf d' ∧ d'.gd.nodes = d.gd.nodes ++ [mergeNode wf] := by
  refine foldl_induction (P := fun _ (d' : Draft) => Ported wf d' ∧ d'.gd.nodes = d.gd.nodes ++ [mergeNode wf]) ?_
    ⟨hd.addNode (mergeNode wf), rfl⟩
  exact fun _ d₁ taskID _ hd₁ => ⟨hd₁.1.addOutput _ _ _, hd₁.2⟩

inductive ReadyNode (reg : Registry) (wf : AgentWorkflow) (nd : NodeDef) : Prop where
  | task (hnode : TaskNode reg wf nd)
  | merge (htype : nd.type = "merge")
  | condition (hcustom : wf.strategy? = some .custom) (dep taskID : String) (htask : taskID ∈ wf.tasks.keys)
      (hnode : nd = conditionDef reg wf dep taskID)

structure ReadyGraph (reg : Registry) (wf : AgentWorkflow) (gd : GraphDefinition) : Prop where
  kind : gd.kind = schemafmt.WorkflowKind.graph.name
  schemaVersion : gd.schemaVersion = schemafmt.currentGraphSchemaVersion
  edges : ∀ e ∈ gd.edges, LeavesByPort wf e
  nodes : ∀ nd ∈ gd.nodes, ReadyNode reg wf nd

theorem Ported.readyGraph (hd : Ported wf d) (hnodes : ∀ nd ∈ d.gd.nodes, ReadyNode reg wf nd) :
    ReadyGraph reg wf (sortEdges d.gd) := by
  refine ⟨hd.kind, hd.schemaVersion, fun e he => hd.edges e ?_, hnodes⟩
  exact (perm_insertionSort _ _).mem_iff.mp he

theorem compile_ready (hstrategy : wf.strategy? ≠ some .hierarchical) (hcompile : compile reg now (some wf) = .ok gd) :
    ReadyGraph reg wf gd := by
  simp only [compile, bind_eq_ok] at hcompile
  obtain ⟨d, htasks, d', hexecution, hreturn⟩ := hcompile
  cases hreturn
  have hnodes : OfTasks reg wf (wireTaskReferenceEdges wf (sortedKeys wf.tasks) d) := by
    intro nd hnd
    rw [wireTaskReferenceEdges_nodes] at hnd
    exact compileTaskNodes_ofTasks htasks nd hnd
  have hported := wireTaskReferenceEdges_ported (compileTaskNodes_ported htasks) (sortedKeys wf.tasks)
  unfold compileExecutionStrategy at hexecution
  split at hexecution
  · unfold compileSequential at hexecution
    split at hexecution
    · cases hexecution
    · refine (chainTasks_ported (hported.setEntry _) hexecution).readyGraph ?_
      intro nd hnd
      rw [chainTasks_nodes hexecution] at hnd
      exact .task (hnodes nd hnd)
  · cases hexecution
    have hall := parallel_ported hported
    refine hall.1.readyGraph ?_
    intro nd hnd
    rw [hall.2] at hnd
    rcases mem_append.mp hnd with hold | hnew
    · exact .task (hnodes nd hold)
    · rw [mem_singleton.mp hnew]
      exact .merge rfl
  · next hhierarchical => exact absurd hhierarchical hstrategy
  · next hcustom =>
    have hadds : AddsConditions reg wf d.gd.nodes (wireTaskReferenceEdges wf (sortedKeys wf.tasks) d) :=
      wireTaskReferenceEdges_adds htasks
    refine (compileCustom_ported hcustom hported hadds hexecution).readyGraph ?_
    intro nd hnd
    rcases (compileCustom_adds hadds hexecution).added nd hnd with hold | ⟨pair, hpair, hcond⟩
    · exact .task (compileTaskNodes_ofTasks htasks nd hold)
    · obtain ⟨_, _, htask⟩ := wf.mem_dependencyPairs.mp (mem_of_mem_filter hpair)
      exact .condition hcustom pair.1 pair.2 htask hcond
  · cases hexecution

variable (hready : GraphReady reg wf)
include hready

theorem GraphReady.hasOutput {nd : NodeDef} (hnd : ReadyNode reg wf nd) : hasOutput reg nd.type = true := by
  cases hnd with
  | task hnode =>
    cases hnode with
    | tool e he toolID htool hmode htype => exact htype ▸ (hready.tools e he toolID htool hmode).1
    | prompt htype | review htype => exact hready.builtins _ (by simp [htype])
  | merge htype => exact hready.builtins _ (by simp [htype])
  | condition _ dep taskID _ hnode => exact hready.builtins _ (by simp [hnode, conditionDef, conditionalNode])

theorem GraphReady.type_cases {nd : NodeDef} (hnd : ReadyNode reg wf nd) :
    nd.type ≠ "webhook_trigger" ∧ (nd.type = "conditional" → wf.strategy? = some .custom ∧
      ∃ dep, ∃ taskID ∈ wf.tasks.keys, nd = conditionDef reg wf dep taskID) := by
  cases hnd with
  | task hnode =>
    cases hnode with
    | tool e he toolID htool hmode htype =>
      have hnot := (hready.tools e he toolID htool hmode).2
      simp_all
    | prompt htype | review htype => simp [htype]
  | merge htype => simp [htype]
  | condition hcustom dep taskID htask hnode => grind [conditionDef, conditionalNode]

variable (hgd : ReadyGraph reg wf gd)
include hgd

theorem GraphReady.validateTypes : gd.validateTypes reg = [] := by
  rw [GraphDefinition.validateTypes, flatMap_eq_nil_iff]
  rintro ⟨nd, i⟩ hmem
  obtain ⟨typeDef, hget, hcall, _⟩ :=
    hasOutput_eq_true (hready.hasOutput (hgd.nodes nd (fst_mem_of_mem_zipIdx hmem)))
  simp only [hget, if_neg hcall]

theorem GraphReady.validateTriggers : gd.validateTriggers = [] := by
  rw [GraphDefinition.validateTriggers, flatMap_eq_nil_iff]
  rintro ⟨nd, i⟩ hmem
  have htype := (hready.type_cases (hgd.nodes nd (fst_mem_of_mem_zipIdx hmem))).1
  exact if_neg fun h => htype h.1

theorem GraphReady.validateSourceHandles (hnodup : gd.nodeIDs.Nodup)
    (hconditions : ∀ dep taskID, (dep, taskID) ∈ wf.dependencyPairs → wf.condition taskID ≠ "" →
      wf.strategy? = some .custom → conditionDef reg wf dep taskID ∈ gd.nodes) :
    gd.validateSourceHandles reg = [] := by
  rw [GraphDefinition.validateSourceHandles, flatMap_eq_nil_iff]
  rintro ⟨e, i⟩ hmem
  dsimp only
  split
  · rfl
  · split
    · rfl
    · next srcNode hsrc =>
      split
      · rfl
      · next hstatic =>
        split
        · rfl
        · next srcDef hdef =>
          rcases hgd.edges e (fst_mem_of_mem_zipIdx hmem) with
            houtput | ⟨dep, taskID, hpair, hcond, hcustom, hsource⟩
          · -- the type is that of a node, and has the port
            obtain ⟨nd, hnd, hget⟩ := exists_of_findSome?_eq_some hdef
            obtain ⟨typeDef, hget', _, hport⟩ :=
              hasOutput_eq_true (hready.hasOutput (hgd.nodes nd (mem_reverse.mp hnd)))
            simp_all
          · -- the source is the conditional node
            have hnode := hconditions dep taskID hpair hcond hcustom
            rw [nodeByID?] at hsrc
            have hmemSrc := mem_reverse.mp (mem_of_find?_eq_some hsrc)
            have hid : srcNode.id = e.source := by simpa using find?_some hsrc
            have hsame : srcNode = conditionDef reg wf dep taskID :=
              inj_on_of_nodup_map hnodup hmemSrc hnode (hid.trans hsource)
            exact absurd (by rw [hsame]; rfl) hstatic

omit hready hgd

variable {exprValidator : Option ExprValidator}

theorem rewriteConditionExpr_of_not_contains {expr : String} (hexpr : text.contains expr "tasks." = false)
    (taskNodeIDs : String → Option String) : rewriteConditionExpr expr taskNodeIDs = expr := by
  have hkeep : replaceAll (condExprPattern taskNodeIDs) 0 (expr.toList ++ []) = expr.toList ++ [] := by
    refine (replaceAll_keep ?_).trans rfl
    intro x c y hsplit
    have htail : c :: y ∈ expr.toList.tails := by
      rw [mem_tails, hsplit]
      exact suffix_append _ _
    have hnot := any_eq_false.mp hexpr _ htail
    rw [List.isPrefixOf_iff_prefix] at hnot
    have hdrop : (c :: (y ++ [])).dropPrefix? "tasks.".toList = none := by
      rw [append_nil]
      cases hdrop : (c :: y).dropPrefix? "tasks.".toList with
      | none => rfl
      | some rest => exact absurd ⟨rest, (dropPrefix?_eq_some.mp hdrop).symm⟩ hnot
    simp only [condExprPattern, hdrop]
    rfl
  simp_all [rewriteConditionExpr]

theorem validate_condition (hok : hasErrors (validate reg exprValidator (some wf)) = false)
    (hcustom : wf.strategy? = some .custom) {taskID : String} (hcond : wf.condition taskID ≠ "") :
    ∀ validator ∈ exprValidator, validator (wf.condition taskID) = .ok () := by
  rintro validator rfl
  simp only [validate, hasErrors_append, Bool.or_eq_false_iff, validateStrategy, hcustom] at hok
  have hchecked := hok.1.2
  unfold AgentWorkflow.condition at hcond ⊢
  split at hcond
  · exact absurd rfl hcond
  · next deps hdeps =>
    cases htasks : wf.execution.tasks with
    | none => simp [dependencies, htasks, Dict.empty, Dict.get?] at hdeps
    | some tasks =>
      have hentry : (taskID, deps) ∈ tasks.entries := by
        rw [← Dict.get?_eq_some_iff]
        simpa [dependencies, htasks] using hdeps
      simp only [validateCustom, htasks, hasErrors_append, Bool.or_eq_false_iff] at hchecked
      have hone := hasErrors_flatMap.mp hchecked.2 _ hentry
      simp only [if_neg hcond] at hone
      split at hone
      · cases hone
      · next hparsed => simpa using hparsed

theorem startNode_not_reserved (hwf : Accepted wf) {taskID : String} (htask : taskID ∈ wf.tasks.keys) :
    startNode reg wf taskID ∉ reservedPorts := by
  obtain ⟨c, cs, hlist, hlower, hmem⟩ := @startNode_toList reg _ _ hwf htask
  rw [reservedPorts, mem_cons, mem_singleton]
  rintro (herror | hmetadata)
  · rw [herror] at hlist
    grind
  · rw [hmetadata] at hlist
    rw [← (List.cons.inj hlist).1] at hlower
    exact absurd hlower (by decide)

theorem validateCondition_no_errors {node : NodeDef} {condPath : String} {cond : Vars}
    (hname : stringAt cond "name" ∉ reservedPorts) (hexpr : stringAt cond "expression" ≠ "" →
      ∀ validator ∈ exprValidator, validator (stringAt cond "expression") = .ok ()) :
    hasErrors (gd.validateCondition exprValidator node condPath cond) = false := by
  simp only [validateCondition, if_neg hname, nil_append, hasErrors_append, Bool.or_eq_false_iff]
  constructor
  · cases exprValidator with
    | none => rfl
    | some validator =>
      dsimp only
      split
      · rfl
      · next hne =>
        rw [hexpr hne validator rfl]
        rfl
  · split <;> rfl

theorem GraphReady.validateConditionalNodes (hready : GraphReady reg wf)
    (hok : hasErrors (validate reg exprValidator (some wf)) = false) (hgd : ReadyGraph reg wf gd) :
    hasErrors (gd.validateConditionalNodes exprValidator) = false := by
  rw [GraphDefinition.validateConditionalNodes, hasErrors_flatMap]
  rintro ⟨nd, i⟩ hmem
  dsimp only
  split
  · next htype =>
    obtain ⟨hcustom, dep, taskID, htask, rfl⟩ :=
      (hready.type_cases (hgd.nodes nd (fst_mem_of_mem_zipIdx hmem))).2 htype
    have hrewritten : compiledCondition reg wf taskID = wf.condition taskID :=
      rewriteConditionExpr_of_not_contains (hready.conditions taskID htask) _
    have hreserved := @startNode_not_reserved reg _ (accepted_of_validate hok) _ htask
    have hparsed := @validate_condition reg _ _ hok hcustom taskID
    simp only [validateConditionalNode, conditionDef, conditionalNode, hrewritten, lookup_cons,
      beq_self_eq_true, zipIdx_cons, zipIdx_nil, flatMap_cons, flatMap_nil, append_nil,
      hasErrors_append, Bool.or_eq_false_iff]
    refine ⟨validateCondition_no_errors ?_ ?_, ?_⟩
    · exact hreserved
    · exact hparsed
    · split <;> rfl
  · rfl

theorem GraphReady.validate (hready : GraphReady reg wf)
    (hok : hasErrors (agent.validate reg exprValidator (some wf)) = false)
    (hcompile : compile reg now (some wf) = .ok gd) : hasErrors (gd.validate exprValidator) = false := by
  have hwf := accepted_of_validate hok
  have hgd := compile_compiled hcompile
  have hparts := compile_ready hready.strategy hcompile
  have hnodup : gd.nodeIDs.Nodup := hgd.nodeIDs_nodup_of_apart hready.ids
  have hheader : gd.validateSchemaHeader = [] := by
    simp only [GraphDefinition.validateSchemaHeader, hparts.kind, hparts.schemaVersion]
    decide +kernel
  have hcycle : gd.validateAcyclic = [] := by
    have hlinks : dag.Acyclic (plan reg wf).Link := plan_acyclic hready.strategy hready.order
    have hacyclic : gd.Acyclic := by
      simpa only [GraphDefinition.Acyclic, hgd.links] using Network.acyclic (plan_nodes_nodup_iff.mpr hready.ids) hlinks
    have hvisited := kahn.length_le_visited_iff hnodup hgd.edgesDefined
    rw [nodeIDs, length_map] at hvisited
    exact validateAcyclic_eq_nil_iff.mpr (hvisited.mpr hacyclic)
  have horphans : hasErrors gd.validateOrphans = false := by
    refine any_eq_false.mpr fun d hd => ?_
    simp [validateOrphans_severity d hd]
  have hconditions := hready.validateConditionalNodes hok hparts
  simp only [GraphDefinition.validate, hheader, validateNodeIDs_eq_nil_iff.mpr hnodup,
    validateEdges_eq_nil_iff.mpr hgd.edgesDefined,
    validateEntry_eq_nil_iff.mpr hgd.entryDefined, hcycle, append_nil, nil_append, ite_self,
    hasErrors_append, horphans, hconditions, Bool.or_false]

theorem GraphReady.valid (hready : GraphReady reg wf)
    (hok : hasErrors (agent.validate reg exprValidator (some wf)) = false)
    (hcompile : compile reg now (some wf) = .ok gd) :
    hasErrors (gd.validateWithRegistry (some reg) exprValidator) = false := by
  have hparts := compile_ready hready.strategy hcompile
  have hwf := accepted_of_validate hok
  have hnodup := (compile_compiled hcompile).nodeIDs_nodup_of_apart hready.ids
  have hhandles := hready.validateSourceHandles hparts hnodup fun dep taskID hpair hcond hcustom =>
    compile_condition hready.ids hcustom hcompile hpair hcond
  simp only [validateWithRegistry, hready.validateTypes hparts, hready.validateTriggers hparts, hhandles, append_nil]
  exact hready.validate hok hcompile

end petalflow.agent
