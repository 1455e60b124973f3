import Petalflow.Agent.Accepted

open dict network fold petalflow.graph petalflow.registry List

namespace petalflow.agent

open Draft

theorem compound_ne_empty (id name : String) : id ++ "__" ++ name ≠ "" := by
  simp_all

variable {reg : Registry} {d : Draft} {taskID : String}

def toolNodes (reg : Registry) (taskID : String) (tools : List String) : List String :=
  (standaloneTools reg tools).map fun name => taskID ++ "__" ++ name

theorem toolNodes_concat (tools : List String) (toolID : String) :
    toolNodes reg taskID (tools ++ [toolID]) = toolNodes reg taskID tools ++
      if resolveToolMode reg (text.trimSpace toolID) = "standalone" then [taskID ++ "__" ++ text.trimSpace toolID]
      else [] := by
  simp only [toolNodes, standaloneTools, map_append, filter_append, map_cons, map_nil,
    filter_cons, filter_nil, decide_eq_true_eq]
  congr 1
  split <;> rfl

/-- What the loop over the tools has done once it has made the nodes `ids`. -/
structure ToolsDone (d : Draft) (taskID : String) (ids : List String) (pass : ToolPass) : Prop where
  nodeIDs : pass.draft.gd.nodeIDs = d.gd.nodeIDs ++ ids
  links : pass.draft.gd.links = d.gd.links ++ ids.consecutivePairs
  entry : pass.draft.gd.entry = d.gd.entry
  outputs : pass.draft.taskNodeIDs = d.taskNodeIDs
  starts : pass.draft.taskStartNodeIDs =
    Function.update d.taskStartNodeIDs taskID (ids.head?.or (d.taskStartNodeIDs taskID))
  first : pass.firstStandaloneNodeID = ids.head?.getD ""
  prev : pass.prevStandaloneNodeID = ids.getLast?.getD ""

theorem ToolsDone.standalone {ids : List String} {pass : ToolPass} (hpass : ToolsDone d taskID ids pass)
    (hids : "" ∉ ids) (ag : Agent) {toolID : String}
    (hmode : resolveToolMode reg (text.trimSpace toolID) = "standalone") :
    ToolsDone d taskID (ids ++ [taskID ++ "__" ++ text.trimSpace toolID])
      (compileTaskTool reg taskID ag pass toolID) := by
  have hcall : ¬ resolveToolMode reg (text.trimSpace toolID) = "function_call" := by
    rw [hmode]
    decide
  cases hlast : ids.getLast? with
  | none =>
    rw [getLast?_eq_none_iff] at hlast
    subst hlast
    have hfirst : pass.firstStandaloneNodeID = "" := hpass.first
    have hprev : pass.prevStandaloneNodeID = "" := hpass.prev
    simp only [compileTaskTool, if_neg hcall, if_pos hmode, hfirst, hprev, if_true]
    refine ⟨?_, ?_, hpass.entry, hpass.outputs, ?_, rfl, rfl⟩
    · simpa [setStart] using hpass.nodeIDs
    · simpa [setStart] using hpass.links
    · simp [setStart, Draft.addNode, hpass.starts]
  | some last =>
    have hne : ids ≠ [] := by
      rintro rfl
      cases hlast
    have hhead := head?_eq_some_head hne
    have hfirst : pass.firstStandaloneNodeID = ids.head hne := by rw [hpass.first, hhead]; rfl
    have hprev : pass.prevStandaloneNodeID = last := by rw [hpass.prev, hlast]; rfl
    have hfirstNe : ids.head hne ≠ "" := fun heq => hids (heq ▸ head_mem hne)
    have hlastNe : last ≠ "" := fun heq => hids (heq ▸ mem_of_getLast? hlast)
    simp only [compileTaskTool, if_neg hcall, if_pos hmode, hfirst, hprev, if_neg hfirstNe, if_neg hlastNe]
    refine ⟨?_, ?_, hpass.entry, hpass.outputs, ?_, ?_, ?_⟩
    · simp [setStart, hpass.nodeIDs]
    · simp [setStart, hpass.links, consecutivePairs_concat, hlast]
    · simp [setStart, Draft.addNode, Draft.addEdge, hpass.starts, hhead, head?_append]
    · simp [hhead, head?_append]
    · simp

theorem compileTaskTools_done (reg : Registry) (d : Draft) (taskID : String) (ag : Agent) :
    ToolsDone d taskID (toolNodes reg taskID ag.tools) (compileTaskTools reg d taskID ag) := by
  refine foldl_induction (P := fun seen pass => ToolsDone d taskID (toolNodes reg taskID seen) pass) ?_ ?_
  · intro seen pass toolID _ hpass
    rw [toolNodes_concat]
    by_cases hmode : resolveToolMode reg (text.trimSpace toolID) = "standalone"
    · have hids : "" ∉ toolNodes reg taskID seen := by
        intro hmem
        obtain ⟨name, _, heq⟩ := mem_map.mp hmem
        exact compound_ne_empty taskID name heq
      rw [if_pos hmode]
      exact hpass.standalone hids ag hmode
    · -- other tools leave the graph alone
      rw [if_neg hmode, append_nil]
      simp only [compileTaskTool, if_neg hmode]
      split
      · exact { hpass with }
      · exact hpass
  · exact ⟨by simp [toolNodes, standaloneTools], by simp [toolNodes, standaloneTools], rfl, rfl,
      by simp [toolNodes, standaloneTools], rfl, rfl⟩

variable {wf : AgentWorkflow} {task : Task} {ag : Agent}

theorem partChain_task (htask : wf.tasks.get? taskID = some task) (hag : wf.agents.get? task.agent = some ag) :
    partChain reg wf (.task taskID) = toolNodes reg taskID ag.tools ++ [taskID ++ "__" ++ task.agent] ++
      if task.review = "human" then [taskID ++ "__" ++ task.agent ++ "__hitl"] else [] := by
  grind [taskNames, partChain, toolNodes]

structure ChainAdded (taskID : String) (chain : List String) (d d' : Draft) : Prop where
  nodeIDs : d'.gd.nodeIDs = d.gd.nodeIDs ++ chain
  links : d'.gd.links = d.gd.links ++ chain.consecutivePairs
  entry : d'.gd.entry = d.gd.entry
  starts : d'.taskStartNodeIDs = Function.update d.taskStartNodeIDs taskID chain.head?
  outputs : d'.taskNodeIDs = Function.update d.taskNodeIDs taskID chain.getLast?

theorem compileTaskPrompt_added (reg : Registry) (d : Draft) (taskID : String) (task : Task) (ag : Agent) :
    ChainAdded taskID (toolNodes reg taskID ag.tools ++ [taskID ++ "__" ++ task.agent]) d
      (compileTaskPrompt reg d taskID task ag) := by
  obtain ⟨hnodeIDs, hlinks, hentry, houtputs, hstarts, -, hprev⟩ := compileTaskTools_done reg
    ((d.setStart taskID (taskID ++ "__" ++ task.agent)).setOutput taskID (taskID ++ "__" ++ task.agent)) taskID ag
  have hheads : (toolNodes reg taskID ag.tools ++ [taskID ++ "__" ++ task.agent]).head? =
      (toolNodes reg taskID ag.tools).head?.or (some (taskID ++ "__" ++ task.agent)) := head?_append
  cases hlast : (toolNodes reg taskID ag.tools).getLast? with
  | none =>
    rw [hlast, Option.getD_none] at hprev
    simp only [compileTaskPrompt, hprev, if_true]
    refine ⟨?_, ?_, hentry, ?_, ?_⟩
    · rw [nodeIDs_addNode, hnodeIDs, append_assoc]
      rfl
    · simp_all [setStart, setOutput]
    · refine hstarts.trans ?_
      rw [hheads]
      simp [setStart, setOutput]
    · refine houtputs.trans ?_
      simp [setStart, setOutput]
  | some last =>
    have hlastNe : last ≠ "" := by
      obtain ⟨name, _, heq⟩ := mem_map.mp (mem_of_getLast? hlast)
      exact heq ▸ compound_ne_empty taskID name
    rw [hlast, Option.getD_some] at hprev
    simp only [compileTaskPrompt, hprev, if_neg hlastNe]
    refine ⟨?_, ?_, hentry, ?_, ?_⟩
    · rw [nodeIDs_addNode, nodeIDs_addEdge, hnodeIDs, append_assoc]
      rfl
    · simp_all [consecutivePairs_concat, setStart, setOutput]
    · refine hstarts.trans ?_
      rw [hheads]
      simp [setStart, setOutput]
    · refine houtputs.trans ?_
      simp [setStart, setOutput]

theorem compileTaskNode_added (d : Draft) (htask : wf.tasks.get? taskID = some task)
    (hag : wf.agents.get? task.agent = some ag) :
    ChainAdded taskID (partChain reg wf (.task taskID)) d (compileTaskNode reg d taskID task ag) := by
  have hprompt := compileTaskPrompt_added reg d taskID task ag
  rw [partChain_task htask hag]
  simp only [compileTaskNode, appendTaskHumanReviewNode]
  split
  · refine ⟨?_, ?_, hprompt.entry, ?_, ?_⟩
    · simp [setOutput, hprompt.nodeIDs]
    · rw [consecutivePairs_concat]
      simp [setOutput, hprompt.links]
    · simp [setOutput, Draft.addNode, Draft.addEdge, hprompt.starts]
    · simp [setOutput, Draft.addNode, Draft.addEdge, hprompt.outputs]
  · rw [append_nil]
    exact hprompt

structure TasksDone (reg : Registry) (wf : AgentWorkflow) (taskIDs : List String) (d : Draft) : Prop where
  nodeIDs : d.gd.nodeIDs = taskIDs.flatMap fun id => partChain reg wf (.task id)
  links : d.gd.links = taskIDs.flatMap fun id => (partChain reg wf (.task id)).consecutivePairs
  entry : d.gd.entry = ""
  starts : ∀ id, d.taskStartNodeIDs id = if id ∈ taskIDs then some (startNode reg wf id) else none
  outputs : ∀ id, d.taskNodeIDs id = if id ∈ taskIDs then some (outputNode reg wf id) else none

theorem partChain_head? (taskID : String) :
    (partChain reg wf (.task taskID)).head? = some (startNode reg wf taskID) :=
  head?_eq_some_head _

theorem partChain_getLast? (taskID : String) :
    (partChain reg wf (.task taskID)).getLast? = some (outputNode reg wf taskID) :=
  getLast?_eq_some_getLast _

theorem TasksDone.concat {seen : List String} {d' : Draft} (hd : TasksDone reg wf seen d)
    (hadded : ChainAdded taskID (partChain reg wf (.task taskID)) d d') : TasksDone reg wf (seen ++ [taskID]) d' where
  nodeIDs := by simp [hadded.nodeIDs, hd.nodeIDs]
  links := by simp [hadded.links, hd.links]
  entry := hadded.entry.trans hd.entry
  starts := by
    intro id
    rw [hadded.starts, partChain_head?]
    by_cases hid : id = taskID
    · simp [hid]
    · simp [hid, hd.starts]
  outputs := by
    intro id
    rw [hadded.outputs, partChain_getLast?]
    by_cases hid : id = taskID
    · simp [hid]
    · simp [hid, hd.outputs]

def emptyDraft (now : String) (wf : AgentWorkflow) : Draft :=
  { gd := newCompiledGraphDefinition now wf, taskStartNodeIDs := fun _ => none, taskNodeIDs := fun _ => none }

theorem compileTaskNodes_done {taskIDs : List String} (hdefined : ∀ id ∈ taskIDs, id ∈ wf.tasks.keys) (now : String)
    (hcompile : compileTaskNodes reg wf taskIDs (emptyDraft now wf) = .ok d) : TasksDone reg wf taskIDs d := by
  refine foldlM_induction (P := TasksDone reg wf) ?_ ⟨rfl, rfl, rfl, fun _ => rfl, fun _ => rfl⟩ hcompile
  intro seen d taskID hmem d' hd hpass
  obtain ⟨task, htask⟩ := Dict.mem_keys_iff.mp (hdefined taskID hmem)
  simp only [htask] at hpass
  split at hpass
  · cases hpass
  · next ag hag =>
    cases hpass
    exact hd.concat (compileTaskNode_added d htask hag)

theorem compileTaskNodes_total (reg : Registry) (taskIDs : List String)
    (hagents : ∀ e ∈ wf.tasks.entries, e.2.agent ∈ wf.agents.keys) (d : Draft) :
    ∃ d', compileTaskNodes reg wf taskIDs d = .ok d' := by
  refine foldlM_total (P := fun _ => True) (fun d taskID _ _ => ?_) trivial
  cases htask : wf.tasks.get? taskID with
  | none => exact ⟨d, rfl, trivial⟩
  | some task =>
    obtain ⟨ag, hag⟩ := Dict.mem_keys_iff.mp (hagents _ (Dict.get?_eq_some_iff.mp htask))
    simp_all

open AgentWorkflow

def taskNodes (reg : Registry) (wf : AgentWorkflow) : List String :=
  (sortedKeys wf.tasks).flatMap fun id => partChain reg wf (.task id)

structure Draws (reg : Registry) (wf : AgentWorkflow) (ids : List String) (links : List (Part × Part))
    (entry : String) (d : Draft) : Prop where
  nodeIDs : d.gd.nodeIDs = ids
  links : ∀ a b, (a, b) ∈ d.gd.links ↔
    (∃ id ∈ wf.tasks.keys, (a, b) ∈ (partChain reg wf (.task id)).consecutivePairs) ∨
      ∃ p q, (p, q) ∈ links ∧ (plan reg wf).last p = a ∧ (plan reg wf).first q = b
  entry : d.gd.entry = entry
  starts : ∀ id, d.taskStartNodeIDs id = if id ∈ wf.tasks.keys then some (startNode reg wf id) else none
  outputs : ∀ id, d.taskNodeIDs id = if id ∈ wf.tasks.keys then some (outputNode reg wf id) else none

variable {ids : List String} {links : List (Part × Part)} {entry : String}

theorem first_task_ne_empty (taskID : String) : (plan reg wf).first (.task taskID) ≠ "" := by
  obtain ⟨name, _, heq⟩ := mem_map.mp (Network.first_mem (n := plan reg wf) (.task taskID))
  exact heq ▸ compound_ne_empty taskID name

theorem TasksDone.draws (hd : TasksDone reg wf (sortedKeys wf.tasks) d) : Draws reg wf (taskNodes reg wf) [] "" d where
  nodeIDs := hd.nodeIDs
  links := by
    intro a b
    rw [hd.links]
    simp
  entry := hd.entry
  starts := by simpa using hd.starts
  outputs := by simpa using hd.outputs

namespace Draws

variable (hd : Draws reg wf ids links entry d)
include hd

theorem startOf (hid : taskID ∈ wf.tasks.keys) : d.startOf taskID = (plan reg wf).first (.task taskID) := by
  simp [Draft.startOf, hd.starts, hid, startNode]

theorem outputOf (hid : taskID ∈ wf.tasks.keys) : d.outputOf taskID = (plan reg wf).last (.task taskID) := by
  simp [Draft.outputOf, hd.outputs, hid, outputNode]

theorem addLink (p q : Part) (sourceHandle targetHandle : String) : Draws reg wf ids (links ++ [(p, q)]) entry
      (d.addEdge ((plan reg wf).last p) sourceHandle ((plan reg wf).first q) targetHandle) where
  nodeIDs := hd.nodeIDs
  links := by
    intro a b
    rw [Draft.links_addEdge, mem_append, hd.links, mem_singleton, or_assoc]
    grind
  entry := hd.entry
  starts := hd.starts
  outputs := hd.outputs

theorem addNode (node : NodeDef) : Draws reg wf (ids ++ [node.id]) links entry (d.addNode node) where
  nodeIDs := by rw [Draft.nodeIDs_addNode, hd.nodeIDs]
  links := hd.links
  entry := hd.entry
  starts := hd.starts
  outputs := hd.outputs

theorem setEntry (nodeID : String) : Draws reg wf ids links nodeID (d.setEntry nodeID) where
  nodeIDs := hd.nodeIDs
  links := hd.links
  entry := rfl
  starts := hd.starts
  outputs := hd.outputs

end Draws

def referenceLinks (wf : AgentWorkflow) (taskID ref : String) : List (Part × Part) :=
  if ref ∈ wf.tasks.keys then [(.task ref, .task taskID)] else []

theorem flatMap_referenceLinks (taskID : String) (refs : List String) : refs.flatMap (referenceLinks wf taskID) =
      (refs.filter (· ∈ wf.tasks.keys)).map fun ref => (Part.task ref, Part.task taskID) :=
  flatMap_ite (· ∈ wf.tasks.keys) _ refs

section

variable (hd : Draws reg wf ids links entry d)
include hd

theorem wireReference_draws (taskID targetHandle ref : String) :
    Draws reg wf ids (links ++ referenceLinks wf taskID ref) entry
      (wireReference ((plan reg wf).first (.task taskID)) targetHandle d ref) := by
  simp only [wireReference, referenceLinks, hd.outputs]
  by_cases href : ref ∈ wf.tasks.keys
  · simp only [href, if_true]
    exact hd.addLink (.task ref) (.task taskID) "output" targetHandle
  simp_all

theorem wireTaskReferences_draws (hid : taskID ∈ wf.tasks.keys) :
    Draws reg wf ids (links ++ (wf.references taskID).flatMap (referenceLinks wf taskID)) entry
      (wireTaskReferences wf d taskID) := by
  obtain ⟨task, htask⟩ := Dict.mem_keys_iff.mp hid
  have hstart := hd.startOf hid
  simp only [wireTaskReferences, references, htask, hstart, if_neg (first_task_ne_empty taskID),
    flatMap_append, ← append_assoc, flatMap_assoc]
  have hrefs : ∀ targetHandle (refs : List String) links d, Draws reg wf ids links entry d →
      Draws reg wf ids (links ++ refs.flatMap (referenceLinks wf taskID)) entry
        (refs.foldl (wireReference ((plan reg wf).first (.task taskID)) targetHandle) d) := by
    intro targetHandle refs links d hd
    refine foldl_made (D := fun links d => Draws reg wf ids links entry d) ?_ hd
    exact fun links d ref _ hd => wireReference_draws hd taskID targetHandle ref
  refine hrefs _ _ _ _ ?_
  exact foldl_made (D := fun links d => Draws reg wf ids links entry d) (fun links d e _ hd => hrefs _ _ _ _ hd) hd

theorem wireTaskReferenceEdges_draws :
    Draws reg wf ids (links ++ wf.referencePairs.map fun pair => (.task pair.1, .task pair.2)) entry
      (wireTaskReferenceEdges wf (sortedKeys wf.tasks) d) := by
  have hall := foldl_made (D := fun links d => Draws reg wf ids links entry d)
    (fun links d taskID (hid : taskID ∈ sortedKeys wf.tasks) hd =>
      wireTaskReferences_draws hd (mem_sortedKeys.mp hid)) hd
  simp only [referencePairs, map_flatMap, map_map]
  simp only [flatMap_referenceLinks] at hall
  exact hall

end

variable {order : List String}

theorem chainTasks_draws {d' : Draft} (hd : Draws reg wf ids links entry d) (hchain : chainTasks order d = .ok d') :
    Draws reg wf ids (links ++ (order.consecutivePairs.filter wf.isDefinedPair).map fun pair =>
      (.task pair.1, .task pair.2)) entry d' := by
  induction order generalizing d links with
  | nil =>
    cases hchain
    simpa using hd
  | cons first rest ih =>
    cases rest with
    | nil =>
      cases hchain
      simpa using hd
    | cons second rest =>
      simp only [chainTasks, hd.outputs, hd.starts] at hchain
      by_cases hfirst : first ∈ wf.tasks.keys
      · by_cases hsecond : second ∈ wf.tasks.keys
        · simp only [hfirst, hsecond, if_true] at hchain
          have hpair : wf.isDefinedPair (first, second) = true := by simp [isDefinedPair, hfirst, hsecond]
          have hrest := ih (hd.addLink (.task first) (.task second) "output" "input") hchain
          grind
        · simp [hfirst, hsecond] at hchain
      · simp [hfirst] at hchain

theorem chainTasks_total (hdefined : ∀ id ∈ order, id ∈ wf.tasks.keys) (hd : Draws reg wf ids links entry d) :
    ∃ d', chainTasks order d = .ok d' := by
  induction order generalizing d links with
  | nil => exact ⟨d, rfl⟩
  | cons first rest ih =>
    cases rest with
    | nil => exact ⟨d, rfl⟩
    | cons second rest =>
      have hfirst := hdefined first mem_cons_self
      have hsecond := hdefined second (mem_cons_of_mem _ mem_cons_self)
      simp only [chainTasks, hd.outputs, hd.starts, hfirst, hsecond, if_true]
      exact ih (fun id hid => hdefined id (mem_cons_of_mem _ hid))
        (hd.addLink (.task first) (.task second) "output" "input")

def addAbsent (ids : List String) (id : String) : List String :=
  if id ∈ ids then ids else ids ++ [id]

variable {new : List String}

theorem mem_foldl_addAbsent {id : String} : id ∈ new.foldl addAbsent ids ↔ id ∈ ids ∨ id ∈ new := by
  induction new generalizing ids with
  | nil => simp
  | cons x rest ih =>
    rw [foldl_cons, ih, addAbsent]
    grind

theorem nodup_foldl_addAbsent (hids : ids.Nodup) : (new.foldl addAbsent ids).Nodup := by
  induction new generalizing ids with
  | nil => exact hids
  | cons x rest ih =>
    refine ih ?_
    unfold addAbsent
    split
    · exact hids
    · grind

theorem prefix_foldl_addAbsent (ids new : List String) : ids <+: new.foldl addAbsent ids := by
  induction new generalizing ids with
  | nil => exact prefix_rfl
  | cons x rest ih =>
    refine IsPrefix.trans ?_ (ih (addAbsent ids x))
    unfold addAbsent
    split
    · exact prefix_rfl
    · exact prefix_append _ _

def condIDs (wf : AgentWorkflow) (pair : String × String) : List String :=
  if wf.condition pair.2 = "" then [] else [pair.1 ++ "__cond__" ++ pair.2]

def DrawsDependencies (reg : Registry) (wf : AgentWorkflow) (links : List (Part × Part))
    (pairs : List (String × String)) (d : Draft) : Prop :=
  Draws reg wf ((pairs.flatMap (condIDs wf)).foldl addAbsent (taskNodes reg wf))
    (links ++ pairs.flatMap (dependencyLinks wf)) "" d

variable {pairs : List (String × String)}

theorem wireDependency_draws {depID : String} (htask : taskID ∈ wf.tasks.keys)
    (hdep : depID ∈ wf.tasks.keys) (hd : DrawsDependencies reg wf links pairs d) :
    DrawsDependencies reg wf links (pairs ++ [(depID, taskID)])
      (wireDependency taskID (wf.condition taskID) d depID) := by
  have hstart := hd.startOf htask
  simp only [DrawsDependencies, flatMap_append, flatMap_singleton, foldl_append, ← append_assoc]
    at hd ⊢
  simp only [wireDependency, hd.outputs, hdep, if_true, hstart, condIDs, dependencyLinks]
  by_cases hcond : wf.condition taskID = ""
  · simp only [hcond, if_true, foldl_nil]
    exact hd.addLink (.task depID) (.task taskID) "output" "input"
  · simp only [hcond, if_false, foldl_cons, foldl_nil, addAbsent, hd.nodeIDs]
    have hlinks : ∀ {ids links d}, Draws reg wf ids links "" d →
        Draws reg wf ids (links ++ [(.task depID, .cond depID taskID), (.cond depID taskID, .task taskID)]) ""
          ((d.addEdge (outputNode reg wf depID) "output" (depID ++ "__cond__" ++ taskID) "input").addEdge
            (depID ++ "__cond__" ++ taskID) ((plan reg wf).first (.task taskID))
            ((plan reg wf).first (.task taskID)) "input") := by
      intro ids links d hd
      have hin := hd.addLink (.task depID) (.cond depID taskID) "output" "input"
      have hout := hin.addLink (.cond depID taskID) (.task taskID) ((plan reg wf).first (.task taskID)) "input"
      rw [append_assoc] at hout
      exact hout
    split
    · exact hlinks hd
    · exact hlinks (hd.addNode (conditionalNode _ _ _))

variable {tasks : Dict String TaskDependencies}

theorem wireDependencies_draws (htasks : wf.execution.tasks = some tasks) (taskID : String)
    (hd : DrawsDependencies reg wf links pairs d) : DrawsDependencies reg wf links
      (pairs ++ ((wf.dependsOn taskID).map fun dep => (dep, taskID)).filter wf.isDefinedPair)
      (wireDependencies tasks d taskID) := by
  have hdependencies : wf.dependencies = tasks := by rw [dependencies, htasks]; rfl
  cases hdeps : tasks.get? taskID with
  | none => grind [wireDependencies, dependsOn]
  | some deps =>
    have hcond : wf.condition taskID = deps.condition := by simp [AgentWorkflow.condition, hdependencies, hdeps]
    simp only [wireDependencies, dependsOn, hdependencies, hdeps, hd.outputs, ← hcond]
    by_cases htask : taskID ∈ wf.tasks.keys
    · have hfilter : (deps.dependsOn.map fun dep => (dep, taskID)).filter wf.isDefinedPair =
          deps.dependsOn.flatMap fun dep => if dep ∈ wf.tasks.keys then [(dep, taskID)] else [] := by
        rw [filter_map, flatMap_ite (· ∈ wf.tasks.keys) fun dep => (dep, taskID)]
        refine congrArg (List.map _) (filter_congr fun dep _ => ?_)
        simp [isDefinedPair, htask]
      simp only [htask, if_true, Option.isNone_some, Bool.false_eq_true, if_false, hfilter]
      refine foldl_made (D := fun pairs d => DrawsDependencies reg wf links pairs d) ?_ hd
      intro pairs d dep _ hd
      by_cases hdep : dep ∈ wf.tasks.keys
      · simp only [hdep, if_true]
        exact wireDependency_draws htask hdep hd
      · simp only [hdep, if_false, append_nil, wireDependency, hd.outputs]
        exact hd
    · have hnone : (deps.dependsOn.map fun dep => (dep, taskID)).filter wf.isDefinedPair = [] := by
        simp [isDefinedPair, htask]
      grind

theorem wireDependencies_all (htasks : wf.execution.tasks = some tasks)
    (hd : Draws reg wf (taskNodes reg wf) links "" d) :
    DrawsDependencies reg wf links wf.dependencyPairs ((sortedKeys tasks).foldl (wireDependencies tasks) d) := by
  have hdependencies : wf.dependencies = tasks := by rw [dependencies, htasks]; rfl
  have hnone : DrawsDependencies reg wf links [] d := by simpa [DrawsDependencies] using hd
  have hall := foldl_made (D := fun pairs d => DrawsDependencies reg wf links pairs d)
    (fun pairs d taskID (_ : taskID ∈ sortedKeys tasks) hd => wireDependencies_draws htasks taskID hd) hnone
  rw [dependencyPairs, hdependencies]
  exact hall

open AgentWorkflow

variable {now : String} {gd : GraphDefinition}

/-- The entry that the execution strategy chooses; none for a parallel execution. -/
def plannedEntry (reg : Registry) (wf : AgentWorkflow) : String :=
  match wf.strategy? with
  | some .sequential =>
    match wf.execution.taskOrder with
    | [] => ""
    | first :: _ => if first ∈ wf.tasks.keys then startNode reg wf first else ""
  | some .hierarchical => (plan reg wf).first .manager
  | some .custom =>
    match wf.execution.tasks with
    | none => ""
    | some tasks =>
      match (sortedKeys wf.tasks).find? (isRoot tasks) with
      | some taskID => startNode reg wf taskID
      | none => ""
  | _ => ""

/-- A definition is the compiled form of a workflow: it has the nodes and the
edges of the plan and the planned entry. -/
structure Compiled (reg : Registry) (wf : AgentWorkflow) (gd : GraphDefinition) : Prop where
  mem_nodeIDs : ∀ id, id ∈ gd.nodeIDs ↔ id ∈ (plan reg wf).nodes
  links : ∀ a b, (a, b) ∈ gd.links ↔ (plan reg wf).Edge a b
  entry : gd.entry = plannedEntry reg wf
  nodeIDs : wf.strategy? ≠ some .custom → gd.nodeIDs = (plan reg wf).nodes
  nodup : wf.strategy? = some .custom → (taskNodes reg wf).Nodup → gd.nodeIDs.Nodup
  taskNodes : taskNodes reg wf <+: gd.nodeIDs

theorem plan_edge_iff {a b : String} : (plan reg wf).Edge a b ↔
    (∃ id ∈ wf.tasks.keys, (a, b) ∈ (partChain reg wf (.task id)).consecutivePairs) ∨
      ∃ p q, (p, q) ∈ planLinks wf ∧ (plan reg wf).last p = a ∧ (plan reg wf).first q = b := by
  rw [Network.edge_iff]
  refine or_congr ?_ Iff.rfl
  constructor
  · rintro ⟨part, hpart, hpair⟩
    cases part with
    | task id => exact ⟨id, mem_keys_of_task_mem_planUnits hpart, hpair⟩
    | _ => cases hpair
  · rintro ⟨id, hid, hpair⟩
    exact ⟨.task id, task_mem_planUnits hid, hpair⟩

theorem plan_nodes : (plan reg wf).nodes = taskNodes reg wf ++ (extraParts wf).flatMap (partChain reg wf) := by
  show (planUnits wf).flatMap (partChain reg wf) = _
  rw [planUnits, flatMap_append, flatMap_map]
  rfl

theorem links_sortEdges (gd : GraphDefinition) (a b : String) : (a, b) ∈ (sortEdges gd).links ↔ (a, b) ∈ gd.links := by
  simp [GraphDefinition.links, sortEdges]

theorem Draws.compiled (hd : Draws reg wf ids links entry d) (hlinks : planLinks wf = links)
    (hentry : plannedEntry reg wf = entry) (hmem : ∀ id, id ∈ ids ↔ id ∈ (plan reg wf).nodes)
    (hids : wf.strategy? ≠ some .custom → ids = (plan reg wf).nodes)
    (hnodup : wf.strategy? = some .custom → (taskNodes reg wf).Nodup → ids.Nodup)
    (htasks : taskNodes reg wf <+: ids) : Compiled reg wf (sortEdges d.gd) where
  mem_nodeIDs := fun id => by
    show id ∈ d.gd.nodeIDs ↔ _
    rw [hd.nodeIDs, hmem]
  links := fun a b => by rw [links_sortEdges, hd.links, plan_edge_iff, hlinks]
  entry := hd.entry.trans hentry.symm
  nodeIDs := fun hstrategy => hd.nodeIDs.trans (hids hstrategy)
  nodup := fun hstrategy htasks => by
    show d.gd.nodeIDs.Nodup
    rw [hd.nodeIDs]
    exact hnodup hstrategy htasks
  taskNodes := by
    show _ <+: d.gd.nodeIDs
    rwa [hd.nodeIDs]

theorem Draws.compiled_of_ne_custom (hstrategy : wf.strategy? ≠ some .custom)
    (hd : Draws reg wf (plan reg wf).nodes links entry d) (hlinks : planLinks wf = links)
    (hentry : plannedEntry reg wf = entry) : Compiled reg wf (sortEdges d.gd) :=
  hd.compiled hlinks hentry (fun _ => Iff.rfl) (fun _ => rfl) (fun h => absurd h hstrategy)
    (plan_nodes ▸ prefix_append _ _)

variable {d' : Draft}
  (hd : Draws reg wf (taskNodes reg wf) (wf.referencePairs.map fun pair => (.task pair.1, .task pair.2)) "" d)

include hd

theorem compileSequential_compiled (hstrategy : wf.strategy? = some .sequential)
    (hcompile : compileSequential wf d = .ok d') : Compiled reg wf (sortEdges d'.gd) := by
  unfold compileSequential at hcompile
  split at hcompile
  · cases hcompile
  · next first rest horder =>
    have hentry : d.startOf first = plannedEntry reg wf := by
      simp only [plannedEntry, hstrategy, horder, Draft.startOf, hd.starts]
      split <;> rfl
    have hnodes : taskNodes reg wf = (plan reg wf).nodes := by simp [plan_nodes, extraParts, hstrategy]
    rw [hnodes] at hd
    refine (chainTasks_draws (hd.setEntry _) hcompile).compiled_of_ne_custom (by simp [hstrategy]) ?_ hentry.symm
    simp only [planLinks, strategyLinks, hstrategy, orderPairs, horder]

theorem compileParallel_compiled (hstrategy : wf.strategy? = some .parallel)
    (hcompile : compileParallel wf d = .ok d') : Compiled reg wf (sortEdges d'.gd) := by
  cases hcompile
  have hnodes : taskNodes reg wf ++ [(mergeNode wf).id] = (plan reg wf).nodes := by
    simp [plan_nodes, extraParts, hstrategy, partChain, mergeNode]
  have hnode := hd.addNode (mergeNode wf)
  rw [hnodes] at hnode
  refine (foldl_made (D := fun links d => Draws reg wf (plan reg wf).nodes links "" d)
    (f := fun id => [(.task id, .merge)]) ?_ hnode).compiled_of_ne_custom (by simp [hstrategy]) ?_ ?_
  · intro links d id hid hd
    rw [hd.outputOf (mem_sortedKeys.mp hid)]
    exact hd.addLink (.task id) .merge "output" "input"
  · simp only [planLinks, strategyLinks, hstrategy, map_eq_flatMap]
  · simp only [plannedEntry, hstrategy]

theorem compileHierarchical_compiled (hstrategy : wf.strategy? = some .hierarchical)
    (hcompile : compileHierarchical wf d = .ok d') : Compiled reg wf (sortEdges d'.gd) := by
  simp only [compileHierarchical] at hcompile
  split at hcompile
  · cases hcompile
  · split at hcompile
    · cases hcompile
    · next ag hag =>
      cases hcompile
      have hnodes : taskNodes reg wf ++ [(managerNode wf ag).id] = (plan reg wf).nodes := by
        simp [plan_nodes, extraParts, hstrategy, partChain, managerNode]
      have hnode := (hd.addNode (managerNode wf ag)).setEntry (managerNode wf ag).id
      rw [hnodes] at hnode
      refine (foldl_made (D := fun links d => Draws reg wf (plan reg wf).nodes links (managerNode wf ag).id d)
        (f := fun id => [(.manager, .task id), (.task id, .manager)]) ?_ hnode).compiled_of_ne_custom
          (by simp [hstrategy]) ?_ ?_
      · intro links d id hid hd
        rw [hd.startOf (mem_sortedKeys.mp hid), hd.outputOf (mem_sortedKeys.mp hid)]
        have hout := hd.addLink .manager (.task id) "output" "input"
        have hback := hout.addLink (.task id) .manager "output" "input"
        rw [append_assoc] at hback
        exact hback
      · simp only [planLinks, strategyLinks, hstrategy]
      · simp only [plannedEntry, hstrategy]
        rfl

theorem compileCustom_compiled (hstrategy : wf.strategy? = some .custom)
    (hcompile : compileCustom wf d = .ok d') : Compiled reg wf (sortEdges d'.gd) := by
  have hlinks : planLinks wf = (wf.referencePairs.map fun pair => (.task pair.1, .task pair.2)) ++
      wf.dependencyPairs.flatMap (dependencyLinks wf) := by
    simp only [planLinks, strategyLinks, hstrategy]
  -- the ids of the conditional nodes, with and without repetitions
  have hmem : ∀ id, id ∈ (wf.dependencyPairs.flatMap (condIDs wf)).foldl addAbsent (taskNodes reg wf) ↔
      id ∈ (plan reg wf).nodes := by
    intro id
    rw [mem_foldl_addAbsent, plan_nodes, mem_append]
    refine or_congr Iff.rfl ?_
    simp only [extraParts, hstrategy, mem_flatMap, mem_dedup, mem_map, conditionalPairs,
      mem_filter, decide_eq_true_eq, condIDs]
    constructor
    · grind [partChain]
    · rintro ⟨_, ⟨pair, ⟨hpair, hcond⟩, rfl⟩, hid⟩
      exact ⟨pair, hpair, by rwa [if_neg hcond]⟩
  have hdone : ∀ {links entry d'}, Draws reg wf ((wf.dependencyPairs.flatMap (condIDs wf)).foldl addAbsent
      (taskNodes reg wf)) links entry d' → planLinks wf = links → plannedEntry reg wf = entry →
      Compiled reg wf (sortEdges d'.gd) := by
    intro links entry d' hd' hlinks hentry
    exact hd'.compiled hlinks hentry hmem (fun hne => absurd hstrategy hne) (fun _ => nodup_foldl_addAbsent)
      (prefix_foldl_addAbsent _ _)
  unfold compileCustom at hcompile
  split at hcompile
  · next htasks =>
    cases hcompile
    have hnone : wf.dependencyPairs = [] := by
      simp [dependencyPairs, dependencies, htasks, sortedKeys, Dict.keys, Dict.empty]
    grind [plannedEntry]
  · next tasks htasks =>
    have hwired := wireDependencies_all htasks hd
    split at hcompile
    · next taskID hroot =>
      cases hcompile
      have hid := mem_sortedKeys.mp (mem_of_find?_eq_some hroot)
      refine hdone (hwired.setEntry _) hlinks ?_
      rw [hwired.startOf hid]
      simp only [plannedEntry, hstrategy, htasks, hroot, startNode]
    · next hroot =>
      cases hcompile
      exact hdone hwired hlinks (by simp only [plannedEntry, hstrategy, htasks, hroot])

omit hd

theorem compile_compiled (hcompile : compile reg now (some wf) = .ok gd) : Compiled reg wf gd := by
  simp only [compile, bind_eq_ok] at hcompile
  obtain ⟨d, htasks, d', hstrategy, hreturn⟩ := hcompile
  cases hreturn
  have hdone := compileTaskNodes_done (fun id => mem_sortedKeys.mp) now htasks
  have hd := wireTaskReferenceEdges_draws hdone.draws
  grind [compileExecutionStrategy, compileSequential_compiled, compileParallel_compiled, compileHierarchical_compiled,
    compileCustom_compiled]

end petalflow.agent
