import Mathlib.Data.String.Basic
import Petalflow.Agent.Wiring

open dict network fold petalflow.graph petalflow.registry List

namespace petalflow.agent

section

open text Relation

variable {reg : Registry} {exprValidator : Option ExprValidator} {wf : AgentWorkflow} {now : String}
  {gd : GraphDefinition}

theorem Accepted.compiles (hwf : Accepted wf) (reg : Registry) (now : String)
    (hmanager : wf.strategy? = some .hierarchical → wf.execution.managerAgent ∈ wf.agents.keys) :
    ∃ gd, compile reg now (some wf) = .ok gd := by
  obtain ⟨d, htasks⟩ := compileTaskNodes_total reg (sortedKeys wf.tasks) hwf.agents (emptyDraft now wf)
  have hdone := compileTaskNodes_done (fun id => mem_sortedKeys.mp) now htasks
  have hd := wireTaskReferenceEdges_draws hdone.draws
  have hstrategy : ∃ d', compileExecutionStrategy wf (wireTaskReferenceEdges wf (sortedKeys wf.tasks) d) = .ok d' := by
    unfold compileExecutionStrategy
    split
    · next hsequential =>
      obtain ⟨hne, hdefined, _⟩ := hwf.order hsequential
      unfold compileSequential
      split
      · next hempty => exact absurd hempty hne
      · next first rest horder => exact chainTasks_total (horder ▸ hdefined) (hd.setEntry _)
    · exact ⟨_, rfl⟩
    · next hhierarchical =>
      have hkey := hmanager hhierarchical
      obtain ⟨ag, hag⟩ := Dict.mem_keys_iff.mp hkey
      have hne : wf.execution.managerAgent ≠ "" := by
        intro hempty
        have hvalid := hwf.agentIDs _ hkey
        rw [hempty] at hvalid
        cases hvalid
      simp only [compileHierarchical, if_neg hne, hag]
      exact ⟨_, rfl⟩
    · grind [compileCustom]
    · next hnone => exact absurd hnone hwf.strategy
  obtain ⟨d', hd'⟩ := hstrategy
  refine ⟨sortEdges d'.gd, ?_⟩
  simp only [compile, bind_eq_ok]
  exact ⟨d, htasks, d', hd', rfl⟩

theorem Compiled.edgesDefined (hgd : Compiled reg wf gd) : gd.EdgesDefined := by
  rintro ⟨a, b⟩ hlink
  obtain ⟨ha, hb⟩ := ((hgd.links a b).mp hlink).mem_nodes
  exact ⟨(hgd.mem_nodeIDs a).mpr ha, (hgd.mem_nodeIDs b).mpr hb⟩

theorem Compiled.startNode_mem (hgd : Compiled reg wf gd) {taskID : String} (hid : taskID ∈ wf.tasks.keys) :
    startNode reg wf taskID ∈ gd.nodeIDs :=
  (hgd.mem_nodeIDs _).mpr (Network.mem_nodes.mpr ⟨.task taskID, task_mem_planUnits hid, Network.first_mem _⟩)

theorem Compiled.entryDefined (hgd : Compiled reg wf gd) : gd.entry = "" ∨ gd.entry ∈ gd.nodeIDs := by
  rw [hgd.entry]
  unfold plannedEntry
  split
  · split
    · exact .inl rfl
    · split
      · next hfirst => exact .inr (hgd.startNode_mem hfirst)
      · exact .inl rfl
  · next hhierarchical =>
    have hmanager : Part.manager ∈ planUnits wf := List.mem_append_right _ (by simp [extraParts, hhierarchical])
    exact .inr ((hgd.mem_nodeIDs _).mpr (Network.mem_nodes.mpr ⟨.manager, hmanager, Network.first_mem _⟩))
  · split
    · exact .inl rfl
    · split
      · next hroot => exact .inr (hgd.startNode_mem (mem_sortedKeys.mp (List.mem_of_find?_eq_some hroot)))
      · exact .inl rfl
  · exact .inl rfl

theorem manager_of_compile {reg : Registry} {now : String} {gd : GraphDefinition}
    (hcompile : compile reg now (some wf) = .ok gd) (hstrategy : wf.strategy? = some .hierarchical) :
    wf.execution.managerAgent ∈ wf.agents.keys := by
  by_contra hmanager
  have hnone : wf.agents.get? wf.execution.managerAgent = none := Dict.get?_eq_none_iff.mpr hmanager
  have hfails : ∀ d, ∃ err, compileHierarchical wf d = .error err := by
    intro d
    simp only [compileHierarchical, hnone]
    split
    · exact ⟨_, rfl⟩
    · exact ⟨_, rfl⟩
  simp only [compile, compileExecutionStrategy, hstrategy, bind, Except.bind] at hcompile
  split at hcompile
  · cases hcompile
  · next d _ =>
    obtain ⟨err, herr⟩ := hfails (wireTaskReferenceEdges wf (sortedKeys wf.tasks) d)
    rw [herr] at hcompile
    cases hcompile

/-- A workflow without errors is compiled, to a graph whose edges and entry name existing
nodes, exactly if a hierarchical execution names a defined manager. -/
theorem validate_sound (reg : Registry) (exprValidator : Option ExprValidator) (now : String) (wf : AgentWorkflow)
    (hok : hasErrors (validate reg exprValidator (some wf)) = false) :
    (∃ gd, compile reg now (some wf) = .ok gd ∧
      reports (gd.validate exprValidator) .gr001 = false ∧ reports (gd.validate exprValidator) .gr007 = false) ↔
    (wf.strategy? = some .hierarchical → wf.execution.managerAgent ∈ wf.agents.keys) := by
  constructor
  · rintro ⟨gd, hcompile, -⟩
    exact manager_of_compile hcompile
  · intro hmanager
    obtain ⟨gd, hcompile⟩ := (accepted_of_validate hok).compiles reg now hmanager
    have hgd := compile_compiled hcompile
    exact ⟨gd, hcompile, GraphDefinition.reports_gr001_iff.mpr hgd.edgesDefined,
      GraphDefinition.reports_gr007_iff.mpr hgd.entryDefined⟩

def writer : Agent := { role := "writer", goal := "write", provider := "openai", model := "gpt-4o" }

def writeTask (agent : String) (context : List String) : Task :=
  { description := "write", agent, expectedOutput := "text", context }

def writers : Dict String Agent where
  entries := [("writer", writer)]
  nodup := by decide

def managed (managerAgent : String) : AgentWorkflow where
  id := "team"
  agents := writers
  tasks := { entries := [("draft", writeTask "writer" [])], nodup := by decide }
  execution := { strategy := "hierarchical", managerAgent }

theorem managed_sound :
    ∃ gd, compile global "2024-01-01T00:00:00Z" (some (managed "writer")) = .ok gd ∧
      reports (gd.validate none) .gr001 = false ∧ reports (gd.validate none) .gr007 = false :=
  (validate_sound global none _ (managed "writer") (by decide +kernel)).mpr (fun _ => by decide +kernel)

/-- The validator does not look at the manager: it may be missing or undefined. -/
theorem unmanaged_rejected :
    (hasErrors (validate global none (some (managed ""))) = false ∧
      (compile global "2024-01-01T00:00:00Z" (some (managed ""))).isOk = false) ∧
    hasErrors (validate global none (some (managed "editor"))) = false ∧
      (compile global "2024-01-01T00:00:00Z" (some (managed "editor"))).isOk = false := by
  decide +kernel

theorem condID_eq (dep task : String) : dep ++ "__cond__" ++ task = dep ++ "__" ++ ("cond__" ++ task) := by
  have hsep : "__cond__" = "__" ++ "cond__" := rfl
  rw [hsep, String.append_assoc, String.append_assoc, String.append_assoc]

theorem mergeID_eq (id : String) : id ++ "__merge" = id ++ "__" ++ "merge" := by
  rw [String.append_assoc]
  rfl

theorem managerID_eq (id manager : String) :
    id ++ "__manager__" ++ manager = id ++ "__" ++ ("manager__" ++ manager) := by
  have hsep : "__manager__" = "__" ++ "manager__" := rfl
  rw [hsep, String.append_assoc, String.append_assoc, String.append_assoc]

variable {a b id : String} {p q : Part}

/-- The owner and the name that the id of a node is joined from. -/
def partNames (reg : Registry) (wf : AgentWorkflow) : Part → List (String × String)
  | .task id => (taskNames reg wf id).map fun name => (id, name)
  | .cond dep task => [(dep, "cond__" ++ task)]
  | .merge => [(wf.id, "merge")]
  | .manager => [(wf.id, "manager__" ++ wf.execution.managerAgent)]

def nodeNames (reg : Registry) (wf : AgentWorkflow) : List (String × String) :=
  (planUnits wf).flatMap (partNames reg wf)

/-- Owners and names stay apart when they are joined: no owner has a name twice, and none has another owner's
id and more, so that what it has more and its name could be the other's name. -/
structure JoinedApart (reg : Registry) (wf : AgentWorkflow) : Prop where
  names : (nodeNames reg wf).Nodup
  owners : ∀ p ∈ nodeNames reg wf, ∀ q ∈ nodeNames reg wf, ∀ more, more ≠ "" → q.1 = p.1 ++ more →
    "__" ++ p.2 ≠ more ++ "__" ++ q.2

theorem partChain_eq (reg : Registry) (wf : AgentWorkflow) (part : Part) :
    partChain reg wf part = (partNames reg wf part).map fun name => name.1 ++ "__" ++ name.2 := by
  cases part with
  | task id => simp [partChain, partNames, Function.comp_def]
  | cond dep task => simp [partChain, partNames, condID_eq]
  | merge => simp [partChain, partNames, mergeID_eq]
  | manager => simp [partChain, partNames, managerID_eq]

theorem join_eq_join {a b x y : String} (hjoin : a ++ "__" ++ x = b ++ "__" ++ y) (hne : a ≠ b) :
    (∃ more, more ≠ "" ∧ b = a ++ more ∧ "__" ++ x = more ++ "__" ++ y) ∨
      ∃ more, more ≠ "" ∧ a = b ++ more ∧ "__" ++ y = more ++ "__" ++ x := by
  rw [← String.toList_inj] at hjoin
  simp only [String.toList_append, append_assoc] at hjoin
  rcases append_eq_append_iff.mp hjoin with ⟨more, hb, hx⟩ | ⟨more, ha, hy⟩
  · refine .inl ⟨.ofList more, ?_, ?_, ?_⟩
    · rintro hempty
      exact hne (by simp_all [← String.toList_inj])
    · simp [← String.toList_inj, hb]
    · rw [← String.toList_inj]
      simpa only [String.toList_append, String.toList_ofList, append_assoc] using hx
  · refine .inr ⟨.ofList more, ?_, ?_, ?_⟩
    · rintro hempty
      exact hne (by simp_all [← String.toList_inj])
    · simp [← String.toList_inj, ha]
    · rw [← String.toList_inj]
      simpa only [String.toList_append, String.toList_ofList, append_assoc] using hy

theorem plan_nodes_nodup_iff : (plan reg wf).nodes.Nodup ↔ JoinedApart reg wf := by
  have hnodes : (plan reg wf).nodes = (nodeNames reg wf).map fun name => name.1 ++ "__" ++ name.2 := by
    rw [nodeNames, map_flatMap]
    exact congrArg (fun chain => (planUnits wf).flatMap chain) (funext (partChain_eq reg wf))
  rw [hnodes]
  constructor
  · intro hnodup
    refine ⟨hnodup.of_map _, fun p hp q hq more hmore howner hname => ?_⟩
    have hjoin : p.1 ++ "__" ++ p.2 = q.1 ++ "__" ++ q.2 := by
      rw [howner, String.append_assoc, hname, String.append_assoc, String.append_assoc, String.append_assoc]
    have hsame := congrArg Prod.fst (inj_on_of_nodup_map hnodup hp hq hjoin)
    rw [howner, ← String.toList_inj, String.toList_append] at hsame
    exact hmore (String.toList_inj.mp (self_eq_append_right.mp hsame))
  · intro hapart
    refine hapart.names.map_on fun p hp q hq hjoin => ?_
    by_cases howner : p.1 = q.1
    · exact Prod.ext howner (by simpa [howner] using hjoin)
    rcases join_eq_join hjoin howner with ⟨more, hmore, hq1, hname⟩ | ⟨more, hmore, hp1, hname⟩
    · exact absurd hname (hapart.owners p hp q hq more hmore hq1)
    · exact absurd hname (hapart.owners q hq p hp more hmore hp1)

theorem Compiled.nodeIDs_nodup_of_apart (hgd : Compiled reg wf gd) (hapart : JoinedApart reg wf) :
    gd.nodeIDs.Nodup := by
  have hnodup : (plan reg wf).nodes.Nodup := plan_nodes_nodup_iff.mpr hapart
  by_cases hcustom : wf.strategy? = some .custom
  · exact hgd.nodup hcustom (hnodup.sublist (plan_nodes ▸ sublist_append_left _ _))
  · rwa [hgd.nodeIDs hcustom]

/-- The nodes of a compiled workflow have ids of their own, one for each node of the plan, exactly if the
owners and names that they are joined from stay apart. -/
theorem nodeIDs_distinct (reg : Registry) (exprValidator : Option ExprValidator) (now : String) (wf : AgentWorkflow)
    (gd : GraphDefinition) (hcompile : compile reg now (some wf) = .ok gd) :
    (gd.nodeIDs.Nodup ∧ gd.nodeIDs.Perm (plan reg wf).nodes ∧ reports (gd.validate exprValidator) .gr005 = false) ↔
      JoinedApart reg wf := by
  have hgd := compile_compiled hcompile
  constructor
  · rintro ⟨hnodup, hperm, _⟩
    exact plan_nodes_nodup_iff.mp (hperm.nodup_iff.mp hnodup)
  · intro hapart
    have hnodup := hgd.nodeIDs_nodup_of_apart hapart
    refine ⟨hnodup, ?_, GraphDefinition.reports_gr005_iff.mpr hnodup⟩
    exact (perm_ext_iff_of_nodup hnodup (plan_nodes_nodup_iff.mpr hapart)).mpr hgd.mem_nodeIDs

/-- A researcher with a tool, and a writer whose text is reviewed and who only
writes if there is a finding. -/
def editorial : AgentWorkflow where
  id := "editorial"
  agents := { entries := [("researcher", { writer with tools := ["tool"] }), ("writer", writer)], nodup := by decide }
  tasks :=
    { entries :=
        [("collect", writeTask "researcher" []), ("draft", { writeTask "writer" ["collect"] with review := "human" })]
      nodup := by decide }
  execution :=
    { strategy := "custom"
      tasks := some
        { entries := [("collect", { dependsOn := [] }),
            ("draft", { dependsOn := ["collect"], condition := "tasks.collect.output.found" })]
          nodup := by decide } }

theorem editorial_accepted : hasErrors (validate global none (some editorial)) = false := by
  decide +kernel

theorem editorial_apart : JoinedApart global editorial := plan_nodes_nodup_iff.mp (by decide +kernel)

theorem editorial_compiles (now : String) : ∃ gd, compile global now (some editorial) = .ok gd :=
  (accepted_of_validate editorial_accepted).compiles global now (by decide +kernel)

theorem editorial_distinct :
    ∃ gd, compile global "2024-01-01T00:00:00Z" (some editorial) = .ok gd ∧ gd.nodeIDs.Nodup ∧
      gd.nodeIDs.Perm (plan global editorial).nodes ∧ reports (gd.validate none) .gr005 = false := by
  obtain ⟨gd, hcompile⟩ := editorial_compiles "2024-01-01T00:00:00Z"
  exact ⟨gd, hcompile, (nodeIDs_distinct global none _ editorial gd hcompile).mpr editorial_apart⟩

/-- Compilation realises the plan: an accepted workflow is compiled to the nodes of its tasks
and of its strategy, linked as references and strategy ask, and to nothing else. -/
theorem compile_realises_plan (reg : Registry) (exprValidator : Option ExprValidator) (now : String)
    (wf : AgentWorkflow) (hok : hasErrors (validate reg exprValidator (some wf)) = false)
    (hmanager : wf.strategy? = some .hierarchical → wf.execution.managerAgent ∈ wf.agents.keys) :
    ∃ gd, compile reg now (some wf) = .ok gd ∧ Compiled reg wf gd := by
  obtain ⟨gd, hcompile⟩ := (accepted_of_validate hok).compiles reg now hmanager
  exact ⟨gd, hcompile, compile_compiled hcompile⟩

theorem editorial_realised : ∃ gd, compile global "now" (some editorial) = .ok gd ∧ Compiled global editorial gd :=
  compile_realises_plan global none "now" editorial editorial_accepted (by decide +kernel)

def twins : AgentWorkflow where
  id := "twins"
  agents := { entries := [("b__c", writer), ("c", writer)], nodup := by decide }
  tasks := { entries := [("a", writeTask "b__c" []), ("a__b", writeTask "c" [])], nodup := by decide }
  execution := { strategy := "parallel" }

def twoTools : AgentWorkflow where
  id := "tools"
  agents := { entries := [("writer", { writer with tools := ["tool", "tool"] })], nodup := by decide }
  tasks := (managed "").tasks
  execution := { strategy := "parallel" }

/-- Both are accepted and compiled to graphs with repeated ids. -/
theorem twins_clash :
    (hasErrors (validate global none (some twins)) = false ∧
      (compile global "2024-01-01T00:00:00Z" (some twins)).toOption.map
        (fun gd => (gd.nodeIDs, reports (gd.validate none) .gr005)) =
      some (["a__b__c", "a__b__c", "twins__merge"], true)) ∧
    hasErrors (validate global none (some twoTools)) = false ∧
      (compile global "2024-01-01T00:00:00Z" (some twoTools)).toOption.map
        (fun gd => (gd.nodeIDs, reports (gd.validate none) .gr005)) =
      some (["draft__tool", "draft__tool", "draft__writer", "tools__merge"], true) := by
  decide +kernel

/-- Without a manager, a link is a pair of tasks in their order, one of the two
ways through the condition of such a pair, or leads from a task to the merge node. -/
inductive OrderedLink (wf : AgentWorkflow) : Part → Part → Prop where
  | task {a b : String} (hpair : (a, b) ∈ wf.precedence) : OrderedLink wf (.task a) (.task b)
  | toCond {a b : String} : OrderedLink wf (.task a) (.cond a b)
  | fromCond {a b : String} (hpair : (a, b) ∈ wf.precedence) : OrderedLink wf (.cond a b) (.task b)
  | merge {a : String} : OrderedLink wf (.task a) .merge

theorem dependencyLinks_ordered (hpair : (a, b) ∈ wf.precedence)
    (hlink : (p, q) ∈ dependencyLinks wf (a, b)) : OrderedLink wf p q := by
  unfold dependencyLinks at hlink
  split at hlink
  · cases mem_singleton.mp hlink
    exact .task hpair
  · simp only [mem_cons, not_mem_nil, or_false] at hlink
    rcases hlink with heq | heq
    · cases heq
      exact .toCond
    · cases heq
      exact .fromCond hpair

theorem link_ordered (hstrategy : wf.strategy? ≠ some .hierarchical) (hlink : (plan reg wf).Link p q) :
    OrderedLink wf p q := by
  rcases mem_append.mp hlink with href | hlink
  · obtain ⟨⟨a, b⟩, hpair, heq⟩ := mem_map.mp href
    cases heq
    exact .task (mem_append_left _ hpair)
  · unfold strategyLinks at hlink
    split at hlink
    · next hsequential =>
      obtain ⟨⟨a, b⟩, hpair, heq⟩ := mem_map.mp hlink
      cases heq
      exact .task (mem_append_right _ (by simpa only [hsequential] using hpair))
    · obtain ⟨a, _, heq⟩ := mem_map.mp hlink
      cases heq
      exact .merge
    · next hhierarchical => exact absurd hhierarchical hstrategy
    · next hcustom =>
      obtain ⟨⟨a, b⟩, hpair, hlink⟩ := mem_flatMap.mp hlink
      exact dependencyLinks_ordered (mem_append_right _ (by simpa only [hcustom] using hpair)) hlink
    · cases hlink

/-- The task that a part belongs to; a condition belongs to the task before it. -/
def Part.owner : Part → String
  | .task id => id
  | .cond dep _ => dep
  | _ => ""

def Part.rank : Part → Nat
  | .task _ => 0
  | _ => 1

theorem plan_acyclic (hstrategy : wf.strategy? ≠ some .hierarchical)
    (hacyclic : dag.Acyclic fun a b => (a, b) ∈ wf.precedence) : dag.Acyclic (plan reg wf).Link := by
  -- nothing comes after the merge node, so that it is on no cycle
  refine .of_inner (.of_lex hacyclic Part.owner Part.rank ?_)
  rintro p q ⟨hlink, r, hnext⟩
  cases link_ordered hstrategy hlink with
  | task hpair | fromCond hpair => exact .inl hpair
  | toCond => exact .inr ⟨rfl, Nat.zero_lt_one⟩
  | merge => cases link_ordered hstrategy hnext

theorem precedence_linked (hpair : (a, b) ∈ wf.precedence) : TransGen (plan reg wf).Link (.task a) (.task b) := by
  rcases mem_append.mp hpair with href | hpair
  · exact .single (mem_append_left _ (mem_map.mpr ⟨(a, b), href, rfl⟩))
  · split at hpair
    · next hsequential =>
      refine .single (mem_append_right _ ?_)
      simp only [strategyLinks, hsequential]
      exact mem_map.mpr ⟨(a, b), hpair, rfl⟩
    · next hcustom =>
      have hmem : ∀ l ∈ dependencyLinks wf (a, b), l ∈ (plan reg wf).links := by
        intro l hl
        refine mem_append_right _ ?_
        simp only [strategyLinks, hcustom]
        exact mem_flatMap.mpr ⟨(a, b), hpair, hl⟩
      unfold dependencyLinks at hmem
      split at hmem
      · exact .single (hmem _ mem_cons_self)
      · exact .tail (.single (hmem _ mem_cons_self)) (hmem _ (mem_cons_of_mem _ mem_cons_self))
    · cases hpair

theorem precedence_acyclic (hacyclic : dag.Acyclic (plan reg wf).Link) :
    dag.Acyclic fun a b => (a, b) ∈ wf.precedence := by
  intro id hcycle
  refine hacyclic (.task id) ?_
  have hpath {a b : String} (hpath : TransGen (fun a b => (a, b) ∈ wf.precedence) a b) :
      TransGen (plan reg wf).Link (.task a) (.task b) := by
    induction hpath with
    | single hpair => exact precedence_linked hpair
    | tail _ hpair ih => exact ih.trans (precedence_linked hpair)
  exact hpath hcycle

/-- A workflow is compiled to an acyclic graph exactly if its plan has no cycle, nodes that are joined to one
id being one. If they stay apart, that is: if the order that the workflow asks for has none, and GR-004 is
reported exactly if it has. -/
theorem compile_acyclic (reg : Registry) (exprValidator : Option ExprValidator) (now : String) (wf : AgentWorkflow)
    (gd : GraphDefinition) (hstrategy : wf.strategy? ≠ some .hierarchical)
    (hcompile : compile reg now (some wf) = .ok gd) :
    (gd.Acyclic ↔ dag.Acyclic (plan reg wf).Edge) ∧
    (JoinedApart reg wf →
      ((gd.Acyclic ∧ reports (gd.validate exprValidator) .gr004 = false) ↔
        dag.Acyclic fun a b => (a, b) ∈ wf.precedence)) ∧
    (gd.Acyclic → dag.Acyclic fun a b => (a, b) ∈ wf.precedence) := by
  have hgd := compile_compiled hcompile
  have hedges : gd.Acyclic ↔ dag.Acyclic (plan reg wf).Edge := by simp only [GraphDefinition.Acyclic, hgd.links]
  have horder (hacyclic : gd.Acyclic) : dag.Acyclic fun a b => (a, b) ∈ wf.precedence :=
    precedence_acyclic (Network.acyclic_link (hedges.mp hacyclic))
  refine ⟨hedges, fun hapart => ⟨fun h => horder h.1, fun hacyclic => ?_⟩, horder⟩
  have hgraph : gd.Acyclic :=
    hedges.mpr (Network.acyclic (plan_nodes_nodup_iff.mpr hapart) (plan_acyclic hstrategy hacyclic))
  exact ⟨hgraph, (GraphDefinition.reports_gr004_iff (hgd.nodeIDs_nodup_of_apart hapart) hgd.edgesDefined).mpr hgraph⟩

theorem editorial_order : dag.Acyclic fun a b => (a, b) ∈ editorial.precedence := by
  have hpairs : ∀ pair ∈ editorial.precedence, pair = ("collect", "draft") := by decide +kernel
  refine .of_rank (fun id => if id = "draft" then 1 else 0) fun a b hpair => ?_
  cases hpairs _ hpair
  decide

theorem editorial_acyclic :
    ∃ gd, compile global "2024-01-01T00:00:00Z" (some editorial) = .ok gd ∧ gd.Acyclic ∧
      reports (gd.validate none) .gr004 = false := by
  obtain ⟨gd, hcompile⟩ := editorial_compiles "2024-01-01T00:00:00Z"
  exact ⟨gd, hcompile, ((compile_acyclic global none _ editorial gd (by decide +kernel) hcompile).2.1
    editorial_apart).mpr editorial_order⟩

def circular (strategy : String) : AgentWorkflow where
  id := "circle"
  agents := writers
  tasks :=
    { entries := [("first", writeTask "writer" ["second"]), ("second", writeTask "writer" ["first"])]
      nodup := by decide }
  execution :=
    { strategy
      taskOrder := ["first", "second"]
      tasks := some
        { entries := [("first", { dependsOn := [] }), ("second", { dependsOn := ["first"] })]
          nodup := by decide } }

/-- The validator looks for cycles among declared dependencies only, not in what tasks refer to. -/
theorem circular_cyclic :
    (["sequential", "parallel", "custom"].map fun strategy =>
      (hasErrors (validate global none (some (circular strategy))),
        (compile global "2024-01-01T00:00:00Z" (some (circular strategy))).toOption.map fun gd =>
          reports (gd.validate none) .gr004)) =
    [(false, some true), (false, some true), (false, some true)] := by
  decide +kernel

def DependsOn (wf : AgentWorkflow) (dep id : String) : Prop :=
  dep ∈ wf.tasks.keys ∧ id ∈ wf.tasks.keys ∧ dep ∈ wf.dependsOn id

theorem reports_cycle_iff {tasks : Dict String TaskDependencies} (htasks : wf.execution.tasks = some tasks)
    (exprValidator : Option ExprValidator) : (∃ d ∈ validateCustom wf exprValidator, d.code = .at007) ↔
      (kahn.run wf.tasks.keys (dependencyEdges wf tasks)).visited < wf.tasks.keys.length := by
  simp only [validateCustom, htasks, mem_append, mem_flatMap, mem_filterMap]
  constructor
  · rintro ⟨d, (⟨_, _, _, _, hd⟩ | hd) | ⟨_, _, hd⟩, hcode⟩
    · grind [errDiag]
    · grind
    · grind [errDiag]
  · intro hless
    rw [if_pos hless]
    exact ⟨_, .inl (.inr (mem_singleton_self _)), rfl⟩

/-- The task is on a cycle of dependencies or behind one. -/
def Blocked (wf : AgentWorkflow) : String → Prop := kahn.Stuck (DependsOn wf)

/-- The id is not of a task, but `execution.tasks` gives it dependencies on tasks, none of which is blocked. -/
def CountedInVain (wf : AgentWorkflow) (id : String) : Prop :=
  id ∉ wf.tasks.keys ∧ (∃ dep ∈ wf.dependsOn id, dep ∈ wf.tasks.keys) ∧ ∀ dep ∈ wf.dependsOn id, ¬ Blocked wf dep

section

variable {edge : String → String → Prop}
  (hedge : ∀ dep id, edge dep id ↔ dep ∈ wf.tasks.keys ∧ dep ∈ wf.dependsOn id)
include hedge

theorem transGen_dependsOn {a b : String} (hb : b ∈ wf.tasks.keys) :
    TransGen edge a b ↔ TransGen (DependsOn wf) a b := by
  refine ⟨fun hpath => ?_, fun hpath => hpath.lift id fun dep id h => (hedge dep id).mpr ⟨h.1, h.2.2⟩⟩
  induction hpath with
  | single hlast =>
    obtain ⟨ha, hdep⟩ := (hedge _ _).mp hlast
    exact .single ⟨ha, hb, hdep⟩
  | tail _ hlast ih =>
    obtain ⟨hmid, hdep⟩ := (hedge _ _).mp hlast
    exact .tail (ih hmid) ⟨hmid, hb, hdep⟩

theorem stuck_iff {id : String} : kahn.Stuck edge id ↔
    if id ∈ wf.tasks.keys then Blocked wf id else ∃ dep ∈ wf.dependsOn id, Blocked wf dep := by
  have hcycle (b : String) : TransGen edge b b ↔ TransGen (DependsOn wf) b b := by
    by_cases hb : b ∈ wf.tasks.keys
    · exact transGen_dependsOn hedge hb
    -- the first task of a path is a defined one
    · refine iff_of_false (fun h => ?_) fun h => ?_
      · obtain ⟨_, hfirst, _⟩ := TransGen.head'_iff.mp h
        exact hb ((hedge _ _).mp hfirst).1
      · obtain ⟨_, hfirst, _⟩ := TransGen.head'_iff.mp h
        exact hb hfirst.1
  have hpath {b id : String} (hid : id ∈ wf.tasks.keys) :
      ReflTransGen edge b id ↔ ReflTransGen (DependsOn wf) b id := by
    simp only [reflTransGen_iff_eq_or_transGen, transGen_dependsOn hedge hid]
  split
  next hid => simp only [Blocked, kahn.Stuck, hcycle, hpath hid]
  next hid =>
    constructor
    · rintro ⟨b, hb, hpathTo⟩
      rw [hcycle] at hb
      rcases hpathTo.cases_tail with rfl | ⟨dep, hto, hlast⟩
      · obtain ⟨_, _, hlast⟩ := TransGen.tail'_iff.mp hb
        exact absurd hlast.2.1 hid
      · obtain ⟨hdefined, hdep⟩ := (hedge _ _).mp hlast
        exact ⟨dep, hdep, b, hb, (hpath hdefined).mp hto⟩
    · rintro ⟨dep, hdep, b, hb, hto⟩
      have hdefined : dep ∈ wf.tasks.keys := by
        rcases hto.cases_tail with rfl | ⟨_, _, hlast⟩
        · obtain ⟨_, _, hlast⟩ := TransGen.tail'_iff.mp hb
          exact hlast.2.1
        · exact hlast.2.1
      exact ⟨b, (hcycle b).mpr hb, .tail ((hpath hdefined).mpr hto) ((hedge _ _).mpr ⟨hdefined, hdep⟩)⟩

end

/-- `validateCustom` reports a cycle exactly if there is one, unless the ids that it counts in vain are
at least as many as the tasks that it does not reach. -/
theorem dependency_cycles_reported (wf : AgentWorkflow) (exprValidator : Option ExprValidator) :
    ((∃ d ∈ validateCustom wf exprValidator, d.code = .at007) ↔ ¬ dag.Acyclic (DependsOn wf)) ↔
      dag.Acyclic (DependsOn wf) ∨
        {id | CountedInVain wf id}.ncard < {id | id ∈ wf.tasks.keys ∧ Blocked wf id}.ncard := by
  have hnot (hacyclic : dag.Acyclic (DependsOn wf)) : {id | id ∈ wf.tasks.keys ∧ Blocked wf id}.ncard = 0 := by
    have hempty : {id | id ∈ wf.tasks.keys ∧ Blocked wf id} = ∅ :=
      Set.eq_empty_of_forall_notMem fun id ⟨_, b, hb, _⟩ => hacyclic b hb
    rw [hempty, Set.ncard_empty]
  suffices hreports : (∃ d ∈ validateCustom wf exprValidator, d.code = .at007) ↔
      {id | CountedInVain wf id}.ncard < {id | id ∈ wf.tasks.keys ∧ Blocked wf id}.ncard by
    rw [hreports]
    by_cases hacyclic : dag.Acyclic (DependsOn wf)
    · simp [hacyclic, hnot]
    · simp [hacyclic]
  cases htasks : wf.execution.tasks with
  | none =>
    have hnone (id : String) : wf.dependsOn id = [] := by
      simp [AgentWorkflow.dependsOn, AgentWorkflow.dependencies, htasks, Dict.empty, Dict.get?]
    have hacyclic : dag.Acyclic (DependsOn wf) :=
      .of_rank (fun _ => 0) fun a b hedge => absurd hedge.2.2 (by simp [hnone])
    exact iff_of_false (by simp [validateCustom, htasks]) (by simp [hnot hacyclic])
  | some tasks =>
    have hedge (dep id : String) :
        (dep, id) ∈ dependencyEdges wf tasks ↔ dep ∈ wf.tasks.keys ∧ dep ∈ wf.dependsOn id := by
      have hkey : dep ∈ wf.dependsOn id → id ∈ tasks.keys := by
        simp only [AgentWorkflow.dependsOn, AgentWorkflow.dependencies, htasks, Option.getD_some, Dict.mem_keys_iff]
        grind
      grind [mem_dependencyEdges]
    have hcount := kahn.visited_lt_iff wf.tasks.nodup
      (fun dep id => Iff.rfl : ∀ dep id, (dep, id) ∈ dependencyEdges wf tasks ↔ _)
      fun dep id h => ((hedge dep id).mp h).1
    have hvain : {id | CountedInVain wf id} = {id | id ∉ wf.tasks.keys ∧
        (∃ dep, (dep, id) ∈ dependencyEdges wf tasks) ∧
        ¬ kahn.Stuck (fun dep id => (dep, id) ∈ dependencyEdges wf tasks) id} := by
      ext id
      have hstuck : kahn.Stuck _ id ↔ _ := stuck_iff hedge
      simp only [hedge] at hstuck
      simp only [CountedInVain, Set.mem_ofPred_eq, hedge]
      grind
    have hblocked : {id | id ∈ wf.tasks.keys ∧ Blocked wf id} = {id | id ∈ wf.tasks.keys ∧
        kahn.Stuck (fun dep id => (dep, id) ∈ dependencyEdges wf tasks) id} := by
      ext id
      have hstuck : kahn.Stuck _ id ↔ _ := stuck_iff hedge
      simp only [Set.mem_ofPred_eq]
      grind
    rw [reports_cycle_iff htasks, hvain, hblocked]
    exact hcount

/-- Tasks `x` and `y` depend on each other, and what is in `others` depends on a third one. -/
def tangled (others : List String) (hnodup : (["x", "y"] ++ others).Nodup) : AgentWorkflow where
  id := "tangled"
  agents := writers
  tasks := { entries := ["a", "x", "y"].map fun id => (id, writeTask "writer" []), nodup := by decide }
  execution :=
    { strategy := "custom"
      tasks := some
        { entries := [("x", { dependsOn := ["y"] }), ("y", { dependsOn := ["x"] })] ++
            others.map fun id => (id, { dependsOn := ["a"] })
          nodup := by simpa [Function.comp_def] using hnodup } }

theorem tangled_cyclic (others : List String) (hnodup : (["x", "y"] ++ others).Nodup) :
    ¬ dag.Acyclic (DependsOn (tangled others hnodup)) := by
  have hedge : DependsOn (tangled others hnodup) "x" "y" ∧ DependsOn (tangled others hnodup) "y" "x" := by
    simp [DependsOn, AgentWorkflow.dependsOn, AgentWorkflow.dependencies, tangled, Dict.get?, Dict.keys, lookup_cons]
  exact fun hacyclic => hacyclic "x" (.tail (.single hedge.1) hedge.2)

/-- Dependencies of tasks that are not defined make up for the tasks that are not reached. -/
theorem dependency_cycle_missed :
    ¬ dag.Acyclic (DependsOn (tangled ["g", "h"] (by decide))) ∧
      (validateCustom (tangled ["g", "h"] (by decide)) none).all (·.code ≠ .at007) = true :=
  ⟨tangled_cyclic _ _, by decide +kernel⟩

end

/-! The node definitions of a compiled workflow. -/

variable {reg : Registry} {wf : AgentWorkflow} {now : String} {gd : GraphDefinition} {d d' : Draft}

/-- The node ids that the prompt of a task is compiled with: those of the tasks
before it in the order of the ids, and that of its own prompt. -/
def promptIDs (reg : Registry) (wf : AgentWorkflow) (taskID : String) (task : Task) : String → Option String :=
  fun id =>
    if id = taskID then some (taskID ++ "__" ++ task.agent)
    else if id ∈ wf.tasks.keys ∧ id < taskID then some (outputNode reg wf id)
    else none

def promptDef (reg : Registry) (wf : AgentWorkflow) (taskID : String) (task : Task) (ag : Agent)
    (fcTools : List String) : NodeDef :=
  { id := taskID ++ "__" ++ task.agent, type := "llm_prompt"
    config := buildTaskLLMConfig task ag (promptIDs reg wf taskID task) fcTools }

variable {β : Type}

theorem sortedKeys_pairwise (d : Dict String β) : (sortedKeys d).Pairwise (· ≤ ·) :=
  pairwise_insertionSort _ _

variable {before rest : List String}

theorem mem_before_iff {d : Dict String β} {key id : String} (hsplit : sortedKeys d = before ++ key :: rest) :
    id ∈ before ↔ id ∈ d.keys ∧ id < key := by
  have hsorted := sortedKeys_pairwise d
  have hnodup : (sortedKeys d).Nodup := sortedKeys_nodup
  rw [hsplit] at hsorted hnodup
  constructor
  · intro hid
    refine ⟨mem_sortedKeys.mp (hsplit ▸ mem_append_left _ hid), ?_⟩
    grind
  · rintro ⟨hid, hlt⟩
    rw [← mem_sortedKeys, hsplit, mem_append, mem_cons] at hid
    grind [rel_of_pairwise_cons]

theorem compileTaskTools_nodes (reg : Registry) (d : Draft) (taskID : String) (ag : Agent) :
    d.gd.nodes ⊆ (compileTaskTools reg d taskID ag).draft.gd.nodes := by
  refine foldl_induction (P := fun _ (pass : ToolPass) => d.gd.nodes ⊆ pass.draft.gd.nodes) ?_ (Subset.refl _)
  intro _ pass toolID _ hsub
  simp only [compileTaskTool]
  split
  · exact hsub
  · split
    · split
      · exact subset_append_of_subset_left _ hsub
      · exact subset_append_of_subset_left _ hsub
    · exact hsub

theorem compileTaskPrompt_nodes (reg : Registry) (d : Draft) (taskID : String) (task : Task) (ag : Agent) :
    d.gd.nodes ⊆ (compileTaskPrompt reg d taskID task ag).gd.nodes ∧
      ∃ fcTools, { id := taskID ++ "__" ++ task.agent, type := "llm_prompt"
                   config := buildTaskLLMConfig task ag (d.setOutput taskID (taskID ++ "__" ++ task.agent)).taskNodeIDs
                     fcTools : NodeDef } ∈ (compileTaskPrompt reg d taskID task ag).gd.nodes := by
  have hsub := compileTaskTools_nodes reg
    ((d.setStart taskID (taskID ++ "__" ++ task.agent)).setOutput taskID (taskID ++ "__" ++ task.agent)) taskID ag
  have houtputs := (compileTaskTools_done reg
    ((d.setStart taskID (taskID ++ "__" ++ task.agent)).setOutput taskID (taskID ++ "__" ++ task.agent))
    taskID ag).outputs
  simp only [compileTaskPrompt]
  generalize compileTaskTools reg _ taskID ag = pass at hsub houtputs
  split
  · refine ⟨subset_append_of_subset_left _ hsub, pass.fcTools, ?_⟩
    rw [houtputs]
    exact mem_append_right _ mem_cons_self
  · refine ⟨subset_append_of_subset_left _ hsub, pass.fcTools, ?_⟩
    simp only [Draft.addEdge, houtputs]
    exact mem_append_right _ mem_cons_self

theorem appendTaskHumanReviewNode_nodes (d : Draft) (taskID : String) (task : Task) (nodeID : String) :
    d.gd.nodes ⊆ (appendTaskHumanReviewNode d taskID task nodeID).gd.nodes := by
  simp only [appendTaskHumanReviewNode]
  split
  · exact subset_append_left _ _
  · exact Subset.refl _

variable {taskID : String}

theorem compileTaskNode_prompt (hsplit : sortedKeys wf.tasks = before ++ taskID :: rest)
    (hd : TasksDone reg wf before d) (task : Task) (ag : Agent) :
    ∃ fcTools, promptDef reg wf taskID task ag fcTools ∈ (compileTaskNode reg d taskID task ag).gd.nodes := by
  obtain ⟨-, fcTools, hprompt⟩ := compileTaskPrompt_nodes reg d taskID task ag
  have hids : (d.setOutput taskID (taskID ++ "__" ++ task.agent)).taskNodeIDs = promptIDs reg wf taskID task := by
    funext id
    by_cases hid : id = taskID
    · simp [Draft.setOutput, promptIDs, hid]
    · simp [Draft.setOutput, promptIDs, Function.update_of_ne hid, if_neg hid, hd.outputs, mem_before_iff hsplit]
  rw [hids] at hprompt
  exact ⟨fcTools, appendTaskHumanReviewNode_nodes _ _ _ _ hprompt⟩

theorem compileTaskNodes_nodes {taskIDs : List String}
    (hcompile : compileTaskNodes reg wf taskIDs d = .ok d') : d.gd.nodes ⊆ d'.gd.nodes := by
  refine foldlM_induction (P := fun _ (d' : Draft) => d.gd.nodes ⊆ d'.gd.nodes) ?_ (Subset.refl _) hcompile
  grind [Subset.trans, compileTaskPrompt_nodes, appendTaskHumanReviewNode_nodes, compileTaskNode]

theorem compileTaskNodes_task (hcompile : compileTaskNodes reg wf (sortedKeys wf.tasks) (emptyDraft now wf) = .ok d)
    (hid : taskID ∈ wf.tasks.keys) :
    ∃ task ag before rest d₁, wf.tasks.get? taskID = some task ∧ wf.agents.get? task.agent = some ag ∧
      sortedKeys wf.tasks = before ++ taskID :: rest ∧ TasksDone reg wf before d₁ ∧
      (compileTaskNode reg d₁ taskID task ag).gd.nodes ⊆ d.gd.nodes := by
  obtain ⟨before, rest, hsplit⟩ := append_of_mem (mem_sortedKeys.mpr hid)
  obtain ⟨task, htask⟩ := Dict.mem_keys_iff.mp hid
  rw [hsplit, compileTaskNodes, foldlM_append, bind_eq_ok] at hcompile
  obtain ⟨d1, hbefore, hcompile⟩ := hcompile
  rw [foldlM_cons, bind_eq_ok] at hcompile
  obtain ⟨d2, hpass, hrest⟩ := hcompile
  have hdefined : ∀ id ∈ before, id ∈ wf.tasks.keys := fun id hmem =>
    mem_sortedKeys.mp (hsplit ▸ mem_append_left _ hmem)
  have hdone := compileTaskNodes_done hdefined now hbefore
  simp only [htask] at hpass
  split at hpass
  · cases hpass
  · next ag hag =>
    cases hpass
    exact ⟨task, ag, before, rest, d1, htask, hag, hsplit, hdone, compileTaskNodes_nodes hrest⟩

theorem wireReference_nodes (dst targetHandle : String) (d : Draft) (ref : String) :
    (wireReference dst targetHandle d ref).gd.nodes = d.gd.nodes := by
  unfold wireReference
  split <;> rfl

theorem wireTaskReferenceEdges_nodes (wf : AgentWorkflow) (taskIDs : List String) (d : Draft) :
    (wireTaskReferenceEdges wf taskIDs d).gd.nodes = d.gd.nodes := by
  have hrefs : ∀ dst targetHandle (refs : List String) (d : Draft),
      (refs.foldl (wireReference dst targetHandle) d).gd.nodes = d.gd.nodes := by
    intro dst targetHandle refs d
    refine foldl_induction (P := fun _ (d' : Draft) => d'.gd.nodes = d.gd.nodes) ?_ rfl
    exact fun _ d' ref _ hd => (wireReference_nodes dst targetHandle d' ref).trans hd
  refine foldl_induction (P := fun _ (d' : Draft) => d'.gd.nodes = d.gd.nodes) ?_ rfl
  intro _ d' taskID _ hd
  refine Eq.trans ?_ hd
  unfold wireTaskReferences
  split
  · rfl
  · refine (hrefs _ _ _ _).trans ?_
    refine foldl_induction (P := fun _ (d1 : Draft) => d1.gd.nodes = d'.gd.nodes) ?_ rfl
    exact fun _ d1 e _ hd1 => (hrefs _ _ _ _).trans hd1

def outputIDs (reg : Registry) (wf : AgentWorkflow) : String → Option String :=
  fun id => if id ∈ wf.tasks.keys then some (outputNode reg wf id) else none

def compiledCondition (reg : Registry) (wf : AgentWorkflow) (taskID : String) : String :=
  rewriteConditionExpr (wf.condition taskID) (outputIDs reg wf)

theorem startNode_toList (hwf : Accepted wf) (htask : taskID ∈ wf.tasks.keys) :
    ∃ c cs, (startNode reg wf taskID).toList = c :: cs ∧ c.isLower = true ∧ '_' ∈ cs := by
  obtain ⟨name, _, hname⟩ := mem_map.mp (Network.first_mem (n := plan reg wf) (.task taskID))
  have hvalid := hwf.taskIDs taskID htask
  have hstart : startNode reg wf taskID = taskID ++ "__" ++ name := hname.symm
  unfold isValidID at hvalid
  cases hid : taskID.toList with
  | nil => simp [hid] at hvalid
  | cons c cs =>
    simp only [hid, Bool.and_eq_true] at hvalid
    grind [String.toList_append]

def conditionDef (reg : Registry) (wf : AgentWorkflow) (dep taskID : String) : NodeDef :=
  conditionalNode (dep ++ "__cond__" ++ taskID) (startNode reg wf taskID) (compiledCondition reg wf taskID)

structure AddsConditions (reg : Registry) (wf : AgentWorkflow) (nodes : List NodeDef) (d : Draft) : Prop where
  outputs : d.taskNodeIDs = outputIDs reg wf
  starts : ∀ id ∈ wf.tasks.keys, d.startOf id = startNode reg wf id
  kept : nodes.Sublist d.gd.nodes
  added : ∀ nd ∈ d.gd.nodes, nd ∈ nodes ∨ ∃ pair ∈ wf.conditionalPairs, nd = conditionDef reg wf pair.1 pair.2

variable {nodes : List NodeDef}

theorem wireDependency_adds (htask : taskID ∈ wf.tasks.keys) (hd : AddsConditions reg wf nodes d) {depID : String}
    (hdepends : depID ∈ wf.dependsOn taskID) :
    AddsConditions reg wf nodes (wireDependency taskID (wf.condition taskID) d depID) := by
  unfold wireDependency
  split
  · exact hd
  · next srcNode hsrc =>
    have hdep : depID ∈ wf.tasks.keys := by
      by_contra hnot
      simp [hd.outputs, outputIDs, hnot] at hsrc
    simp only [hd.starts taskID htask, hd.outputs]
    split
    · exact { hd with }
    next hcond =>
      split
      · exact { hd with }
      · refine ⟨hd.outputs, hd.starts, hd.kept.trans (sublist_append_left _ _), ?_⟩
        intro nd hnd
        rcases mem_append.mp hnd with hold | hnew
        · exact hd.added nd hold
        · have hpair := wf.mem_dependencyPairs.mpr ⟨hdepends, hdep, htask⟩
          exact .inr ⟨(depID, taskID), mem_filter.mpr ⟨hpair, decide_eq_true hcond⟩, mem_singleton.mp hnew⟩

theorem wireDependencies_adds {tasks : Dict String TaskDependencies} (htasks : wf.execution.tasks = some tasks)
    (taskID : String) (hd : AddsConditions reg wf nodes d) :
    AddsConditions reg wf nodes (wireDependencies tasks d taskID) := by
  have hdependencies : wf.dependencies = tasks := by rw [AgentWorkflow.dependencies, htasks]; rfl
  unfold wireDependencies
  split
  · exact hd
  · next deps hdeps =>
    split
    · exact hd
    · next hsome =>
      have htask : taskID ∈ wf.tasks.keys := by
        by_contra hnot
        simp [hd.outputs, outputIDs, hnot] at hsome
      have hcond : deps.condition = wf.condition taskID := by simp [AgentWorkflow.condition, hdependencies, hdeps]
      have hdepends : deps.dependsOn = wf.dependsOn taskID := by simp [AgentWorkflow.dependsOn, hdependencies, hdeps]
      rw [hcond, hdepends]
      refine foldl_induction (P := fun _ d' => AddsConditions reg wf nodes d') ?_ hd
      exact fun _ d' dep hdep hd' => wireDependency_adds htask hd' hdep

theorem compileCustom_adds (hd : AddsConditions reg wf nodes d) (hcompile : compileCustom wf d = .ok d') :
    AddsConditions reg wf nodes d' := by
  unfold compileCustom at hcompile
  split at hcompile
  · cases hcompile
    exact hd
  · next tasks htasks =>
    have hall : AddsConditions reg wf nodes ((sortedKeys tasks).foldl (wireDependencies tasks) d) := by
      refine foldl_induction (P := fun _ d' => AddsConditions reg wf nodes d') ?_ hd
      exact fun _ d' taskID _ hd' => wireDependencies_adds htasks taskID hd'
    split at hcompile
    · cases hcompile
      exact { hall with }
    · cases hcompile
      exact hall

theorem chainTasks_nodes {order : List String} (hchain : chainTasks order d = .ok d') : d'.gd.nodes = d.gd.nodes := by
  induction order generalizing d with
  | nil =>
    cases hchain
    rfl
  | cons first rest ih =>
    cases rest with
    | nil =>
      cases hchain
      rfl
    | cons second rest =>
      unfold chainTasks at hchain
      grind [Draft.addEdge]

theorem compileSequential_nodes (hcompile : compileSequential wf d = .ok d') : d.gd.nodes ⊆ d'.gd.nodes := by
  unfold compileSequential at hcompile
  split at hcompile
  · cases hcompile
  · rw [chainTasks_nodes hcompile]
    exact Subset.refl _

theorem compileParallel_nodes (hcompile : compileParallel wf d = .ok d') : d.gd.nodes ⊆ d'.gd.nodes := by
  cases hcompile
  refine foldl_induction (P := fun _ (d' : Draft) => d.gd.nodes ⊆ d'.gd.nodes) ?_ (subset_append_left _ _)
  exact fun _ d' taskID _ hsub => hsub

theorem compileHierarchical_nodes (hcompile : compileHierarchical wf d = .ok d') : d.gd.nodes ⊆ d'.gd.nodes := by
  simp only [compileHierarchical] at hcompile
  split at hcompile
  · cases hcompile
  · split at hcompile
    · cases hcompile
    · cases hcompile
      refine foldl_induction (P := fun _ (d' : Draft) => d.gd.nodes ⊆ d'.gd.nodes) ?_ (subset_append_left _ _)
      exact fun _ d' taskID _ hsub => hsub

theorem wireTaskReferenceEdges_adds
    (htasks : compileTaskNodes reg wf (sortedKeys wf.tasks) (emptyDraft now wf) = .ok d) :
    AddsConditions reg wf d.gd.nodes (wireTaskReferenceEdges wf (sortedKeys wf.tasks) d) := by
  have hdone := compileTaskNodes_done (fun id => mem_sortedKeys.mp) now htasks
  have hdraws := wireTaskReferenceEdges_draws hdone.draws
  have hnodes := wireTaskReferenceEdges_nodes wf (sortedKeys wf.tasks) d
  refine ⟨funext hdraws.outputs, fun id hid => hdraws.startOf hid, ?_, ?_⟩
  · rw [hnodes]
  simp_all

variable (hcompile : compile reg now (some wf) = .ok gd)
include hcompile

theorem compile_draft : ∃ d d', compileTaskNodes reg wf (sortedKeys wf.tasks) (emptyDraft now wf) = .ok d ∧
      compileExecutionStrategy wf (wireTaskReferenceEdges wf (sortedKeys wf.tasks) d) = .ok d' ∧
      gd.nodes = d'.gd.nodes ∧
      AddsConditions reg wf d.gd.nodes (wireTaskReferenceEdges wf (sortedKeys wf.tasks) d) := by
  simp only [compile, bind_eq_ok] at hcompile
  obtain ⟨d, htasks, d', hstrategy, hreturn⟩ := hcompile
  cases hreturn
  exact ⟨d, d', htasks, hstrategy, rfl, wireTaskReferenceEdges_adds htasks⟩

theorem compile_keeps :
    ∃ d, compileTaskNodes reg wf (sortedKeys wf.tasks) (emptyDraft now wf) = .ok d ∧ d.gd.nodes ⊆ gd.nodes := by
  obtain ⟨d, d', htasks, hstrategy, hnodes, hadds⟩ := compile_draft hcompile
  refine ⟨d, htasks, ?_⟩
  rw [hnodes]
  unfold compileExecutionStrategy at hstrategy
  split at hstrategy
  · exact Subset.trans hadds.kept.subset (compileSequential_nodes hstrategy)
  · exact Subset.trans hadds.kept.subset (compileParallel_nodes hstrategy)
  · exact Subset.trans hadds.kept.subset (compileHierarchical_nodes hstrategy)
  · exact (compileCustom_adds hadds hstrategy).kept.subset
  · cases hstrategy

theorem compile_prompt (hid : taskID ∈ wf.tasks.keys) :
    ∃ task ag fcTools, wf.tasks.get? taskID = some task ∧ wf.agents.get? task.agent = some ag ∧
      promptDef reg wf taskID task ag fcTools ∈ gd.nodes := by
  obtain ⟨d, htasks, hkept⟩ := compile_keeps hcompile
  obtain ⟨task, ag, before, rest, d₁, htask, hag, hsplit, hdone, hnodes⟩ := compileTaskNodes_task htasks hid
  obtain ⟨fcTools, hprompt⟩ := compileTaskNode_prompt hsplit hdone task ag
  exact ⟨task, ag, fcTools, htask, hag, hkept (hnodes hprompt)⟩

def reviewDef (taskID : String) (task : Task) : NodeDef :=
  { id := taskID ++ "__" ++ task.agent ++ "__hitl", type := "human"
    config := [("mode", .str "approval"), ("task_id", .str taskID)] }

theorem compile_review {task : Task} (htask : wf.tasks.get? taskID = some task) (hreview : task.review = "human") :
    reviewDef taskID task ∈ gd.nodes := by
  obtain ⟨d, htasks, hkept⟩ := compile_keeps hcompile
  obtain ⟨task', ag, _, _, d₁, htask', _, _, _, hnodes⟩ :=
    compileTaskNodes_task htasks (Dict.mem_keys_iff.mpr ⟨task, htask⟩)
  cases htask.symm.trans htask'
  apply hkept
  apply hnodes
  simp only [compileTaskNode, appendTaskHumanReviewNode, if_pos hreview]
  exact mem_append_right _ mem_cons_self

omit hcompile

theorem compile_taskNodes (hcustom : wf.strategy? = some .custom) (hcompile : compile reg now (some wf) = .ok gd) :
    (taskNodes reg wf).Sublist gd.nodeIDs := by
  obtain ⟨d, d', htasks, hstrategy, hnodes, hadds⟩ := compile_draft hcompile
  have hdone := compileTaskNodes_done (fun id => mem_sortedKeys.mp) now htasks
  simp only [compileExecutionStrategy, hcustom] at hstrategy
  rw [taskNodes, ← hdone.nodeIDs, GraphDefinition.nodeIDs, GraphDefinition.nodeIDs, hnodes]
  exact (compileCustom_adds hadds hstrategy).kept.map _

theorem compile_condition (hapart : JoinedApart reg wf) (hcustom : wf.strategy? = some .custom)
    (hcompile : compile reg now (some wf) = .ok gd) {dep : String} (hpair : (dep, taskID) ∈ wf.dependencyPairs)
    (hcond : wf.condition taskID ≠ "") : conditionDef reg wf dep taskID ∈ gd.nodes := by
  have hnodup : (plan reg wf).nodes.Nodup := plan_nodes_nodup_iff.mpr hapart
  have hgd := compile_compiled hcompile
  obtain ⟨d, d', htasks, hstrategy, hnodes, hadds⟩ := compile_draft hcompile
  simp only [compileExecutionStrategy, hcustom] at hstrategy
  have hadded := compileCustom_adds hadds hstrategy
  have hunit : ∀ pair ∈ wf.conditionalPairs, Part.cond pair.1 pair.2 ∈ extraParts wf := by
    intro pair hmem
    simp only [extraParts, hcustom, mem_dedup]
    exact mem_map.mpr ⟨pair, hmem, rfl⟩
  have hmem := hunit (dep, taskID) (mem_filter.mpr ⟨hpair, by simpa using hcond⟩)
  have hchain : dep ++ "__cond__" ++ taskID ∈ (extraParts wf).flatMap (partChain reg wf) :=
    mem_flatMap.mpr ⟨_, hmem, mem_cons_self⟩
  -- some node has the id, and only the conditional node can
  obtain ⟨nd, hnd, hid⟩ := mem_map.mp ((hgd.mem_nodeIDs _).mpr (plan_nodes ▸ mem_append_right _ hchain))
  rcases hadded.added nd (hnodes ▸ hnd) with hold | ⟨pair, hother, rfl⟩
  · have hdone := compileTaskNodes_done (fun id => mem_sortedKeys.mp) now htasks
    have hnode : nd.id ∈ taskNodes reg wf := by
      rw [taskNodes, ← hdone.nodeIDs]
      exact mem_map_of_mem hold
    rw [plan_nodes] at hnodup
    exact absurd (hid ▸ hchain) (disjoint_of_nodup_append hnodup hnode)
  · have hsame : Part.cond pair.1 pair.2 = .cond dep taskID :=
      Network.unit_unique hnodup (mem_append_right _ (hunit pair hother)) (mem_append_right _ hmem)
        (hid ▸ mem_cons_self) mem_cons_self
    cases hsame
    exact hnd

end petalflow.agent
