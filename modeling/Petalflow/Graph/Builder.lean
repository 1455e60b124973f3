import Petalflow.Graph.Basic

open petalflow.core List

namespace petalflow.graph

open BasicGraph

set_option linter.dupNamespace false in
structure GraphBuilder where
  graph : BasicGraph
  current : List String := []
  errors : List String := []
  entryDefined : Bool := false

/-- A branch of a fan-out with the nodes in sequence behind its first one. -/
structure FanOutBranch where
  entry : Option Node
  nodes : List (Option Node) := []

/-- A call on a builder. A nil node is `none`. -/
inductive BuilderOp where
  | addNode (node : Option Node)
  | edge (node : Option Node)
  | edgeTo (nodeID : String)
  | connect (fromID toID : String)
  | fanOut (nodes : List (Option Node))
  | fanOutTo (nodeIDs : List String)
  | fanOutBranches (branches : List FanOutBranch)
  | merge (mergeNode : Option Node)
  | mergeTo (nodeID : String)
  | branch (nodeID : String)
  | branches (nodeIDs : List String)
  | withNodes (nodes : List (Option Node))

/-- The nodes that have to be there already and that the call makes edges to. -/
def BuilderOp.targets : BuilderOp → List String
  | .edgeTo nodeID | .mergeTo nodeID | .connect _ nodeID => [nodeID]
  | .fanOutTo nodeIDs => nodeIDs
  | _ => []

namespace GraphBuilder

def report (b : GraphBuilder) (err : String) : GraphBuilder := { b with errors := b.errors ++ [err] }

/-- Adds a node and goes on, unless there is none or the graph refuses it. -/
def tryAdd (b : GraphBuilder) (node : Option Node) (nilText : String) (next : Node → GraphBuilder → GraphBuilder) :
    GraphBuilder :=
  match node with
  | none => b.report nilText
  | some node =>
    match b.graph.addNode node with
    | .error err => b.report err.error
    | .ok g => next node { b with graph := g }

/-- Goes on if the node is there. -/
def whenFound (b : GraphBuilder) (what nodeID : String) (next : GraphBuilder → GraphBuilder) : GraphBuilder :=
  if (b.graph.nodeByID nodeID).isSome then next b else b.report s!"{what} {nodeID.quote} not found"

def link (b : GraphBuilder) (source target : String) : GraphBuilder :=
  match b.graph.addEdge source target with
  | .error err => b.report err.error
  | .ok g => { b with graph := g }

/-- Edges from all the given nodes to one, which becomes a further current node. -/
def attach (sources : List String) (target : String) (b : GraphBuilder) : GraphBuilder :=
  let linked := sources.foldl (fun b source => b.link source target) b
  { linked with current := linked.current ++ [target] }

/-- As `attach`, but the node becomes the only current one. -/
def moveTo (target : String) (b : GraphBuilder) : GraphBuilder :=
  attach b.current target { b with current := [] }

/-- The pipeline of the branch with number `i` behind the node `lastID`. -/
def pipeline (i : Nat) : String → List (Option Node) → GraphBuilder → GraphBuilder
  | lastID, [], b => { b with current := b.current ++ [lastID] }
  | lastID, none :: rest, b => pipeline i lastID rest (b.report s!"nil node in branch {i} pipeline")
  | lastID, some node :: rest, b =>
    match b.graph.addNode node with
    | .error err => pipeline i lastID rest (b.report err.error)
    | .ok g => pipeline i node.id rest ({ b with graph := g }.link lastID node.id)

def kindText : NodeKind → String
  | .llm => "llm"
  | .tool => "tool"
  | .router => "router"
  | .merge => "merge"
  | .map => "map"
  | .gate => "gate"
  | .noop => "noop"
  | .filter => "filter"
  | .transform => "transform"
  | .guardian => "guardian"
  | .cache => "cache"
  | .webhookCall => "webhook_call"
  | .webhookTrigger => "webhook_trigger"
  | .human => "human"
  | .conditional => "conditional"
  | .custom name => name

/-- A fan-out from the current nodes, which makes `one` of each of its parts. -/
def fan {α : Type} (what part : String) (parts : List α) (one : List String → GraphBuilder → α → GraphBuilder)
    (b : GraphBuilder) : GraphBuilder :=
  if parts.isEmpty then b.report s!"{what} requires at least one {part}"
  else if b.current.isEmpty then b.report s!"{what} requires a current node"
  else parts.foldl (one b.current) { b with current := [] }

def setExpectedInputs (count : Nat) (node : Node) : Node :=
  { node with mergeCapable := node.mergeCapable.map fun m =>
      if m.expectedInputs = 0 then { m with expectedInputs := count } else m }

def step (b : GraphBuilder) : BuilderOp → GraphBuilder
  | .addNode node => b.tryAdd node "cannot add nil node" fun node b =>
      let b := if b.entryDefined then b
        else { b with graph := (b.graph.setEntry node.id).toOption.getD b.graph, entryDefined := true }
      { b with current := [node.id] }
  | .edge node => b.tryAdd node "cannot add nil node" fun node => moveTo node.id
  | .edgeTo nodeID => b.whenFound "node" nodeID (moveTo nodeID)
  | .connect fromID toID => b.link fromID toID
  | .fanOut nodes => b.fan "FanOut" "node" nodes fun sources b node =>
      b.tryAdd node "cannot add nil node in FanOut" fun node => attach sources node.id
  | .fanOutTo nodeIDs => b.fan "FanOutTo" "node ID" nodeIDs fun sources b nodeID =>
      b.whenFound "node" nodeID (attach sources nodeID)
  | .fanOutBranches branches => b.fan "FanOutBranches" "branch" branches.zipIdx fun sources b (branch, i) =>
      b.tryAdd branch.entry s!"branch {i} has nil entry node" fun entry b =>
        pipeline i entry.id branch.nodes (sources.foldl (fun b source => b.link source entry.id) b)
  | .merge mergeNode => b.tryAdd (mergeNode.map (setExpectedInputs b.current.length)) "cannot merge with nil node"
      fun node => moveTo node.id
  | .mergeTo nodeID => b.whenFound "merge node" nodeID fun b =>
      match b.graph.nodeByID nodeID with
      | some node =>
        if node.kind = .merge then moveTo nodeID b else b.report
          s!"node {nodeID.quote} is not a merge node (kind: {kindText node.kind})"
      | none => b
  | .branch nodeID => b.whenFound "node" nodeID fun b => { b with current := [nodeID] }
  | .branches nodeIDs => nodeIDs.foldl (fun b nodeID =>
      b.whenFound "node" nodeID fun b => { b with current := b.current ++ [nodeID] }) { b with current := [] }
  | .withNodes nodes => nodes.foldl (fun b node => b.tryAdd node "cannot add nil node" fun _ b => b) b

def build (b : GraphBuilder) : Except String BasicGraph :=
  if b.errors.isEmpty then
    match b.graph.validate with
    | .error err => .error s!"graph validation failed: {err.error}"
    | .ok () => .ok b.graph
  else
    let listed := " ".intercalate b.errors
    .error s!"graph builder errors: [{listed}]"

/-- What the parts of all calls keep true of a builder, if edges are only made to nodes that
are open or have just been added. -/
structure Kept (isOpen : String → Prop) (P : GraphBuilder → Prop) : Prop where
  report : ∀ {b err}, P b → P (b.report err)
  current : ∀ {b : GraphBuilder} {current}, P b → P { b with current }
  node : ∀ {b : GraphBuilder} {node g}, P b → b.graph.addNode node = .ok g → isOpen node.id ∧ P { b with graph := g }
  edge : ∀ {b : GraphBuilder} {source target g}, isOpen target → P b → b.graph.addEdge source target = .ok g →
    P { b with graph := g }
  entry : ∀ {b : GraphBuilder} {id}, P b →
    P { b with graph := (b.graph.setEntry id).toOption.getD b.graph, entryDefined := true }

namespace Kept

variable {isOpen : String → Prop} {P : GraphBuilder → Prop} {b : GraphBuilder} {target : String}

theorem foldl {α : Type} {f : GraphBuilder → α → GraphBuilder} {l : List α}
    (hf : ∀ a ∈ l, ∀ {b}, P b → P (f b a)) (hb : P b) : P (l.foldl f b) := by
  induction l generalizing b with
  | nil => exact hb
  | cons a l ih => exact ih (fun c hc => hf c (mem_cons_of_mem _ hc)) (hf a mem_cons_self hb)

variable (h : Kept isOpen P)
include h

theorem link (htarget : isOpen target) {source : String} (hb : P b) : P (b.link source target) := by
  unfold GraphBuilder.link
  split
  · exact h.report hb
  · next hadd => exact h.edge htarget hb hadd

theorem attach (htarget : isOpen target) {sources : List String} (hb : P b) : P (b.attach sources target) :=
  h.current (foldl (fun _ _ _ hb => h.link htarget hb) hb)

theorem moveTo (htarget : isOpen target) (hb : P b) : P (b.moveTo target) := h.attach htarget (h.current hb)

theorem tryAdd {node : Option Node} {text : String} {next : Node → GraphBuilder → GraphBuilder}
    (hnext : ∀ {node b}, isOpen node.id → P b → P (next node b)) (hb : P b) : P (b.tryAdd node text next) := by
  unfold GraphBuilder.tryAdd
  repeat' split
  · exact h.report hb
  · exact h.report hb
  · next hadd => exact hnext (h.node hb hadd).1 (h.node hb hadd).2

theorem whenFound {what nodeID : String} {next : GraphBuilder → GraphBuilder} (hnext : ∀ {b}, P b → P (next b))
    (hb : P b) : P (b.whenFound what nodeID next) := by
  unfold GraphBuilder.whenFound
  split
  · exact hnext hb
  · exact h.report hb

theorem pipeline {i : Nat} {lastID : String} {nodes : List (Option Node)} (hb : P b) :
    P (b.pipeline i lastID nodes) := by
  induction nodes generalizing lastID b with
  | nil => exact h.current hb
  | cons node rest ih =>
    cases node with
    | none => exact ih (h.report hb)
    | some node =>
      unfold GraphBuilder.pipeline
      split
      · exact ih (h.report hb)
      · next hadd => exact ih (h.link (h.node hb hadd).1 (h.node hb hadd).2)

theorem fan {α : Type} {what part : String} {parts : List α} {one : List String → GraphBuilder → α → GraphBuilder}
    (hone : ∀ a ∈ parts, ∀ {sources b}, P b → P (one sources b a)) (hb : P b) : P (b.fan what part parts one) := by
  unfold GraphBuilder.fan
  repeat' split
  · exact h.report hb
  · exact h.report hb
  · exact foldl (fun a ha _ hb => hone a ha hb) (h.current hb)

theorem step {op : BuilderOp} (hopen : ∀ target ∈ op.targets, isOpen target) (hb : P b) : P (b.step op) := by
  cases op with
  | addNode node =>
    rw [GraphBuilder.step]
    refine h.tryAdd ?_ hb
    intro node b _ hb
    refine h.current ?_
    split
    · exact hb
    · exact h.entry hb
  | edge node => exact h.tryAdd h.moveTo hb
  | edgeTo nodeID => exact h.whenFound (h.moveTo (hopen _ mem_cons_self)) hb
  | connect fromID toID => exact h.link (hopen _ mem_cons_self) hb
  | fanOut nodes =>
    rw [GraphBuilder.step]
    refine h.fan ?_ hb
    intro node _ sources b hb
    exact h.tryAdd (fun hnode hb => h.attach hnode hb) hb
  | fanOutTo nodeIDs =>
    rw [GraphBuilder.step]
    refine h.fan ?_ hb
    intro nodeID hid sources b hb
    exact h.whenFound (fun hb => h.attach (hopen nodeID hid) hb) hb
  | fanOutBranches branches =>
    rw [GraphBuilder.step]
    refine h.fan ?_ hb
    rintro ⟨branch, i⟩ _ sources b hb
    refine h.tryAdd ?_ hb
    intro entry b hentry hb
    exact h.pipeline (foldl (fun _ _ _ hb => h.link hentry hb) hb)
  | merge mergeNode => exact h.tryAdd h.moveTo hb
  | mergeTo nodeID =>
    rw [GraphBuilder.step]
    refine h.whenFound ?_ hb
    intro b hb
    repeat' split
    · exact h.moveTo (hopen _ mem_cons_self) hb
    · exact h.report hb
    · exact hb
  | branch nodeID => exact h.whenFound h.current hb
  | branches nodeIDs => exact foldl (fun _ _ _ hb => h.whenFound h.current hb) (h.current hb)
  | withNodes nodes => exact foldl (fun _ _ _ hb => h.tryAdd (fun _ hb => hb) hb) hb

end Kept

theorem kept_wellFormed : Kept (fun _ => True) fun b => b.graph.WellFormed where
  report hb := hb
  current hb := hb
  node hb hadd := ⟨trivial, addNode_wellFormed hb hadd⟩
  edge _ hb hadd := addEdge_wellFormed hb hadd
  entry {b id} hb := by
    cases hset : b.graph.setEntry id with
    | error err => exact hb
    | ok g => exact setEntry_wellFormed hb hset

theorem kept_errors : Kept (fun _ => True) fun b => b.errors ≠ [] where
  report _ := by simp [report]
  current hb := hb
  node hb _ := ⟨trivial, hb⟩
  edge _ hb _ := hb
  entry hb := hb

def Holds (id : String) (found : Node) (predecessors : List String) (b : GraphBuilder) : Prop :=
  b.graph.nodes id = some found ∧ b.graph.predecessors id = predecessors

theorem kept_node (id : String) (found : Node) (predecessors : List String) :
    Kept (· ≠ id) (Holds id found predecessors) where
  report hb := hb
  current hb := hb
  node hb hadd := by
    unfold BasicGraph.addNode at hadd
    split at hadd <;> cases hadd
    grind [Holds]
  edge htarget hb hadd := by
    unfold BasicGraph.addEdge at hadd
    repeat' split at hadd
    all_goals cases hadd
    all_goals grind [Holds]
  entry {b entry} hb := by
    unfold BasicGraph.setEntry
    split <;> exact hb

def run (name : String) (ops : List BuilderOp) : GraphBuilder := ops.foldl step { graph := .newGraph name }

theorem foldl_link {b : GraphBuilder} (target : String) (sources : List String) (hb : b.graph.WellFormed)
    (hnodup : (b.graph.predecessors target ++ sources).Nodup)
    (herrors : (sources.foldl (fun b source => b.link source target) b).errors = []) :
    (sources.foldl (fun b source => b.link source target) b).graph.predecessors target =
        b.graph.predecessors target ++ sources ∧
      (sources.foldl (fun b source => b.link source target) b).graph.nodes = b.graph.nodes := by
  induction sources generalizing b with
  | nil => simp
  | cons source rest ih =>
    rw [foldl_cons] at herrors ⊢
    cases hadd : b.graph.addEdge source target with
    | error err =>
      have hreported : (b.link source target).errors ≠ [] := by simp [link, hadd, report]
      exact absurd herrors
        (Kept.foldl (P := fun b => b.errors ≠ []) (fun _ _ _ hb => kept_errors.link trivial hb) hreported)
    | ok g =>
      have hlink : b.link source target = { b with graph := g } := by simp [link, hadd]
      have hnew : (⟨source, target⟩ : Edge) ∉ b.graph.edges := by
        intro hedge
        refine (nodup_append.mp hnodup).2.2 source ?_ source mem_cons_self rfl
        rw [hb.predecessors_eq]
        exact mem_map.mpr ⟨_, mem_filter.mpr ⟨hedge, by simp⟩, rfl⟩
      have hpredecessors : g.predecessors target = b.graph.predecessors target ++ [source] := by
        unfold BasicGraph.addEdge at hadd
        repeat' split at hadd
        all_goals cases hadd
        all_goals simp_all
      rw [hlink] at herrors ⊢
      have hrest := ih (b := { b with graph := g }) (addEdge_wellFormed hb hadd) (by simp_all) herrors
      rw [hpredecessors] at hrest
      exact ⟨by simpa using hrest.1, hrest.2.trans (addEdge_nodes hadd)⟩

theorem step_merge {b : GraphBuilder} {node : Node} (hb : b.graph.WellFormed) (hnodup : b.current.Nodup)
    (herrors : (b.step (.merge (some node))).errors = []) :
    Holds node.id (setExpectedInputs b.current.length node) b.current (b.step (.merge (some node))) := by
  simp only [step, tryAdd, Option.map_some] at herrors ⊢
  cases hadd : b.graph.addNode (setExpectedInputs b.current.length node) with
  | error err => simp [hadd, report] at herrors
  | ok g =>
    have hwf := addNode_wellFormed hb hadd
    have hfresh : b.graph.nodes node.id = none ∧ g.predecessors = b.graph.predecessors ∧
        g.nodes node.id = some (setExpectedInputs b.current.length node) := by
      unfold BasicGraph.addNode at hadd
      split at hadd <;> cases hadd
      simp_all [setExpectedInputs]
    have hnone : b.graph.predecessors node.id = [] := by
      rw [hb.predecessors_eq, map_eq_nil_iff, filter_eq_nil_iff]
      intro e he htarget
      have hend := (hb.edge_ends e he).2
      rw [of_decide_eq_true htarget, hb.mem_nodeOrder, hfresh.1] at hend
      cases hend
    simp only [hadd] at herrors ⊢
    have hlinked := foldl_link (b := { b with graph := g, current := [] }) node.id b.current hwf
      (by simp [hfresh.2.1, hnone, hnodup]) herrors
    rw [hfresh.2.1, hnone] at hlinked
    exact ⟨(congrFun hlinked.2 node.id).trans hfresh.2.2, hlinked.1⟩

end GraphBuilder

open GraphBuilder (run setExpectedInputs kept_wellFormed kept_errors kept_node Kept)

theorem merge_expects_predecessors (name : String) (before after : List BuilderOp) (node : Node) (merge : MergeCapable)
    (g : BasicGraph) (hmerge : node.mergeCapable = some merge) (hzero : merge.expectedInputs = 0)
    (hbuild : (run name (before ++ .merge (some node) :: after)).build = .ok g)
    (hnodup : (run name before).current.Nodup) (hafter : ∀ op ∈ after, node.id ∉ op.targets) :
    ∃ built counted, g.nodeByID node.id = some built ∧ built.mergeCapable = some counted ∧
      counted.expectedInputs = (g.predecessors node.id).length := by
  have hrun : run name (before ++ .merge (some node) :: after) =
      after.foldl GraphBuilder.step ((run name before).step (.merge (some node))) := by
    simp [run]
  rw [hrun] at hbuild
  unfold GraphBuilder.build at hbuild
  split at hbuild
  · next hempty =>
    have herrors : ((run name before).step (.merge (some node))).errors = [] := by
      by_contra hne
      exact Kept.foldl (P := fun b => b.errors ≠ []) (fun _ _ _ hb => kept_errors.step (fun _ _ => trivial) hb) hne
        (isEmpty_iff.mp hempty)
    have hwf : (run name before).graph.WellFormed :=
      Kept.foldl (P := fun b => b.graph.WellFormed) (fun _ _ _ hb => kept_wellFormed.step (fun _ _ => trivial) hb)
        (newGraph_wellFormed name)
    have hstep := GraphBuilder.step_merge hwf hnodup herrors
    have hkept := Kept.foldl (fun op hop _ hb =>
      (kept_node node.id _ _).step (fun target htarget heq => hafter op hop (heq ▸ htarget)) hb) hstep
    split at hbuild
    · cases hbuild
    · cases hbuild
      refine ⟨_, _, hkept.1, by simp [setExpectedInputs, hmerge, hzero]; rfl, ?_⟩
      rw [hkept.2]
  · cases hbuild

def joinNode : Node :=
  { newNoopNode "m" with kind := .merge, mergeCapable := some { expectedInputs := 0, mergeInputs := none } }

/-- Two branches, which `joinNode` merges. -/
def forked : List BuilderOp := [.addNode (newNoopNode "a"), .fanOut [newNoopNode "b", newNoopNode "c"]]

theorem merge_expects_predecessors_forked :
    ∃ built counted, (run "g" (forked ++ [.merge joinNode])).graph.nodeByID "m" = some built ∧
      built.mergeCapable = some counted ∧
      counted.expectedInputs = ((run "g" (forked ++ [.merge joinNode])).graph.predecessors "m").length :=
  merge_expects_predecessors "g" forked [] joinNode _ _ rfl rfl rfl (by decide) nofun

theorem merge_miscounts :
    (run "g" (forked ++ [.merge joinNode, .connect "a" "m"])).build.toOption.any (fun g =>
      (g.nodeByID "m").any (·.mergeCapable.any (·.expectedInputs = 2)) && (g.predecessors "m").length = 3) = true ∧
    (run "g" (forked ++ [.branches ["b", "b"], .merge joinNode])).build.toOption.any (fun g =>
      (g.nodeByID "m").any (·.mergeCapable.any (·.expectedInputs = 2)) && (g.predecessors "m").length = 1) = true := by
  decide +kernel

/-- Whatever calls are made, a builder returns only graphs that can be run, and none
once one of the calls has failed. -/
theorem build_runnable (name : String) (ops : List BuilderOp) (g : BasicGraph)
    (hbuild : (run name ops).build = .ok g) :
    (∃ g' : Graph, g'.toBasicGraph = g) ∧ ∀ before, before <+: ops → (run name before).errors = [] := by
  have hwf : (run name ops).graph.WellFormed :=
    Kept.foldl (P := fun b => b.graph.WellFormed) (fun _ _ _ hb => kept_wellFormed.step (fun _ _ => trivial) hb)
      (newGraph_wellFormed name)
  unfold GraphBuilder.build at hbuild
  split at hbuild
  · next hempty =>
    split at hbuild
    · cases hbuild
    · next hvalid =>
      cases hbuild
      refine ⟨⟨⟨_, hwf, hvalid⟩, rfl⟩, ?_⟩
      rintro before ⟨after, rfl⟩
      by_contra hne
      rw [run, foldl_append] at hempty
      exact Kept.foldl (P := fun b => b.errors ≠ []) (fun _ _ _ hb => kept_errors.step (fun _ _ => trivial) hb) hne
        (isEmpty_iff.mp hempty)
  · cases hbuild

theorem forked_runnable : ∃ g' : Graph, g'.toBasicGraph = (run "g" forked).graph :=
  (build_runnable "g" forked _ rfl).1

end petalflow.graph
