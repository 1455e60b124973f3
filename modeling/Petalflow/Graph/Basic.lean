import Petalflow.Core.Envelope
import Petalflow.Lib.Fold
import Petalflow.Lib.Kahn

open petalflow.core fold List

namespace petalflow.graph

section

open Option

structure Edge where
  fromNode : String
  toNode : String
deriving DecidableEq, Repr

inductive GraphError where
  | nodeNotFound (id : String)
  | duplicateNode (id : String)
  | sourceNotFound (id : String)
  | targetNotFound (id : String)
  | noEntryNode
  | emptyGraph
  | entryNotFound (id : String)
deriving DecidableEq, Repr

def GraphError.error : GraphError → String
  | nodeNotFound id => s!"node not found: {id}"
  | duplicateNode id => s!"duplicate node ID: {id}"
  | sourceNotFound id => s!"invalid edge: source node {id.quote} not found"
  | targetNotFound id => s!"invalid edge: target node {id.quote} not found"
  | noEntryNode => "no entry node defined"
  | emptyGraph => "graph has no nodes"
  | entryNotFound id => s!"node not found: entry node {id.quote}"

/-- The stored graph. `nodeOrder` keeps the order of insertion. -/
structure BasicGraph where
  name : String
  nodes : String → Option Node
  nodeOrder : List String
  edges : List Edge
  successors : String → List String
  predecessors : String → List String
  entry : String

namespace BasicGraph

def newGraph (name : String) : BasicGraph :=
  { name, nodes := fun _ => none, nodeOrder := [], edges := [], successors := fun _ => [],
    predecessors := fun _ => [], entry := "" }

def nodeByID (g : BasicGraph) (id : String) : Option Node := g.nodes id

def addNode (g : BasicGraph) (node : Node) : Except GraphError BasicGraph :=
  if (g.nodes node.id).isSome then .error (.duplicateNode node.id)
  else .ok { g with
    nodes := Function.update g.nodes node.id (some node)
    nodeOrder := g.nodeOrder ++ [node.id] }

def addEdge (g : BasicGraph) (source target : String) : Except GraphError BasicGraph :=
  if (g.nodes source).isNone then .error (.sourceNotFound source)
  else if (g.nodes target).isNone then .error (.targetNotFound target)
  else if ⟨source, target⟩ ∈ g.edges then .ok g
  else .ok { g with
    edges := g.edges ++ [⟨source, target⟩]
    successors := Function.update g.successors source (g.successors source ++ [target])
    predecessors := Function.update g.predecessors target (g.predecessors target ++ [source]) }

def setEntry (g : BasicGraph) (nodeID : String) : Except GraphError BasicGraph :=
  if (g.nodes nodeID).isNone then .error (.nodeNotFound nodeID)
  else .ok { g with entry := nodeID }

def validate (g : BasicGraph) : Except GraphError Unit :=
  if g.nodeOrder = [] then .error .emptyGraph
  else if g.entry = "" then .error .noEntryNode
  else if (g.nodes g.entry).isNone then .error (.entryNotFound g.entry)
  else .ok ()

theorem validate_eq_ok (g : BasicGraph) (hvalid : g.validate.isOk = true) : g.validate = .ok () := by
  cases hresult : g.validate with
  | error err => rw [hresult] at hvalid; cases hvalid
  | ok _ => rfl

/-- What the building operations keep true: the node map and the adjacency maps
agree with the node and edge lists, which have no repetitions. -/
structure WellFormed (g : BasicGraph) : Prop where
  nodeOrder_nodup : g.nodeOrder.Nodup
  mem_nodeOrder : ∀ id, id ∈ g.nodeOrder ↔ (g.nodes id).isSome
  node_id : ∀ id node, g.nodes id = some node → node.id = id
  edges_nodup : g.edges.Nodup
  edge_ends : ∀ e ∈ g.edges, e.fromNode ∈ g.nodeOrder ∧ e.toNode ∈ g.nodeOrder
  successors_eq : ∀ id, g.successors id = (g.edges.filter (·.fromNode = id)).map (·.toNode)
  predecessors_eq : ∀ id, g.predecessors id = (g.edges.filter (·.toNode = id)).map (·.fromNode)

theorem newGraph_wellFormed (name : String) : (newGraph name).WellFormed where
  nodeOrder_nodup := nodup_nil
  mem_nodeOrder := by simp [newGraph]
  node_id := by simp [newGraph]
  edges_nodup := nodup_nil
  edge_ends := by simp [newGraph]
  successors_eq := by simp [newGraph]
  predecessors_eq := by simp [newGraph]

theorem addNode_wellFormed {g g' : BasicGraph} {node : Node} (hg : g.WellFormed)
    (hadd : g.addNode node = .ok g') : g'.WellFormed := by
  unfold addNode at hadd
  split at hadd
  · cases hadd
  · next hnew =>
    cases hadd
    have hfresh : node.id ∉ g.nodeOrder := by
      rw [hg.mem_nodeOrder]
      exact hnew
    refine { hg with nodeOrder_nodup := ?_, mem_nodeOrder := ?_, node_id := ?_, edge_ends := ?_ }
    · exact nodup_append.mpr ⟨hg.nodeOrder_nodup, nodup_singleton _, by grind⟩
    · intro id
      by_cases hid : id = node.id
      · simp [hid]
      · simp [hid, hg.mem_nodeOrder]
    · intro id found hfound
      by_cases hid : id = node.id
      · simp_all
      · simp only [Function.update_of_ne hid] at hfound
        exact hg.node_id id found hfound
    · intro e he
      obtain ⟨hfrom, hto⟩ := hg.edge_ends e he
      exact ⟨mem_append_left _ hfrom, mem_append_left _ hto⟩

variable {g g' : BasicGraph} {source target : String}

theorem addEdge_wellFormed (hg : g.WellFormed) (hadd : g.addEdge source target = .ok g') : g'.WellFormed := by
  unfold addEdge at hadd
  split at hadd
  · cases hadd
  · next hsource =>
    split at hadd
    · cases hadd
    · next htarget =>
      split at hadd
      · cases hadd
        exact hg
      · next hnew =>
        cases hadd
        refine { hg with edges_nodup := ?_, edge_ends := ?_, successors_eq := ?_, predecessors_eq := ?_ }
        · exact nodup_append.mpr ⟨hg.edges_nodup, nodup_singleton _, by grind⟩
        · intro e he
          rw [mem_append, mem_singleton] at he
          rcases he with he | rfl
          · exact hg.edge_ends e he
          · rw [hg.mem_nodeOrder, hg.mem_nodeOrder, isSome_iff_ne_none, isSome_iff_ne_none]
            exact ⟨by simpa using hsource, by simpa using htarget⟩
        · intro id
          by_cases hid : id = source
          · subst hid
            simp [hg.successors_eq]
          · simp [hid, Ne.symm hid, hg.successors_eq]
        · intro id
          by_cases hid : id = target
          · subst hid
            simp [hg.predecessors_eq]
          · simp [hid, Ne.symm hid, hg.predecessors_eq]

variable {nodeID : String}

theorem setEntry_wellFormed (hg : g.WellFormed) (hset : g.setEntry nodeID = .ok g') : g'.WellFormed := by
  unfold setEntry at hset
  split at hset
  · cases hset
  · cases hset
    exact { hg with }

def build (name : String) (nodes : List Node) (edges : List Edge) (entry : String) :
    Except GraphError BasicGraph := do
  let g ← nodes.foldlM addNode (newGraph name)
  let g ← edges.foldlM (fun g e => g.addEdge e.fromNode e.toNode) g
  g.setEntry entry

variable {name entry : String} {nodes : List Node} {edges : List Edge}

theorem build_invariant {P : BasicGraph → Prop} (hbuild : build name nodes edges entry = .ok g)
    (hnew : P (newGraph name)) (hnode : ∀ g, ∀ node ∈ nodes, ∀ g', P g → g.addNode node = .ok g' → P g')
    (hedge : ∀ g source target g', P g → g.addEdge source target = .ok g' → P g')
    (hentry : ∀ g nodeID g', P g → g.setEntry nodeID = .ok g' → P g') : P g := by
  simp only [build, bind_eq_ok] at hbuild
  obtain ⟨g₁, hnodes, g₂, hedges, hset⟩ := hbuild
  have hg₁ : P g₁ := foldlM_induction (P := fun _ g => P g) (fun _ g node hmem g' => hnode g node hmem g') hnew hnodes
  have hg₂ : P g₂ := foldlM_induction (P := fun _ g => P g)
    (fun _ g e _ g' => hedge g e.fromNode e.toNode g') hg₁ hedges
  exact hentry g₂ entry g hg₂ hset

theorem build_wellFormed (hbuild : build name nodes edges entry = .ok g) : g.WellFormed :=
  build_invariant hbuild (newGraph_wellFormed name) (fun _ _ _ _ => addNode_wellFormed)
    (fun _ _ _ _ => addEdge_wellFormed) (fun _ _ _ => setEntry_wellFormed)

variable {id : String} {node : Node}

theorem addNode_nodes {added : Node} (hadd : g.addNode added = .ok g') (hfound : g'.nodes id = some node) :
    added = node ∨ g.nodes id = some node := by
  unfold addNode at hadd
  split at hadd
  · cases hadd
  · cases hadd
    grind

theorem addEdge_nodes (hadd : g.addEdge source target = .ok g') : g'.nodes = g.nodes := by
  grind [addEdge]

theorem setEntry_nodes (hset : g.setEntry nodeID = .ok g') : g'.nodes = g.nodes := by
  grind [setEntry]

theorem build_nodes (hbuild : build name nodes edges entry = .ok g) (hfound : g.nodeByID id = some node) :
    node ∈ nodes := by
  have hall : ∀ id node, g.nodes id = some node → node ∈ nodes := by
    refine build_invariant (P := fun g => ∀ id node, g.nodes id = some node → node ∈ nodes) hbuild
      (by simp [newGraph]) ?_ ?_ ?_
    · intro g added hadded g' hg hadd id node hfound
      rcases addNode_nodes hadd hfound with rfl | hold
      · exact hadded
      · exact hg id node hold
    · intro g source target g' hg hadd
      rwa [addEdge_nodes hadd]
    · intro g nodeID g' hg hset
      rwa [setEntry_nodes hset]
  exact hall id node hfound

end BasicGraph

/-- A graph that can be run: built by the operations above and accepted by
`validate`. -/
structure Graph extends BasicGraph where
  wellFormed : toBasicGraph.WellFormed
  valid : toBasicGraph.validate = .ok ()

instance : Coe Graph BasicGraph := ⟨Graph.toBasicGraph⟩

namespace Graph

def build? (nodes : List Node) (edges : List Edge) (entry : String) : Option Graph :=
  match hbuild : BasicGraph.build "graph" nodes edges entry with
  | .error _ => none
  | .ok g =>
    match hvalid : g.validate with
    | .error _ => none
    | .ok () => some { g with wellFormed := BasicGraph.build_wellFormed hbuild, valid := hvalid }

variable {id : String} {node : Node}

theorem build?_nodes {nodes : List Node} {edges : List graph.Edge} {entry : String}
    (hsome : (build? nodes edges entry).isSome)
    (hfound : ((build? nodes edges entry).get hsome).nodeByID id = some node) : node ∈ nodes := by
  grind [build?, BasicGraph.build_nodes]

variable (g : Graph)

theorem entry_mem : g.entry ∈ g.nodeOrder := by
  have hvalid := g.valid
  unfold BasicGraph.validate at hvalid
  rw [g.wellFormed.mem_nodeOrder, isSome_iff_ne_none]
  grind

def Edge (a b : String) : Prop := b ∈ g.successors a

variable {g} {a b : String}

theorem edge_iff : g.Edge a b ↔ (⟨a, b⟩ : graph.Edge) ∈ g.edges := by
  rw [Edge, g.wellFormed.successors_eq]
  simp only [List.mem_map, mem_filter, decide_eq_true_eq]
  constructor
  · rintro ⟨⟨x, y⟩, ⟨he, rfl⟩, rfl⟩
    exact he
  grind

theorem edge_iff_mem_predecessors : g.Edge a b ↔ a ∈ g.predecessors b := by
  rw [edge_iff, g.wellFormed.predecessors_eq]
  simp only [List.mem_map, mem_filter, decide_eq_true_eq]
  constructor
  · grind
  · rintro ⟨⟨x, y⟩, ⟨he, rfl⟩, rfl⟩
    exact he

theorem Edge.mem_nodeOrder (h : g.Edge a b) : a ∈ g.nodeOrder ∧ b ∈ g.nodeOrder :=
  g.wellFormed.edge_ends _ (edge_iff.mp h)

theorem mem_nodeOrder_of_node (hnode : g.nodeByID id = some node) : id ∈ g.nodeOrder := by
  rw [g.wellFormed.mem_nodeOrder]
  exact isSome_of_mem hnode

theorem exists_node (hid : id ∈ g.nodeOrder) : ∃ node, g.nodeByID id = some node ∧ node.id = id := by
  obtain ⟨node, hnode⟩ := isSome_iff_exists.mp ((g.wellFormed.mem_nodeOrder id).mp hid)
  exact ⟨node, hnode, g.wellFormed.node_id id node hnode⟩

variable (g)

theorem successors_nodup (id : String) : (g.successors id).Nodup := by
  rw [g.wellFormed.successors_eq]
  refine Nodup.map_on ?_ (g.wellFormed.edges_nodup.filter _)
  rintro ⟨x, y⟩ hx ⟨x', y'⟩ hx' rfl
  simp_all

theorem predecessors_nodup (id : String) : (g.predecessors id).Nodup := by
  rw [g.wellFormed.predecessors_eq]
  refine Nodup.map_on ?_ (g.wellFormed.edges_nodup.filter _)
  rintro ⟨x, y⟩ hx ⟨x', y'⟩ hx' rfl
  simp_all

theorem successors_length_le (id : String) : (g.successors id).length ≤ g.edges.length := by
  rw [g.wellFormed.successors_eq, length_map]
  exact length_filter_le _ _

end Graph

end

open Relation

/-- The calls that build a graph. A node may be nil. -/
inductive GraphOp where
  | addNode (node : Option Node)
  | addEdge (source target : String)
  | setEntry (nodeID : String)

namespace GraphOp

/-- The operations check their arguments before they write. -/
def apply (g : BasicGraph) : GraphOp → Except String BasicGraph
  | .addNode none => .error "cannot add nil node"
  | .addNode (some node) => (g.addNode node).mapError GraphError.error
  | .addEdge source target => (g.addEdge source target).mapError GraphError.error
  | .setEntry nodeID => (g.setEntry nodeID).mapError GraphError.error

/-- The graph after a call, which may have failed. -/
def call (g : BasicGraph) (op : GraphOp) : BasicGraph :=
  match op.apply g with
  | .ok g' => g'
  | .error _ => g

end GraphOp

namespace BasicGraph

def built (name : String) (ops : List GraphOp) : BasicGraph := ops.foldl GraphOp.call (newGraph name)

theorem call_eq_or (g : BasicGraph) (op : GraphOp) : op.apply g = .ok (op.call g) ∨ op.call g = g := by
  unfold GraphOp.call
  cases hop : op.apply g with
  | ok g' => exact .inl rfl
  | error err => exact .inr rfl

structure Sound (g : BasicGraph) : Prop where
  wellFormed : g.WellFormed
  entry : g.entry = "" ∨ g.entry ∈ g.nodeOrder

theorem Sound.call {g : BasicGraph} (hg : g.Sound) (op : GraphOp) : (op.call g).Sound := by
  rcases call_eq_or g op with hok | hsame
  · generalize op.call g = g' at hok
    match op with
    | .addNode none => cases hok
    | .addNode (some node) =>
      have hadd : g.addNode node = .ok g' := mapError_eq_ok.mp hok
      refine ⟨addNode_wellFormed hg.wellFormed hadd, ?_⟩
      have hentry := hg.entry
      grind [addNode]
    | .addEdge source target =>
      have hadd : g.addEdge source target = .ok g' := mapError_eq_ok.mp hok
      refine ⟨addEdge_wellFormed hg.wellFormed hadd, ?_⟩
      have hentry := hg.entry
      grind [addEdge]
    | .setEntry nodeID =>
      have hset : g.setEntry nodeID = .ok g' := mapError_eq_ok.mp hok
      refine ⟨setEntry_wellFormed hg.wellFormed hset, ?_⟩
      grind [setEntry, hg.wellFormed.mem_nodeOrder, Option.isNone_iff_eq_none, Option.isSome_iff_ne_none]
  · rwa [hsame]

theorem built_sound (name : String) (ops : List GraphOp) : (built name ops).Sound := by
  refine foldl_induction (P := fun _ g => Sound g) ?_ ⟨newGraph_wellFormed name, .inl rfl⟩
  exact fun _ g op _ hg => hg.call op

/-- The containers of a graph agree after all calls, and a failing call changes nothing. -/
theorem representation_invariant (name : String) (ops : List GraphOp) (op : GraphOp) :
    let g := built name ops
    g.WellFormed ∧ (g.entry = "" ∨ g.entry ∈ g.nodeOrder) ∧ ((op.apply g).isOk = false → op.call g = g) := by
  refine ⟨(built_sound name ops).wellFormed, (built_sound name ops).entry, fun hfailed => ?_⟩
  rcases call_eq_or (built name ops) op with hok | hsame
  · rw [hok] at hfailed
    cases hfailed
  · exact hsame

/-- The map of the nodes is read in the order `ids`. No order of the nodes is
`ErrCycleDetected`. -/
def topologicalSort (g : BasicGraph) (allowCycles : Bool) (ids : List String) : Option (List String) :=
  let inDegree (id : String) : Int := (g.predecessors id).length
  let result := kahn.visits g.successors (ids.length + g.edges.length)
    { inDegree, queue := ids.filter (inDegree · = 0), visited := 0 }
  if result.length ≠ ids.length ∧ allowCycles = false then none else some result

def links (g : BasicGraph) : List (String × String) := g.edges.map fun e => (e.fromNode, e.toNode)

variable {g : BasicGraph} {ids : List String}

theorem mem_links {a b : String} : (⟨a, b⟩ : Edge) ∈ g.edges ↔ (a, b) ∈ g.links := by
  rw [links, List.mem_map]
  exact ⟨fun he => ⟨_, he, rfl⟩, by rintro ⟨⟨_, _⟩, he, ⟨⟩⟩; exact he⟩

theorem topologicalSort_eq (hg : g.WellFormed) (allowCycles : Bool) (ids : List String) :
    g.topologicalSort allowCycles ids = if (kahn.order ids g.links).length ≠ ids.length ∧ allowCycles = false then none
      else some (kahn.order ids g.links) := by
  have hsuccessors : g.successors = kahn.successors g.links := by
    funext id
    rw [kahn.successors_eq, hg.successors_eq, links, filter_map, List.map_map]
    rfl
  have hdegrees (id : String) : ((g.predecessors id).length : Int) = kahn.inDegrees g.links id := by
    rw [kahn.inDegrees_eq, hg.predecessors_eq, length_map, links, List.map_map, count, countP_map,
      countP_eq_length_filter]
    congr
  have hlength : g.edges.length = g.links.length := length_map .. |>.symm
  simp only [topologicalSort, kahn.order, kahn.start, hsuccessors, hdegrees, hlength]
  rfl

theorem links_nodes (hg : g.WellFormed) (hids : ids.Perm g.nodeOrder) : ∀ e ∈ g.links, e.1 ∈ ids ∧ e.2 ∈ ids := by
  rintro ⟨a, b⟩ he
  rw [hids.mem_iff, hids.mem_iff]
  exact hg.edge_ends _ (mem_links.mpr he)

/-- The order of the nodes, for each order in which the map is read. -/
theorem topologicalSort_correct (name : String) (ops : List GraphOp) (ids : List String)
    (hids : ids.Perm (built name ops).nodeOrder) :
    let g := built name ops
    let edge (a b : String) : Prop := ⟨a, b⟩ ∈ g.edges
    ((g.topologicalSort false ids).isSome ↔ dag.Acyclic edge) ∧
    (∀ result, g.topologicalSort false ids = some result →
      result.Perm g.nodeOrder ∧ ∀ e ∈ g.edges, [e.fromNode, e.toNode].Sublist result) ∧
    ∃ result, g.topologicalSort true ids = some result ∧ result.Nodup ∧
      (∀ id, id ∈ result ↔ id ∈ g.nodeOrder ∧ ∀ b, TransGen edge b b → ¬ ReflTransGen edge b id) ∧
      ∀ e ∈ g.edges, e.toNode ∈ result → [e.fromNode, e.toNode].Sublist result := by
  intro g edge
  have hg : g.WellFormed := (built_sound name ops).wellFormed
  replace hids : ids.Perm g.nodeOrder := hids
  clear_value g
  have hnodup : ids.Nodup := hids.nodup_iff.mpr hg.nodeOrder_nodup
  have hends := links_nodes hg hids
  have hedge (a b : String) : edge a b ↔ (a, b) ∈ g.links := mem_links
  obtain ⟨horder, hlength, hmem, hforward⟩ := kahn.run_order hnodup hends
  have hsub : kahn.order ids g.links ⊆ ids := fun a ha => ((hmem a).mp ha).1
  have hall : (kahn.order ids g.links).length = ids.length ↔ dag.Acyclic edge := by
    have hle := (horder.subperm hsub).length_le
    have hvisited := kahn.length_le_visited_iff hnodup hends
    rw [funext₂ fun a b => propext (hedge a b), ← hvisited, ← hlength]
    omega
  have hsorted : ∀ e ∈ g.edges, e.toNode ∈ kahn.order ids g.links →
      [e.fromNode, e.toNode].Sublist (kahn.order ids g.links) :=
    fun e he => hforward (e.fromNode, e.toNode) (mem_links.mp he)
  refine ⟨?_, ?_, kahn.order ids g.links, ?_, horder, ?_, hsorted⟩
  · rw [topologicalSort_eq hg, ← hall]
    by_cases hfull : (kahn.order ids g.links).length = ids.length <;> simp [hfull]
  · intro result hresult
    rw [topologicalSort_eq hg] at hresult
    split at hresult
    · cases hresult
    · next hfull =>
      cases hresult
      have hfull : (kahn.order ids g.links).length = ids.length := by simpa using hfull
      have hperm := (horder.subperm hsub).perm_of_length_le hfull.ge
      refine ⟨hperm.trans hids, fun e he => hsorted e he (hperm.mem_iff.mpr ?_)⟩
      exact (hends _ (mem_links.mp he)).2
  · rw [topologicalSort_eq hg]
    exact if_neg (by simp)
  · intro id
    rw [kahn.mem_order_iff hnodup hends hedge, hids.mem_iff]

def pair : List GraphOp := [.addNode (some (newNoopNode "a")), .addNode (some (newNoopNode "b")), .addEdge "a" "b"]

theorem topologicalSort_correct_pair :
    ∃ result, (built "g" pair).topologicalSort true ["b", "a"] = some result ∧ result.Nodup :=
  (topologicalSort_correct "g" pair ["b", "a"] (by decide +kernel)).2.2.imp fun _ h => ⟨h.1, h.2.1⟩

end BasicGraph

namespace Graph

variable (g : Graph)

def Acyclic : Prop := dag.Acyclic g.Edge

noncomputable def pathCount (id : String) : Nat := dag.pathCount g.Edge g.entry id

def preds (id : String) : Finset String := (g.predecessors id).toFinset

variable {g}

@[simp] theorem mem_preds {a b : String} : a ∈ g.preds b ↔ g.Edge a b := by
  rw [preds, mem_toFinset, edge_iff_mem_predecessors]

theorem card_preds (id : String) : (g.preds id).card = (g.predecessors id).length :=
  toFinset_card_of_nodup (g.predecessors_nodup id)

theorem count_successors (id nodeID : String) :
    (g.successors nodeID).count id = if nodeID ∈ g.preds id then 1 else 0 := by
  rw [Nodup.count (g.successors_nodup nodeID)]
  simp [Edge]

theorem Acyclic.wellFounded (hacyclic : g.Acyclic) : WellFounded g.Edge :=
  dag.Acyclic.wellFounded hacyclic (finite_toSet g.nodeOrder) fun _ _ hedge => hedge.mem_nodeOrder

theorem acyclic_of_rank (rank : String → Nat) (hrank : ∀ e ∈ g.edges, rank e.fromNode < rank e.toNode) : g.Acyclic :=
  dag.Acyclic.of_rank rank fun _ _ hedge => hrank _ (edge_iff.mp hedge)

variable {f : String → Nat}

theorem le_pathCount (hacyclic : g.Acyclic)
    (hf : ∀ id, f id ≤ (if id = g.entry then 1 else 0) + ∑ m ∈ g.preds id, f m) (id : String) :
    f id ≤ g.pathCount id :=
  dag.le_pathCount hacyclic.wellFounded (fun _ _ => mem_preds) hf id

theorem eq_pathCount (hacyclic : g.Acyclic)
    (hf : ∀ id, f id = (if id = g.entry then 1 else 0) + ∑ m ∈ g.preds id, f m) (id : String) :
    f id = g.pathCount id :=
  dag.eq_pathCount hacyclic.wellFounded (fun _ _ => mem_preds) hf id

theorem pathCount_eq_of_nodes (hacyclic : g.Acyclic)
    (hf : ∀ id ∈ g.nodeOrder, f id = (if id = g.entry then 1 else 0) + ∑ m ∈ g.preds id, f m)
    (hzero : ∀ id, id ∉ g.nodeOrder → f id = 0) (id : String) : g.pathCount id = f id := by
  refine (eq_pathCount hacyclic ?_ id).symm
  intro id
  by_cases hid : id ∈ g.nodeOrder
  · exact hf id hid
  · have hentry : id ≠ g.entry := fun heq => hid (heq ▸ g.entry_mem)
    have hpreds : g.preds id = ∅ := by
      rw [Finset.eq_empty_iff_forall_notMem]
      exact fun m hm => hid (mem_preds.mp hm).mem_nodeOrder.2
    simp [hzero id hid, hentry, hpreds]

end Graph

end petalflow.graph
