import Petalflow.Graph.Rules

open petalflow.core fold List

namespace petalflow.graph

open BasicGraph

namespace BasicGraph

def ReachesFromEntry (g : BasicGraph) (id : String) : Prop :=
  Relation.ReflTransGen (fun a b => ⟨a, b⟩ ∈ g.edges) g.entry id

variable {g : BasicGraph}

theorem ReachesFromEntry.mem_of_closed {id : String} (hreach : g.ReachesFromEntry id) {closed : List String}
    (hentry : g.entry ∈ closed) (hedges : ∀ e ∈ g.edges, e.fromNode ∈ closed → e.toNode ∈ closed) : id ∈ closed := by
  induction hreach with
  | refl => exact hentry
  | tail _ hedge ih => exact hedges _ hedge ih

variable {g' : BasicGraph}

theorem addNode_ok {node : Node} (hadd : g.addNode node = .ok g') :
    g'.nodeOrder = g.nodeOrder ++ [node.id] ∧ g'.edges = g.edges ∧ g'.entry = g.entry := by
  grind [addNode]

theorem addEdge_ok {source target : String} (hadd : g.addEdge source target = .ok g') :
    g'.nodeOrder = g.nodeOrder ∧ (∀ e, e ∈ g'.edges ↔ e ∈ g.edges ∨ e = ⟨source, target⟩) ∧ g'.entry = g.entry := by
  grind [addEdge]

theorem setEntry_ok {nodeID : String} (hset : g.setEntry nodeID = .ok g') :
    g'.nodeOrder = g.nodeOrder ∧ g'.edges = g.edges ∧ g'.entry = nodeID := by
  grind [setEntry]

end BasicGraph

namespace GraphDefinition

def KeepsIDs (factory : NodeDef → Except String Node) : Prop :=
  ∀ nd node, factory nd = .ok node → node.id = nd.id

structure Hydrates (gd : GraphDefinition) (g : BasicGraph) : Prop where
  nodeOrder : g.nodeOrder = gd.nodeIDs
  nodup : gd.nodeIDs.Nodup
  edges : ∀ a b, ⟨a, b⟩ ∈ g.edges ↔ (a, b) ∈ gd.links
  entry : g.entry = gd.resolveEntry

variable {gd : GraphDefinition} {id : String}

theorem resolveEntry_of_entry (hentry : gd.entry = id) (hne : id ≠ "") : gd.resolveEntry = id := by
  rw [resolveEntry, hentry, if_pos hne]

theorem inbound_iff : gd.edges.any (·.target = id) = true ↔ ∃ source, (source, id) ∈ gd.links := by
  simp only [links, any_eq_true, mem_map, decide_eq_true_eq, Prod.mk.injEq]
  constructor
  · rintro ⟨e, he, rfl⟩
    exact ⟨e.source, e, he, rfl, rfl⟩
  · rintro ⟨_, e, he, _, htarget⟩
    exact ⟨e, he, htarget⟩

theorem resolveEntry_of_find (hentry : gd.entry = "") (hne : id ≠ "")
    (hfind : gd.nodeIDs.find? (fun id => ¬ gd.edges.any (·.target = id)) = some id) : gd.resolveEntry = id := by
  simp only [resolveEntry, hentry, ne_eq, not_true_eq_false, if_false, hfind, Option.getD_some]
  rw [if_pos hne]

theorem resolveEntry_of_inbound (hentry : gd.entry = "")
    (hinbound : ∀ id ∈ gd.nodeIDs, ∃ source, (source, id) ∈ gd.links) : gd.resolveEntry = gd.nodeIDs.headD "" := by
  have hfind : gd.nodeIDs.find? (fun id => ¬ gd.edges.any (·.target = id)) = none := by
    refine find?_eq_none.mpr fun id hid => ?_
    rw [decide_eq_true_eq, not_not]
    exact inbound_iff.mpr (hinbound id hid)
  simp only [resolveEntry, hentry, hfind, ne_eq, not_true_eq_false, if_false, Option.getD_none]

variable {factory : NodeDef → Except String Node} {g : BasicGraph}

theorem toGraph_hydrates (hfactory : KeepsIDs factory) (hgraph : gd.toGraph (some factory) = .ok g) :
    gd.Hydrates g := by
  simp only [toGraph, bind_eq_ok] at hgraph
  obtain ⟨g₁, hnodes, g₂, hedges, hentry⟩ := hgraph
  -- the nodes come in the order of their definitions, and there are no edges yet
  have hg₁ : g₁.WellFormed ∧ g₁.nodeOrder = gd.nodeIDs ∧ g₁.edges = [] ∧ g₁.entry = "" := by
    refine foldlM_induction (P := fun seen g => g.WellFormed ∧ g.nodeOrder = seen.map (·.id) ∧
      g.edges = [] ∧ g.entry = "") ?_ ⟨newGraph_wellFormed _, rfl, rfl, rfl⟩ hnodes
    rintro seen g nd _ g' ⟨hwf, horder, hnone, hempty⟩ hpass
    simp only [loadNode, bind_eq_ok, mapError_eq_ok] at hpass
    obtain ⟨node, hnode, hadd⟩ := hpass
    obtain ⟨horder', hedges', hentry'⟩ := addNode_ok hadd
    refine ⟨addNode_wellFormed hwf hadd, ?_, hedges'.trans hnone, hentry'.trans hempty⟩
    rw [horder', horder, map_append, hfactory nd node hnode]
    rfl
  obtain ⟨hwf, horder, hnone, hempty⟩ := hg₁
  have hg₂ : g₂.nodeOrder = gd.nodeIDs ∧ (∀ a b, ⟨a, b⟩ ∈ g₂.edges ↔ (a, b) ∈ gd.links) ∧ g₂.entry = "" := by
    refine foldlM_induction (P := fun seen g => g.nodeOrder = gd.nodeIDs ∧
      (∀ a b, ⟨a, b⟩ ∈ g.edges ↔ (a, b) ∈ seen.map fun e => (e.source, e.target)) ∧ g.entry = "") ?_
      ⟨horder, by simp [hnone], hempty⟩ hedges
    rintro seen g ed _ g' ⟨horder, hsame, hempty⟩ hpass
    rw [wireEdge, mapError_eq_ok] at hpass
    obtain ⟨horder', hedges', hentry'⟩ := addEdge_ok hpass
    refine ⟨horder'.trans horder, ?_, hentry'.trans hempty⟩
    intro a b
    rw [hedges', hsame, map_append, mem_append]
    simp
  obtain ⟨horder₂, hedges₂, hempty₂⟩ := hg₂
  have hnodup : gd.nodeIDs.Nodup := horder ▸ hwf.nodeOrder_nodup
  split at hentry
  · rw [mapError_eq_ok] at hentry
    obtain ⟨horder', hedges', hentry'⟩ := setEntry_ok hentry
    exact ⟨horder'.trans horder₂, hnodup, hedges' ▸ hedges₂, hentry'⟩
  · next hnot =>
    cases hentry
    exact ⟨horder₂, hnodup, hedges₂, by rw [hempty₂, not_not.mp hnot]⟩

variable (hgraph : gd.toGraph (some factory) = .ok g)
include hgraph

theorem toGraph_invariant {P : BasicGraph → Prop} (hnew : P (.newGraph gd.id))
    (hnode : ∀ g, ∀ nd ∈ gd.nodes, ∀ node g', factory nd = .ok node → P g → g.addNode node = .ok g' → P g')
    (hedge : ∀ g source target g', P g → g.addEdge source target = .ok g' → P g')
    (hentry : ∀ g nodeID g', P g → g.setEntry nodeID = .ok g' → P g') : P g := by
  simp only [toGraph, bind_eq_ok] at hgraph
  obtain ⟨g₁, hnodes, g₂, hedges, hlast⟩ := hgraph
  have hg₁ : P g₁ := by
    refine foldlM_induction (P := fun _ g => P g) (fun _ g nd hnd g' hg hpass => ?_) hnew hnodes
    simp only [loadNode, bind_eq_ok, mapError_eq_ok] at hpass
    obtain ⟨node, hmade, hadd⟩ := hpass
    exact hnode g nd hnd node g' hmade hg hadd
  have hg₂ : P g₂ := by
    refine foldlM_induction (P := fun _ g => P g) (fun _ g ed _ g' hg hpass => ?_) hg₁ hedges
    exact hedge g ed.source ed.target g' hg (mapError_eq_ok.mp hpass)
  split at hlast
  · exact hentry g₂ _ g hg₂ (mapError_eq_ok.mp hlast)
  · cases hlast
    exact hg₂

theorem toGraph_wellFormed : g.WellFormed :=
  toGraph_invariant hgraph (newGraph_wellFormed _)
    (fun _ _ _ _ _ _ hg hadd => addNode_wellFormed hg hadd)
    (fun _ _ _ _ => addEdge_wellFormed) (fun _ _ _ => setEntry_wellFormed)

variable {node : Node} {nd : NodeDef}

theorem toGraph_nodes (hfound : g.nodeByID id = some node) : ∃ nd ∈ gd.nodes, factory nd = .ok node := by
  have hall : ∀ id node, g.nodes id = some node → ∃ nd ∈ gd.nodes, factory nd = .ok node := by
    refine toGraph_invariant (P := fun g => ∀ id node, g.nodes id = some node → ∃ nd ∈ gd.nodes, factory nd = .ok node)
      hgraph (by simp [newGraph]) ?_ ?_ ?_
    · intro g nd hnd made g' hmade hg hadd id node hfound
      rcases addNode_nodes hadd hfound with rfl | hold
      · exact ⟨nd, hnd, hmade⟩
      · exact hg id node hold
    · intro g source target g' hg hadd
      rwa [addEdge_nodes hadd]
    · intro g nodeID g' hg hset
      rwa [setEntry_nodes hset]
  exact hall id node hfound

omit hgraph

theorem toGraph_built (hfactory : KeepsIDs factory) (hgraph : gd.toGraph (some factory) = .ok g)
    (hnd : nd ∈ gd.nodes) (hfound : g.nodeByID node.id = some node) (hid : node.id = nd.id) :
    factory nd = .ok node := by
  obtain ⟨nd', hnd', hbuild⟩ := toGraph_nodes hgraph hfound
  have hsame : nd' = nd := by
    refine inj_on_of_nodup_map (toGraph_hydrates hfactory hgraph).nodup hnd' hnd ?_
    exact (hfactory nd' node hbuild).symm.trans hid
  exact hsame ▸ hbuild

theorem eraseDups_concat {α : Type} [DecidableEq α] (l : List α) (a : α) :
    (l ++ [a]).eraseDups = if a ∈ l then l.eraseDups else l.eraseDups ++ [a] := by
  rw [eraseDups_append]
  by_cases ha : a ∈ l
  · simp [ha, removeAll]
  · simp [ha, removeAll, eraseDups_cons]

def targets (links : List (String × String)) (id : String) : List String :=
  ((links.filter (·.1 = id)).map (·.2)).eraseDups

def sources (links : List (String × String)) (id : String) : List String :=
  ((links.filter (·.2 = id)).map (·.1)).eraseDups

structure Wired (links : List (String × String)) (g : BasicGraph) : Prop where
  edges : ∀ a b, ⟨a, b⟩ ∈ g.edges ↔ (a, b) ∈ links
  successors : ∀ id, g.successors id = targets links id
  predecessors : ∀ id, g.predecessors id = sources links id

theorem targets_concat (links : List (String × String)) (source target id : String) :
    targets (links ++ [(source, target)]) id =
      if source = id ∧ (source, target) ∉ links then targets links id ++ [target] else targets links id := by
  by_cases hsource : source = id
  · simp_all [targets, eraseDups_concat]
  · simp [targets, hsource]

theorem sources_concat (links : List (String × String)) (source target id : String) :
    sources (links ++ [(source, target)]) id =
      if target = id ∧ (source, target) ∉ links then sources links id ++ [source] else sources links id := by
  by_cases htarget : target = id
  · simp_all [sources, eraseDups_concat]
  · simp [sources, htarget]

theorem addEdge_wired {links : List (String × String)} {source target : String} (hg : Wired links g)
    (hsource : (g.nodes source).isSome) (htarget : (g.nodes target).isSome) :
    ∃ g', g.addEdge source target = .ok g' ∧ Wired (links ++ [(source, target)]) g' ∧ g'.nodes = g.nodes ∧
      g'.nodeOrder = g.nodeOrder ∧ g'.entry = g.entry := by
  have hnodes : (g.nodes source).isNone = false ∧ (g.nodes target).isNone = false := by simp [hsource, htarget]
  by_cases hold : (source, target) ∈ links
  · refine ⟨g, ?_, ⟨?_, ?_, ?_⟩, rfl, rfl, rfl⟩
    · simp [BasicGraph.addEdge, hnodes, hg.edges, hold]
    · intro a b
      rw [hg.edges, mem_append, mem_singleton]
      simp_all
    · intro id
      rw [targets_concat, if_neg (fun hboth => hboth.2 hold), hg.successors]
    · intro id
      rw [sources_concat, if_neg (fun hboth => hboth.2 hold), hg.predecessors]
  · have hadd : g.addEdge source target = .ok { g with
        edges := g.edges ++ [⟨source, target⟩]
        successors := Function.update g.successors source (g.successors source ++ [target])
        predecessors := Function.update g.predecessors target (g.predecessors target ++ [source]) } := by
      simp [BasicGraph.addEdge, hnodes, hg.edges, hold]
    refine ⟨_, hadd, ⟨?_, ?_, ?_⟩, rfl, rfl, rfl⟩
    · intro a b
      simp [hg.edges]
    · intro id
      rw [targets_concat]
      by_cases hid : source = id
      · subst hid
        simp [hold, hg.successors]
      · simp [hid, Ne.symm hid, hg.successors]
    · intro id
      rw [sources_concat]
      by_cases hid : target = id
      · subst hid
        simp [hold, hg.predecessors]
      · simp [hid, Ne.symm hid, hg.predecessors]

structure Loaded (factory : NodeDef → Except String Node) (nds : List NodeDef) (g : BasicGraph) : Prop where
  wellFormed : g.WellFormed
  nodeOrder : g.nodeOrder = nds.map (·.id)
  nodes : ∀ nd ∈ nds, ∃ node, factory nd = .ok node ∧ g.nodes nd.id = some node
  edges : g.edges = []
  entry : g.entry = ""

theorem addNode_loaded {seen : List NodeDef}
    (hg : Loaded factory seen g) (hnode : factory nd = .ok node) (hid : node.id = nd.id)
    (hfresh : nd.id ∉ seen.map (·.id)) : ∃ g', g.addNode node = .ok g' ∧ Loaded factory (seen ++ [nd]) g' := by
  have hnone : g.nodes node.id = none := by
    rw [← hg.nodeOrder, hg.wellFormed.mem_nodeOrder] at hfresh
    simpa [hid] using hfresh
  have hadd : g.addNode node = .ok { g with
      nodes := Function.update g.nodes node.id (some node)
      nodeOrder := g.nodeOrder ++ [node.id] } := by
    simp [BasicGraph.addNode, hnone]
  refine ⟨_, hadd, addNode_wellFormed hg.wellFormed hadd, ?_, ?_, hg.edges, hg.entry⟩
  · rw [hg.nodeOrder, hid, map_append]
    rfl
  · intro other hother
    rw [mem_append, mem_singleton] at hother
    rcases hother with hother | rfl
    · obtain ⟨made, hmade, hfound⟩ := hg.nodes other hother
      simp_all
    simp_all

theorem Loaded.wired {nds : List NodeDef} (hg : Loaded factory nds g) : Wired [] g where
  edges := by simp [hg.edges]
  successors := by simp [hg.wellFormed.successors_eq, hg.edges, targets]
  predecessors := by simp [hg.wellFormed.predecessors_eq, hg.edges, sources]

theorem find_source (hgd : gd.WellFormed) (hnodes : gd.nodes ≠ []) :
    ∃ id ∈ gd.nodeIDs, gd.nodeIDs.find? (fun id => ¬ gd.edges.any (·.target = id)) = some id := by
  have hfinite : { id | id ∈ gd.nodeIDs }.Finite := finite_toSet _
  have hwf := hgd.acyclic.wellFounded hfinite fun a b hedge => hgd.edges (a, b) hedge
  have hnonempty : { id | id ∈ gd.nodeIDs }.Nonempty := by
    obtain ⟨nd, hnd⟩ := exists_mem_of_ne_nil _ hnodes
    exact ⟨nd.id, mem_map_of_mem hnd⟩
  obtain ⟨root, hroot, hmin⟩ := hwf.has_min _ hnonempty
  cases hfind : gd.nodeIDs.find? (fun id => ¬ gd.edges.any (·.target = id)) with
  | some id => exact ⟨id, mem_of_find?_eq_some hfind, rfl⟩
  | none =>
    -- the minimal node has no edge into it
    have htarget := find?_eq_none.mp hfind root hroot
    simp only [decide_eq_true_eq, not_not, any_eq_true] at htarget
    obtain ⟨e, he, htarget⟩ := htarget
    have hlink : (e.source, root) ∈ gd.links := mem_map.mpr ⟨e, he, by rw [htarget]⟩
    exact absurd hlink (hmin e.source (hgd.edges _ hlink).1)

/-- The entry that the definition asks for: a given one, or the first node without an
inbound edge. -/
def NamedEntry (gd : GraphDefinition) : Prop :=
  gd.entry ≠ "" ∨ gd.nodeIDs.find? (fun id => ¬ gd.edges.any (·.target = id)) ≠ some ""

theorem resolveEntry_spec (hgd : gd.WellFormed) (hnodes : gd.nodes ≠ []) (hid : gd.NamedEntry) :
    gd.resolveEntry ≠ "" ∧ gd.resolveEntry ∈ gd.nodeIDs ∧ (gd.entry ≠ "" → gd.resolveEntry = gd.entry) ∧
      (gd.entry = "" → gd.nodeIDs.find? (fun id => ¬ gd.edges.any (·.target = id)) = some gd.resolveEntry) := by
  by_cases hentry : gd.entry = ""
  · obtain ⟨id, hmem, hfind⟩ := find_source hgd hnodes
    have hne : id ≠ "" := by
      rintro rfl
      exact hid.resolve_left (not_not.mpr hentry) hfind
    simp_all [resolveEntry]
  · have hresolve : gd.resolveEntry = gd.entry := resolveEntry_of_entry rfl hentry
    rw [hresolve]
    exact ⟨hentry, hgd.entry.resolve_left hentry, fun _ => rfl, fun hnone => absurd hnone hentry⟩

theorem loadNode_loop (hnodup : gd.nodeIDs.Nodup) (hfactory : ∀ nd, ∃ node, factory nd = .ok node ∧ node.id = nd.id) :
    ∃ g, gd.nodes.foldlM (loadNode factory) (.newGraph gd.id) = .ok g ∧ Loaded factory gd.nodes g := by
  refine foldlM_exists ?_ ⟨newGraph_wellFormed _, rfl, by simp, rfl, rfl⟩
  intro seen nd rest hsplit g hg
  obtain ⟨node, hnode, hid⟩ := hfactory nd
  have hfresh : nd.id ∉ seen.map (·.id) := by
    rw [nodeIDs, hsplit, map_append, map_cons, nodup_append] at hnodup
    exact fun hmem => hnodup.2.2 nd.id hmem nd.id mem_cons_self rfl
  obtain ⟨g', hadd, hg'⟩ := addNode_loaded hg hnode hid hfresh
  refine ⟨g', ?_, hg'⟩
  simp only [loadNode, bind_eq_ok, mapError_eq_ok]
  exact ⟨node, hnode, hadd⟩

theorem wireEdge_loop (hedges : gd.EdgesDefined) {g₁ : BasicGraph} (hloaded : Loaded factory gd.nodes g₁) :
    ∃ g, gd.edges.foldlM wireEdge g₁ = .ok g ∧ g.WellFormed ∧ Wired gd.links g ∧ g.nodes = g₁.nodes ∧
      g.nodeOrder = gd.nodeIDs := by
  refine foldlM_exists (P := fun (seen : List EdgeDef) g => g.WellFormed ∧
    Wired (seen.map fun e => (e.source, e.target)) g ∧
    g.nodes = g₁.nodes ∧ g.nodeOrder = gd.nodeIDs) ?_ ⟨hloaded.wellFormed, hloaded.wired, rfl, hloaded.nodeOrder⟩
  rintro seen ed rest hsplit g ⟨hwf, hwired, hsame, horder⟩
  have hends := hedges (ed.source, ed.target) (by rw [links, hsplit]; simp)
  rw [← horder, hwf.mem_nodeOrder, hwf.mem_nodeOrder] at hends
  obtain ⟨g', hadd, hwired', hnodes', horder', _⟩ := addEdge_wired hwired hends.1 hends.2
  refine ⟨g', mapError_eq_ok.mpr hadd, addEdge_wellFormed hwf hadd, ?_, hnodes'.trans hsame, horder'.trans horder⟩
  rwa [map_append]

structure Faithful (gd : GraphDefinition) (factory : NodeDef → Except String Node) (g : BasicGraph) : Prop where
  nodeOrder : g.nodeOrder = gd.nodeIDs
  nodes : ∀ nd ∈ gd.nodes, ∃ node, factory nd = .ok node ∧ g.nodeByID nd.id = some node
  edges : ∀ a b, ⟨a, b⟩ ∈ g.edges ↔ (a, b) ∈ gd.links
  successors : ∀ id, g.successors id = targets gd.links id
  predecessors : ∀ id, g.predecessors id = sources gd.links id
  successors_nodup : ∀ id, (g.successors id).Nodup
  predecessors_nodup : ∀ id, (g.predecessors id).Nodup
  mirror : ∀ a b, b ∈ g.successors a ↔ a ∈ g.predecessors b
  declared : gd.entry ≠ "" → g.entry = gd.entry
  default : gd.entry = "" → gd.nodeIDs.find? (fun id => ¬ gd.edges.any (·.target = id)) = some g.entry
  valid : g.validate = .ok ()

theorem exists_faithful (exprValidator : Option ExprValidator) (hnodes : gd.nodes ≠ [])
    (hok : hasErrors (gd.validate exprValidator) = false)
    (hfactory : ∀ nd, ∃ node, factory nd = .ok node ∧ node.id = nd.id) (hid : gd.NamedEntry) :
    ∃ g, gd.toGraph (some factory) = .ok g ∧ Faithful gd factory g := by
  have hgd := wellFormed_of_validate hok
  obtain ⟨g₁, hload, hloaded⟩ := loadNode_loop hgd.nodup hfactory
  obtain ⟨g₂, hwire, hwf, hwired, hsame, horder⟩ := wireEdge_loop hgd.edges hloaded
  obtain ⟨hne, hmem, hdeclared, hdefault⟩ := resolveEntry_spec hgd hnodes hid
  have hentry : g₂.nodes gd.resolveEntry ≠ none := by rwa [← Option.isSome_iff_ne_none, ← hwf.mem_nodeOrder, horder]
  have hset : g₂.setEntry gd.resolveEntry = .ok { g₂ with entry := gd.resolveEntry } := by
    simp [BasicGraph.setEntry, hentry]
  have hvalid : ({ g₂ with entry := gd.resolveEntry } : BasicGraph).validate = .ok () := by
    have hsome : g₂.nodeOrder ≠ [] := by
      rw [horder]
      exact ne_nil_of_mem hmem
    simp [BasicGraph.validate, hsome, hne, hentry]
  -- what holds of the edges of any graph that can be run
  let g : Graph := ⟨_, setEntry_wellFormed hwf hset, hvalid⟩
  refine ⟨g.toBasicGraph, ?_, ?_⟩
  · refine bind_eq_ok.mpr ⟨g₁, hload, bind_eq_ok.mpr ⟨g₂, hwire, ?_⟩⟩
    simp only [if_pos hne, hset]
    rfl
  · exact {
      nodeOrder := horder
      nodes := fun nd hnd => by
        obtain ⟨node, hnode, hfound⟩ := hloaded.nodes nd hnd
        exact ⟨node, hnode, (congrFun hsame nd.id).trans hfound⟩
      edges := hwired.edges
      successors := hwired.successors
      predecessors := hwired.predecessors
      successors_nodup := g.successors_nodup
      predecessors_nodup := g.predecessors_nodup
      mirror := fun a b => Graph.edge_iff_mem_predecessors
      declared := hdeclared
      default := hdefault
      valid := hvalid }

/-- An accepted definition becomes a graph without a loss exactly if its entry is given or
the first node without an inbound edge has an id. -/
theorem toGraph_faithful (exprValidator : Option ExprValidator) (hnodes : gd.nodes ≠ [])
    (hok : hasErrors (gd.validate exprValidator) = false)
    (hfactory : ∀ nd, ∃ node, factory nd = .ok node ∧ node.id = nd.id) :
    (∃ g, gd.toGraph (some factory) = .ok g ∧ Faithful gd factory g) ↔ gd.NamedEntry := by
  refine ⟨?_, exists_faithful exprValidator hnodes hok hfactory⟩
  rintro ⟨g, -, hg⟩
  by_contra hunnamed
  obtain ⟨hentry, hfirst⟩ : gd.entry = "" ∧
      gd.nodeIDs.find? (fun id => ¬ gd.edges.any (·.target = id)) = some "" := by
    simpa only [NamedEntry, not_or, not_not] using hunnamed
  have hempty : g.entry = "" := by
    rw [hg.default hentry] at hfirst
    exact Option.some.inj hfirst
  -- a graph whose entry is the empty id is rejected
  have hvalid := hg.valid
  simp only [BasicGraph.validate, hempty, if_true] at hvalid
  split at hvalid <;> cases hvalid

def plain (ids : List String) (links : List (String × String)) : GraphDefinition where
  id := "plain"
  version := "1"
  schemaVersion := ""
  kind := ""
  metadata := []
  nodes := ids.map fun id => { id, type := "noop", config := [] }
  edges := links.map fun link => { source := link.1, sourceHandle := "", target := link.2, targetHandle := "" }
  entry := ""

theorem plain_faithful :
    ∃ g, (plain ["draft", "report", "draft_notes"] [("draft", "report"), ("draft", "report")]).toGraph
        (some fun nd => .ok (newNoopNode nd.id)) = .ok g ∧
      Faithful (plain ["draft", "report", "draft_notes"] [("draft", "report"), ("draft", "report")])
        (fun nd => .ok (newNoopNode nd.id)) g :=
  (toGraph_faithful none (by simp [plain]) (by decide +kernel) fun nd => ⟨_, rfl, rfl⟩).mpr
    (.inr (by decide +kernel))

/-- An accepted node with the empty id is passed over when it should be the
entry: the graph starts elsewhere, or has no entry and cannot be run. -/
theorem unnamed_entry_lost :
    hasErrors ((plain ["report", ""] [("", "report")]).validate none) = false ∧
      ((plain ["report", ""] [("", "report")]).nodeIDs.find?
        fun id => ¬ (plain ["report", ""] [("", "report")]).edges.any (·.target = id)) = some "" ∧
      (((plain ["report", ""] [("", "report")]).toGraph (some fun nd => .ok (newNoopNode nd.id))).toOption.map
        (·.entry)) = some "report" ∧
      hasErrors ((plain [""] []).validate none) = false ∧
      (((plain [""] []).toGraph (some fun nd => .ok (newNoopNode nd.id))).toOption.map (·.validate.isOk)) =
        some false := by
  decide +kernel

end GraphDefinition

end petalflow.graph
