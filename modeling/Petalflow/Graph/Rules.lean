import Petalflow.Graph.Basic
import Petalflow.Registry
import Petalflow.Schemafmt

open petalflow.core List petalflow.registry

namespace petalflow.graph

inductive Severity where
  | error | warning
deriving DecidableEq, Repr

/-- The rules that diagnostics are reported for: `gr001` is GR-001 of the graph
schema, `cn001` is CN-001 of conditional nodes, `at001` is AT-001 of the agent schema. -/
inductive Code where
  | gr001 | gr002 | gr003 | gr004 | gr005 | gr006 | gr007 | gr008 | gr009 | gr010
  | cn001 | cn003 | cn004 | cn005 | cn006
  | at001 | at002 | at004 | at005 | at006 | at007 | at008 | at009 | at010 | at012 | at013 | at014
deriving DecidableEq, Repr

structure Diagnostic where
  code : Code
  severity : Severity
  message : String
  path : String := ""
deriving DecidableEq, Repr

def hasErrors (diags : List Diagnostic) : Bool := diags.any (·.severity = .error)

structure NodeDef where
  id : String
  type : String
  config : Vars

structure EdgeDef where
  source : String
  sourceHandle : String
  target : String
  targetHandle : String
deriving DecidableEq, Repr

structure GraphDefinition where
  id : String
  version : String
  schemaVersion : String
  kind : String
  metadata : List (String × String)
  nodes : List NodeDef
  edges : List EdgeDef
  entry : String

abbrev ExprValidator := String → Except String Unit

namespace GraphDefinition

variable (gd : GraphDefinition)

def nodeIDs : List String := gd.nodes.map (·.id)

def links : List (String × String) := gd.edges.map fun e => (e.source, e.target)

def validateSchemaHeader : List Diagnostic :=
  let invalid (message path : String) : Diagnostic := { code := .gr010, severity := .error, message, path }
  let kind :=
    if gd.kind = "" then []
    else
      match schemafmt.normalizeKind gd.kind with
      | .error err => [invalid s!"Invalid graph kind: {err}" "kind"]
      | .ok (normalized, _) =>
        if normalized = .graph then []
        else [invalid ("Graph kind " ++ gd.kind.quote ++ " is invalid (expected " ++
          schemafmt.WorkflowKind.graph.name.quote ++ ")") "kind"]
  let schemaVersion :=
    if gd.schemaVersion = "" then []
    else
      match schemafmt.validateSchemaVersion gd.schemaVersion schemafmt.supportedGraphSchemaMajor with
      | .error err => [invalid s!"Invalid schema_version: {err}" "schema_version"]
      | .ok () => []
  kind ++ schemaVersion

/-- GR-005: an id that an earlier node has. -/
def validateNodeIDs : List Diagnostic :=
  gd.nodeIDs.zipIdx.filterMap fun (id, i) =>
    if id ∈ gd.nodeIDs.take i then
      some { code := .gr005, severity := .error, message := s!"Duplicate node ID {id.quote}",
             path := s!"nodes[{i}].id" }
    else none

/-- GR-001: the ends of the edges. -/
def validateEdges : List Diagnostic :=
  gd.edges.zipIdx.flatMap fun (edge, i) =>
    let source :=
      if edge.source ∈ gd.nodeIDs then []
      else [{ code := .gr001, severity := .error
              message := s!"Edge source {edge.source.quote} references unknown node"
              path := s!"edges[{i}].source" }]
    let target :=
      if edge.target ∈ gd.nodeIDs then []
      else [{ code := .gr001, severity := .error
              message := s!"Edge target {edge.target.quote} references unknown node"
              path := s!"edges[{i}].target" }]
    source ++ target

/-- GR-007: the entry. -/
def validateEntry : List Diagnostic :=
  if gd.entry ≠ "" ∧ gd.entry ∉ gd.nodeIDs then
    [{ code := .gr007, severity := .error, message := s!"Entry node {gd.entry.quote} does not exist", path := "entry" }]
  else []

/-- GR-002: nodes without edges. -/
def validateOrphans : List Diagnostic :=
  if gd.nodes.length > 1 then
    gd.nodeIDs.zipIdx.filterMap fun (id, i) =>
      if gd.edges.any (·.target = id) || gd.edges.any (·.source = id) then none
      else some { code := .gr002, severity := .warning
                  message := s!"Node {id.quote} has no inbound or outbound edges", path := s!"nodes[{i}]" }
  else []

def hasEdgeRefErrors (diags : List Diagnostic) : Bool := diags.any (·.code = .gr001)

def detectCycle : String :=
  let sorted := kahn.run gd.nodeIDs gd.links
  if sorted.visited < gd.nodes.length then
    "nodes involved: " ++ text.sprintList (gd.nodeIDs.filter fun id => 0 < sorted.inDegree id)
  else ""

/-- GR-004: cycles. -/
def validateAcyclic : List Diagnostic :=
  let cycle := gd.detectCycle
  if cycle = "" then []
  else [{ code := .gr004, severity := .error, message := s!"Graph contains a cycle: {cycle}" }]

def stringAt (entries : Vars) (key : String) : String :=
  match entries.lookup key with
  | some (.str s) => s
  | _ => ""

def reservedPorts : List String := ["error", "_metadata"]

def validateCondition (exprValidator : Option ExprValidator) (node : NodeDef) (condPath : String) (cond : Vars) :
    List Diagnostic :=
  let name := stringAt cond "name"
  let reserved :=
    if name ∈ reservedPorts then
      [{ code := .cn005, severity := .error
         message := s!"Conditional node {node.id.quote}: condition name {name.quote} is reserved"
         path := condPath ++ ".name" }]
    else []
  let expression := stringAt cond "expression"
  let parsed :=
    match exprValidator with
    | some validator =>
      if expression = "" then []
      else
        match validator expression with
        | .error err =>
          [{ code := .cn004, severity := .error
             message := s!"Conditional node {node.id.quote}: condition {name.quote} has invalid expression: {err}"
             path := condPath ++ ".expression" }]
        | .ok () => []
    | none => []
  let dangling :=
    if name ≠ "" ∧ ¬ gd.edges.any (·.source = node.id) then
      [{ code := .cn001, severity := .warning
         message := s!"Conditional node {node.id.quote}: condition {name.quote} has no downstream edges"
         path := condPath }]
    else []
  reserved ++ parsed ++ dangling

def validateConditionalNode (exprValidator : Option ExprValidator) (node : NodeDef) (i : Nat) : List Diagnostic :=
  let start := s!"nodes[{i}]"
  let invalid (message : String) : List Diagnostic :=
    [{ code := .cn006, severity := .error, message, path := start ++ ".config.conditions" }]
  match node.config.lookup "conditions" with
  | none => invalid s!"Conditional node {node.id.quote} must have at least one condition"
  | some (.list []) => invalid s!"Conditional node {node.id.quote} must have at least one condition"
  | some (.list conditions) =>
    let checked := conditions.zipIdx.flatMap fun (cond, j) =>
      match cond with
      | .map cond => gd.validateCondition exprValidator node (start ++ s!".config.conditions[{j}]") cond
      | _ => []
    let defaultBranch :=
      if stringAt node.config "default" = "" then
        [{ code := .cn003, severity := .warning
           message := s!"Conditional node {node.id.quote} has no default branch — execution will error " ++
             "if no conditions match"
           path := start ++ ".config" }]
      else []
    checked ++ defaultBranch
  | some _ => invalid s!"Conditional node {node.id.quote}: conditions must be an array"

def validateConditionalNodes (exprValidator : Option ExprValidator) : List Diagnostic :=
  gd.nodes.zipIdx.flatMap fun (node, i) =>
    if node.type = "conditional" then gd.validateConditionalNode exprValidator node i else []

def validate (exprValidator : Option ExprValidator) : List Diagnostic :=
  let diags := gd.validateSchemaHeader ++ gd.validateNodeIDs ++ gd.validateEdges ++ gd.validateEntry ++
    gd.validateOrphans
  -- cycles are looked for only when all edges refer to nodes
  let diags := if hasEdgeRefErrors diags then diags else diags ++ gd.validateAcyclic
  diags ++ gd.validateConditionalNodes exprValidator

/-- The entry of the graph that a definition is turned into: the declared one,
else the first node without an edge into it, else the first node. -/
def resolveEntry : String :=
  if gd.entry ≠ "" then gd.entry
  else
    let entry := (gd.nodeIDs.find? fun id => ¬ gd.edges.any (·.target = id)).getD ""
    if entry ≠ "" then entry else gd.nodeIDs.headD ""

def loadNode (factory : NodeDef → Except String Node) (g : BasicGraph) (nd : NodeDef) :
    Except String BasicGraph := do
  let node ← (factory nd).mapError fun err => s!"creating node {nd.id.quote} (type {nd.type.quote}): {err}"
  (g.addNode node).mapError fun err => s!"adding node {nd.id.quote}: {err.error}"

def wireEdge (g : BasicGraph) (ed : EdgeDef) : Except String BasicGraph :=
  (g.addEdge ed.source ed.target).mapError fun err => s!"adding edge {ed.source} -> {ed.target}: {err.error}"

def toGraph (nodeFactory : Option (NodeDef → Except String Node)) :
    Except String BasicGraph := do
  match nodeFactory with
  | none => .error "node factory is required: use WithNodeFactory"
  | some factory =>
    let g ← gd.nodes.foldlM (loadNode factory) (.newGraph gd.id)
    let g ← gd.edges.foldlM wireEdge g
    let entry := gd.resolveEntry
    if entry ≠ "" then
      (g.setEntry entry).mapError fun err => s!"setting entry node {entry.quote}: {err.error}"
    else .ok g

end GraphDefinition

def reports (diags : List Diagnostic) (code : Code) : Bool := diags.any (·.code = code)

@[simp] theorem reports_append (left right : List Diagnostic) (code : Code) :
    reports (left ++ right) code = (reports left code || reports right code) :=
  any_append

theorem reports_eq_true {diags : List Diagnostic} {code : Code} :
    reports diags code = true ↔ ∃ d ∈ diags, d.code = code := by
  simp [reports]

def OnlyRules (codes : List Code) (diags : List Diagnostic) : Prop := ∀ d ∈ diags, d.code ∈ codes

variable {α : Type} {codes : List Code} {diags left right : List Diagnostic}

theorem OnlyRules.nil : OnlyRules codes [] := by
  intro d hd
  cases hd

theorem OnlyRules.singleton {d : Diagnostic} (hd : d.code ∈ codes) : OnlyRules codes [d] := by
  intro d' hd'
  rwa [mem_singleton.mp hd']

theorem OnlyRules.append (hleft : OnlyRules codes left) (hright : OnlyRules codes right) :
    OnlyRules codes (left ++ right) := by
  intro d hd
  exact (mem_append.mp hd).elim (hleft d) (hright d)

variable {items : List α}

theorem OnlyRules.flatMap {find : α → List Diagnostic} (hfind : ∀ a, OnlyRules codes (find a)) :
    OnlyRules codes (items.flatMap find) := by
  intro d hd
  obtain ⟨a, _, ha⟩ := mem_flatMap.mp hd
  exact hfind a d ha

theorem OnlyRules.filterMap {find : α → Option Diagnostic} (hfind : ∀ a, ∀ d ∈ find a, d.code ∈ codes) :
    OnlyRules codes (items.filterMap find) := by
  grind [OnlyRules]

theorem OnlyRules.mono {more : List Code} (honly : OnlyRules codes diags) (hmore : codes ⊆ more) :
    OnlyRules more diags :=
  fun d hd => hmore (honly d hd)

variable {code : Code}

theorem OnlyRules.reports (honly : OnlyRules codes diags) (hcode : code ∉ codes) : reports diags code = false := by
  rw [← Bool.not_eq_true, reports_eq_true]
  rintro ⟨d, hd, rfl⟩
  exact hcode (honly d hd)

theorem OnlyRules.reports_iff (honly : OnlyRules [code] diags) : graph.reports diags code = false ↔ diags = [] := by
  constructor
  · intro hnone
    refine eq_nil_iff_forall_not_mem.mpr fun d hd => ?_
    have hreported : graph.reports diags code = true := reports_eq_true.mpr ⟨d, hd, mem_singleton.mp (honly d hd)⟩
    rw [hnone] at hreported
    cases hreported
  · rintro rfl
    rfl

namespace GraphDefinition

variable {gd : GraphDefinition} {exprValidator : Option ExprValidator}

theorem validateSchemaHeader_only : OnlyRules [.gr010] gd.validateSchemaHeader := by
  grind [OnlyRules, validateSchemaHeader]

theorem validateNodeIDs_only : OnlyRules [.gr005] gd.validateNodeIDs := by
  refine .filterMap fun ⟨id, i⟩ d hd => ?_
  grind

theorem validateEdges_only : OnlyRules [.gr001] gd.validateEdges := by
  grind [validateEdges, OnlyRules]

theorem validateEntry_only : OnlyRules [.gr007] gd.validateEntry := by
  unfold validateEntry
  split
  · exact .singleton mem_cons_self
  · exact .nil

theorem validateOrphans_only : OnlyRules [.gr002] gd.validateOrphans := by
  unfold validateOrphans
  split
  · refine .filterMap fun ⟨id, i⟩ d hd => ?_
    grind
  · exact .nil

theorem validateAcyclic_only : OnlyRules [.gr004] gd.validateAcyclic := by
  simp only [validateAcyclic]
  split
  · exact .nil
  · exact .singleton mem_cons_self

theorem validateCondition_only {node : NodeDef} {condPath : String} {cond : Vars} :
    OnlyRules [.cn001, .cn004, .cn005] (gd.validateCondition exprValidator node condPath cond) := by
  refine .append (.append ?_ ?_) ?_
  · split
    · exact .singleton (by simp)
    · exact .nil
  · split
    · split
      · exact .nil
      · split
        · exact .singleton (by simp)
        · exact .nil
    · exact .nil
  · split
    · exact .singleton (by simp)
    · exact .nil

theorem validateConditionalNodes_only :
    OnlyRules [.cn001, .cn003, .cn004, .cn005, .cn006] (gd.validateConditionalNodes exprValidator) := by
  refine .flatMap fun ⟨node, i⟩ => ?_
  simp only
  split
  · unfold validateConditionalNode
    split
    · exact .singleton (by simp)
    · exact .singleton (by simp)
    · refine .append (.flatMap fun ⟨cond, j⟩ => ?_) ?_
      · cases cond with
        | map entries => exact validateCondition_only.mono (by simp)
        | _ => exact .nil
      · split
        · exact .singleton (by simp)
        · exact .nil
    · exact .singleton (by simp)
  · exact .nil

@[simp] theorem reports_validateSchemaHeader (hcode : code ≠ .gr010) :
    reports gd.validateSchemaHeader code = false :=
  validateSchemaHeader_only.reports (by simpa using hcode)

@[simp] theorem reports_validateNodeIDs (hcode : code ≠ .gr005) : reports gd.validateNodeIDs code = false :=
  validateNodeIDs_only.reports (by simpa using hcode)

@[simp] theorem reports_validateEdges (hcode : code ≠ .gr001) : reports gd.validateEdges code = false :=
  validateEdges_only.reports (by simpa using hcode)

@[simp] theorem reports_validateEntry (hcode : code ≠ .gr007) : reports gd.validateEntry code = false :=
  validateEntry_only.reports (by simpa using hcode)

@[simp] theorem reports_validateOrphans (hcode : code ≠ .gr002) : reports gd.validateOrphans code = false :=
  validateOrphans_only.reports (by simpa using hcode)

@[simp] theorem reports_validateAcyclic (hcode : code ≠ .gr004) : reports gd.validateAcyclic code = false :=
  validateAcyclic_only.reports (by simpa using hcode)

@[simp] theorem reports_validateConditionalNodes
    (hcode : code ∉ ([.cn001, .cn003, .cn004, .cn005, .cn006] : List Code)) :
    reports (gd.validateConditionalNodes exprValidator) code = false :=
  validateConditionalNodes_only.reports hcode

def EdgesDefined (gd : GraphDefinition) : Prop := ∀ e ∈ gd.links, e.1 ∈ gd.nodeIDs ∧ e.2 ∈ gd.nodeIDs

theorem validateEdges_eq_nil_iff : gd.validateEdges = [] ↔ gd.EdgesDefined := by
  simp only [validateEdges, flatMap_eq_nil_iff, append_eq_nil_iff, EdgesDefined, links, forall_mem_map]
  constructor
  · intro hall e he
    obtain ⟨i, hi⟩ := mem_iff_getElem?.mp he
    have hpair := hall (e, i) (mk_mem_zipIdx_iff_getElem?.mpr hi)
    simpa using hpair
  grind

theorem validateNodeIDs_eq_nil_iff : gd.validateNodeIDs = [] ↔ gd.nodeIDs.Nodup := by
  simp only [validateNodeIDs, filterMap_eq_nil_iff, ite_eq_right_iff, reduceCtorEq, imp_false]
  rw [nodup_iff_getElem?_ne_getElem?]
  constructor
  · intro hall i j hij hj heq
    have hmem := hall (gd.nodeIDs[j], j) (mk_mem_zipIdx_iff_getElem?.mpr (getElem?_eq_getElem hj))
    refine hmem (mem_take_iff_getElem.mpr ⟨i, by omega, ?_⟩)
    grind
  · rintro hne ⟨id, j⟩ hmem htake
    obtain ⟨i, hi, heq⟩ := mem_take_iff_getElem.mp htake
    grind

theorem validateEntry_eq_nil_iff : gd.validateEntry = [] ↔ gd.entry = "" ∨ gd.entry ∈ gd.nodeIDs := by
  simp only [validateEntry, ite_eq_right_iff, cons_ne_nil, imp_false]
  tauto

theorem validateAcyclic_eq_nil_iff :
    gd.validateAcyclic = [] ↔ gd.nodes.length ≤ (kahn.run gd.nodeIDs gd.links).visited := by
  simp_all [kahn.run, detectCycle, validateAcyclic, nodeIDs]

theorem reports_gr001_iff : reports (gd.validate exprValidator) .gr001 = false ↔ gd.EdgesDefined := by
  rw [← validateEdges_eq_nil_iff, ← validateEdges_only.reports_iff]
  simp [validate, apply_ite (reports · .gr001)]

theorem reports_gr005_iff : reports (gd.validate exprValidator) .gr005 = false ↔ gd.nodeIDs.Nodup := by
  rw [← validateNodeIDs_eq_nil_iff, ← validateNodeIDs_only.reports_iff]
  simp [validate, apply_ite (reports · .gr005)]

theorem reports_gr007_iff :
    reports (gd.validate exprValidator) .gr007 = false ↔ gd.entry = "" ∨ gd.entry ∈ gd.nodeIDs := by
  rw [← validateEntry_eq_nil_iff, ← validateEntry_only.reports_iff]
  simp [validate, apply_ite (reports · .gr007)]

def Acyclic (gd : GraphDefinition) : Prop := dag.Acyclic fun a b => (a, b) ∈ gd.links

theorem reports_gr004_iff (hnodup : gd.nodeIDs.Nodup) (hedges : gd.EdgesDefined) :
    reports (gd.validate exprValidator) .gr004 = false ↔ gd.Acyclic := by
  have hvisited := kahn.length_le_visited_iff hnodup hedges
  rw [nodeIDs, length_map] at hvisited
  have hedgeRefs : hasEdgeRefErrors (gd.validateSchemaHeader ++ gd.validateNodeIDs ++ gd.validateEdges ++
      gd.validateEntry ++ gd.validateOrphans) = false := by
    show reports _ .gr001 = false
    simp [validateEdges_eq_nil_iff.mpr hedges]
  rw [Acyclic, ← hvisited, ← nodeIDs, ← validateAcyclic_eq_nil_iff, ← validateAcyclic_only.reports_iff]
  simp only [validate, hedgeRefs, Bool.false_eq_true, if_false]
  simp

/-- A definition that describes a graph: ids are unique, edges and the entry
refer to nodes, and there is no cycle. -/
structure WellFormed (gd : GraphDefinition) : Prop where
  nodup : gd.nodeIDs.Nodup
  edges : gd.EdgesDefined
  entry : gd.entry = "" ∨ gd.entry ∈ gd.nodeIDs
  acyclic : gd.Acyclic

/-- The rules on the structure of a graph report nothing exactly on the
definitions that describe one. -/
theorem validate_exact (gd : GraphDefinition) (exprValidator : Option ExprValidator) :
    (∀ code ∈ [Code.gr001, .gr004, .gr005, .gr007], reports (gd.validate exprValidator) code = false) ↔
      gd.WellFormed := by
  simp only [forall_mem_cons, not_mem_nil, false_implies, implies_true, and_true]
  rw [reports_gr001_iff, reports_gr005_iff, reports_gr007_iff]
  constructor
  · rintro ⟨hedges, hcycle, hnodup, hentry⟩
    exact ⟨hnodup, hedges, hentry, (reports_gr004_iff hnodup hedges).mp hcycle⟩
  · intro hgd
    exact ⟨hgd.edges, (reports_gr004_iff hgd.nodup hgd.edges).mpr hgd.acyclic, hgd.nodup, hgd.entry⟩

theorem validateOrphans_severity : ∀ d ∈ gd.validateOrphans, d.severity = .warning := by
  intro d hd
  unfold validateOrphans at hd
  grind

theorem validateNodeIDs_severity : ∀ d ∈ gd.validateNodeIDs, d.severity = .error := by
  intro d hd
  obtain ⟨⟨id, i⟩, _, hfound⟩ := mem_filterMap.mp hd
  grind

theorem validateEdges_severity : ∀ d ∈ gd.validateEdges, d.severity = .error := by
  intro d hd
  obtain ⟨⟨edge, i⟩, _, hfound⟩ := mem_flatMap.mp hd
  grind

theorem validateEntry_severity : ∀ d ∈ gd.validateEntry, d.severity = .error := by
  grind [validateEntry]

theorem validateAcyclic_severity : ∀ d ∈ gd.validateAcyclic, d.severity = .error := by
  simp [validateAcyclic]

theorem validate_severity {d : Diagnostic} (hd : d ∈ gd.validate exprValidator)
    (hcode : d.code ∈ [Code.gr001, .gr004, .gr005, .gr007]) : d.severity = .error := by
  have hparts : d ∈ gd.validateSchemaHeader ∨ d ∈ gd.validateNodeIDs ∨ d ∈ gd.validateEdges ∨
      d ∈ gd.validateEntry ∨ d ∈ gd.validateOrphans ∨ d ∈ gd.validateAcyclic ∨
      d ∈ gd.validateConditionalNodes exprValidator := by
    simp only [validate] at hd
    split at hd
    · grind
    · simp_all
  rcases hparts with hd | hd | hd | hd | hd | hd | hd
  · rw [mem_singleton.mp (validateSchemaHeader_only d hd)] at hcode
    simp at hcode
  · exact validateNodeIDs_severity d hd
  · exact validateEdges_severity d hd
  · exact validateEntry_severity d hd
  · rw [mem_singleton.mp (validateOrphans_only d hd)] at hcode
    simp at hcode
  · exact validateAcyclic_severity d hd
  · have honly := validateConditionalNodes_only d hd
    grind

variable (hok : hasErrors (gd.validate exprValidator) = false)
include hok

theorem reports_of_ok
    (hcode : code ∈ [Code.gr001, .gr004, .gr005, .gr007]) : reports (gd.validate exprValidator) code = false := by
  rw [← Bool.not_eq_true, reports_eq_true]
  rintro ⟨d, hd, rfl⟩
  exact any_eq_false.mp hok d hd (decide_eq_true (validate_severity hd hcode))

theorem wellFormed_of_validate : gd.WellFormed := by
  have hnodup := reports_gr005_iff.mp (reports_of_ok hok (by simp))
  have hedges := reports_gr001_iff.mp (reports_of_ok hok (by simp))
  exact ⟨hnodup, hedges, reports_gr007_iff.mp (reports_of_ok hok (by simp)),
    (reports_gr004_iff hnodup hedges).mp (reports_of_ok hok (by simp))⟩

end GraphDefinition

namespace GraphDefinition

variable (gd : GraphDefinition) (reg : Registry)

/-- The node of an id. Of several nodes the last one counts. -/
def nodeByID? (id : String) : Option NodeDef := gd.nodes.reverse.find? (·.id = id)

/-- The type of the node of an id. Of several nodes the last one with a known type counts. -/
def defByNodeID? (id : String) : Option NodeTypeDef :=
  gd.nodes.reverse.findSome? fun node => if node.id = id then reg.get node.type else none

/-- GR-003 and GR-008: the types of the nodes. -/
def validateTypes : List Diagnostic :=
  gd.nodes.zipIdx.flatMap fun (node, i) =>
    match reg.get node.type with
    | none =>
      [{ code := .gr003, severity := .error
         message := s!"Node {node.id.quote} references unknown type {node.type.quote}", path := s!"nodes[{i}].type" }]
    | some typeDef =>
      if typeDef.isTool ∧ typeDef.toolMode = "function_call" then
        [{ code := .gr008, severity := .error
           message := s!"Node {node.id.quote} uses function_call tool type {node.type.quote} as a standalone graph node"
           path := s!"nodes[{i}].type" }]
      else []

def hasPortName (ports : List PortDef) (name : String) : Bool := ports.any (·.name = name)

/-- GR-006: the source handles, where the outputs of the source are static. -/
def validateSourceHandles : List Diagnostic :=
  gd.edges.zipIdx.flatMap fun (edge, i) =>
    if edge.sourceHandle = "" then []
    else
      match gd.nodeByID? edge.source with
      | none => []
      | some srcNode =>
        if srcNode.type = "conditional" then []
        else
          match gd.defByNodeID? reg edge.source with
          | none => []
          | some srcDef =>
            if hasPortName srcDef.ports.outputs edge.sourceHandle then []
            else
              [{ code := .gr006, severity := .error
                 message := s!"Edge sourceHandle {edge.sourceHandle.quote} is not an output port on node " ++
                   s!"{edge.source.quote} (type {srcNode.type.quote})"
                 path := s!"edges[{i}].sourceHandle" }]

/-- GR-009: triggers have no inbound edges. -/
def validateTriggers : List Diagnostic :=
  gd.nodes.zipIdx.flatMap fun (node, i) =>
    if node.type = "webhook_trigger" ∧ gd.edges.any (·.target = node.id) then
      [{ code := .gr009, severity := .error
         message := s!"Node {node.id.quote} (webhook_trigger) must not have inbound edges", path := s!"nodes[{i}]" }]
    else []

end GraphDefinition

def GraphDefinition.validateWithRegistry (gd : GraphDefinition) (reg : Option Registry)
    (exprValidator : Option ExprValidator) : List Diagnostic :=
  match reg with
  | none => gd.validate exprValidator
  | some reg =>
    gd.validate exprValidator ++ gd.validateTypes reg ++ gd.validateSourceHandles reg ++ gd.validateTriggers

end petalflow.graph
