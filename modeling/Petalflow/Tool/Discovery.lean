import Mathlib.Data.String.Basic
import Petalflow.Tool.Mcp

open List Option fold
open dict (Dict sortedKeys)
open text (trimSpace isWord)

namespace petalflow.tool

def ToolManifest.targetTool (manifest : ToolManifest) (request : String) : Option String :=
  let actionName := trimSpace request
  if actionName = "" then none
  else
    (manifest.actions.get? actionName).map fun action =>
      let targetTool := trimSpace action.mcpToolName
      if targetTool = "" then actionName else targetTool

def toolName (actions : Dict String ActionSpec) (name : String) : Option String :=
  (actions.get? name).map (·.mcpToolName)

theorem targetTool_eq {manifest : ToolManifest} {name tool : String} (hne : trimSpace name ≠ "")
    (htool : toolName manifest.actions (trimSpace name) = some tool) (htrim : trimSpace tool = tool)
    (htne : tool ≠ "") :
    manifest.targetTool name = some tool := by
  obtain ⟨action, haction, rfl⟩ := map_eq_some_iff.mp htool
  simp_all [ToolManifest.targetTool]

theorem targetTool_eq_some {manifest : ToolManifest} {name tool : String}
    (htool : manifest.targetTool name = some tool) :
    trimSpace tool = tool ∧ tool ≠ "" ∧ ∃ mcpName, toolName manifest.actions (trimSpace name) = some mcpName ∧
      tool = if trimSpace mcpName = "" then trimSpace name else trimSpace mcpName := by
  unfold ToolManifest.targetTool at htool
  dsimp only at htool
  split at htool
  · cases htool
  next hname =>
  obtain ⟨action, haction, rfl⟩ := map_eq_some_iff.mp htool
  refine ⟨?_, ?_, action.mcpToolName, by rw [toolName, haction]; rfl, rfl⟩
  · split <;> exact text.trimSpace_trimSpace _
  · split
    · exact hname
    · assumption

theorem isWord_foldl_sanitizeStep (cs : List Char) : ∀ x ∈ cs.foldl sanitizeStep [], isWord x = true := by
  apply foldl_induction (P := fun _ out => ∀ x ∈ out, isWord x = true)
  · intro _ out c _ hout
    grind [sanitizeStep, isWord]
  · simp

theorem trimUnderscores_spec (cs : List Char) :
    trimUnderscores cs ⊆ cs ∧ (trimUnderscores cs).head? ≠ some '_' ∧ (trimUnderscores cs).getLast? ≠ some '_' := by
  unfold trimUnderscores
  have hfront : ∀ l : List Char, (l.dropWhile (· = '_')).head? ≠ some '_' := by
    intro l hl
    have hnot := head?_dropWhile_not (· = '_') l
    rw [hl] at hnot
    cases hnot
  have hstart := rdropWhile_prefix (decide <| · = '_') (cs.dropWhile (· = '_'))
  refine ⟨fun c hc => (dropWhile_sublist _).subset (hstart.subset hc), fun hhead => ?_, ?_⟩
  · obtain ⟨rest, hrest⟩ := hstart
    apply hfront cs
    rw [← hrest, head?_append]
    simp [rdropWhile, hhead]
  · rw [getLast?_reverse]
    exact hfront _

/-- Small letters, digits and underscores, with a letter first and no underscore last. -/
def Sanitized (cs : List Char) : Prop :=
  (∀ c ∈ cs, isWord c = true ∧ c.toLower = c) ∧ cs.head?.any (fun c => c ≠ '_' && !c.isDigit) = true ∧
    cs.getLast? ≠ some '_'

theorem sanitizeMCPActionName_spec (name : String) : Sanitized (sanitizeMCPActionName name).toList := by
  have haction : Sanitized "action".toList := ⟨by simp [isWord], rfl, by simp⟩
  unfold sanitizeMCPActionName
  dsimp only
  split
  · exact haction
  obtain ⟨hsubset, hhead, hlast⟩ := trimUnderscores_spec ((trimSpace name).toList.foldl sanitizeStep [])
  have hwords := fun c hc => isWord_foldl_sanitizeStep (trimSpace name).toList c (hsubset hc)
  generalize trimUnderscores ((trimSpace name).toList.foldl sanitizeStep []) = out at hwords hhead hlast
  have hlower : ∀ c ∈ out.map Char.toLower, isWord c = true ∧ c.toLower = c := by
    intro c hc
    obtain ⟨d, hd, rfl⟩ := List.mem_map.mp hc
    exact ⟨(text.isWord_spec (hwords d hd)).2.1, (text.isWord_spec (hwords d hd)).2.2.1⟩
  have hend : (out.map Char.toLower).getLast? ≠ some '_' := by
    intro hunderscore
    obtain ⟨c, hc, hc'⟩ := map_eq_some_iff.mp ((getLast?_map ..).symm.trans hunderscore)
    rw [(text.isWord_spec (hwords c (mem_of_getLast? hc))).2.2.2 hc'] at hc
    exact hlast hc
  cases out with
  | nil => exact haction
  | cons c cs =>
    have hfirst : c.toLower ≠ '_' := by
      intro hunderscore
      rw [(text.isWord_spec (hwords c mem_cons_self)).2.2.2 hunderscore] at hhead
      exact hhead rfl
    rw [map_cons] at hlower hend ⊢
    dsimp only
    split
    next hdigit =>
      simp only [String.toList_append, String.toList_ofList]
      refine ⟨forall_mem_append.mpr ⟨by simp [isWord], hlower⟩, rfl, ?_⟩
      · rw [getLast?_append_of_ne_nil _ (cons_ne_nil _ _)]
        exact hend
    next hdigit =>
      rw [String.toList_ofList]
      exact ⟨hlower, by simp [hfirst, hdigit], hend⟩

theorem sanitizeMCPActionName_of_sanitized {name : String} (hname : Sanitized name.toList) :
    sanitizeMCPActionName name = name := by
  obtain ⟨hwords, hhead, hlast⟩ := hname
  have hfold : ∀ cs out : List Char, (∀ c ∈ cs, isWord c = true ∧ c.toLower = c) →
      cs.foldl sanitizeStep out = out ++ cs := by
    intro cs
    induction cs with
    | nil => simp
    | cons c cs ih =>
      intro out hcs
      rw [forall_mem_cons] at hcs
      rw [foldl_cons, ih _ hcs.2]
      simp_all [sanitizeStep, isWord]
  have hkept : ∀ l : List Char, l.head? ≠ some '_' → l.dropWhile (· = '_') = l := by
    intro l hl
    cases l with
    | nil => rfl
    | cons c cs => exact dropWhile_cons_of_neg (by simpa using hl)
  have hfirst : name.toList.head? ≠ some '_' := by
    intro hunderscore
    rw [hunderscore] at hhead
    cases hhead
  have htrim : trimUnderscores name.toList = name.toList := by
    rw [trimUnderscores, hkept _ hfirst, hkept _ (by rwa [head?_reverse]), reverse_reverse]
  have hlower : name.toList.map Char.toLower = name.toList :=
    (map_congr_left fun c hc => (hwords c hc).2).trans (map_id _)
  have hne : name ≠ "" := by
    rintro rfl
    cases hhead
  unfold sanitizeMCPActionName
  rw [text.trimSpace_of_words fun c hc => (hwords c hc).1, if_neg hne, hfold _ [] hwords, nil_append, htrim, hlower]
  cases hcs : name.toList with
  | nil => exact absurd (String.toList_eq_nil_iff.mp hcs) hne
  | cons c cs =>
    rw [hcs, head?_cons, any_some, Bool.and_eq_true, Bool.not_eq_true'] at hhead
    dsimp only
    rw [hhead.2, ← hcs, String.ofList_toList]
    rfl

theorem sanitizeMCPActionName_idem (name : String) :
    sanitizeMCPActionName (sanitizeMCPActionName name) = sanitizeMCPActionName name :=
  sanitizeMCPActionName_of_sanitized (sanitizeMCPActionName_spec name)

theorem trimSpace_sanitizeMCPActionName (name : String) :
    trimSpace (sanitizeMCPActionName name) = sanitizeMCPActionName name :=
  text.trimSpace_of_words fun c hc => ((sanitizeMCPActionName_spec name).1 c hc).1

theorem sanitizeMCPActionName_ne (name : String) : sanitizeMCPActionName name ≠ "" := by
  intro hempty
  have hhead := (sanitizeMCPActionName_spec name).2.1
  rw [hempty] at hhead
  cases hhead

variable {env : MCPEnv} {tools : List DiscoveredTool} {name mcpName : String}

theorem toolName_discoveredActions (hapart : (tools.map fun tool => sanitizeMCPActionName tool.name).Nodup)
    {tool : DiscoveredTool} (htool : tool ∈ tools) :
    toolName (discoveredActions env tools) (sanitizeMCPActionName tool.name) = some tool.name := by
  rw [toolName, map_eq_some_iff]
  simp only [discoveredActions, Dict.get?_foldl_insert_iff _ hapart]
  exact ⟨_, ⟨tool, htool, rfl, rfl⟩, rfl⟩

theorem exists_of_toolName_discoveredActions (hname : toolName (discoveredActions env tools) name = some mcpName) :
    ∃ tool ∈ tools, sanitizeMCPActionName tool.name = name ∧ tool.name = mcpName := by
  refine foldl_induction (P := fun _ actions => ∀ name mcpName, toolName actions name = some mcpName →
    ∃ tool ∈ tools, sanitizeMCPActionName tool.name = name ∧ tool.name = mcpName) ?_ ?_ name mcpName hname
  · intro _ actions tool htool hactions name mcpName hname
    by_cases hkey : name = sanitizeMCPActionName tool.name
    · rw [hkey, toolName, Dict.get?_insert_self, map_some, some_inj] at hname
      exact ⟨tool, htool, hkey.symm, hname⟩
    · rw [toolName, Dict.get?_insert_of_ne hkey] at hname
      exact hactions name mcpName hname
  · nofun

theorem toolName_ensureActionMCPToolNames (merged : ToolManifest) (name : String) :
    toolName (ensureActionMCPToolNames merged).actions name =
      (toolName merged.actions name).map fun mcpName => if trimSpace mcpName ≠ "" then mcpName else name := by
  unfold toolName ensureActionMCPToolNames
  cases hname : merged.actions.get? name with
  | none => simp [hname]
  | some action => by_cases hblank : trimSpace action.mcpToolName = "" <;> simp [hname, hblank]

section grouping

variable {discovered : Dict String ActionSpec} {overlay : MCPOverlay}
  {state : Dict String ActionSpec × List Diagnostic} {names : List String} {target : String}

theorem applyGroupAction_spec (htarget : overlay.groupActions.get? name = some target)
    (hnone : hasValidationErrors (applyGroupAction discovered overlay state name).2 = false) :
    hasValidationErrors state.2 = false ∧ ∃ source, discovered.get? target = some source ∧
      (applyGroupAction discovered overlay state name).1 =
        if name ≠ target then (state.1.insert name { source with mcpToolName := target }).erase target
        else state.1.insert name { source with mcpToolName := target } := by
  grind [applyGroupAction, report, hasValidationErrors]

variable (hnames : ∀ name ∈ names, ∃ target, overlay.groupActions.get? name = some target)
  (hnone : hasValidationErrors (names.foldl (applyGroupAction discovered overlay) state).2 = false)
include hnames hnone

theorem hasValidationErrors_of_foldl : hasValidationErrors state.2 = false := by
  induction names generalizing state with
  | nil => exact hnone
  | cons name rest ih =>
    rw [forall_mem_cons] at hnames
    obtain ⟨⟨target, htarget⟩, hrest⟩ := hnames
    exact (applyGroupAction_spec htarget (ih hrest hnone)).1

/-- One alias with what comes before and after it. -/
theorem foldl_applyGroupAction_split (hsorted : names.Pairwise (· < ·)) (hname : name ∈ names)
    (htarget : overlay.groupActions.get? name = some target) :
    ∃ (after : List String) (source : ActionSpec) (before : Dict String ActionSpec × List Diagnostic),
      (∀ other ∈ after, other ∈ names ∧ name < other) ∧ discovered.get? target = some source ∧
      hasValidationErrors (after.foldl (applyGroupAction discovered overlay) before).2 = false ∧
      names.foldl (applyGroupAction discovered overlay) state =
        after.foldl (applyGroupAction discovered overlay) before ∧
      before.1.get? name = some { source with mcpToolName := target } ∧
      (name ≠ target → before.1.get? target = none) := by
  obtain ⟨first, after, rfl⟩ := append_of_mem hname
  rw [foldl_append, foldl_cons] at hnone ⊢
  have hafter : ∀ other ∈ after, other ∈ first ++ name :: after ∧ name < other := fun other hother =>
    ⟨by simp [hother], (pairwise_cons.mp (pairwise_append.mp hsorted).2.1).1 other hother⟩
  have hstep := hasValidationErrors_of_foldl (fun other hother => hnames other (hafter other hother).1) hnone
  obtain ⟨-, source, hsource, hactions⟩ := applyGroupAction_spec htarget hstep
  refine ⟨after, source, _, hafter, hsource, hnone, rfl, ?_, fun hne => ?_⟩
  · rw [hactions]
    split
    next hne => rw [Dict.get?_erase_of_ne hne, Dict.get?_insert_self]
    · exact Dict.get?_insert_self ..
  · rw [hactions, if_pos hne, Dict.get?_erase_self]

theorem foldl_applyGroupAction_of_untouched {key : String}
    (huntouched : ∀ name ∈ names, name ≠ key ∧ overlay.groupActions.get? name ≠ some key) :
    (names.foldl (applyGroupAction discovered overlay) state).1.get? key = state.1.get? key := by
  induction names generalizing state with
  | nil => rfl
  | cons name rest ih =>
    rw [forall_mem_cons] at hnames huntouched
    obtain ⟨⟨target, htarget⟩, hrest⟩ := hnames
    obtain ⟨⟨hkey, hother⟩, huntouched⟩ := huntouched
    rw [foldl_cons] at hnone ⊢
    obtain ⟨-, source, -, hactions⟩ := applyGroupAction_spec htarget (hasValidationErrors_of_foldl hrest hnone)
    have hne : key ≠ target := by
      rintro rfl
      exact hother htarget
    rw [ih hrest hnone huntouched, hactions]
    split
    · rw [Dict.get?_erase_of_ne hne, Dict.get?_insert_of_ne (Ne.symm hkey)]
    · rw [Dict.get?_insert_of_ne (Ne.symm hkey)]

theorem foldl_applyGroupAction_of_standing (hsorted : names.Pairwise (· < ·))
    (hstanding : ∀ other, overlay.groupActions.get? other = some name → other ≠ name → other < name)
    (hname : name ∈ names) (htarget : overlay.groupActions.get? name = some target) :
    toolName (names.foldl (applyGroupAction discovered overlay) state).1 name = some target := by
  obtain ⟨after, source, before, hafter, -, hnone, hfold, hget, -⟩ :=
    foldl_applyGroupAction_split hnames hnone hsorted hname htarget
  have hlater : ∀ other ∈ after, other ≠ name ∧ overlay.groupActions.get? other ≠ some name := by
    intro other hother
    have hlt := (hafter other hother).2
    exact ⟨ne_of_gt hlt, fun hback => lt_asymm hlt (hstanding other hback (ne_of_gt hlt))⟩
  rw [toolName, hfold, foldl_applyGroupAction_of_untouched (fun other hother => hnames other (hafter other hother).1)
    hnone hlater, hget]
  rfl

/-- The target of an alias is erased for good, unless it is itself an alias that comes later. -/
theorem foldl_applyGroupAction_of_erased (hsorted : names.Pairwise (· < ·)) {other : String} (hother : other ∈ names)
    (htarget : overlay.groupActions.get? other = some name) (hne : other ≠ name)
    (hlater : name ∈ names → name < other) :
    (names.foldl (applyGroupAction discovered overlay) state).1.get? name = none := by
  obtain ⟨after, source, before, hafter, -, -, hfold, -, hget⟩ :=
    foldl_applyGroupAction_split hnames hnone hsorted hother htarget
  rw [hfold]
  refine foldl_induction (P := fun _ (state : Dict String ActionSpec × List Diagnostic) => state.1.get? name = none)
    ?_ (hget hne)
  intro _ state key hkey hstate
  have hfresh : name ≠ key := by
    rintro rfl
    exact lt_asymm (hafter name hkey).2 (hlater (hafter name hkey).1)
  unfold applyGroupAction
  by_cases hname : name = (overlay.groupActions.get? key).getD "" <;>
    grind [Dict.get?_insert_of_ne, Dict.get?_erase_of_ne, Dict.get?_erase_self]

end grouping

section overrides

theorem toolName_modifyAction {actions : Dict String ActionSpec} {change : ActionSpec → ActionSpec}
    (hchange : ∀ spec, (change spec).mcpToolName = spec.mcpToolName) (key : String) :
    toolName (modifyAction actions name change) key = toolName actions key := by
  unfold modifyAction
  split
  · rfl
  · next spec hspec =>
    rw [toolName, toolName]
    by_cases hkey : key = name
    · simp_all
    · rw [Dict.get?_insert_of_ne hkey]

theorem toolName_foldl_modifyAction {α : Type} (change : α → ActionSpec → ActionSpec)
    (hchange : ∀ a spec, (change a spec).mcpToolName = spec.mcpToolName) (entries : List (String × α))
    (actions : Dict String ActionSpec) (key : String) :
    toolName (entries.foldl (fun actions e => modifyAction actions e.1 (change e.2)) actions) key =
      toolName actions key := by
  apply foldl_induction (P := fun _ changed => toolName changed key = toolName actions key)
  · intro _ changed e _ hsame
    rw [toolName_modifyAction (hchange e.2), hsame]
  · rfl

theorem applyActionMode_mcpToolName (mode : String) (spec : ActionSpec) :
    (applyActionMode env mode spec).mcpToolName = spec.mcpToolName := by
  grind [applyActionMode]

variable (merged : ToolManifest)
include merged

variable (overlay : MCPOverlay)
include overlay

theorem applyHealthOverrides_actions : (applyHealthOverrides merged overlay).actions = merged.actions := by
  unfold applyHealthOverrides
  split
  · rfl
  · rfl

theorem toolName_applyDescriptionOverrides (key : String) :
    toolName (applyDescriptionOverrides merged overlay).actions key = toolName merged.actions key :=
  toolName_foldl_modifyAction (fun description spec => { spec with description }) (fun _ _ => rfl) _ _ key

theorem toolName_applyInputOverrides (key : String) :
    toolName (applyInputOverrides merged overlay).actions key = toolName merged.actions key :=
  toolName_foldl_modifyAction (fun inputs spec => { spec with inputs := spec.inputs.overlay inputs })
    (fun _ _ => rfl) _ _ key

theorem toolName_applyOutputSchemas (key : String) :
    toolName (applyOutputSchemas merged overlay).actions key = toolName merged.actions key :=
  toolName_foldl_modifyAction (fun outputs spec => { spec with outputs }) (fun _ _ => rfl) _ _ key

theorem toolName_applyActionModes (key : String) :
    toolName (applyActionModes env merged overlay).actions key = toolName merged.actions key :=
  toolName_foldl_modifyAction (applyActionMode env) applyActionMode_mcpToolName _ _ key

omit overlay

omit merged

theorem mergeMCPOverlay_toolName {base merged : ToolManifest} {overlay : MCPOverlay} {diags : List Diagnostic}
    (hmerge : mergeMCPOverlay env base overlay = .ok (merged, diags)) :
    hasValidationErrors (validateMCPOverlay env overlay) = false ∧
      hasValidationErrors (applyGroupActions (ensureActionMCPToolNames base) overlay).2 = false ∧
      ∀ key, toolName merged.actions key =
        toolName (applyGroupActions (ensureActionMCPToolNames base) overlay).1.actions key := by
  unfold mergeMCPOverlay at hmerge
  obtain ⟨hvalid, hmerge⟩ := ite_error_eq_ok.mp hmerge
  generalize applyGroupActions (ensureActionMCPToolNames base) overlay = found at hmerge ⊢
  obtain ⟨hdiags, hmerge⟩ := ite_error_eq_ok.mp hmerge
  have hmerged := (Prod.mk.inj (Except.ok.inj hmerge)).1
  refine ⟨Bool.eq_false_of_not_eq_true hvalid, ?_, fun key => ?_⟩
  · simp_all [hasValidationErrors, sortDiagnostics]
  · rw [← hmerged, applyHealthOverrides_actions, applyMetadataOverrides, applyConfigOverrides]
    rw [toolName_applyActionModes, toolName_applyOutputSchemas, toolName_applyInputOverrides,
      toolName_applyDescriptionOverrides]

end overrides

section results

def aliases (overlay : Option MCPOverlay) : Dict String String :=
  (overlay.map (·.groupActions)).getD .empty

/-- Names and aliases under which no tool is lost when the aliases are applied in their order. -/
structure KeepsTools (tools : List DiscoveredTool) (groupActions : Dict String String) : Prop where
  /-- names stand as the adapter sends them -/
  trimmed : ∀ tool ∈ tools, trimSpace tool.name = tool.name ∧ tool.name ≠ ""
  /-- no two tools share an action name -/
  apart : (tools.map fun tool => sanitizeMCPActionName tool.name).Nodup
  /-- targets are names of tools -/
  named : ∀ name target, groupActions.get? name = some target → ∃ tool ∈ tools, tool.name = target
  /-- an alias has its target also as the adapter looks it up -/
  requested : ∀ name target, groupActions.get? name = some target → groupActions.get? (trimSpace name) = some target
  /-- an alias that is a target comes after the aliases for it -/
  standing : ∀ name ∈ groupActions.keys, ∀ other, groupActions.get? other = some name → other ≠ name → other < name
  /-- an action whose name is taken as an alias is itself aliased -/
  covered : ∀ tool ∈ tools, sanitizeMCPActionName tool.name ∈ groupActions.keys →
    ∃ name, groupActions.get? name = some (sanitizeMCPActionName tool.name)

variable {overlay : MCPOverlay}

theorem trimSpace_ne_of_validateMCPOverlay (hvalid : hasValidationErrors (validateMCPOverlay env overlay) = false)
    (hname : name ∈ overlay.groupActions.keys) : trimSpace name ≠ "" := by
  intro hblank
  obtain ⟨e, he, rfl⟩ := List.mem_map.mp hname
  have hentry : ∀ diag ∈ validateGroupAction e.1 e.2, diag.severity ≠ .error := by
    intro diag hdiag
    simp only [hasValidationErrors, validateMCPOverlay, sortDiagnostics, List.any_eq_false, mem_insertionSort,
      mem_append, mem_flatMap, decide_eq_true_eq] at hvalid
    exact hvalid diag (.inl (.inl (.inl (.inl (.inr ⟨e, he, hdiag⟩)))))
  rw [validateGroupAction, if_pos hblank] at hentry
  exact hentry _ (mem_append_left _ (mem_singleton_self _)) rfl

/-- Every alias is an action that calls the tool it names, and every tool is called by some action. -/
structure CallsTools (tools : List DiscoveredTool) (groupActions : Dict String String) (manifest : ToolManifest) :
    Prop where
  aliases : ∀ action target, groupActions.get? action = some target →
    action ∈ manifest.actions.keys ∧ manifest.targetTool action = some target ∧ ∃ tool ∈ tools, tool.name = target
  tools : ∀ tool ∈ tools, ∃ action ∈ manifest.actions.keys, manifest.targetTool action = some tool.name

/-- What the names of a manifest call: its aliases, and the discovered tools that no alias touches. -/
structure Grouped (tools : List DiscoveredTool) (groupActions : Dict String String) (calls : String → Option String) :
    Prop where
  aliased : ∀ name target, groupActions.get? name = some target →
    (∀ other, groupActions.get? other = some name → other ≠ name → other < name) → calls name = some target
  erased : ∀ name other, groupActions.get? other = some name → other ≠ name →
    (name ∈ groupActions.keys → name < other) → calls name = none
  kept : ∀ name mcpName, name ∉ groupActions.keys → (∀ other, groupActions.get? other ≠ some name) →
    calls name = some mcpName →
      ∃ tool ∈ tools, sanitizeMCPActionName tool.name = name ∧ (trimSpace tool.name ≠ "" → mcpName = tool.name)
  discovered : (tools.map fun tool => sanitizeMCPActionName tool.name).Nodup → ∀ tool ∈ tools,
    trimSpace tool.name ≠ "" → sanitizeMCPActionName tool.name ∉ groupActions.keys →
    (∀ other, groupActions.get? other ≠ some (sanitizeMCPActionName tool.name)) →
      calls (sanitizeMCPActionName tool.name) = some tool.name
  target : ∀ name target, groupActions.get? name = some target →
    ∃ tool ∈ tools, sanitizeMCPActionName tool.name = target
  blank : ∀ name ∈ groupActions.keys, trimSpace name ≠ ""

theorem discoveredActions_grouped : Grouped tools .empty (toolName (discoveredActions env tools)) where
  aliased := nofun
  erased := nofun
  kept name mcpName _ _ hname := by
    obtain ⟨tool, htool, hkey, rfl⟩ := exists_of_toolName_discoveredActions hname
    exact ⟨tool, htool, hkey, fun _ => rfl⟩
  discovered hapart tool htool _ _ _ := toolName_discoveredActions hapart htool
  target := nofun
  blank := nofun

theorem applyGroupActions_grouped {base : ToolManifest} (hbase : base.actions = discoveredActions env tools)
    (hvalid : hasValidationErrors (validateMCPOverlay env overlay) = false)
    (hnone : hasValidationErrors (applyGroupActions (ensureActionMCPToolNames base) overlay).2 = false) :
    Grouped tools overlay.groupActions
      (toolName (applyGroupActions (ensureActionMCPToolNames base) overlay).1.actions) := by
  have hnames : ∀ name ∈ sortedKeys overlay.groupActions, ∃ target, overlay.groupActions.get? name = some target :=
    fun name hname => Dict.mem_keys_iff.mp (dict.mem_sortedKeys.mp hname)
  have hmem : ∀ {name target}, overlay.groupActions.get? name = some target → name ∈ sortedKeys overlay.groupActions :=
    fun htarget => dict.mem_sortedKeys.mpr (Dict.mem_keys_iff.mpr ⟨_, htarget⟩)
  have hsorted := dict.sortedKeys_pairwise overlay.groupActions
  have huntouched : ∀ name, name ∉ overlay.groupActions.keys → (∀ other, overlay.groupActions.get? other ≠ some name) →
      toolName (applyGroupActions (ensureActionMCPToolNames base) overlay).1.actions name =
        (toolName (discoveredActions env tools) name).map fun mcpName =>
          if trimSpace mcpName ≠ "" then mcpName else name := by
    intro name hname hother
    rw [← hbase, ← toolName_ensureActionMCPToolNames]
    refine congrArg (Option.map _) (foldl_applyGroupAction_of_untouched hnames hnone fun key hkey => ⟨?_, hother key⟩)
    rintro rfl
    exact hname (dict.mem_sortedKeys.mp hkey)
  constructor
  case aliased =>
    intro name target htarget hstanding
    exact foldl_applyGroupAction_of_standing hnames hnone hsorted hstanding (hmem htarget) htarget
  case erased =>
    intro name other hother hne hlater
    refine congrArg (Option.map _) (foldl_applyGroupAction_of_erased hnames hnone hsorted (hmem hother) hother hne ?_)
    exact fun hname => hlater (dict.mem_sortedKeys.mp hname)
  case kept =>
    intro name mcpName hname hother hcalls
    rw [huntouched name hname hother] at hcalls
    obtain ⟨discovered, hdiscovered, rfl⟩ := map_eq_some_iff.mp hcalls
    obtain ⟨tool, htool, hkey, rfl⟩ := exists_of_toolName_discoveredActions hdiscovered
    exact ⟨tool, htool, hkey, fun hblank => if_pos hblank⟩
  case discovered =>
    intro hapart tool htool hblank hname hother
    rw [huntouched _ hname hother, toolName_discoveredActions hapart htool, map_some, if_pos hblank]
  case target =>
    intro name target htarget
    obtain ⟨_, source, _, _, hsource, _⟩ := foldl_applyGroupAction_split hnames hnone hsorted (hmem htarget) htarget
    have hfound : toolName (ensureActionMCPToolNames base).actions target = some source.mcpToolName := by
      rw [toolName, hsource]
      rfl
    rw [toolName_ensureActionMCPToolNames, hbase] at hfound
    obtain ⟨mcpName, hmcp, _⟩ := map_eq_some_iff.mp hfound
    obtain ⟨tool, htool, hkey, _⟩ := exists_of_toolName_discoveredActions hmcp
    exact ⟨tool, htool, hkey⟩
  case blank => exact fun name hname => trimSpace_ne_of_validateMCPOverlay hvalid hname

theorem mem_keys_of_toolName {actions : Dict String ActionSpec} {action mcpName : String}
    (haction : toolName actions action = some mcpName) : action ∈ actions.keys := by
  obtain ⟨spec, hspec, -⟩ := map_eq_some_iff.mp haction
  exact Dict.mem_keys_iff.mpr ⟨spec, hspec⟩

section calls

variable {groupActions : Dict String String} {manifest : ToolManifest}
  (hgrouped : Grouped tools groupActions (toolName manifest.actions))
include hgrouped

theorem Grouped.sanitized {target : String} (htarget : groupActions.get? name = some target) :
    sanitizeMCPActionName target = target ∧ trimSpace target = target ∧ target ≠ "" := by
  obtain ⟨tool, _, rfl⟩ := hgrouped.target name target htarget
  exact ⟨sanitizeMCPActionName_idem _, trimSpace_sanitizeMCPActionName _, sanitizeMCPActionName_ne _⟩

theorem KeepsTools.callsTools (hkeeps : KeepsTools tools groupActions) : CallsTools tools groupActions manifest := by
  have haliased : ∀ action target, groupActions.get? action = some target →
      toolName manifest.actions action = some target := by
    intro action target htarget
    exact hgrouped.aliased action target htarget (hkeeps.standing action (Dict.mem_keys_iff.mpr ⟨target, htarget⟩))
  have hcalls : ∀ action target, groupActions.get? action = some target → manifest.targetTool action = some target := by
    intro action target htarget
    obtain ⟨_, htrim, hne⟩ := hgrouped.sanitized htarget
    exact targetTool_eq (hgrouped.blank action (Dict.mem_keys_iff.mpr ⟨target, htarget⟩))
      (haliased _ _ (hkeeps.requested action target htarget)) htrim hne
  refine ⟨fun action target htarget => ⟨mem_keys_of_toolName (haliased action target htarget),
    hcalls action target htarget, hkeeps.named action target htarget⟩, fun tool htool => ?_⟩
  by_cases htarget : ∃ action, groupActions.get? action = some (sanitizeMCPActionName tool.name)
  · obtain ⟨action, haction⟩ := htarget
    obtain ⟨other, hother, hname⟩ := hkeeps.named action _ haction
    -- the tool that has the name of the action is the tool behind the action
    have hsame : other = tool := by
      refine inj_on_of_nodup_map hkeeps.apart hother htool ?_
      rw [hname, sanitizeMCPActionName_idem]
    rw [← hname, hsame] at haction
    exact ⟨action, mem_keys_of_toolName (haliased action _ haction), hcalls action _ haction⟩
  · push Not at htarget
    obtain ⟨htrim, hne⟩ := hkeeps.trimmed tool htool
    have hfound := hgrouped.discovered hkeeps.apart tool htool (htrim.symm ▸ hne)
      (fun hmem => (hkeeps.covered tool htool hmem).elim htarget) htarget
    have hkey := trimSpace_sanitizeMCPActionName tool.name
    exact ⟨_, mem_keys_of_toolName hfound,
      targetTool_eq (hkey.symm ▸ sanitizeMCPActionName_ne _) (hkey.symm ▸ hfound) htrim hne⟩

theorem Grouped.calls {action tool : String}
    (htrimmed : ∀ tool ∈ tools, trimSpace tool.name = tool.name ∧ tool.name ≠ "")
    (hstanding : ∀ name ∈ groupActions.keys, ∀ other, groupActions.get? other = some name → other ≠ name → other < name)
    (hcalls : manifest.targetTool action = some tool) :
    groupActions.get? (trimSpace action) = some tool ∨
      trimSpace action = sanitizeMCPActionName tool ∧ toolName manifest.actions (trimSpace action) = some tool ∧
        trimSpace action ∉ groupActions.keys ∧ ∀ other, groupActions.get? other ≠ some (trimSpace action) := by
  obtain ⟨-, -, mcpName, hmcp, htool⟩ := targetTool_eq_some hcalls
  by_cases hname : trimSpace action ∈ groupActions.keys
  · obtain ⟨target, htarget⟩ := Dict.mem_keys_iff.mp hname
    obtain ⟨_, htrim, hne⟩ := hgrouped.sanitized htarget
    rw [hgrouped.aliased _ _ htarget (hstanding _ hname), some_inj] at hmcp
    rw [← hmcp, htrim, if_neg hne] at htool
    exact .inl (htool ▸ htarget)
  have hother : ∀ other, groupActions.get? other ≠ some (trimSpace action) := by
    intro other hother
    have hne : other ≠ trimSpace action := by
      rintro rfl
      exact hname (Dict.mem_keys_iff.mpr ⟨_, hother⟩)
    rw [hgrouped.erased _ other hother hne fun hmem => absurd hmem hname] at hmcp
    cases hmcp
  obtain ⟨found, hfound, hkey, hblank⟩ := hgrouped.kept _ _ hname hother hmcp
  obtain ⟨htrim, hne⟩ := htrimmed found hfound
  obtain rfl := hblank (htrim.symm ▸ hne)
  rw [htrim, if_neg hne] at htool
  exact .inr ⟨htool ▸ hkey.symm, htool ▸ hmcp, hname, hother⟩

theorem CallsTools.keepsTools (hcalls : CallsTools tools groupActions manifest)
    (hdistinct : (tools.map (·.name)).Nodup) : KeepsTools tools groupActions := by
  have htrimmed : ∀ tool ∈ tools, trimSpace tool.name = tool.name ∧ tool.name ≠ "" := by
    intro tool htool
    obtain ⟨action, _, htarget⟩ := hcalls.tools tool htool
    exact ⟨(targetTool_eq_some htarget).1, (targetTool_eq_some htarget).2.1⟩
  have hstanding : ∀ name ∈ groupActions.keys, ∀ other, groupActions.get? other = some name → other ≠ name →
      other < name := by
    intro name hname other hother hne
    by_contra hlater
    obtain ⟨target, htarget⟩ := Dict.mem_keys_iff.mp hname
    have hnone := hgrouped.erased name other hother hne fun _ => lt_of_le_of_ne (not_lt.mp hlater) hne.symm
    obtain ⟨spec, hspec⟩ := Dict.mem_keys_iff.mp (hcalls.aliases name target htarget).1
    rw [toolName, hspec] at hnone
    cases hnone
  have hcalled : ∀ tool ∈ tools, ∃ action, _ := fun tool htool =>
    (hcalls.tools tool htool).imp fun action haction => hgrouped.calls htrimmed hstanding haction.2
  refine ⟨htrimmed, ?_, fun name target htarget => (hcalls.aliases name target htarget).2.2,
    fun name target htarget => ?_,
    hstanding, fun tool htool hmem => ?_⟩
  · refine Nodup.map_on (fun tool htool other hother hsame => ?_) hdistinct.of_map
    refine inj_on_of_nodup_map hdistinct htool hother ?_
    obtain ⟨action, hleft | ⟨hkey, hname, _, hfree⟩⟩ := hcalled tool htool <;>
    obtain ⟨action', hleft' | ⟨hkey', hname', _, hfree'⟩⟩ := hcalled other hother
    · rw [← (hgrouped.sanitized hleft).1, hsame, (hgrouped.sanitized hleft').1]
    · rw [← (hgrouped.sanitized hleft).1, hsame, ← hkey'] at hleft
      exact absurd hleft (hfree' _)
    · rw [← (hgrouped.sanitized hleft').1, ← hsame, ← hkey] at hleft'
      exact absurd hleft' (hfree _)
    · rw [hkey, hsame, ← hkey', hname', some_inj] at hname
      exact hname.symm
  · rcases hgrouped.calls htrimmed hstanding (hcalls.aliases name target htarget).2.1 with hleft | ⟨hkey, _, _, hfree⟩
    · exact hleft
    · rw [hkey, (hgrouped.sanitized htarget).1] at hfree
      exact absurd htarget (hfree name)
  · obtain ⟨action, hleft | ⟨hkey, _, hfresh, _⟩⟩ := hcalled tool htool
    · exact ⟨_, (hgrouped.sanitized hleft).1.symm ▸ hleft⟩
    · exact absurd (hkey ▸ hmem) hfresh

end calls

/-- No alias and no discovered tool is lost exactly if the names and the aliases are as `KeepsTools` says. -/
theorem discovery_keeps_tools (env : MCPEnv) (t : Nat) (name : String) (transport : MCPTransport)
    (config : Dict String String) (overlay : Option MCPOverlay) (tools : List DiscoveredTool) (manifest : ToolManifest)
    (hlist : env.listTools t name transport config overlay = .ok tools) (hdistinct : (tools.map (·.name)).Nodup)
    (hbuilt : discoverMCPManifest env t name transport config overlay = .ok manifest) :
    CallsTools tools (aliases overlay) manifest ↔ KeepsTools tools (aliases overlay) := by
  have hgrouped : Grouped tools (aliases overlay) (toolName manifest.actions) := by
    unfold discoverMCPManifest at hbuilt
    obtain ⟨-, hbuilt⟩ := ite_error_eq_ok.mp hbuilt
    obtain ⟨listed, hlisted, hbuilt⟩ := bind_eq_ok.mp hbuilt
    obtain rfl : tools = listed := by
      rw [mapError_eq_ok, hlist] at hlisted
      exact Except.ok.inj hlisted
    cases overlay with
    | none =>
      cases hbuilt
      exact discoveredActions_grouped
    | some overlay =>
      obtain ⟨⟨merged, diags⟩, hmerge, hbuilt⟩ := bind_eq_ok.mp hbuilt
      cases hbuilt
      obtain ⟨hvalid, hnone, hsame⟩ := mergeMCPOverlay_toolName hmerge
      rw [funext hsame]
      exact applyGroupActions_grouped rfl hvalid hnone
  exact ⟨fun hcalls => hcalls.keepsTools hgrouped hdistinct, fun hkeeps => hkeeps.callsTools hgrouped⟩

end results

namespace files

def server (names : List String) : MCPEnv where
  toLower text := text
  checkHTTP _ _ := none
  checkStdio _ _ := none
  checkMCP _ _ := none
  equalFold a b := a == b
  readOverlay _ _ := .error "no such file"
  listTools _ _ _ _ _ := .ok (names.map fun name => { name })
  evaluateMCPHealth _ reg := { toolName := reg.name, state := .healthy, checkedAt := 0 }
  now t := t

def transport : MCPTransport :=
  { mode := .stdio, command := "files" }

def overlay (groupActions : Dict String String) : MCPOverlay :=
  { overlayVersion := "1.0", groupActions }

def discover (names : List String) (overlay : Option MCPOverlay) : Except ToolError ToolManifest :=
  discoverMCPManifest (server names) 0 "files" transport .empty overlay

def called (names : List String) (overlay : Option MCPOverlay) : Option (List String) :=
  (discover names overlay).toOption.map fun manifest => manifest.actions.keys.filterMap manifest.targetTool

def cat : Dict String String :=
  Dict.empty.insert "cat" "read_file"

theorem eq_of_cat {target : String} (hget : cat.get? name = some target) : name = "cat" ∧ target = "read_file" := by
  have hentries : cat.entries = [("cat", "read_file")] := by decide +kernel
  grind [Dict.get?_eq_some_iff]

theorem keepsTools : KeepsTools [{ name := "read_file" }, { name := "list-files" }] cat where
  trimmed := by decide +kernel
  apart := by decide +kernel
  named name target hget := by
    obtain ⟨-, rfl⟩ := eq_of_cat hget
    exact ⟨_, mem_cons_self, rfl⟩
  requested name target hget := by
    obtain ⟨rfl, rfl⟩ := eq_of_cat hget
    decide +kernel
  standing name hname other hget := by
    obtain ⟨-, rfl⟩ := eq_of_cat hget
    exact absurd hname (by decide +kernel)
  covered tool htool hname := by
    have hnone : ∀ tool ∈ [({ name := "read_file" } : DiscoveredTool), { name := "list-files" }],
        sanitizeMCPActionName tool.name ∉ cat.keys := by
      decide +kernel
    exact absurd hname (hnone tool htool)

end files

theorem discovery_keeps_tools_cat :
    ∃ manifest, files.discover ["read_file", "list-files"] (some (files.overlay files.cat)) = .ok manifest ∧
      manifest.targetTool "cat" = some "read_file" ∧
      ∃ action ∈ manifest.actions.keys, manifest.targetTool action = some "list-files" := by
  have hsome :
      (files.discover ["read_file", "list-files"] (some (files.overlay files.cat))).toOption.isSome = true := by
    decide +kernel
  obtain ⟨manifest, hmanifest⟩ := isSome_iff_exists.mp hsome
  rw [toOption_eq_some] at hmanifest
  have hcalls := (discovery_keeps_tools (files.server ["read_file", "list-files"]) 0 "files"
    files.transport .empty (some (files.overlay files.cat))
    [{ name := "read_file" }, { name := "list-files" }] manifest rfl
    (by decide +kernel) hmanifest).mpr files.keepsTools
  exact ⟨manifest, hmanifest, (hcalls.aliases "cat" "read_file" (by decide +kernel)).2.1,
    hcalls.tools { name := "list-files" } (by simp)⟩

/-- An alias of a renamed action calls a tool that does not exist, two names become one
action, and two aliases that swap their names leave one action. -/
theorem discovery_loses_tools :
    files.called ["list-files"] (some (files.overlay (Dict.empty.insert "ls" "list_files"))) = some ["list_files"] ∧
      files.called ["read-file", "read_file"] none = some ["read_file"] ∧
      files.called ["get", "put"] (some (files.overlay ((Dict.empty.insert "get" "put").insert "put" "get"))) =
        some ["get"] := by
  refine ⟨?_, ?_, ?_⟩ <;> decide +kernel

end petalflow.tool
