import Petalflow.Agent.Definitions
import Petalflow.Hydrate.Factory

open dict fold petalflow.core petalflow.graph petalflow.registry petalflow.nodes petalflow.hydrate List Option text

namespace petalflow.agent

variable {cs rest replacement : List Char} {taskNodeIDs : String → Option String}

abbrev isPathChar (c : Char) : Bool := text.isWord c || c = '.'

theorem inputRefPattern_eq_some :
    inputRefPattern cs = some (replacement, rest) ↔ ∃ field, field ≠ [] ∧ (∀ c ∈ field, isPathChar c = true) ∧
      cs = "\x7b\x7binput.".toList ++ (field ++ ("\x7d\x7d".toList ++ rest)) ∧
      replacement = "\x7b\x7b.".toList ++ field ++ "\x7d\x7d".toList := by
  simp only [inputRefPattern, bind_eq_bind, bind_eq_some_iff, dropPrefix?_eq_some]
  constructor
  · rintro ⟨rest₁, rfl, rest₂, hdrop, hfound⟩
    split at hfound
    · cases hfound
    · next hfield =>
      cases hfound
      obtain ⟨hsplit, hpath, _⟩ := span_iff.mp ⟨rfl, hdrop⟩
      exact ⟨_, hfield, hpath, congrArg _ hsplit, rfl⟩
  · rintro ⟨field, hfield, hpath, rfl, rfl⟩
    obtain ⟨htake, hdrop⟩ := span_append hpath ("\x7d\x7d".toList ++ rest) (by simp; decide)
    exact ⟨_, rfl, rest, hdrop, by rw [htake, if_neg hfield]⟩

def taskRefReplacement (taskNodeIDs : String → Option String) (id : List Char) : List Char :=
  match taskNodeIDs (.ofList id) with
  | some nodeID => ("\x7b\x7b." ++ nodeID ++ "_output\x7d\x7d").toList
  | none => "\x7b\x7btasks.".toList ++ id ++ ".output\x7d\x7d".toList

theorem taskRefPattern_eq_some :
    taskRefPattern taskNodeIDs cs = some (replacement, rest) ↔ ∃ id, id ≠ [] ∧ (∀ c ∈ id, text.isWord c = true) ∧
      cs = "\x7b\x7btasks.".toList ++ (id ++ (".output\x7d\x7d".toList ++ rest)) ∧
      replacement = taskRefReplacement taskNodeIDs id := by
  simp only [taskRefPattern, bind_eq_bind, bind_eq_some_iff, dropPrefix?_eq_some]
  have hmatch (id : List Char) := take_matched ("\x7b\x7btasks.".toList ++ id ++ ".output\x7d\x7d".toList) rest
  constructor
  · rintro ⟨rest₁, rfl, rest₂, hdrop, hfound⟩
    obtain ⟨hsplit, hword, _⟩ := span_iff.mp ⟨rfl, hdrop⟩
    split at hfound
    · cases hfound
    · grind [taskRefReplacement]
  · rintro ⟨id, hid, hword, rfl, rfl⟩
    obtain ⟨htake, hdrop⟩ := span_append hword (".output\x7d\x7d".toList ++ rest) (by simp; decide)
    refine ⟨_, rfl, rest, hdrop, ?_⟩
    rw [htake, if_neg hid, taskRefReplacement]
    cases taskNodeIDs (.ofList id) with
    | some nodeID => rfl
    | none =>
      simp only [← append_assoc, hmatch]

/-- The end of a task output in a condition: nothing, or a dot with all that belongs to a path. -/
inductive FieldEnd (field rest : List Char) : Prop where
  | none (hfield : field = []) (hrest : rest.head? ≠ some '.')
  | path (hfield : field.head? = some '.') (hpath : ∀ c ∈ field, isPathChar c = true)
      (hrest : ∀ c ∈ rest.head?, isPathChar c = false)

theorem fieldEnd_iff {field : List Char} :
    (if cs.head? = some '.' then cs.takeWhile isPathChar else []) = field ∧ cs.drop field.length = rest ↔
      cs = field ++ rest ∧ FieldEnd field rest := by
  constructor
  · rintro ⟨rfl, rfl⟩
    split
    · next hdot =>
      obtain ⟨hsplit, hpath, hrest⟩ := span_iff.mp (⟨rfl, rfl⟩ : cs.takeWhile isPathChar = _ ∧ _)
      have hdrop : (cs.takeWhile isPathChar ++ cs.dropWhile isPathChar).drop (cs.takeWhile isPathChar).length =
          cs.dropWhile isPathChar := drop_left
      rw [← hsplit] at hdrop
      rw [hdrop]
      refine ⟨hsplit, .path ?_ hpath hrest⟩
      cases cs with
      | nil => cases hdot
      | cons c cs =>
        cases hdot
        simp_all
    · next hdot => exact ⟨rfl, .none rfl hdot⟩
  · rintro ⟨rfl, hends⟩
    cases hends with
    | none hfield hrest => simp_all
    | path hfield hpath hrest =>
      have hdot : (field ++ rest).head? = some '.' := by
        rw [head?_append, hfield]
        rfl
      rw [if_pos hdot]
      exact ⟨(span_iff.mpr ⟨rfl, hpath, hrest⟩).1, drop_left⟩

def condExprReplacement (taskNodeIDs : String → Option String) (id field : List Char) : List Char :=
  match taskNodeIDs (.ofList id) with
  | some nodeID => (nodeID ++ "_output").toList ++ field
  | none => "tasks.".toList ++ id ++ ".output".toList ++ field

theorem condExprPattern_eq_some : condExprPattern taskNodeIDs cs = some (replacement, rest) ↔ ∃ id field, id ≠ [] ∧
      (∀ c ∈ id, text.isWord c = true) ∧ FieldEnd field rest ∧
      cs = "tasks.".toList ++ (id ++ (".output".toList ++ (field ++ rest))) ∧
      replacement = condExprReplacement taskNodeIDs id field := by
  simp only [condExprPattern, bind_eq_bind, bind_eq_some_iff, dropPrefix?_eq_some]
  have hmatch (id field : List Char) := take_matched ("tasks.".toList ++ id ++ ".output".toList ++ field) rest
  constructor
  · rintro ⟨rest₁, rfl, rest₂, hdrop, hfound⟩
    obtain ⟨hsplit, hword, _⟩ := span_iff.mp ⟨rfl, hdrop⟩
    generalize hfield : (if rest₂.head? = some '.' then rest₂.takeWhile isPathChar else []) = field at hfound
    have hends := fieldEnd_iff.mp ⟨hfield, rfl⟩
    split at hfound
    · cases hfound
    · next hid =>
      refine ⟨_, field, hid, hword, ?_⟩
      unfold condExprReplacement
      cases hnode : taskNodeIDs (.ofList (rest₁.takeWhile isWord)) with
      | some nodeID => grind
      | none => grind
  · rintro ⟨id, field, hid, hword, hends, rfl, rfl⟩
    obtain ⟨htake, hdrop⟩ := span_append hword (".output".toList ++ (field ++ rest)) (by simp; decide)
    refine ⟨_, rfl, field ++ rest, hdrop, ?_⟩
    obtain ⟨hfield, hrest⟩ := fieldEnd_iff.mpr ⟨rfl, hends⟩
    rw [htake, if_neg hid, hfield, hrest, condExprReplacement]
    cases taskNodeIDs (.ofList id) with
    | some nodeID => rfl
    | none =>
      simp only [← append_assoc, hmatch]

variable {u nodeID : String}

def placeholder (u : String) : String := "\x7b\x7btasks." ++ u ++ ".output\x7d\x7d"

def Braced (m : List Char) : Prop := ∃ c body, m = '\x7b' :: '\x7b' :: c :: body ∧ c ≠ '\x7b' ∧ '\x7b' ∉ body

variable {m before after : List Char}

theorem Braced.not_reach {b : List Char} (hm : Braced m) (hafter : Braced after) (hbefore : before ≠ [])
    (hb : b ≠ []) (hsplit : m = before ++ b) (tail : List Char) : after ++ tail ≠ b ++ rest := by
  obtain ⟨c, body, rfl, hc, hbody⟩ := hm
  obtain ⟨c', body', rfl, _⟩ := hafter
  intro heq
  -- the text before the cut has at least the first brace
  rcases before with _ | ⟨c₁, _ | ⟨c₂, before⟩⟩
  · exact hbefore rfl
  · grind
  · simp only [cons_append, List.cons.injEq] at hsplit
    rcases b with _ | ⟨d, b⟩
    · exact hb rfl
    grind

variable {field : List Char}

theorem braced_of_word {start : List Char} {c : Char} {word finish : List Char}
    (hstart : start = '\x7b' :: '\x7b' :: c :: word) (hc : c ≠ '\x7b') (hword : '\x7b' ∉ word)
    (hfinish : '\x7b' ∉ finish) (hfield : ∀ c ∈ field, isPathChar c = true) :
    Braced (start ++ (field ++ finish)) := by
  subst hstart
  refine ⟨c, word ++ (field ++ finish), rfl, hc, ?_⟩
  simp only [mem_append, not_or]
  refine ⟨hword, fun hmem => ?_, hfinish⟩
  have hclass := hfield _ hmem
  revert hclass
  decide

theorem inputRefPattern_describes : text.Describes inputRefPattern fun m r _ => ∃ field, field ≠ [] ∧
    (∀ c ∈ field, isPathChar c = true) ∧ m = "\x7b\x7binput.".toList ++ (field ++ "\x7d\x7d".toList) ∧
    r = "\x7b\x7b.".toList ++ field ++ "\x7d\x7d".toList := by
  intro cs r rest
  grind [inputRefPattern_eq_some]

theorem taskRefPattern_describes : text.Describes (taskRefPattern taskNodeIDs) fun m r _ => ∃ id, id ≠ [] ∧
    (∀ c ∈ id, text.isWord c = true) ∧ m = "\x7b\x7btasks.".toList ++ (id ++ ".output\x7d\x7d".toList) ∧
    r = taskRefReplacement taskNodeIDs id := by
  intro cs r rest
  grind [taskRefPattern_eq_some]

theorem replaceAll_braced {pattern : text.Pattern (List Char)} {M : List Char → List Char → Prop}
    (hpattern : text.Describes pattern fun m r _ => M m r) (hM : ∀ m r, M m r → Braced m) (hafter : Braced after)
    (before tail : List Char) : text.replaceAll pattern 0 (before ++ (after ++ tail)) =
      text.replaceAll pattern 0 before ++ text.replaceAll pattern 0 (after ++ tail) := by
  refine replaceAll_append fun x c y _ => ?_
  rw [← cons_append]
  refine hpattern.cut ?_ fun _ _ _ _ => Iff.rfl
  intro m r rest hm b hb hsplit
  exact (hM m r hm).not_reach hafter (cons_ne_nil c y) hb hsplit tail

theorem replaceAll_inputRef (hafter : Braced after) (before tail : List Char) :
    text.replaceAll inputRefPattern 0 (before ++ (after ++ tail)) =
      text.replaceAll inputRefPattern 0 before ++ text.replaceAll inputRefPattern 0 (after ++ tail) := by
  refine replaceAll_braced inputRefPattern_describes ?_ hafter before tail
  rintro _ _ ⟨field, _, hpath, rfl, _⟩
  exact braced_of_word rfl (by decide) (by decide) (by decide) hpath

theorem replaceAll_taskRef (hafter : Braced after) (before tail : List Char) :
    text.replaceAll (taskRefPattern taskNodeIDs) 0 (before ++ (after ++ tail)) =
      text.replaceAll (taskRefPattern taskNodeIDs) 0 before ++
        text.replaceAll (taskRefPattern taskNodeIDs) 0 (after ++ tail) := by
  refine replaceAll_braced taskRefPattern_describes ?_ hafter before tail
  rintro _ _ ⟨id, _, hword, rfl, _⟩
  exact braced_of_word rfl (by decide) (by decide) (by decide) fun c hc => by simp [isPathChar, hword c hc]

def IsName (u : String) : Prop := u.toList ≠ [] ∧ ∀ c ∈ u.toList, text.isWord c = true

theorem isName_of_validID (hvalid : isValidID u = true) : IsName u := by
  unfold isValidID at hvalid
  unfold IsName
  cases hlist : u.toList with
  | nil => simp [hlist] at hvalid
  | cons c cs =>
    simp only [hlist, Bool.and_eq_true, List.all_eq_true] at hvalid
    obtain ⟨⟨_, hfirst⟩, hrest⟩ := hvalid
    refine ⟨cons_ne_nil c cs, fun d hd => ?_⟩
    rcases mem_cons.mp hd with rfl | hlater
    · simp [isWord, Char.isAlphanum, isAlpha_eq, hfirst]
    · have hclass := hrest d hlater
      simp only [Bool.or_eq_true, decide_eq_true_eq] at hclass
      rcases hclass with (hlower | hdigit) | rfl
      · simp [isWord, Char.isAlphanum, isAlpha_eq, hlower]
      · simp [isWord, Char.isAlphanum, hdigit]
      · decide

theorem placeholder_toList (u : String) :
    (placeholder u).toList = "\x7b\x7btasks.".toList ++ (u.toList ++ ".output\x7d\x7d".toList) := by
  simp [placeholder]

theorem placeholder_braced (hu : IsName u) : Braced (placeholder u).toList := by
  rw [placeholder_toList]
  exact braced_of_word rfl (by decide) (by decide) (by decide) fun c hc => by simp [isPathChar, hu.2 c hc]

theorem inputRefPattern_placeholder (hu : IsName u) (post : List Char) :
    text.replaceAll inputRefPattern 0 ((placeholder u).toList ++ post) =
      (placeholder u).toList ++ text.replaceAll inputRefPattern 0 post := by
  refine replaceAll_keep fun x c y hsplit => ?_
  have hinput : "\x7b\x7binput.".toList = '\x7b' :: '\x7b' :: 'i' :: "nput.".toList := by decide
  have htasks : "\x7b\x7btasks.".toList = '\x7b' :: '\x7b' :: 't' :: "asks.".toList := by decide
  obtain ⟨d, body, hbraced, hd, hbody⟩ := placeholder_braced hu
  have hthird : d = 't' := by
    rw [placeholder_toList, htasks] at hbraced
    simp only [cons_append, List.cons.injEq] at hbraced
    exact hbraced.2.2.1.symm
  rw [hbraced] at hsplit
  cases hfound : inputRefPattern (c :: (y ++ post)) with
  | none => rfl
  | some found =>
    obtain ⟨field, _, _, htext, _⟩ := inputRefPattern_eq_some.mp hfound
    rw [hinput] at htext
    simp only [cons_append, List.cons.injEq] at htext
    obtain ⟨rfl, htext⟩ := htext
    -- the match would start at one of the two braces
    rcases x with _ | ⟨c₁, _ | ⟨c₂, x⟩⟩
    · grind
    · grind
    grind

theorem rewriteTemplate_placeholder (hu : IsName u) (pre post : String) :
    rewriteTemplate (pre ++ placeholder u ++ post) taskNodeIDs =
      rewriteTemplate pre taskNodeIDs ++ .ofList (taskRefReplacement taskNodeIDs u.toList) ++
        rewriteTemplate post taskNodeIDs := by
  have hbraced := placeholder_braced hu
  rw [← String.toList_inj]
  simp only [rewriteTemplate, String.toList_append, String.toList_ofList, append_assoc]
  rw [replaceAll_inputRef hbraced, inputRefPattern_placeholder hu, replaceAll_taskRef hbraced]
  refine congrArg _ ?_
  have hmatch : ∀ rest, taskRefPattern taskNodeIDs ((placeholder u).toList ++ rest) =
      some (taskRefReplacement taskNodeIDs u.toList, rest) := by
    intro rest
    refine taskRefPattern_eq_some.mpr ⟨u.toList, hu.1, hu.2, ?_, rfl⟩
    rw [placeholder_toList, append_assoc, append_assoc]
  obtain ⟨d, body, hlist, _⟩ := hbraced
  grind [replaceAll_of_match, String.toList_append]

theorem append_middle_inj {a b b' c : String} : a ++ b ++ c = a ++ b' ++ c ↔ b = b' := by
  simp only [← String.toList_inj, String.toList_append, append_assoc, append_cancel_left_eq, append_cancel_right_eq]

/-- A placeholder is rewritten to a variable exactly if its task has a node that is called like it. -/
theorem taskRefReplacement_eq_iff {key : String} : String.ofList (taskRefReplacement taskNodeIDs u.toList) =
    "\x7b\x7b." ++ key ++ "\x7d\x7d" ↔ ∃ node, taskNodeIDs u = some node ∧ key = node ++ "_output" := by
  rw [← String.toList_inj, String.toList_ofList, taskRefReplacement, String.ofList_toList]
  have hopen : "\x7b\x7b.".toList = ['\x7b', '\x7b', '.'] := by decide
  cases taskNodeIDs u with
  | none =>
    have htasks : "\x7b\x7btasks.".toList = '\x7b' :: '\x7b' :: 't' :: "asks.".toList := by decide
    simp [hopen, htasks]
  | some node =>
    have hclose : "_output\x7d\x7d" = "_output" ++ "\x7d\x7d" := by decide
    have htext : "\x7b\x7b." ++ node ++ "_output\x7d\x7d" = "\x7b\x7b." ++ (node ++ "_output") ++ "\x7d\x7d" := by
      simp only [hclose, String.append_assoc]
    rw [String.toList_inj, htext, append_middle_inj, eq_comm]
    simp

def CondExprMatch (taskNodeIDs : String → Option String) (m r rest : List Char) : Prop :=
  ∃ id field, id ≠ [] ∧ (∀ c ∈ id, text.isWord c = true) ∧ FieldEnd field rest ∧
    m = "tasks.".toList ++ (id ++ (".output".toList ++ field)) ∧ r = condExprReplacement taskNodeIDs id field

theorem condExprPattern_describes : text.Describes (condExprPattern taskNodeIDs) (CondExprMatch taskNodeIDs) := by
  intro cs r rest
  rw [condExprPattern_eq_some]
  constructor
  · rintro ⟨id, field, hid, hword, hends, rfl, rfl⟩
    exact ⟨_, ⟨id, field, hid, hword, hends, rfl, rfl⟩, by simp only [append_assoc]⟩
  · grind [CondExprMatch]

theorem FieldEnd.path_mem (hends : FieldEnd field rest) : ∀ c ∈ field, isPathChar c = true := by
  cases hends with
  | none hfield => simp [hfield]
  | path _ hpath => exact hpath

theorem CondExprMatch.path_mem {r : List Char} (hm : CondExprMatch taskNodeIDs m r rest) :
    ∀ c ∈ m, isPathChar c = true := by
  obtain ⟨id, field, _, hword, hfield, rfl, _⟩ := hm
  simp only [forall_mem_append]
  have htasks : "tasks.".toList.all isPathChar = true := by decide
  have houtput : ".output".toList.all isPathChar = true := by decide
  exact ⟨List.all_eq_true.mp htasks, fun c hc => by simp [isPathChar, hword c hc], List.all_eq_true.mp houtput,
    hfield.path_mem⟩

theorem FieldEnd.append_iff (hrest : rest ≠ []) (after : List Char) :
    FieldEnd field (rest ++ after) ↔ FieldEnd field rest := by
  have hhead : (rest ++ after).head? = rest.head? := by
    cases rest with
    | nil => exact absurd rfl hrest
    | cons c rest => rfl
  constructor
  · intro hends
    cases hends with
    | none hfield hnot => exact .none hfield (hhead ▸ hnot)
    | path hfield hpath hnot => exact .path hfield hpath (hhead ▸ hnot)
  · intro hends
    cases hends with
    | none hfield hnot => exact .none hfield (hhead.symm ▸ hnot)
    | path hfield hpath hnot => exact .path hfield hpath (hhead.symm ▸ hnot)

theorem replaceAll_condExpr (hlast : ∀ c ∈ before.getLast?, isPathChar c = false) (after : List Char) :
    text.replaceAll (condExprPattern taskNodeIDs) 0 (before ++ after) =
      text.replaceAll (condExprPattern taskNodeIDs) 0 before ++
        text.replaceAll (condExprPattern taskNodeIDs) 0 after := by
  refine replaceAll_append fun x c y hsplit => ?_
  rw [← cons_append]
  have hends : ∃ d, (c :: y).getLast? = some d ∧ isPathChar d = false := by
    refine ⟨_, getLast?_eq_some_getLast (cons_ne_nil c y), hlast _ ?_⟩
    rw [hsplit, getLast?_append_cons]
    exact getLast?_eq_some_getLast _
  obtain ⟨d, hd, hnot⟩ := hends
  have hmatch : ∀ {m r rest}, CondExprMatch taskNodeIDs m r rest → d ∉ m := by
    intro m r rest hm hmem
    rw [hm.path_mem d hmem] at hnot
    cases hnot
  refine condExprPattern_describes.cut ?_ ?_
  · grind
  · intro m r a ha
    have hne : ∀ {rest}, CondExprMatch taskNodeIDs m r rest → a ≠ [] := by
      rintro rest hm rfl
      rw [append_nil] at ha
      exact hmatch hm (ha ▸ mem_of_getLast? hd)
    constructor
    · rintro ⟨id, field, hid, hword, hfield, hsame⟩
      have ha := hne ⟨id, field, hid, hword, hfield, hsame⟩
      exact ⟨id, field, hid, hword, (FieldEnd.append_iff ha after).mp hfield, hsame⟩
    · rintro ⟨id, field, hid, hword, hfield, hsame⟩
      have ha := hne ⟨id, field, hid, hword, hfield, hsame⟩
      exact ⟨id, field, hid, hword, (FieldEnd.append_iff ha after).mpr hfield, hsame⟩

def taskOutput (u : String) : String := "tasks." ++ u ++ ".output"

theorem rewriteConditionExpr_taskOutput (hu : IsName u) (hnode : taskNodeIDs u = some nodeID) {pre field post : String}
    (hpre : ∀ c ∈ pre.toList.getLast?, isPathChar c = false) (hfield : FieldEnd field.toList post.toList) :
    rewriteConditionExpr (pre ++ (taskOutput u ++ field) ++ post) taskNodeIDs =
      rewriteConditionExpr pre taskNodeIDs ++ (nodeID ++ "_output" ++ field) ++
        rewriteConditionExpr post taskNodeIDs := by
  have hmatch : condExprPattern taskNodeIDs ((taskOutput u).toList ++ (field.toList ++ post.toList)) =
      some ((nodeID ++ "_output").toList ++ field.toList, post.toList) := by
    refine condExprPattern_eq_some.mpr ⟨u.toList, field.toList, hu.1, hu.2, hfield, ?_, ?_⟩
    · simp [taskOutput]
    · rw [condExprReplacement, String.ofList_toList, hnode]
  rw [← String.toList_inj]
  simp only [rewriteConditionExpr, String.toList_append, String.toList_ofList, append_assoc]
  rw [replaceAll_condExpr hpre]
  refine congrArg _ ?_
  obtain ⟨body, hbody⟩ : ∃ body, (taskOutput u).toList = 't' :: body :=
    ⟨"asks.".toList ++ (u.toList ++ ".output".toList), by simp [taskOutput]⟩
  rw [hbody, cons_append, ← append_assoc] at hmatch ⊢
  rw [replaceAll_of_match hmatch]
  simp

variable (task : Task) (ag : Agent) (taskNodeIDs : String → Option String) (fcTools : List String)

theorem configString_prompt_template :
    configString (buildTaskLLMConfig task ag taskNodeIDs fcTools) "prompt_template" =
      rewriteTemplate task.description taskNodeIDs :=
  rfl

theorem configString_output_key :
    configString (buildTaskLLMConfig task ag taskNodeIDs fcTools) "output_key" = task.outputKey := by
  have htools : lookup "output_key" (if fcTools = [] then [] else [("tools", Value.list (fcTools.map .str))]) =
      none := by
    split <;> rfl
  have htoolConfig : lookup "output_key" (if ag.toolConfig.entries = [] then []
      else [("tool_config", cloneToolConfig ag.toolConfig)]) = none := by
    split <;> rfl
  have hcopied : lookup "output_key" (["temperature", "max_tokens"].filterMap fun key =>
      (ag.config.get? key).map fun value => (key, value)) = none := by
    rw [lookup_eq_none_iff]
    intro entry hentry
    obtain ⟨key, hkey, hcopy⟩ := mem_filterMap.mp hentry
    obtain ⟨value, _, rfl⟩ := map_eq_some_iff.mp hcopy
    simp only [mem_cons, not_mem_nil, or_false] at hkey
    rcases hkey with rfl | rfl <;> rfl
  have hbase : lookup "output_key" [("system_prompt", Value.str (buildSystemPrompt ag task)),
      ("prompt_template", .str (rewriteTemplate task.description taskNodeIDs)), ("provider", .str ag.provider),
      ("model", .str ag.model)] = none := rfl
  simp only [configString, buildTaskLLMConfig, lookup_append, htools, htoolConfig, hcopied, hbase, none_or]
  grind

variable {reg : Registry} {exprValidator : Option ExprValidator} {wf : AgentWorkflow} {now : String}
  {gd : GraphDefinition}

theorem outputNode_eq {task : Task} {ag : Agent} (htask : wf.tasks.get? u = some task)
    (hag : wf.agents.get? task.agent = some ag) :
    outputNode reg wf u = u ++ "__" ++ task.agent ++ if task.review = "human" then "__hitl" else "" := by
  have hlast : (partChain reg wf (.task u)).getLast? = some (outputNode reg wf u) := partChain_getLast? u
  rw [partChain_task htask hag] at hlast
  split at hlast <;> simp_all

def StoresUnder (n : LLMNode) (key : String) : Prop :=
  ∀ lib templates t env env', (n.node lib templates).run t env = .ok (some env') →
    ∃ a, n.answer lib templates t env = .ok a ∧ env'.getVar key = some a.output

/-- The variable in which the prompt of a task keeps its answers. -/
def storedKey (u : String) (utask : Task) : String :=
  if utask.outputKey = "" then u ++ "__" ++ utask.agent ++ "_output" else utask.outputKey

/-- The variable that references to a task are rewritten to: that of its last node. -/
def quotedKey (u : String) (utask : Task) : String :=
  u ++ "__" ++ utask.agent ++ (if utask.review = "human" then "__hitl" else "") ++ "_output"

/-- References to a task are resolved to the variable in which its prompt keeps its answers exactly if that is
the variable of its last node, in prompts if the task comes first in the order of the ids besides; a prompt
that refers to its own task quotes the variable of its own node. -/
theorem references_resolved (reg : Registry) (exprValidator : Option ExprValidator) (now : String) (wf : AgentWorkflow)
    (gd : GraphDefinition) (hok : hasErrors (validate reg exprValidator (some wf)) = false)
    (hcompile : compile reg now (some wf) = .ok gd) (t u : String) (task utask : Task)
    (ht : wf.tasks.get? t = some task) (hu : wf.tasks.get? u = some utask) :
    ∃ nd ∈ gd.nodes, nd.id = u ++ "__" ++ utask.agent ∧ nd.type = "llm_prompt" ∧
      ∀ getClient n, buildLLMNode getClient nd = .ok n → StoresUnder n n.config.outputKey ∧
        (∃ nd' ∈ gd.nodes, nd'.id = t ++ "__" ++ task.agent ∧ nd'.type = "llm_prompt" ∧
          ∀ pre post, task.description = pre ++ placeholder u ++ post →
            (configString nd'.config "prompt_template" = rewriteTemplate pre (promptIDs reg wf t task) ++
              ("\x7b\x7b." ++ n.config.outputKey ++ "\x7d\x7d") ++ rewriteTemplate post (promptIDs reg wf t task) ↔
              (u = t ∧ storedKey u utask = u ++ "__" ++ utask.agent ++ "_output") ∨
                (u < t ∧ storedKey u utask = quotedKey u utask))) ∧
        (wf.strategy? = some .custom → ∀ pre field post,
          wf.condition t = pre ++ (taskOutput u ++ field) ++ post →
          (∀ c ∈ pre.toList.getLast?, isPathChar c = false) → FieldEnd field.toList post.toList →
          (compiledCondition reg wf t = rewriteConditionExpr pre (outputIDs reg wf) ++ (n.config.outputKey ++ field) ++
            rewriteConditionExpr post (outputIDs reg wf) ↔ storedKey u utask = quotedKey u utask) ∧
          (JoinedApart reg wf → ∀ dep ∈ wf.dependsOn t, conditionDef reg wf dep t ∈ gd.nodes)) := by
  have hwf := accepted_of_validate hok
  have hukey : u ∈ wf.tasks.keys := Dict.mem_keys_iff.mpr ⟨utask, hu⟩
  have htkey : t ∈ wf.tasks.keys := Dict.mem_keys_iff.mpr ⟨task, ht⟩
  have hname : IsName u := isName_of_validID (hwf.taskIDs u hukey)
  obtain ⟨_, uag, utools, hu', huag, huprompt⟩ := compile_prompt hcompile hukey
  cases hu.symm.trans hu'
  refine ⟨_, huprompt, rfl, rfl, ?_⟩
  intro getClient n hbuild
  have hstored : n.config.outputKey = storedKey u utask := by
    rw [(buildLLMNode_ok hbuild).2]
    simp [promptDef, configString_output_key, storedKey]
  have hquoted : outputNode reg wf u ++ "_output" = quotedKey u utask := by rw [outputNode_eq hu huag, quotedKey]
  refine ⟨fun lib templates time env env' hrun => n.getVar_outputKey hrun, ?_, ?_⟩
  · obtain ⟨_, ag, fcTools, ht', hag, hprompt⟩ := compile_prompt hcompile htkey
    cases ht.symm.trans ht'
    refine ⟨_, hprompt, rfl, rfl, fun pre post hdescription => ?_⟩
    rw [promptDef, configString_prompt_template, hdescription, rewriteTemplate_placeholder hname, hstored,
      append_middle_inj, taskRefReplacement_eq_iff]
    unfold promptIDs
    by_cases hown : u = t
    · subst hown
      cases hu.symm.trans ht
      simp
    · by_cases hless : u < t
      · simp [hown, hless, hukey, hquoted]
      · simp [hown, hless]
  · intro hcustom pre field post hcondition hpre hfield
    have hnode : outputIDs reg wf u = some (outputNode reg wf u) := by rw [outputIDs, if_pos hukey]
    refine ⟨?_, ?_⟩
    · rw [compiledCondition, hcondition, rewriteConditionExpr_taskOutput hname hnode hpre hfield, hquoted, hstored,
        append_middle_inj, String.append_left_inj, eq_comm]
    · intro hapart dep hdep
      have hpair := wf.mem_dependencyPairs.mpr ⟨hdep, hwf.dependencies hcustom t dep hdep, htkey⟩
      refine compile_condition hapart hcustom hcompile hpair ?_
      simp_all [taskOutput]

def memo (source : String) (task : Task) (hsource : source ≠ "memo") : AgentWorkflow where
  id := "memo"
  agents := writers
  tasks :=
    { entries := [(source, task), ("memo", { writeTask "writer" [] with description := placeholder source })]
      nodup := by simp [hsource] }
  execution :=
    { strategy := "custom"
      tasks := some
        { entries := [(source, { dependsOn := [] }),
          ("memo", { dependsOn := [source], condition := taskOutput source })]
          nodup := by simp [hsource] } }

def notes : Task := writeTask "writer" []

def absent (_ : String) : Except String PromptClient :=
  .ok { complete := fun _ _ _ => .error "", ctxErr := fun _ _ => none, pauseErr := fun _ _ => none }

def quoted (wf : AgentWorkflow) (source : String) : Option (String × String × String) := do
  let gd ← (compile global "2024-01-01T00:00:00Z" (some wf)).toOption
  let nd ← gd.nodes.find? (·.id = source ++ "__writer")
  let nd' ← gd.nodes.find? (·.id = "memo__writer")
  let n ← (buildLLMNode absent nd).toOption
  return (configString nd'.config "prompt_template", compiledCondition global wf "memo", n.config.outputKey)

theorem memo_accepted : hasErrors (validate global none (some (memo "list" notes (by decide)))) = false := by
  decide +kernel

/-- The memo quotes a list by the variable of the list's node. -/
theorem memo_resolved :
    ∃ gd, compile global "2024-01-01T00:00:00Z" (some (memo "list" notes (by decide))) = .ok gd ∧
      ∃ nd ∈ gd.nodes, nd.id = "list__writer" ∧ ∀ n, buildLLMNode absent nd = .ok n →
        (∃ nd' ∈ gd.nodes, nd'.id = "memo__writer" ∧
          configString nd'.config "prompt_template" = "\x7b\x7b." ++ n.config.outputKey ++ "\x7d\x7d") ∧
        compiledCondition global (memo "list" notes (by decide)) "memo" = n.config.outputKey := by
  have hok : (compile global "2024-01-01T00:00:00Z" (some (memo "list" notes (by decide)))).isOk = true := by
    decide +kernel
  cases hcompile : compile global "2024-01-01T00:00:00Z" (some (memo "list" notes (by decide))) with
  | error err => rw [hcompile] at hok; cases hok
  | ok gd =>
    obtain ⟨nd, hnd, hid, _, hresolved⟩ := references_resolved global none _ _ gd memo_accepted hcompile "memo" "list"
      { writeTask "writer" [] with description := placeholder "list" } notes rfl rfl
    refine ⟨gd, rfl, nd, hnd, hid, ?_⟩
    intro n hbuild
    obtain ⟨_, hprompt, hcondition⟩ := hresolved absent n hbuild
    obtain ⟨nd', hnd', hid', _, hprompt⟩ := hprompt
    have htemplate := (hprompt "" "" (by simp)).mpr (.inr ⟨by decide +kernel, by decide⟩)
    have hexpr := (hcondition (by decide +kernel) "" "" "" (by decide +kernel) (by simp)
      (.none rfl (by simp))).1.mpr (by decide)
    have hempty : ∀ ids, rewriteTemplate "" ids = "" := fun _ => rfl
    have hempty' : ∀ ids, rewriteConditionExpr "" ids = "" := fun _ => rfl
    refine ⟨⟨nd', hnd', hid', ?_⟩, ?_⟩
    · simpa [hempty] using htemplate
    · simpa [hempty'] using hexpr

/-- The memo quotes another variable, or none, if the source is reviewed, has an
id behind that of the memo, or has an output key of its own. -/
theorem memo_unresolved :
    (hasErrors (validate global none (some (memo "list" { notes with review := "human" } (by decide)))) = false ∧
      quoted (memo "list" { notes with review := "human" } (by decide)) "list" =
        some ("\x7b\x7b.list__writer__hitl_output\x7d\x7d", "list__writer__hitl_output", "list__writer_output")) ∧
    (hasErrors (validate global none (some (memo "notes" notes (by decide)))) = false ∧
      quoted (memo "notes" notes (by decide)) "notes" =
        some (placeholder "notes", "notes__writer_output", "notes__writer_output")) ∧
    hasErrors (validate global none (some (memo "list" { notes with outputKey := "found" } (by decide)))) = false ∧
      quoted (memo "list" { notes with outputKey := "found" } (by decide)) "list" =
        some ("\x7b\x7b.list__writer_output\x7d\x7d", "list__writer_output", "found") := by
  decide +kernel

end petalflow.agent
