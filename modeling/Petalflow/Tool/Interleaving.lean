import Petalflow.Lib.Trace
import Petalflow.Tool.Secrecy

open Option Function
open machine (Machine)
open program (Admitted Good Obeys System interleaved interleaved_invariant)
open text (trimSpace trimSpace_trimSpace)
open trace (Runs)

namespace petalflow.tool

inductive Event where
  | register | update | keep | delete
  | setEnabled (enabled : Bool)
deriving DecidableEq, Repr

inductive Event.Step : Event → Option Bool → Option Bool → Prop where
  | register (b : Bool) : Step .register none (some b)
  | update (b b' : Bool) : Step .update (some b) (some b')
  | keep (b : Bool) : Step .keep (some b) (some b)
  | delete (b : Bool) : Step .delete (some b) none
  | setEnabled (b b' : Bool) : Step (.setEnabled b') (some b) (some b')

variable {l l' : List Event} {b : Bool} {state : Option Bool}

theorem register_mem_of_runs (hruns : Runs Event.Step (l ++ .delete :: l') state (some b)) : .register ∈ l' := by
  obtain ⟨mid, -, after, hdelete, hafter⟩ := trace.runs_append.mp hruns
  cases hdelete
  obtain ⟨e, he, t, t', hstep, rfl, hleft⟩ := hafter.exists_leaving (P := (· = none)) rfl (some_ne_none b)
  cases hstep
  exact he

theorem enabled_mem_of_runs (hruns : Runs Event.Step (l ++ .setEnabled false :: l') state (some true)) :
    .setEnabled true ∈ l' ∨ .update ∈ l' ∨ .register ∈ l' := by
  obtain ⟨mid, -, after, hoff, hafter⟩ := trace.runs_append.mp hruns
  cases hoff
  obtain ⟨e, he, t, t', hstep, ht, ht'⟩ := hafter.exists_leaving (P := (· ≠ some true)) (by decide) (by decide)
  rw [not_not] at ht'
  subst ht'
  cases hstep with
  | register => exact .inr (.inr he)
  | update => exact .inr (.inl he)
  | keep => exact absurd rfl ht
  | setEnabled => exact .inl he

theorem delete_mem_of_runs {l'' : List Event} {final : Option Bool}
    (hruns : Runs Event.Step (l ++ .register :: (l' ++ .register :: l'')) state final) : .delete ∈ l' := by
  obtain ⟨mid, -, after, hfirst, hafter⟩ := trace.runs_append.mp hruns
  obtain ⟨before, hbetween, _, hsecond, -⟩ := trace.runs_append.mp hafter
  cases hfirst
  cases hsecond
  obtain ⟨e, he, t, t', hstep, ht, ht'⟩ := hbetween.exists_leaving (P := (· ≠ none)) (some_ne_none _) (fun h => h rfl)
  rw [not_not] at ht'
  subst ht'
  cases hstep
  exact he

def Call.name : Call → String
  | .register input => input.name
  | .update name _ => name
  | .updateConfig name _ => name
  | .health name => name
  | .refresh name => name
  | .updateOverlay name _ => name
  | .setEnabled name _ => name
  | .delete name => name

def Call.event : Call → Event
  | .register _ => .register
  | .update _ _ => .update
  | .setEnabled _ enabled => .setEnabled enabled
  | .delete _ => .delete
  | _ => .keep

structure Shared where
  find : String → Option ToolRegistration
  log : List Event

def eventsOf (call : Call) : (op : StoreOp) → op.Res → List Event
  | .upsert _, none => [call.event]
  | .delete _, none => [call.event]
  | _, _ => []

abbrev CallSystem := System StoreOp StoreOp.Res ToolError (Option ToolRegistration) Progress (Nat × Call) Shared

abbrev Turn := program.Label (Nat × Call) (Option String × Int)

/-- An operation of a call. The environment chooses whether it fails, and the time. -/
def Shared.act (choice : Option String × Int) (info : Nat × Call) (op : StoreOp) (s : Shared) : op.Res × Shared :=
  let result := storeAct choice.1 choice.2 op s.find
  (result.1, { find := result.2, log := s.log ++ eventsOf info.2 op result.1 })

def concurrentCalls (svc : DaemonToolService) (find : String → Option ToolRegistration) :
    Machine CallSystem Turn :=
  interleaved (fun info => svc.perform info.1 info.2) .started remember Shared.act { find, log := [] }

def UnchangedSinceRead (name : String) (s : Shared) (_ : Nat × Call) (progress : Progress) : StoreOp → Prop
  | .get _ => True
  | _ => progress = .read (s.find name)

variable {op : StoreOp} {info : Nat × Call}

theorem UnchangedSinceRead.progress_eq {name : String} {s : Shared} {progress : Progress}
    (hunchanged : UnchangedSinceRead name s info progress op) (hop : ∀ name, op ≠ .get name) :
    progress = .read (s.find name) := by
  cases op with
  | get name' => exact absurd rfl (hop name')
  | upsert reg | delete name' => exact hunchanged

def enabledOf (found : Option ToolRegistration) : Option Bool := found.map (·.enabled)

def callDiscipline (name : String) (call : Call) : Discipline where
  names name' := name' = name
  reads _ reg := reg.name = name
  writes found reg := reg.name = name ∧ call.event.Step (enabledOf found) (some reg.enabled)
  deletes found name' := name' = name ∧ call.event.Step (enabledOf found) none

variable {env : MCPEnv} {t : Nat} {name : String}

theorem permits_named {call : Call} (hname : trimSpace call.name = name) :
    (callDiscipline name call).Permits (newDaemonToolService env) t call := by
  cases call with
  | register input =>
    intro reg hreg
    have hreg' : reg.name = name := (registered_name hreg).trans hname
    refine ⟨?_, fun _ => ⟨⟨hreg', .register _⟩, hreg'⟩⟩
    change trimSpace reg.name = name
    rw [hreg', ← hname, trimSpace_trimSpace]
  | update name' input =>
    refine ⟨hname, fun reg hreads next hnext _ => ?_⟩
    have hnext' : next.name = name := (updated_name hnext).trans hreads
    exact ⟨⟨hnext', .update _ _⟩, hnext'⟩
  | updateConfig name' input =>
    refine ⟨hname, fun reg hreads next hnext => ?_⟩
    obtain ⟨hstate, -⟩ := configUpdated_spec hnext
    have hnext' : next.name = name := hstate.name.trans hreads
    refine ⟨⟨hnext', ?_⟩, hnext'⟩
    rw [hstate.enabled]
    exact .keep _
  | health name' =>
    refine ⟨hname, fun reg hreads => ?_⟩
    obtain ⟨hsame, henabled, -⟩ := healthChecked_spec (newDaemonToolService env) t reg
    refine ⟨hsame.name.trans hreads, ?_⟩
    rw [henabled]
    exact .keep _
  | refresh name' | updateOverlay name' overlayPath =>
    refine ⟨hname, fun reg hreads next hnext _ => ?_⟩
    obtain ⟨-, -, -, henabled⟩ := refreshed_built hnext
    have hnext' : next.name = name := (refreshed_name hnext).trans hreads
    refine ⟨⟨hnext', ?_⟩, hnext'⟩
    rw [henabled]
    exact .keep _
  | setEnabled name' enabled =>
    refine ⟨hname, fun reg hreads => ?_⟩
    obtain ⟨hsame, henabled, -⟩ := switched_spec (newDaemonToolService env) t reg enabled
    have hnext' : ((newDaemonToolService env).switched t reg enabled).name = name := hsame.name.trans hreads
    refine ⟨⟨hnext', ?_⟩, hnext'⟩
    rw [henabled]
    exact .setEnabled _ _
  | delete name' => exact ⟨hname, fun reg _ => ⟨hname, .delete _⟩⟩

structure Consistent (name : String) (start : Option Bool) (s : Shared) : Prop where
  runs : Runs Event.Step s.log start (enabledOf (s.find name))
  named : ∀ reg, s.find name = some reg → reg.name = name

variable {start : Option Bool} {s : Shared}

theorem Consistent.get (hs : Consistent name start s) (choice : Option String × Int) (info : Nat × Call)
    (progress : Progress) :
    (callDiscipline name info.2).protocol.answers progress (.get name) (Shared.act choice info (.get name) s).1 ∧
      Consistent name start (Shared.act choice info (.get name) s).2 := by
  unfold Shared.act
  have hcase := act_cases choice.1 choice.2 (.get name) s.find
  generalize storeAct choice.1 choice.2 (.get name) s.find = result at hcase ⊢
  have hsame : Consistent name start { find := s.find, log := s.log ++ [] } := by
    rw [List.append_nil]
    exact hs
  cases hcase with
  | get =>
    refine ⟨?_, hsame⟩
    cases progress with
    | started => exact fun reg hfound => hs.named reg (Except.ok.inj hfound)
    | read found | written => trivial
  | getFailed err =>
    refine ⟨?_, hsame⟩
    cases progress with
    | started =>
      intro reg hfound
      cases hfound
    | read found | written => trivial

theorem Consistent.write (hs : Consistent name start s) (choice : Option String × Int) (info : Nat × Call)
    (hop : ∀ name, op ≠ .get name)
    (hallowed : (callDiscipline name info.2).protocol.allowed (.read (s.find name)) op) :
    Consistent name start (Shared.act choice info op s).2 := by
  unfold Shared.act
  have hcase := act_cases choice.1 choice.2 op s.find
  generalize storeAct choice.1 choice.2 op s.find = result at hcase ⊢
  cases hcase with
  | get name' | getFailed name' err => exact absurd rfl (hop name')
  | upsert reg =>
    obtain ⟨rfl, hstep⟩ := hallowed
    constructor
    · dsimp only
      rw [update_self]
      exact hs.runs.concat hstep
    · intro found hfound
      dsimp only at hfound
      rw [update_self] at hfound
      cases hfound
      rfl
  | delete name' =>
    obtain ⟨rfl, hstep⟩ := hallowed
    constructor
    · dsimp only
      rw [update_self]
      exact hs.runs.concat hstep
    simp_all
  | upsertFailed reg err | deleteFailed name' err => exact ⟨by simpa [eventsOf] using hs.runs, hs.named⟩

theorem consistent_of_reachesUnder {find : String → Option ToolRegistration}
    (hnamed : ∀ reg, find name = some reg → reg.name = name) {s : CallSystem}
    (hreach : (concurrentCalls (newDaemonToolService env) find).ReachesUnder
      (Admitted (fun info => trimSpace info.2.name = name) (UnchangedSinceRead name))
      (concurrentCalls (newDaemonToolService env) find).init s) :
    Consistent name (enabledOf (find name)) s.shared := by
  have hnext : ∀ info : Nat × Call, (callDiscipline name info.2).protocol.next = remember := fun _ => rfl
  have hbody : ∀ info : Nat × Call, trimSpace info.2.name = name →
      Obeys (callDiscipline name info.2).protocol (fun _ _ => True) .started
        ((newDaemonToolService env).perform info.1 info.2) :=
    fun _ hname => obeys_call (permits_named hname)
  have hinit : Good (fun info : Nat × Call => (callDiscipline name info.2).protocol)
      (Consistent name (enabledOf (find name))) (fun _ _ _ => True)
      (concurrentCalls (newDaemonToolService env) find).init :=
    ⟨⟨rfl, hnamed⟩, fun th hth => absurd hth List.not_mem_nil⟩
  refine (interleaved_invariant hnext hbody (fun _ _ _ _ => trivial) ?_ hreach hinit).shared
  intro s info progress op choice hs _ hallowed hunchanged
  by_cases hget : ∃ name', op = .get name'
  · obtain ⟨name', rfl⟩ := hget
    obtain rfl : name' = name := hallowed
    obtain ⟨hanswer, hconsistent⟩ := hs.get choice info progress
    exact ⟨hanswer, hconsistent, trivial, fun _ _ _ => trivial⟩
  · rw [not_exists] at hget
    obtain rfl := hunchanged.progress_eq hget
    exact ⟨trivial, hs.write choice info hget hallowed, trivial, fun _ _ _ => trivial⟩

/-- Concurrent calls on one name lose nothing as long as each finds what it has read
when it writes: a deleted tool comes back only by a later registration, a tool that was
switched off is on again only by a later switch, update or registration, and between
two registrations there is a deletion. -/
theorem concurrent_calls_lose_nothing (env : MCPEnv) (name : String) (find : String → Option ToolRegistration)
    (hnamed : ∀ reg, find name = some reg → reg.name = name) (s : CallSystem)
    (hreach : (concurrentCalls (newDaemonToolService env) find).ReachesUnder
      (Admitted (fun info => trimSpace info.2.name = name) (UnchangedSinceRead name))
      (concurrentCalls (newDaemonToolService env) find).init s) :
    (∀ before after, s.shared.log = before ++ .delete :: after → (s.shared.find name).isSome = true →
      .register ∈ after) ∧
    (∀ before after, s.shared.log = before ++ .setEnabled false :: after →
      (∃ reg, s.shared.find name = some reg ∧ reg.enabled = true) →
      .setEnabled true ∈ after ∨ .update ∈ after ∨ .register ∈ after) ∧
    ∀ before between after, s.shared.log = before ++ .register :: (between ++ .register :: after) →
      .delete ∈ between := by
  obtain ⟨hruns, -⟩ := consistent_of_reachesUnder hnamed hreach
  refine ⟨fun before after hlog hfound => ?_, fun before after hlog hfound => ?_, fun before between after hlog => ?_⟩
  · obtain ⟨reg, hreg⟩ := isSome_iff_exists.mp hfound
    rw [hlog, hreg] at hruns
    exact register_mem_of_runs hruns
  · obtain ⟨reg, hreg, henabled⟩ := hfound
    have hon : enabledOf (some reg) = some true := congrArg some henabled
    rw [hlog, hreg, hon] at hruns
    exact enabled_mem_of_runs hruns
  · rw [hlog] at hruns
    exact delete_mem_of_runs hruns

def registerTemplate : Call := .register { name := "template_render", origin := .native }

def templateCalls := concurrentCalls (newDaemonToolService crmServer) fun _ => none

def Progress.foundNothing : Progress → Bool
  | .read found => found.isNone
  | _ => false

def writesFirst (s : Shared) (progress : Progress) : StoreOp → Bool
  | .get _ => true
  | _ => progress.foundNothing && (s.find "template_render").isNone

variable {progress : Progress}

theorem read_of_foundNothing (hnothing : (progress.foundNothing && (s.find "template_render").isNone) = true) :
    progress = .read (s.find "template_render") := by
  obtain ⟨hfound, hnone⟩ := (Bool.and_eq_true _ _).mp hnothing
  rw [isNone_iff_eq_none] at hnone
  cases progress with
  | started | written => cases hfound
  | read found => rw [hnone, isNone_iff_eq_none.mp hfound]

theorem unchangedSinceRead_of_writesFirst
    (hfirst : writesFirst s progress op = true) : UnchangedSinceRead "template_render" s info progress op := by
  cases op with
  | get name => trivial
  | upsert reg | delete name => exact read_of_foundNothing hfirst

def admits (s : CallSystem) : Turn → Bool
  | .start info => trimSpace info.2.name = "template_render"
  | .step i _ => s.threads[i]?.all fun th =>
      match th.todo with
      | .call op _ => writesFirst s.shared th.ghost op
      | _ => false

theorem admitted_of_admits {s : CallSystem} {l : Turn} (hadmits : admits s l = true) :
    Admitted (fun info => trimSpace info.2.name = "template_render") (UnchangedSinceRead "template_render") s l := by
  cases l with
  | start info =>
    change trimSpace info.2.name = "template_render"
    exact of_decide_eq_true hadmits
  | step i choice =>
    intro th hthread op cont htodo
    grind [admits, unchangedSinceRead_of_writesFirst]

/-- Of two registrations that overlap, the one that reads after the other has written
fails. -/
theorem concurrent_calls_lose_nothing_register :
    ∃ s : CallSystem, s.shared.log = [.register] ∧ s.threads.map (·.todo.returned) = [true, false] ∧
      ∀ before between after, s.shared.log = before ++ .register :: (between ++ .register :: after) →
        .delete ∈ between := by
  obtain ⟨s, hreach, htest⟩ := machine.Machine.exists_reachesUnder_of_exec (m := templateCalls) (P := admits)
    [.start (0, registerTemplate), .start (1, registerTemplate), .step 0 (none, 0), .step 0 (none, 1),
      .step 1 (none, 2),
      .step 0 (none, 3)]
    (fun s => s.shared.log = [.register] ∧ s.threads.map (·.todo.returned) = [true, false]) (by decide +kernel)
  obtain ⟨hlog, hreturned⟩ := of_decide_eq_true htest
  have hadmitted := hreach.mono fun _ _ => admitted_of_admits
  have hempty : ∀ reg : ToolRegistration, none = some reg → reg.name = "template_render" := by
    intro reg hnone
    cases hnone
  exact ⟨s, hlog, hreturned, (concurrent_calls_lose_nothing crmServer "template_render" _ hempty s hadmitted).2.2⟩

/-- A health check that read the registration before it was deleted or switched off
writes it back, and of two registrations that have both found nothing both succeed. -/
theorem concurrent_calls_overwrite :
    (templateCalls.exec
      [.start (0, registerTemplate), .step 0 (none, 0), .step 0 (none, 1), .step 0 (none, 2),
        .start (1, .health "template_render"), .start (2, .delete "template_render"),
        .step 1 (none, 3), .step 2 (none, 4), .step 2 (none, 5), .step 1 (none, 6)] templateCalls.init).any (fun s =>
      s.shared.log = [.register, .delete, .keep] ∧ s.threads.map (·.todo.returned) = [true, false, true] ∧
        (s.shared.find "template_render").isSome) = true ∧
    (templateCalls.exec
      [.start (0, registerTemplate), .step 0 (none, 0), .step 0 (none, 1), .step 0 (none, 2),
        .start (1, .health "template_render"), .start (2, .setEnabled "template_render" false),
        .step 1 (none, 3), .step 2 (none, 4), .step 2 (none, 5), .step 2 (none, 6), .step 1 (none, 7)]
      templateCalls.init).any (fun s =>
      s.shared.log = [.register, .setEnabled false, .keep] ∧ s.threads.map (·.todo.returned) = [true, false, true] ∧
        (s.shared.find "template_render").any (·.enabled)) = true ∧
    (templateCalls.exec
      [.start (0, registerTemplate), .start (1, registerTemplate), .step 0 (none, 0), .step 1 (none, 1),
        .step 0 (none, 2), .step 1 (none, 3), .step 0 (none, 4), .step 1 (none, 5)] templateCalls.init).any (fun s =>
      s.shared.log = [.register, .register] ∧ s.threads.map (·.todo.returned) = [true, true]) = true := by
  decide +kernel

end petalflow.tool
