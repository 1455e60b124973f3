import Petalflow.Runtime.EventLog

open petalflow.core petalflow.graph machine trace List

namespace petalflow.runtime

open Emitter

def Emitter.Numbered (em : Emitter) : Prop := em.emitted.map (·.seq) = List.range' 1 em.counter

@[simp] theorem Emitter.emit_events (em : Emitter) (e : Event) : (em.emit e).events = em.events ++ [e] := by
  simp [emit, events]

variable {em : Emitter}

theorem Emitter.Numbered.emit (hem : em.Numbered) (e : Event) : (em.emit e).Numbered := by
  grind [Numbered, Emitter.emit, range'_1_concat]

theorem Emitter.Numbered.counter_eq (hem : em.Numbered) : em.counter = em.emitted.length := by
  rw [← length_map, hem, length_range']

variable {i : Nat} {e : Emitted}

theorem Emitter.Numbered.getElem? (hem : em.Numbered) (he : em.emitted[i]? = some e) : e.seq = i + 1 := by
  have hseq : (em.emitted.map (·.seq))[i]? = some e.seq := by rw [getElem?_map, he]; rfl
  rw [hem] at hseq
  grind

theorem Emitter.getElem?_events (he : em.emitted[i]? = some e) : em.events[i]? = some e.event := by
  rw [events, getElem?_map, he]
  rfl

theorem Tidy.of_initial {log log' : List Event} (hlog : Tidy log') (hinitial : log <+: log') : Tidy log where
  kinds := fun e he => hlog.kinds e (hinitial.subset he)
  ballot := fun id before hbefore => hlog.ballot id before (hbefore.trans hinitial)

structure Mirrors (done emitted : List Event) : Prop extends Tidy emitted where
  executions_eq : ∀ id, executions emitted id = executions done id
  completions_eq : ∀ id, completions emitted id = completions done id

theorem Mirrors.nil : Mirrors [] [] where
  toTidy := Tidy.nil
  executions_eq := fun _ => rfl
  completions_eq := fun _ => rfl

variable {e : Event}

theorem Mirrors.emit {done emitted : List Event} (hmirrors : Mirrors done emitted)
    (hdone : Tidy (done ++ [e])) : Mirrors (done ++ [e]) (emitted ++ [e]) := by
  have hexecutions : ∀ id, executions (emitted ++ [e]) id = executions (done ++ [e]) id := by
    intro id
    rw [executions_append, executions_append, hmirrors.executions_eq]
  have hcompletions : ∀ id, completions (emitted ++ [e]) id = completions (done ++ [e]) id := by
    intro id
    rw [completions_append, completions_append, hmirrors.completions_eq]
  refine ⟨hmirrors.toTidy.concat ?_ ?_, hexecutions, hcompletions⟩
  · exact hdone.kinds e (mem_append_right _ mem_cons_self)
  · intro id
    rw [hexecutions, hcompletions]
    exact hdone.completions_le id

theorem Mirrors.own {done emitted : List Event} (hmirrors : Mirrors done emitted)
    (hkind : e.kind.isLifecycle = false) : Mirrors done (emitted ++ [e]) := by
  have hquiet : Quiet [e] := by
    intro e' he'
    rw [mem_singleton.mp he']
    grind [EventKind.isLifecycle]
  refine ⟨hmirrors.toTidy.concat ?_ ?_, ?_, ?_⟩
  · constructor <;> intro heq <;> simp [heq, EventKind.isLifecycle] at hkind
  · intro id
    rw [completions_append, executions_append, hquiet.completions, hquiet.executions]
    exact hmirrors.toTidy.completions_le id
  · intro id
    rw [executions_append, hquiet.executions, hmirrors.executions_eq, Nat.add_zero]
  · intro id
    rw [completions_append, hquiet.completions, hmirrors.completions_eq, Nat.add_zero]

def Progress {n : Nat} (s : RunState n) : Prop :=
  match s.phase with
  | .starting => s.queue = [] ∧ s.execution.log = [] ∧ s.emitter.emitted = []
  | .rejected _ => s.queue = [] ∧ s.emitter.emitted = []
  | .executing => ∃ first done emitted, first.kind = .runStarted ∧ s.emitter.events = first :: emitted ∧
      s.execution.log = done ++ s.queue ∧ Mirrors done emitted
  | .returned _ _ => s.queue = [] ∧ ∃ first last emitted, first.kind = .runStarted ∧ last.kind = .runFinished ∧
      s.emitter.events = first :: (emitted ++ [last]) ∧ Settled emitted

structure Recorded {n : Nat} (g : BasicGraph) (s : RunState n) : Prop where
  numbered : s.emitter.Numbered
  orderly : s.execution.Orderly g
  progress : Progress s

theorem Progress.executing_of_queue {n : Nat} {s : RunState n} (hs : Progress s) (hqueue : s.queue ≠ []) :
    s.phase = .executing := by
  grind [Progress]

section

variable {g : BasicGraph} {ctx : Nat → Option String} {opts : RunOptions} {env : Envelope}
  {runID : String}
  {s s' : RunState opts.concurrency} (hs : Recorded g s)
include hs

theorem Recorded.start (hphase : s.phase = .starting) :
    Recorded g { s with phase := .executing, emitter := s.emitter.emit (runStarted g opts runID) } := by
  have hprogress := hs.progress
  simp only [Progress, hphase] at hprogress
  obtain ⟨hqueue, hlog, hnone⟩ := hprogress
  refine ⟨hs.numbered.emit _, hs.orderly, _, [], [], (runStarted_header g opts runID).1, ?_, ?_, Mirrors.nil⟩
  · rw [emit_events, Emitter.events, hnone]
    rfl
  · rw [hqueue]
    exact hlog

theorem Recorded.reject (hphase : s.phase = .starting) (err : GraphError) :
    Recorded g { s with phase := .rejected err } := by
  have hprogress := hs.progress
  simp only [Progress, hphase] at hprogress
  exact ⟨hs.numbered, hs.orderly, hprogress.1, hprogress.2.2⟩

theorem Recorded.execute {l : ExecutionLabel opts.concurrency} {execution : Execution opts.concurrency}
    (hphase : s.phase = .executing) (hqueue : s.queue = [])
    (hexecute : (executeGraph g ctx opts env).step l s.execution = some execution) :
    Recorded g { s with execution, queue := execution.log.drop s.execution.log.length } := by
  obtain ⟨⟨new, hnew⟩, horderly⟩ := executeGraph_step hs.orderly hexecute
  refine ⟨hs.numbered, horderly, ?_⟩
  have hprogress := hs.progress
  grind [Progress]

theorem Recorded.emit {queue : List Event} (hqueue : s.queue = e :: queue) :
    Recorded g { s with queue, emitter := s.emitter.emit e } := by
  have hphase := hs.progress.executing_of_queue (by rw [hqueue]; exact cons_ne_nil _ _)
  refine ⟨hs.numbered.emit e, hs.orderly, ?_⟩
  have hprogress := hs.progress
  simp only [Progress, hphase] at hprogress ⊢
  obtain ⟨first, done, emitted, hfirst, hevents, hlog, hmirrors⟩ := hprogress
  have hlog' : s.execution.log = done ++ [e] ++ queue := by
    rw [hlog, hqueue, append_assoc]
    rfl
  have hdone : Tidy (done ++ [e]) := hs.orderly.tidy.of_initial ⟨queue, hlog'.symm⟩
  refine ⟨first, done ++ [e], emitted ++ [e], hfirst, ?_, hlog', hmirrors.emit hdone⟩
  rw [emit_events, hevents]
  rfl

theorem Recorded.own (hphase : s.phase = .executing) (hkind : e.kind.isLifecycle = false) :
    Recorded g { s with emitter := s.emitter.emit e } := by
  refine ⟨hs.numbered.emit e, hs.orderly, ?_⟩
  have hprogress := hs.progress
  simp only [Progress, hphase] at hprogress ⊢
  obtain ⟨first, done, emitted, hfirst, hevents, hlog, hmirrors⟩ := hprogress
  refine ⟨first, done, emitted ++ [e], hfirst, ?_, hlog, hmirrors.own hkind⟩
  rw [emit_events, hevents]
  rfl

theorem Recorded.finish {envelope : Option Envelope} {err : Option RunError} (hphase : s.phase = .executing)
    (hqueue : s.queue = []) (hret : s.execution.ret = some (.returned envelope err)) :
      Recorded g { s with phase := .returned envelope err, emitter := s.emitter.emit (runFinished runID err) } := by
  have hprogress := hs.progress
  simp only [Progress, hphase] at hprogress
  obtain ⟨first, done, emitted, hfirst, hevents, hlog, hmirrors⟩ := hprogress
  rw [hqueue, append_nil] at hlog
  have hsettled : Settled emitted := by
    refine ⟨hmirrors.toTidy, ?_⟩
    intro id
    rw [hmirrors.executions_eq, hmirrors.completions_eq, ← hlog]
    exact hs.orderly.balanced hret id
  refine ⟨hs.numbered.emit _, hs.orderly, hqueue, first, _, emitted, hfirst, (runFinished_header runID err).1, ?_,
    hsettled⟩
  rw [emit_events, hevents]
  rfl

theorem Recorded.step {l : RunLabel opts.concurrency}
    (hstep : RunState.step g opts runID (executeGraph g ctx opts env) l s = some s') : Recorded g s' := by
  cases l with
  | start =>
    simp only [RunState.step] at hstep
    split at hstep
    · next hphase =>
      split at hstep
      · cases hstep
        exact hs.reject hphase _
      · cases hstep
        exact hs.start hphase
    · cases hstep
  | execute l =>
    simp only [RunState.step] at hstep
    split at hstep
    · next hphase hqueue =>
      rw [Option.map_eq_some_iff] at hstep
      obtain ⟨execution, hexecute, rfl⟩ := hstep
      exact hs.execute hphase hqueue hexecute
    · cases hstep
  | emit =>
    simp only [RunState.step] at hstep
    split at hstep
    · next hqueue =>
      cases hstep
      exact hs.emit hqueue
    · cases hstep
  | own e =>
    simp only [RunState.step] at hstep
    split at hstep
    · next hphase =>
      split at hstep
      · next hown =>
        cases hstep
        rw [Bool.and_eq_true, Bool.not_eq_true'] at hown
        exact hs.own hphase hown.1
      · cases hstep
    · cases hstep
  | finish =>
    simp only [RunState.step] at hstep
    split at hstep
    · next hphase hqueue hret =>
      cases hstep
      exact hs.finish hphase hqueue hret
    · cases hstep

end

theorem recorded_of_reachable {g : BasicGraph} {ctx : Nat → Option String} {opts : RunOptions}
    {env : Option Envelope} {runID : String} {s : RunState opts.concurrency}
    (hreach : (run g ctx opts env runID).Reachable s) : Recorded g s := by
  refine Machine.Reaches.invariant hreach (fun _ _ _ hs hstep => hs.step hstep) ?_
  obtain ⟨horderly, hlog⟩ := executeGraph_init g ctx opts (startEnvelope env runID)
  exact ⟨rfl, horderly, rfl, hlog, rfl⟩

/-- The log of a whole run: numbered from one without gaps, from the start of the
run to its end, and with a start of its own before every end of an execution. -/
structure WellFormedLog (log : List Emitted) : Prop where
  seqs : log.map (·.seq) = List.range' 1 log.length
  length : 2 ≤ log.length
  started : ∀ e ∈ log, e.event.kind = .runStarted ↔ e.seq = 1
  finished : ∀ e ∈ log, e.event.kind = .runFinished ↔ e.seq = log.length
  balanced : ∀ id, log.countP (·.event.isOf .nodeStarted id) = log.countP (·.event.isEndOf id)
  paired : ∀ id, ∃ pair : Nat → Nat,
    (∀ e ∈ log, e.event.isEndOf id = true →
      pair e.seq < e.seq ∧ ∃ e' ∈ log, e'.seq = pair e.seq ∧ e'.event.isOf .nodeStarted id = true) ∧
    ∀ e ∈ log, ∀ e' ∈ log, e.event.isEndOf id = true → e'.event.isEndOf id = true →
      pair e.seq = pair e'.seq → e.seq = e'.seq

variable {first last : Event} {emitted : List Event}

theorem kind_of_getElem? (hfirst : first.kind = .runStarted) (hlast : last.kind = .runFinished)
    (htidy : Tidy emitted) (he : (first :: (emitted ++ [last]))[i]? = some e) :
    (e.kind = .runStarted ↔ i = 0) ∧ (e.kind = .runFinished ↔ i = emitted.length + 1) := by
  cases i with
  | zero =>
    cases he
    simp [hfirst]
  | succ i =>
    rw [getElem?_cons_succ] at he
    by_cases hi : i < emitted.length
    · rw [getElem?_append_left hi] at he
      obtain ⟨hstarted, hfinished⟩ := htidy.kinds e (mem_of_getElem? he)
      simp [hstarted, hfinished, hi.ne]
    grind

theorem Settled.bracket (hfirst : first.kind = .runStarted) (hlast : last.kind = .runFinished)
    (hemitted : Settled emitted) (id : String) :
    executions (first :: (emitted ++ [last])) id = completions (first :: (emitted ++ [last])) id ∧
    Ballot (·.isOf .nodeStarted id) (·.isEndOf id) (first :: (emitted ++ [last])) := by
  have hneutral : ∀ {e : Event}, e.kind = .runStarted ∨ e.kind = .runFinished →
      e.isOf .nodeStarted id = false ∧ e.isEndOf id = false := by
    rintro e (hkind | hkind) <;> simp [Event.isOf, Event.isEndOf, hkind]
  obtain ⟨hopens, hcloses⟩ := hneutral (.inl hfirst)
  obtain ⟨hopens', hcloses'⟩ := hneutral (.inr hlast)
  have hcount : ∀ before, before <+: first :: emitted →
      before.countP (·.isEndOf id) ≤ before.countP (·.isOf .nodeStarted id) := by
    intro before hbefore
    rcases prefix_cons_iff.mp hbefore with rfl | ⟨rest, rfl, hrest⟩
    · exact le_refl 0
    · simp only [countP_cons, hopens, hcloses]
      exact hemitted.ballot id rest hrest
  constructor
  · have hbalanced := hemitted.balanced id
    grind [executions, completions]
  · have hballot : Ballot (·.isOf .nodeStarted id) (·.isEndOf id) (first :: emitted) := hcount
    rw [← cons_append]
    apply hballot.append_neutral
    intro e he
    rw [mem_singleton.mp he]
    exact hcloses'

theorem Emitter.Numbered.wellFormed (hem : em.Numbered) (hfirst : first.kind = .runStarted)
    (hlast : last.kind = .runFinished) (hevents : em.events = first :: (emitted ++ [last]))
    (hsettled : Settled emitted) : WellFormedLog em.emitted := by
  have hlength : em.emitted.length = emitted.length + 2 := by
    have hlength := congrArg List.length hevents
    simpa [Emitter.events] using hlength
  have hkinds : ∀ e ∈ em.emitted, (e.event.kind = .runStarted ↔ e.seq = 1) ∧
      (e.event.kind = .runFinished ↔ e.seq = em.emitted.length) := by
    intro e he
    obtain ⟨i, hi⟩ := mem_iff_getElem?.mp he
    have hevent := getElem?_events hi
    rw [hevents] at hevent
    obtain ⟨hstarted, hfinished⟩ := kind_of_getElem? hfirst hlast hsettled.toTidy hevent
    rw [hstarted, hfinished, hem.getElem? hi, hlength]
    omega
  have hbracket := fun id => hevents ▸ hsettled.bracket hfirst hlast id
  refine ⟨?_, by omega, fun e he => (hkinds e he).1, fun e he => (hkinds e he).2, ?_, ?_⟩
  · rw [← hem.counter_eq]
    exact hem
  · intro id
    have hbalanced := (hbracket id).1
    unfold executions completions Emitter.events at hbalanced
    rwa [countP_map, countP_map] at hbalanced
  · intro id
    -- positions in the log are sequence numbers less one
    obtain ⟨pair, hpair, hinj⟩ := (hbracket id).2.exists_pairing fun e he => not_isEndOf_of_isOf_nodeStarted he
    have hpos : ∀ e ∈ em.emitted, e.event.isEndOf id = true →
        0 < e.seq ∧ e.seq - 1 ∈ positions (·.isEndOf id) em.events := by
      intro e he hend
      obtain ⟨i, hi⟩ := mem_iff_getElem?.mp he
      rw [hem.getElem? hi, Nat.add_sub_cancel]
      exact ⟨Nat.succ_pos i, mem_positions.mpr ⟨_, getElem?_events hi, hend⟩⟩
    refine ⟨fun q => pair (q - 1) + 1, ?_, ?_⟩
    · intro e he hend
      obtain ⟨hseq, hmem⟩ := hpos e he hend
      obtain ⟨hlt, hstart⟩ := hpair _ hmem
      obtain ⟨ev, hev, hopens⟩ := mem_positions.mp hstart
      rw [Emitter.events, getElem?_map, Option.map_eq_some_iff] at hev
      obtain ⟨e', he', rfl⟩ := hev
      refine ⟨?_, e', mem_of_getElem? he', hem.getElem? he', hopens⟩
      dsimp only
      omega
    · intro e he e' he' hend hend' heq
      obtain ⟨hseq, hmem⟩ := hpos e he hend
      obtain ⟨hseq', hmem'⟩ := hpos e' he' hend'
      have hsame := hinj hmem hmem' (Nat.succ_injective heq)
      omega

/-- For every graph and every number of workers, a run that returns has emitted a
well-formed log, and a run that is refused has emitted nothing. -/
theorem run_log (g : BasicGraph) (ctx : Nat → Option String) (opts : RunOptions) (env : Option Envelope)
    (runID : String) (s : RunState opts.concurrency) (hreach : (run g ctx opts env runID).Reachable s) :
    (∀ envelope err, s.phase = .returned envelope err → WellFormedLog s.emitter.emitted) ∧
    (∀ err, s.phase = .rejected err → s.emitter.emitted = []) := by
  have hs := recorded_of_reachable hreach
  have hprogress := hs.progress
  refine ⟨?_, ?_⟩
  · intro envelope err hphase
    simp only [Progress, hphase] at hprogress
    obtain ⟨_, first, last, emitted, hfirst, hlast, hevents, hsettled⟩ := hprogress
    exact hs.numbered.wellFormed hfirst hlast hevents hsettled
  grind [Progress]

namespace single

def graph : Graph := (Graph.build? [newNoopNode "a"] [] "a").get (by decide)

def opts (concurrency : Nat) : RunOptions := { maxHops := 100, continueOnError := false, concurrency }

def output : Event := (Event.newEvent .nodeOutputFinal "run").withNode "a" .noop

def sequentialRun : List (RunLabel 1) :=
  [.start, .execute .iterate, .emit, .own output, .emit, .execute .iterate, .finish]

def parallelRun : List (RunLabel 2) :=
  [.start, .execute (.act (.worker Label.w₀ .take)), .execute (.act (.worker Label.w₀ .start)), .emit, .own output,
    .execute (.act (.worker Label.w₀ (.finish 0))), .emit, .execute (.act (.worker Label.w₀ .deliver)),
    .execute (.act .receive),
    .execute (.act (.schedule 0)), .execute (.act (.worker Label.w₀ .exit)), .execute (.act (.worker Label.w₁ .exit)),
    .execute (.act .wait), .finish]

def done {n : Nat} (s : RunState n) : Bool := s.completed && s.emitter.emitted.length == 5

end single

/-- Both executors emit five well-formed events for a node with one event of its own. -/
theorem single_log :
    (∃ s, (run single.graph.toBasicGraph (fun _ => none) (single.opts 1) none "run").Reachable s ∧
      s.emitter.emitted.length = 5 ∧ WellFormedLog s.emitter.emitted) ∧
    ∃ s, (run single.graph.toBasicGraph (fun _ => none) (single.opts 2) none "run").Reachable s ∧
      s.emitter.emitted.length = 5 ∧ WellFormedLog s.emitter.emitted := by
  constructor
  · obtain ⟨s, hreach, hdone⟩ := Machine.exists_reachable_of_exec
      (m := run single.graph (fun _ => none) (single.opts 1) none "run") single.sequentialRun
      single.done (by decide +kernel)
    rw [single.done, Bool.and_eq_true, beq_iff_eq] at hdone
    obtain ⟨envelope, hphase⟩ := RunState.exists_of_completed hdone.1
    exact ⟨s, hreach, hdone.2, (run_log _ _ _ _ _ s hreach).1 envelope none hphase⟩
  · obtain ⟨s, hreach, hdone⟩ := Machine.exists_reachable_of_exec
      (m := run single.graph (fun _ => none) (single.opts 2) none "run") single.parallelRun
      single.done (by decide +kernel)
    rw [single.done, Bool.and_eq_true, beq_iff_eq] at hdone
    obtain ⟨envelope, hphase⟩ := RunState.exists_of_completed hdone.1
    exact ⟨s, hreach, hdone.2, (run_log _ _ _ _ _ s hreach).1 envelope none hphase⟩

end petalflow.runtime
