import Petalflow.Bus.MemBus
import Petalflow.Runtime.RunLog

open petalflow.core petalflow.graph petalflow.runtime petalflow.bus machine List

namespace petalflow.server

/-- A streaming request: the run it started, the bus and what its subscription
has handed over. -/
structure Streaming where
  run : RunState defaultRunOptions.concurrency
  eventBus : MemBus
  sub : Nat
  received : List Emitted

inductive StreamingLabel where
  | run (l : RunLabel defaultRunOptions.concurrency)
  | receive
  | other (e : Emitted)

def newEvents {n : Nat} (before after : RunState n) : List Emitted :=
  after.emitter.emitted.drop before.emitter.emitted.length

def announcedEnvelope (env : Envelope) (runID : String) : Envelope :=
  { env with trace := { env.trace with runID } }

/-- A streaming request on a bus: it subscribes to the id it has drawn, sets that
id in the envelope and starts the run, which draws an id itself. -/
def handleRunStreaming (g : BasicGraph) (ctx : Nat → Option String) (env : Envelope) (b : MemBus)
    (runID generated : String) : Machine Streaming StreamingLabel :=
  let m := run g ctx defaultRunOptions (some (announcedEnvelope env runID)) generated
  { init := { run := m.init, eventBus := (b.subscribe runID).2, sub := (b.subscribe runID).1, received := [] }
    step := fun
      | .run l, s =>
        (m.step l s.run).map fun run =>
          { s with run, eventBus := (newEvents s.run run).foldl MemBus.publish s.eventBus }
      | .receive, s =>
        (s.eventBus.receive s.sub).map fun r =>
          { s with eventBus := r.2, received := s.received ++ [r.1] }
      | .other e, s => some { s with eventBus := s.eventBus.publish e } }

/-- The run has not started, or the first event that it has emitted carries the given id. -/
def Started {n : Nat} (generated : String) (s : RunState n) : Prop :=
  (s.emitter.emitted = [] ∧ s.queue = [] ∧ s.phase ≠ .executing) ∨
    ∃ e ∈ s.emitter.emitted.head?, e.event.runID = generated

/-- What was taken from the subscription and what waits in its channel has its run id. -/
structure Filtered (runID generated : String) (s : Streaming) : Prop where
  started : Started generated s.run
  delivered : ∃ ch, s.eventBus.Holds s.sub runID ch ∧ ∀ e ∈ s.received ++ ch, e.event.runID = runID

variable {g : BasicGraph} {ctx : Nat → Option String} {env : Envelope} {b : MemBus} {runID generated : String}
  {s s' : Streaming}

theorem Started.emit {n : Nat} {s s' : RunState n} {e : Event}
    (hs : ∃ e ∈ s.emitter.emitted.head?, e.event.runID = generated)
    (hemit : s'.emitter = s.emitter.emit e) : Started generated s' := by
  obtain ⟨first, hfirst, hid⟩ := hs
  refine .inr ⟨first, ?_, hid⟩
  rw [hemit, Emitter.emit, head?_append, Option.mem_def.mp hfirst]
  rfl

theorem Started.step {opts : RunOptions} {m : Machine (Execution opts.concurrency) (ExecutionLabel opts.concurrency)}
    {s s' : RunState opts.concurrency} {l : RunLabel opts.concurrency} (hs : Started generated s)
    (hstep : RunState.step g opts generated m l s = some s') : Started generated s' := by
  cases l with
  | start =>
    simp only [RunState.step] at hstep
    split at hstep
    · split at hstep
      · cases hstep
        exact hs.imp (fun h => ⟨h.1, h.2.1, by simp⟩) id
      · cases hstep
        rcases hs with ⟨hnone, -, -⟩ | hs
        · refine .inr ⟨{ seq := s.emitter.counter + 1, event := runStarted g opts generated }, ?_,
            (runStarted_header g opts generated).2⟩
          simp [Emitter.emit, hnone]
        · exact Started.emit hs rfl
    · cases hstep
  | execute l =>
    simp only [RunState.step] at hstep
    split at hstep
    · next hphase _ =>
      rw [Option.map_eq_some_iff] at hstep
      obtain ⟨execution, -, rfl⟩ := hstep
      exact .inr (hs.resolve_left fun h => h.2.2 hphase)
    · cases hstep
  | emit =>
    simp only [RunState.step] at hstep
    split at hstep
    · next hqueue =>
      cases hstep
      refine Started.emit (hs.resolve_left fun h => ?_) rfl
      rw [hqueue] at h
      cases h.2.1
    · cases hstep
  | own e =>
    simp only [RunState.step] at hstep
    split at hstep
    · next hphase =>
      split at hstep
      · cases hstep
        exact Started.emit (hs.resolve_left fun h => h.2.2 hphase) rfl
      · cases hstep
    · cases hstep
  | finish =>
    simp only [RunState.step] at hstep
    split at hstep
    · next hphase _ _ =>
      cases hstep
      exact Started.emit (hs.resolve_left fun h => h.2.2 hphase) rfl
    · cases hstep

theorem Filtered.publish {sub : Nat} {e : Emitted} {received ch : List Emitted} (hholds : b.Holds sub runID ch)
    (hids : ∀ e ∈ received ++ ch, e.event.runID = runID) :
    ∃ ch', (b.publish e).Holds sub runID ch' ∧ ∀ e ∈ received ++ ch', e.event.runID = runID := by
  by_cases hid : e.event.runID = runID
  · by_cases hlength : ch.length < b.bufSize
    · refine ⟨ch ++ [e], hholds.publish hid hlength, ?_⟩
      rw [← append_assoc]
      exact forall_mem_append.mpr ⟨hids, forall_mem_singleton.mpr hid⟩
    · -- the channel is full, and the event is dropped
      refine ⟨ch, ⟨by simp [hholds.isOpen], ?_⟩, hids⟩
      rw [MemBus.publish_of_open hholds.isOpen, getElem?_map, hholds.sub]
      simp [MemSub.send, hlength]
  · exact ⟨ch, hholds.publish_other hid, hids⟩

theorem Filtered.publishAll {sub : Nat} {received ch : List Emitted} (events : List Emitted)
    (hholds : b.Holds sub runID ch) (hids : ∀ e ∈ received ++ ch, e.event.runID = runID) :
    ∃ ch', (events.foldl MemBus.publish b).Holds sub runID ch' ∧ ∀ e ∈ received ++ ch', e.event.runID = runID := by
  induction events generalizing b ch with
  | nil => exact ⟨ch, hholds, hids⟩
  | cons e events ih =>
    obtain ⟨ch', hholds', hids'⟩ := Filtered.publish hholds hids
    exact ih hholds' hids'

theorem Filtered.step {l : StreamingLabel} (hs : Filtered runID generated s)
    (hstep : (handleRunStreaming g ctx env b runID generated).step l s = some s') : Filtered runID generated s' := by
  obtain ⟨hstarted, ch, hholds, hids⟩ := hs
  cases l with
  | run l =>
    simp only [handleRunStreaming, Option.map_eq_some_iff] at hstep
    obtain ⟨run, hstep, rfl⟩ := hstep
    exact ⟨hstarted.step hstep, Filtered.publishAll _ hholds hids⟩
  | receive =>
    simp only [handleRunStreaming, Option.map_eq_some_iff] at hstep
    obtain ⟨⟨e, b'⟩, hreceive, rfl⟩ := hstep
    obtain ⟨rest, rfl, hholds'⟩ := hholds.receive hreceive
    refine ⟨hstarted, rest, hholds', ?_⟩
    rw [append_assoc]
    exact hids
  | other e =>
    cases hstep
    exact ⟨hstarted, Filtered.publish hholds hids⟩

/-- No run streams its own events. The id that the run draws is another one than the announced
one, so that its first event does not carry the announced id, and is never delivered. -/
theorem streams_own_events (g : BasicGraph) (ctx : Nat → Option String) (env : Envelope) (b : MemBus)
    (hopen : b.closed = false) (runID generated : String) (hgenerated : generated ≠ runID) (s : Streaming)
    (hreach : (handleRunStreaming g ctx env b runID generated).Reachable s) (hstarted : s.run.emitter.emitted ≠ []) :
    (¬ ∀ e ∈ s.run.emitter.emitted, e.event.runID = runID) ∧
    ∃ sub, s.eventBus.subs[s.sub]? = some sub ∧ ¬ ∀ e ∈ s.run.emitter.emitted, e ∈ s.received ++ sub.ch := by
  have hs : Filtered runID generated s := by
    refine Machine.Reaches.invariant hreach (fun _ _ _ hs hstep => hs.step hstep) ?_
    exact ⟨.inl ⟨rfl, rfl, nofun⟩, [], MemBus.holds_subscribe hopen runID, nofun⟩
  obtain ⟨first, hfirst, hid⟩ := hs.started.resolve_left fun h => hstarted h.1
  have hmem : first ∈ s.run.emitter.emitted := mem_of_mem_head? hfirst
  obtain ⟨ch, hholds, hids⟩ := hs.delivered
  refine ⟨fun hall => hgenerated (hid.symm.trans (hall first hmem)), _, hholds.sub, fun hall => ?_⟩
  exact hgenerated (hid.symm.trans (hids first (hall first hmem)))

namespace request

theorem built : (Graph.build? [newNoopNode "a"] [] "a").isSome = true := by decide

def graph : Graph := (Graph.build? [newNoopNode "a"] [] "a").get built

def labels : List StreamingLabel :=
  [.run .start, .run (.execute .iterate), .run .emit, .run .emit, .run (.execute .iterate), .run .finish]

def outcome (s : Streaming) : List String × Option Nat :=
  (s.run.emitter.emitted.map (·.event.runID), s.eventBus.subs[s.sub]?.map (·.ch.length))

def streaming (runID generated : String) : Machine Streaming StreamingLabel :=
  handleRunStreaming graph.toBasicGraph (fun _ => none) {} (newMemBus 0) runID generated

end request

theorem request_streams :
    ∃ s, (request.streaming "announced" "generated").Reachable s ∧ s.run.emitter.emitted ≠ [] ∧
      (¬ ∀ e ∈ s.run.emitter.emitted, e.event.runID = "announced") ∧
      ∃ sub, s.eventBus.subs[s.sub]? = some sub ∧ ¬ ∀ e ∈ s.run.emitter.emitted, e ∈ s.received ++ sub.ch := by
  obtain ⟨s, hreach, htest⟩ := Machine.exists_reachable_of_exec (m := request.streaming "announced" "generated")
    request.labels (fun s => s.run.emitter.emitted.length == 4) (by decide +kernel)
  have hstarted : s.run.emitter.emitted ≠ [] := by
    intro h
    rw [h] at htest
    cases htest
  exact ⟨s, hreach, hstarted,
    streams_own_events _ _ _ _ rfl "announced" "generated" (by decide) s hreach hstarted⟩

/-- The id that the run draws replaces the announced one: no event of the run
carries the announced id and none gets to the request's subscription. -/
theorem request_streams_nothing :
    ∃ s, (request.streaming "announced" "generated").Reachable s ∧ s.run.completed = true ∧
      request.outcome s = (["generated", "generated", "generated", "generated"], some 0) := by
  obtain ⟨s, hreach, htest⟩ := Machine.exists_reachable_of_exec (m := request.streaming "announced" "generated")
    request.labels (fun s => s.run.completed &&
      request.outcome s == (["generated", "generated", "generated", "generated"], some 0)) (by decide +kernel)
  rw [Bool.and_eq_true, beq_iff_eq] at htest
  exact ⟨s, hreach, htest⟩

end petalflow.server
