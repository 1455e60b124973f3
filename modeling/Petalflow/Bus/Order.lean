import Petalflow.Sse.Delivery

open petalflow.core petalflow.graph petalflow.runtime petalflow.sse machine pool List Option Function

namespace petalflow.bus

/-- A run of the parallel executor with its bus. An emitter, a worker or `none`
for the coordinator, holds the events it has numbered and not yet published.
`published` lists the calls of `Publish`, `received` what each subscriber has
taken from its channel. -/
structure ParallelRun (n : Nat) where
  phase : RunPhase
  execution : State n
  counter : Nat
  holding : Option (Fin n) → List Emitted
  eventBus : MemBus
  published : List Emitted
  received : Nat → List Emitted

inductive ParallelLabel (n : Nat) where
  | start
  | act (l : Label n)
  | own (w : Fin n) (e : Event)
  | finish
  | publish (x : Option (Fin n))
  | subscribe (runID : String)
  | subscribeAll
  | receive (sub : Nat)

namespace ParallelRun

variable {n : Nat}

/-- Whether the emitter of a step has published all it has numbered. A
cancellation comes from outside of the run. -/
def canAct (s : ParallelRun n) : Label n → Bool
  | .cancel _ => true
  | .worker w _ => (s.holding (some w)).isEmpty
  | _ => (s.holding none).isEmpty

def emitterOf : Label n → Option (Fin n)
  | .worker w _ => some w
  | _ => none

def number (s : ParallelRun n) (x : Option (Fin n)) (events : List Event) : ParallelRun n :=
  { s with
    counter := s.counter + events.length
    holding := Function.update s.holding x (s.holding x ++ numberFrom s.counter events) }

def isRunning : Worker WorkItem NodeResult → Bool
  | .running _ => true
  | _ => false

def step (g : BasicGraph) (opts : RunOptions) (env : Envelope) (runID : String) :
    ParallelLabel n → ParallelRun n → Option (ParallelRun n)
  | .start, s =>
    match s.phase with
    | .starting =>
      match validateGraph g with
      | .error err => some { s with phase := .rejected err }
      | .ok () => some ({ s with phase := .executing }.number none [runStarted g opts runID])
    | _ => none
  | .act l, s =>
    match s.phase with
    | .executing =>
      if s.canAct l then
        (State.step g opts env l s.execution).map fun execution =>
          -- a step emits one event at most
          { s with execution }.number (emitterOf l) (execution.log.drop s.execution.log.length)
      else none
    | _ => none
  | .own w e, s =>
    match s.phase with
    | .executing =>
      if !e.kind.isLifecycle && isRunning (s.execution.pool.workers w) && (s.holding (some w)).isEmpty then
        some (s.number (some w) [e])
      else none
    | _ => none
  | .finish, s =>
    match s.phase, s.execution.coordinator, s.holding none with
    | .executing, .returned (.returned envelope err), [] =>
      some ({ s with phase := .returned envelope err }.number none [runFinished runID err])
    | _, _, _ => none
  | .publish x, s =>
    match s.holding x with
    | e :: rest =>
      some { s with
        holding := Function.update s.holding x rest
        eventBus := s.eventBus.publish e
        published := s.published ++ [e] }
    | [] => none
  | .subscribe runID, s => some { s with eventBus := (s.eventBus.subscribe runID).2 }
  | .subscribeAll, s => some { s with eventBus := s.eventBus.subscribeAll.2 }
  | .receive sub, s =>
    (s.eventBus.receive sub).map fun r =>
      { s with eventBus := r.2, received := Function.update s.received sub (s.received sub ++ [r.1]) }

def isIdle (s : ParallelRun n) : Bool := decide (∀ x, (s.holding x).isEmpty = true)

def exclusive (g : BasicGraph) (opts : RunOptions) (env : Envelope) (runID : String) (s : ParallelRun n)
    (l : ParallelLabel n) : Bool :=
  s.isIdle || (s.step g opts env runID l).all (·.counter == s.counter)

end ParallelRun

def parallelRun (g : BasicGraph) (opts : RunOptions) (env : Option Envelope) (runID : String)
    (subscriberBufferSize : Int) : Machine (ParallelRun opts.concurrency) (ParallelLabel opts.concurrency) :=
  { init :=
      { phase := .starting
        execution := State.init g (startEnvelope env runID)
        counter := 0
        holding := fun _ => []
        eventBus := newMemBus subscriberBufferSize
        published := []
        received := fun _ => [] }
    step := ParallelRun.step g opts (startEnvelope env runID) runID }

/-- What was published and the events that one emitter still holds are all events
in the order of their numbers, and every subscriber gets some of them in the
order of the publication. -/
structure InOrder {n : Nat} (s : ParallelRun n) : Prop where
  published : ∃ x, (∀ y, y ≠ x → s.holding y = []) ∧
    (s.published ++ s.holding x).map (·.seq) = List.range' 1 s.counter
  subs : ∀ i sub, s.eventBus.subs[i]? = some sub → (s.received i ++ sub.ch).Sublist s.published
  rest : ∀ i, s.eventBus.subs.length ≤ i → s.received i = []

section

variable {n : Nat} {s s' : ParallelRun n} (hs : InOrder s)
include hs

theorem InOrder.number (x : Option (Fin n)) (events : List Event) (hidle : (∀ y, s.holding y = []) ∨ events = []) :
    InOrder (s.number x events) := by
  refine ⟨?_, hs.subs, hs.rest⟩
  rcases hidle with hidle | rfl
  · obtain ⟨y, _, hseqs⟩ := hs.published
    rw [hidle y, append_nil] at hseqs
    refine ⟨x, ?_, ?_⟩
    · simp_all [ParallelRun.number]
    · simp only [ParallelRun.number, update_self, hidle x, nil_append, map_append, hseqs, map_seq_numberFrom]
      rw [Nat.add_comm s.counter 1, range'_append_1]
  · have hsame : s.number x [] = s := by simp [ParallelRun.number, numberFrom]
    rw [hsame]
    exact hs.published

variable {x : Option (Fin n)} {e : Emitted}

theorem InOrder.publish {rest : List Emitted} (hholding : s.holding x = e :: rest) : InOrder { s with
      holding := Function.update s.holding x rest
      eventBus := s.eventBus.publish e
      published := s.published ++ [e] } := by
  obtain ⟨y, hothers, hseqs⟩ := hs.published
  have hxy : x = y := by
    by_contra hne
    rw [hothers x hne] at hholding
    cases hholding
  subst hxy
  refine ⟨⟨x, ?_, ?_⟩, ?_, ?_⟩
  · simp_all
  · simp_all
  · intro i sub hsub
    dsimp only at hsub ⊢
    unfold MemBus.publish at hsub
    split at hsub
    · exact (hs.subs i sub hsub).trans (sublist_append_left _ _)
    · simp only [getElem?_map, map_eq_some_iff] at hsub
      obtain ⟨old, hold, rfl⟩ := hsub
      have hkept := hs.subs i old hold
      have hunchanged := hkept.trans (sublist_append_left s.published [e])
      split
      · unfold MemSub.send
        split
        · exact hunchanged
        · split
          · grind
          · exact hunchanged
      · exact hunchanged
  · intro i hi
    apply hs.rest i
    grind [MemBus.publish]

theorem InOrder.subscribed {sub : MemSub} (hempty : sub.ch = []) :
    InOrder { s with eventBus := { s.eventBus with subs := s.eventBus.subs ++ [sub] } } := by
  refine ⟨hs.published, ?_, ?_⟩
  · intro i sub' hsub'
    dsimp only at hsub' ⊢
    by_cases hi : i < s.eventBus.subs.length
    · rw [getElem?_append_left hi] at hsub'
      exact hs.subs i sub' hsub'
    · rw [getElem?_append_right (by omega)] at hsub'
      have hmem := mem_of_getElem? hsub'
      rw [mem_singleton.mp hmem, hempty, hs.rest i (by omega)]
      exact nil_sublist _
  · intro i hi
    apply hs.rest i
    grind

theorem InOrder.receive {i : Nat} {b : MemBus} (hreceive : s.eventBus.receive i = some (e, b)) :
    InOrder { s with eventBus := b, received := Function.update s.received i (s.received i ++ [e]) } := by
  unfold MemBus.receive at hreceive
  split at hreceive
  · cases hreceive
  · next old hold =>
    split at hreceive
    · cases hreceive
    · next e' rest hch =>
      cases hreceive
      obtain ⟨hlt, _⟩ := List.getElem?_eq_some_iff.mp hold
      refine ⟨hs.published, ?_, ?_⟩
      · intro j sub hsub
        dsimp only at hsub ⊢
        by_cases hj : j = i
        · subst hj
          rw [List.getElem?_set_self hlt] at hsub
          cases hsub
          have hkept := hs.subs j old hold
          simp_all
        · rw [List.getElem?_set_ne (Ne.symm hj)] at hsub
          rw [Function.update_of_ne hj]
          exact hs.subs j sub hsub
      · intro j hj
        simp only [List.length_set] at hj
        have hne : j ≠ i := by omega
        dsimp only
        rw [Function.update_of_ne hne]
        exact hs.rest j hj

theorem InOrder.congr (hcounter : s'.counter = s.counter) (hholding : s'.holding = s.holding)
    (hbus : s'.eventBus = s.eventBus) (hpublished : s'.published = s.published) (hreceived : s'.received = s.received) :
    InOrder s' := by
  obtain ⟨hpub, hsubs, hrest⟩ := hs
  constructor
  · rwa [hcounter, hholding, hpublished]
  · rwa [hbus, hreceived, hpublished]
  · rwa [hbus, hreceived]

omit hs

variable {g : BasicGraph} {opts : RunOptions} {env : Envelope} {runID : String}
  {l : ParallelLabel n}

theorem InOrder.number_of_exclusive {events : List Event} {s₀ : ParallelRun n} (hs : InOrder s₀)
    (hexclusive : s.exclusive g opts env runID l = true)
    (hstep : s.step g opts env runID l = some (s₀.number x events)) (hsame : s₀.holding = s.holding)
    (hcounter : s₀.counter = s.counter) : InOrder (s₀.number x events) := by
  apply hs.number
  simp_all [ParallelRun.exclusive, ParallelRun.isIdle, ParallelRun.number]

theorem InOrder.step (hs : InOrder s) (hexclusive : s.exclusive g opts env runID l = true)
    (hstep : s.step g opts env runID l = some s') : InOrder s' := by
  have hwhole := hstep
  cases l with
  | start =>
    simp only [ParallelRun.step] at hstep
    split at hstep
    · split at hstep
      · cases hstep
        exact hs.congr rfl rfl rfl rfl rfl
      · cases hstep
        have hs₀ : InOrder { s with phase := .executing } := hs.congr rfl rfl rfl rfl rfl
        exact hs₀.number_of_exclusive hexclusive hwhole rfl rfl
    · cases hstep
  | act l =>
    simp only [ParallelRun.step] at hstep
    split at hstep
    · split at hstep
      · rw [map_eq_some_iff] at hstep
        obtain ⟨execution, _, rfl⟩ := hstep
        have hs₀ : InOrder { s with execution } := hs.congr rfl rfl rfl rfl rfl
        exact hs₀.number_of_exclusive hexclusive hwhole rfl rfl
      · cases hstep
    · cases hstep
  | own w e =>
    simp only [ParallelRun.step] at hstep
    split at hstep
    · split at hstep
      · cases hstep
        exact hs.number_of_exclusive hexclusive hwhole rfl rfl
      · cases hstep
    · cases hstep
  | finish =>
    simp only [ParallelRun.step] at hstep
    split at hstep
    · next envelope err _ _ _ =>
      cases hstep
      have hs₀ : InOrder { s with phase := .returned envelope err } := hs.congr rfl rfl rfl rfl rfl
      exact hs₀.number_of_exclusive hexclusive hwhole rfl rfl
    · cases hstep
  | publish x =>
    simp only [ParallelRun.step] at hstep
    split at hstep
    · next hholding =>
      cases hstep
      exact hs.publish hholding
    · cases hstep
  | subscribe runID' | subscribeAll =>
    cases hstep
    exact hs.subscribed rfl
  | receive i =>
    simp only [ParallelRun.step, map_eq_some_iff] at hstep
    obtain ⟨⟨e, b⟩, hreceive, rfl⟩ := hstep
    exact hs.receive hreceive

end

/-- If every sequence number is taken while no other event waits to be published,
every subscriber gets the events of a run in strictly increasing order. -/
theorem bus_order (g : BasicGraph) (opts : RunOptions) (env : Option Envelope) (runID : String) (bufferSize : Int)
    (s : ParallelRun opts.concurrency) (hreach : (parallelRun g opts env runID bufferSize).ReachesUnder
      (fun s l => s.exclusive g opts (startEnvelope env runID) runID l = true)
      (parallelRun g opts env runID bufferSize).init s) (i : Nat) (sub : MemSub)
    (hsub : s.eventBus.subs[i]? = some sub) :
    ((s.received i ++ sub.ch).map (·.seq)).Pairwise (· < ·) := by
  have hs : InOrder s := by
    refine hreach.invariant (fun _ _ _ hs hexclusive hstep => hs.step hexclusive hstep) ?_
    exact ⟨⟨none, fun _ _ => rfl, rfl⟩, by simp [parallelRun, newMemBus], fun _ _ => rfl⟩
  obtain ⟨x, _, hseqs⟩ := hs.published
  have hall : (s.received i ++ sub.ch).Sublist (s.published ++ s.holding x) :=
    (hs.subs i sub hsub).trans (sublist_append_left _ _)
  grind [pairwise_lt_range']

namespace crossing

def graph : Graph :=
  (Graph.build? [newNoopNode "e", newNoopNode "a", newNoopNode "b"] [⟨"e", "a"⟩, ⟨"e", "b"⟩] "e").get (by decide)

def opts : RunOptions := { maxHops := 100, continueOnError := false, concurrency := 2 }

/-- The start of the run and its entry node, each event published at once, up to
the two workers that have taken the successors. -/
def opening : List (ParallelLabel 2) :=
  [.subscribe "run", .start, .publish none, .act (.worker Label.w₀ .take), .act (.worker Label.w₀ .start),
    .publish (some Label.w₀),
    .act (.worker Label.w₀ (.finish 0)), .publish (some Label.w₀), .act (.worker Label.w₀ .deliver), .act .receive,
    .act (.schedule 0),
    .act .send, .act (.schedule 0), .act .send, .act (.worker Label.w₀ .take), .act (.worker Label.w₁ .take)]

def inTurn : List (ParallelLabel 2) :=
  opening ++ [.act (.worker Label.w₀ .start), .publish (some Label.w₀), .act (.worker Label.w₁ .start),
    .publish (some Label.w₁)]

def crossed : List (ParallelLabel 2) :=
  opening ++ [.act (.worker Label.w₀ .start), .act (.worker Label.w₁ .start), .publish (some Label.w₁),
    .publish (some Label.w₀)]

def delivered (s : ParallelRun 2) : Option (List Nat × List Nat) :=
  s.eventBus.subs[0]?.map fun sub =>
    (sub.ch.map (·.seq),
      (sub.ch.foldl sse.Handler.streamLive { sse.Handler.connect 0 with phase := .streaming }).written.map (·.seq))

end crossing

/-- Two workers whose events are published in turn are seen in order. -/
theorem crossing_inTurn :
    ∃ s sub, (parallelRun crossing.graph.toBasicGraph crossing.opts none "run" 0).Reachable s ∧
      s.eventBus.subs[0]? = some sub ∧ sub.ch.length = 5 ∧ ((s.received 0 ++ sub.ch).map (·.seq)).Pairwise (· < ·) := by
  obtain ⟨s, hreach, htest⟩ := Machine.exists_reachesUnder_of_exec
    (m := parallelRun crossing.graph crossing.opts none "run" 0)
    (P := fun s l => s.exclusive crossing.graph crossing.opts (startEnvelope none "run") "run" l)
    crossing.inTurn (fun s => s.eventBus.subs[0]?.any (·.ch.length == 5)) (by decide +kernel)
  rw [Option.any_eq_true] at htest
  obtain ⟨sub, hsub, hlength⟩ := htest
  exact ⟨s, sub, hreach.reaches, hsub, beq_iff_eq.mp hlength, bus_order _ crossing.opts _ _ _ s hreach 0 sub hsub⟩

/-- Two workers whose publications cross are seen out of order, and a handler
that streams their events discards the second of them. -/
theorem crossing_crossed :
    ∃ s, (parallelRun crossing.graph.toBasicGraph crossing.opts none "run" 0).Reachable s ∧
      crossing.delivered s = some ([1, 2, 3, 5, 4], [1, 2, 3, 5]) := by
  obtain ⟨s, hreach, htest⟩ := Machine.exists_reachable_of_exec
    (m := parallelRun crossing.graph crossing.opts none "run" 0)
    crossing.crossed (fun s => crossing.delivered s == some ([1, 2, 3, 5, 4], [1, 2, 3, 5])) (by decide +kernel)
  exact ⟨s, hreach, beq_iff_eq.mp htest⟩

end petalflow.bus
