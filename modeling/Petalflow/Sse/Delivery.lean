import Petalflow.Bus.MemBus

open petalflow.runtime petalflow.bus machine

namespace petalflow.sse

/-- Where the handler of a request is: before its subscription, before its
listing of the store, in the loop of `replayStored`, in that of `streamLive`, or
past its return. -/
inductive HandlerPhase where
  | connecting
  | subscribed
  | replaying (events : List Emitted)
  | streaming
  | closed

/-- A request for the events of a run. `written` is what was sent to the client. -/
structure Handler where
  phase : HandlerPhase
  sub : Nat
  lastSeq : Nat
  written : List Emitted

namespace Handler

def isClosed (h : Handler) : Bool :=
  match h.phase with
  | .closed => true
  | _ => false

def connect (afterSeq : Nat) : Handler :=
  { phase := .connecting, sub := 0, lastSeq := afterSeq, written := [] }

def phaseAfter (e : Emitted) (phase : HandlerPhase) : HandlerPhase :=
  if e.event.kind = .runFinished then .closed else phase

/-- An iteration of the loop of `replayStored`, or its end. -/
def replayStored (h : Handler) : List Emitted → Handler
  | [] => { h with phase := .streaming }
  | e :: events =>
    { h with
      phase := phaseAfter e (.replaying events)
      lastSeq := if e.seq > h.lastSeq then e.seq else h.lastSeq
      written := h.written ++ [e] }

/-- An iteration of the loop of `streamLive` that received an event. -/
def streamLive (h : Handler) (e : Emitted) : Handler :=
  if e.seq ≤ h.lastSeq then h
  else { h with phase := phaseAfter e .streaming, lastSeq := e.seq, written := h.written ++ [e] }

end Handler

inductive Stage where
  | ready
  | assigned (e : Emitted)
  | published (e : Emitted)

/-- A run as the bus and the store see it: the events still to be emitted, the
counter of the sequence numbers and the event at hand. -/
structure Source where
  todo : List Event
  counter : Nat
  stage : Stage

structure State where
  source : Source
  bus : MemBus
  store : EventStore
  handler : Handler

inductive Label where
  | assign
  | publish
  | append
  | subscribe
  | list
  | replay
  | receive
  | otherPublish (e : Emitted)
  | otherAppend (e : Emitted)

def Label.own : Label → Bool
  | .otherPublish _ | .otherAppend _ => false
  | _ => true

namespace State

/-- The handler goes on; at its return it closes its subscription. -/
def proceed (s : State) (h : Handler) : State :=
  { s with handler := h, bus := if h.isClosed then s.bus.closeSub h.sub else s.bus }

def step (runID : String) (afterSeq : Nat) : Label → State → Option State
  | .assign, s =>
    match s.source.stage, s.source.todo with
    | .ready, e :: todo =>
      let counter := s.source.counter + 1
      some { s with source := { todo, counter, stage := .assigned { seq := counter, event := e } } }
    | _, _ => none
  | .publish, s =>
    match s.source.stage with
    | .assigned e => some { s with source := { s.source with stage := .published e }, bus := s.bus.publish e }
    | _ => none
  | .append, s =>
    match s.source.stage with
    | .published e => some { s with source := { s.source with stage := .ready }, store := s.store.append e }
    | _ => none
  | .subscribe, s =>
    match s.handler.phase with
    | .connecting =>
      let (sub, bus) := s.bus.subscribe runID
      some { s with bus, handler := { s.handler with phase := .subscribed, sub } }
    | _ => none
  | .list, s =>
    match s.handler.phase with
    | .subscribed =>
      some { s with handler := { s.handler with phase := .replaying (s.store.list runID afterSeq 0) } }
    | _ => none
  | .replay, s =>
    match s.handler.phase with
    | .replaying events => some (s.proceed (s.handler.replayStored events))
    | _ => none
  | .receive, s =>
    match s.handler.phase with
    | .streaming => (s.bus.receive s.handler.sub).map fun r => { s with bus := r.2 }.proceed (s.handler.streamLive r.1)
    | _ => none
  | .otherPublish e, s =>
    if e.event.runID = runID then none else some { s with bus := s.bus.publish e }
  | .otherAppend e, s =>
    if e.event.runID = runID then none else some { s with store := s.store.append e }

end State

def serveHTTP (runID : String) (events : List Event) (afterSeq : Nat) (subscriberBufferSize : Int) :
    Machine State Label :=
  { init :=
      { source := { todo := events, counter := 0, stage := .ready }
        bus := newMemBus subscriberBufferSize
        store := {}
        handler := Handler.connect afterSeq }
    step := State.step runID afterSeq }

open trace List Option

def numberFrom (counter : Nat) (events : List Event) : List Emitted :=
  events.mapIdx fun i e => { seq := counter + i + 1, event := e }

theorem map_seq_numberFrom (counter : Nat) (events : List Event) :
    (numberFrom counter events).map (·.seq) = range' (counter + 1) events.length := by
  apply ext_getElem
  · rw [length_map, numberFrom, length_mapIdx, length_range']
  grind [numberFrom]

def numbered (events : List Event) : List Emitted := numberFrom 0 events

@[simp] theorem length_numbered (events : List Event) : (numbered events).length = events.length :=
  length_mapIdx

theorem numbered_getElem? {events : List Event} {i : Nat} {e : Emitted} :
    (numbered events)[i]? = some e ↔ ∃ event, events[i]? = some event ∧ e = { seq := i + 1, event } := by
  grind [numbered, numberFrom]

theorem seq_of_numbered {events : List Event} {i : Nat} {e : Emitted} (he : (numbered events)[i]? = some e) :
    e.seq = i + 1 := by
  obtain ⟨event, _, rfl⟩ := numbered_getElem?.mp he
  rfl

theorem map_seq_window (events : List Event) (start stop : Nat) :
    (window start stop (numbered events)).map (·.seq) = range' (start + 1) (min stop events.length - start) := by
  rw [window, map_drop, map_take, numbered, map_seq_numberFrom]
  grind

theorem filter_take_numbered (events : List Event) (cursor stop : Nat) :
    ((numbered events).take stop).filter (fun row => decide (cursor < row.seq)) =
      window cursor stop (numbered events) := by
  have hsplit : (numbered events).take stop =
      ((numbered events).take stop).take cursor ++ window cursor stop (numbered events) :=
    (take_append_drop cursor _).symm
  have hbefore : (((numbered events).take stop).take cursor).filter (fun row => decide (cursor < row.seq)) = [] := by
    rw [filter_eq_nil_iff]
    intro row hrow
    rw [take_take] at hrow
    obtain ⟨i, hi⟩ := mem_iff_getElem?.mp hrow
    rw [getElem?_take] at hi
    split at hi
    · rw [seq_of_numbered hi, decide_eq_true_eq]
      omega
    · cases hi
  have hafter : (window cursor stop (numbered events)).filter (fun row => decide (cursor < row.seq)) =
      window cursor stop (numbered events) := by
    rw [filter_eq_self]
    intro row hrow
    obtain ⟨i, hle, _, hi⟩ := mem_window hrow
    rw [seq_of_numbered hi, decide_eq_true_eq]
    omega
  grind

/-- The events of a whole run: all with its id, and the end of the run as the last one. -/
structure RunEvents (runID : String) (events : List Event) : Prop where
  runID_eq : ∀ e ∈ events, e.runID = runID
  finished : ∀ i e, events[i]? = some e → (e.kind = .runFinished ↔ i + 1 = events.length)

def Source.published (src : Source) : Nat :=
  match src.stage with
  | .assigned _ => src.counter - 1
  | _ => src.counter

def Source.stored (src : Source) : Nat :=
  match src.stage with
  | .ready => src.counter
  | _ => src.counter - 1

/-- The emitter has numbered the first events, and holds the last of them while
it is between two steps. -/
structure Source.Emits (events : List Event) (src : Source) : Prop where
  todo : src.todo = events.drop src.counter
  counter_le : src.counter ≤ events.length
  stage : ∀ e, src.stage = .assigned e ∨ src.stage = .published e →
    0 < src.counter ∧ (numbered events)[src.counter - 1]? = some e

theorem Source.Emits.published_le {events : List Event} {src : Source} (hsrc : src.Emits events) :
    src.published ≤ events.length := by
  have hle := hsrc.counter_le
  unfold published
  split <;> omega

/-- What the handler has written: the events between the cursor and the highest
number it has seen. -/
structure Handler.Wrote (events : List Event) (cursor : Nat) (h : Handler) : Prop where
  cursor_le : cursor ≤ h.lastSeq
  written : h.written = window cursor h.lastSeq (numbered events)

/-- What is known of the handler and of its subscription, phase by phase. The
channel holds the published events from some position on. -/
def HandlerOk (runID : String) (events : List Event) (cursor : Nat) (s : State) : Prop :=
  s.handler.Wrote events cursor ∧
  match s.handler.phase with
  | .connecting => s.handler.lastSeq = cursor
  | .subscribed => s.handler.lastSeq = cursor ∧ ∃ next ≤ s.source.published,
      s.bus.Holds s.handler.sub runID (window next s.source.published (numbered events))
  | .replaying rest => ∃ next stop, next ≤ stop ∧ stop ≤ s.source.published ∧
      rest = window s.handler.lastSeq stop (numbered events) ∧
      s.bus.Holds s.handler.sub runID (window next s.source.published (numbered events))
  | .streaming => ∃ next ≤ s.source.published, next ≤ s.handler.lastSeq ∧
      s.bus.Holds s.handler.sub runID (window next s.source.published (numbered events))
  | .closed => events.length ≤ s.handler.lastSeq

structure Consistent (runID : String) (events : List Event) (cursor : Nat) (s : State) : Prop where
  emits : s.source.Emits events
  isOpen : s.bus.closed = false
  stored : s.store.ofRun runID = (numbered events).take s.source.stored
  handler : HandlerOk runID events cursor s

def neverFull (s : State) : Label → Bool
  | .publish => s.bus.subs[s.handler.sub]?.all (·.ch.length < s.bus.bufSize)
  | _ => true

/-- The store is listed only when every event that was published before the
subscription is stored: the event that is not, if there is one, waits in the
channel. -/
def listsInTime (s : State) : Label → Bool
  | .list =>
    match s.source.stage with
    | .published e => s.bus.subs[s.handler.sub]?.any fun sub => sub.ch.any (·.seq == e.seq)
    | _ => true
  | _ => true

section

variable {runID : String} {events : List Event} {cursor : Nat} {s : State} {e : Emitted}

theorem Handler.Wrote.write {h : Handler} (hwrote : h.Wrote events cursor)
    (he : (numbered events)[h.lastSeq]? = some e) (phase : HandlerPhase) :
    { h with phase, lastSeq := e.seq, written := h.written ++ [e] }.Wrote events cursor where
  cursor_le := by
    have hseq := seq_of_numbered he
    have hle := hwrote.cursor_le
    dsimp only
    omega
  written := by
    dsimp only
    rw [seq_of_numbered he, window_concat hwrote.cursor_le he, hwrote.written]

variable {s' : State} {b : MemBus} {i : Nat}

theorem RunEvents.length_le_seq (hevents : RunEvents runID events) (he : (numbered events)[i]? = some e)
    (hkind : e.event.kind = .runFinished) : events.length ≤ e.seq := by
  obtain ⟨event, hevent, rfl⟩ := numbered_getElem?.mp he
  exact ((hevents.finished i event hevent).mp hkind).ge

theorem RunEvents.runID_of_numbered (hevents : RunEvents runID events) (he : (numbered events)[i]? = some e)
    : e.event.runID = runID := by
  obtain ⟨event, hevent, rfl⟩ := numbered_getElem?.mp he
  exact hevents.runID_eq event (mem_of_getElem? hevent)

theorem HandlerOk.of_others (hs : HandlerOk runID events cursor s) (hsame : s'.handler = s.handler)
    (hle : s.source.published ≤ s'.source.published) (hholds : ∀ next ≤ s.source.published,
      s.bus.Holds s.handler.sub runID (window next s.source.published (numbered events)) →
      s'.bus.Holds s.handler.sub runID (window next s'.source.published (numbered events))) :
    HandlerOk runID events cursor s' := by
  obtain ⟨hwrote, hphase⟩ := hs
  unfold HandlerOk
  rw [hsame]
  refine ⟨hwrote, ?_⟩
  cases h : s.handler.phase with
  | connecting | closed =>
    simp only [h] at hphase ⊢
    exact hphase
  | subscribed => grind
  | replaying rest =>
    simp only [h] at hphase ⊢
    obtain ⟨next, stop, hnext, hstop, hrest, hbus⟩ := hphase
    exact ⟨next, stop, hnext, hstop.trans hle, hrest, hholds next (hnext.trans hstop) hbus⟩
  | streaming => grind

variable (hs : Consistent runID events cursor s)
include hs

theorem Consistent.assign {e : Event} {todo : List Event}
    (hstage : s.source.stage = .ready) (htodo : s.source.todo = e :: todo) :
    Consistent runID events cursor { s with source :=
      { todo, counter := s.source.counter + 1, stage := .assigned { seq := s.source.counter + 1, event := e } } } := by
  have hdrop := hs.emits.todo
  rw [htodo] at hdrop
  have hlt : s.source.counter < events.length := by
    by_contra hge
    rw [drop_eq_nil_of_le (by omega)] at hdrop
    cases hdrop
  rw [drop_eq_getElem_cons hlt, List.cons.injEq] at hdrop
  have hevent : events[s.source.counter]? = some e := by
    rw [hdrop.1]
    exact getElem?_eq_getElem hlt
  have hpublished : s.source.published = s.source.counter := by simp only [Source.published, hstage]
  refine ⟨⟨hdrop.2, hlt, ?_⟩, hs.isOpen, ?_, hs.handler.of_others rfl hpublished.le ?_⟩
  · rintro e' (⟨⟨⟩⟩ | ⟨⟨⟩⟩)
    exact ⟨Nat.succ_pos _, numbered_getElem?.mpr ⟨e, hevent, rfl⟩⟩
  · have hstored := hs.stored
    simp only [Source.stored, hstage] at hstored
    exact hstored
  · intro next _ hbus
    rwa [hpublished] at hbus

theorem Consistent.subscribe (hphase : s.handler.phase = .connecting) : Consistent runID events cursor { s with
      bus := (s.bus.subscribe runID).2
      handler := { s.handler with phase := .subscribed, sub := (s.bus.subscribe runID).1 } } := by
  have hhandler := hs.handler
  simp only [HandlerOk, hphase] at hhandler
  obtain ⟨hwrote, hlast⟩ := hhandler
  refine ⟨hs.emits, hs.isOpen, hs.stored, ⟨hwrote.cursor_le, hwrote.written⟩, hlast, s.source.published, le_refl _, ?_⟩
  have hempty : window s.source.published s.source.published (numbered events) = [] :=
    window_eq_nil_iff.mpr (Nat.min_le_left _ _)
  rw [hempty]
  exact MemBus.holds_subscribe hs.isOpen runID

theorem Consistent.list (hphase : s.handler.phase = .subscribed) (htime : listsInTime s .list = true) :
    Consistent runID events cursor
      { s with handler := { s.handler with phase := .replaying (s.store.list runID cursor 0) } } := by
  have hhandler := hs.handler
  simp only [HandlerOk, hphase] at hhandler
  obtain ⟨hwrote, hlast, next, hnext, hbus⟩ := hhandler
  have hsorted : (s.store.ofRun runID).Pairwise fun row row' => row.seq ≤ row'.seq := by
    rw [hs.stored]
    grind [numbered, map_seq_numberFrom, pairwise_lt_range']
  have hbounds : next ≤ s.source.stored ∧ s.source.stored ≤ s.source.published := by
    unfold Source.stored Source.published at *
    cases hstage : s.source.stage with
    | ready | assigned e =>
      simp only [hstage] at hnext ⊢
      exact ⟨hnext, le_refl _⟩
    | published e =>
      simp only [listsInTime, hstage, hbus.sub, any_some, List.any_eq_true, beq_iff_eq] at htime
      grind [mem_window]
  refine ⟨hs.emits, hs.isOpen, hs.stored, ⟨hwrote.cursor_le, hwrote.written⟩, next, s.source.stored, hbounds.1,
    hbounds.2, ?_, hbus⟩
  dsimp only
  rw [EventStore.list_eq_filter cursor hsorted, hs.stored, filter_take_numbered, hlast]

variable (hevents : RunEvents runID events)
include hevents

theorem Consistent.publish (hstage : s.source.stage = .assigned e) (hroom : neverFull s .publish = true) :
    Consistent runID events cursor
      { s with source := { s.source with stage := .published e }, bus := s.bus.publish e } := by
  obtain ⟨hpos, he⟩ := hs.emits.stage e (.inl hstage)
  have hpublished : s.source.published = s.source.counter - 1 := by simp only [Source.published, hstage]
  have hstored := hs.stored
  simp only [Source.stored, hstage] at hstored
  refine ⟨⟨hs.emits.todo, hs.emits.counter_le, ?_⟩, by rw [MemBus.publish_closed]; exact hs.isOpen, hstored,
    hs.handler.of_others rfl ?_ ?_⟩
  · rintro e' (⟨⟨⟩⟩ | ⟨⟨⟩⟩)
    exact ⟨hpos, he⟩
  · rw [hpublished]
    exact Nat.sub_le _ _
  · intro next hnext hbus
    have hlength : (window next s.source.published (numbered events)).length < s.bus.bufSize := by
      simpa [neverFull, hbus.sub] using hroom
    have hholds := hbus.publish (hevents.runID_of_numbered he) hlength
    rw [hpublished, ← window_concat (hpublished ▸ hnext) he, Nat.sub_add_cancel hpos] at hholds
    exact hholds

theorem Consistent.append (hstage : s.source.stage = .published e) : Consistent runID events cursor
      { s with source := { s.source with stage := .ready }, store := s.store.append e } := by
  obtain ⟨hpos, he⟩ := hs.emits.stage e (.inr hstage)
  have hpublished : s.source.published = s.source.counter := by simp only [Source.published, hstage]
  have hstored := hs.stored
  simp only [Source.stored, hstage] at hstored
  refine ⟨⟨hs.emits.todo, hs.emits.counter_le, ?_⟩, hs.isOpen, ?_, hs.handler.of_others rfl hpublished.le ?_⟩
  · rintro e' (⟨⟨⟩⟩ | ⟨⟨⟩⟩)
  · have hnew : ∀ row ∈ s.store.ofRun runID, row.seq ≠ e.seq := by
      intro row hrow
      rw [hstored] at hrow
      obtain ⟨i, hi⟩ := mem_iff_getElem?.mp hrow
      rw [getElem?_take] at hi
      split at hi
      · rw [seq_of_numbered hi, seq_of_numbered he]
        omega
      · cases hi
    dsimp only
    rw [EventStore.ofRun_append (hevents.runID_of_numbered he) hnew, hstored, Source.stored]
    grind [take_add_one, Nat.sub_add_cancel]
  · intro next _ hbus
    rwa [hpublished] at hbus

theorem Consistent.write {phase : HandlerPhase} (hopen : b.closed = false)
    (he : (numbered events)[s.handler.lastSeq]? = some e)
    (hphase : HandlerOk runID events cursor { s with
      bus := b, handler := { s.handler with phase, lastSeq := e.seq, written := s.handler.written ++ [e] } })
    (hrunning : phase ≠ .closed) :
    Consistent runID events cursor ({ s with bus := b }.proceed
      { s.handler with
        phase := Handler.phaseAfter e phase, lastSeq := e.seq, written := s.handler.written ++ [e] }) := by
  by_cases hkind : e.event.kind = .runFinished
  · have hclosed : Handler.phaseAfter e phase = .closed := if_pos hkind
    rw [hclosed]
    exact ⟨hs.emits, hopen, hs.stored, ⟨hphase.1.cursor_le, hphase.1.written⟩, hevents.length_le_seq he hkind⟩
  · have hsame : Handler.phaseAfter e phase = phase := if_neg hkind
    rw [hsame]
    have hnot : { s.handler with phase, lastSeq := e.seq, written := s.handler.written ++ [e] }.isClosed = false := by
      cases phase with
      | closed => exact absurd rfl hrunning
      | _ => rfl
    simp only [State.proceed, hnot, Bool.false_eq_true, if_false]
    exact ⟨hs.emits, hopen, hs.stored, hphase⟩

theorem Consistent.replay {rest : List Emitted} (hphase : s.handler.phase = .replaying rest) :
    Consistent runID events cursor (s.proceed (s.handler.replayStored rest)) := by
  have hhandler := hs.handler
  simp only [HandlerOk, hphase] at hhandler
  obtain ⟨hwrote, next, stop, hnext, hstop, hrest, hbus⟩ := hhandler
  cases rest with
  | nil =>
    have hle : stop ≤ s.handler.lastSeq := by
      have hmin := window_eq_nil_iff.mp hrest.symm
      have hlength := hs.emits.published_le
      rw [length_numbered] at hmin
      omega
    exact ⟨hs.emits, hs.isOpen, hs.stored, ⟨hwrote.cursor_le, hwrote.written⟩, next, hnext.trans hstop,
      hnext.trans hle, hbus⟩
  | cons e rest =>
    obtain ⟨he, hlt, hrest⟩ := window_eq_cons hrest.symm
    have hseq := seq_of_numbered he
    have hgreater : (if e.seq > s.handler.lastSeq then e.seq else s.handler.lastSeq) = e.seq := if_pos (by omega)
    simp only [Handler.replayStored, hgreater]
    refine hs.write hevents hs.isOpen he ⟨hwrote.write he _, next, stop, hnext, hstop, ?_, hbus⟩ nofun
    rw [hrest, hseq]

theorem Consistent.receive (hphase : s.handler.phase = .streaming)
    (hreceive : s.bus.receive s.handler.sub = some (e, b)) :
    Consistent runID events cursor ({ s with bus := b }.proceed (s.handler.streamLive e)) := by
  have hhandler := hs.handler
  simp only [HandlerOk, hphase] at hhandler
  obtain ⟨hwrote, next, hnext, hlast, hbus⟩ := hhandler
  obtain ⟨rest, hwindow, hbus⟩ := hbus.receive hreceive
  obtain ⟨he, hlt, rfl⟩ := window_eq_cons hwindow
  have hseq := seq_of_numbered he
  by_cases hseen : e.seq ≤ s.handler.lastSeq
  · have hsame : s.handler.streamLive e = s.handler := if_pos hseen
    have hnot : s.handler.isClosed = false := by simp only [Handler.isClosed, hphase]
    rw [hsame]
    simp only [State.proceed, hnot, Bool.false_eq_true, if_false]
    refine ⟨hs.emits, hbus.isOpen, hs.stored, hwrote, ?_⟩
    simp only [hphase]
    exact ⟨next + 1, hlt, by omega, hbus⟩
  · have hwrites : s.handler.streamLive e = { s.handler with
        phase := Handler.phaseAfter e .streaming, lastSeq := e.seq, written := s.handler.written ++ [e] } :=
      if_neg hseen
    have hnow : next = s.handler.lastSeq := by omega
    rw [hwrites]
    refine hs.write hevents hbus.isOpen (hnow ▸ he)
      ⟨hwrote.write (hnow ▸ he) _, next + 1, hlt, ?_, hbus⟩ nofun
    dsimp only
    omega

theorem Consistent.step {l : Label} (hroom : neverFull s l = true) (htime : listsInTime s l = true)
    (hstep : State.step runID cursor l s = some s') : Consistent runID events cursor s' := by
  cases l with
  | assign =>
    simp only [State.step] at hstep
    split at hstep
    · next hstage htodo =>
      cases hstep
      exact hs.assign hstage htodo
    · cases hstep
  | publish =>
    simp only [State.step] at hstep
    split at hstep
    · next hstage =>
      cases hstep
      exact hs.publish hevents hstage hroom
    · cases hstep
  | append =>
    simp only [State.step] at hstep
    split at hstep
    · next hstage =>
      cases hstep
      exact hs.append hevents hstage
    · cases hstep
  | subscribe =>
    simp only [State.step] at hstep
    split at hstep
    · next hphase =>
      cases hstep
      exact hs.subscribe hphase
    · cases hstep
  | list =>
    simp only [State.step] at hstep
    split at hstep
    · next hphase =>
      cases hstep
      exact hs.list hphase htime
    · cases hstep
  | replay =>
    simp only [State.step] at hstep
    split at hstep
    · next hphase =>
      cases hstep
      exact hs.replay hevents hphase
    · cases hstep
  | receive =>
    simp only [State.step] at hstep
    split at hstep
    · next hphase =>
      rw [map_eq_some_iff] at hstep
      obtain ⟨⟨e, b⟩, hreceive, rfl⟩ := hstep
      exact hs.receive hevents hphase hreceive
    · cases hstep
  | otherPublish e =>
    simp only [State.step] at hstep
    split at hstep
    · cases hstep
    · next hother =>
      cases hstep
      refine ⟨hs.emits, by rw [MemBus.publish_closed]; exact hs.isOpen, hs.stored,
        hs.handler.of_others rfl (le_refl _) ?_⟩
      exact fun _ _ hbus => hbus.publish_other hother
  | otherAppend e =>
    simp only [State.step] at hstep
    split at hstep
    · cases hstep
    · next hother =>
      cases hstep
      refine ⟨hs.emits, hs.isOpen, ?_, hs.handler.of_others rfl (le_refl _) fun _ _ hbus => hbus⟩
      rw [EventStore.ofRun_append_other hother]
      exact hs.stored

end

/-- The steps that the theorem is about: no channel is ever full, and the store
is listed in time. -/
def inTime (s : State) (l : Label) : Bool := neverFull s l && listsInTime s l

theorem consistent_of_reaches {runID : String} {events : List Event} {cursor : Nat} {bufferSize : Int} {s : State}
    (hevents : RunEvents runID events)
    (hreach : (serveHTTP runID events cursor bufferSize).ReachesUnder (fun s l => inTime s l = true)
      (serveHTTP runID events cursor bufferSize).init s) : Consistent runID events cursor s := by
  refine hreach.invariant ?_ ?_
  · intro s l s' hs hallow hstep
    rw [inTime, Bool.and_eq_true] at hallow
    exact hs.step hevents hallow.1 hallow.2 hstep
  · refine ⟨⟨rfl, Nat.zero_le _, ?_⟩, rfl, rfl, ⟨le_refl _, ?_⟩, rfl⟩
    · rintro e (⟨⟨⟩⟩ | ⟨⟨⟩⟩)
    · exact (window_eq_nil_iff.mpr (Nat.min_le_left _ _)).symm

def AtRest (runID : String) (cursor : Nat) (s : State) : Prop :=
  ∀ l, l.own = true → State.step runID cursor l s = none

theorem Consistent.length_le_lastSeq {runID : String} {events : List Event} {cursor : Nat} {s : State}
    (hs : Consistent runID events cursor s) (hrest : AtRest runID cursor s) : events.length ≤ s.handler.lastSeq := by
  have hpublished : events.length ≤ s.source.published := by
    have hassign := hrest .assign rfl
    have hpublish := hrest .publish rfl
    have happend := hrest .append rfl
    cases hstage : s.source.stage with
    | assigned e => simp [State.step, hstage] at hpublish
    | published e => simp [State.step, hstage] at happend
    | ready =>
      have hnil : s.source.todo = [] := by
        cases htodo : s.source.todo with
        | nil => rfl
        | cons e todo => simp [State.step, hstage, htodo] at hassign
      rw [hs.emits.todo, drop_eq_nil_iff] at hnil
      simpa only [Source.published, hstage] using hnil
  have hhandler := hs.handler.2
  cases hphase : s.handler.phase with
  | connecting =>
    have hstep := hrest .subscribe rfl
    simp [State.step, hphase] at hstep
  | subscribed =>
    have hstep := hrest .list rfl
    simp [State.step, hphase] at hstep
  | replaying rest =>
    have hstep := hrest .replay rfl
    simp [State.step, hphase] at hstep
  | streaming =>
    simp only [hphase] at hhandler
    obtain ⟨next, hnext, hlast, hbus⟩ := hhandler
    have hstep := hrest .receive rfl
    simp only [State.step, hphase, map_eq_none_iff] at hstep
    have hempty := window_eq_nil_iff.mp (hbus.receive_eq_none hstep)
    rw [length_numbered] at hempty
    omega
  | closed =>
    simp only [hphase] at hhandler
    exact hhandler

/-- If the store is listed in time, the client gets exactly the events after its
cursor, in order: at any time some first ones of them, and all of them once it
has got the end of the run or nothing can go on. -/
theorem delivery_complete (runID : String) (events : List Event) (hevents : RunEvents runID events) (cursor : Nat)
    (bufferSize : Int) (s : State)
    (hreach : (serveHTTP runID events cursor bufferSize).ReachesUnder (fun s l => inTime s l = true)
      (serveHTTP runID events cursor bufferSize).init s) :
    s.handler.written.map (·.seq) <+: List.range' (cursor + 1) (events.length - cursor) ∧
    ((∃ e ∈ s.handler.written, e.event.kind = .runFinished) ∨ AtRest runID cursor s →
      s.handler.written.map (·.seq) = List.range' (cursor + 1) (events.length - cursor)) := by
  have hs := consistent_of_reaches hevents hreach
  obtain ⟨hle, hwritten⟩ := hs.handler.1
  have hseqs : s.handler.written.map (·.seq) =
      range' (cursor + 1) (min s.handler.lastSeq events.length - cursor) := by
    rw [hwritten, map_seq_window]
  refine ⟨?_, ?_⟩
  · grind [prefix_iff_eq_take]
  · intro hall
    have hlast : events.length ≤ s.handler.lastSeq := by
      rcases hall with ⟨e, he, hkind⟩ | hrest
      · rw [hwritten] at he
        obtain ⟨i, _, hlt, hi⟩ := mem_window he
        have hend := hevents.length_le_seq hi hkind
        rw [seq_of_numbered hi] at hend
        omega
      · exact hs.length_le_lastSeq hrest
    rw [hseqs, Nat.min_eq_right hlast]

namespace relay

def events : List Event :=
  [Event.newEvent .runStarted "run", (Event.newEvent .nodeStarted "run").withNode "a" .noop,
    (Event.newEvent .nodeFinished "run").withNode "a" .noop, Event.newEvent .runFinished "run"]

theorem runEvents : RunEvents "run" events where
  runID_eq := by decide
  finished := by
    intro i e he
    match i with
    | 0 | 1 | 2 | 3 =>
      cases he
      decide
    | i + 4 => cases he

def emit : List Label := [.assign, .publish, .append]

/-- The request comes between the first two events and lists the store while the
second is published and not stored. -/
def inTime : List Label :=
  emit ++ [.subscribe, .assign, .publish, .list, .replay, .append, .replay, .receive] ++ emit ++
    [.receive] ++ emit ++ [.receive]

def late : List Label :=
  [.assign, .publish, .subscribe, .list, .append, .replay] ++ emit ++ emit ++ emit ++ [.receive, .receive, .receive]

def got (seqs : List Nat) (s : State) : Bool :=
  s.handler.written.map (·.seq) == seqs && s.handler.written.any (·.event.kind = .runFinished)

end relay

/-- A request in the middle of a run gets all of its events. -/
theorem relay_complete :
    ∃ s, (serveHTTP "run" relay.events 0 0).ReachesUnder (fun s l => inTime s l = true)
        (serveHTTP "run" relay.events 0 0).init s ∧ s.handler.written.map (·.seq) = [1, 2, 3, 4] := by
  obtain ⟨s, hreach, hgot⟩ := Machine.exists_reachesUnder_of_exec (m := serveHTTP "run" relay.events 0 0) (P := inTime)
    relay.inTime (relay.got [1, 2, 3, 4]) (by decide +kernel)
  rw [relay.got, Bool.and_eq_true, List.any_eq_true] at hgot
  obtain ⟨_, e, he, hkind⟩ := hgot
  refine ⟨s, hreach, (delivery_complete "run" relay.events relay.runEvents 0 0 s hreach).2 (.inl ⟨e, he, ?_⟩)⟩
  exact of_decide_eq_true hkind

/-- An event that is published before the subscription and stored after the
listing never gets to the client. -/
theorem relay_incomplete :
    ∃ s, (serveHTTP "run" relay.events 0 0).ReachesUnder (fun s l => neverFull s l = true)
        (serveHTTP "run" relay.events 0 0).init s ∧ relay.got [2, 3, 4] s = true :=
  Machine.exists_reachesUnder_of_exec (m := serveHTTP "run" relay.events 0 0) (P := neverFull) relay.late
    (relay.got [2, 3, 4]) (by decide +kernel)

end petalflow.sse
