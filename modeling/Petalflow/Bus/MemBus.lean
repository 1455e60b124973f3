import Petalflow.Runtime.EventLog

open petalflow.runtime List

namespace petalflow.bus

/-- A subscription with the events that wait in its channel. Without a run id it
is one to all runs. -/
structure MemSub where
  runID : Option String
  ch : List Emitted := []
  closed : Bool := false

namespace MemSub

def close (s : MemSub) : MemSub := { s with closed := true }

def send (bufSize : Nat) (e : Emitted) (s : MemSub) : MemSub :=
  if s.closed then s
  else if s.ch.length < bufSize then { s with ch := s.ch ++ [e] }
  else s

def matchesRun (s : MemSub) (e : Emitted) : Bool := s.runID.all (· == e.event.runID)

end MemSub

structure MemBus where
  subs : List MemSub
  bufSize : Nat
  closed : Bool

def newMemBus (subscriberBufferSize : Int) : MemBus :=
  { subs := [], bufSize := if subscriberBufferSize ≤ 0 then 256 else subscriberBufferSize.toNat, closed := false }

namespace MemBus

def publish (b : MemBus) (e : Emitted) : MemBus :=
  if b.closed then b
  else { b with subs := b.subs.map fun s => if s.matchesRun e then s.send b.bufSize e else s }

def subscribe (b : MemBus) (runID : String) : Nat × MemBus :=
  (b.subs.length, { b with subs := b.subs ++ [{ runID := some runID }] })

def subscribeAll (b : MemBus) : Nat × MemBus :=
  (b.subs.length, { b with subs := b.subs ++ [{ runID := none }] })

def receive (b : MemBus) (sub : Nat) : Option (Emitted × MemBus) :=
  match b.subs[sub]? with
  | none => none
  | some s =>
    match s.ch with
    | [] => none
    | e :: rest => some (e, { b with subs := b.subs.set sub { s with ch := rest } })

def closeSub (b : MemBus) (sub : Nat) : MemBus := { b with subs := b.subs.modify sub MemSub.close }

def close (b : MemBus) : MemBus := { b with closed := true, subs := b.subs.map MemSub.close }

structure Holds (b : MemBus) (sub : Nat) (runID : String) (ch : List Emitted) : Prop where
  isOpen : b.closed = false
  sub : b.subs[sub]? = some { runID := some runID, ch, closed := false }

variable {b b' : MemBus} {sub : Nat} {runID : String} {ch : List Emitted} {e : Emitted}

theorem publish_of_open (hopen : b.closed = false) :
    b.publish e = { b with subs := b.subs.map fun s => if s.matchesRun e then s.send b.bufSize e else s } := by
  rw [MemBus.publish, hopen]
  rfl

theorem Holds.publish (hb : b.Holds sub runID ch) (hrun : e.event.runID = runID) (hroom : ch.length < b.bufSize) :
    (b.publish e).Holds sub runID (ch ++ [e]) := by
  rw [publish_of_open hb.isOpen]
  refine ⟨hb.isOpen, ?_⟩
  rw [getElem?_map, hb.sub]
  simp [MemSub.matchesRun, MemSub.send, hrun, hroom]

theorem Holds.publish_other (hb : b.Holds sub runID ch) (hrun : e.event.runID ≠ runID) :
    (b.publish e).Holds sub runID ch := by
  rw [publish_of_open hb.isOpen]
  refine ⟨hb.isOpen, ?_⟩
  rw [getElem?_map, hb.sub]
  simp [MemSub.matchesRun, hrun.symm]

theorem holds_subscribe (hopen : b.closed = false) (runID : String) :
    (b.subscribe runID).2.Holds (b.subscribe runID).1 runID [] where
  isOpen := hopen
  sub := by simp [subscribe]

theorem Holds.receive (hb : b.Holds sub runID ch) (hreceive : b.receive sub = some (e, b')) :
    ∃ rest, ch = e :: rest ∧ b'.Holds sub runID rest := by
  simp only [MemBus.receive, hb.sub] at hreceive
  cases ch with
  | nil => cases hreceive
  | cons e' rest =>
    cases hreceive
    refine ⟨rest, rfl, hb.isOpen, ?_⟩
    obtain ⟨hlt, _⟩ := List.getElem?_eq_some_iff.mp hb.sub
    exact List.getElem?_set_self hlt

theorem Holds.receive_eq_none (hb : b.Holds sub runID ch) (hreceive : b.receive sub = none) : ch = [] := by
  simp only [MemBus.receive, hb.sub] at hreceive
  grind

@[simp] theorem publish_closed (b : MemBus) (e : Emitted) : (b.publish e).closed = b.closed := by
  unfold publish
  split <;> simp_all

end MemBus

structure EventStore where
  rows : List Emitted := []

namespace EventStore

/-- Inserts a row. A second one with the same run and sequence number is refused
by the table's constraint, and the caller only logs the error. -/
def append (s : EventStore) (e : Emitted) : EventStore :=
  if s.rows.any fun row => row.event.runID == e.event.runID && row.seq == e.seq then s
  else { rows := s.rows ++ [e] }

def ofRun (s : EventStore) (runID : String) : List Emitted := s.rows.filter (·.event.runID == runID)

/-- The events of a run after a sequence number, ordered by it; no limit is zero. -/
def list (s : EventStore) (runID : String) (afterSeq limit : Nat) : List Emitted :=
  let found := ((s.rows.filter fun row => row.event.runID == runID && decide (afterSeq < row.seq))).insertionSort
    fun row row' => row.seq ≤ row'.seq
  if limit > 0 then found.take limit else found

variable {s : EventStore} {runID : String} {e : Emitted}

theorem ofRun_append (hrun : e.event.runID = runID)
    (hnew : ∀ row ∈ s.ofRun runID, row.seq ≠ e.seq) : (s.append e).ofRun runID = s.ofRun runID ++ [e] := by
  have hfresh : (s.rows.any fun row => row.event.runID == e.event.runID && row.seq == e.seq) = false := by
    rw [any_eq_false]
    intro row hrow
    rw [Bool.and_eq_true, beq_iff_eq, beq_iff_eq]
    rintro ⟨hsame, hseq⟩
    refine hnew row ?_ hseq
    exact mem_filter.mpr ⟨hrow, by rw [hsame, hrun]; exact beq_self_eq_true _⟩
  rw [append, hfresh]
  simp [ofRun, filter_append, hrun]

theorem ofRun_append_other (hrun : e.event.runID ≠ runID) : (s.append e).ofRun runID = s.ofRun runID := by
  unfold append
  split
  · rfl
  · simp [ofRun, filter_append, hrun]

theorem list_eq_filter (afterSeq : Nat) (hsorted : (s.ofRun runID).Pairwise fun row row' => row.seq ≤ row'.seq) :
    s.list runID afterSeq 0 = (s.ofRun runID).filter fun row => decide (afterSeq < row.seq) := by
  have hsplit : (s.rows.filter fun row => row.event.runID == runID && decide (afterSeq < row.seq)) =
      (s.ofRun runID).filter fun row => decide (afterSeq < row.seq) := by
    rw [ofRun, filter_filter]
    congr 1
    funext row
    exact Bool.and_comm _ _
  simp only [list, hsplit]
  rw [if_neg (lt_irrefl 0)]
  exact (hsorted.filter _).insertionSort_eq

end EventStore

end petalflow.bus
