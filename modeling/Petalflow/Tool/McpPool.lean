import Mathlib.Data.List.Perm.Subperm
import Petalflow.Lib.Channel
import Petalflow.Tool.Validate

open List Option Function
open channel (Chan)
open machine (Machine)
open text

namespace petalflow.tool

/-- A call of `CallTool`: before it has a client, with one, and after it has returned. -/
inductive PooledCall where
  | waiting
  | holding (client : Nat)
  | returned

/-- The clients that are not in use, in a channel with room for all of them, and the calls. -/
structure McpClientPool (size : Nat) where
  available : Chan size Nat
  calls : Nat → PooledCall

/-- A call takes a client, is cancelled while it waits for one, or gives its client back. -/
inductive PoolLabel where
  | take (call : Nat)
  | cancel (call : Nat)
  | giveBack (call : Nat)

namespace McpClientPool

variable {size : Nat} {s s' : McpClientPool size}

def step : PoolLabel → McpClientPool size → Option (McpClientPool size)
  | .take call, s =>
    match s.calls call with
    | .waiting => s.available.receive.map fun taken =>
      { available := taken.2, calls := Function.update s.calls call (.holding taken.1) }
    | _ => none
  | .cancel call, s =>
    match s.calls call with
    | .waiting => some { s with calls := Function.update s.calls call .returned }
    | _ => none
  | .giveBack call, s =>
    match s.calls call with
    | .holding client => (s.available.send client).map fun available =>
      { available, calls := Function.update s.calls call .returned }
    | _ => none

structure Conserved (s : McpClientPool size) : Prop where
  nodup : s.available.buffer.Nodup
  exclusive : ∀ {i j client}, s.calls i = .holding client → s.calls j = .holding client → i = j
  apart : ∀ {i client}, s.calls i = .holding client → client ∉ s.available.buffer
  exact : ∀ client, client < size ↔ client ∈ s.available.buffer ∨ ∃ i, s.calls i = .holding client

theorem exists_update_holding (calls : Nat → PooledCall) (call client : Nat) (phase : PooledCall) :
    (∃ i, Function.update calls call phase i = .holding client) ↔
      phase = .holding client ∨ ∃ i ≠ call, calls i = .holding client :=
  exists_update_iff calls fun _ phase => phase = .holding client

theorem Conserved.step {l : PoolLabel} (hs : s.Conserved) (hstep : step l s = some s') : s'.Conserved := by
  have ⟨hnodup, hexclusive, hapart, hexact⟩ := hs
  cases l with
  | take call =>
    simp only [McpClientPool.step] at hstep
    split at hstep
    · next hcall =>
      obtain ⟨⟨client, available⟩, htaken, rfl⟩ := map_eq_some_iff.mp hstep
      rw [Chan.receive_buffer htaken] at hnodup hapart hexact
      refine ⟨(nodup_cons.mp hnodup).2, by grind [update_apply], by grind [update_apply], fun other => ?_⟩
      rw [exists_update_holding, hexact]
      grind
    · cases hstep
  | cancel call =>
    simp only [McpClientPool.step] at hstep
    split at hstep
    · cases hstep
      refine ⟨hnodup, by grind [update_apply], by grind [update_apply], fun other => ?_⟩
      rw [exists_update_holding, hexact]
      grind
    · cases hstep
  | giveBack call =>
    simp only [McpClientPool.step] at hstep
    split at hstep
    · next client hcall =>
      obtain ⟨available, hsent, rfl⟩ := map_eq_some_iff.mp hstep
      rw [← nodup_cons (a := client) |>.trans (and_iff_right (hapart hcall))] at hnodup
      refine ⟨?_, by grind [update_apply], ?_, ?_⟩
      · rw [Chan.send_buffer hsent]
        exact nodup_append_comm.mp hnodup
      · grind [update_apply, Chan.send_buffer hsent]
      · intro other
        rw [exists_update_holding, hexact, Chan.send_buffer hsent]
        grind
    · cases hstep

end McpClientPool

/-- `newMCPClientPool` and the calls on it. -/
def pooling (size : Nat) : Machine (McpClientPool size) PoolLabel where
  init := { available := { buffer := List.range size, bounded := by simp }, calls := fun _ => .waiting }
  step := McpClientPool.step

/-- In every run on a pool each client is in the channel or held by one call, so that a
call can always give its client back. -/
theorem pooled_clients_conserved (size : Nat) (s : McpClientPool size) (hreach : (pooling size).Reachable s) :
    s.Conserved ∧ ∀ call client, s.calls call = .holding client → (McpClientPool.step (.giveBack call) s).isSome := by
  have hs : s.Conserved := by
    refine hreach.invariant (I := McpClientPool.Conserved) (fun s l s' hs hstep => hs.step hstep) ?_
    exact ⟨nodup_range, nofun, nofun, by simp [pooling]⟩
  refine ⟨hs, fun call client hcall => ?_⟩
  have hsub : client :: s.available.buffer ⊆ range size := by
    intro other hmem
    rw [mem_range, hs.exact]
    grind
  have hnodup : (client :: s.available.buffer).Nodup := nodup_cons.mpr ⟨hs.apart hcall, hs.nodup⟩
  have hroom := (hnodup.subperm hsub).length_le
  rw [length_cons, length_range] at hroom
  obtain ⟨available, hsend, -⟩ := Chan.send_of_lt (a := client) hroom
  simp [McpClientPool.step, hcall, hsend]

/-- Two calls hold the clients of a pool of two while a third one is cancelled. -/
theorem pooled_clients_conserved_busy :
    ∃ s : McpClientPool 2, (pooling 2).Reachable s ∧ s.calls 1 = .holding 1 ∧
      (McpClientPool.step (.giveBack 1) s).isSome := by
  have hexec : ∃ s : McpClientPool 2, (pooling 2).Reachable s ∧ (s.calls 1 matches .holding 1) = true :=
    machine.Machine.exists_reachable_of_exec [.take 0, .take 1, .cancel 2, .giveBack 0] _ (by decide +kernel)
  obtain ⟨s, hreach, htest⟩ := hexec
  split at htest
  · next hcall => exact ⟨s, hreach, hcall, (pooled_clients_conserved 2 s hreach).2 1 1 hcall⟩
  · cases htest

/-- A call of `getOrCreate`: before the lookup, before and after it has built a pool, and
with the pool that it returns, if there is no error. -/
inductive PoolCall where
  | idle
  | building (key : String)
  | built (key : String)
  | returned (key : String) (pool : Option Nat)
deriving DecidableEq

/-- The pools by their keys, the pools that are built and those that are closed, and the
calls. A call builds one pool at most, which goes by the number of the call. -/
structure McpClientPoolManager where
  pools : String → Option Nat
  made : Nat → Bool
  closed : Nat → Bool
  calls : Nat → PoolCall

inductive ManagerLabel where
  | lookup (call : Nat) (key : String)
  | build (call : Nat) (ok : Bool)
  | install (call : Nat)

namespace McpClientPoolManager

variable {s s' : McpClientPoolManager}

def setCall (s : McpClientPoolManager) (call : Nat) (phase : PoolCall) : McpClientPoolManager :=
  { s with calls := Function.update s.calls call phase }

def step : ManagerLabel → McpClientPoolManager → Option McpClientPoolManager
  | .lookup call key, s =>
    match s.calls call with
    | .idle =>
      if trimSpace key = "" then some (s.setCall call (.returned key none))
      else
        match s.pools key with
        | some existing => some (s.setCall call (.returned key (some existing)))
        | none => some (s.setCall call (.building key))
    | _ => none
  | .build call ok, s =>
    match s.calls call with
    | .building key =>
      if ok then some { s.setCall call (.built key) with made := Function.update s.made call true }
      else some (s.setCall call (.returned key none))
    | _ => none
  | .install call, s =>
    match s.calls call with
    | .built key =>
      match s.pools key with
      | some current =>
        some { s.setCall call (.returned key (some current)) with closed := Function.update s.closed call true }
      | none =>
        some { s.setCall call (.returned key (some call)) with pools := Function.update s.pools key (some call) }
    | _ => none

/-- What is installed is open, a pool that is built is installed or closed next, and what
a call has built is what it returns, or is closed. -/
structure OnePerKey (s : McpClientPoolManager) : Prop where
  current : ∀ {key pool}, s.pools key = some pool → s.made pool = true ∧ s.closed pool = false
  fresh : ∀ {call}, s.made call = true → s.calls call ≠ .idle ∧ ∀ key, s.calls call ≠ .building key
  shut : ∀ {call}, s.closed call = true → s.made call = true
  built : ∀ {call key}, s.calls call = .built key → s.made call = true ∧ s.closed call = false ∧
    ∀ key', s.pools key' ≠ some call
  returned : ∀ {call key pool}, s.calls call = .returned key (some pool) → s.pools key = some pool
  settled : ∀ {call key result}, s.made call = true → s.calls call = .returned key result →
    result = some call ∨ s.closed call = true

theorem OnePerKey.step {l : ManagerLabel} (hs : s.OnePerKey) (hstep : step l s = some s') : s'.OnePerKey := by
  have ⟨hcurrent, hfresh, hshut, hbuilt, hreturned, hsettled⟩ := hs
  cases l with
  | lookup call key | build call ok | install call =>
    simp only [McpClientPoolManager.step, setCall] at hstep
    repeat' split at hstep
    all_goals cases hstep
    all_goals constructor <;> grind [update_apply]

end McpClientPoolManager

def sharedPools : Machine McpClientPoolManager ManagerLabel where
  init := { pools := fun _ => none, made := fun _ => false, closed := fun _ => false, calls := fun _ => .idle }
  step := McpClientPoolManager.step

/-- Whatever the order of the steps, calls with the same key that succeed return the same
pool, which is open, and a call that has returned another pool than its own has closed its own. -/
theorem one_pool_per_key (s : McpClientPoolManager) (hreach : sharedPools.Reachable s) :
    (∀ i j key pool pool', s.calls i = .returned key (some pool) → s.calls j = .returned key (some pool') →
      pool = pool' ∧ s.closed pool = false) ∧
    ∀ call key result, s.made call = true → s.calls call = .returned key result →
      s.pools key = some call ∧ result = some call ∨ s.closed call = true := by
  have hs : s.OnePerKey := by
    refine hreach.invariant (I := McpClientPoolManager.OnePerKey) (fun s l s' hs hstep => hs.step hstep) ?_
    exact ⟨nofun, nofun, nofun, nofun, nofun, nofun⟩
  constructor
  · intro i j key pool pool' hi hj
    have hsame := (hs.returned hi).symm.trans (hs.returned hj)
    exact ⟨some.inj hsame, (hs.current (hs.returned hi)).2⟩
  · intro call key result hmade hcall
    obtain rfl | hclosed := hs.settled hmade hcall
    · exact .inl ⟨hs.returned hcall, rfl⟩
    · exact .inr hclosed

/-- Two calls build a pool for the same key, and the second one to install it closes its own. -/
theorem one_pool_per_key_race :
    ∃ s, sharedPools.Reachable s ∧ s.calls 0 = .returned "k" (some 1) ∧ s.made 0 = true ∧ s.closed 0 = true := by
  have hexec : ∃ s, sharedPools.Reachable s ∧
      decide (s.calls 0 = .returned "k" (some 1) ∧ s.made 0 = true ∧ s.pools "k" = some 1) = true :=
    machine.Machine.exists_reachable_of_exec [.lookup 0 "k", .lookup 1 "k", .build 0 true, .build 1 true, .install 1,
      .install 0] _ (by decide +kernel)
  obtain ⟨s, hreach, htest⟩ := hexec
  obtain ⟨hcall, hmade, hpool⟩ := of_decide_eq_true htest
  refine ⟨s, hreach, hcall, hmade, ?_⟩
  obtain ⟨hown, -⟩ | hclosed := (one_pool_per_key s hreach).2 0 "k" _ hmade hcall
  · cases hpool.symm.trans hown
  · exact hclosed

end petalflow.tool
