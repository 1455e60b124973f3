import Petalflow.Lib.Machine
import Petalflow.Nodes.Cache

open petalflow.core List machine

namespace petalflow.nodes

/-- A store with its concurrent calls. A `Get` between its two locked sections holds the
key and the entry that it has read. -/
structure SharedStore where
  store : MemoryCacheStore
  now : Int
  gets : List (String × CacheEntry)

/-- The locked sections, and time that passes. `Set` and `Prune` have read the clock before
they are admitted. -/
inductive StoreStep where
  | tick (elapsed : Nat)
  | get (key : String)
  | evict (i : Nat)
  | set (clock : Int) (key : String) (env : Option Envelope) (ttl : Int)
  | delete (key : String)
  | prune (clock : Int)
  | clear

/-- The steps that a caller takes to replace or remove an entry. -/
def StoreStep.Replaces (key : String) : StoreStep → Prop
  | .set _ k _ _ | .delete k => k = key
  | .clear => True
  | _ => False

abbrev CacheEntry.Expired (entry : CacheEntry) (now : Int) : Prop := ∃ t ∈ entry.expiresAt, t < now

namespace SharedStore

/-- A `Get` looks at the clock before its second section. An entry that has expired then has
expired when it removes the key. -/
def step : StoreStep → SharedStore → Option SharedStore
  | .tick elapsed, s => some { s with now := s.now + elapsed }
  | .get key, s => some { s with gets := s.gets ++ (s.store key).toList.map (key, ·) }
  | .evict i, s =>
    s.gets[i]?.map fun read =>
      { s with
        gets := s.gets.eraseIdx i
        store := if read.2.Expired s.now then Function.update s.store read.1 none else s.store }
  | .set clock key env ttl, s => if clock ≤ s.now then some { s with store := s.store.set clock key env ttl } else none
  | .delete key, s => some { s with store := Function.update s.store key none }
  | .prune clock, s =>
    if clock ≤ s.now then some { s with store := fun key => (s.store key).filter (¬ ·.Expired clock) } else none
  | .clear, s => some { s with store := fun _ => none }

def machine : Machine SharedStore StoreStep where
  init := ⟨fun _ => none, 0, []⟩
  step := step

/-- The entry is stored, and no call in progress has read another one for its key. -/
structure Holds (key : String) (entry : CacheEntry) (s : SharedStore) : Prop where
  stored : s.store key = some entry
  gets : ∀ read ∈ s.gets, read.1 = key → read.2 = entry

variable {key : String} {entry : CacheEntry} {s s' : SharedStore} {l : StoreStep}

theorem expired_of_step (hstep : step l s = some s') (hexpired : entry.Expired s.now) : entry.Expired s'.now := by
  have hnow : s.now ≤ s'.now := by
    unfold step at hstep
    grind
  obtain ⟨t, ht, hlt⟩ := hexpired
  exact ⟨t, ht, by omega⟩

theorem Holds.step (hs : Holds key entry s) (hfresh : ¬ entry.Expired s.now) (hstep : step l s = some s')
    (hl : ¬ l.Replaces key) : Holds key entry s' := by
  obtain ⟨hstored, hgets⟩ := hs
  have hother {k : String} (hk : k ≠ key) (e : Option CacheEntry) : Function.update s.store k e key = some entry :=
    (Function.update_of_ne hk.symm _ _).trans hstored
  cases l with
  | tick elapsed =>
    cases hstep
    exact ⟨hstored, hgets⟩
  | get k =>
    cases hstep
    refine ⟨hstored, fun read hread hkey => ?_⟩
    simp only [List.mem_append, List.mem_map, Option.mem_toList] at hread
    obtain hread | ⟨e, he, rfl⟩ := hread
    · exact hgets read hread hkey
    · grind
  | evict i =>
    obtain ⟨read, hread, rfl⟩ := Option.map_eq_some_iff.mp hstep
    refine ⟨?_, fun read' hread' => hgets read' (List.eraseIdx_subset hread')⟩
    dsimp only
    split
    · next hexpired => exact hother (fun hkey => hfresh (hgets read (List.mem_of_getElem? hread) hkey ▸ hexpired)) _
    · exact hstored
  | set clock k env ttl =>
    obtain ⟨_, rfl⟩ : _ ∧ _ = s' := by simpa [SharedStore.step] using hstep
    exact ⟨hother hl _, hgets⟩
  | delete k =>
    cases hstep
    exact ⟨hother hl _, hgets⟩
  | prune clock =>
    obtain ⟨hat, rfl⟩ : _ ∧ _ = s' := by simpa [SharedStore.step] using hstep
    refine ⟨?_, hgets⟩
    have hkept : ¬ entry.Expired clock := fun ⟨t, ht, hlt⟩ => hfresh ⟨t, ht, by omega⟩
    simp_all
  | clear => exact absurd trivial hl

/-- An entry stays until it is replaced or removed by a caller or has expired, if no `Get` in
progress has read an older one. -/
theorem fresh_entry_kept (key : String) (entry : CacheEntry) (s s' : SharedStore) (hs : Holds key entry s)
    (hreach : machine.ReachesUnder (fun _ l => ¬ l.Replaces key) s s') :
    s'.store key = some entry ∨ entry.Expired s'.now := by
  have hkeep := hreach.invariant (I := fun s => entry.Expired s.now ∨ Holds key entry s) (fun s l s' hs hl hstep => by
    by_cases hexpired : entry.Expired s.now
    · exact .inl (expired_of_step hstep hexpired)
    · exact .inr ((hs.resolve_left hexpired).step hexpired hstep hl)) (.inr hs)
  exact hkeep.symm.imp_left Holds.stored

theorem fresh_entry_kept_sample :
    let entry : CacheEntry := ⟨none, 0, some 1⟩
    let s : SharedStore := ⟨Function.update (fun _ => none) "k" (some entry), 0, []⟩
    ({ s with now := 1 } : SharedStore).store "k" = some entry ∨ entry.Expired 1 :=
  fresh_entry_kept "k" _ _ { now := 1, store := _, gets := _ } ⟨rfl, by simp⟩
    (.step (.refl _) (l := .tick 1) not_false rfl)

/-- A `Get` reads an expired entry. A fresh one is stored before it removes the key. -/
theorem fresh_entry_evicted :
    let labels : List StoreStep := [.set 0 "k" none 1, .tick 2, .get "k", .set 2 "k" none 10, .evict 0]
    ((machine.exec (labels.take 4) machine.init).map fun s => (s.store "k").map (·.expiresAt)) = some (some (some 12)) ∧
    ((machine.exec labels machine.init).map fun s => (s.now, (s.store "k").isSome)) = some (2, false) := by
  decide

end SharedStore

end petalflow.nodes
