import Mathlib.Data.List.Nodup

namespace channel

/-- A channel that buffers up to `capacity` values, the oldest first. -/
@[ext]
structure Chan (capacity : Nat) (α : Type) where
  buffer : List α
  bounded : buffer.length ≤ capacity

namespace Chan

variable {capacity : Nat} {α : Type} {c c' : Chan capacity α} {a b : α}

def empty : Chan capacity α where
  buffer := []
  bounded := Nat.zero_le _

def send (c : Chan capacity α) (a : α) : Option (Chan capacity α) :=
  if hroom : c.buffer.length < capacity then
    some
      { buffer := c.buffer ++ [a]
        bounded := by
          rw [List.length_append, List.length_singleton]
          exact hroom }
  else none

def receive (c : Chan capacity α) : Option (α × Chan capacity α) :=
  match hbuffer : c.buffer with
  | [] => none
  | a :: rest =>
    some (a,
      { buffer := rest
        bounded := by
          have hbounded := c.bounded
          rw [hbuffer, List.length_cons] at hbounded
          omega })

theorem send_eq_some_iff : c.send a = some c' ↔ c.buffer.length < capacity ∧ c'.buffer = c.buffer ++ [a] := by
  simp [send, Chan.ext_iff, eq_comm]

theorem exists_send_iff : (∃ c', c.send a = some c') ↔ c.buffer.length < capacity := by
  unfold send
  simp_all

theorem send_buffer (hsend : c.send a = some c') : c'.buffer = c.buffer ++ [a] := (send_eq_some_iff.mp hsend).2

theorem send_of_lt (hroom : c.buffer.length < capacity) : ∃ c', c.send a = some c' ∧ c'.buffer = c.buffer ++ [a] :=
  (exists_send_iff.mpr hroom).imp fun _ hsend => ⟨hsend, send_buffer hsend⟩

theorem le_of_send_none (hsend : c.send a = none) : capacity ≤ c.buffer.length := by
  by_contra hroom
  obtain ⟨c', hc'⟩ := exists_send_iff.mpr (Nat.lt_of_not_le hroom)
  rw [hsend] at hc'
  cases hc'

theorem receive_eq_some_iff : c.receive = some (a, c') ↔ c.buffer = a :: c'.buffer := by
  unfold receive
  split
  · next h => simp [h]
  · next b rest h => simp [Chan.ext_iff, h]

theorem exists_receive_iff : (∃ r, c.receive = some r) ↔ c.buffer ≠ [] := by
  unfold receive
  split
  · next h => simp [h]
  · next h => simp [h]

theorem receive_buffer (hreceive : c.receive = some (a, c')) : c.buffer = a :: c'.buffer :=
  receive_eq_some_iff.mp hreceive

theorem buffer_of_receive_none (hreceive : c.receive = none) : c.buffer = [] := by
  by_contra hbuffer
  obtain ⟨r, hr⟩ := exists_receive_iff.mpr hbuffer
  rw [hreceive] at hr
  cases hr

theorem receive_of_cons {rest : List α} (hbuffer : c.buffer = a :: rest) :
    ∃ c', c.receive = some (a, c') ∧ c'.buffer = rest := by
  obtain ⟨⟨b, c'⟩, hreceive⟩ := exists_receive_iff.mpr (hbuffer ▸ List.cons_ne_nil a rest)
  have hcons := receive_buffer hreceive
  rw [hbuffer] at hcons
  cases hcons
  exact ⟨c', hreceive, rfl⟩

end Chan

end channel
