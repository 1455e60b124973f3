import Mathlib.Algebra.Order.BigOperators.Group.Finset
import Petalflow.Lib.Channel

open Function Multiset Finset Relation
open channel (Chan)

namespace pool

/-- A worker waits for a job, holds one it has taken, runs it, holds the answer
it has still to send, or has returned. -/
inductive Worker (J A : Type) where
  | idle
  | received (job : J)
  | running (job : J)
  | sending (job : J) (answer : A)
  | exited

/-- What a worker can do next. A `finish` carries the occasion on which the job
is run, on which its answer may depend. -/
inductive Act where
  | take
  | start
  | finish (t : Nat)
  | deliver
  | exit
deriving DecidableEq

/-- A pool of `n` workers between a job channel and an answer channel. An answer
travels together with the job it answers. -/
structure Pool (J A : Type) (n cap : Nat) where
  jobs : Chan cap J
  workers : Fin n → Worker J A
  answers : Chan cap (J × A)
  done : Bool
  closed : Bool

namespace Worker

variable {J A : Type}

def waiting : Worker J A → Multiset J
  | received job => {job}
  | _ => 0

def active : Worker J A → Multiset J
  | running job => {job}
  | _ => 0

def answered : Worker J A → Multiset (J × A)
  | sending job answer => {(job, answer)}
  | _ => 0

def busy : Worker J A → Nat
  | idle | exited => 0
  | _ => 1

@[simp] theorem busy_eq (w : Worker J A) :
    w.waiting.card + w.active.card + w.answered.card = w.busy := by
  cases w <;> rfl

def isExited : Worker J A → Bool
  | exited => true
  | _ => false

theorem isExited_iff {w : Worker J A} : w.isExited = true ↔ w = exited := by
  cases w <;> simp [isExited]

theorem exists_sending_of_answered {w : Worker J A} (hw : w.answered.card = 1) :
    ∃ job answer, w = sending job answer := by
  cases w with
  | sending job answer => exact ⟨job, answer, rfl⟩
  | _ => simp [answered] at hw

theorem busy_le_one (w : Worker J A) : w.busy ≤ 1 := by
  cases w <;> simp [busy]

end Worker

theorem sum_update {ι W M : Type} [Fintype ι] [DecidableEq ι] [AddCommMonoid M]
    (f : W → M) (ws : ι → W) (i : ι) (w : W) : f (ws i) + ∑ j, f (update ws i w j) = f w + ∑ j, f (ws j) := by
  have hrest : ∑ j ∈ univ.erase i, f (update ws i w j) = ∑ j ∈ univ.erase i, f (ws j) := by
    apply sum_congr rfl
    intro j hj
    rw [update_of_ne (ne_of_mem_erase hj)]
  grind [add_sum_erase]

namespace Pool

variable {J A : Type} {n cap : Nat}

def fresh : Pool J A n cap :=
  { jobs := Chan.empty, workers := fun _ => .idle, answers := Chan.empty, done := false, closed := false }

/-- The step of one worker. An idle worker selects between its stop signal and
its job channel, and a closed job channel still yields the jobs it holds. -/
def act (f : J → Nat → A) (w : Fin n) (a : Act) (p : Pool J A n cap) : Option (Pool J A n cap) :=
  match a, p.workers w with
  | .take, .idle =>
    match p.jobs.receive with
    | some (job, rest) => some { p with jobs := rest, workers := update p.workers w (.received job) }
    | none => none
  | .start, .received job => some { p with workers := update p.workers w (.running job) }
  | .finish t, .running job =>
    some { p with workers := update p.workers w (.sending job (f job t)) }
  | .deliver, .sending job answer =>
    match p.answers.send (job, answer) with
    | some answers => some { p with answers, workers := update p.workers w .idle }
    | none => none
  | .exit, .idle =>
    if p.done || (p.closed && p.jobs.buffer.isEmpty) then
      some { p with workers := update p.workers w .exited }
    else none
  | _, _ => none

def submit (p : Pool J A n cap) (job : J) : Option (Pool J A n cap) :=
  (p.jobs.send job).map fun jobs => { p with jobs }

def collect (p : Pool J A n cap) : Option ((J × A) × Pool J A n cap) :=
  p.answers.receive.map fun r => (r.1, { p with answers := r.2 })

def shutDown (p : Pool J A n cap) : Pool J A n cap := { p with done := true, closed := true }

inductive Moves (f : J → Nat → A) (p : Pool J A n cap) (w : Fin n) : Act → Pool J A n cap → Prop where
  | take {job : J} {rest : Chan cap J} (hw : p.workers w = .idle)
      (hjobs : p.jobs.buffer = job :: rest.buffer) :
      Moves f p w .take { p with jobs := rest, workers := update p.workers w (.received job) }
  | start {job : J} (hw : p.workers w = .received job) :
      Moves f p w .start { p with workers := update p.workers w (.running job) }
  | finish {job : J} (t : Nat) (hw : p.workers w = .running job) :
      Moves f p w (.finish t) { p with workers := update p.workers w (.sending job (f job t)) }
  | deliver {job : J} {answer : A} {answers : Chan cap (J × A)}
      (hw : p.workers w = .sending job answer) (hroom : p.answers.buffer.length < cap)
      (hanswers : answers.buffer = p.answers.buffer ++ [(job, answer)]) :
      Moves f p w .deliver { p with answers, workers := update p.workers w .idle }
  | exit (hw : p.workers w = .idle)
      (hstop : p.done = true ∨ (p.closed = true ∧ p.jobs.buffer = [])) :
      Moves f p w .exit { p with workers := update p.workers w .exited }

variable {p p' p : Pool J A n cap} {f : J → Nat → A} {w : Fin n}

theorem act_eq_some_iff {a : Act} : p.act f w a = some p' ↔ Moves f p w a p' := by
  constructor
  · intro hact
    unfold act at hact
    split at hact
    · next hw =>
      split at hact
      · next job rest hrecv =>
        cases hact
        exact .take hw (Chan.receive_eq_some_iff.mp hrecv)
      · cases hact
    · next hw => cases hact; exact .start hw
    · next hw => cases hact; exact .finish _ hw
    · next hw =>
      split at hact
      · next answers hsend =>
        cases hact
        obtain ⟨hroom, hitems⟩ := Chan.send_eq_some_iff.mp hsend
        exact .deliver hw hroom hitems
      · cases hact
    · next hw =>
      split at hact
      · next hstop =>
        cases hact
        exact .exit hw (by simpa using hstop)
      · cases hact
    · cases hact
  · intro hmoves
    cases hmoves with
    | take hw hjobs => simp [act, hw, Chan.receive_eq_some_iff.mpr hjobs]
    | start hw | finish t hw => simp [act, hw]
    | deliver hw hroom hanswers => simp [act, hw, Chan.send_eq_some_iff.mpr ⟨hroom, hanswers⟩]
    | exit hw hstop =>
      simp only [act, hw]
      rw [if_pos (by simpa using hstop)]

variable {r : J × A} {job : J}

theorem submit_eq_some_iff : p.submit job = some p' ↔
      ∃ jobs, p.jobs.send job = some jobs ∧ p' = { p with jobs } := by
  simp [submit, eq_comm]

theorem exists_submit_iff : (∃ p', p.submit job = some p') ↔ p.jobs.buffer.length < cap := by
  rw [← Chan.exists_send_iff (a := job)]
  simp [submit]

theorem collect_eq_some_iff : p.collect = some (r, p') ↔
      ∃ answers, p.answers.receive = some (r, answers) ∧ p' = { p with answers } := by
  unfold collect
  constructor
  · simp_all
  grind

theorem exists_collect_iff : (∃ r, p.collect = some r) ↔ p.answers.buffer ≠ [] := by
  rw [← Chan.exists_receive_iff]
  simp [collect]

/-! The jobs of a pool by stage. -/

def waiting (p : Pool J A n cap) : Multiset J := p.jobs.buffer + ∑ w, (p.workers w).waiting

def active (p : Pool J A n cap) : Multiset J := ∑ w, (p.workers w).active

def answered (p : Pool J A n cap) : Multiset (J × A) := p.answers.buffer + ∑ w, (p.workers w).answered

@[simp] theorem fresh_waiting : (fresh : Pool J A n cap).waiting = 0 := by
  simp [waiting, fresh, Chan.empty, Worker.waiting]

@[simp] theorem fresh_active : (fresh : Pool J A n cap).active = 0 := by
  simp [active, fresh, Worker.active]

@[simp] theorem fresh_answered : (fresh : Pool J A n cap).answered = 0 := by
  simp [answered, fresh, Chan.empty, Worker.answered]

def inFlight (p : Pool J A n cap) : Multiset J := p.waiting + p.active + p.answered.map Prod.fst

def busy (p : Pool J A n cap) : Nat := ∑ w, (p.workers w).busy

theorem card_inFlight (p : Pool J A n cap) :
    p.inFlight.card = p.jobs.buffer.length + p.busy + p.answers.buffer.length := by
  have hbusy : p.busy = ∑ w, (p.workers w).waiting.card + ∑ w, (p.workers w).active.card +
      ∑ w, (p.workers w).answered.card := by
    simp only [busy, ← Worker.busy_eq, sum_add_distrib]
  simp only [inFlight, waiting, active, answered, card_add, Multiset.card_map, coe_card, card_sum, hbusy]
  omega

theorem busy_pos (hw : (p.workers w).busy = 1) : 0 < p.busy := by
  have hle := Finset.single_le_sum (f := fun w => (p.workers w).busy) (fun _ _ => Nat.zero_le _)
    (mem_univ w)
  simp only [hw] at hle
  exact hle

theorem exists_busy_of_pos (hbusy : 0 < p.busy) : ∃ w, (p.workers w).busy = 1 := by
  grind [Finset.sum_eq_zero, Worker.busy_le_one, busy]

theorem busy_eq_of_all (hall : ∀ w, (p.workers w).busy = 1) : p.busy = n := by
  simp [busy, hall]

variable {a : Act}

theorem stages_update {ws : Fin n → Worker J A} {before : Worker J A} (hw : ws w = before) (after : Worker J A) :
    before.waiting + ∑ i, (update ws w after i).waiting = after.waiting + ∑ i, (ws i).waiting ∧
    before.active + ∑ i, (update ws w after i).active = after.active + ∑ i, (ws i).active ∧
    before.answered + ∑ i, (update ws w after i).answered = after.answered + ∑ i, (ws i).answered := by
  subst hw
  simp [sum_update]

theorem Moves.stages (hmoves : Moves f p w a p') :
    (p'.waiting = p.waiting ∧ p'.active = p.active ∧ p'.answered = p.answered ∧ a ≠ .start ∧ ∀ t, a ≠ .finish t) ∨
    (∃ job, a = .start ∧ p.workers w = .received job ∧ p.waiting = job ::ₘ p'.waiting ∧
      p'.active = job ::ₘ p.active ∧ p'.answered = p.answered) ∨
    ∃ job t, a = .finish t ∧ p.workers w = .running job ∧ p'.waiting = p.waiting ∧
      p.active = job ::ₘ p'.active ∧ p'.answered = (job, f job t) ::ₘ p.answered := by
  cases hmoves with
  | @take job rest hw hjobs =>
    obtain ⟨hwait, hact, hans⟩ := stages_update hw (.received job)
    replace hwait : (0 : Multiset J) + _ = {job} + _ := hwait
    replace hact : (0 : Multiset J) + _ = 0 + _ := hact
    replace hans : (0 : Multiset (J × A)) + _ = 0 + _ := hans
    rw [zero_add] at hwait
    refine .inl ⟨?_, add_left_cancel hact, ?_, by simp, by simp⟩
    · simp [waiting, hwait, hjobs, ← cons_coe]
    · simp only [answered, add_left_cancel hans]
  | @start job hw =>
    obtain ⟨hwait, hact, hans⟩ := stages_update hw (.running job)
    grind [Multiset.singleton_add, Worker.active, answered, Worker.waiting, active, Worker.answered, waiting]
  | @finish job t hw =>
    obtain ⟨hwait, hact, hans⟩ := stages_update hw (.sending job (f job t))
    grind [Multiset.singleton_add, Worker.active, answered, Worker.waiting, active, Worker.answered, waiting]
  | @deliver job answer answers hw hroom hanswers =>
    obtain ⟨hwait, hact, hans⟩ := stages_update hw .idle
    grind [Multiset.coe_add, Multiset.coe_singleton, Worker.active, answered, Worker.waiting, active,
      Worker.answered, waiting]
  | exit hw hstop => grind [Worker.active, answered, Worker.waiting, active, Worker.answered, waiting]

theorem Moves.inFlight (hmoves : Moves f p w a p') : p'.inFlight = p.inFlight := by
  obtain ⟨hwait, hact, hans, _⟩ | ⟨job, _, _, hwait, hact, hans⟩ | ⟨job, t, _, _, hwait, hact, hans⟩ :=
    hmoves.stages
  · simp only [Pool.inFlight, hwait, hact, hans]
  · simp_all [Pool.inFlight]
  simp_all [Pool.inFlight]

theorem not_moves_of_exited (hexited : ∀ w, p.workers w = .exited) : ¬ Moves f p w a p' := by
  intro hmoves
  cases hmoves with
  | take hw | start hw | finish t hw | deliver hw | exit hw => simp [hexited] at hw

theorem Moves.jobs_length_le (hmoves : Moves f p w a p') : p'.jobs.buffer.length ≤ p.jobs.buffer.length := by
  cases hmoves with
  | take hw hjobs => simp [hjobs]
  | _ => exact le_rfl

theorem Moves.flags (hmoves : Moves f p w a p') : p'.done = p.done ∧ p'.closed = p.closed := by
  cases hmoves <;> exact ⟨rfl, rfl⟩

theorem submit_stages (hsubmit : p.submit job = some p') :
    p'.waiting = job ::ₘ p.waiting ∧ p'.active = p.active ∧ p'.answered = p.answered := by
  obtain ⟨jobs, hsend, rfl⟩ := submit_eq_some_iff.mp hsubmit
  obtain ⟨_, hitems⟩ := Chan.send_eq_some_iff.mp hsend
  refine ⟨?_, rfl, rfl⟩
  grind [waiting, Multiset.coe_add, Multiset.coe_singleton, Multiset.singleton_add]

theorem collect_stages (hcollect : p.collect = some (r, p')) :
    p'.waiting = p.waiting ∧ p'.active = p.active ∧ p.answered = r ::ₘ p'.answered := by
  obtain ⟨answers, hrecv, rfl⟩ := collect_eq_some_iff.mp hcollect
  have hitems := Chan.receive_eq_some_iff.mp hrecv
  refine ⟨rfl, rfl, ?_⟩
  simp [answered, hitems, ← cons_coe]

def Step (f : J → Nat → A) (p p' : Pool J A n cap) : Prop := ∃ w a, p.act f w a = some p'

theorem blocked_worker (hblocked : ∀ a, p.act f w a = none) :
    (p.workers w = .idle ∧ p.jobs.buffer = [] ∧ p.done = false) ∨
    (∃ job answer, p.workers w = .sending job answer ∧ p.answers.buffer.length = cap) ∨ p.workers w = .exited := by
  cases hw : p.workers w with
  | idle =>
    left
    refine ⟨rfl, ?_, ?_⟩
    · by_contra hjobs
      obtain ⟨⟨job, rest⟩, hrecv⟩ := Chan.exists_receive_iff.mpr hjobs
      have htake := act_eq_some_iff.mpr (Moves.take (f := f) hw (Chan.receive_eq_some_iff.mp hrecv))
      rw [hblocked] at htake
      cases htake
    · by_contra hdone
      have hexit := act_eq_some_iff.mpr
        (Moves.exit (f := f) hw (.inl (Bool.eq_true_of_not_eq_false hdone)))
      rw [hblocked] at hexit
      cases hexit
  | received job =>
    have hstart := act_eq_some_iff.mpr (Moves.start (f := f) hw)
    rw [hblocked] at hstart
    cases hstart
  | running job =>
    have hfinish := act_eq_some_iff.mpr (Moves.finish (f := f) 0 hw)
    simp_all
  | sending job answer =>
    right; left
    refine ⟨job, answer, rfl, ?_⟩
    by_contra hfull
    have hroom : p.answers.buffer.length < cap := lt_of_le_of_ne p.answers.bounded hfull
    obtain ⟨answers, hsend⟩ := Chan.exists_send_iff (a := (job, answer)) |>.mpr hroom
    have hdeliver := act_eq_some_iff.mpr
      (Moves.deliver (f := f) hw hroom (Chan.send_eq_some_iff.mp hsend).2)
    simp_all
  | exited => exact .inr (.inr rfl)

theorem exists_act_of_card_lt (halive : ∀ w, p.workers w ≠ .exited) (hjobs : p.jobs.buffer ≠ [])
    (hcard : p.inFlight.card < p.jobs.buffer.length + n + cap) (hn : 0 < n) : ∃ w a, (p.act f w a).isSome := by
  by_contra hnone
  push Not at hnone
  have hblocked : ∀ w a, p.act f w a = none := by
    intro w a
    simpa using hnone w a
  have hsending : ∀ w, (p.workers w).busy = 1 ∧ p.answers.buffer.length = cap := by
    intro w
    obtain ⟨_, hempty, _⟩ | ⟨job, answer, hw, hfull⟩ | hexited := blocked_worker (hblocked w)
    · exact absurd hempty hjobs
    · exact ⟨by simp [hw, Worker.busy], hfull⟩
    · exact absurd hexited (halive w)
  have hbusy := busy_eq_of_all fun w => (hsending w).1
  have hfull := (hsending ⟨0, hn⟩).2
  rw [card_inFlight] at hcard
  omega

theorem exists_act_of_stopped (hdone : p.done = true) (hcard : p.inFlight.card ≤ cap) (hw : p.workers w ≠ .exited) :
    ∃ a, (p.act f w a).isSome := by
  by_contra hnone
  push Not at hnone
  have hblocked : ∀ a, p.act f w a = none := fun a => by simpa using hnone a
  obtain ⟨_, _, hlive⟩ | ⟨job, answer, hsending, hfull⟩ | hexited := blocked_worker hblocked
  · rw [hdone] at hlive
    cases hlive
  · grind [busy_pos, Worker.busy, card_inFlight]
  · exact hw hexited

theorem exists_act_or_answer (halive : ∀ w, p.workers w ≠ .exited) (hcap : 0 < cap) (hn : 0 < n)
    (hflight : p.inFlight ≠ 0) : (∃ w a, (p.act f w a).isSome) ∨ p.answers.buffer ≠ [] := by
  by_contra hnone
  push Not at hnone
  obtain ⟨hacts, hanswers⟩ := hnone
  have hblocked : ∀ w a, p.act f w a = none := by
    intro w a
    simpa using hacts w a
  have hidle : ∀ w, (p.workers w).busy = 0 ∧ p.jobs.buffer = [] := by
    intro w
    obtain ⟨hw, hempty, _⟩ | ⟨job, answer, hw, hfull⟩ | hexited := blocked_worker (hblocked w)
    · exact ⟨by simp [hw, Worker.busy], hempty⟩
    · simp_all
    · exact absurd hexited (halive w)
  apply hflight
  rw [← Multiset.card_eq_zero, card_inFlight]
  simp [busy, hidle, (hidle ⟨0, hn⟩).2, hanswers]

end Pool

def Worker.weight {J A : Type} : Worker J A → Nat
  | received _ => 4
  | running _ => 3
  | sending _ _ => 2
  | idle => 1
  | exited => 0

namespace Pool

variable {J A : Type} {n cap : Nat}

def fuel (p : Pool J A n cap) : Nat := 5 * p.jobs.buffer.length + ∑ w, (p.workers w).weight

variable {p p' : Pool J A n cap} {f : J → Nat → A} {w : Fin n} {p'' : Pool J A n cap} {a : Act}

theorem Moves.fuel_lt (hmoves : Moves f p w a p') : p'.fuel < p.fuel := by
  cases hmoves with
  | @take job rest hw hjobs =>
    have hsum := sum_update Worker.weight p.workers w (.received job)
    grind [Worker.weight, fuel]
  | @start job hw =>
    have hsum := sum_update Worker.weight p.workers w (.running job)
    rw [hw] at hsum
    replace hsum : 4 + _ = 3 + _ := hsum
    simp only [fuel]
    omega
  | @finish job t hw =>
    have hsum := sum_update Worker.weight p.workers w (.sending job (f job t))
    rw [hw] at hsum
    replace hsum : 3 + _ = 2 + _ := hsum
    simp only [fuel]
    omega
  | deliver hw =>
    have hsum := sum_update Worker.weight p.workers w .idle
    rw [hw] at hsum
    replace hsum : 2 + _ = 1 + _ := hsum
    simp only [fuel]
    omega
  | exit hw =>
    have hsum := sum_update Worker.weight p.workers w .exited
    rw [hw] at hsum
    replace hsum : 1 + _ = 0 + _ := hsum
    simp only [fuel]
    omega

theorem Step.fuel_lt (hstep : Step f p p') : p'.fuel < p.fuel := by
  obtain ⟨w, a, hact⟩ := hstep
  exact (act_eq_some_iff.mp hact).fuel_lt

theorem Step.inFlight (hstep : Step f p p') : p'.inFlight = p.inFlight := by
  obtain ⟨w, a, hact⟩ := hstep
  exact (act_eq_some_iff.mp hact).inFlight

theorem Step.done (hstep : Step f p p') : p'.done = p.done := by
  obtain ⟨w, a, hact⟩ := hstep
  exact (act_eq_some_iff.mp hact).flags.1

def Reaches (f : J → Nat → A) : Pool J A n cap → Pool J A n cap → Prop := Relation.ReflTransGen (Step f)

theorem Reaches.refl (p : Pool J A n cap) : Reaches f p p := ReflTransGen.refl

theorem Reaches.tail (hreach : Reaches f p p') (hstep : Step f p' p'') : Reaches f p p'' :=
  ReflTransGen.tail hreach hstep

theorem Reaches.step (hmoves : Moves f p w a p') (hrest : Reaches f p' p'') : Reaches f p p'' :=
  ReflTransGen.head ⟨w, a, act_eq_some_iff.mpr hmoves⟩ hrest

theorem Reaches.inFlight (hreach : Reaches f p p') : p'.inFlight = p.inFlight := by
  induction hreach with
  | refl => rfl
  | tail _ hstep ih => rw [hstep.inFlight, ih]

theorem Reaches.done (hreach : Reaches f p p') : p'.done = p.done := by
  induction hreach with
  | refl => rfl
  | tail _ hstep ih => rw [hstep.done, ih]

theorem drains (p : Pool J A n cap) (hdone : p.done = true)
    (hcard : p.inFlight.card ≤ cap) : ∃ p', Reaches f p p' ∧ ∀ w, p'.workers w = .exited := by
  by_cases hall : ∀ w, p.workers w = .exited
  · exact ⟨p, Reaches.refl p, hall⟩
  · push Not at hall
    obtain ⟨w, hw⟩ := hall
    obtain ⟨a, hsome⟩ := exists_act_of_stopped (f := f) hdone hcard hw
    obtain ⟨p', hact⟩ := Option.isSome_iff_exists.mp hsome
    have hstep : Step f p p' := ⟨w, a, hact⟩
    have hless := hstep.fuel_lt
    obtain ⟨p'', hreach, hexited⟩ := drains p' (hstep.done.trans hdone) (hstep.inFlight ▸ hcard)
    exact ⟨p'', ReflTransGen.head hstep hreach, hexited⟩
termination_by p.fuel

def Jammed (p : Pool J A n cap) : Prop :=
  p.answers.buffer.length = cap ∧ ∃ w job answer, p.workers w = .sending job answer

theorem Step.jammed (hstep : Step f p p') (hjam : p.Jammed) : p'.Jammed := by
  obtain ⟨w, a, hact⟩ := hstep
  obtain ⟨hfull, w', job', answer', hw'⟩ := hjam
  have hkeep : ∀ (after : Worker J A), p.workers w ≠ p.workers w' →
      update p.workers w after w' = .sending job' answer' := by
    intro after hne
    rw [update_of_ne (fun heq => hne (by rw [heq])), hw']
  cases act_eq_some_iff.mp hact with
  | take hw hjobs | start hw | finish t hw | exit hw hstop =>
    exact ⟨hfull, w', job', answer', hkeep _ (by simp [hw, hw'])⟩
  | deliver hw hroom hanswers => omega

theorem Reaches.jammed (hreach : Reaches f p p') (hjam : p.Jammed) : p'.Jammed := by
  induction hreach with
  | refl => exact hjam
  | tail _ hstep ih => exact hstep.jammed ih

theorem reaches_sending (f : J → Nat → A) (hbusy : (p.workers w).busy = 1) :
    ∃ job answer p', Reaches f p p' ∧ p'.workers w = .sending job answer ∧
      p'.answers = p.answers ∧ p'.fuel ≤ p.fuel := by
  cases hw : p.workers w with
  | idle | exited => simp [hw, Worker.busy] at hbusy
  | sending job answer => exact ⟨job, answer, p, Reaches.refl p, hw, rfl, le_rfl⟩
  | running job =>
    have hfinish := Moves.finish (f := f) 0 hw
    exact ⟨job, f job 0, _, Reaches.step hfinish (Reaches.refl _), by simp, rfl,
      hfinish.fuel_lt.le⟩
  | received job =>
    have hstart := Moves.start (f := f) hw
    have hfinish := Moves.finish (f := f)
      (p := { p with workers := update p.workers w (.running job) }) 0 (update_self w (Worker.running job) p.workers)
    exact ⟨job, f job 0, _, Reaches.step hstart (Reaches.step hfinish (Reaches.refl _)),
      by simp, rfl, hfinish.fuel_lt.le.trans hstart.fuel_lt.le⟩

theorem exists_jammed (p : Pool J A n cap) (hcard : cap < p.inFlight.card) {w : Fin n}
    (halive : p.workers w ≠ .exited) : ∃ p', Reaches f p p' ∧ p'.Jammed := by
  by_cases hbusy : 0 < p.busy
  · obtain ⟨v, hv⟩ := exists_busy_of_pos hbusy
    obtain ⟨job, answer, p', hreach, hsending, hanswers, hfuel⟩ := reaches_sending f hv
    by_cases hfull : p.answers.buffer.length = cap
    · exact ⟨p', hreach, by rw [hanswers]; exact hfull, v, job, answer, hsending⟩
    · have hroom : p'.answers.buffer.length < cap := by
        have hbound := p.answers.bounded
        rw [hanswers]
        omega
      obtain ⟨answers, hsend⟩ := Chan.exists_send_iff (a := (job, answer)) |>.mpr hroom
      have hdeliver := Moves.deliver (f := f) hsending hroom (Chan.send_eq_some_iff.mp hsend).2
      have hless := hdeliver.fuel_lt
      obtain ⟨p'', hrest, hjam⟩ := exists_jammed _
        (by rw [hdeliver.inFlight, hreach.inFlight]; exact hcard) (w := v) (by simp)
      exact ⟨p'', hreach.trans (Reaches.step hdeliver hrest), hjam⟩
  · have hidle : p.workers w = .idle := by
      cases hw : p.workers w with
      | idle => rfl
      | exited => exact absurd hw halive
      | received job | running job | sending job answer =>
        exact absurd (busy_pos (w := w) (by simp [hw, Worker.busy])) hbusy
    have hjobs : p.jobs.buffer ≠ [] := by
      intro hnil
      have hbound := p.answers.bounded
      rw [card_inFlight, hnil] at hcard
      simp only [List.length_nil] at hcard
      omega
    obtain ⟨⟨job, rest⟩, hrecv⟩ := Chan.exists_receive_iff.mpr hjobs
    have htake := Moves.take (f := f) hidle (Chan.receive_eq_some_iff.mp hrecv)
    have hless := htake.fuel_lt
    obtain ⟨p'', hrest, hjam⟩ := exists_jammed _ (by rw [htake.inFlight]; exact hcard) (w := w) (by simp)
    exact ⟨p'', Reaches.step htake hrest, hjam⟩
termination_by p.fuel

theorem can_always_exit_iff (hdone : p.done = true) :
    (∀ p', Reaches f p p' → ∃ p'', Reaches f p' p'' ∧ ∀ w, p''.workers w = .exited) ↔
      (∀ w, p.workers w = .exited) ∨ p.inFlight.card ≤ cap := by
  constructor
  · intro hexit
    by_contra hnot
    push Not at hnot
    obtain ⟨⟨w, halive⟩, hcard⟩ := hnot
    obtain ⟨p', hreach, hjam⟩ := exists_jammed (f := f) p hcard halive
    obtain ⟨p'', hrest, hexited⟩ := hexit p' hreach
    obtain ⟨_, v, job, answer, hsending⟩ := hrest.jammed hjam
    simp_all
  · rintro (hexited | hcard) p' hreach
    · have hstays : ∀ q, Reaches f p q → q = p := by
        intro q hq
        induction hq with
        | refl => rfl
        | tail _ hstep ih =>
          subst ih
          obtain ⟨w, a, hact⟩ := hstep
          exact absurd (act_eq_some_iff.mp hact) (not_moves_of_exited hexited)
      grind
    · exact drains p' (hreach.done.trans hdone) (by rw [hreach.inFlight]; exact hcard)

end Pool

end pool
