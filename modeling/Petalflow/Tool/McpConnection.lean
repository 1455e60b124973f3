import Mathlib.Logic.Function.Basic
import Petalflow.Lib.Machine

open Function
open machine (Machine)

namespace petalflow.mcp

/-- What the dialer and the transports do: whether a dial succeeds on an occasion, and whether
the transport that was dialled on one occasion sends or receives on another. -/
structure DialerEnv where
  dial : Nat → Bool
  works : Nat → Nat → Bool

inductive ReconnectError where
  | noActiveConnection
  | reconnectFailed (attempt : Nat)
  | attemptsExhausted
deriving DecidableEq

/-- A transport that is not closed. Its connection goes by the occasion on which it was
dialled, and `clock` is the next occasion. -/
structure ReconnectingTransport where
  current : Option Nat
  clock : Nat
deriving DecidableEq

namespace ReconnectingTransport

variable {env : DialerEnv} {t : ReconnectingTransport}

/-- `NewReconnectingTransport`, whose first dial has succeeded. -/
def initial : ReconnectingTransport := { current := some 0, clock := 1 }

def reconnect (env : DialerEnv) (attempt : Nat) (t : ReconnectingTransport) :
    Except ReconnectError Unit × ReconnectingTransport :=
  if env.dial t.clock then (.ok (), { current := some t.clock, clock := t.clock + 1 })
  else (.error (.reconnectFailed (attempt + 1)), { current := none, clock := t.clock + 1 })

/-- The loop of `Send` and of `Receive` with the attempts that are left. -/
def attempt (env : DialerEnv) : Nat → Nat → ReconnectingTransport → Except ReconnectError Unit × ReconnectingTransport
  | 0, _, t => (.error .attemptsExhausted, t)
  | left + 1, count, t =>
    match t.current with
    | none => (.error .noActiveConnection, t)
    | some connection =>
      let t := { t with clock := t.clock + 1 }
      if env.works connection (t.clock - 1) then (.ok (), t)
      else
        match reconnect env count t with
        | (.error err, t) => (.error err, t)
        | (.ok (), t) => attempt env left (count + 1) t

def maxAttempts (configured : Int) : Nat :=
  if configured ≤ 0 then 3 else configured.toNat

def send (env : DialerEnv) (configured : Int) :
    ReconnectingTransport → Except ReconnectError Unit × ReconnectingTransport :=
  attempt env (maxAttempts configured) 0

def after (env : DialerEnv) (configured : Int) : Nat → ReconnectingTransport
  | 0 => initial
  | calls + 1 => (send env configured (after env configured calls)).2

theorem clock_le_attempt (left count : Nat) : t.clock ≤ (attempt env left count t).2.clock := by
  induction left generalizing count t with
  | zero => exact Nat.le_refl _
  | succ left ih =>
    unfold attempt
    grind [reconnect]

theorem attempt_connected {left count : Nat} (hcurrent : t.current ≠ none)
    (hdial : ∀ k < (attempt env left count t).2.clock, env.dial k = true) :
    (attempt env left count t).2.current ≠ none := by
  induction left generalizing count t with
  | zero => exact hcurrent
  | succ left ih =>
    unfold attempt at hdial ⊢
    grind [reconnect]

theorem after_connected {configured : Int} {calls : Nat}
    (hdial : ∀ k < (after env configured calls).clock, env.dial k = true) :
    (after env configured calls).current ≠ none := by
  induction calls with
  | zero => exact Option.some_ne_none 0
  | succ calls ih =>
    refine attempt_connected (ih fun k hk => hdial k ?_) hdial
    exact Nat.lt_of_lt_of_le hk (clock_le_attempt _ _)

end ReconnectingTransport

open ReconnectingTransport

/-- If no dial has failed so far and `Send` tries twice at least, a call succeeds as soon
as the dials and what is dialled do. -/
theorem reconnecting_transport_usable (env : DialerEnv) (configured : Int) (calls : Nat)
    (hattempts : 2 ≤ maxAttempts configured) (hdials : ∀ k < (after env configured calls).clock, env.dial k = true)
    (hlater : ∀ k, (after env configured calls).clock ≤ k → env.dial k = true ∧ ∀ j, env.works k j = true) :
    (send env configured (after env configured calls)).1 = .ok () := by
  obtain ⟨left, hleft⟩ := Nat.exists_eq_add_of_le' hattempts
  obtain ⟨connection, hcurrent⟩ := Option.ne_none_iff_exists'.mp (after_connected hdials)
  -- the connection at hand may be broken, but not the next one
  rw [send, hleft, attempt]
  grind [reconnect, attempt]

theorem reconnecting_transport_usable_once :
    (send { dial := fun _ => true, works := fun connection _ => connection ≠ 0 } 0 initial).1 = .ok () :=
  reconnecting_transport_usable _ 0 0 (by decide) (by simp) fun k hk =>
    ⟨rfl, fun _ => decide_eq_true (Nat.ne_of_gt hk)⟩

/-- After a dial that has failed there is no connection, and nothing dials a new one. -/
theorem reconnecting_transport_broken :
    ∃ env : DialerEnv, (∀ k, (after env 0 1).clock ≤ k → env.dial k = true ∧ ∀ j, env.works k j = true) ∧
      ∀ calls, 1 ≤ calls → (send env 0 (after env 0 calls)).1 = .error .noActiveConnection := by
  refine ⟨{ dial := fun k => k ≠ 2, works := fun connection _ => 3 ≤ connection }, ?_, ?_⟩
  · intro k hk
    replace hk : 3 ≤ k := hk
    exact ⟨decide_eq_true (by omega), fun _ => decide_eq_true hk⟩
  · intro calls hcalls
    obtain ⟨calls, rfl⟩ := Nat.exists_eq_add_of_le' hcalls
    have hafter : after { dial := fun k => k ≠ 2, works := fun connection _ => 3 ≤ connection } 0 (calls + 1) =
        { current := none, clock := 3 } := by
      induction calls with
      | zero => rfl
      | succ calls ih =>
        rw [after, ih (Nat.le_add_left _ _)]
        rfl
    rw [hafter]
    rfl

/-- Where a call of `Send`, `Receive` or `Close` is: before it asks for the connection, while
it uses it, in `reconnect` before the first lock, with the connection to be closed, before
the dial and with the new connection, and with a connection that it closes before it returns. -/
inductive TransportCall where
  | idle
  | asking (attempt : Nat)
  | using (attempt : Nat)
  | dropping (attempt : Nat)
  | closing (attempt : Nat) (old : Option Nat)
  | dialing (attempt : Nat)
  | installing (attempt : Nat) (new : Nat)
  | leaving (last : Option Nat)
  | returned
deriving DecidableEq

namespace TransportCall

def held : TransportCall → Option Nat
  | .closing _ old => old
  | .installing _ new => some new
  | .leaving last => last
  | _ => none

/-- Whether a call is between the two locked sections of `reconnect`. -/
def reconnecting : TransportCall → Bool
  | .closing _ _ | .dialing _ | .installing _ _ => true
  | _ => false

end TransportCall

/-- A transport that `n` calls share. The connections that were dialled are numbered. -/
structure SharedTransport (n : Nat) where
  current : Option Nat
  closed : Bool
  dialled : Nat
  shut : Nat → Bool
  calls : Fin n → TransportCall

/-- What a call does next: `use` and `dial` succeed or fail. -/
inductive TransportLabel (n : Nat) where
  | start (call : Fin n)
  | close (call : Fin n)
  | ask (call : Fin n)
  | use (call : Fin n) (ok : Bool)
  | drop (call : Fin n)
  | shutOld (call : Fin n)
  | dial (call : Fin n) (ok : Bool)
  | install (call : Fin n)
  | leave (call : Fin n)

namespace SharedTransport

variable {n : Nat} {s s' : SharedTransport n}

def goto (s : SharedTransport n) (call : Fin n) (phase : TransportCall) : SharedTransport n :=
  { s with calls := Function.update s.calls call phase }

def shutting (s : SharedTransport n) (connection : Option Nat) : SharedTransport n :=
  { s with shut := fun k => s.shut k || decide (connection = some k) }

def step (maxAttempts : Nat) : TransportLabel n → SharedTransport n → Option (SharedTransport n)
  | .start call, s => match s.calls call with
    | .idle => some (s.goto call (.asking 0))
    | _ => none
  | .close call, s => match s.calls call with
    | .idle =>
      if s.closed then some (s.goto call .returned)
      else some ({ s with closed := true, current := none }.goto call (.leaving s.current))
    | _ => none
  | .ask call, s => match s.calls call with
    | .asking attempt =>
      if maxAttempts ≤ attempt ∨ s.closed ∨ s.current = none then some (s.goto call .returned)
      else some (s.goto call (.using attempt))
    | _ => none
  | .use call ok, s => match s.calls call with
    | .using attempt => some (s.goto call (if ok then .returned else .dropping attempt))
    | _ => none
  | .drop call, s => match s.calls call with
    | .dropping attempt =>
      if s.closed then some (s.goto call .returned)
      else some ({ s with current := none }.goto call (.closing attempt s.current))
    | _ => none
  | .shutOld call, s => match s.calls call with
    | .closing attempt old => some ((s.shutting old).goto call (.dialing attempt))
    | _ => none
  | .dial call ok, s => match s.calls call with
    | .dialing attempt =>
      if ok then some ({ s with dialled := s.dialled + 1 }.goto call (.installing attempt s.dialled))
      else some (s.goto call .returned)
    | _ => none
  | .install call, s => match s.calls call with
    | .installing attempt new =>
      if s.closed then some (s.goto call (.leaving (some new)))
      else some ({ s with current := some new }.goto call (.asking (attempt + 1)))
    | _ => none
  | .leave call, s => match s.calls call with
    | .leaving last => some ((s.shutting last).goto call .returned)
    | _ => none

def alone (s : SharedTransport n) : TransportLabel n → Bool
  | .drop _ => decide (∀ other, (s.calls other).reconnecting = false)
  | _ => true

def Owned (s : SharedTransport n) : Prop :=
  ∀ k < s.dialled, s.current = some k ∨ (∃ call, (s.calls call).held = some k) ∨ s.shut k = true

structure Sole (s : SharedTransport n) : Prop where
  owned : s.Owned
  lone : ∀ {i j}, (s.calls i).reconnecting = true → (s.calls j).reconnecting = true → i = j
  dropped : ∀ {i}, (s.calls i).reconnecting = true → s.current = none
  closed : s.closed = true → s.current = none

theorem exists_held_update (calls : Fin n → TransportCall) (call : Fin n) (phase : TransportCall) (k : Nat) :
    (∃ i, (Function.update calls call phase i).held = some k) ↔
      phase.held = some k ∨ ∃ i ≠ call, (calls i).held = some k :=
  exists_update_iff calls fun _ phase => phase.held = some k

variable {maxAttempts : Nat} {l : TransportLabel n}

theorem Sole.owned_step (hs : s.Sole) (hstep : step maxAttempts l s = some s') : s'.Owned := by
  have ⟨howned, hlone, hdropped, hclosed⟩ := hs
  unfold Owned at howned
  simp only [SharedTransport.step.eq_def, goto, shutting] at hstep
  repeat' split at hstep
  all_goals cases hstep
  all_goals intro k hk
  all_goals simp only [exists_held_update]
  all_goals grind [TransportCall.held, TransportCall.reconnecting]

/-- A call that reconnects alone installs its connection where there is none. -/
theorem Sole.step (hs : s.Sole) (halone : s.alone l = true) (hstep : step maxAttempts l s = some s') : s'.Sole := by
  have howned := hs.owned_step hstep
  have ⟨_, hlone, hdropped, hclosed⟩ := hs
  simp only [SharedTransport.step.eq_def, goto, shutting] at hstep
  repeat' split at hstep
  all_goals cases hstep
  all_goals refine ⟨howned, ?_, ?_, ?_⟩
  all_goals clear howned
  all_goals grind [TransportCall.reconnecting, update_apply, alone]

end SharedTransport

open SharedTransport (alone Owned Sole)

/-- `n` calls on a transport with its first connection. -/
def sharedTransport (n maxAttempts : Nat) : Machine (SharedTransport n) (TransportLabel n) where
  init := { current := some 0, closed := false, dialled := 1, shut := fun _ => false, calls := fun _ => .idle }
  step := SharedTransport.step maxAttempts

/-- As long as no two calls reconnect at the same time no connection is lost, and after
`Close` and all other calls every one is closed. -/
theorem reconnection_leaks_nothing (n maxAttempts : Nat) (s : SharedTransport n)
    (hreach : (sharedTransport n maxAttempts).ReachesUnder (fun s l => s.alone l = true)
      (sharedTransport n maxAttempts).init s) :
    s.Owned ∧ (s.closed = true → (∀ call, s.calls call = .idle ∨ s.calls call = .returned) →
      ∀ k < s.dialled, s.shut k = true) := by
  have hsole : s.Sole := by
    refine hreach.invariant (I := Sole) (fun _ _ _ hs halone hstep => hs.step halone hstep) ⟨?_, ?_, ?_, ?_⟩
    all_goals simp [sharedTransport, Owned, TransportCall.reconnecting]
  refine ⟨hsole.owned, fun hclosed hreturned k hk => ?_⟩
  have hnone := hsole.closed hclosed
  grind [hsole.owned k hk, TransportCall.held]

/-- `Close` while a call has dialled and not installed. -/
theorem reconnection_leaks_nothing_late : ∃ s : SharedTransport 2, s.dialled = 2 ∧ ∀ k < 2, s.shut k = true := by
  obtain ⟨s, hreach, htest⟩ := machine.Machine.exists_reachesUnder_of_exec (m := sharedTransport 2 3) (P := alone)
    [.start 0, .ask 0, .use 0 false, .drop 0, .shutOld 0, .dial 0 true, .close 1, .install 0, .leave 0, .leave 1]
    (fun s => decide (s.closed = true ∧ s.dialled = 2 ∧ ∀ call, s.calls call = .returned)) (by decide +kernel)
  obtain ⟨hclosed, hdialled, hreturned⟩ := of_decide_eq_true htest
  have hshut := (reconnection_leaks_nothing 2 3 s hreach).2 hclosed fun call => .inr (hreturned call)
  exact ⟨s, hdialled, by rwa [hdialled] at hshut⟩

/-- Two calls that reconnect at the same time both install, and the connection of the first is lost. -/
theorem reconnection_leaks_connection :
    ∃ s, (sharedTransport 3 3).Reachable s ∧ s.closed = true ∧ (∀ call, s.calls call = .returned) ∧
      1 < s.dialled ∧ s.shut 1 = false := by
  obtain ⟨s, hreach, htest⟩ := machine.Machine.exists_reachable_of_exec (m := sharedTransport 3 3)
    [.start 0, .ask 0, .start 1, .ask 1, .use 0 false, .use 1 false, .drop 0, .drop 1, .shutOld 0, .shutOld 1,
      .dial 0 true, .dial 1 true, .install 0, .install 1, .ask 0, .ask 1, .use 0 true, .use 1 true, .close 2, .leave 2]
    (fun s => decide (s.closed = true ∧ (∀ call, s.calls call = .returned) ∧ 1 < s.dialled ∧ s.shut 1 = false))
    (by decide +kernel)
  exact ⟨s, hreach, of_decide_eq_true htest⟩

/-- A call of `Client.call`: before it has an id, before it has sent its request, while it
waits for its response, and with the result that it returns. -/
inductive ClientCall (α : Type) where
  | idle
  | sending (id : Nat)
  | waiting (id : Nat)
  | returned (id : Nat) (result : α)
deriving DecidableEq

namespace ClientCall

variable {α : Type}

def id? : ClientCall α → Option Nat
  | .idle => none
  | .sending id | .waiting id | .returned id _ => some id

def inProgress : ClientCall α → Option Nat
  | .sending id | .waiting id => some id
  | _ => none

end ClientCall

/-- A client that `n` calls share. `requests` are on their way to the server or not answered
yet, and `responses` on their way back; all answers of the server stand in `answered`.
Responses that another call has skipped while their own was in progress are `lost`. -/
structure Client (n : Nat) (α : Type) where
  nextID : Nat
  calls : Fin n → ClientCall α
  requests : List Nat
  responses : List (Nat × α)
  answered : List (Nat × α)
  lost : List Nat

inductive ClientLabel (n : Nat) (α : Type) where
  | nextRequestID (call : Fin n)
  | send (call : Fin n)
  | answer (k : Nat) (result : α)
  | receive (call : Fin n)

namespace Client

variable {n : Nat} {α : Type} {s s' : Client n α} {l : ClientLabel n α}

def step : ClientLabel n α → Client n α → Option (Client n α)
  | .nextRequestID call, s => match s.calls call with
    | .idle => some { s with nextID := s.nextID + 1, calls := Function.update s.calls call (.sending s.nextID) }
    | _ => none
  | .send call, s => match s.calls call with
    | .sending id =>
      some { s with requests := s.requests ++ [id], calls := Function.update s.calls call (.waiting id) }
    | _ => none
  | .answer k result, s => match s.requests[k]? with
    | some id =>
      some { s with
        requests := s.requests.eraseIdx k
        responses := s.responses ++ [(id, result)]
        answered := s.answered ++ [(id, result)] }
    | none => none
  | .receive call, s => match s.calls call, s.responses with
    | .waiting id, (got, result) :: rest =>
      if got = id then
        some { s with responses := rest, calls := Function.update s.calls call (.returned id result) }
      else
        some { s with
          responses := rest
          lost := if ∃ other, (s.calls other).inProgress = some got then s.lost ++ [got] else s.lost }
    | _, _ => none

def oneByOne (s : Client n α) : ClientLabel n α → Bool
  | .nextRequestID _ => decide (∀ other, (s.calls other).inProgress = none)
  | _ => true

structure Apart (s : Client n α) : Prop where
  fresh : ∀ {call id}, (s.calls call).id? = some id → id < s.nextID
  distinct : ∀ {call other id}, (s.calls call).id? = some id → (s.calls other).id? = some id → call = other
  own : ∀ {call id result}, s.calls call = .returned id result → (id, result) ∈ s.answered
  answered : ∀ response ∈ s.responses, response ∈ s.answered

theorem Apart.step (hs : s.Apart) (hstep : step l s = some s') : s'.Apart := by
  have ⟨hfresh, hdistinct, hown, hanswered⟩ := hs
  simp only [Client.step.eq_def] at hstep
  repeat' split at hstep
  all_goals cases hstep
  all_goals constructor <;> grind [update_apply, ClientCall.id?]

structure Undisturbed (s : Client n α) : Prop where
  single : ∀ {call other id id'}, (s.calls call).inProgress = some id →
    (s.calls other).inProgress = some id' → call = other
  kept : s.lost = []

theorem Undisturbed.step (hs : s.Undisturbed) (hone : s.oneByOne l = true) (hstep : step l s = some s') :
    s'.Undisturbed := by
  have ⟨hsingle, hkept⟩ := hs
  simp only [Client.step.eq_def] at hstep
  repeat' split at hstep
  all_goals cases hstep
  all_goals constructor <;> grind [update_apply, ClientCall.inProgress, oneByOne]

end Client

open Client (Apart Undisturbed oneByOne)

def sharedClient (n : Nat) (α : Type) : Machine (Client n α) (ClientLabel n α) where
  init := { nextID := 1, calls := fun _ => .idle, requests := [], responses := [], answered := [], lost := [] }
  step := Client.step

/-- Ids are never used twice and every call returns what the server has answered to its id.
If the calls are made one by one, no response is lost. -/
theorem client_keeps_calls_apart (n : Nat) (α : Type) (s : Client n α) :
    ((sharedClient n α).Reachable s →
      (∀ call other id, (s.calls call).id? = some id → (s.calls other).id? = some id → call = other) ∧
      ∀ call id result, s.calls call = .returned id result → (id, result) ∈ s.answered) ∧
    ((sharedClient n α).ReachesUnder (fun s l => s.oneByOne l = true) (sharedClient n α).init s → s.lost = []) := by
  constructor
  · intro hreach
    have hapart : s.Apart := by
      refine hreach.invariant (I := Apart) (fun _ _ _ hs hstep => hs.step hstep) ?_
      constructor <;> simp [sharedClient, ClientCall.id?]
    exact ⟨fun _ _ _ => hapart.distinct, fun _ _ _ => hapart.own⟩
  · intro hreach
    have hquiet : s.Undisturbed := by
      refine hreach.invariant (I := Undisturbed) (fun _ _ _ hs hone hstep => hs.step hone hstep) ?_
      constructor <;> simp [sharedClient, ClientCall.inProgress]
    exact hquiet.kept

theorem client_keeps_calls_apart_twice :
    ∃ s : Client 2 Nat, s.calls 1 = .returned 2 8 ∧ s.lost = [] ∧ (2, 8) ∈ s.answered := by
  obtain ⟨s, hreach, htest⟩ := machine.Machine.exists_reachesUnder_of_exec (m := sharedClient 2 Nat) (P := oneByOne)
    [.nextRequestID 0, .send 0, .answer 0 7, .receive 0, .nextRequestID 1, .send 1, .answer 0 8, .receive 1]
    (fun s => decide (s.calls 1 = .returned 2 8)) (by decide +kernel)
  have hcall := of_decide_eq_true htest
  have happly := client_keeps_calls_apart 2 Nat s
  exact ⟨s, hcall, happly.2 hreach, (happly.1 hreach.reaches).2 1 2 8 hcall⟩

/-- The second call takes the response of the first one and skips it. The first call then
waits for a response that is not there any more. -/
theorem client_loses_response :
    ∃ s, (sharedClient 2 Nat).Reachable s ∧ s.lost = [1] ∧ s.calls 0 = .waiting 1 ∧
      s.requests = [] ∧ s.responses = [] := by
  obtain ⟨s, hreach, htest⟩ := machine.Machine.exists_reachable_of_exec (m := sharedClient 2 Nat)
    [.nextRequestID 0, .send 0, .nextRequestID 1, .send 1, .answer 0 7, .answer 0 8, .receive 1, .receive 1]
    (fun s => decide (s.lost = [1] ∧ s.calls 0 = .waiting 1 ∧ s.requests = [] ∧ s.responses = [])) (by decide +kernel)
  exact ⟨s, hreach, of_decide_eq_true htest⟩

end petalflow.mcp
