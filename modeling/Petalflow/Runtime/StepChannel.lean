import Petalflow.Lib.Channel
import Petalflow.Lib.Machine
import Petalflow.Runtime.Successors

open List Option Function Multiset Finset Relation
open channel (Chan)
open machine (Machine)

namespace petalflow.runtime

/-- A response with the request that it answers. Its address is the call of `Respond`
that sends it. -/
structure Reply where
  call : Nat
  requestID : String
  response : StepResponse

/-- A call of `Step`: before its request is sent, in its loop, with the reply of another
request in hand, with its own reply or the error of its context before it has left the
pending requests, and after that. -/
inductive StepCall where
  | requesting (id : String)
  | waiting (id : String)
  | holding (id : String) (reply : Reply)
  | answered (id : String) (reply : Reply)
  | cancelled (id : String)
  | returned (id : String) (reply : Option Reply)

/-- A call of `Respond`, which is refused if no such request is pending. -/
inductive RespondCall where
  | idle
  | sending (reply : Reply)
  | returned (reply : Reply) (accepted : Bool)

/-- A controller with the calls on it. The replies that were accepted, and were neither
taken by the call they are for nor dropped, are outstanding. -/
structure ChannelStepController (bufferSize : Nat) where
  requests : Chan bufferSize String
  responses : Chan bufferSize Reply
  pending : List String
  runToBreakpoint : Bool
  steps : List StepCall
  responds : Nat → RespondCall
  outstanding : Finset Nat

/-- What happens next: a call of `Step` begins, sends its request to the channel or to
the client, is cancelled, takes a reply from the channel, and puts the reply of another
request back into the channel or to a call that waits for one; a call of `Respond` begins,
and sends its reply to the channel or to a call that waits for one. -/
inductive StepLabel where
  | step (id : String)
  | request (call : Nat) (direct : Bool)
  | take
  | cancel (call : Nat)
  | forget (call : Nat)
  | receive (call : Nat)
  | finish (call : Nat)
  | putBack (call : Nat)
  | handBack (call other : Nat)
  | respond (call : Nat) (requestID : String) (response : StepResponse)
  | send (call : Nat)
  | handOver (call other : Nat)

namespace ChannelStepController

variable {bufferSize : Nat} (s : ChannelStepController bufferSize) (call : Nat)

def setStep (phase : StepCall) : ChannelStepController bufferSize :=
  { s with steps := s.steps.set call phase }

def setRespond (phase : RespondCall) : ChannelStepController bufferSize :=
  { s with responds := Function.update s.responds call phase }

def settle (reply : Reply) : ChannelStepController bufferSize :=
  { s with outstanding := s.outstanding.erase reply.call }

def forgetRequest (id : String) : ChannelStepController bufferSize :=
  { s with pending := s.pending.filter (· ≠ id) }

/-- A waiting call gets a reply: its own, or the one of another request. -/
def deliver (id : String) (reply : Reply) : ChannelStepController bufferSize :=
  if reply.requestID = id then (s.settle reply).setStep call (.answered id reply)
  else s.setStep call (.holding id reply)

def request (direct : Bool) : Option (ChannelStepController bufferSize) :=
  match s.steps[call]? with
  | some (.requesting id) =>
    if direct then if s.requests.buffer.isEmpty then some (s.setStep call (.waiting id)) else none
    else (s.requests.send id).map fun requests => { s with requests }.setStep call (.waiting id)
  | _ => none

def cancel : Option (ChannelStepController bufferSize) :=
  match s.steps[call]? with
  | some (.requesting id) => some (s.setStep call (.cancelled id))
  | some (.waiting id) => some (s.setStep call (.cancelled id))
  | _ => none

def forget : Option (ChannelStepController bufferSize) :=
  match s.steps[call]? with
  | some (.cancelled id) => some ((s.forgetRequest id).setStep call (.returned id none))
  | _ => none

def receive : Option (ChannelStepController bufferSize) :=
  match s.steps[call]? with
  | some (.waiting id) => s.responses.receive.map fun taken => { s with responses := taken.2 }.deliver call id taken.1
  | _ => none

def finish : Option (ChannelStepController bufferSize) :=
  match s.steps[call]? with
  | some (.answered id reply) =>
    let runToBreakpoint := s.runToBreakpoint || decide (reply.response.action = StepAction.runToBreakpoint)
    some ({ s.forgetRequest id with runToBreakpoint }.setStep call (.returned id (some reply)))
  | _ => none

def putBack : Option (ChannelStepController bufferSize) :=
  match s.steps[call]? with
  | some (.holding id reply) =>
    match s.responses.send reply with
    | some responses => some { s.setStep call (.waiting id) with responses }
    | none => some ((s.settle reply).setStep call (.waiting id))
  | _ => none

def handBack (other : Nat) : Option (ChannelStepController bufferSize) :=
  match s.steps[call]?, s.steps[other]? with
  | some (.holding id reply), some (.waiting otherID) =>
    if s.responses.buffer.isEmpty then some ((s.setStep call (.waiting id)).deliver other otherID reply)
    else none
  | _, _ => none

def respond (requestID : String) (response : StepResponse) : Option (ChannelStepController bufferSize) :=
  match s.responds call with
  | .idle =>
    let reply : Reply := { call, requestID, response }
    if requestID ∈ s.pending then
      some { s.setRespond call (.sending reply) with outstanding := insert call s.outstanding }
    else some (s.setRespond call (.returned reply false))
  | _ => none

def send : Option (ChannelStepController bufferSize) :=
  match s.responds call with
  | .sending reply =>
    (s.responses.send reply).map fun responses => { s.setRespond call (.returned reply true) with responses }
  | _ => none

def handOver (other : Nat) : Option (ChannelStepController bufferSize) :=
  match s.responds call, s.steps[other]? with
  | .sending reply, some (.waiting id) =>
    if s.responses.buffer.isEmpty then some ((s.setRespond call (.returned reply true)).deliver other id reply)
    else none
  | _, _ => none

def step : StepLabel → ChannelStepController bufferSize → Option (ChannelStepController bufferSize)
  | .step id, s => some { s with pending := s.pending.insert id, steps := s.steps ++ [.requesting id] }
  | .request call direct, s => s.request call direct
  | .take, s => s.requests.receive.map fun taken => { s with requests := taken.2 }
  | .cancel call, s => s.cancel call
  | .forget call, s => s.forget call
  | .receive call, s => s.receive call
  | .finish call, s => s.finish call
  | .putBack call, s => s.putBack call
  | .handBack call other, s => s.handBack call other
  | .respond call requestID response, s => s.respond call requestID response
  | .send call, s => s.send call
  | .handOver call other, s => s.handOver call other

end ChannelStepController

/-- `NewChannelStepController` and the calls on it. -/
def stepping (bufferSize : Nat) : Machine (ChannelStepController bufferSize) StepLabel where
  init :=
    { requests := .empty, responses := .empty, pending := [], runToBreakpoint := false, steps := []
      responds := fun _ => .idle, outstanding := ∅ }
  step := ChannelStepController.step

namespace StepCall

def own : StepCall → Option (String × Reply)
  | .answered id reply => some (id, reply)
  | .returned id reply => reply.map (id, ·)
  | _ => none

def foreign : StepCall → Option Reply
  | .holding _ reply => some reply
  | _ => none

end StepCall

/-- Where the replies are: on their way, in the channel or in the hand of a call; or
taken by a call, whose request id stands with the reply. -/
@[ext]
structure StepLedger where
  carried : Multiset Reply
  taken : Multiset (String × Reply)
  responds : Nat → RespondCall
  outstanding : Finset Nat

/-- The moves of a reply. If there is `room`, a reply is accepted only while fewer than
`bufferSize` are outstanding; it is dropped only when more than `bufferSize` are on their way. -/
inductive LedgerStep (bufferSize : Nat) (room : Prop) (x : StepLedger) : StepLedger → Prop where
  | accept {call : Nat} {reply : Reply} (hidle : x.responds call = .idle) (hcall : reply.call = call)
      (hroom : room → x.outstanding.card < bufferSize) :
      LedgerStep bufferSize room x { x with
        responds := Function.update x.responds call (.sending reply), outstanding := insert call x.outstanding }
  | refuse {call : Nat} {reply : Reply} (hidle : x.responds call = .idle) :
      LedgerStep bufferSize room x { x with responds := Function.update x.responds call (.returned reply false) }
  | release {call : Nat} {reply : Reply} (hsending : x.responds call = .sending reply) :
      LedgerStep bufferSize room x { x with
        carried := reply ::ₘ x.carried, responds := Function.update x.responds call (.returned reply true) }
  | settle {reply : Reply} {carried : Multiset Reply} (hcarried : x.carried = reply ::ₘ carried) :
      LedgerStep bufferSize room x { x with
        carried, taken := (reply.requestID, reply) ::ₘ x.taken, outstanding := x.outstanding.erase reply.call }
  | drop {reply : Reply} {carried : Multiset Reply} (hcarried : x.carried = reply ::ₘ carried)
      (hfull : bufferSize < x.carried.card) :
      LedgerStep bufferSize room x { x with carried, outstanding := x.outstanding.erase reply.call }

namespace StepLedger

variable {bufferSize : Nat} {room : Prop} {x x' : StepLedger}

def Owned (x : StepLedger) : Prop := ∀ answer ∈ x.taken, answer.2.requestID = answer.1

structure Sound (bufferSize : Nat) (x : StepLedger) : Prop where
  distinct : (x.carried.map Reply.call).Nodup
  sending : ∀ call reply, x.responds call = .sending reply → reply.call = call ∧ call ∈ x.outstanding
  carried : ∀ reply ∈ x.carried, x.responds reply.call = .returned reply true ∧ reply.call ∈ x.outstanding
  kept : ∀ call reply, x.responds call = .returned reply true → reply ∈ x.carried ∨ (reply.requestID, reply) ∈ x.taken
  few : x.outstanding.card ≤ bufferSize

theorem Owned.step (howned : x.Owned) (hstep : LedgerStep bufferSize room x x') : x'.Owned := by
  cases hstep with
  | settle =>
    intro answer hmem
    rcases Multiset.mem_cons.mp hmem with rfl | hmem
    · rfl
    · exact howned answer hmem
  | _ => exact howned

theorem Sound.card_carried_le (hsound : x.Sound bufferSize) : x.carried.card ≤ bufferSize := by
  have hsubset : (x.carried.map Reply.call).toFinset ⊆ x.outstanding := by
    intro call hcall
    obtain ⟨reply, hmem, rfl⟩ := mem_map.mp (mem_toFinset.mp hcall)
    exact (hsound.carried reply hmem).2
  have hcard := Finset.card_le_card hsubset
  rw [Multiset.toFinset_card_of_nodup hsound.distinct, Multiset.card_map] at hcard
  exact hcard.trans hsound.few

theorem Sound.call_ne {call : Nat} {reply : Reply} (hsound : x.Sound bufferSize) (hmem : reply ∈ x.carried)
    (hcall : ∀ reply', x.responds call ≠ .returned reply' true) : reply.call ≠ call := by
  rintro rfl
  exact hcall reply (hsound.carried reply hmem).1

theorem Sound.step (hsound : x.Sound bufferSize) (hroom : room) (hstep : LedgerStep bufferSize room x x') :
    x'.Sound bufferSize := by
  have ⟨hdistinct, hsending, hcarried, hkept, hfew⟩ := hsound
  cases hstep with
  | @accept call reply hidle hcall hspare =>
    have hother : ∀ reply ∈ x.carried, reply.call ≠ call :=
      fun reply hmem => hsound.call_ne hmem (by simp [hidle])
    refine ⟨hdistinct, ?_, ?_, ?_, (Finset.card_insert_le _ _).trans (hspare hroom)⟩
    · grind [Function.update_apply]
    · grind [Function.update_apply]
    · grind [Function.update_apply]
  | @refuse call reply hidle =>
    have hother : ∀ reply ∈ x.carried, reply.call ≠ call :=
      fun reply hmem => hsound.call_ne hmem (by simp [hidle])
    refine ⟨hdistinct, ?_, ?_, ?_, hfew⟩
    · grind [Function.update_apply]
    · grind [Function.update_apply]
    · grind [Function.update_apply]
  | @release call reply hcall =>
    obtain ⟨rfl, hinside⟩ := hsending call reply hcall
    have hother : ∀ reply' ∈ x.carried, reply'.call ≠ reply.call :=
      fun reply hmem => hsound.call_ne hmem (by simp [hcall])
    refine ⟨?_, ?_, ?_, ?_, hfew⟩
    · simp_all
    · grind [Function.update_apply]
    · grind [Function.update_apply]
    · grind [Function.update_apply]
  | @settle reply carried hreply =>
    rw [hreply, Multiset.map_cons, Multiset.nodup_cons] at hdistinct
    have hother : ∀ reply' ∈ carried, reply'.call ≠ reply.call :=
      fun reply' hmem hsame => hdistinct.1 (hsame ▸ Multiset.mem_map_of_mem _ hmem)
    rw [hreply] at hcarried hkept
    refine ⟨hdistinct.2, ?_, ?_, ?_, Finset.card_erase_le.trans hfew⟩
    · grind
    · grind
    · grind
  | drop _ hfull => exact absurd hsound.card_carried_le (Nat.not_le.mpr hfull)

theorem keep {I : StepLedger → Prop} (hmoves : ReflTransGen (LedgerStep bufferSize room) x x')
    (hkeep : ∀ x x', I x → LedgerStep bufferSize room x x' → I x') (hx : I x) : I x' := by
  induction hmoves with
  | refl => exact hx
  | tail _ hmove ih => exact hkeep _ _ ih hmove

end StepLedger

namespace ChannelStepController

variable {bufferSize : Nat} {s s' : ChannelStepController bufferSize} {call other : Nat}
  {id : String} {reply : Reply}

def ledger (s : ChannelStepController bufferSize) : StepLedger where
  carried := ↑(s.responses.buffer ++ s.steps.filterMap StepCall.foreign)
  taken := ↑(s.steps.filterMap StepCall.own)
  responds := s.responds
  outstanding := s.outstanding

variable {before : StepCall} {steps : List StepCall}

theorem cons_set_perm (after : StepCall) (hcall : steps[call]? = some before) :
    (before :: steps.set call after).Perm (after :: steps) := by
  obtain ⟨hlt, rfl⟩ := List.getElem?_eq_some_iff.mp hcall
  calc _ :: steps.set call after
    _ |>.Perm (_ :: after :: steps.eraseIdx call) := .cons _ (List.set_perm_cons_eraseIdx hlt after)
    _ |>.Perm (after :: _ :: steps.eraseIdx call) := .swap _ _ _
    _ |>.Perm (after :: steps) := .cons _ (List.getElem_cons_eraseIdx_perm hlt)

theorem coe_filterMap_set {β : Type} (after : StepCall) (f : StepCall → Option β) (hcall : steps[call]? = some before) :
    (↑(f before).toList + ↑((steps.set call after).filterMap f) : Multiset β) =
      ↑(f after).toList + ↑(steps.filterMap f) := by
  have hperm := (cons_set_perm after hcall).filterMap f
  rw [List.filterMap_cons, List.filterMap_cons] at hperm
  rw [Multiset.coe_add, Multiset.coe_add, coe_eq_coe]
  grind

theorem ledger_setStep (after : StepCall) (hcall : s.steps[call]? = some before) :
    ↑before.own.toList + (s.setStep call after).ledger.taken = ↑after.own.toList + s.ledger.taken ∧
      ↑before.foreign.toList + (s.setStep call after).ledger.carried = ↑after.foreign.toList + s.ledger.carried := by
  refine ⟨coe_filterMap_set after StepCall.own hcall, ?_⟩
  simp only [ledger, setStep, ← Multiset.coe_add]
  rw [add_left_comm, coe_filterMap_set after StepCall.foreign hcall, add_left_comm]

theorem ledger_quiet {after : StepCall} (hcall : s.steps[call]? = some before) (hown : after.own = before.own)
    (hforeign : after.foreign = before.foreign) : (s.setStep call after).ledger = s.ledger := by
  obtain ⟨htaken, hcarried⟩ := ledger_setStep after hcall
  rw [hown, Multiset.add_right_inj] at htaken
  rw [hforeign, Multiset.add_right_inj] at hcarried
  exact StepLedger.ext hcarried htaken rfl rfl

theorem ledger_hold (hcall : s.steps[call]? = some (.waiting id)) :
    (s.setStep call (.holding id reply)).ledger = { s.ledger with carried := reply ::ₘ s.ledger.carried } := by
  obtain ⟨htaken, hcarried⟩ := ledger_setStep (.holding id reply) hcall
  exact StepLedger.ext (by simpa [StepCall.foreign] using hcarried) (by simpa [StepCall.own] using htaken) rfl rfl

theorem ledger_unhold (hcall : s.steps[call]? = some (.holding id reply)) :
    s.ledger = { (s.setStep call (.waiting id)).ledger with
      carried := reply ::ₘ (s.setStep call (.waiting id)).ledger.carried } := by
  obtain ⟨htaken, hcarried⟩ := ledger_setStep (.waiting id) hcall
  exact StepLedger.ext (by simpa [StepCall.foreign] using hcarried.symm) (by simpa [StepCall.own] using htaken.symm)
    rfl rfl

theorem ledger_answer (hcall : s.steps[call]? = some (.waiting id)) :
    ((s.settle reply).setStep call (.answered id reply)).ledger =
      { s.ledger with taken := (id, reply) ::ₘ s.ledger.taken, outstanding := s.outstanding.erase reply.call } := by
  obtain ⟨htaken, hcarried⟩ := ledger_setStep (s := s.settle reply) (.answered id reply) hcall
  change _ = _ + s.ledger.taken at htaken
  change _ = _ + s.ledger.carried at hcarried
  exact StepLedger.ext (by simpa [StepCall.foreign] using hcarried) (by simpa [StepCall.own] using htaken) rfl rfl

theorem ledger_deliver (room : Prop) (hcall : s.steps[call]? = some (.waiting id)) :
    ReflTransGen (LedgerStep bufferSize room) { s.ledger with carried := reply ::ₘ s.ledger.carried }
      (s.deliver call id reply).ledger := by
  unfold deliver
  split
  · next hid =>
    subst hid
    rw [ledger_answer hcall]
    exact .single (.settle rfl)
  · rw [ledger_hold hcall]

/-- `Respond` is called for a pending request only while fewer than `bufferSize` replies are outstanding. -/
def roomy (s : ChannelStepController bufferSize) : StepLabel → Bool
  | .respond _ requestID _ => decide (requestID ∈ s.pending → s.outstanding.card < bufferSize)
  | _ => true

variable {responses : Chan bufferSize Reply}

theorem ledger_receive (htaken : s.responses.receive = some (reply, responses)) :
    s.ledger = { { s with responses }.ledger with carried := reply ::ₘ { s with responses }.ledger.carried } := by
  simp [ledger, Chan.receive_buffer htaken]

theorem ledger_send (hsent : s.responses.send reply = some responses) :
    { s with responses }.ledger = { s.ledger with carried := reply ::ₘ s.ledger.carried } := by
  simp only [ledger, Chan.send_buffer hsent, append_assoc, ← Multiset.coe_add, Multiset.coe_singleton,
    Multiset.singleton_add, add_cons]

variable {l : StepLabel} {room : Prop}

theorem request_quiet {direct : Bool} (hstep : s.request call direct = some s') : s'.ledger = s.ledger := by
  unfold request at hstep
  split at hstep
  · next id hcall =>
    split at hstep
    · split at hstep
      · cases hstep
        exact ledger_quiet hcall rfl rfl
      · cases hstep
    · obtain ⟨requests, -, rfl⟩ := map_eq_some_iff.mp hstep
      exact ledger_quiet (s := { s with requests }) hcall rfl rfl
  · cases hstep

theorem cancel_quiet (hstep : s.cancel call = some s') : s'.ledger = s.ledger := by
  unfold cancel at hstep
  split at hstep
  · next id hcall =>
    cases hstep
    exact ledger_quiet hcall rfl rfl
  · next id hcall =>
    cases hstep
    exact ledger_quiet hcall rfl rfl
  · cases hstep

theorem forget_quiet (hstep : s.forget call = some s') : s'.ledger = s.ledger := by
  unfold forget at hstep
  split at hstep
  · next id hcall =>
    cases hstep
    exact ledger_quiet (s := s.forgetRequest id) hcall rfl rfl
  · cases hstep

theorem finish_quiet (hstep : s.finish call = some s') : s'.ledger = s.ledger := by
  unfold finish at hstep
  split at hstep
  · next id reply hcall =>
    cases hstep
    exact ledger_quiet (s := { s.forgetRequest id with runToBreakpoint := _ }) hcall rfl rfl
  · cases hstep

theorem receive_refines (hstep : s.receive call = some s') :
    ReflTransGen (LedgerStep bufferSize room) s.ledger s'.ledger := by
  unfold receive at hstep
  split at hstep
  · next id hcall =>
    obtain ⟨⟨reply, responses⟩, htaken, rfl⟩ := map_eq_some_iff.mp hstep
    rw [ledger_receive htaken]
    exact ledger_deliver (s := { s with responses }) _ hcall
  · cases hstep

/-- A reply that does not fit into the buffer is lost. -/
theorem putBack_refines (hstep : s.putBack call = some s') :
    ReflTransGen (LedgerStep bufferSize room) s.ledger s'.ledger := by
  unfold putBack at hstep
  split at hstep
  · next id reply hcall =>
    rw [ledger_unhold hcall]
    split at hstep
    · next responses hsent =>
      cases hstep
      exact ledger_send (s := s.setStep call (.waiting id)) hsent ▸ .refl
    · next hfull =>
      cases hstep
      have hfull := Chan.le_of_send_none hfull
      refine .single (.drop rfl ?_)
      simp only [Multiset.card_cons, ledger, coe_card, length_append, setStep]
      omega
  · cases hstep

theorem handBack_refines (hstep : s.handBack call other = some s') :
    ReflTransGen (LedgerStep bufferSize room) s.ledger s'.ledger := by
  unfold handBack at hstep
  split at hstep
  · next id reply otherID hcall hother =>
    split at hstep
    · cases hstep
      rw [ledger_unhold hcall]
      refine ledger_deliver _ (getElem?_set_ne ?_ |>.trans hother)
      rintro rfl
      rw [hcall] at hother
      cases hother
    · cases hstep
  · cases hstep

theorem send_refines (hstep : s.send call = some s') :
    ReflTransGen (LedgerStep bufferSize room) s.ledger s'.ledger := by
  unfold send at hstep
  split at hstep
  · next reply hsending =>
    obtain ⟨responses, hsent, rfl⟩ := map_eq_some_iff.mp hstep
    rw [ledger_send (s := s.setRespond call (.returned reply true)) hsent]
    exact .single (.release hsending)
  · cases hstep

theorem handOver_refines (hstep : s.handOver call other = some s') :
    ReflTransGen (LedgerStep bufferSize room) s.ledger s'.ledger := by
  unfold handOver at hstep
  split at hstep
  · next reply id hsending hother =>
    split at hstep
    · cases hstep
      exact .head (.release hsending) (ledger_deliver (s := s.setRespond call (.returned reply true)) _ hother)
    · cases hstep
  · cases hstep

theorem step_refines (hstep : step l s = some s') :
    ReflTransGen (LedgerStep bufferSize (s.roomy l = true)) s.ledger s'.ledger := by
  have hquiet : s'.ledger = s.ledger → ReflTransGen (LedgerStep bufferSize (s.roomy l = true)) s.ledger
      s'.ledger := fun hsame => hsame ▸ .refl
  cases l with
  | step id =>
    cases hstep
    exact hquiet (by simp [ledger, List.filterMap_cons, StepCall.own, StepCall.foreign])
  | take =>
    obtain ⟨taken, -, rfl⟩ := map_eq_some_iff.mp hstep
    exact hquiet rfl
  | request => exact hquiet (request_quiet hstep)
  | cancel => exact hquiet (cancel_quiet hstep)
  | forget => exact hquiet (forget_quiet hstep)
  | finish => exact hquiet (finish_quiet hstep)
  | receive => exact receive_refines hstep
  | putBack => exact putBack_refines hstep
  | handBack => exact handBack_refines hstep
  | send => exact send_refines hstep
  | handOver => exact handOver_refines hstep
  | respond call requestID response =>
    simp only [step, respond] at hstep
    split at hstep
    · next hidle =>
      split at hstep
      · next hpending =>
        cases hstep
        exact .single (.accept hidle rfl fun hroomy => of_decide_eq_true hroomy hpending)
      · cases hstep
        exact .single (.refuse hidle)
    · cases hstep

def Available (s : ChannelStepController bufferSize) (reply : Reply) : Prop :=
  reply ∈ s.responses.buffer ∨
    ∃ call id s', s.steps[call]? = some (.holding id reply) ∧ step (.putBack call) s = some s' ∧
      reply ∈ s'.responses.buffer

/-- A call of `Step` for the request has got the reply. -/
def Delivered (s : ChannelStepController bufferSize) (reply : Reply) : Prop :=
  ∃ phase ∈ s.steps, phase.own = some (reply.requestID, reply)

theorem receive_of_waiting {rest : List Reply} (hcall : s.steps[call]? = some (.waiting id))
    (hbuffer : s.responses.buffer = reply :: rest) :
    ∃ s', step (.receive call) s = some s' ∧ s'.responses.buffer = rest ∧
      s'.steps[call]? = some (if reply.requestID = id then .answered id reply else .holding id reply) := by
  obtain ⟨responses, hreceive, rfl⟩ := Chan.receive_of_cons hbuffer
  have hlt := (List.getElem?_eq_some_iff.mp hcall).1
  refine ⟨{ s with responses }.deliver call id reply, ?_, ?_⟩
  · simp [step, receive, hcall, hreceive]
  · unfold deliver
    split
    · exact ⟨rfl, List.getElem?_set_self hlt⟩
    · exact ⟨rfl, List.getElem?_set_self hlt⟩

theorem putBack_of_room (hcall : s.steps[call]? = some (.holding id reply))
    (hroom : s.responses.buffer.length < bufferSize) :
    ∃ s', step (.putBack call) s = some s' ∧ s'.responses.buffer = s.responses.buffer ++ [reply] ∧
      s'.steps = s.steps.set call (.waiting id) := by
  obtain ⟨responses, hsend, hbuffer⟩ := Chan.send_of_lt (a := reply) hroom
  refine ⟨{ s.setStep call (.waiting id) with responses }, ?_, hbuffer, rfl⟩
  simp only [step, putBack, hcall, hsend]

theorem putBack_getElem?_of_ne (hstep : step (.putBack call) s = some s') (hne : call ≠ other) :
    s'.steps[other]? = s.steps[other]? := by
  simp only [step, putBack] at hstep
  split at hstep
  · split at hstep
    · cases hstep
      exact getElem?_set_ne hne
    · cases hstep
      exact getElem?_set_ne hne
  · cases hstep

/-- The run goes on, and `Respond` is called only while there is room. -/
def Proceeds (s s' : ChannelStepController bufferSize) : Prop :=
  (stepping bufferSize).ReachesUnder (fun s l => s.roomy l = true) s s'

theorem Proceeds.step {s'' : ChannelStepController bufferSize} (hreach : Proceeds s s') (hroomy : s'.roomy l = true)
    (hstep : ChannelStepController.step l s' = some s'') : Proceeds s s'' :=
  Machine.ReachesUnder.step hreach hroomy hstep

theorem owned_of_reachable (hreach : (stepping bufferSize).Reachable s) : s.ledger.Owned := by
  refine hreach.invariant (I := fun s => s.ledger.Owned) ?_ (fun _ hmem => nomatch hmem)
  intro s l s' howned hstep
  exact StepLedger.keep (step_refines hstep) (fun x x' hx => hx.step) howned

variable (hreach : Proceeds (stepping bufferSize).init s)
include hreach

theorem sound_of_proceeds : s.ledger.Sound bufferSize := by
  refine hreach.invariant (I := fun s => s.ledger.Sound bufferSize) ?_ ?_
  · intro s l s' hsound hroomy hstep
    exact StepLedger.keep (step_refines hstep) (fun x x' hx => hx.step hroomy) hsound
  · exact ⟨nodup_zero, nofun, nofun, nofun, Nat.zero_le _⟩

theorem putBack_keeps (hcall : s.steps[call]? = some (.holding id reply)) :
    ∃ s', step (.putBack call) s = some s' ∧ reply ∈ s'.responses.buffer := by
  have hcard := (sound_of_proceeds hreach).card_carried_le
  rw [ledger_unhold hcall] at hcard
  simp only [Multiset.card_cons, ledger, coe_card, length_append, setStep] at hcard
  obtain ⟨s', hstep, hbuffer, -⟩ := putBack_of_room hcall (by omega)
  exact ⟨s', hstep, by simp [hbuffer]⟩

theorem available_or_delivered (haccepted : s.responds call = .returned reply true) :
    s.Available reply ∨ s.Delivered reply := by
  rcases (sound_of_proceeds hreach).kept call reply haccepted with hcarried | htaken
  · rcases mem_append.mp (mem_coe.mp hcarried) with hmem | hheld
    · exact .inl (.inl hmem)
    · obtain ⟨phase, hmem, hforeign⟩ := List.mem_filterMap.mp hheld
      obtain ⟨holder, hholder⟩ := mem_iff_getElem?.mp hmem
      cases phase with
      | holding id held =>
        cases hforeign
        obtain ⟨s', hstep, hmem⟩ := putBack_keeps hreach hholder
        exact .inl (.inr ⟨holder, id, s', hholder, hstep, hmem⟩)
      | _ => cases hforeign
  · exact .inr (List.mem_filterMap.mp (mem_coe.mp htaken))

omit hreach

variable (hcall : s.steps[call]? = some (.waiting id))
include hcall

theorem answered_of_mem {before after : List Reply} (hid : reply.requestID = id)
    (hbuffer : s.responses.buffer = before ++ reply :: after) :
    ∃ s' answer, Proceeds s s' ∧ s'.steps[call]? = some (.answered id answer) := by
  induction before generalizing s after with
  | nil =>
    obtain ⟨s₁, hreceive, -, hanswered⟩ := receive_of_waiting hcall hbuffer
    rw [if_pos hid] at hanswered
    exact ⟨s₁, reply, Proceeds.step (.refl s) rfl hreceive, hanswered⟩
  | cons first before ih =>
    rw [List.cons_append] at hbuffer
    obtain ⟨s₁, hreceive, hrest, htaken⟩ := receive_of_waiting hcall hbuffer
    have hreach : Proceeds s s₁ := Proceeds.step (.refl s) rfl hreceive
    split at htaken
    · exact ⟨s₁, first, hreach, htaken⟩
    · have hbounded := s.responses.bounded
      rw [hbuffer, List.length_cons, ← hrest] at hbounded
      obtain ⟨s₂, hputBack, hbuffer₂, hsteps⟩ := putBack_of_room htaken hbounded
      have hwaiting : s₂.steps[call]? = some (.waiting id) := by
        rw [hsteps]
        exact List.getElem?_set_self (List.getElem?_eq_some_iff.mp htaken).1
      rw [hrest, List.append_assoc, List.cons_append] at hbuffer₂
      obtain ⟨s₃, answer, hreach₃, hanswered⟩ := ih hwaiting hbuffer₂
      exact ⟨s₃, answer, (hreach.step rfl hputBack).trans hreach₃, hanswered⟩

theorem answered_of_available (havailable : s.Available reply) (hid : reply.requestID = id) :
    ∃ s' answer, Proceeds s s' ∧ s'.steps[call]? = some (.answered id answer) := by
  rcases havailable with hmem | ⟨holder, holderID, s₁, hholder, hputBack, hmem⟩
  · obtain ⟨before, after, hbuffer⟩ := append_of_mem hmem
    exact answered_of_mem hcall hid hbuffer
  · have hne : holder ≠ call := by
      rintro rfl
      rw [hcall] at hholder
      cases hholder
    obtain ⟨before, after, hbuffer⟩ := append_of_mem hmem
    obtain ⟨s', answer, hreach, hanswered⟩ :=
      answered_of_mem ((putBack_getElem?_of_ne hputBack hne).trans hcall) hid hbuffer
    exact ⟨s', answer, (Proceeds.step (.refl s) rfl hputBack).trans hreach, hanswered⟩

end ChannelStepController

/-- A call of `Step` returns only a reply of its own request. If `Respond` is called only
while fewer than `bufferSize` replies are outstanding, no call discards the reply of another
request, every accepted reply is available until it has come to its own, and a call that
waits for an available reply can get one. -/
theorem step_replies_reach_their_requests (bufferSize : Nat) (s : ChannelStepController bufferSize) :
    ((stepping bufferSize).Reachable s →
      ∀ (call : Nat) id reply, s.steps[call]? = some (StepCall.returned id (some reply)) → reply.requestID = id) ∧
    (ChannelStepController.Proceeds (stepping bufferSize).init s →
      (∀ (call : Nat) id reply, s.steps[call]? = some (.holding id reply) →
        ∃ s', (stepping bufferSize).step (.putBack call) s = some s' ∧ reply ∈ s'.responses.buffer) ∧
      (∀ call reply, s.responds call = .returned reply true → s.Available reply ∨ s.Delivered reply) ∧
      ∀ (call : Nat) id reply, s.steps[call]? = some (.waiting id) → s.Available reply → reply.requestID = id →
        ∃ s' answer, s.Proceeds s' ∧ s'.steps[call]? = some (.answered id answer)) := by
  constructor
  · intro hreach call id reply hcall
    refine ChannelStepController.owned_of_reachable hreach (id, reply) ?_
    exact List.mem_filterMap.mpr ⟨_, mem_of_getElem? hcall, rfl⟩
  · intro hreach
    refine ⟨?_, ?_, ?_⟩
    · intro call id reply hcall
      exact ChannelStepController.putBack_keeps hreach hcall
    · intro call reply haccepted
      exact ChannelStepController.available_or_delivered hreach haccepted
    · intro call id reply hcall havailable hid
      exact ChannelStepController.answered_of_available hcall havailable hid

namespace stepping

/-- Two calls of `Step` wait. The first takes the reply of the second before its own is sent. -/
def crossing : List StepLabel :=
  [.step "a", .request 0 false, .take, .step "b", .request 1 false, .take,
    .respond 0 "b" { action := .continue, modifiedEnvelope := none }, .send 0, .receive 0,
    .respond 1 "a" { action := .continue, modifiedEnvelope := none }, .send 1]

end stepping

def crossedOver {n : Nat} (s : ChannelStepController n) : Bool :=
  s.steps[0]? matches some (StepCall.holding "a" { requestID := "b", .. })

def accepted (s : ChannelStepController 2) : Bool := s.responds 0 matches .returned _ true

theorem step_replies_reach_their_requests_crossing :
    ∃ s : ChannelStepController 2, ChannelStepController.Proceeds (stepping 2).init s ∧ crossedOver s = true ∧
      ∃ reply, s.responds 0 = .returned reply true ∧ (s.Available reply ∨ s.Delivered reply) := by
  have hexec : ∃ s : ChannelStepController 2, ChannelStepController.Proceeds (stepping 2).init s ∧
      (crossedOver s && accepted s) = true :=
    machine.Machine.exists_reachesUnder_of_exec stepping.crossing _ (by decide +kernel)
  obtain ⟨s, hreach, htest⟩ := hexec
  rw [Bool.and_eq_true] at htest
  refine ⟨s, hreach, htest.1, ?_⟩
  obtain ⟨-, haccepted⟩ := htest
  unfold accepted at haccepted
  split at haccepted
  · next reply hreturned =>
    exact ⟨reply, hreturned, ((step_replies_reach_their_requests 2 s).2 hreach).2.1 0 reply hreturned⟩
  · cases haccepted

/-- With one place in the channel, the reply of the second call is dropped, and the call is left waiting. -/
theorem step_reply_dropped :
    ∃ s : ChannelStepController 1, (stepping 1).Reachable s ∧
      ((s.steps[1]? matches some (StepCall.waiting "b")) &&
        (s.steps[0]? matches some (StepCall.returned "a" (some _))) &&
        (s.responds 0 matches .returned { requestID := "b", .. } true) && s.responses.buffer.isEmpty) = true :=
  machine.Machine.exists_reachable_of_exec
    (stepping.crossing ++ [.putBack 0, .receive 0, .finish 0]) _ (by decide +kernel)

end petalflow.runtime
