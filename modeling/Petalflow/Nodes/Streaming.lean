import Petalflow.Lib.Channel
import Petalflow.Lib.Fold
import Petalflow.Lib.Machine
import Petalflow.Nodes.LLM

open List Option
open channel (Chan)
open machine (Machine)
open petalflow.core (Value Vars)
open petalflow.nodes (LLMAnswer LLMNode PromptRequest PromptResponse StreamChunk TokenUsage)

namespace petalflow.llmprovider

/-- What a provider streams: its deltas, and with the close an error or a final response. -/
structure ChatStream where
  deltas : List String
  err : Option String := none
  final : Option TokenUsage := none

/-- The goroutine of the adapter: it reads deltas and sends them on, looks for an error,
waits for the final response, and sends the chunk that ends the stream. -/
inductive Adapter where
  | ranging
  | sending (chunk : StreamChunk)
  | checking
  | awaiting
  | ending (chunk : StreamChunk)
  | closed

inductive Wrapper where
  | ranging
  | sending (chunk : StreamChunk)
  | closed

structure Pipeline where
  pending : List String
  cancelled : Bool := false
  adapter : Adapter := .ranging
  adapterOut : Chan 1 StreamChunk := .empty
  wrapper : Wrapper := .ranging
  wrapperOut : Chan 1 StreamChunk := .empty
  received : List StreamChunk := []
  finished : Bool := false

/-- Chunks with the field `Done`: the last one, and those with an error. -/
def isDone : StreamChunk → Bool
  | .delta _ => false
  | _ => true

def ctxErr : StreamChunk := .error "context canceled"

namespace Pipeline

/-- The adapter goes on. Where it selects, `ctxDone` takes the branch of the context.
`errReady` says whether an error is there to be read already. -/
def stepAdapter (stream : ChatStream) (ctxDone errReady : Bool) (s : Pipeline) : Option Pipeline :=
  match s.adapter with
  | .ranging =>
    match s.pending with
    | delta :: rest => some { s with pending := rest, adapter := .sending (.delta delta) }
    | [] => some { s with adapter := .checking }
  | .sending chunk =>
    if ctxDone then if s.cancelled then some { s with adapter := .ending ctxErr } else none
    else (s.adapterOut.send chunk).map fun out => { s with adapterOut := out, adapter := .ranging }
  | .checking =>
    if s.cancelled then some { s with adapter := .ending ctxErr }
    else
      match stream.err, errReady with
      | some err, true => some { s with adapter := .ending (.error err) }
      | _, _ => some { s with adapter := .awaiting }
  | .awaiting =>
    if ctxDone then if s.cancelled then some { s with adapter := .ending ctxErr } else none
    else some { s with adapter := .ending (.done stream.final) }
  | .ending chunk => (s.adapterOut.send chunk).map fun out => { s with adapterOut := out, adapter := .closed }
  | .closed => none

/-- The wrapper goes on. It ends without a last chunk when it takes the branch of the
context. -/
def stepWrapper (ctxDone : Bool) (s : Pipeline) : Option Pipeline :=
  match s.wrapper with
  | .ranging =>
    match s.adapterOut.receive, s.adapter with
    | some (chunk, rest), _ => some { s with adapterOut := rest, wrapper := .sending chunk }
    | none, .closed => some { s with wrapper := .closed }
    | none, _ => none
  | .sending chunk =>
    if ctxDone then if s.cancelled then some { s with wrapper := .closed } else none
    else
      (s.wrapperOut.send chunk).map fun out =>
        { s with wrapperOut := out, wrapper := if isDone chunk then .closed else .ranging }
  | .closed => none

/-- The loop of the node, which ends with the last chunk, with an error, and when the
channel is closed. -/
def stepNode (s : Pipeline) : Option Pipeline :=
  if s.finished then none
  else
    match s.wrapperOut.receive, s.wrapper with
    | some (chunk, rest), _ =>
      some { s with wrapperOut := rest, received := s.received ++ [chunk], finished := isDone chunk }
    | none, .closed => some { s with finished := true }
    | none, _ => none

end Pipeline

inductive Turn where
  | cancel
  | adapter (ctxDone errReady : Bool)
  | wrapper (ctxDone : Bool)
  | node

def streamedCall (stream : ChatStream) : Machine Pipeline Turn where
  init := { pending := stream.deltas }
  step
    | .cancel, s => some { s with cancelled := true }
    | .adapter ctxDone errReady, s => s.stepAdapter stream ctxDone errReady
    | .wrapper ctxDone, s => s.stepWrapper ctxDone
    | .node, s => s.stepNode

def answer (n : LLMNode) (prompt : String) (s : Pipeline) : Except String LLMAnswer :=
  n.runStreaming (fun _ => .ok s.received) prompt

def Wrapper.isClosed : Wrapper → Bool
  | .closed => true
  | _ => false

def cancelledLate (s : Pipeline) : Turn → Bool
  | .cancel => s.wrapper.isClosed
  | _ => true

def Adapter.held : Adapter → List StreamChunk
  | .sending chunk => [chunk]
  | .ending chunk => [chunk]
  | _ => []

def Wrapper.held : Wrapper → List StreamChunk
  | .sending chunk => [chunk]
  | _ => []

def Pipeline.underway (s : Pipeline) : List StreamChunk :=
  s.wrapperOut.buffer ++ (s.wrapper.held ++ (s.adapterOut.buffer ++ s.adapter.held))

def Adapter.Ended (pending : List String) (last : List StreamChunk) : Adapter → Prop
  | .ranging => last = []
  | .sending _ => last = []
  | .checking => last = [] ∧ pending = []
  | .awaiting => last = [] ∧ pending = []
  | .ending chunk => last = [chunk] ∧ isDone chunk = true ∧ pending = []
  | .closed => ∃ chunk, last = [chunk] ∧ isDone chunk = true ∧ pending = []

structure Whole (stream : ChatStream) (s : Pipeline) : Prop where
  flow : ∃ sent last, stream.deltas = sent ++ s.pending ∧ s.adapter.Ended s.pending last ∧
    s.received ++ s.underway = sent.map StreamChunk.delta ++ last
  wrapped : s.wrapper = .closed → s.adapter = .closed ∧ s.adapterOut.buffer = []
  late : s.cancelled = true → s.wrapper = .closed
  ended : s.finished = true → ∃ chunk, isDone chunk = true ∧
    s.received = stream.deltas.map StreamChunk.delta ++ [chunk]

variable {stream : ChatStream} {s s' : Pipeline} {pending : List String}

theorem Adapter.Ended.length_le {adapter : Adapter} {last : List StreamChunk}
    (hended : adapter.Ended pending last) : last.length ≤ 1 := by
  cases adapter <;> simp only [Adapter.Ended] at hended <;> grind

variable {chunk : StreamChunk}

theorem last_of_isDone {before after last : List StreamChunk} {sent : List String}
    (hdone : isDone chunk = true) (hshort : last.length ≤ 1)
    (hflow : before ++ chunk :: after = sent.map StreamChunk.delta ++ last) : after = [] ∧ last = [chunk] := by
  induction sent generalizing before with
  | nil =>
    have hlength := congrArg List.length hflow
    simp only [length_append, length_cons, map_nil, length_nil] at hlength
    have hbefore : before = [] := length_eq_zero_iff.mp (by omega)
    have hafter : after = [] := length_eq_zero_iff.mp (by omega)
    simp_all
  | cons delta sent ih =>
    cases before with
    | nil =>
      obtain ⟨rfl, -⟩ := List.cons.inj hflow
      cases hdone
    | cons first before => exact ih (List.cons.inj hflow).2

variable (hwhole : Whole stream s)
include hwhole

theorem Whole.complete (before after : List StreamChunk) (hdone : isDone chunk = true)
    (hflow : s.received ++ s.underway = before ++ chunk :: after) :
    after = [] ∧ before ++ [chunk] = stream.deltas.map StreamChunk.delta ++ [chunk] ∧
      (s.adapter.held = [] → s.adapter = .closed) := by
  obtain ⟨sent, last, hsent, hended, hall⟩ := hwhole.flow
  obtain ⟨rfl, rfl⟩ := last_of_isDone hdone hended.length_le (hflow.symm.trans hall)
  have hpending : s.pending = [] ∧ (s.adapter.held = [] → s.adapter = .closed) := by
    cases hadapter : s.adapter <;> rw [hadapter] at hended <;> simp_all [Adapter.Ended, Adapter.held]
  grind

theorem Whole.adapter (hopen : s.adapter ≠ .closed) {adapter : Adapter}
    {adapterOut : Chan 1 StreamChunk} (sent : List String) (last : List StreamChunk)
    (hsent : stream.deltas = sent ++ pending) (hended : adapter.Ended pending last)
    (hflow : s.received ++ (s.wrapperOut.buffer ++ (s.wrapper.held ++ (adapterOut.buffer ++ adapter.held))) =
      sent.map StreamChunk.delta ++ last) :
    Whole stream { s with pending, adapter, adapterOut } := by
  have hwrapper : s.wrapper ≠ .closed := fun hclosed => hopen (hwhole.wrapped hclosed).1
  exact ⟨⟨sent, last, hsent, hended, hflow⟩, fun hclosed => absurd hclosed hwrapper, hwhole.late, hwhole.ended⟩

theorem Whole.ending (hadapter : s.adapter = .checking ∨ s.adapter = .awaiting)
    (hdone : isDone chunk = true) : Whole stream { s with adapter := .ending chunk } := by
  obtain ⟨sent, last, hsent, hended, hflow⟩ := hwhole.flow
  unfold Pipeline.underway at hflow
  have hopen : s.adapter ≠ .closed := by grind
  have hlast : last = [] ∧ s.pending = [] ∧ s.adapter.held = [] := by
    obtain hadapter | hadapter := hadapter <;> rw [hadapter] at hended ⊢ <;> exact ⟨hended.1, hended.2, rfl⟩
  obtain ⟨rfl, hpending, hheld⟩ := hlast
  refine hwhole.adapter hopen sent [chunk] hsent ⟨rfl, hdone, hpending⟩ ?_
  grind [Adapter.held]

theorem Whole.stepAdapter {ctxDone errReady : Bool} (hstep : s.stepAdapter stream ctxDone errReady = some s') :
    Whole stream s' := by
  obtain ⟨sent, last, hsent, hended, hflow⟩ := hwhole.flow
  unfold Pipeline.underway at hflow
  -- a cancelled context means that the wrapper has ended, and then so has the adapter
  have hrunning : s.adapter ≠ .closed → ¬ s.cancelled = true :=
    fun hopen hcancelled => hopen (hwhole.wrapped (hwhole.late hcancelled)).1
  unfold Pipeline.stepAdapter at hstep
  cases hadapter : s.adapter with
  | closed =>
    rw [hadapter] at hstep
    cases hstep
  | ranging =>
    have hopen : s.adapter ≠ .closed := by simp [hadapter]
    rw [hadapter] at hstep hended hflow
    cases hended
    dsimp only at hstep
    split at hstep
    · next delta rest hpending =>
      cases hstep
      refine hwhole.adapter hopen (sent ++ [delta]) [] ?_ rfl ?_
      · rw [hsent, hpending, append_assoc, singleton_append]
      grind [Adapter.held]
    · next hpending =>
      cases hstep
      exact hwhole.adapter hopen sent [] hsent ⟨rfl, hpending⟩ hflow
  | sending chunk =>
    have hopen : s.adapter ≠ .closed := by simp [hadapter]
    rw [hadapter] at hstep hended hflow
    cases hended
    dsimp only at hstep
    rw [if_neg (hrunning hopen)] at hstep
    split at hstep
    · cases hstep
    · obtain ⟨out, hsend, rfl⟩ := map_eq_some_iff.mp hstep
      refine hwhole.adapter hopen sent [] hsent rfl ?_
      rw [Chan.send_buffer hsend, ← hflow]
      simp [Adapter.held]
  | checking =>
    have hopen : s.adapter ≠ .closed := by simp [hadapter]
    rw [hadapter] at hstep hended hflow
    dsimp only at hstep
    rw [if_neg (hrunning hopen)] at hstep
    split at hstep
    · cases hstep
      exact hwhole.ending (.inl hadapter) rfl
    · cases hstep
      exact hwhole.adapter hopen sent last hsent hended hflow
  | awaiting =>
    have hopen : s.adapter ≠ .closed := by simp [hadapter]
    rw [hadapter] at hstep
    dsimp only at hstep
    rw [if_neg (hrunning hopen)] at hstep
    split at hstep
    · cases hstep
    · cases hstep
      exact hwhole.ending (.inr hadapter) rfl
  | ending chunk =>
    have hopen : s.adapter ≠ .closed := by simp [hadapter]
    rw [hadapter] at hstep hended hflow
    obtain ⟨out, hsend, rfl⟩ := map_eq_some_iff.mp hstep
    refine hwhole.adapter hopen sent last hsent ⟨chunk, hended⟩ ?_
    rw [Chan.send_buffer hsend, ← hflow]
    simp [Adapter.held]

theorem Whole.stepWrapper {ctxDone : Bool} (hstep : s.stepWrapper ctxDone = some s') : Whole stream s' := by
  obtain ⟨sent, last, hsent, hended, hflow⟩ := hwhole.flow
  have hrunning : s.wrapper ≠ .closed → ¬ s.cancelled = true :=
    fun hopen hcancelled => hopen (hwhole.late hcancelled)
  unfold Pipeline.stepWrapper at hstep
  cases hwrapper : s.wrapper with
  | closed =>
    rw [hwrapper] at hstep
    cases hstep
  | ranging =>
    have hopen : s.wrapper ≠ .closed := by simp [hwrapper]
    rw [hwrapper] at hstep
    dsimp only at hstep
    split at hstep
    · next chunk rest hreceive =>
      cases hstep
      refine ⟨⟨sent, last, hsent, hended, ?_⟩, nofun,
        fun hcancelled => absurd hcancelled (hrunning hopen), hwhole.ended⟩
      rw [← hflow]
      simp [Pipeline.underway, hwrapper, Wrapper.held, Chan.receive_buffer hreceive]
    · next hreceive hadapter =>
      cases hstep
      refine ⟨⟨sent, last, hsent, hended, ?_⟩, fun _ => ⟨hadapter, Chan.buffer_of_receive_none hreceive⟩, fun _ => rfl,
        hwhole.ended⟩
      rw [← hflow]
      simp [Pipeline.underway, hwrapper, Wrapper.held]
    · cases hstep
  | sending chunk =>
    have hopen : s.wrapper ≠ .closed := by simp [hwrapper]
    rw [hwrapper] at hstep
    dsimp only at hstep
    rw [if_neg (hrunning hopen)] at hstep
    split at hstep
    · cases hstep
    · obtain ⟨out, hsend, rfl⟩ := map_eq_some_iff.mp hstep
      refine ⟨⟨sent, last, hsent, hended, ?_⟩, ?_, fun hcancelled => absurd hcancelled (hrunning hopen), hwhole.ended⟩
      · grind [Pipeline.underway, Wrapper.held, Chan.send_buffer]
      · -- the chunk that ends the stream was the last one, so the adapter has nothing left
        intro hclosed
        have hdone : isDone chunk = true := by
          by_contra hdelta
          rw [if_neg hdelta] at hclosed
          cases hclosed
        obtain ⟨hafter, -, hended⟩ := hwhole.complete (s.received ++ s.wrapperOut.buffer)
          (s.adapterOut.buffer ++ s.adapter.held) hdone (by simp [Pipeline.underway, hwrapper, Wrapper.held])
        simp_all

theorem Whole.stepNode (hstep : s.stepNode = some s') : Whole stream s' := by
  obtain ⟨sent, last, hsent, hended, hflow⟩ := hwhole.flow
  unfold Pipeline.stepNode at hstep
  split at hstep
  · cases hstep
  · split at hstep
    · next chunk rest hreceive =>
      cases hstep
      have hbuffer := Chan.receive_buffer hreceive
      refine ⟨⟨sent, last, hsent, hended, ?_⟩, hwhole.wrapped, hwhole.late, ?_⟩
      · rw [← hflow]
        simp [Pipeline.underway, hbuffer]
      · intro hdone
        obtain ⟨-, hall, -⟩ := hwhole.complete s.received
          (rest.buffer ++ (s.wrapper.held ++ (s.adapterOut.buffer ++ s.adapter.held))) hdone
          (by simp [Pipeline.underway, hbuffer])
        exact ⟨chunk, hdone, hall⟩
    · next hreceive hwrapper =>
      cases hstep
      obtain ⟨hadapter, hbuffer⟩ := hwhole.wrapped hwrapper
      refine ⟨⟨sent, last, hsent, hended, hflow⟩, hwhole.wrapped, hwhole.late, fun _ => ?_⟩
      rw [hadapter] at hended
      obtain ⟨chunk, rfl, hdone, hpending⟩ := hended
      grind [Pipeline.underway, Chan.buffer_of_receive_none, Wrapper.held, Adapter.held]
    · cases hstep

omit hwhole

theorem accumulate_deltas {deltas : List String} {result : String × TokenUsage}
    (hdone : isDone chunk = true)
    (hresult : LLMNode.accumulate (deltas.map StreamChunk.delta ++ [chunk]) = .ok result) :
    result.1 = String.join deltas ∧ ∃ usage, chunk = .done usage := by
  induction deltas generalizing result with
  | nil =>
    cases chunk with
    | delta text => cases hdone
    | error err => cases hresult
    | done usage =>
      cases hresult
      exact ⟨rfl, usage, rfl⟩
  | cons delta rest ih =>
    obtain ⟨more, hmore, rfl⟩ := fold.map_eq_ok.mp hresult
    obtain ⟨htext, hlast⟩ := ih hmore
    simp_all

/-- If the node returns an answer, its text is that of all the deltas, and the stream has
ended without an error. -/
theorem streamed_answer_complete (stream : ChatStream) (n : LLMNode) (prompt : String) (s : Pipeline)
    (hreach : (streamedCall stream).ReachesUnder (fun s turn => cancelledLate s turn = true)
      (streamedCall stream).init s)
    (hfinished : s.finished = true) (result : LLMAnswer) (hanswer : answer n prompt s = .ok result) :
    result.output = .str (String.join stream.deltas) ∧ ∃ usage, s.received.getLast? = some (.done usage) := by
  have hinit : Whole stream (streamedCall stream).init := ⟨⟨[], [], rfl, rfl, rfl⟩, nofun, nofun, nofun⟩
  have hwhole : Whole stream s := by
    refine hreach.invariant ?_ hinit
    intro s turn s' hwhole hlate hstep
    cases turn with
    | cancel =>
      cases hstep
      refine ⟨hwhole.flow, hwhole.wrapped, fun _ => ?_, hwhole.ended⟩
      grind [cancelledLate, Wrapper.isClosed]
    | adapter ctxDone errReady => exact hwhole.stepAdapter hstep
    | wrapper ctxDone => exact hwhole.stepWrapper hstep
    | node => exact hwhole.stepNode hstep
  obtain ⟨chunk, hdone, hreceived⟩ := hwhole.ended hfinished
  unfold answer LLMNode.runStreaming at hanswer
  obtain ⟨chunks, hchunks, hrest⟩ := fold.bind_eq_ok.mp hanswer
  cases hchunks
  obtain ⟨⟨text, usage⟩, haccumulated, hrest⟩ := fold.bind_eq_ok.mp hrest
  rw [hreceived] at haccumulated
  obtain ⟨htext, hlast⟩ := accumulate_deltas hdone haccumulated
  obtain ⟨-, -, hresult⟩ := fold.bind_eq_ok.mp hrest
  cases hresult
  simp_all

def greeting : ChatStream where
  deltas := ["Hel", "lo"]

def greeter : LLMNode :=
  nodes.newLLMNode "greeter" { complete := fun _ _ _ => .error "", ctxErr := fun _ _ => none,
                               pauseErr := fun _ _ => none } {}

def handOn : List Turn := [.adapter false false, .adapter false false, .wrapper false, .wrapper false, .node]

theorem streamed_answer_complete_greeting :
    ∃ s result, (streamedCall greeting).Reaches (streamedCall greeting).init s ∧ s.cancelled = true ∧
      answer greeter "Hi" s = .ok result ∧ result.output = .str (String.join greeting.deltas) := by
  obtain ⟨s, hreach, htest⟩ := machine.Machine.exists_reachesUnder_of_exec (m := streamedCall greeting)
    (P := cancelledLate)
    (handOn ++ handOn ++ replicate 4 (.adapter false false) ++ [.wrapper false, .wrapper false, .cancel, .node])
    (fun s => s.finished && s.cancelled && (answer greeter "Hi" s).isOk) (by decide +kernel)
  simp only [Bool.and_eq_true] at htest
  obtain ⟨⟨hfinished, hcancelled⟩, hok⟩ := htest
  cases hanswer : answer greeter "Hi" s with
  | error err =>
    rw [hanswer] at hok
    cases hok
  | ok result =>
    have hcomplete := streamed_answer_complete greeting greeter "Hi" s hreach hfinished result hanswer
    exact ⟨s, result, hreach.reaches, hcancelled, hanswer, hcomplete.1⟩

/-- The context is cancelled while the wrapper hands on the second delta. It closes its
channel, and the node returns the text of the first delta without an error. -/
theorem streamed_answer_truncated :
    ((streamedCall greeting).exec
      (handOn ++ [.adapter false false, .adapter false false, .wrapper false, .cancel, .wrapper true, .node])
      (streamedCall greeting).init).any (fun s => s.finished ∧
        (answer greeter "Hi" s).toOption.any (·.output matches .str "Hel")) = true := by
  decide +kernel

/-- What an answer leaves behind: what is stored, and the text of the final event. -/
def LLMAnswer.stored (a : LLMAnswer) : Value × TokenUsage × String := (a.output, a.usage, a.finalText)

theorem accumulate_done (deltas : List String) (usage : TokenUsage) :
    LLMNode.accumulate (deltas.map StreamChunk.delta ++ [.done (some usage)]) = .ok (String.join deltas, usage) := by
  induction deltas with
  | nil => rfl
  | cons delta rest ih => simp [LLMNode.accumulate, ih, Except.map]

/-- Both ways of calling a model stay within the same budget, store the same and emit the same
text, exactly if the text is not stored as an object, because of the schema, the response or
the budget. -/
theorem streaming_stores_same (n : LLMNode) (t : Nat) (prompt : String) (resp : PromptResponse) (deltas : List String)
    (stream : PromptRequest → Except String (List StreamChunk)) (hattempts : 0 < n.config.maxAttempts)
    (hcomplete : n.client.complete t 1 (n.request prompt) = .ok resp) (htext : String.join deltas = resp.text)
    (hstream : stream (n.request prompt) = .ok (deltas.map StreamChunk.delta ++ [.done (some resp.usage)])) :
    (n.runSync t prompt).map LLMAnswer.stored = (n.runStreaming stream prompt).map LLMAnswer.stored ↔
      n.config.jsonSchema = none ∨ resp.json = none ∨ (n.withinBudget resp.usage).isOk = false := by
  obtain ⟨left, hleft⟩ : ∃ left, n.config.maxAttempts.toNat = left + 1 := ⟨n.config.maxAttempts.toNat - 1, by omega⟩
  have hfirst : n.attempts (n.request prompt) t (left + 1) 1 = .ok resp := by rw [LLMNode.attempts, hcomplete]
  have haccumulated := accumulate_done deltas resp.usage
  rw [htext] at haccumulated
  simp only [LLMNode.runSync, LLMNode.runStreaming, hleft, hfirst, hstream, Except.mapError]
  simp only [bind, Except.bind, haccumulated]
  cases hchecked : n.withinBudget resp.usage with
  | error err => simp [Except.isOk, Except.toBool]
  | ok _ =>
    -- the object is stored only where there are both a schema and an object
    cases hschema : n.config.jsonSchema <;> cases hobject : resp.json
    all_goals simp [Except.map, pure, Except.pure, LLMAnswer.stored, Except.isOk, Except.toBool]

def objectNode (jsonSchema : Option Vars) : LLMNode :=
  nodes.newLLMNode "extract"
    { complete := fun _ _ _ => .ok { text := "\x7b\x7d", json := jsonSchema.map fun _ => [] }
      ctxErr := fun _ _ => none
      pauseErr := fun _ _ => none }
    { jsonSchema }

theorem streaming_stores_same_text :
    ((objectNode none).runSync 0 "").map LLMAnswer.stored =
      ((objectNode none).runStreaming (fun _ => .ok [.delta "\x7b", .delta "\x7d", .done (some {})]) "").map
      LLMAnswer.stored :=
  (streaming_stores_same (objectNode none) 0 "" { text := "\x7b\x7d" } ["\x7b", "\x7d"] _ (by decide) rfl
    (by decide) rfl).mpr (.inl rfl)

/-- With a schema, `runSync` stores the object and `runStreaming` its text. -/
theorem streaming_stores_text :
    ((objectNode (some [])).runSync 0 "").map (·.output) = .ok (.map []) ∧
      ((objectNode (some [])).runStreaming (fun _ => .ok [.delta "\x7b\x7d", .done (some {})]) "").map (·.output) =
        .ok (.str "\x7b\x7d") :=
  ⟨rfl, rfl⟩

structure ResponseChunk where
  done : Bool := false
  accumulated : String := ""
  usage : Option TokenUsage := none
  error : Option String := none

inductive CallEvent where
  | call (req : PromptRequest)
  | response (status : String) (error : Option String) (completion : Option String) (usage : Option TokenUsage)

def isCall : CallEvent → Bool
  | .call _ => true
  | .response _ _ _ _ => false

def respond (finalUsage : Option TokenUsage) (chunk : ResponseChunk) : CallEvent :=
  match chunk.error with
  | some err => .response "error" (some err) (some chunk.accumulated) none
  | none => .response "success" none (some chunk.accumulated) finalUsage

/-- The goroutine that hands on the chunks. In the `select` of a chunk the context may be
found to be done. -/
def forward (cancelled : Nat → Bool) : Nat → Option TokenUsage → List ResponseChunk → List CallEvent
  | _, _, [] => []
  | k, finalUsage, chunk :: rest =>
    let finalUsage := chunk.usage.or finalUsage
    if cancelled k then []
    else if chunk.done then [respond finalUsage chunk]
    else forward cancelled (k + 1) finalUsage rest

/-- The events of `CompleteStream`, once its channel is closed. -/
def instrumented (emitter : Bool) (req : PromptRequest) (stream : Except String (List ResponseChunk))
    (cancelled : Nat → Bool) : List CallEvent :=
  if emitter then
    .call req :: match stream with
      | .error err => [.response "error" (some err) none none]
      | .ok chunks => forward cancelled 0 none chunks
  else []

/-- The stream has ended with a final chunk without an error. -/
def EndsWell (stream : Except String (List ResponseChunk)) : Prop :=
  ∃ before last, stream = .ok (before ++ [last]) ∧ last.done = true ∧ last.error = none

def Paired (stream : Except String (List ResponseChunk)) (events : List CallEvent) : Prop :=
  events.countP (fun event => !isCall event) = events.countP isCall ∧
    (¬ EndsWell stream → ∀ status err completion usage, .response status err completion usage ∈ events →
      status = "error")

/-- `last` is the first final chunk, after the chunks `before`, and up to it the context is
not found to be done. -/
structure Handed (cancelled : Nat → Bool) (k : Nat) (chunks before : List ResponseChunk) (last : ResponseChunk) :
    Prop where
  split : ∃ rest, chunks = before ++ last :: rest
  done : last.done = true
  first : ∀ chunk ∈ before, chunk.done = false
  uncancelled : ∀ i ≤ before.length, cancelled (k + i) = false

theorem forward_last {cancelled : Nat → Bool} {chunks before : List ResponseChunk} {last : ResponseChunk} {k : Nat}
    (usage : Option TokenUsage) (hlast : Handed cancelled k chunks before last) :
    ∃ final, forward cancelled k usage chunks = [respond final last] := by
  obtain ⟨⟨rest, rfl⟩, hdone, hbefore, hopen⟩ := hlast
  induction before generalizing k usage with
  | nil =>
    have hnow := hopen 0 (Nat.zero_le _)
    exact ⟨last.usage.or usage, by simp_all [forward]⟩
  | cons chunk before ih =>
    have hnow := hopen 0 (Nat.zero_le _)
    obtain ⟨final, hfinal⟩ := ih (chunk.usage.or usage) (fun c hc => hbefore c (mem_cons_of_mem _ hc))
      fun i hi => Nat.add_right_comm k i 1 ▸ hopen (i + 1) (Nat.succ_le_succ hi)
    exact ⟨final, by simp_all [forward]⟩

theorem handed_of_forward {cancelled : Nat → Bool} {chunks : List ResponseChunk} {k : Nat}
    {usage : Option TokenUsage} (hforward : forward cancelled k usage chunks ≠ []) :
    ∃ before last, Handed cancelled k chunks before last := by
  induction chunks generalizing k usage with
  | nil => exact absurd rfl hforward
  | cons chunk chunks ih =>
    unfold forward at hforward
    split at hforward
    · exact absurd rfl hforward
    · next hnow =>
      split at hforward
      · next hdone =>
        refine ⟨[], chunk, ⟨chunks, rfl⟩, hdone, nofun, fun i hi => ?_⟩
        obtain rfl : i = 0 := Nat.le_zero.mp hi
        simpa using hnow
      · next hdone =>
        obtain ⟨before, last, ⟨rest, rfl⟩, hlast, hbefore, hopen⟩ := ih hforward
        refine ⟨chunk :: before, last, ⟨rest, rfl⟩, hlast, ?_, fun i hi => ?_⟩
        · exact forall_mem_cons.mpr ⟨by simpa using hdone, hbefore⟩
        · cases i with
          | zero => simpa using hnow
          | succ i =>
            rw [← Nat.add_assoc, Nat.add_right_comm]
            exact hopen i (Nat.le_of_succ_le_succ hi)

/-- Calls and responses are paired exactly if there is no emitter, the stream is not opened,
or a final chunk is handed on, and this is the end of the stream if it has no error. -/
theorem call_events_paired (emitter : Bool) (req : PromptRequest) (stream : Except String (List ResponseChunk))
    (cancelled : Nat → Bool) :
    Paired stream (instrumented emitter req stream cancelled) ↔
      (emitter = true → ∀ chunks, stream = .ok chunks → ∃ before last, Handed cancelled 0 chunks before last ∧
        (last.error = none → EndsWell stream)) := by
  cases emitter with
  | false => simp [Paired, instrumented]
  | true =>
    cases stream with
    | error err => simp +contextual [Paired, instrumented, isCall, countP_cons]
    | ok chunks =>
      constructor
      · rintro ⟨hcount, hstatus⟩ - _ ⟨⟩
        have hforward : forward cancelled 0 none chunks ≠ [] := by
          intro hnil
          simp [instrumented, hnil, isCall, countP_cons] at hcount
        obtain ⟨before, last, hlast⟩ := handed_of_forward hforward
        refine ⟨before, last, hlast, fun herr => ?_⟩
        by_contra hbad
        obtain ⟨final, hfinal⟩ := forward_last none hlast
        have hsuccess := hstatus hbad "success" none (some last.accumulated) final
          (by simp [instrumented, hfinal, respond, herr])
        exact absurd hsuccess (by decide)
      · intro hends
        obtain ⟨before, last, hlast, hwell⟩ := hends rfl chunks rfl
        obtain ⟨final, hfinal⟩ := forward_last none hlast
        refine ⟨?_, fun hbad => ?_⟩
        · cases herr : last.error <;> simp [instrumented, hfinal, respond, herr, isCall, countP_cons]
        · obtain ⟨err, herr⟩ := ne_none_iff_exists'.mp (mt hwell hbad)
          simp +contextual [instrumented, hfinal, respond, herr]

def greetingRequest : PromptRequest := greeter.request "Hi"

/-- A stream that is closed without a final chunk, or a context that is cancelled, leaves a
call without a response. -/
theorem call_events_unpaired :
    ¬ Paired (.ok [{}]) (instrumented true greetingRequest (.ok [{}]) fun _ => false) ∧
      ¬ Paired (.ok [{ done := true }]) (instrumented true greetingRequest (.ok [{ done := true }]) fun _ => true) := by
  constructor <;> simp [Paired, instrumented, forward, isCall, countP_cons]

end petalflow.llmprovider
