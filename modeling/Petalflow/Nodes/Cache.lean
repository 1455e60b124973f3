import Mathlib.Data.List.Sort
import Petalflow.Lib.Machine
import Petalflow.Lib.Memo
import Petalflow.Nodes.LLM

open petalflow.core List machine

namespace petalflow.nodes

def insertEntry (key : String) (value : Value) : Vars → Vars
  | [] => [(key, value)]
  | entry :: rest =>
    if key < entry.1 then (key, value) :: entry :: rest
    else if key = entry.1 then (key, value) :: rest
    else entry :: insertEntry key value rest

mutual

def toStableValue : Value → Value
  | .map entries => .list ((stableEntries entries).flatMap fun entry => [.str entry.1, entry.2])
  | .list elems => .list (stableElems elems)
  | v => v

def stableEntries : Vars → Vars
  | [] => []
  | (key, value) :: rest => insertEntry key (toStableValue value) (stableEntries rest)

def stableElems : List Value → List Value
  | [] => []
  | elem :: rest => toStableValue elem :: stableElems rest

end

/-- The configuration of a cache node. The time to live is in nanoseconds. -/
structure CacheNodeConfig where
  cacheKey : String := ""
  inputVars : List String := []
  wrappedNode : Option Node := none
  ttl : Int := 0
  outputVar : String := ""
  includeArtifacts : Bool := false
  includeInput : Bool := false

/-- What surrounds the calls of a cache node: the JSON encoder, which can fail, the digest of
a text, templates, the readings of the clock on an occasion, and whether the context is
done before the call, before the cache is read, or before it is written. -/
structure CacheRuntime where
  marshal : Value → Except String String
  sha256 : String → String
  templates : Templates
  now : Nat → Nat → Int
  ctxErr : Nat → Option String
  getErr : Nat → Option String
  setErr : Nat → Option String

structure CacheEntry where
  envelope : Option Envelope
  storedAt : Int
  expiresAt : Option Int

abbrev MemoryCacheStore := String → Option CacheEntry

namespace MemoryCacheStore

/-- The envelope under a key. An expired entry is removed. -/
def get (store : MemoryCacheStore) (now : Int) (key : String) : Option (Option Envelope) × MemoryCacheStore :=
  match store key with
  | none => (none, store)
  | some entry =>
    if entry.expiresAt.any (· < now) then (none, Function.update store key none) else (some entry.envelope, store)

def set (store : MemoryCacheStore) (now : Int) (key : String) (env : Option Envelope) (ttl : Int) : MemoryCacheStore :=
  Function.update store key
    (some { envelope := env, storedAt := now, expiresAt := if ttl > 0 then some (now + ttl) else none })

end MemoryCacheStore

structure CacheResult where
  hit : Bool
  key : String
  storedAt : Option Int := none
  expiresAt : Option Int := none

def CacheResult.value (r : CacheResult) : Value :=
  .record "CacheResult" [("Hit", .bool r.hit), ("Key", .str r.key),
    ("StoredAt", r.storedAt.elim .nil fun t => .num .int64 t),
      ("ExpiresAt", r.expiresAt.elim .nil fun t => .num .int64 t)]

structure CacheNode where
  id : String
  config : CacheNodeConfig

namespace CacheNode

variable (n : CacheNode) (rt : CacheRuntime)

def renderCacheKeyTemplate (env : Envelope) : Except String String := do
  let tmpl ← (rt.templates n.config.cacheKey).mapError fun err => s!"invalid cache key template: {err}"
  let rendered ← (tmpl [("input", env.input), ("vars", env.vars.elim .nil .map)]).mapError fun err =>
    s!"failed to execute cache key template: {err}"
  return s!"{n.id}:{rendered}"

def artifactValue (art : Artifact) : Value :=
  .map [("id", .str art.id), ("type", .str art.type), ("text", .str art.text), ("meta", .map (art.metadata.getD []))]

def keyVars (env : Envelope) : Vars :=
  if n.config.inputVars ≠ [] then
    n.config.inputVars.foldl (fun vars varName =>
      match env.getVar varName with
      | some val => Vars.set varName val vars
      | none => vars) []
  else env.vars.getD []

def hashData (env : Envelope) : Vars :=
  (if n.config.includeInput then [("input", env.input)] else []) ++ [("vars", .map (n.keyVars env))] ++
    if n.config.includeArtifacts then [("artifacts", .list (env.artifacts.map artifactValue))] else []

def stableJSONMarshal (v : Value) : Except String String := rt.marshal (toStableValue v)

def computeStableHash (data : Value) : Except String String := do
  let json ← (stableJSONMarshal rt data).mapError fun err => s!"failed to marshal data for hashing: {err}"
  return rt.sha256 json

def computeCacheKeyHash (env : Envelope) : Except String String := do
  let hash ← computeStableHash rt (.map (n.hashData env))
  return n.id ++ ":" ++ hash

def generateCacheKey (env : Envelope) : Except String String :=
  if n.config.cacheKey ≠ "" then n.renderCacheKeyTemplate rt env else n.computeCacheKeyHash rt env

def storeResult (r : CacheResult) (env : Option Envelope) : Option Envelope :=
  if n.config.outputVar = "" then env else env.map (·.setVar n.config.outputVar r.value)

def runWrapped (t : Nat) (key : String) (env : Envelope) (store : MemoryCacheStore) : Outcome × MemoryCacheStore :=
  match n.config.wrappedNode with
  | none => (.failed s!"cache node {n.id}: no wrapped node configured" env, store)
  | some wrapped =>
    match wrapped.run t env with
    | .failed err received => (.failed s!"cache node {n.id}: wrapped node failed: {err}" received, store)
    | .ok result =>
      match rt.setErr t with
      | some err => (.failed s!"cache node {n.id}: failed to store in cache: {err}" env, store)
      | none =>
        let storedAt := rt.now t 1
        let expiresAt := if n.config.ttl > 0 then some (storedAt + n.config.ttl) else none
        (.ok (n.storeResult { hit := false, key, storedAt := some storedAt, expiresAt } result),
          store.set (rt.now t 2) key result n.config.ttl)

/-- One call of `Run`, with the store it leaves. -/
def run (t : Nat) (env : Envelope) (store : MemoryCacheStore) : Outcome × MemoryCacheStore :=
  match rt.ctxErr t with
  | some err => (.failed err env, store)
  | none =>
    match n.generateCacheKey rt env with
    | .error err => (.failed s!"cache node {n.id}: failed to generate cache key: {err}" env, store)
    | .ok key =>
      match rt.getErr t with
      | some err => (.failed s!"cache node {n.id}: failed to get from cache: {err}" env, store)
      | none =>
        match store.get (rt.now t 0) key with
        | (some cached, store) => (.ok (n.storeResult { hit := true, key } cached), store)
        | (none, store) => n.runWrapped rt t key env store

def runs : List (Nat × Envelope) → MemoryCacheStore → List Outcome
  | [], _ => []
  | (t, env) :: rest, store => (n.run rt t env store).1 :: runs rest (n.run rt t env store).2

end CacheNode

/-- What a node writes into an envelope: the input and variables it sets, and what it
appends. -/
structure Written where
  input : Option Value := none
  vars : Vars := []
  artifacts : List Artifact := []
  messages : List Message := []
  errors : List NodeError := []

namespace Written

/-- The envelope after the writes. The rest is left as it was. -/
def apply (w : Written) (env : Envelope) : Envelope :=
  { env with
    input := w.input.getD env.input
    vars := w.vars.foldl (fun vars entry => some (Vars.set entry.1 entry.2 (vars.getD []))) env.vars
    artifacts := env.artifacts ++ w.artifacts
    messages := env.messages ++ w.messages
    errors := env.errors ++ w.errors }

theorem getVar_eq (env : Envelope) (name : String) : env.getVar name = env.vars.bind (·.lookup name) := by
  unfold Envelope.getVar
  grind

theorem lookup_writes {name : String} (writes : Vars) {vars vars' : Option Vars}
    (hsame : name ∉ writes.map Prod.fst → vars.bind (·.lookup name) = vars'.bind (·.lookup name)) :
    (writes.foldl (fun vars entry => some (Vars.set entry.1 entry.2 (vars.getD []))) vars).bind (·.lookup name) =
      (writes.foldl (fun vars entry => some (Vars.set entry.1 entry.2 (vars.getD []))) vars').bind
        (·.lookup name) := by
  induction writes generalizing vars vars' with
  | nil => exact hsame not_mem_nil
  | cons entry rest ih =>
    apply ih
    intro hrest
    rw [Option.bind_some, Option.bind_some]
    by_cases hname : name = entry.1
    · rw [hname, Vars.lookup_set_self, Vars.lookup_set_self]
    · rw [Vars.lookup_set_of_ne hname, Vars.lookup_set_of_ne hname]
      have hvars := hsame (by simp_all)
      cases vars <;> cases vars' <;> exact hvars

theorem getVar_apply_congr {w : Written} {name : String} {env env' : Envelope}
    (hsame : name ∉ w.vars.map Prod.fst → env.getVar name = env'.getVar name) :
    (w.apply env).getVar name = (w.apply env').getVar name := by
  rw [getVar_eq, getVar_eq] at hsame ⊢
  exact lookup_writes w.vars hsame

end Written

/-- The same envelope, or none: equal fields, and the variables have equal values. -/
inductive SameEnvelope : Option Envelope → Option Envelope → Prop
  | none : SameEnvelope none none
  | some {env env' : Envelope} (input : env.input = env'.input) (artifacts : env.artifacts = env'.artifacts)
      (messages : env.messages = env'.messages) (errors : env.errors = env'.errors) (trace : env.trace = env'.trace)
      (vars : ∀ name, env.getVar name = env'.getVar name) : SameEnvelope (some env) (some env')

theorem SameEnvelope.refl (result : Option Envelope) : SameEnvelope result result := by
  cases result with
  | none => exact .none
  | some env => exact .some rfl rfl rfl rfl rfl fun _ => rfl

inductive SameApart (except : String) : Option Envelope → Option Envelope → Prop
  | none : SameApart except none none
  | some {env env' : Envelope} (input : env.input = env'.input) (artifacts : env.artifacts = env'.artifacts)
      (messages : env.messages = env'.messages) (errors : env.errors = env'.errors) (trace : env.trace = env'.trace)
      (vars : ∀ name, name ≠ except ∨ except = "" → env.getVar name = env'.getVar name) :
      SameApart except (some env) (some env')

namespace MemoryCacheStore

variable {store : MemoryCacheStore} {now : Int} {key : String}

def results (store : MemoryCacheStore) : String → Option (Option Envelope) :=
  fun key => (store key).map (·.envelope)

theorem get_fst : (store.get now key).1 = (store.get now key).2.results key := by
  unfold get
  cases hentry : store key with
  | none => simp [results, hentry]
  | some entry =>
    dsimp only
    split
    · simp [results]
    · simp [results, hentry]

theorem results_get {k : String} {result : Option Envelope} (hkept : (store.get now key).2.results k = some result) :
    store.results k = some result := by
  unfold get at hkept
  split at hkept
  · exact hkept
  · split at hkept
    · grind [results]
    · exact hkept

theorem results_set (env : Option Envelope) (ttl : Int) :
    (store.set now key env ttl).results = Function.update store.results key (some env) := by
  funext k
  unfold set results
  grind

end MemoryCacheStore

structure CacheRuntime.Uninterrupted (rt : CacheRuntime) (t : Nat) : Prop where
  ctxErr : rt.ctxErr t = none
  getErr : rt.getErr t = none
  setErr : rt.setErr t = none

namespace CacheNode

structure SameKeyData (n : CacheNode) (env env' : Envelope) : Prop where
  input : n.config.includeInput = true → env.input = env'.input
  vars : ∀ name, (n.keyVars env).lookup name = (n.keyVars env').lookup name
  artifacts : n.config.includeArtifacts = true → env.artifacts.map artifactValue = env'.artifacts.map artifactValue

/-- The node writes what its effect says and leaves the rest of the envelope alone.
The effect depends on the data that enters the key. -/
structure WritesFrom (n : CacheNode) (wrapped : Node) (effect : Envelope → Except String Written) : Prop where
  keyData : ∀ env env', n.SameKeyData env env' → effect env = effect env'
  ok : ∀ t env w, effect env = .ok w → wrapped.run t env = .ok (some (w.apply env))
  error : ∀ t env err, effect env = .error err → ∃ received, wrapped.run t env = .failed err received

structure Interchangeable (n : CacheNode) (effect : Envelope → Except String Written) (env env' : Envelope) : Prop where
  keyData : n.SameKeyData env env'
  input : env.input = env'.input
  artifacts : env.artifacts = env'.artifacts
  messages : env.messages = env'.messages
  errors : env.errors = env'.errors
  trace : env.trace = env'.trace
  vars : ∀ name, (∀ w, effect env = .ok w → name ∉ w.vars.map Prod.fst) → env.getVar name = env'.getVar name

/-- What the wrapped node returns: its envelope apart from the variable of the cache,
or its error behind the text of the cache node. -/
def Transparent (n : CacheNode) : Outcome → Outcome → Prop
  | .ok result, .ok cached => SameApart n.config.outputVar result cached
  | .failed err _, .failed message _ => message = s!"cache node {n.id}: wrapped node failed: {err}"
  | _, _ => False

def Wraps (n : CacheNode) : Except String (Option Envelope) → Outcome → Prop
  | .ok result, outcome => ∃ r, outcome = .ok (n.storeResult r result)
  | .error err, outcome => ∃ received, outcome = .failed s!"cache node {n.id}: wrapped node failed: {err}" received

def produced (effect : Envelope → Except String Written) (env : Envelope) : Except String (Option Envelope) :=
  (effect env).map fun w => some (w.apply env)

variable {n : CacheNode} {rt : CacheRuntime} {wrapped : Node}
  {effect : Envelope → Except String Written} {t : Nat}
  {env : Envelope} {store : MemoryCacheStore} {seen : List Envelope}

theorem sameApart_storeResult {result cached : Option Envelope} (r : CacheResult) (hsame : SameEnvelope cached result) :
    SameApart n.config.outputVar result (n.storeResult r cached) := by
  unfold storeResult
  cases hsame with
  | none =>
    split
    · exact .none
    · exact .none
  | some input artifacts messages errors trace vars =>
    split
    · exact .some input.symm artifacts.symm messages.symm errors.symm trace.symm fun name _ => (vars name).symm
    · next houtput =>
      refine .some input.symm artifacts.symm messages.symm errors.symm trace.symm fun name hname => ?_
      simp_all [Envelope.getVar_setVar_of_ne]

theorem produced_agree {env' : Envelope} (hwrites : n.WritesFrom wrapped effect)
    (hsame : n.Interchangeable effect env env') :
    memo.Agree SameEnvelope (produced effect env) (produced effect env') := by
  unfold produced
  rw [← hwrites.keyData env env' hsame.keyData]
  cases heffect : effect env with
  | error err => rfl
  | ok w =>
    refine .some ?_ ?_ ?_ ?_ hsame.trace fun name => Written.getVar_apply_congr fun hname => hsame.vars name ?_
    · exact congrArg w.input.getD hsame.input
    · exact congrArg (· ++ w.artifacts) hsame.artifacts
    · exact congrArg (· ++ w.messages) hsame.messages
    · exact congrArg (· ++ w.errors) hsame.errors
    simp_all

/-- The data that enters the key of an envelope, as JSON. -/
def keyJSON (n : CacheNode) (rt : CacheRuntime) (env : Envelope) : Except String String :=
  stableJSONMarshal rt (.map (n.hashData env))

/-- The key of an envelope whose data can be encoded. -/
def keyOf (n : CacheNode) (rt : CacheRuntime) (env : Envelope) : String :=
  n.id ++ ":" ++ rt.sha256 ((n.keyJSON rt env).toOption.getD "")

theorem computeCacheKeyHash_eq (hencodes : (n.keyJSON rt env).isOk = true) :
    n.computeCacheKeyHash rt env = .ok (n.keyOf rt env) := by
  unfold keyOf computeCacheKeyHash computeStableHash
  cases hjson : n.keyJSON rt env with
  | error err =>
    rw [hjson] at hencodes
    cases hencodes
  | ok json =>
    rw [show stableJSONMarshal rt (.map (n.hashData env)) = .ok json from hjson]
    rfl

theorem keyJSON_eq {env' : Envelope} (hdigest : Function.Injective rt.sha256)
    (hencodes : (n.keyJSON rt env).isOk = true) (hencodes' : (n.keyJSON rt env').isOk = true)
    (hkeys : n.keyOf rt env = n.keyOf rt env') : n.keyJSON rt env = n.keyJSON rt env' := by
  unfold keyOf at hkeys
  cases hjson : n.keyJSON rt env with
  | error err =>
    rw [hjson] at hencodes
    cases hencodes
  | ok json =>
    cases hjson' : n.keyJSON rt env' with
    | error err =>
      rw [hjson'] at hencodes'
      cases hencodes'
    | ok json' =>
      rw [hjson, hjson'] at hkeys
      have hsame : rt.sha256 json = rt.sha256 json' := by simpa [Except.toOption] using hkeys
      rw [hdigest hsame]

theorem run_eq_call (hnode : n.config.wrappedNode = some wrapped) (hkey : n.config.cacheKey = "")
    (hwrites : n.WritesFrom wrapped effect) (hencodes : (n.keyJSON rt env).isOk = true) (hfree : rt.Uninterrupted t) :
    let table := (store.get (rt.now t 0) (n.keyOf rt env)).2.results
    let called := memo.call (n.keyOf rt) (produced effect) table env
    n.Wraps called.1 (n.run rt t env store).1 ∧ (n.run rt t env store).2.results = called.2 := by
  have hgenerated : n.generateCacheKey rt env = .ok (n.keyOf rt env) :=
    (if_neg (not_not_intro hkey)).trans (computeCacheKeyHash_eq hencodes)
  have hread : (store.get (rt.now t 0) (n.keyOf rt env)).1 = _ := MemoryCacheStore.get_fst
  unfold run memo.call
  simp only [hfree.ctxErr, hfree.getErr, hgenerated]
  rcases hget : store.get (rt.now t 0) (n.keyOf rt env) with ⟨_ | cached, store'⟩
  · rw [hget] at hread
    simp only [← hread, runWrapped, hnode, produced]
    cases heffect : effect env with
    | error err =>
      obtain ⟨received, hrun⟩ := hwrites.error t env err heffect
      rw [hrun]
      exact ⟨⟨received, rfl⟩, rfl⟩
    | ok w =>
      rw [hwrites.ok t env w heffect]
      simp only [hfree.setErr]
      exact ⟨⟨_, rfl⟩, MemoryCacheStore.results_set _ _⟩
  · rw [hget] at hread
    simp only [← hread]
    exact ⟨⟨_, rfl⟩, trivial⟩

theorem run_interrupted (hinterrupted : ¬rt.Uninterrupted t) {key : String} {result : Option Envelope}
    (hkept : (n.run rt t env store).2.results key = some result) : store.results key = some result := by
  unfold run at hkept
  split at hkept
  · exact hkept
  · next hctx =>
    split at hkept
    · exact hkept
    · next key' hkey =>
      split at hkept
      · exact hkept
      · next hgetErr =>
        have hread : ∀ {key : String}, (store.get (rt.now t 0) key').2.results key = some result →
            store.results key = some result := MemoryCacheStore.results_get
        rcases hget : store.get (rt.now t 0) key' with ⟨_ | cached, store'⟩
        · rw [hget] at hread hkept
          dsimp only [runWrapped] at hkept
          split at hkept
          · exact hread hkept
          · split at hkept
            · exact hread hkept
            · split at hkept
              · exact hread hkept
              · next hsetErr => exact absurd ⟨hctx, hgetErr, hsetErr⟩ hinterrupted
        simp_all

theorem transparent_of_wraps (hwrites : n.WritesFrom wrapped effect) {result : Except String (Option Envelope)}
    {outcome : Outcome} (hwraps : n.Wraps result outcome)
    (hagree : memo.Agree SameEnvelope result (produced effect env)) : n.Transparent (wrapped.run t env) outcome := by
  unfold produced at hagree
  cases heffect : effect env with
  | error err =>
    obtain ⟨received, hrun⟩ := hwrites.error t env err heffect
    rw [heffect] at hagree
    rw [hrun]
    cases result with
    | ok result => exact hagree.elim
    | error err' =>
      obtain ⟨received', houtcome⟩ := hwraps
      rw [houtcome, show err' = err from hagree]
      rfl
  | ok w =>
    rw [heffect] at hagree
    rw [hwrites.ok t env w heffect]
    cases result with
    | error err => exact hagree.elim
    | ok result =>
      obtain ⟨r, houtcome⟩ := hwraps
      rw [houtcome]
      exact sameApart_storeResult r hagree

variable (hstore : memo.Coherent (n.keyOf rt) (produced effect) seen store.results)
include hstore

theorem coherent_get {now : Int} {key : String} :
    memo.Coherent (n.keyOf rt) (produced effect) seen (store.get now key).2.results :=
  fun k result hkept => hstore k result (MemoryCacheStore.results_get hkept)

variable (hnode : n.config.wrappedNode = some wrapped) (hkey : n.config.cacheKey = "")
  (hwrites : n.WritesFrom wrapped effect)
include hnode hkey hwrites

theorem run_coherent (hencodes : (n.keyJSON rt env).isOk = true) :
    memo.Coherent (n.keyOf rt) (produced effect) (seen ++ [env]) (n.run rt t env store).2.results := by
  by_cases hfree : rt.Uninterrupted t
  · rw [(run_eq_call hnode hkey hwrites hencodes hfree).2]
    exact memo.call_coherent (coherent_get hstore)
  · have hkept : memo.Coherent (n.keyOf rt) (produced effect) seen (n.run rt t env store).2.results :=
      fun key result hkept => hstore key result (run_interrupted hfree hkept)
    exact hkept.mono (subset_append_left seen [env])

theorem run_transparent (hencodes : (n.keyJSON rt env).isOk = true)
    (hsame : ∀ old ∈ seen, n.keyOf rt old = n.keyOf rt env → n.Interchangeable effect old env)
    (hfree : rt.Uninterrupted t) : n.Transparent (wrapped.run t env) (n.run rt t env store).1 := by
  apply transparent_of_wraps hwrites (run_eq_call hnode hkey hwrites hencodes hfree).1
  apply memo.call_agrees (coherent_get hstore) SameEnvelope.refl
  intro old hold hkeys
  exact produced_agree hwrites (hsame old hold hkeys)

theorem runs_transparent (calls : List (Nat × Envelope))
    (hencodes : ∀ env ∈ calls.map Prod.snd, (n.keyJSON rt env).isOk = true)
    (hsame : ∀ old ∈ seen ++ calls.map Prod.snd, ∀ env ∈ calls.map Prod.snd,
      n.keyOf rt old = n.keyOf rt env → n.Interchangeable effect old env) :
    Forall₂ (fun call outcome => rt.Uninterrupted call.1 → n.Transparent (wrapped.run call.1 call.2) outcome)
      calls (n.runs rt calls store) := by
  induction calls generalizing seen store with
  | nil => exact .nil
  | cons call rest ih =>
    obtain ⟨hfirst, hrest⟩ := forall_mem_cons.mp hencodes
    refine .cons ?_ (ih (run_coherent hstore hnode hkey hwrites hfirst) hrest ?_)
    · grind [run_transparent]
    grind

omit hstore hnode hkey hwrites

mutual

def plainJSON : Value → String
  | .nil => "null"
  | .bool b => if b then "true" else "false"
  | .str s => "\"" ++ s ++ "\""
  | .num _ q => ToString.toString q.num
  | .list elems => "[" ++ ",".intercalate (plainElems elems) ++ "]"
  | .map _ | .decision _ | .record _ _ => "\x7b\x7d"

def plainElems : List Value → List String
  | [] => []
  | elem :: rest => plainJSON elem :: plainElems rest

end

def plainRuntime : CacheRuntime :=
  { marshal := fun v => .ok (plainJSON v)
    sha256 := fun s => s
    templates := fun _ => .error "unsupported"
    now := fun t i => t + i
    ctxErr := fun _ => none
    getErr := fun _ => none
    setErr := fun _ => none }

def answerEffect (env : Envelope) : Except String Written :=
  match env.getVar "question" with
  | some question => .ok { vars := [("answer", question)] }
  | none => .error "no question"

def answerNode : Node :=
  newFuncNode "answer" fun _ env =>
    match answerEffect env with
    | .ok w => .ok (some (w.apply env))
    | .error err => .failed err env

def answerCache : CacheNode :=
  { id := "cache", config := { inputVars := ["question"], wrappedNode := some answerNode, outputVar := "meta" } }

theorem answerCache_writesFrom : answerCache.WritesFrom answerNode answerEffect where
  keyData := by
    intro env env' hsame
    have hkept : ∀ env, (answerCache.keyVars env).lookup "question" = env.getVar "question" := by
      intro env
      cases hvar : env.getVar "question" <;> simp [keyVars, answerCache, hvar, Vars.set]
    unfold answerEffect
    rw [← hkept, ← hkept, hsame.vars]
  ok := by
    intro t env w heffect
    simp only [answerNode, newFuncNode, heffect]
  error := by simp_all [answerNode, newFuncNode]

def asked (runID user question : String) (messages : List Message) : Envelope :=
  { vars := some [("user", .str user), ("question", .str question)], messages, trace := { runID } }

theorem Interchangeable.refl (env : Envelope) : n.Interchangeable effect env env :=
  ⟨⟨fun _ => rfl, fun _ => rfl, fun _ => rfl⟩, rfl, rfl, rfl, rfl, rfl, fun _ _ => rfl⟩

def sameRun : List (Nat × Envelope) :=
  [(0, asked "run" "alice" "why" []), (1, asked "run" "alice" "why" []), (2, asked "run" "alice" "how" [])]

end CacheNode

end petalflow.nodes
