import Petalflow.Registry
import Petalflow.Tool.Secrecy

open List Option
open dict (Dict)
open machine (Machine)
open program (Program)
open text (trimSpace)

namespace petalflow.daemon

open petalflow.tool DaemonToolService
open petalflow.registry

mutual

def hasBytesSpec : FieldSpec → Bool
  | { type, items, properties, .. } => type == "bytes" || hasBytesItems items || hasBytesFields properties

def hasBytesItems : Option FieldSpec → Bool
  | none => false
  | some spec => hasBytesSpec spec

def hasBytesFields : List (String × FieldSpec) → Bool
  | [] => false
  | (_, spec) :: rest => hasBytesSpec spec || hasBytesFields rest

end

def hasBytesSchema (fields : Dict String FieldSpec) : Bool := hasBytesFields fields.entries

def classifyToolActionMode (action : ActionSpec) : String :=
  match action.llmCallable with
  | some true => "function_call"
  | some false => "standalone"
  | none => if hasBytesSchema action.inputs || hasBytesSchema action.outputs then "standalone" else "function_call"

def fieldSpecsToPorts (fields : Dict String FieldSpec) : List PortDef :=
  (fields.entries.insertionSort fun e e' => e.1 ≤ e'.1).map fun e => { name := e.1, type := e.2.type }

def toolActionReference (toolName actionName : String) : String :=
  trimSpace toolName ++ "." ++ trimSpace actionName

def toolNodeType (reg : ToolRegistration) (actionName : String) (action : ActionSpec) : NodeTypeDef :=
  { type := toolActionReference reg.name actionName
    ports := { inputs := fieldSpecsToPorts action.inputs, outputs := fieldSpecsToPorts action.outputs }
    configSchema := .object (some (.fieldSpecs reg.manifest.config.keys))
    isTool := true
    toolMode := classifyToolActionMode action }

def buildToolNodeTypes (regs : List ToolRegistration) : List NodeTypeDef :=
  (regs.insertionSort fun reg reg' => reg.name ≤ reg'.name).flatMap fun reg =>
    (reg.manifest.actions.entries.insertionSort fun e e' => e.1 ≤ e'.1).map fun e => toolNodeType reg e.1 e.2

theorem mem_types_buildToolNodeTypes {regs : List ToolRegistration} {typeName : String} :
    typeName ∈ (buildToolNodeTypes regs).map (·.type) ↔
      ∃ reg ∈ regs, ∃ actionName ∈ reg.manifest.actions.keys, typeName = toolActionReference reg.name actionName := by
  simp only [buildToolNodeTypes, map_flatMap, mem_flatMap, mem_insertionSort, List.map_map, List.mem_map,
    Dict.keys, Function.comp_apply]
  grind [toolNodeType]

theorem dot_mem_toolActionReference (toolName actionName : String) :
    '.' ∈ (toolActionReference toolName actionName).toList := by
  simp [toolActionReference]

/-- A request on its way: it is in the service, it has to list the registrations, or it has
to install what it has listed. -/
inductive Request where
  | serving (rest : Method (Option ToolRegistration))
  | listing
  | installing (regs : List ToolRegistration)
  | returned

structure Server where
  store : Dict String ToolRegistration
  reg : Registry
  dynamicTypes : List String
  requests : List Request

def rowsAct (fail : Option String) (now : Int) (op : StoreOp) (rows : Dict String ToolRegistration) :
    op.Res × Dict String ToolRegistration :=
  actOn Dict.get? (fun rows name reg => reg.elim (rows.erase name) (rows.insert name)) fail now op rows

namespace Server

def list (s : Server) : List ToolRegistration := s.store.entries.map Prod.snd

/-- The part of `syncRegistry` under the lock. -/
def install (s : Server) (regs : List ToolRegistration) : Server :=
  let nodeDefs := buildToolNodeTypes regs
  { s with
    reg := nodeDefs.foldl Registry.register (s.dynamicTypes.foldl Registry.delete s.reg)
    dynamicTypes := nodeDefs.map (·.type) }

/-- A request goes on. The environment chooses whether a store operation fails, and the time. -/
def advance (s : Server) (i : Nat) (fail : Option String) (now : Int) : Request → Option Server
  | .serving (.call op next) =>
    let result := rowsAct fail now op s.store
    some { s with store := result.2, requests := s.requests.set i (.serving (next result.1)) }
  | .serving (.done _) => some { s with requests := s.requests.set i .listing }
  | .serving (.fail _) => some { s with requests := s.requests.set i .returned }
  | .listing =>
    match fail with
    | some _ => some { s with requests := s.requests.set i .returned }
    | none => some { s with requests := s.requests.set i (.installing s.list) }
  | .installing regs => some { s.install regs with requests := s.requests.set i .returned }
  | .returned => none

end Server

/-- The calls whose handlers end with `syncRegistry`. -/
abbrev ToolChange := { call : Call // ∀ name, call ≠ .health name }

inductive Turn where
  | start (t : Nat) (change : ToolChange)
  | step (i : Nat) (fail : Option String) (now : Int)

def newServer (rows : Dict String ToolRegistration) (base : Registry) : Server :=
  let s : Server := { store := rows, reg := base, dynamicTypes := [], requests := [] }
  s.install s.list

def toolRequests (svc : DaemonToolService) (rows : Dict String ToolRegistration) (base : Registry) :
    Machine Server Turn where
  init := newServer rows base
  step
    | .start t change, s => some { s with requests := s.requests ++ [.serving (svc.perform t change.1)] }
    | .step i fail now, s => s.requests[i]?.bind (s.advance i fail now)

def Request.isReturned : Request → Bool
  | .returned => true
  | _ => false

def Request.isInstalling : Request → Bool
  | .installing _ => true
  | _ => false

def Request.changesStore : Request → Bool
  | .serving (.call (.upsert _) _) => true
  | .serving (.call (.delete _) _) => true
  | _ => false

def undisturbed (s : Server) : Turn → Bool
  | .start _ _ => true
  | .step i fail _ =>
    fail.isNone && (s.requests[i]?.all fun req => !req.changesStore || !s.requests.any (·.isInstalling))

variable {α β : Type}

inductive Acknowledges (rows : Dict String ToolRegistration) : Method α → Prop where
  | done (a : α) : Acknowledges rows (.done a)
  | get {name : String} {next : Except String (Option ToolRegistration) → Method α}
      (hnext : Acknowledges rows (next (.ok (rows.get? name)))) : Acknowledges rows (.call (.get name) next)

inductive Reads : Method α → Prop where
  | done (a : α) : Reads (.done a)
  | fail (err : ToolError) : Reads (.fail err)
  | get {name : String} {next : Except String (Option ToolRegistration) → Method α}
      (hnext : ∀ answer, Reads (next answer)) : Reads (.call (.get name) next)

inductive Stores : Method α → Prop where
  | done (a : α) : Stores (.done a)
  | fail (err : ToolError) : Stores (.fail err)
  | get {name : String} {next : Except String (Option ToolRegistration) → Method α}
      (hnext : ∀ answer, Stores (next answer)) : Stores (.call (.get name) next)
  | upsert {reg : ToolRegistration} {next : Option String → Method α} (hnext : ∀ answer, Stores (next answer))
      (hwritten : ∀ rows : Dict String ToolRegistration, rows.get? reg.name ≠ none → Acknowledges rows (next none)) :
      Stores (.call (.upsert reg) next)
  | delete {name : String} {next : Option String → Method α} (hnext : ∀ answer, Stores (next answer))
      (hdeleted : ∀ rows, Acknowledges rows (next none)) : Stores (.call (.delete name) next)

variable {p : Method α} {f : α → Method β}

theorem reads_bind (hp : Reads p) (hf : ∀ a, Reads (f a)) : Reads (p >>= f) := by
  induction hp with
  | done a => exact hf a
  | fail err => exact .fail err
  | get _ ih => exact .get ih

theorem stores_bind (hp : Reads p) (hf : ∀ a, Stores (f a)) : Stores (p >>= f) := by
  induction hp with
  | done a => exact hf a
  | fail err => exact .fail err
  | get _ ih => exact .get ih

theorem Reads.stores (hp : Reads p) : Stores p := by
  induction hp with
  | done a => exact .done a
  | fail err => exact .fail err
  | get _ ih => exact .get ih

variable {rows : Dict String ToolRegistration}

theorem Acknowledges.map (f : α → β) (hp : Acknowledges rows p) : Acknowledges rows (f <$> p) := by
  induction hp with
  | done a => exact .done (f a)
  | get _ ih => exact .get ih

theorem Stores.map (f : α → β) (hp : Stores p) : Stores (f <$> p) := by
  induction hp with
  | done a => exact .done (f a)
  | fail err => exact .fail err
  | get _ ih => exact .get ih
  | upsert _ hwritten ih => exact .upsert ih fun rows hrow => (hwritten rows hrow).map f
  | delete _ hdeleted ih => exact .delete ih fun rows => (hdeleted rows).map f

theorem reads_ofExcept (x : Except ToolError α) : Reads (Program.ofExcept x) := by
  cases x with
  | ok a => exact .done a
  | error err => exact .fail err

theorem reads_mustGetStored (name : String) : Reads (mustGetStored name) := by
  refine .get fun answer => ?_
  match answer with
  | .error err => exact .fail _
  | .ok none => exact .fail _
  | .ok (some reg) => exact .done reg

theorem reads_getMutableRegistration (name : String) : Reads (getMutableRegistration name) := by
  unfold getMutableRegistration
  split
  · exact .fail _
  · exact reads_mustGetStored _

theorem reads_validateRegistrationName (requireUnique : Bool) (reg : ToolRegistration) :
    Reads (validateRegistrationName requireUnique reg) := by
  unfold validateRegistrationName
  dsimp only
  split
  · exact .done _
  · split
    · exact .done _
    · refine .get fun answer => ?_
      match answer with
      | .error err => exact .done _
      | .ok none => exact .done _
      | .ok (some found) => exact .done _

theorem reads_validateNewRegistration (env : ToolEnv) (t : Nat) (allowExistingName : Bool) (reg : ToolRegistration) :
    Reads (validateNewRegistration env t allowExistingName reg) := by
  refine reads_bind (reads_validateRegistrationName _ reg) fun named => ?_
  dsimp only
  split
  · exact .fail _
  · exact .done ()

theorem stores_store (reg : ToolRegistration) : Stores (DaemonToolService.store reg) := by
  refine .upsert ?_ ?_
  · intro answer
    cases answer with
    | some err => exact .fail _
    | none => exact (reads_mustGetStored reg.name).stores
  · intro rows hrow
    obtain ⟨found, hfound⟩ := ne_none_iff_exists'.mp hrow
    refine .get ?_
    rw [hfound]
    exact .done found

theorem stores_delete (name : String) : Stores (DaemonToolService.delete name) := by
  unfold DaemonToolService.delete
  dsimp only
  split
  · exact .fail _
  · refine .get fun answer => ?_
    match answer with
    | .error err => exact .fail _
    | .ok none => exact .fail _
    | .ok (some found) =>
      refine .delete ?_ fun rows => .done ()
      intro answer
      cases answer with
      | some err => exact .fail _
      | none => exact .done ()

theorem stores_validated (env : ToolEnv) (t : Nat) (allowExistingName : Bool)
    (made : Except ToolError ToolRegistration) : Stores (do
      let reg ← Program.ofExcept made
      validateNewRegistration env t allowExistingName reg
      DaemonToolService.store reg) := by
  simp [stores_bind, reads_ofExcept, reads_validateNewRegistration, stores_store]

theorem stores_mutable (name : String) {f : ToolRegistration → Method ToolRegistration} (hf : ∀ reg, Stores (f reg)) :
    Stores (do
      let reg ← getMutableRegistration name
      f reg) :=
  stores_bind (reads_getMutableRegistration name) hf

theorem stores_refreshed (svc : DaemonToolService) (t : Nat) (reg reg' : ToolRegistration) :
    Stores (if reg.origin ≠ .mcp then .fail (.text s!"{errToolNotMCP}: {reg.name}")
      else svc.refreshAndStore t reg') := by
  split
  · exact .fail _
  · exact stores_validated svc.env t true _

theorem stores_perform (svc : DaemonToolService) (t : Nat) (change : ToolChange) : Stores (svc.perform t change.1) := by
  obtain ⟨call, hcall⟩ := change
  cases call with
  | register input =>
    have hregister : Stores (svc.register t input) := stores_validated svc.env t false _
    exact hregister.map some
  | update name input =>
    have hupdate : Stores (svc.update t name input) := stores_mutable name fun _ => stores_validated svc.env t true _
    exact hupdate.map some
  | updateConfig name input =>
    have hupdate : Stores (updateConfig name input) :=
      stores_mutable name fun reg => stores_bind (reads_ofExcept (configUpdated reg input)) stores_store
    exact hupdate.map some
  | health name => exact absurd rfl (hcall name)
  | refresh name =>
    have hrefresh : Stores (svc.refresh t name) := stores_mutable name fun reg => stores_refreshed svc t reg reg
    exact hrefresh.map some
  | updateOverlay name overlayPath =>
    have hupdate : Stores (svc.updateOverlay t name overlayPath) :=
      stores_mutable name fun reg => stores_refreshed svc t reg _
    exact hupdate.map some
  | setEnabled name enabled =>
    have hswitch : Stores (svc.setEnabled t name enabled) := stores_mutable name fun _ => stores_store _
    exact hswitch.map some
  | delete name => exact (stores_delete name).map _

structure Shows (base : Registry) (regs : List ToolRegistration) (s : Server) : Prop where
  dynamicTypes : s.dynamicTypes = (buildToolNodeTypes regs).map (·.type)
  installed : ∀ typeName ∈ s.dynamicTypes, ∃ nodeDef ∈ buildToolNodeTypes regs,
    nodeDef.type = typeName ∧ s.reg.get typeName = some nodeDef
  others : ∀ typeName ∉ s.dynamicTypes, s.reg.get typeName = base.get typeName

theorem get_register_self (r : Registry) (nodeDef : NodeTypeDef) :
    (r.register nodeDef).get nodeDef.type = some nodeDef := by
  simp [Registry.register, Registry.get]

variable {typeName : String} {nodeDefs : List NodeTypeDef}

theorem get_register_of_ne (r : Registry) {nodeDef : NodeTypeDef} (hne : typeName ≠ nodeDef.type) :
    (r.register nodeDef).get typeName = r.get typeName := 
  Dict.get?_insert_of_ne hne _ _

theorem get_foldl_register_of_notMem (hnot : typeName ∉ nodeDefs.map (·.type)) (r : Registry) :
    (nodeDefs.foldl Registry.register r).get typeName = r.get typeName := by
  induction nodeDefs generalizing r with
  | nil => rfl
  | cons nodeDef rest ih => simp_all [get_register_of_ne]

theorem get_foldl_register_of_mem (hmem : typeName ∈ nodeDefs.map (·.type)) (r : Registry) :
    ∃ nodeDef ∈ nodeDefs, nodeDef.type = typeName ∧
      (nodeDefs.foldl Registry.register r).get typeName = some nodeDef := by
  induction nodeDefs generalizing r with
  | nil => cases hmem
  | cons nodeDef rest ih =>
    by_cases hrest : typeName ∈ rest.map (·.type)
    · simp_all
    grind [get_foldl_register_of_notMem, get_register_self]

theorem get_foldl_delete (typeNames : List String) (r : Registry) (typeName : String) :
    (typeNames.foldl Registry.delete r).get typeName = if typeName ∈ typeNames then none else r.get typeName := by
  induction typeNames generalizing r with
  | nil => rfl
  | cons first rest ih =>
    rw [foldl_cons, ih]
    by_cases heq : typeName = first
    · subst heq
      simp [Registry.delete, Registry.get]
    · have hget : (r.delete first).get typeName = r.get typeName := Dict.get?_erase_of_ne heq r.types
      simp [hget, heq]

variable {base : Registry} {regs : List ToolRegistration} {s s' : Server}

theorem Shows.dot_mem (hshows : Shows base regs s) (hmem : typeName ∈ s.dynamicTypes) : '.' ∈ typeName.toList := by
  rw [hshows.dynamicTypes, mem_types_buildToolNodeTypes] at hmem
  grind [dot_mem_toolActionReference]

theorem Shows.install (hbase : ∀ typeName, (base.get typeName).isSome → '.' ∉ typeName.toList)
    (hshows : Shows base regs s) (regs' : List ToolRegistration) : Shows base regs' (s.install regs') := by
  refine ⟨rfl, fun typeName hmem => get_foldl_register_of_mem hmem _, ?_⟩
  intro typeName hnot
  have hunregistered := get_foldl_register_of_notMem hnot (s.dynamicTypes.foldl Registry.delete s.reg)
  refine hunregistered.trans ?_
  rw [get_foldl_delete]
  split
  · next hmem =>
    have hnone : ¬ (base.get typeName).isSome := fun hsome => hbase typeName hsome (hshows.dot_mem hmem)
    simp_all
  · next hother => exact hshows.others typeName hother

def Owes (rows : Dict String ToolRegistration) : Request → Prop
  | .serving rest => Acknowledges rows rest
  | .listing => True
  | .installing _ => True
  | .returned => False

/-- What holds of a request on its way: it acknowledges its writes, and what it has listed
is what is stored. -/
def Sound (s : Server) : Request → Prop
  | .serving rest => Stores rest
  | .installing regs => regs = s.list
  | _ => True

structure Following (base : Registry) (s : Server) : Prop where
  sound : ∀ req ∈ s.requests, Sound s req
  shown : ∃ regs, Shows base regs s
  followed : Shows base s.list s ∨ ∃ (i : Nat) (req : Request), s.requests[i]? = some req ∧ Owes s.store req

variable {i : Nat} {req req' : Request} (hfollowing : Following base s)
include hfollowing

theorem Following.set (hreq : s.requests[i]? = some req) (hsound : Sound s req')
    (howes : Owes s.store req → Owes s.store req') : Following base { s with requests := s.requests.set i req' } := by
  refine ⟨?_, ?_, ?_⟩
  · intro other hother
    obtain hold | rfl := mem_or_eq_of_mem_set hother
    · exact hfollowing.sound other hold
    · exact hsound
  · obtain ⟨regs, hshows⟩ := hfollowing.shown
    exact ⟨regs, { hshows with }⟩
  · obtain hshows | ⟨j, other, hother, howed⟩ := hfollowing.followed
    · exact .inl { hshows with }
    · right
      by_cases hij : i = j
      · grind [getElem?_set_self]
      · refine ⟨j, other, ?_, howed⟩
        simp_all

theorem Following.write (hlength : i < s.requests.length) (hnone : s.requests.any (·.isInstalling) = false)
    {rest : Method (Option ToolRegistration)} (hstores : Stores rest)
    (howes : Acknowledges rows rest) :
    Following base { s with store := rows, requests := s.requests.set i (.serving rest) } := by
  refine ⟨?_, ?_, .inr ⟨i, .serving rest, getElem?_set_self hlength, howes⟩⟩
  · intro other hother
    obtain hold | rfl := mem_or_eq_of_mem_set hother
    · have hkept := hfollowing.sound other hold
      cases other with
      | serving rest' => exact hkept
      | listing | returned => trivial
      | installing regs =>
        have hinstalling := List.any_eq_false.mp hnone _ hold
        exact absurd rfl hinstalling
    · exact hstores
  · obtain ⟨regs, hshows⟩ := hfollowing.shown
    exact ⟨regs, { hshows with }⟩

variable (hbase : ∀ typeName, (base.get typeName).isSome → '.' ∉ typeName.toList)
include hbase

theorem Following.install : Following base { s.install s.list with requests := s.requests.set i .returned } := by
  obtain ⟨regs, hshows⟩ := hfollowing.shown
  have hinstalled := hshows.install hbase s.list
  have hshown : Shows base s.list { s.install s.list with requests := s.requests.set i .returned } :=
    { hinstalled with }
  refine ⟨?_, ⟨s.list, hshown⟩, .inl hshown⟩
  intro other hother
  obtain hold | rfl := mem_or_eq_of_mem_set hother
  · exact hfollowing.sound other hold
  · trivial

theorem Following.advance (hreq : s.requests[i]? = some req)
    (hquiet : req.changesStore = true → s.requests.any (·.isInstalling) = false) {now : Int}
    (hstep : s.advance i none now req = some s') : Following base s' := by
  have hsound := hfollowing.sound req (List.mem_of_getElem? hreq)
  have hlength : i < s.requests.length := (List.getElem?_eq_some_iff.mp hreq).1
  cases req with
  | serving rest =>
    cases rest with
    | done result =>
      cases hstep
      exact hfollowing.set hreq trivial fun _ => trivial
    | fail err =>
      cases hstep
      exact hfollowing.set hreq trivial nofun
    | call op next =>
      cases hsound with
      | get hnext =>
        cases hstep
        refine hfollowing.set hreq (hnext _) ?_
        rintro ⟨⟩
        assumption
      | @upsert reg _ hnext hwritten =>
        simp only [Server.advance, rowsAct, actOn] at hstep
        split at hstep
        · cases hstep
          exact hfollowing.set hreq (hnext _) (by rintro ⟨⟩)
        · cases hstep
          apply hfollowing.write hlength (hquiet rfl) (hnext none)
          apply hwritten
          simp
      | delete hnext hdeleted =>
        cases hstep
        exact hfollowing.write hlength (hquiet rfl) (hnext none) (hdeleted _)
  | listing =>
    cases hstep
    exact hfollowing.set hreq rfl fun _ => trivial
  | installing regs =>
    cases hstep
    obtain rfl : regs = s.list := hsound
    exact hfollowing.install hbase
  | returned => cases hstep

omit hfollowing

theorem following_init (rows : Dict String ToolRegistration) : Following base (newServer rows base) := by
  have hempty : Shows base [] { store := rows, reg := base, dynamicTypes := [], requests := [] } :=
    ⟨rfl, nofun, fun _ _ => rfl⟩
  have hshows := hempty.install hbase (rows.entries.map Prod.snd)
  exact ⟨nofun, ⟨_, hshows⟩, .inl hshows⟩

omit hbase

/-- Once all requests have returned, the node types of tools are the actions of the stored
registrations, and the other node types are as they were. -/
theorem catalog_follows_store (svc : DaemonToolService) (rows : Dict String ToolRegistration) (base : Registry)
    (hbase : ∀ typeName, (base.get typeName).isSome → '.' ∉ typeName.toList) (s : Server)
    (hreach : (toolRequests svc rows base).ReachesUnder (fun s turn => undisturbed s turn = true)
      (newServer rows base) s)
    (hreturned : ∀ req ∈ s.requests, req.isReturned = true) :
    (∀ typeName, typeName ∈ s.dynamicTypes ↔ ∃ name reg actionName, s.store.get? name = some reg ∧
      actionName ∈ reg.manifest.actions.keys ∧ typeName = toolActionReference reg.name actionName) ∧
    (∀ typeName ∈ s.dynamicTypes, ∃ nodeDef ∈ buildToolNodeTypes s.list,
      nodeDef.type = typeName ∧ s.reg.get typeName = some nodeDef) ∧
    (∀ typeName ∉ s.dynamicTypes, s.reg.get typeName = base.get typeName) ∧
    ∀ typeName, (base.get typeName).isSome → s.reg.get typeName = base.get typeName := by
  have hfollowing : Following base s := by
    refine hreach.invariant ?_ (following_init hbase rows)
    intro s turn s' hfollowing hundisturbed hstep
    cases turn with
    | start t change =>
      cases hstep
      refine ⟨?_, ?_, ?_⟩
      · intro req hreq
        obtain hold | hnew := List.mem_append.mp hreq
        · exact hfollowing.sound req hold
        · rw [List.mem_singleton.mp hnew]
          exact stores_perform svc t change
      · obtain ⟨regs, hshows⟩ := hfollowing.shown
        exact ⟨regs, { hshows with }⟩
      · obtain hshows | ⟨i, req, hreq, howes⟩ := hfollowing.followed
        · exact .inl { hshows with }
        · exact .inr ⟨i, req, List.getElem?_append_left (List.getElem?_eq_some_iff.mp hreq).1 ▸ hreq, howes⟩
    | step i fail now =>
      obtain ⟨req, hreq, hadvance⟩ := Option.bind_eq_some_iff.mp hstep
      simp only [undisturbed, hreq, Option.all_some, Bool.and_eq_true, Option.isNone_iff_eq_none] at hundisturbed
      obtain ⟨rfl, hquiet⟩ := hundisturbed
      refine hfollowing.advance hbase hreq ?_ hadvance
      grind
  have hshows : Shows base s.list s := by
    obtain hshows | ⟨i, req, hreq, howes⟩ := hfollowing.followed
    · exact hshows
    · have hback := hreturned req (List.mem_of_getElem? hreq)
      cases req with
      | returned => exact howes.elim
      | serving rest | listing | installing regs => cases hback
  refine ⟨?_, hshows.installed, hshows.others, ?_⟩
  · intro typeName
    rw [hshows.dynamicTypes, mem_types_buildToolNodeTypes]
    constructor
    · rintro ⟨reg, hreg, actionName, haction, rfl⟩
      obtain ⟨e, he, rfl⟩ := List.mem_map.mp hreg
      exact ⟨e.1, e.2, actionName, Dict.get?_eq_some_iff.mpr he, haction, rfl⟩
    · rintro ⟨name, reg, actionName, hreg, haction, rfl⟩
      exact ⟨reg, List.mem_map_of_mem (Dict.get?_eq_some_iff.mp hreg), actionName, haction, rfl⟩
  · intro typeName hsome
    exact hshows.others typeName fun hmem => hbase typeName hsome (hshows.dot_mem hmem)

def crmRequests (base : Registry) : Machine Server Turn :=
  toolRequests (newDaemonToolService crmServer) .empty base

def registerCrmTurn : Turn := .start 0 ⟨registerCrm "crm.yaml", nofun⟩

def deleteCrmTurn : Turn := .start 1 ⟨.delete "crm", nofun⟩

def turns (i count : Nat) : List Turn := List.replicate count (.step i none 0)

/-- The deletion waits with its write until the registration has installed its listing. -/
theorem catalog_follows_store_crm :
    ∃ s, (crmRequests global).Reaches (newServer .empty global) s ∧
      s.requests.map (·.isReturned) = [true, true] ∧ s.dynamicTypes = [] ∧
      ∀ typeName, (global.get typeName).isSome → s.reg.get typeName = global.get typeName := by
  obtain ⟨s, hreach, htest⟩ := machine.Machine.exists_reachesUnder_of_exec (m := crmRequests global) (P := undisturbed)
    ([registerCrmTurn, deleteCrmTurn] ++ turns 0 5 ++ turns 1 1 ++ turns 0 1 ++ turns 1 4)
    (fun s => s.requests.map (·.isReturned) = [true, true] ∧ s.dynamicTypes = []) (by decide +kernel)
  obtain ⟨hreturned, htypes⟩ := of_decide_eq_true htest
  have hbase : ∀ typeName, (global.get typeName).isSome → '.' ∉ typeName.toList := by
    intro typeName hsome
    have hkeys : ∀ key ∈ global.types.keys, '.' ∉ key.toList := by decide +kernel
    exact hkeys typeName (Dict.mem_keys_iff.mpr (isSome_iff_exists.mp hsome))
  have hall : ∀ req ∈ s.requests, req.isReturned = true := by
    intro req hreq
    have hmem := List.mem_map_of_mem (f := (·.isReturned)) hreq
    rw [hreturned] at hmem
    simpa using hmem
  have hfollows := catalog_follows_store (newDaemonToolService crmServer) .empty global hbase s hreach hall
  exact ⟨s, hreach.reaches, hreturned, htypes, hfollows.2.2.2⟩

/-- A listing from before a deletion is installed after it, and an install removes a node
type that was registered under the name of an action. -/
theorem catalog_shows_deleted_tool :
    ((crmRequests global).exec
      ([registerCrmTurn, deleteCrmTurn] ++ turns 0 5 ++ turns 1 5 ++ turns 0 1) (crmRequests global).init).any
      (fun s => s.requests.map (·.isReturned) = [true, true] ∧ s.store.keys = [] ∧
        s.dynamicTypes = ["crm.find_contact"] ∧ (s.reg.get "crm.find_contact").isSome) = true ∧
    let base := global.register (nodeType "crm.find_contact" "any" [])
    ((crmRequests base).exec ([registerCrmTurn] ++ turns 0 6 ++ [deleteCrmTurn] ++ turns 1 5)
      (crmRequests base).init).any
      (fun s => s.requests.map (·.isReturned) = [true, true] ∧ (base.get "crm.find_contact").isSome ∧
        (s.reg.get "crm.find_contact").isNone) = true := by
  decide +kernel

end petalflow.daemon
