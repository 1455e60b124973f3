import Petalflow.Lib.Machine

open List

namespace program

/-! Programs that call atomic operations of a shared state. Other programs may act
between two calls. -/

/-- A program returns a result, fails, or calls an operation and goes on with its answer. -/
inductive Program (Op : Type) (Res : Op → Type) (ε α : Type) where
  | done (result : α)
  | fail (err : ε)
  | call (op : Op) (next : Res op → Program Op Res ε α)

namespace Program

variable {Op : Type} {Res : Op → Type} {ε α β S G : Type}

def bind : Program Op Res ε α → (α → Program Op Res ε β) → Program Op Res ε β
  | done a, f => f a
  | fail err, _ => fail err
  | call op next, f => call op fun answer => (next answer).bind f

instance : Monad (Program Op Res ε) where
  pure := done
  bind := bind

def perform (op : Op) : Program Op Res ε (Res op) := call op done

def ofExcept : Except ε α → Program Op Res ε α
  | .ok a => done a
  | .error err => fail err

def run (act : (op : Op) → S → Res op × S) : Program Op Res ε α → S → Except ε α × S
  | done a, s => (.ok a, s)
  | fail err, s => (.error err, s)
  | call op next, s => (next (act op s).1).run act (act op s).2

def returned : Program Op Res ε α → Bool
  | done _ => true
  | _ => false

end Program

open Program

/-- A discipline for the calls of a program: which operations may be called, what
answers are to be expected, and what is remembered of them. -/
structure Protocol (Op : Type) (Res : Op → Type) (G : Type) where
  allowed : G → Op → Prop
  answers : G → (op : Op) → Res op → Prop
  next : G → (op : Op) → Res op → G

variable {Op : Type} {Res : Op → Type} {ε α β S G : Type}

/-- The program keeps to the protocol, and a result satisfies the postcondition. -/
def Obeys (protocol : Protocol Op Res G) (post : G → α → Prop) : G → Program Op Res ε α → Prop
  | g, .done a => post g a
  | _, .fail _ => True
  | g, .call op next =>
    protocol.allowed g op ∧
      ∀ answer, protocol.answers g op answer → Obeys protocol post (protocol.next g op answer) (next answer)

variable {protocol : Protocol Op Res G} {post : G → β → Prop} {g : G}

theorem obeys_pure {b : β} (hpost : post g b) : Obeys protocol post g (pure b : Program Op Res ε β) := hpost

variable {f : α → Program Op Res ε β}

theorem obeys_bind {mid : G → α → Prop} {p : Program Op Res ε α} (hp : Obeys protocol mid g p)
    (hf : ∀ g a, mid g a → Obeys protocol post g (f a)) : Obeys protocol post g (p >>= f) := by
  induction p generalizing g with
  | done a => exact hf g a hp
  | fail err => trivial
  | call op next ih => exact ⟨hp.1, fun answer hanswer => ih answer (hp.2 answer hanswer)⟩

theorem obeys_map {f : α → β} {p : Program Op Res ε α} (hp : Obeys protocol (fun g a => post g (f a)) g p) :
    Obeys protocol post g (f <$> p) :=
  obeys_bind hp fun _ _ => obeys_pure

theorem obeys_fail (err : ε) : Obeys protocol post g (.fail err : Program Op Res ε β) := trivial

theorem obeys_perform_bind {op : Op} {f : Res op → Program Op Res ε β} (hallowed : protocol.allowed g op)
    (hf : ∀ answer, protocol.answers g op answer → Obeys protocol post (protocol.next g op answer) (f answer)) :
    Obeys protocol post g (perform op >>= f) :=
  ⟨hallowed, hf⟩

theorem obeys_ofExcept_bind {x : Except ε α} (hok : ∀ a, x = .ok a → Obeys protocol post g (f a)) :
    Obeys protocol post g (ofExcept x >>= f) := by
  cases x with
  | ok a => exact hok a rfl
  | error err => exact obeys_fail err

variable {p : Program Op Res ε β}

theorem Obeys.mono {post' : G → β → Prop} (hp : Obeys protocol post g p) (himp : ∀ g b, post g b → post' g b) :
    Obeys protocol post' g p := by
  induction p generalizing g with
  | done b => exact himp g b hp
  | fail err => trivial
  | call op next ih => exact ⟨hp.1, fun answer hanswer => ih answer (hp.2 answer hanswer)⟩

theorem run_obeys {act : (op : Op) → S → Res op × S} {I : G → S → Prop}
    (hact : ∀ g op s, I g s → protocol.allowed g op → protocol.answers g op (act op s).1 ∧
      I (protocol.next g op (act op s).1) (act op s).2)
    (hp : Obeys protocol post g p) {s : S} (hs : I g s) :
    ∃ g', I g' (p.run act s).2 ∧ ∀ b, (p.run act s).1 = .ok b → post g' b := by
  induction p generalizing g s with
  | done b =>
    refine ⟨g, hs, ?_⟩
    rintro _ ⟨⟩
    exact hp
  | fail err => exact ⟨g, hs, nofun⟩
  | call op next ih =>
    obtain ⟨hanswer, hnext⟩ := hact g op s hs hp.1
    exact ih _ (hp.2 _ hanswer) hnext

variable {act : (op : Op) → S → Res op × S} {s s' : S}

theorem run_bind_eq_ok {p : Program Op Res ε α} {b : β} :
    (p >>= f).run act s = (.ok b, s') ↔ ∃ a mid, p.run act s = (.ok a, mid) ∧ (f a).run act mid = (.ok b, s') := by
  induction p generalizing s with
  | done a =>
    constructor
    · intro hrun
      exact ⟨a, s, rfl, hrun⟩
    · rintro ⟨a', mid, ⟨⟩, hrun⟩
      exact hrun
  | fail err => exact ⟨nofun, nofun⟩
  | call op next ih => exact ih _

theorem run_ofExcept_eq_ok {x : Except ε α} {a : α} :
    (Program.ofExcept x).run act s = (.ok a, s') ↔ x = .ok a ∧ s' = s := by
  cases x with
  | ok a' => simp [Program.ofExcept, Program.run, eq_comm]
  | error err => simp [Program.ofExcept, Program.run]

theorem run_pure_eq_ok {a b : α} : (pure a : Program Op Res ε α).run act s = (.ok b, s') ↔ b = a ∧ s' = s := by
  simp [pure, Program.run, eq_comm]

structure Thread (Op : Type) (Res : Op → Type) (ε α G C : Type) where
  info : C
  ghost : G
  todo : Program Op Res ε α

structure System (Op : Type) (Res : Op → Type) (ε α G C S : Type) where
  shared : S
  threads : List (Thread Op Res ε α G C)

/-- A program is started, or one of them makes its next call. The choice is that of
the environment for this call. -/
inductive Label (C F : Type) where
  | start (info : C)
  | step (i : Nat) (choice : F)

variable {C F : Type}

/-- Calls `op` for a thread. -/
def System.perform (next : G → (op : Op) → Res op → G) (act : F → C → (op : Op) → S → Res op × S)
    (s : System Op Res ε α G C S) (i : Nat) (choice : F) (th : Thread Op Res ε α G C) (op : Op)
    (cont : Res op → Program Op Res ε α) : System Op Res ε α G C S :=
  { shared := (act choice th.info op s.shared).2
    threads := s.threads.set i { th with
      ghost := next th.ghost op (act choice th.info op s.shared).1
      todo := cont (act choice th.info op s.shared).1 } }

/-- Any number of programs that are started at any time and take turns call by call. -/
def interleaved (body : C → Program Op Res ε α) (g : G) (next : G → (op : Op) → Res op → G)
    (act : F → C → (op : Op) → S → Res op × S) (init : S) : machine.Machine (System Op Res ε α G C S) (Label C F) where
  init := { shared := init, threads := [] }
  step
    | .start info, s => some { s with threads := s.threads ++ [{ info, ghost := g, todo := body info }] }
    | .step i choice, s =>
      match s.threads[i]? with
      | none => none
      | some th =>
        match th.todo with
        | .done _ => none
        | .fail _ => none
        | .call op cont => some (s.perform next act i choice th op cont)

variable {body : C → Program Op Res ε α} {next : G → (op : Op) → Res op → G}
  {act : F → C → (op : Op) → S → Res op × S} {init : S} {s s' : System Op Res ε α G C S}

inductive StepCase (body : C → Program Op Res ε α) (g : G) (next : G → (op : Op) → Res op → G)
    (act : F → C → (op : Op) → S → Res op × S) (s : System Op Res ε α G C S) :
    Label C F → System Op Res ε α G C S → Prop where
  | start (info : C) : StepCase body g next act s (.start info)
      { s with threads := s.threads ++ [{ info, ghost := g, todo := body info }] }
  | call {i : Nat} {choice : F} {th : Thread Op Res ε α G C} {op : Op} {cont : Res op → Program Op Res ε α}
      (hthread : s.threads[i]? = some th) (htodo : th.todo = .call op cont) :
      StepCase body g next act s (.step i choice) (s.perform next act i choice th op cont)

theorem step_cases {l : Label C F} (hstep : (interleaved body g next act init).step l s = some s') :
    StepCase body g next act s l s' := by
  cases l with
  | start info =>
    cases hstep
    exact .start info
  | step i choice =>
    simp only [interleaved] at hstep
    split at hstep
    · cases hstep
    · next th hthread =>
      split at hstep
      · cases hstep
      · cases hstep
      · next op cont htodo =>
        cases hstep
        exact .call hthread htodo

/-- The calls that are admitted: `mayCall` says of the next call of a thread whether
this is the time for it. -/
def Admitted (starts : C → Prop) (mayCall : S → C → G → Op → Prop) (s : System Op Res ε α G C S) : Label C F → Prop
  | .start info => starts info
  | .step i _ => ∀ th, s.threads[i]? = some th → ∀ op cont, th.todo = .call op cont →
      mayCall s.shared th.info th.ghost op

structure Good (protocols : C → Protocol Op Res G) (I : S → Prop) (J : S → C → G → Prop)
    (s : System Op Res ε α G C S) : Prop where
  shared : I s.shared
  threads : ∀ th ∈ s.threads, J s.shared th.info th.ghost ∧
    Obeys (protocols th.info) (fun _ _ => True) th.ghost th.todo

theorem interleaved_invariant {protocols : C → Protocol Op Res G} {I : S → Prop} {J : S → C → G → Prop}
    {starts : C → Prop} {mayCall : S → C → G → Op → Prop} (hnext : ∀ c, (protocols c).next = next)
    (hbody : ∀ c, starts c → Obeys (protocols c) (fun _ _ => True) g (body c))
    (hstart : ∀ s c, I s → starts c → J s c g)
    (hact : ∀ s c g op choice, I s → J s c g → (protocols c).allowed g op → mayCall s c g op →
      (protocols c).answers g op (act choice c op s).1 ∧ I (act choice c op s).2 ∧
        J (act choice c op s).2 c (next g op (act choice c op s).1) ∧
        ∀ c' g', J s c' g' → J (act choice c op s).2 c' g')
    (hreach : (interleaved body g next act init).ReachesUnder (Admitted starts mayCall) s s')
    (hgood : Good protocols I J s) : Good protocols I J s' := by
  refine hreach.invariant ?_ hgood
  intro s l s' hs hmay hstep
  cases step_cases hstep with
  | start info =>
    refine ⟨hs.shared, fun th hth => ?_⟩
    obtain hth | hth := mem_append.mp hth
    · exact hs.threads th hth
    · rw [mem_singleton.mp hth]
      exact ⟨hstart s.shared info hs.shared hmay, hbody info hmay⟩
  | @call i choice th op cont hthread htodo =>
    obtain ⟨hJ, hobeys⟩ := hs.threads th (mem_of_getElem? hthread)
    rw [htodo] at hobeys
    obtain ⟨hanswer, hI, hown, hothers⟩ := hact s.shared th.info th.ghost op choice hs.shared hJ hobeys.1
      (hmay th hthread op cont htodo)
    refine ⟨hI, fun th' hth' => ?_⟩
    obtain hold | hnew := mem_or_eq_of_mem_set hth'
    · exact ⟨hothers _ _ (hs.threads th' hold).1, (hs.threads th' hold).2⟩
    · grind [System.perform, Obeys]

attribute [irreducible] Obeys

end program
