import Mathlib.Logic.Relation

open Option Relation

namespace machine

/-- A labelled machine with an executable partial step function. A label fixes
every choice of the scheduler and of the environment, so that `step` is a
function and a schedule can be replayed. -/
structure Machine (S L : Type) where
  init : S
  step : L → S → Option S

namespace Machine

variable {S L : Type} (m : Machine S L)

def StepUnder (P : S → L → Prop) (s s' : S) : Prop := ∃ l, P s l ∧ m.step l s = some s'

def ReachesUnder (P : S → L → Prop) : S → S → Prop := Relation.ReflTransGen (m.StepUnder P)

def Reaches : S → S → Prop := m.ReachesUnder fun _ _ => True

def Reachable (s : S) : Prop := m.Reaches m.init s

/-- Exactly `k` steps, each of them admitted where it is taken. -/
inductive StepsUnder (P : S → L → Prop) : Nat → S → S → Prop where
  | refl (s : S) : StepsUnder P 0 s s
  | tail {k : Nat} {s s' s'' : S} (hsteps : StepsUnder P k s s') (hstep : m.StepUnder P s' s'') :
      StepsUnder P (k + 1) s s''

variable {m} {P : S → L → Prop}

theorem ReachesUnder.refl (s : S) : m.ReachesUnder P s s := ReflTransGen.refl

variable {s s' s'' : S}

theorem ReachesUnder.trans (hleft : m.ReachesUnder P s s') (hright : m.ReachesUnder P s' s'') :
    m.ReachesUnder P s s'' :=
  ReflTransGen.trans hleft hright

variable {l : L}

theorem ReachesUnder.step (hreach : m.ReachesUnder P s s') (hallow : P s' l) (hstep : m.step l s' = some s'') :
    m.ReachesUnder P s s'' :=
  ReflTransGen.tail hreach ⟨l, hallow, hstep⟩

theorem Reaches.step (hreach : m.Reaches s s') (hstep : m.step l s' = some s'') : m.Reaches s s'' :=
  ReachesUnder.step hreach trivial hstep

theorem Reaches.single (hstep : m.step l s = some s') : m.Reaches s s' :=
  Reaches.step (ReachesUnder.refl s) hstep

variable {I : S → Prop}

theorem ReachesUnder.invariant (hreach : m.ReachesUnder P s s')
    (hkeep : ∀ s l s', I s → P s l → m.step l s = some s' → I s') (hinit : I s) : I s' := by
  induction hreach with
  | refl => exact hinit
  | tail _ hstep ih =>
    obtain ⟨l, hallow, hstep⟩ := hstep
    exact hkeep _ l _ ih hallow hstep

theorem Reaches.invariant (hreach : m.Reaches s s') (hkeep : ∀ s l s', I s → m.step l s = some s' → I s')
    (hinit : I s) : I s' :=
  ReachesUnder.invariant hreach (fun s l s' hs _ hstep => hkeep s l s' hs hstep) hinit

theorem ReachesUnder.mono {Q : S → L → Prop} (himp : ∀ s l, P s l → Q s l) (hreach : m.ReachesUnder P s s') :
    m.ReachesUnder Q s s' := by
  induction hreach with
  | refl => exact ReachesUnder.refl s
  | tail _ hstep ih =>
    obtain ⟨l, hallow, hstep⟩ := hstep
    exact ih.step (himp _ l hallow) hstep

theorem ReachesUnder.reaches (hreach : m.ReachesUnder P s s') : m.Reaches s s' :=
  hreach.mono fun _ _ _ => trivial

variable {k : Nat}

theorem StepsUnder.reaches (hsteps : m.StepsUnder P k s s') : m.ReachesUnder P s s' := by
  induction hsteps with
  | refl => exact ReachesUnder.refl _
  | tail _ hstep ih => exact ReflTransGen.tail ih hstep

theorem StepsUnder.le_measure (hsteps : m.StepsUnder P k s s') (μ : S → Nat)
    (hkeep : ∀ s l s', I s → P s l → m.step l s = some s' → I s')
    (hless : ∀ s l s', I s → P s l → m.step l s = some s' → μ s' < μ s) (hinit : I s) : k + μ s' ≤ μ s := by
  induction hsteps with
  | refl => omega
  | tail hsteps hstep ih =>
    obtain ⟨l, hallow, hstep⟩ := hstep
    have hinv := hsteps.reaches.invariant hkeep hinit
    grind

def execUnder (m : Machine S L) (P : S → L → Bool) : List L → S → Option S
  | [], s => some s
  | l :: ls, s => if P s l then (m.step l s).bind (execUnder m P ls) else none

def exec (m : Machine S L) : List L → S → Option S := m.execUnder fun _ _ => true

theorem StepsUnder.head (hstep : m.StepUnder P s s') (hsteps : m.StepsUnder P k s' s'') :
    m.StepsUnder P (k + 1) s s'' := by
  induction hsteps with
  | refl => exact .tail (.refl s) hstep
  | tail _ hlast ih => exact .tail (ih hstep) hlast

variable {P : S → L → Bool}

theorem stepsUnder_of_exec {ls : List L} (hexec : m.execUnder P ls s = some s') :
    m.StepsUnder (fun s l => P s l = true) ls.length s s' := by
  induction ls generalizing s with
  | nil =>
    simp only [execUnder, some.injEq] at hexec
    exact hexec ▸ .refl s
  | cons l ls ih =>
    unfold execUnder at hexec
    split at hexec
    · next hallow =>
      rw [bind_eq_some_iff] at hexec
      obtain ⟨next, hstep, hrest⟩ := hexec
      exact StepsUnder.head ⟨l, hallow, hstep⟩ (ih hrest)
    · cases hexec

theorem exists_stepsUnder_of_exec (ls : List L) (test : S → Bool)
    (hexec : (m.execUnder P ls m.init).any test = true) :
    ∃ s, m.StepsUnder (fun s l => P s l = true) ls.length m.init s ∧ test s = true := by
  grind [any_eq_true, stepsUnder_of_exec]

theorem exists_reachesUnder_of_exec (ls : List L) (test : S → Bool)
    (hexec : (m.execUnder P ls m.init).any test = true) :
    ∃ s, m.ReachesUnder (fun s l => P s l = true) m.init s ∧ test s = true := by
  obtain ⟨s, hsteps, htest⟩ := exists_stepsUnder_of_exec ls test hexec
  exact ⟨s, hsteps.reaches, htest⟩

theorem exists_reachable_of_exec (ls : List L) (test : S → Bool)
    (hexec : (m.exec ls m.init).any test = true) : ∃ s, m.Reachable s ∧ test s = true := by
  obtain ⟨s, hreach, htest⟩ := exists_reachesUnder_of_exec ls test hexec
  exact ⟨s, hreach.reaches, htest⟩

end Machine

/-- A sequential loop: the body either continues with a new state or leaves
with a result, and `fuel` bounds the number of iterations. -/
def runLoop {S R : Type} (body : S → S ⊕ R) : Nat → S → Option R
  | 0, _ => none
  | fuel + 1, s =>
    match body s with
    | .inl s' => runLoop body fuel s'
    | .inr r => some r

def loopMachine {S R : Type} (body : S → S ⊕ R) (init : S) : Machine S Unit :=
  { init, step := fun _ s => (body s).getLeft? }

variable {S R : Type} {body : S → S ⊕ R} {I : S → Prop} {fuel : Nat} {s : S} {r : R}

theorem loopMachine_invariant {init : S}
    (hreach : (loopMachine body init).Reachable s) (hkeep : ∀ s s', I s → body s = .inl s' → I s')
    (hinit : I init) : I s := by
  refine Machine.Reaches.invariant hreach ?_ hinit
  intro s _ s' hs hstep
  exact hkeep s s' hs (Sum.getLeft?_eq_some_iff.mp hstep)

theorem runLoop_mono {more : Nat}
    (hrun : runLoop body fuel s = some r) (hle : fuel ≤ more) : runLoop body more s = some r := by
  induction fuel generalizing s more with
  | zero => simp [runLoop] at hrun
  | succ fuel ih =>
    obtain ⟨more, rfl⟩ : ∃ k, more = k + 1 := ⟨more - 1, by omega⟩
    grind [runLoop]

theorem runLoop_total (body : S → S ⊕ R) {μ : S → Nat} (hkeep : ∀ s s', I s → body s = .inl s' → I s')
    (hless : ∀ s s', I s → body s = .inl s' → μ s' < μ s) (hinit : I s) (hfuel : μ s < fuel) :
    ∃ r, runLoop body fuel s = some r := by
  induction fuel generalizing s with
  | zero => omega
  | succ fuel ih =>
    unfold runLoop
    cases hbody : body s with
    | inr r => exact ⟨r, rfl⟩
    | inl s' => grind

theorem runLoop_result (body : S → S ⊕ R) (post : R → Prop) (hkeep : ∀ s s', I s → body s = .inl s' → I s')
    (hpost : ∀ s r, I s → body s = .inr r → post r) (hinit : I s) (hrun : runLoop body fuel s = some r) : post r := by
  induction fuel generalizing s with
  | zero => simp [runLoop] at hrun
  | succ fuel ih => grind [runLoop]

variable {O : Type}

/-- What is observed in the iterations of a loop, up to the one that leaves it. -/
def loopTrace (body : S → S ⊕ R) (observe : S → Option O) : Nat → S → List O
  | 0, _ => []
  | fuel + 1, s =>
    (observe s).toList ++ match body s with
      | .inl s' => loopTrace body observe fuel s'
      | .inr _ => []

theorem loopTrace_invariant {observe : S → Option O} {I : List O → S → Prop}
    {Q : List O → O → Prop} (hobs : ∀ seen s x, I seen s → observe s = some x → Q seen x)
    (hkeep : ∀ seen s s', I seen s → body s = .inl s' → I (seen ++ (observe s).toList) s')
    {seen : List O} (hinit : I seen s) {before after : List O} {x : O}
    (htrace : loopTrace body observe fuel s = before ++ x :: after) : Q (seen ++ before) x := by
  induction fuel generalizing seen s before with
  | zero => simp [loopTrace] at htrace
  | succ fuel ih =>
    rw [loopTrace] at htrace
    have hlater : ∀ {before}, (match body s with
        | .inl s' => loopTrace body observe fuel s'
        | .inr _ => []) = before ++ x :: after → Q (seen ++ (observe s).toList ++ before) x := by
      intro before hrest
      cases hbody : body s with
      | inl s' => grind
      | inr r => simp [hbody] at hrest
    cases hx : observe s with
    | none => simp_all
    | some y =>
      rw [hx] at htrace hlater
      cases before with
      | nil => grind
      | cons z before => simp_all

/-- A labelled transition system: an abstract machine whose steps need not be
functions of their labels. -/
structure LTS (T K : Type) where
  init : T
  step : T → K → T → Prop

namespace LTS

variable {T K : Type} (a : LTS T K)

def ReachableUnder (Q : T → K → Prop) (t : T) : Prop :=
  Relation.ReflTransGen (fun t t' => ∃ k, Q t k ∧ a.step t k t') a.init t

def Reachable (t : T) : Prop := a.ReachableUnder (fun _ _ => True) t

def Seen : Option K → T → T → Prop
  | none, t, t' => t' = t
  | some k, t, t' => a.step t k t'

variable {a} {Q : T → K → Prop}

theorem ReachableUnder.init (Q : T → K → Prop) : a.ReachableUnder Q a.init := Relation.ReflTransGen.refl

variable {t : T}

theorem ReachableUnder.step {t' : T} {k : K} (hreach : a.ReachableUnder Q t) (hallow : Q t k) (hstep : a.step t k t')
    : a.ReachableUnder Q t' :=
  Relation.ReflTransGen.tail hreach ⟨k, hallow, hstep⟩

variable {I : T → Prop}

theorem ReachableUnder.invariant (hreach : a.ReachableUnder Q t)
    (hkeep : ∀ t k t', I t → Q t k → a.step t k t' → I t') (hinit : I a.init) : I t := by
  induction hreach with
  | refl => exact hinit
  | tail _ hstep ih => grind

theorem Reachable.invariant (hreach : a.Reachable t) (hkeep : ∀ t k t', I t → a.step t k t' → I t') (hinit : I a.init)
    : I t :=
  ReachableUnder.invariant hreach (fun t k t' ht _ hstep => hkeep t k t' ht hstep) hinit

theorem ReachableUnder.mono {Q' : T → K → Prop} (hreach : a.ReachableUnder Q t) (hweaker : ∀ t k, Q t k → Q' t k) :
    a.ReachableUnder Q' t := by
  induction hreach with
  | refl => exact ReachableUnder.init _
  | tail _ hstep ih => grind [ReachableUnder.step]

theorem ReachableUnder.reachable (hreach : a.ReachableUnder Q t) : a.Reachable t :=
  hreach.mono fun _ _ _ => trivial

variable {B : T → Prop}

theorem Reachable.under (hreach : a.Reachable t) (hlast : B t)
    (hback : ∀ t k t', a.Reachable t → a.step t k t' → B t' → B t ∧ Q t k) : a.ReachableUnder Q t := by
  induction hreach with
  | refl => exact ReachableUnder.init Q
  | tail hreach hstep ih => grind [ReachableUnder, Reachable]

theorem Reachable.invariant_back (hreach : a.Reachable t) (hlast : B t) (hback : ∀ t k t', a.step t k t' → B t' → B t)
    (hkeep : ∀ t k t', a.Reachable t → I t → B t' → a.step t k t' → I t') (hinit : I a.init) : I t := by
  induction hreach with
  | refl => exact hinit
  | tail hreach hstep ih =>
    obtain ⟨k, _, hstep⟩ := hstep
    exact hkeep _ k _ hreach (ih (hback _ k _ hstep hlast)) hlast hstep

end LTS

/-- A machine refines a transition system by a view of its states and of its
steps: a step is invisible and leaves the view alone, or it is a step of the
transition system. Both may use an invariant of the machine and that the view is
reachable. -/
structure Refines {S L T K : Type} (m : Machine S L) (a : LTS T K) (view : S → T)
    (act : S → L → Option K) (I : S → Prop) : Prop where
  init : view m.init = a.init
  invariant_init : I m.init
  invariant_step : ∀ s l s', I s → m.step l s = some s' → I s'
  step : ∀ s l s', I s → a.Reachable (view s) → m.step l s = some s' → a.Seen (act s l) (view s) (view s')

variable {S L : Type} {m : Machine S L} {I : S → Prop} {s : S}

theorem Refines.reachableUnder {T K : Type} {a : LTS T K} {view : S → T} {act : S → L → Option K}
    (href : Refines m a view act I) {P : S → L → Prop} {Q : T → K → Prop}
    (hallow : ∀ s l k, P s l → act s l = some k → Q (view s) k) (hreach : m.ReachesUnder P m.init s) :
    a.ReachableUnder Q (view s) := by
  have hboth : I s ∧ a.ReachableUnder Q (view s) := by
    refine hreach.invariant (I := fun s => I s ∧ a.ReachableUnder Q (view s)) ?_
      ⟨href.invariant_init, href.init ▸ LTS.ReachableUnder.init Q⟩
    rintro s l s' ⟨hinv, hview⟩ hP hstep
    refine ⟨href.invariant_step s l s' hinv hstep, ?_⟩
    have hseen := href.step s l s' hinv hview.reachable hstep
    cases hact : act s l with
    | none =>
      rw [hact] at hseen
      exact hseen.symm ▸ hview
    | some k =>
      rw [hact] at hseen
      exact hview.step (hallow s l k hP hact) hseen
  exact hboth.2

theorem Refines.reachable {T K : Type} {a : LTS T K} {view : S → T} {act : S → L → Option K}
    (href : Refines m a view act I) (hreach : m.Reachable s) : a.Reachable (view s) :=
  href.reachableUnder (fun _ _ _ _ _ => trivial) hreach

variable {R O Q : Type}

def Together (rel : S → S → Prop) : S ⊕ R → S ⊕ R → Prop
  | .inl s, .inl t => rel s t
  | .inr _, .inr _ => True
  | _, _ => False

theorem loopTrace_lockstep {body : S → S ⊕ R} {observe : S → Option O} {rel : S → S → Prop} (f : O → Q)
    (hobs : ∀ s t, rel s t → (observe s).map f = (observe t).map f)
    (hbody : ∀ s t, rel s t → Together rel (body s) (body t)) {fuel : Nat} {t : S} (hrel : rel s t) :
    (loopTrace body observe fuel s).map f = (loopTrace body observe fuel t).map f := by
  induction fuel generalizing s t with
  | zero => rfl
  | succ fuel ih =>
    have hfirst : (observe s).toList.map f = (observe t).toList.map f := by
      rw [← Option.toList_map, ← Option.toList_map, hobs s t hrel]
    have hnext := hbody s t hrel
    simp only [loopTrace, List.map_append, hfirst]
    cases hs : body s with
    | inl s' =>
      cases ht : body t with
      | inl t' =>
        rw [hs, ht] at hnext
        exact congrArg _ (ih hnext)
      | inr r =>
        rw [hs, ht] at hnext
        exact hnext.elim
    | inr r => grind [Together]

end machine
