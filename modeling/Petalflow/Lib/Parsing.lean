import Mathlib.Data.List.Basic

open List

namespace parsing

/-- A parser: a value and the tokens that are left, or an error. -/
abbrev Parser (τ ε α : Type) := List τ → Except ε (α × List τ)

/-- A step of a loop over tokens. It ends the loop, fails, or reads some tokens. -/
abbrev Step (τ ε α : Type) := α → List τ → Option (Except ε (α × List τ))

variable {τ ε α : Type} {step : Step τ ε α} {p operand : Parser τ ε α} {a b : α} {ts rest : List τ}

def repeatFor (step : Step τ ε α) : Nat → α → Parser τ ε α
  | 0, a, ts => .ok (a, ts)
  | n + 1, a, ts =>
    match step a ts with
    | none => .ok (a, ts)
    | some (.error err) => .error err
    | some (.ok (a', ts')) => repeatFor step n a' ts'

/-- Steps until one of them ends the loop. There are at most as many as there are tokens. -/
def loop (step : Step τ ε α) (a : α) : Parser τ ε α := fun ts => repeatFor step ts.length a ts

structure Progress (step : Step τ ε α) : Prop where
  nil : ∀ a, step a [] = none
  shrinks : ∀ a ts a' ts', step a ts = some (.ok (a', ts')) → ts'.length < ts.length

theorem repeatFor_eq (hstep : Progress step) {n m : Nat} (hn : ts.length ≤ n) (hm : ts.length ≤ m) :
    repeatFor step n a ts = repeatFor step m a ts := by
  induction n generalizing m a ts with
  | zero =>
    have hnil : ts = [] := length_eq_zero_iff.mp (by omega)
    subst hnil
    cases m with
    | zero => rfl
    | succ m => simp only [repeatFor, hstep.nil]
  | succ n ih =>
    cases m with
    | zero => grind
    | succ m =>
      unfold repeatFor
      split
      · rfl
      · rfl
      · next hsome =>
        have hless := hstep.shrinks _ _ _ _ hsome
        exact ih (by omega) (by omega)

theorem loop_of_none (hnone : step a ts = none) : loop step a ts = .ok (a, ts) := by
  unfold loop
  cases ts.length with
  | zero => rfl
  | succ n => simp only [repeatFor, hnone]

theorem loop_of_some (hstep : Progress step) (hsome : step a ts = some (.ok (b, rest))) :
    loop step a ts = loop step b rest := by
  have hless := hstep.shrinks _ _ _ _ hsome
  obtain ⟨n, hn⟩ : ∃ n, ts.length = n + 1 := ⟨ts.length - 1, by omega⟩
  grind [loop, repeatFor, repeatFor_eq]

theorem loop_invariant {P : α → List τ → Prop}
    (hkeep : ∀ a ts a' ts', P a ts → step a ts = some (.ok (a', ts')) → P a' ts')
    (hloop : loop step a ts = .ok (b, rest)) (hinit : P a ts) : P b rest := by
  unfold loop at hloop
  generalize ts.length = n at hloop
  induction n generalizing a ts with
  | zero =>
    cases hloop
    exact hinit
  | succ n ih => grind [repeatFor]

inductive Runs (step : Step τ ε α) : α → List τ → α → List τ → Prop where
  | stop (a : α) (ts : List τ) (hnone : step a ts = none) : Runs step a ts a ts
  | next (a b c : α) (ts rest after : List τ) (hsome : step a ts = some (.ok (b, rest)))
      (h : Runs step b rest c after) : Runs step a ts c after

theorem Runs.loop_eq {c : α} {after : List τ} (hstep : Progress step) (h : Runs step a ts c after) :
    loop step a ts = .ok (c, after) := by
  induction h with
  | stop a ts hnone => exact loop_of_none hnone
  | next a b c ts rest after hsome _ ih => rw [loop_of_some hstep hsome, ih]

theorem loop_runs (hstep : Progress step) (hloop : loop step a ts = .ok (b, rest)) : Runs step a ts b rest := by
  unfold loop at hloop
  generalize hn : ts.length = n at hloop
  have hle : ts.length ≤ n := Nat.le_of_eq hn
  clear hn
  induction n generalizing a ts with
  | zero =>
    have hnil : ts = [] := length_eq_zero_iff.mp (Nat.le_zero.mp hle)
    subst hnil
    cases hloop
    exact .stop _ _ (hstep.nil _)
  | succ n ih =>
    unfold repeatFor at hloop
    split at hloop
    · next hnone =>
      cases hloop
      exact .stop _ _ hnone
    · cases hloop
    · next hsome =>
      have hless := hstep.shrinks _ _ _ _ hsome
      exact .next _ _ _ _ _ _ hsome (ih hloop (by omega))

def chainStep (operand : Parser τ ε α) (op? : τ → Option (α → α → α)) : Step τ ε α
  | _, [] => none
  | left, t :: ts => (op? t).map fun f => (operand ts).map fun (right, rest) => (f left right, rest)

def chain (operand : Parser τ ε α) (op? : τ → Option (α → α → α)) : Parser τ ε α :=
  fun ts => (operand ts).bind fun (left, rest) => loop (chainStep operand op?) left rest

variable {op? : τ → Option (α → α → α)} {t : τ} {f : α → α → α} {D D' : List τ → α → Prop}

def Sound (p : Parser τ ε α) (D : List τ → α → Prop) : Prop :=
  ∀ ts a rest, p ts = .ok (a, rest) → ∃ used, ts = used ++ rest ∧ D used a

theorem Sound.length_le (hp : Sound p D) (hparse : p ts = .ok (a, rest)) : rest.length ≤ ts.length := by
  obtain ⟨used, rfl, _⟩ := hp ts a rest hparse
  rw [length_append]
  omega

theorem chainStep_eq_some {left : α} (hstep : chainStep operand op? left ts = some (.ok (b, rest))) :
    ∃ t ts' f right, ts = t :: ts' ∧ op? t = some f ∧ operand ts' = .ok (right, rest) ∧ b = f left right := by
  cases ts with
  | nil => cases hstep
  | cons t ts' =>
    obtain ⟨f, hop, hmap⟩ := Option.map_eq_some_iff.mp hstep
    cases hright : operand ts' with
    | error err =>
      rw [hright] at hmap
      cases hmap
    | ok answer =>
      rw [hright] at hmap
      cases hmap
      exact ⟨t, ts', f, answer.1, rfl, hop, hright, rfl⟩

theorem chainStep_progress (hoperand : Sound operand D) : Progress (chainStep operand op?) := by
  refine ⟨fun _ => rfl, ?_⟩
  intro a ts a' ts' hstep
  obtain ⟨t, tail, f, right, rfl, _, hright, _⟩ := chainStep_eq_some hstep
  have hle := hoperand.length_le hright
  rw [length_cons]
  omega

theorem chain_sound (hoperand : Sound operand D') (hlift : ∀ ts a, D' ts a → D ts a)
    (hop : ∀ ts l t f ts' r, D ts l → op? t = some f → D' ts' r → D (ts ++ t :: ts') (f l r)) :
    Sound (chain operand op?) D := by
  intro ts a rest hchain
  unfold chain at hchain
  cases hfirst : operand ts with
  | error err =>
    rw [hfirst] at hchain
    cases hchain
  | ok answer =>
    obtain ⟨left, after⟩ := answer
    rw [hfirst] at hchain
    obtain ⟨used, hused, hleft⟩ := hoperand ts left after hfirst
    refine loop_invariant (P := fun l r => ∃ used, ts = used ++ r ∧ D used l) ?_ hchain ⟨used, hused, hlift _ _ hleft⟩
    rintro l r l' r' ⟨used, rfl, hl⟩ hstep
    obtain ⟨t, tail, f, right, rfl, hf, hright, rfl⟩ := chainStep_eq_some hstep
    obtain ⟨used', rfl, hr⟩ := hoperand tail right r' hright
    exact ⟨used ++ t :: used', by simp, hop _ _ _ _ _ _ hl hf hr⟩

theorem chain_eq_loop (hfirst : operand ts = .ok (a, rest)) :
    chain operand op? ts = loop (chainStep operand op?) a rest := by
  unfold chain
  rw [hfirst]
  rfl

theorem loop_chainStep (hoperand : Sound operand D) (hop : op? t = some f) (hright : operand ts = .ok (b, rest)) :
    loop (chainStep operand op?) a (t :: ts) = loop (chainStep operand op?) (f a b) rest := by
  refine loop_of_some (chainStep_progress hoperand) ?_
  simp [chainStep, hop, hright, Except.map]

end parsing
