import Mathlib.Data.List.Basic

open List

namespace fold

/-! Computations that may fail, and loops of them over a list. -/

variable {σ ε α : Type} {β : Type} {x : Except ε α}

theorem bind_eq_ok {f : α → Except ε β} {b : β} : x >>= f = .ok b ↔ ∃ a, x = .ok a ∧ f a = .ok b := by
  cases x with
  | error e | ok a => simp [bind, Except.bind]

variable {a : α}

theorem ite_error_eq_ok {p : Prop} [Decidable p] {e : ε} : (if p then .error e else x) = .ok a ↔ ¬ p ∧ x = .ok a := by
  by_cases hp : p <;> simp [hp]

theorem toOption_eq_some : x.toOption = some a ↔ x = .ok a := by
  cases x <;> simp [Except.toOption]

theorem mapError_eq_ok {ε' : Type} {f : ε → ε'} : x.mapError f = .ok a ↔ x = .ok a := by
  cases x with
  | error e | ok a => simp [Except.mapError]

theorem map_eq_ok {f : α → β} {b : β} : x.map f = .ok b ↔ ∃ a, x = .ok a ∧ f a = b := by
  cases x with
  | error e | ok a => simp [Except.map]

variable {P : List α → σ → Prop} {op : σ → α → Except ε σ} {items : List α} {s : σ}

theorem foldlM_induction (hop : ∀ seen s, ∀ a ∈ items, ∀ s', P seen s → op s a = .ok s' → P (seen ++ [a]) s') {s' : σ}
    (hinit : P [] s) (hfold : items.foldlM op s = .ok s') : P items s' := by
  suffices hgoal : ∀ seen todo s, (∀ a ∈ todo, a ∈ items) → P seen s → todo.foldlM op s = .ok s' →
      P (seen ++ todo) s' by
    simpa using hgoal [] items s (fun _ ha => ha) hinit hfold
  intro seen todo
  induction todo generalizing seen with
  | nil =>
    intro s _ hs hfold
    cases hfold
    simpa using hs
  | cons a rest ih =>
    intro s hmem hs hfold
    rw [foldlM_cons, bind_eq_ok] at hfold
    obtain ⟨next, hstep, hfold⟩ := hfold
    have hnext := hop seen s a (hmem a mem_cons_self) next hs hstep
    have hrest := ih (seen ++ [a]) next (fun b hb => hmem b (mem_cons_of_mem a hb)) hnext hfold
    rwa [append_assoc] at hrest

theorem foldlM_total {P : σ → Prop} (hop : ∀ s, ∀ a ∈ items, P s → ∃ s', op s a = .ok s' ∧ P s') (hinit : P s) :
    ∃ s', items.foldlM op s = .ok s' := by
  induction items generalizing s with
  | nil => exact ⟨s, rfl⟩
  | cons a rest ih =>
    obtain ⟨next, hstep, hnext⟩ := hop s a mem_cons_self hinit
    obtain ⟨last, hlast⟩ := ih (fun s b hb => hop s b (mem_cons_of_mem a hb)) hnext
    refine ⟨last, ?_⟩
    rw [foldlM_cons, hstep]
    exact hlast

theorem foldlM_exists
    (hop : ∀ seen a rest, items = seen ++ a :: rest → ∀ s, P seen s → ∃ s', op s a = .ok s' ∧ P (seen ++ [a]) s')
    (hinit : P [] s) : ∃ s', items.foldlM op s = .ok s' ∧ P items s' := by
  suffices hgoal : ∀ seen todo s, items = seen ++ todo → P seen s →
      ∃ s', todo.foldlM op s = .ok s' ∧ P items s' by
    exact hgoal [] items s rfl hinit
  intro seen todo
  induction todo generalizing seen with
  | nil =>
    intro s hitems hs
    rw [append_nil] at hitems
    exact ⟨s, rfl, hitems ▸ hs⟩
  | cons a rest ih =>
    intro s hitems hs
    obtain ⟨next, hstep, hnext⟩ := hop seen a rest hitems s hs
    obtain ⟨last, hlast, hall⟩ := ih (seen ++ [a]) next (by simpa using hitems) hnext
    refine ⟨last, ?_, hall⟩
    rw [foldlM_cons, hstep]
    exact hlast

variable {op : σ → α → σ}

theorem foldl_induction (hop : ∀ seen s, ∀ a ∈ items, P seen s → P (seen ++ [a]) (op s a))
    (hinit : P [] s) : P items (items.foldl op s) := by
  have hfold : items.foldlM (fun s a => (pure (op s a) : Except Unit σ)) s = .ok (items.foldl op s) :=
    foldlM_pure
  refine foldlM_induction (fun seen s a ha s' hs hpass => ?_) hinit hfold
  cases hpass
  exact hop seen s a ha hs

theorem flatMap_ite (p : α → Prop) [DecidablePred p] (f : α → β) (l : List α) :
    l.flatMap (fun a => if p a then [f a] else []) = (l.filter p).map f := by
  induction l with
  | nil => rfl
  | cons a rest ih => grind

theorem foldl_made {D : List β → σ → Prop} {f : α → List β}
    (hop : ∀ l s, ∀ a ∈ items, D l s → D (l ++ f a) (op s a)) {l : List β} (hs : D l s) :
    D (l ++ items.flatMap f) (items.foldl op s) := by
  refine foldl_induction (P := fun seen s => D (l ++ seen.flatMap f) s) ?_ (by simpa using hs)
  grind

end fold
