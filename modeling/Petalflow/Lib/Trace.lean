import Mathlib.Data.Finset.Card

open List Finset

namespace trace

/-! Histories that only grow at their end. -/

variable {α : Type}

theorem inits_concat (l : List α) (a : α) : (l ++ [a]).inits = l.inits ++ [l ++ [a]] := by
  rw [inits_append]
  rfl

theorem countP_inits (l : List α) (k i : Nat) :
    (l.inits.drop k).countP (fun p => decide (i < p.length)) = l.length + 1 - max k (i + 1) := by
  induction l using reverseRecOn with
  | nil =>
    cases k with
    | zero | succ k => simp
  | append_singleton l a ih =>
    rw [inits_concat, drop_append, countP_append, ih, length_inits, length_append, length_singleton]
    by_cases hk : k ≤ l.length + 1
    · rw [Nat.sub_eq_zero_of_le hk, drop_zero, countP_cons, countP_nil]
      grind
    · rw [drop_eq_nil_of_le (by simp; omega), countP_nil]
      omega

def Preceded (R : List α → α → Prop) (l : List α) : Prop := ∀ before a, before ++ [a] <+: l → R before a

variable {R : List α → α → Prop} {l : List α}

theorem Preceded.nil : Preceded R [] := by
  intro before a hinitial
  simp at hinitial

variable {a : α}

theorem Preceded.concat (hl : Preceded R l) (ha : R l a) : Preceded R (l ++ [a]) := by
  intro before b hinitial
  rcases prefix_concat_iff.mp hinitial with heq | hinitial
  · simp_all
  · exact hl before b hinitial

theorem Preceded.append (hl : Preceded R l) {new : List α} (hnew : ∀ before, ∀ a ∈ new, R before a) :
    Preceded R (l ++ new) := by
  induction new using reverseRecOn with
  | nil =>
    rw [append_nil]
    exact hl
  | append_singleton new a ih => grind [Preceded.concat]

def positions (p : α → Bool) (l : List α) : Finset Nat := (Finset.range l.length).filter fun i => l[i]?.any p

theorem mem_positions {p : α → Bool} {i : Nat} : i ∈ positions p l ↔ ∃ a, l[i]? = some a ∧ p a = true := by
  grind [positions]

theorem positions_concat (p : α → Bool) (l : List α) (a : α) :
    positions p (l ++ [a]) = if p a then insert l.length (positions p l) else positions p l := by
  ext i
  rw [mem_positions]
  rcases lt_trichotomy i l.length with hlt | rfl | hgt
  · grind [mem_positions]
  · grind [positions]
  · grind [positions]

theorem card_positions (p : α → Bool) (l : List α) : (positions p l).card = l.countP p := by
  induction l using reverseRecOn with
  | nil => rfl
  | append_singleton l a ih => grind [positions_concat, positions]

/-- No part of the history up to some point has more closing entries than opening ones. -/
def Ballot (opens closes : α → Bool) (l : List α) : Prop :=
  ∀ before, before <+: l → before.countP closes ≤ before.countP opens

variable {opens closes : α → Bool}

theorem Ballot.nil : Ballot opens closes [] := by
  intro before hinitial
  simp_all

theorem Ballot.concat (hl : Ballot opens closes l) (hcount : (l ++ [a]).countP closes ≤ (l ++ [a]).countP opens) :
    Ballot opens closes (l ++ [a]) := by
  intro before hinitial
  rcases prefix_concat_iff.mp hinitial with rfl | hinitial
  · exact hcount
  · exact hl before hinitial

theorem Ballot.append_neutral (hl : Ballot opens closes l) {new : List α} (hnew : ∀ a ∈ new, closes a = false) :
    Ballot opens closes (l ++ new) := by
  induction new using reverseRecOn with
  | nil =>
    rw [append_nil]
    exact hl
  | append_singleton new a ih =>
    have hkept := ih fun b hb => hnew b (mem_append_left _ hb)
    rw [← append_assoc]
    apply hkept.concat
    have hle := hkept _ (prefix_refl _)
    grind

theorem Ballot.exists_pairing (hl : Ballot opens closes l) (hdisj : ∀ a, closes a = true → opens a = false) :
    ∃ pair : Nat → Nat, (∀ i ∈ positions closes l, pair i < i ∧ pair i ∈ positions opens l) ∧
      Set.InjOn pair (positions closes l) := by
  induction l using reverseRecOn with
  | nil => exact ⟨id, by simp [positions], by simp [positions]⟩
  | append_singleton l a ih =>
    obtain ⟨pair, hpair, hinj⟩ := ih fun before hinitial => hl before (hinitial.trans (prefix_append _ _))
    by_cases ha : closes a = true
    · -- the earlier closing entries use fewer opening ones than there are
      have hcount := hl _ (prefix_refl _)
      rw [countP_append, countP_append, countP_singleton, countP_singleton, ha, hdisj a ha,
        ← card_positions, ← card_positions] at hcount
      simp only [if_true, Bool.false_eq_true, if_false] at hcount
      have hcard : ((positions closes l).image pair).card < (positions opens l).card :=
        lt_of_le_of_lt card_image_le (by omega)
      obtain ⟨j, hj, hunused⟩ := exists_mem_notMem_of_card_lt_card hcard
      have hnew : l.length ∉ positions closes l := by simp [positions]
      have hold : ∀ i ∈ positions closes l, i ≠ l.length := fun i hi heq => hnew (heq ▸ hi)
      rw [positions_concat, if_pos ha, positions_concat, hdisj a ha, if_neg Bool.false_ne_true]
      refine ⟨Function.update pair l.length j, ?_, ?_⟩
      · grind [positions]
      · intro i hi i' hi' heq
        rcases mem_insert.mp hi with rfl | hi <;> rcases mem_insert.mp hi' with rfl | hi'
        · rfl
        · grind
        · grind
        · rw [Function.update_of_ne (hold i hi), Function.update_of_ne (hold i' hi')] at heq
          exact hinj hi hi' heq
    · rw [positions_concat, if_neg ha]
      grind [positions]

def window (start stop : Nat) (l : List α) : List α := (l.take stop).drop start

variable {start stop : Nat}

theorem window_concat (hle : start ≤ stop) (ha : l[stop]? = some a) :
    window start (stop + 1) l = window start stop l ++ [a] := by
  grind [window, take_add_one]

theorem window_eq_nil_iff : window start stop l = [] ↔ min stop l.length ≤ start := by
  rw [window, drop_eq_nil_iff, length_take]

theorem window_eq_cons {rest : List α} (hwindow : window start stop l = a :: rest) :
    l[start]? = some a ∧ start < stop ∧ rest = window (start + 1) stop l := by
  grind [drop_eq_nil_of_le, drop_eq_getElem_cons, window]

theorem mem_window (ha : a ∈ window start stop l) : ∃ i, start ≤ i ∧ i < stop ∧ l[i]? = some a := by
  obtain ⟨i, hi⟩ := mem_iff_getElem?.mp ha
  grind [window]

def Runs {S : Type} (step : α → S → S → Prop) : List α → S → S → Prop
  | [], s, s' => s = s'
  | a :: l, s, s' => ∃ mid, step a s mid ∧ Runs step l mid s'

variable {S : Type} {step : α → S → S → Prop} {l' : List α} {s s' : S}

theorem runs_append : Runs step (l ++ l') s s' ↔ ∃ mid, Runs step l s mid ∧ Runs step l' mid s' := by
  induction l generalizing s with
  | nil => exact ⟨fun hruns => ⟨s, rfl, hruns⟩, fun ⟨_, heq, hruns⟩ => heq ▸ hruns⟩
  | cons a l ih => grind [Runs]

theorem Runs.concat {s'' : S} (hl : Runs step l s s') (ha : step a s' s'') : Runs step (l ++ [a]) s s'' :=
  runs_append.mpr ⟨s', hl, s'', ha, rfl⟩

theorem Runs.exists_leaving {P : S → Prop} (hruns : Runs step l s s') (hs : P s) (hs' : ¬P s') :
    ∃ a ∈ l, ∃ t t', step a t t' ∧ P t ∧ ¬P t' := by
  induction l generalizing s with
  | nil =>
    cases hruns
    exact absurd hs hs'
  | cons a l ih =>
    obtain ⟨mid, hstep, hrest⟩ := hruns
    grind

end trace
