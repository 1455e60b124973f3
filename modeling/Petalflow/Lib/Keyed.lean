import Mathlib.Algebra.BigOperators.Group.Finset.Piecewise

open List

namespace keyed

/-! Lists whose elements have keys, taken apart by their keys. -/

variable {α β γ : Type} [DecidableEq β] {key : α → β}

def group (key : α → β) (l : List α) (k : β) : List α := l.filter fun a => key a = k

variable {l : List α} {k : β} {keys : List β} {a : α}

@[simp] theorem mem_group : a ∈ group key l k ↔ a ∈ l ∧ key a = k := by
  simp [group]

theorem group_cons_self (a : α) (l : List α) : group key (a :: l) (key a) = a :: group key l (key a) := by
  simp [group]

theorem group_cons_of_ne (hne : key a ≠ k) (l : List α) : group key (a :: l) k = group key l k := by
  simp [group, hne]

theorem group_eq_nil (hnone : ∀ a ∈ l, key a ≠ k) : group key l k = [] := by
  simpa [group, filter_eq_nil_iff] using hnone

theorem countP_mem_eq_sum (l : List α) (key : α → β) (keys : Finset β) :
    l.countP (fun a => key a ∈ keys) = ∑ k ∈ keys, l.countP (fun a => key a = k) := by
  induction l with
  | nil => simp
  | cons a rest ih => simp [countP_cons, ih, Finset.sum_add_distrib]

theorem perm_flatMap_group (key : α → β) (hnodup : keys.Nodup) (hkeys : ∀ a ∈ l, key a ∈ keys) :
    l.Perm (keys.flatMap (group key l)) := by
  induction keys generalizing l with
  | nil =>
    have hnil : l = [] := eq_nil_iff_forall_not_mem.mpr fun a ha => absurd (hkeys a ha) not_mem_nil
    rw [hnil]
    exact .nil
  | cons k keys ih =>
    obtain ⟨hfresh, hnodup⟩ := nodup_cons.mp hnodup
    -- the elements of the other keys make up the remaining groups
    have hothers : ∀ a ∈ l.filter (fun a => ¬ key a = k), key a ∈ keys := by
      intro a ha
      simp only [mem_filter, decide_eq_true_eq] at ha
      exact (mem_cons.mp (hkeys a ha.1)).resolve_left ha.2
    have hsame : keys.flatMap (group key (l.filter fun a => ¬ key a = k)) = keys.flatMap (group key l) := by
      apply flatMap_congr
      intro m hm
      have hne : m ≠ k := fun heq => hfresh (heq ▸ hm)
      simp only [group, filter_filter]
      apply filter_congr
      intro a _
      by_cases ha : key a = m <;> simp [ha, hne]
    rw [flatMap_cons, ← hsame]
    have hsplit := filter_append_perm (fun a => decide (key a = k)) l
    refine hsplit.symm.trans (Perm.append_left _ ?_)
    simpa using ih hnodup hothers

theorem eq_flatMap_group (hnodup : keys.Nodup) (horder : (l.map key).Sublist keys) :
    l = keys.flatMap (group key l) := by
  induction keys generalizing l with
  | nil => simp_all
  | cons k keys ih =>
    obtain ⟨hfresh, hkeys⟩ := nodup_cons.mp hnodup
    have hnone : ∀ {l : List α}, (l.map key).Sublist keys → ∀ a ∈ l, key a ≠ k := by
      intro l hsub a ha heq
      exact hfresh (heq ▸ hsub.subset (mem_map_of_mem ha))
    rw [flatMap_cons]
    cases l with
    | nil => grind [group]
    | cons a l =>
      rw [map_cons] at horder
      cases horder with
      | cons _ hsub =>
        rw [group_eq_nil (hnone (l := a :: l) (by rwa [map_cons]))]
        exact ih hkeys hsub
      | cons_cons _ hsub =>
        rw [group_cons_self, group_eq_nil (hnone hsub), singleton_append, List.cons.injEq]
        refine ⟨rfl, (ih hkeys hsub).trans ?_⟩
        apply flatMap_congr
        intro m hm
        have hne : key a ≠ m := by
          rintro rfl
          exact hfresh hm
        exact (group_cons_of_ne hne l).symm

variable {f : α → Option γ} {keys : List β}

theorem filterMap_eq_filter (hf : ∀ a, key a ∉ keys → f a = none) (l : List α) :
    l.filterMap f = (l.filter fun a => key a ∈ keys).filterMap f := by
  grind [filterMap_filter, filterMap_congr]

theorem group_filter (hk : k ∈ keys) : group key (l.filter fun a => key a ∈ keys) k = group key l k := by
  simp only [group, filter_filter]
  grind

theorem filterMap_perm_flatMap (hnodup : keys.Nodup) (hf : ∀ a, key a ∉ keys → f a = none) (l : List α) :
    (l.filterMap f).Perm (keys.flatMap fun k => (group key l k).filterMap f) := by
  have hperm := perm_flatMap_group key hnodup (l := l.filter fun a => key a ∈ keys) (by simp)
  rw [filterMap_eq_filter hf]
  grind [flatMap_congr, group_filter]

theorem filterMap_eq_flatMap (hnodup : keys.Nodup) (hf : ∀ a, key a ∉ keys → f a = none)
    (horder : ((l.filter fun a => key a ∈ keys).map key).Sublist keys) :
    l.filterMap f = keys.flatMap fun k => (group key l k).filterMap f := by
  have heq := eq_flatMap_group hnodup horder
  rw [filterMap_eq_filter hf, heq, filterMap_flatMap]
  exact flatMap_congr fun k hk => by rw [group_filter hk]

theorem group_length_le (hnodup : keys.Nodup) (horder : ((l.filter fun a => key a ∈ keys).map key).Sublist keys)
    (hk : k ∈ keys) : (group key l k).length ≤ 1 := by
  have hcount := nodup_iff_count_le_one.mp (hnodup.sublist horder) k
  rw [← group_filter hk, group, ← countP_eq_length_filter]
  rwa [count, countP_map] at hcount

theorem eq_of_perm_of_length_le {l' : List α} (hperm : l.Perm l') (hlength : l.length ≤ 1) : l = l' := by
  cases l with
  | nil => exact hperm.nil_eq
  | cons a rest => simp_all

end keyed
