import Mathlib.Data.Set.Card.Arithmetic
import Mathlib.Order.WellFoundedSet

open List Relation

namespace dag

open Finset

/-! Paths of an acyclic graph and their number. -/

variable {α : Type} {edge : α → α → Prop}

def Acyclic (edge : α → α → Prop) : Prop := ∀ a, ¬ Relation.TransGen edge a a

theorem Acyclic.of_rank (rank : α → Nat) (hrank : ∀ a b, edge a b → rank a < rank b) : Acyclic edge := by
  intro a hcycle
  have hup : ∀ b, TransGen edge a b → rank a < rank b := by
    intro b hpath
    induction hpath with
    | single hedge => exact hrank _ _ hedge
    | tail _ hedge ih => exact ih.trans (hrank _ _ hedge)
  exact lt_irrefl _ (hup a hcycle)

variable {a b : α}

theorem idxOf_lt_of_sublist [DecidableEq α] {l : List α} (hnodup : l.Nodup) (hpair : [a, b].Sublist l) :
    l.idxOf a < l.idxOf b := by
  grind

theorem Acyclic.of_order [DecidableEq α] {order : List α} (hnodup : order.Nodup)
    (hforward : ∀ a b, edge a b → [a, b].Sublist order) : Acyclic edge :=
  .of_rank (order.idxOf ·) fun a b hedge => idxOf_lt_of_sublist hnodup (hforward a b hedge)

theorem Acyclic.of_inner (hacyclic : Acyclic fun a b => edge a b ∧ ∃ c, edge b c) : Acyclic edge := by
  have hinner : ∀ a b c, TransGen edge a b → edge b c → TransGen (fun a b => edge a b ∧ ∃ c, edge b c) a b := by
    intro a b c hpath
    induction hpath generalizing c with
    | single hedge => exact fun hnext => .single ⟨hedge, c, hnext⟩
    | tail _ hedge ih => exact fun hnext => .tail (ih _ hedge) ⟨hedge, c, hnext⟩
  intro a hcycle
  obtain ⟨b, hfirst, _⟩ := TransGen.head'_iff.mp hcycle
  exact hacyclic a (hinner a a b hcycle hfirst)

theorem Acyclic.of_lex {β : Type} {below : β → β → Prop} (hbelow : Acyclic below) (f : α → β) (rank : α → Nat)
    (hedge : ∀ a b, edge a b → below (f a) (f b) ∨ (f a = f b ∧ rank a < rank b)) : Acyclic edge := by
  have hpath : ∀ a b, TransGen edge a b → TransGen below (f a) (f b) ∨ (f a = f b ∧ rank a < rank b) := by
    intro a b hpath
    induction hpath with
    | single hstep => exact (hedge _ _ hstep).imp_left .single
    | tail _ hstep ih => grind
  grind [Acyclic]

variable {nodes : Set α}

theorem Acyclic.wellFounded (hacyclic : Acyclic edge) (hfinite : nodes.Finite)
    (hnodes : ∀ a b, edge a b → a ∈ nodes ∧ b ∈ nodes) : WellFounded edge := by
  have : IsStrictOrder α (TransGen edge) :=
    { irrefl := hacyclic, trans := fun _ _ _ hab hbc => hab.trans hbc }
  have hwf := Set.wellFoundedOn_iff.mp (hfinite.wellFoundedOn (r := TransGen edge))
  exact Subrelation.wf (fun {a b} hedge => ⟨.single hedge, hnodes a b hedge⟩) hwf

/-- The paths from `a` to `b`, each as the list of the nodes it visits. -/
def paths (edge : α → α → Prop) (a b : α) : Set (List α) :=
  { p | p.IsChain edge ∧ p.head? = some a ∧ p.getLast? = some b }

/-- The number of paths from `a` to `b`. -/
noncomputable def pathCount (edge : α → α → Prop) (a b : α) : Nat := (paths edge a b).ncard

theorem mem_paths_iff {p : List α} :
    p ∈ paths edge a b ↔ (p = [a] ∧ a = b) ∨ ∃ m q, edge m b ∧ q ∈ paths edge a m ∧ p = q ++ [b] := by
  constructor
  · rintro ⟨hchain, hhead, hlast⟩
    obtain ⟨q, rfl⟩ := getLast?_eq_some_iff.mp hlast
    cases hq : q.getLast? with
    | none => simp_all
    | some m =>
      rw [isChain_append] at hchain
      obtain ⟨hleft, _, hedge⟩ := hchain
      refine .inr ⟨m, q, hedge m hq b rfl, ⟨hleft, ?_, hq⟩, rfl⟩
      rwa [head?_append_of_ne_nil] at hhead
      rintro rfl
      cases hq
  · grind [isChain_append, paths]

variable {preds : α → Finset α}

theorem paths_eq [DecidableEq α] (hpreds : ∀ a b, a ∈ preds b ↔ edge a b) (a b : α) :
    paths edge a b = (if b = a then {[a]} else ∅) ∪ ⋃ m ∈ preds b, (· ++ [b]) '' paths edge a m := by
  ext p
  simp only [mem_paths_iff (b := b), Set.mem_union, Set.mem_iUnion, Set.mem_image, exists_prop, hpreds]
  grind

variable (hwf : WellFounded edge) (hpreds : ∀ a b, a ∈ preds b ↔ edge a b)
include hwf hpreds

theorem paths_finite (a b : α) : (paths edge a b).Finite := by
  classical
  induction b using hwf.induction with
  | _ b ih =>
    rw [paths_eq hpreds]
    refine Set.Finite.union ?_ ?_
    · split
      · exact Set.finite_singleton _
      · exact Set.finite_empty
    · exact Set.Finite.biUnion (preds b).finite_toSet fun m hm => (ih m ((hpreds m b).mp hm)).image _

theorem pathCount_eq [DecidableEq α] (a b : α) :
    pathCount edge a b = (if b = a then 1 else 0) + ∑ m ∈ preds b, pathCount edge a m := by
  have hextended : ∀ m ∈ (preds b : Set α), ((· ++ [b]) '' paths edge a m).Finite :=
    fun m _ => (paths_finite hwf hpreds a m).image _
  have hdisjoint : (preds b : Set α).PairwiseDisjoint fun m => (· ++ [b]) '' paths edge a m := by
    -- the last node but one tells the predecessor
    intro m _ m' _ hne
    rw [Function.onFun, Set.disjoint_left]
    rintro _ ⟨q, ⟨_, _, hlast⟩, rfl⟩ ⟨q', ⟨_, _, hlast'⟩, heq⟩
    rw [append_left_injective [b] heq, hlast] at hlast'
    exact hne (Option.some.inj hlast')
  have hbefore : (⋃ m ∈ preds b, (· ++ [b]) '' paths edge a m).ncard = ∑ m ∈ preds b, pathCount edge a m := by
    have hsum := (preds b).finite_toSet.ncard_biUnion hextended hdisjoint
    rw [finsum_mem_coe_finset] at hsum
    refine hsum.trans (sum_congr rfl fun m _ => ?_)
    exact Set.ncard_image_of_injective _ (append_left_injective [b])
  have hself : (if b = a then {[a]} else ∅ : Set (List α)).ncard = if b = a then 1 else 0 := by
    split
    · exact Set.ncard_singleton _
    · exact Set.ncard_empty _
  have hfinite := paths_finite hwf hpreds a b
  rw [paths_eq hpreds, Set.finite_union] at hfinite
  rw [pathCount, paths_eq hpreds, Set.ncard_union_eq ?_ hfinite.1 hfinite.2, hself, hbefore]
  rw [Set.disjoint_left]
  intro p hp hlong
  split at hp
  · simp only [Set.mem_iUnion, Set.mem_image] at hlong
    obtain ⟨m, _, q, ⟨_, hhead, _⟩, rfl⟩ := hlong
    cases q with
    | nil => cases hhead
    | cons x rest => simp at hp
  · cases hp

variable {f : α → Nat}

theorem le_pathCount [DecidableEq α] (hf : ∀ b, f b ≤ (if b = a then 1 else 0) + ∑ m ∈ preds b, f m) (b : α) :
    f b ≤ pathCount edge a b := by
  induction b using hwf.induction with
  | _ b ih =>
    rw [pathCount_eq hwf hpreds]
    have hsum := Finset.sum_le_sum fun m hm => ih m ((hpreds m b).mp hm)
    have hb := hf b
    omega

theorem eq_pathCount [DecidableEq α] (hf : ∀ b, f b = (if b = a then 1 else 0) + ∑ m ∈ preds b, f m) (b : α) :
    f b = pathCount edge a b := by
  induction b using hwf.induction with
  | _ b ih =>
    rw [pathCount_eq hwf hpreds, hf b]
    rw [sum_congr rfl fun m hm => ih m ((hpreds m b).mp hm)]

end dag

namespace kahn

/-! Kahn's algorithm on a list of edges, which may repeat. -/

variable {α : Type} [DecidableEq α]

def inDegrees (edges : List (α × α)) : α → Int :=
  edges.foldl (fun degrees e => Function.update degrees e.2 (degrees e.2 + 1)) fun _ => 0

def successors (edges : List (α × α)) : α → List α :=
  edges.foldl (fun succs e => Function.update succs e.1 (succs e.1 ++ [e.2])) fun _ => []

theorem inDegrees_eq (edges : List (α × α)) (a : α) : inDegrees edges a = (edges.map Prod.snd).count a := by
  -- from any counters on, the fold adds the edges it sees
  have hfold : ∀ degrees : α → Int,
      edges.foldl (fun degrees e => Function.update degrees e.2 (degrees e.2 + 1)) degrees a =
        degrees a + (edges.map Prod.snd).count a := by
    induction edges with
    | nil => simp
    | cons e rest ih =>
      intro degrees
      rw [foldl_cons, ih, map_cons, count_cons]
      grind
  rw [inDegrees, hfold, zero_add]

theorem successors_eq (edges : List (α × α)) (a : α) :
    successors edges a = (edges.filter (·.1 = a)).map Prod.snd := by
  have hfold : ∀ succs : α → List α,
      edges.foldl (fun (succs : α → List α) e => Function.update succs e.1 (succs e.1 ++ [e.2])) succs a =
        succs a ++ (edges.filter (·.1 = a)).map Prod.snd := by
    induction edges with
    | nil => simp
    | cons e rest ih =>
      intro succs
      rw [foldl_cons, ih]
      grind
  rw [successors, hfold, nil_append]

structure State (α : Type) where
  inDegree : α → Int
  queue : List α
  visited : Nat

/-- An edge to `succ` is taken away. -/
def State.relax (s : State α) (succ : α) : State α :=
  let left := s.inDegree succ - 1
  { s with
    inDegree := Function.update s.inDegree succ left
    queue := if left = 0 then s.queue ++ [succ] else s.queue }

@[simp] theorem State.relax_inDegree_self (s : State α) (succ : α) :
    (s.relax succ).inDegree succ = s.inDegree succ - 1 := by
  simp [relax]

variable {targets : List α} {succ : α}

theorem State.relax_inDegree_of_ne (s : State α) {a : α} (hne : a ≠ succ) :
    (s.relax succ).inDegree a = s.inDegree a := by
  simp [relax, hne]

theorem State.relax_queue (s : State α) (succ : α) :
    (s.relax succ).queue = if s.inDegree succ - 1 = 0 then s.queue ++ [succ] else s.queue :=
  rfl

/-- The loop: takes nodes from the queue until it is empty or the fuel is used up. -/
def drain (succs : α → List α) : Nat → State α → State α
  | 0, s => s
  | fuel + 1, s =>
    match s.queue with
    | [] => s
    | current :: rest =>
      drain succs fuel ((succs current).foldl State.relax { s with queue := rest, visited := s.visited + 1 })

/-- The nodes that the loop takes from the queue. -/
def visits (succs : α → List α) : Nat → State α → List α
  | 0, _ => []
  | fuel + 1, s =>
    match s.queue with
    | [] => []
    | current :: rest =>
      current :: visits succs fuel
        ((succs current).foldl State.relax { s with queue := rest, visited := s.visited + 1 })

def start (nodes : List α) (edges : List (α × α)) : State α :=
  { inDegree := inDegrees edges, queue := nodes.filter (inDegrees edges · = 0), visited := 0 }

def run (nodes : List α) (edges : List (α × α)) : State α :=
  drain (successors edges) (nodes.length + edges.length) (start nodes edges)

def State.work (s : State α) (targets : List α) : Nat := s.queue.length + targets.countP (0 < s.inDegree ·)

theorem State.relax_work_le (s : State α) (hmem : succ ∈ targets) : (s.relax succ).work targets ≤ s.work targets := by
  have hmono : ∀ l : List α, l.countP (0 < (s.relax succ).inDegree ·) ≤ l.countP (0 < s.inDegree ·) := by
    intro l
    apply countP_mono_left
    intro x _ hx
    rw [decide_eq_true_eq] at hx ⊢
    by_cases hsucc : x = succ
    · rw [hsucc, relax_inDegree_self] at hx
      rw [hsucc]
      omega
    · rwa [s.relax_inDegree_of_ne hsucc] at hx
  by_cases hzero : s.inDegree succ - 1 = 0
  · -- the node enters the queue and leaves the nodes with edges
    obtain ⟨before, after, rfl⟩ := append_of_mem hmem
    have hwas : 0 < s.inDegree succ := by omega
    simp only [work, relax_queue, countP_append, countP_cons, hzero, if_true, length_append,
      length_singleton, relax_inDegree_self, hwas, decide_true]
    grind
  simp_all [work, relax_queue]

theorem foldl_relax_work_le (s : State α) {succs : List α} (hmem : ∀ a ∈ succs, a ∈ targets) :
    (succs.foldl State.relax s).work targets ≤ s.work targets := by
  induction succs generalizing s with
  | nil => exact le_refl _
  | cons a rest ih =>
    have hrest := ih (s.relax a) fun b hb => hmem b (mem_cons_of_mem a hb)
    exact hrest.trans (s.relax_work_le (hmem a mem_cons_self))

theorem drain_queue {succs : α → List α} (targets : List α) (hmem : ∀ a, ∀ b ∈ succs a, b ∈ targets)
    {fuel : Nat} {s : State α} (hfuel : s.work targets ≤ fuel) : (drain succs fuel s).queue = [] := by
  induction fuel generalizing s with
  | zero => simp_all [State.work, drain]
  | succ fuel ih => grind [drain, foldl_relax_work_le, State.work]

theorem run_queue (nodes : List α) (edges : List (α × α)) : (run nodes edges).queue = [] := by
  apply drain_queue (edges.map Prod.snd)
  · grind [successors_eq]
  grind [length_map, start, State.work]

variable {nodes : List α} {edges : List (α × α)}

/-- The targets of the edges that have not been taken away: those out of nodes
that are not done, and the rest of the current node's. -/
def openTargets (edges : List (α × α)) (done rest : List α) : List α :=
  (edges.filter (·.1 ∉ done)).map Prod.snd ++ rest

/-- The meaning of a state in the middle of a round: `done` lists the nodes
taken from the queue, `rest` the edges out of the last one still to be followed. -/
structure Progress (nodes : List α) (edges : List (α × α)) (done rest : List α) (s : State α) : Prop where
  inDegree : ∀ a, s.inDegree a = (openTargets edges done rest).count a
  visited : s.visited = done.length
  nodup : (done ++ s.queue).Nodup
  ready : ∀ a, a ∈ done ++ s.queue ↔ a ∈ nodes ∧ a ∉ openTargets edges done rest
  forward : ∀ e ∈ edges, e.2 ∈ done ++ s.queue → [e.1, e.2].Sublist (done ++ s.queue)

theorem start_progress (hnodup : nodes.Nodup) (edges : List (α × α)) :
    Progress nodes edges [] [] (start nodes edges) where
  inDegree := by
    intro a
    simp [start, inDegrees_eq, openTargets]
  visited := rfl
  nodup := by
    rw [nil_append]
    exact hnodup.filter _
  ready := by
    intro a
    simp [start, inDegrees_eq, openTargets, count_eq_zero]
  forward := by
    -- a node in the first queue has no edge into it
    grind [start, inDegrees_eq, mem_map_of_mem]

variable {done rest : List α} {s : State α}

theorem Progress.relax (hs : Progress nodes edges done (succ :: rest) s) (hsucc : succ ∈ nodes) :
    Progress nodes edges done rest (s.relax succ) := by
  -- one open edge less, and it led to `succ`
  have hcount : ∀ a, (openTargets edges done (succ :: rest)).count a =
      (openTargets edges done rest).count a + if a = succ then 1 else 0 := by
    intro a
    simp only [openTargets, count_append, count_cons, beq_iff_eq, eq_comm (a := succ)]
    omega
  have hleft : s.inDegree succ - 1 = (openTargets edges done rest).count succ := by
    rw [hs.inDegree, hcount, if_pos rfl]
    omega
  have hopen : ∀ a, a ≠ succ → (a ∈ openTargets edges done (succ :: rest) ↔ a ∈ openTargets edges done rest) := by
    intro a ha
    rw [← count_pos_iff, ← count_pos_iff, hcount, if_neg ha, add_zero]
  have hnew : succ ∉ done ++ s.queue := by
    rw [hs.ready]
    rintro ⟨_, hclosed⟩
    exact hclosed (by simp [openTargets])
  have hdegree : ∀ a, (s.relax succ).inDegree a = (openTargets edges done rest).count a := by
    intro a
    by_cases ha : a = succ
    · rw [ha, State.relax_inDegree_self, hleft]
    · rw [s.relax_inDegree_of_ne ha, hs.inDegree, hcount, if_neg ha, add_zero]
  by_cases hzero : (openTargets edges done rest).count succ = 0
  · have hqueue : (s.relax succ).queue = s.queue ++ [succ] := by
      rw [State.relax_queue, hleft, hzero, Int.natCast_zero, if_pos rfl]
    have hclosed := count_eq_zero.mp hzero
    refine ⟨hdegree, hs.visited, ?_, ?_, ?_⟩
    · rw [hqueue, ← append_assoc]
      exact nodup_append.mpr ⟨hs.nodup, nodup_singleton _, by grind⟩
    · intro a
      rw [hqueue, ← append_assoc, mem_append, mem_singleton, hs.ready]
      grind
    · intro e he hmem
      rw [hqueue, ← append_assoc] at hmem ⊢
      rcases mem_append.mp hmem with hold | hlast
      · exact (hs.forward e he hold).trans (sublist_append_left _ _)
      · -- all edges to the node that enters the queue come from nodes that are done
        rw [mem_singleton] at hlast
        have hdone : e.1 ∈ done := by
          by_contra hnot
          refine hclosed (mem_append_left _ ?_)
          rw [← hlast]
          exact mem_map_of_mem (mem_filter.mpr ⟨he, by simpa using hnot⟩)
        grind
  · have hqueue : (s.relax succ).queue = s.queue := by
      rw [State.relax_queue, hleft, if_neg (Int.natCast_ne_zero.mpr hzero)]
    refine ⟨hdegree, hs.visited, hqueue ▸ hs.nodup, ?_, hqueue ▸ hs.forward⟩
    intro a
    rw [hqueue, hs.ready]
    grind

theorem Progress.foldl_relax (hs : Progress nodes edges done rest s) (hrest : ∀ a ∈ rest, a ∈ nodes) :
    Progress nodes edges done [] (rest.foldl State.relax s) := by
  induction rest generalizing s with
  | nil => exact hs
  | cons a rest ih => exact ih (hs.relax (hrest a mem_cons_self)) fun b hb => hrest b (mem_cons_of_mem a hb)

theorem Progress.pop {current : α} (hs : Progress nodes edges done [] s) (hqueue : s.queue = current :: rest) :
    Progress nodes edges (done ++ [current]) (successors edges current)
      { s with queue := rest, visited := s.visited + 1 } := by
  have hsame : done ++ [current] ++ rest = done ++ s.queue := by rw [hqueue, append_assoc]; rfl
  have hfresh : current ∉ done := by
    have hdisjoint := (nodup_append.mp hs.nodup).2.2
    intro hdone
    exact hdisjoint current hdone current (by rw [hqueue]; exact mem_cons_self) rfl
  -- the edges out of `current` move from the first part of the open edges to the second
  have hperm : (openTargets edges (done ++ [current]) (successors edges current)).Perm
      (openTargets edges done []) := by
    rw [openTargets, openTargets, successors_eq, append_nil, ← map_append]
    apply Perm.map
    have hsplit := filter_append_perm (fun e => decide (e.1 = current)) (edges.filter (·.1 ∉ done))
    refine Perm.trans ?_ hsplit
    refine perm_append_comm.trans (Perm.append ?_ ?_)
    · rw [filter_filter]
      refine Perm.of_eq (filter_congr fun e _ => ?_)
      simp_all
    · simp [and_comm]
  refine ⟨?_, ?_, ?_, ?_, ?_⟩
  · intro a
    rw [hs.inDegree, hperm.count_eq]
  · simp [hs.visited]
  · rw [hsame]
    exact hs.nodup
  · intro a
    rw [hsame, hs.ready, hperm.mem_iff]
  · rw [hsame]
    exact hs.forward

theorem Progress.drain (hends : ∀ e ∈ edges, e.1 ∈ nodes ∧ e.2 ∈ nodes) (fuel : Nat)
    (hs : Progress nodes edges done [] s) :
    Progress nodes edges (done ++ visits (successors edges) fuel s) [] (drain (successors edges) fuel s) := by
  induction fuel generalizing done s with
  | zero => rwa [visits, append_nil]
  | succ fuel ih =>
    cases hqueue : s.queue with
    | nil => simpa only [visits, kahn.drain, hqueue, append_nil] using hs
    | cons current rest =>
      simp only [visits, kahn.drain, hqueue]
      rw [← singleton_append, ← append_assoc]
      refine ih ((hs.pop hqueue).foldl_relax ?_)
      grind [successors_eq]

def order (nodes : List α) (edges : List (α × α)) : List α :=
  visits (successors edges) (nodes.length + edges.length) (start nodes edges)

variable (hnodup : nodes.Nodup) (hends : ∀ e ∈ edges, e.1 ∈ nodes ∧ e.2 ∈ nodes)
include hnodup hends

theorem run_order : (order nodes edges).Nodup ∧ (order nodes edges).length = (run nodes edges).visited ∧
      (∀ a, a ∈ order nodes edges ↔ a ∈ nodes ∧ ∀ e ∈ edges, e.2 = a → e.1 ∈ order nodes edges) ∧
      ∀ e ∈ edges, e.2 ∈ order nodes edges → [e.1, e.2].Sublist (order nodes edges) := by
  have horder : Progress nodes edges (order nodes edges) [] (run nodes edges) :=
    (start_progress hnodup edges).drain hends (nodes.length + edges.length)
  have hqueue := run_queue nodes edges
  refine ⟨?_, horder.visited.symm, ?_, ?_⟩
  · simpa [hqueue] using horder.nodup
  · intro a
    have hready := horder.ready a
    rw [hqueue, append_nil] at hready
    rw [hready]
    simp only [openTargets, append_nil, mem_map, mem_filter, decide_eq_true_eq, not_exists,
      not_and, and_congr_right_iff]
    grind
  · simpa [hqueue] using horder.forward

/-- The nodes that are left behind are those on a cycle and those behind one. -/
theorem mem_order_iff {edge : α → α → Prop} (hedge : ∀ a b, edge a b ↔ (a, b) ∈ edges) (a : α) :
    a ∈ order nodes edges ↔ a ∈ nodes ∧ ∀ b, TransGen edge b b → ¬ ReflTransGen edge b a := by
  obtain ⟨horderNodup, _, hmem, hforward⟩ := run_order hnodup hends
  have hbefore {x y : α} (hxy : edge x y) (hy : y ∈ order nodes edges) : [x, y].Sublist (order nodes edges) :=
    hforward (x, y) ((hedge x y).mp hxy) hy
  constructor
  · intro ha
    refine ⟨((hmem a).mp ha).1, fun b hcycle hpath => ?_⟩
    have hb : b ∈ order nodes edges := by
      clear hcycle
      induction hpath using ReflTransGen.head_induction_on with
      | refl => exact ha
      | head hxy _ ih => exact (hbefore hxy ih).subset mem_cons_self
    -- along the cycle the place in the order goes up
    have hup : ∀ y, TransGen edge b y → y ∈ order nodes edges →
        (order nodes edges).idxOf b < (order nodes edges).idxOf y := by
      intro y hpath hy
      induction hpath with
      | single hxy => exact dag.idxOf_lt_of_sublist horderNodup (hbefore hxy hy)
      | tail _ hxy ih =>
        have hpair := hbefore hxy hy
        exact (ih (hpair.subset mem_cons_self)).trans (dag.idxOf_lt_of_sublist horderNodup hpair)
    exact lt_irrefl _ (hup b hcycle hb)
  · rintro ⟨ha, hclean⟩
    have hacyclic : dag.Acyclic fun x y => edge x y ∧ ∀ b, TransGen edge b b → ¬ ReflTransGen edge b y := by
      intro x hcycle
      obtain ⟨y, _, hlast⟩ := TransGen.tail'_iff.mp hcycle
      exact hlast.2 x (hcycle.lift id fun _ _ hxy => hxy.1) .refl
    have hwf := hacyclic.wellFounded nodes.finite_toSet fun x y hxy => hends _ ((hedge x y).mp hxy.1)
    induction a using hwf.induction with
    | _ a ih =>
      refine (hmem a).mpr ⟨ha, ?_⟩
      rintro ⟨b, _⟩ hba rfl
      have hba' := (hedge b _).mpr hba
      exact ih b ⟨hba', hclean⟩ (hends _ hba).1 fun c hcycle hpath => hclean c hcycle (hpath.tail hba')

theorem length_le_visited_iff : nodes.length ≤ (run nodes edges).visited ↔ dag.Acyclic fun a b => (a, b) ∈ edges := by
  obtain ⟨horderNodup, hlength, hmem, hforward⟩ := run_order hnodup hends
  have hsub : order nodes edges ⊆ nodes := fun a ha => ((hmem a).mp ha).1
  rw [← hlength]
  constructor
  · intro hall
    have hperm := (horderNodup.subperm hsub).perm_of_length_le hall
    grind [dag.Acyclic.of_order]
  · intro hacyclic
    have hall : nodes ⊆ order nodes edges := by
      intro a ha
      exact (mem_order_iff hnodup hends (fun _ _ => Iff.rfl) a).mpr ⟨ha, fun b hcycle => absurd hcycle (hacyclic b)⟩
    exact (hnodup.subperm hall).length_le

theorem exists_order (hacyclic : dag.Acyclic fun a b => (a, b) ∈ edges) :
    ∃ order : List α, order.Perm nodes ∧ ∀ e ∈ edges, [e.1, e.2].Sublist order := by
  have hall := (length_le_visited_iff hnodup hends).mpr hacyclic
  obtain ⟨horderNodup, hlength, hmem, hforward⟩ := run_order hnodup hends
  have hsub : order nodes edges ⊆ nodes := fun a ha => ((hmem a).mp ha).1
  have hperm := (horderNodup.subperm hsub).perm_of_length_le (hlength ▸ hall)
  grind

omit hnodup hends

/-- A node that the algorithm does not reach: it is on a cycle or behind one. -/
def Stuck (edge : α → α → Prop) (a : α) : Prop := ∃ b, TransGen edge b b ∧ ReflTransGen edge b a

theorem drain_add {succs : α → List α} {fuel : Nat} {s : State α} (hqueue : (drain succs fuel s).queue = [])
    (more : Nat) : drain succs (fuel + more) s = drain succs fuel s := by
  induction fuel generalizing s with
  | zero =>
    cases more with
    | zero => rfl
    | succ more =>
      rw [drain] at hqueue
      rw [Nat.zero_add, drain, drain, hqueue]
  | succ fuel ih =>
    rw [Nat.succ_add, drain, drain]
    rw [drain] at hqueue
    split at hqueue
    · rfl
    · exact ih hqueue

/-- Nodes that are not on the list but are targets of edges are visited as if they were on it. -/
theorem run_append {others : List α} (hothers : ∀ b ∈ others, ∃ a, (a, b) ∈ edges) :
    run (nodes ++ others) edges = run nodes edges := by
  have hstart : start (nodes ++ others) edges = start nodes edges := by
    have hnone : others.filter (inDegrees edges · = 0) = [] := by
      refine filter_eq_nil_iff.mpr fun b hb => ?_
      obtain ⟨a, hedge⟩ := hothers b hb
      simpa [inDegrees_eq, count_eq_zero] using ⟨a, hedge⟩
    rw [start, start, filter_append, hnone, append_nil]
  have hfuel : (nodes ++ others).length + edges.length = nodes.length + edges.length + others.length := by
    rw [length_append]; omega
  rw [run, hstart, hfuel, drain_add (run_queue nodes edges)]
  rfl

/-- Too few nodes are visited if the targets outside the list that are reached
are fewer than the nodes that are not. -/
theorem visited_lt_iff {edge : α → α → Prop} (hnodup : nodes.Nodup) (hedge : ∀ a b, edge a b ↔ (a, b) ∈ edges)
    (hsources : ∀ a b, edge a b → a ∈ nodes) : (run nodes edges).visited < nodes.length ↔
      {b | b ∉ nodes ∧ (∃ a, edge a b) ∧ ¬ Stuck edge b}.ncard < {a | a ∈ nodes ∧ Stuck edge a}.ncard := by
  classical
  obtain ⟨others, hdistinct, hothers⟩ : ∃ others : List α, others.Nodup ∧
      ∀ b, b ∈ others ↔ b ∉ nodes ∧ ∃ a, edge a b := by
    refine ⟨((edges.map Prod.snd).filter (· ∉ nodes)).dedup, nodup_dedup _, fun b => ?_⟩
    simp only [mem_dedup, mem_filter, mem_map, Prod.exists, exists_eq_right, decide_eq_true_eq, hedge]
    exact and_comm
  have hall : (nodes ++ others).Nodup :=
    hnodup.append hdistinct fun a ha hother => ((hothers a).mp hother).1 ha
  have hends : ∀ e ∈ edges, e.1 ∈ nodes ++ others ∧ e.2 ∈ nodes ++ others := by
    rintro ⟨a, b⟩ he
    have hab := (hedge a b).mpr he
    refine ⟨mem_append_left _ (hsources a b hab), mem_append.mpr ?_⟩
    exact (em (b ∈ nodes)).imp_right fun hb => (hothers b).mpr ⟨hb, a, hab⟩
  obtain ⟨hdone, hlength, _⟩ := run_order hall hends
  have hperm : (order (nodes ++ others) edges).Perm ((nodes ++ others).filter (¬ Stuck edge ·)) := by
    refine (perm_ext_iff_of_nodup hdone (hall.filter _)).mpr fun a => ?_
    rw [mem_order_iff hall hends hedge, mem_filter, decide_eq_true_eq, Stuck]
    push Not
    rfl
  have hvisited : (run nodes edges).visited =
      (nodes.filter (¬ Stuck edge ·)).length + (others.filter (¬ Stuck edge ·)).length := by
    have htargets : ∀ b ∈ others, ∃ a, (a, b) ∈ edges := by
      simpa only [hedge] using fun b hb => ((hothers b).mp hb).2
    rw [← run_append htargets, ← hlength, hperm.length_eq, filter_append, length_append]
  have hcard {l : List α} (hl : l.Nodup) (p : α → Prop) [DecidablePred p] :
      (l.filter (p ·)).length = {a | a ∈ l ∧ p a}.ncard := by
    rw [← toFinset_card_of_nodup (hl.filter _), ← Set.ncard_coe_finset]
    congr 1
    ext a
    simp
  have hnodes : nodes.length = (nodes.filter (Stuck edge ·)).length + (nodes.filter (¬ Stuck edge ·)).length := by
    rw [length_eq_length_filter_add (Stuck edge ·)]
    simp
  rw [hvisited, hnodes, hcard hnodup (Stuck edge), hcard hdistinct fun b => ¬ Stuck edge b]
  simp only [hothers, and_assoc]
  omega

end kahn
