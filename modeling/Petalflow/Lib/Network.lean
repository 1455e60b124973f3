import Petalflow.Lib.Kahn

open List Relation

namespace fifo

/-! Walks over a graph that take a node off the front of a queue and put its
successors at the end. -/

variable {α : Type} {edge : α → α → Prop} {start a b : α}

inductive Reach (edge : α → α → Prop) (start : α) : Nat → α → Prop where
  | zero : Reach edge start 0 start
  | succ {k : Nat} {a b : α} (hreach : Reach edge start k a) (hedge : edge a b) : Reach edge start (k + 1) b

/-- The state of a walk: every node in the queue, and every node that was taken
off it, stands with the length of the way on which it was found. -/
structure Walk (edge : α → α → Prop) (start : α) (queue done : List (α × Nat)) : Prop where
  sorted : queue.Pairwise fun x y => x.2 ≤ y.2
  span : ∀ x ∈ queue, ∀ y ∈ queue, y.2 ≤ x.2 + 1
  older : ∀ x ∈ done, ∀ y ∈ queue, x.2 ≤ y.2
  found : ∀ x ∈ queue, Reach edge start x.2 x.1
  started : (start, 0) ∈ queue ∨ (start, 0) ∈ done
  followed : ∀ x ∈ done, ∀ b, edge x.1 b → ∃ k ≤ x.2 + 1, (b, k) ∈ queue ∨ (b, k) ∈ done

namespace Walk

variable {queue done : List (α × Nat)} {x : α × Nat}

theorem init (edge : α → α → Prop) (start : α) : Walk edge start [(start, 0)] [] where
  sorted := pairwise_singleton _ _
  span := by simp
  older := nofun
  found := by simp [Reach.zero]
  started := .inl mem_cons_self
  followed := nofun

variable (hwalk : Walk edge start (x :: queue) done)
include hwalk

theorem le_of_mem {y : α × Nat} (hy : y ∈ x :: queue) : x.2 ≤ y.2 := by
  rcases mem_cons.mp hy with rfl | hlater
  · exact Nat.le_refl _
  · exact rel_of_pairwise_cons hwalk.sorted hlater

theorem skip (hdone : ∃ y ∈ done, y.1 = x.1) : Walk edge start queue done := by
  obtain ⟨y, hy, hsame⟩ := hdone
  have hkept : ∀ {b k}, (b, k) ∈ x :: queue ∨ (b, k) ∈ done → ∃ j ≤ k, (b, j) ∈ queue ∨ (b, j) ∈ done := by
    rintro b k (hmem | hmem)
    · rcases mem_cons.mp hmem with rfl | hlater
      · have hy' : (b, y.2) ∈ done := by rwa [← show y.1 = b from hsame]
        exact ⟨y.2, hwalk.older y hy _ mem_cons_self, .inr hy'⟩
      · exact ⟨k, Nat.le_refl k, .inl hlater⟩
    · exact ⟨k, Nat.le_refl k, .inr hmem⟩
  refine ⟨hwalk.sorted.of_cons, ?_, ?_, ?_, ?_, ?_⟩
  · exact fun p hp q hq => hwalk.span p (mem_cons_of_mem x hp) q (mem_cons_of_mem x hq)
  · exact fun p hp q hq => hwalk.older p hp q (mem_cons_of_mem x hq)
  · exact fun p hp => hwalk.found p (mem_cons_of_mem x hp)
  · obtain ⟨j, hj, hmem⟩ := hkept hwalk.started
    rwa [Nat.le_zero.mp hj] at hmem
  · intro p hp b hedge
    obtain ⟨k, hk, hmem⟩ := hwalk.followed p hp b hedge
    grind

theorem visit (succs : List α) (hsuccs : ∀ b, b ∈ succs ↔ edge x.1 b) :
    Walk edge start (queue ++ succs.map fun b => (b, x.2 + 1)) (x :: done) := by
  have hnew : ∀ {y : α × Nat}, y ∈ queue ++ (succs.map fun b => (b, x.2 + 1)) →
      y ∈ queue ∨ (y.2 = x.2 + 1 ∧ edge x.1 y.1) := by
    intro y hy
    rcases mem_append.mp hy with hold | hmade
    · exact .inl hold
    · grind
  have hbounds : ∀ {y : α × Nat}, y ∈ queue ++ (succs.map fun b => (b, x.2 + 1)) → x.2 ≤ y.2 ∧ y.2 ≤ x.2 + 1 := by
    intro y hy
    rcases hnew hy with hold | ⟨hlength, _⟩
    · have hmem : y ∈ x :: queue := mem_cons_of_mem x hold
      exact ⟨hwalk.le_of_mem hmem, hwalk.span x mem_cons_self y hmem⟩
    · omega
  have hkept : ∀ {b k}, (b, k) ∈ x :: queue ∨ (b, k) ∈ done →
      (b, k) ∈ queue ++ (succs.map fun b => (b, x.2 + 1)) ∨ (b, k) ∈ x :: done := by
    rintro b k (hmem | hmem)
    · grind
    · exact .inr (mem_cons_of_mem x hmem)
  refine ⟨?_, ?_, ?_, ?_, hkept hwalk.started, ?_⟩
  · refine pairwise_append.mpr ⟨hwalk.sorted.of_cons, ?_, ?_⟩
    · exact pairwise_map.mpr (pairwise_of_forall fun _ _ => Nat.le_refl _)
    grind
  · grind
  · intro p hp q hq
    have hlow := (hbounds hq).1
    rcases mem_cons.mp hp with rfl | hold
    · exact hlow
    · have hbefore := hwalk.older p hold x mem_cons_self
      omega
  · intro p hp
    rcases hnew hp with hold | ⟨hlength, hedge⟩
    · exact hwalk.found p (mem_cons_of_mem x hold)
    · rw [hlength]
      exact .succ (hwalk.found x mem_cons_self) hedge
  · intro p hp b hedge
    rcases mem_cons.mp hp with rfl | hold
    · grind
    · obtain ⟨k, hk, hmem⟩ := hwalk.followed p hold b hedge
      exact ⟨k, hk, hkept hmem⟩

theorem done_of_reach {k : Nat} (hreach : Reach edge start k a) (hlt : k < x.2) : ∃ j ≤ k, (a, j) ∈ done := by
  induction hreach with
  | zero =>
    rcases hwalk.started with hqueued | hdone
    · have hle := hwalk.le_of_mem hqueued
      omega
    · exact ⟨0, Nat.le_refl 0, hdone⟩
  | succ _ hedge ih =>
    obtain ⟨j, hj, hmem⟩ := ih (by omega)
    obtain ⟨i, hi, hnext⟩ := hwalk.followed _ hmem _ hedge
    rcases hnext with hqueued | hdone
    · have hle := hwalk.le_of_mem hqueued
      dsimp only at hle hi
      omega
    · exact ⟨i, by dsimp only at hi; omega, hdone⟩

theorem done_of_nearer {k : Nat} (hreach : Reach edge start k a) (hnearer : ∀ j, Reach edge start j x.1 → k < j) :
    ∃ y ∈ done, y.1 = a := by
  obtain ⟨j, _, hdone⟩ := hwalk.done_of_reach hreach (hnearer x.2 (hwalk.found x mem_cons_self))
  exact ⟨(a, j), hdone, rfl⟩

end Walk

end fifo

namespace network

/-! Graphs put together from chains of nodes. -/

/-- Units that are each a chain of nodes, and links that lead from the end of
one chain to the start of another. -/
structure Network (υ α : Type) where
  units : List υ
  chain : υ → List α
  chain_ne_nil : ∀ u, chain u ≠ []
  links : List (υ × υ)
  links_units : ∀ l ∈ links, l.1 ∈ units ∧ l.2 ∈ units

variable {υ α : Type}

@[simp] theorem consecutivePairs_singleton (a : α) : [a].consecutivePairs = [] := rfl

variable {l : List α} {a b : α}

theorem mem_of_mem_consecutivePairs (hpair : (a, b) ∈ l.consecutivePairs) : a ∈ l ∧ b ∈ l.tail :=
  of_mem_zip hpair

theorem mem_consecutivePairs_iff : (a, b) ∈ l.consecutivePairs ↔ ∃ i, l[i]? = some a ∧ l[i + 1]? = some b := by
  simp only [consecutivePairs, mem_iff_getElem?, getElem?_zip_eq_some, getElem?_tail]

theorem sublist_of_mem_consecutivePairs (hpair : (a, b) ∈ l.consecutivePairs) : [a, b].Sublist l := by
  induction l with
  | nil => cases hpair
  | cons x rest ih =>
    cases rest with
    | nil => cases hpair
    | cons y rest => grind

theorem consecutivePairs_concat (l : List α) (b : α) :
    (l ++ [b]).consecutivePairs = l.consecutivePairs ++ l.getLast?.toList.map fun a => (a, b) := by
  induction l with
  | nil => rfl
  | cons x rest ih =>
    cases rest with
    | nil => rfl
    | cons y rest => grind

theorem exists_mem_consecutivePairs (ha : a ∈ l.tail) : ∃ b, (b, a) ∈ l.consecutivePairs := by
  induction l with
  | nil => cases ha
  | cons x rest ih =>
    cases rest with
    | nil => cases ha
    | cons y rest => grind

theorem reaches_mem (hne : l ≠ []) (ha : a ∈ l) :
    ReflTransGen (fun a b => (a, b) ∈ l.consecutivePairs) (l.head hne) a := by
  induction l with
  | nil => exact absurd rfl hne
  | cons x rest ih =>
    rcases mem_cons.mp ha with rfl | hlater
    · exact .refl
    · cases rest with
      | nil => cases hlater
      | cons y rest =>
        have hrest := ih (cons_ne_nil y rest) hlater
        refine .head mem_cons_self (ReflTransGen.mono ?_ _ _ hrest)
        exact fun a b hpair => mem_cons_of_mem _ hpair

theorem pairwise_of_consecutivePairs {R : α → α → Prop} (htrans : ∀ a b c, R a b → R b c → R a c)
    (hpairs : ∀ a b, (a, b) ∈ l.consecutivePairs → R a b) : l.Pairwise R := by
  induction l with
  | nil => exact .nil
  | cons x rest ih =>
    have hrest : rest.Pairwise R := by
      cases rest with
      | nil => exact .nil
      | cons y rest => exact ih fun a b hpair => hpairs a b (mem_cons_of_mem _ hpair)
    refine .cons (fun b hb => ?_) hrest
    cases rest with
    | nil => cases hb
    | cons y rest => grind [rel_of_pairwise_cons]

namespace Network

variable (n : Network υ α)

def first (u : υ) : α := (n.chain u).head (n.chain_ne_nil u)

def last (u : υ) : α := (n.chain u).getLast (n.chain_ne_nil u)

def nodes : List α := n.units.flatMap n.chain

def edges : List (α × α) :=
  n.units.flatMap (fun u => (n.chain u).consecutivePairs) ++ n.links.map fun l => (n.last l.1, n.first l.2)

def Edge (a b : α) : Prop := (a, b) ∈ n.edges

def Link (u v : υ) : Prop := (u, v) ∈ n.links

variable {n} {u v : υ}

theorem first_mem (u : υ) : n.first u ∈ n.chain u := head_mem _

theorem last_mem (u : υ) : n.last u ∈ n.chain u := getLast_mem _

theorem mem_nodes : a ∈ n.nodes ↔ ∃ u ∈ n.units, a ∈ n.chain u := mem_flatMap

theorem edge_iff : n.Edge a b ↔ (∃ u ∈ n.units, (a, b) ∈ (n.chain u).consecutivePairs) ∨
      ∃ u v, n.Link u v ∧ n.last u = a ∧ n.first v = b := by
  simp [Edge, edges, Link]

theorem Edge.of_chain (hu : u ∈ n.units) (hpair : (a, b) ∈ (n.chain u).consecutivePairs) : n.Edge a b :=
  edge_iff.mpr (.inl ⟨u, hu, hpair⟩)

theorem Edge.of_link (hlink : n.Link u v) : n.Edge (n.last u) (n.first v) :=
  edge_iff.mpr (.inr ⟨u, v, hlink, rfl, rfl⟩)

theorem Edge.mem_nodes (hedge : n.Edge a b) : a ∈ n.nodes ∧ b ∈ n.nodes := by
  rcases edge_iff.mp hedge with ⟨u, hu, hpair⟩ | ⟨u, v, hlink, rfl, rfl⟩
  · obtain ⟨ha, hb⟩ := mem_of_mem_consecutivePairs hpair
    exact ⟨Network.mem_nodes.mpr ⟨u, hu, ha⟩, Network.mem_nodes.mpr ⟨u, hu, mem_of_mem_tail hb⟩⟩
  · obtain ⟨hu, hv⟩ := n.links_units _ hlink
    exact ⟨Network.mem_nodes.mpr ⟨u, hu, last_mem u⟩, Network.mem_nodes.mpr ⟨v, hv, first_mem v⟩⟩

theorem reaches_last (hu : u ∈ n.units) : ReflTransGen n.Edge (n.first u) (n.last u) :=
  ReflTransGen.mono (fun _ _ hpair => Edge.of_chain hu hpair) _ _ (reaches_mem (n.chain_ne_nil u) (last_mem u))

theorem reaches_of_link (hlink : n.Link u v) : ReflTransGen n.Edge (n.first u) (n.first v) :=
  .tail (reaches_last (n.links_units _ hlink).1) (.of_link hlink)

theorem reaches_first (hlinks : ReflTransGen n.Link u v) : ReflTransGen n.Edge (n.first u) (n.first v) := by
  induction hlinks with
  | refl => exact .refl
  | tail _ hlink ih => exact ih.trans (reaches_of_link hlink)

theorem transGen_last (hlinks : TransGen n.Link u v) : TransGen n.Edge (n.last u) (n.last v) := by
  have hstep {u v : υ} (hlink : n.Link u v) : TransGen n.Edge (n.last u) (n.last v) :=
    .head' (.of_link hlink) (reaches_last (n.links_units _ hlink).2)
  induction hlinks with
  | single hlink => exact hstep hlink
  | tail _ hlink ih => exact ih.trans (hstep hlink)

/-- A cycle of links is one of edges, also if nodes of different chains coincide. -/
theorem acyclic_link (hacyclic : dag.Acyclic n.Edge) : dag.Acyclic n.Link :=
  fun u hcycle => hacyclic (n.last u) (transGen_last hcycle)

/-- The first node that is free, if only first nodes of chains can be. -/
theorem find?_flatMap_chain {free : α → Bool} {root : υ → Bool} {us : List υ}
    (hfirst : ∀ u ∈ us, free (n.first u) = root u) (htail : ∀ u ∈ us, ∀ a ∈ (n.chain u).tail, free a = false) :
    (us.flatMap n.chain).find? free = (us.find? root).map n.first := by
  induction us with
  | nil => rfl
  | cons u us ih =>
    obtain ⟨hu, hus⟩ := forall_mem_cons.mp hfirst
    obtain ⟨hrest, hrests⟩ := forall_mem_cons.mp htail
    have hchain : (n.chain u).find? free = if root u then some (n.first u) else none := by
      rw [← cons_head_tail (n.chain_ne_nil u), find?_cons, show free ((n.chain u).head _) = root u from hu]
      cases hroot : root u with
      | true => rfl
      | false => simpa using hrest
    rw [flatMap_cons, find?_append, hchain, ih hus hrests, find?_cons]
    cases root u <;> rfl

variable (hnodup : n.nodes.Nodup)

include hnodup

theorem unit_unique (hu : u ∈ n.units) (hv : v ∈ n.units) (ha : a ∈ n.chain u) (ha' : a ∈ n.chain v) : u = v := by
  have hdisjoint := (nodup_flatMap.mp hnodup).2
  rw [pairwise_iff_getElem] at hdisjoint
  obtain ⟨i, hi, rfl⟩ := mem_iff_getElem.mp hu
  obtain ⟨j, hj, rfl⟩ := mem_iff_getElem.mp hv
  rcases Nat.lt_trichotomy i j with hlt | rfl | hlt
  · exact absurd ha' (hdisjoint i j hi hj hlt ha)
  · rfl
  · exact absurd ha (hdisjoint j i hj hi hlt ha')

theorem chain_nodup (hu : u ∈ n.units) : (n.chain u).Nodup := (nodup_flatMap.mp hnodup).1 u hu

theorem units_nodup : n.units.Nodup := by
  refine (nodup_flatMap.mp hnodup).2.imp fun {u v} hdisjoint heq => ?_
  subst heq
  exact hdisjoint (first_mem u) (first_mem u)

theorem not_edge_first (hu : u ∈ n.units) (hroot : ∀ v, ¬ n.Link v u) : ¬ n.Edge a (n.first u) := by
  intro hedge
  rcases edge_iff.mp hedge with ⟨v, hv, hpair⟩ | ⟨v, w, hlink, _, heq⟩
  · have htail := (mem_of_mem_consecutivePairs hpair).2
    grind [unit_unique, first_mem, cons_head_tail, nodup_cons, first, nodes]
  · obtain rfl := unit_unique hnodup (n.links_units _ hlink).2 hu (first_mem w) (heq ▸ first_mem u)
    exact hroot v hlink

theorem links_of_reaches {start : υ} (hstart : start ∈ n.units) (hpath : ReflTransGen n.Edge (n.first start) a)
    (hv : v ∈ n.units) (ha : a ∈ n.chain v) : ReflTransGen n.Link start v := by
  induction hpath generalizing v with
  | refl => rw [unit_unique hnodup hv hstart ha (first_mem start)]
  | tail _ hedge ih =>
    rcases edge_iff.mp hedge with ⟨w, hw, hpair⟩ | ⟨w, x, hlink, rfl, rfl⟩
    · obtain ⟨hb, ha'⟩ := mem_of_mem_consecutivePairs hpair
      rw [unit_unique hnodup hv hw ha (mem_of_mem_tail ha')]
      exact ih hw hb
    · obtain ⟨hw, hx⟩ := n.links_units _ hlink
      rw [unit_unique hnodup hv hx ha (first_mem x)]
      exact .tail (ih hw (last_mem w)) hlink

theorem acyclic [DecidableEq υ] [DecidableEq α] (hacyclic : dag.Acyclic n.Link) : dag.Acyclic n.Edge := by
  obtain ⟨order, hperm, hforward⟩ := kahn.exists_order (units_nodup hnodup) n.links_units hacyclic
  -- the chains in that order list the nodes
  refine dag.Acyclic.of_order ((hperm.flatMap_right n.chain).nodup_iff.mpr hnodup) fun a b hedge => ?_
  rcases edge_iff.mp hedge with ⟨u, hu, hpair⟩ | ⟨u, v, hlink, rfl, rfl⟩
  · have hchain := (singleton_sublist.mpr (hperm.mem_iff.mpr hu)).flatMap n.chain
    rw [flatMap_singleton] at hchain
    exact (sublist_of_mem_consecutivePairs hpair).trans hchain
  · have hchains := (hforward _ hlink).flatMap n.chain
    simp only [flatMap_cons, flatMap_nil, append_nil] at hchains
    have hends := (singleton_sublist.mpr (last_mem (n := n) u)).append
      (singleton_sublist.mpr (first_mem (n := n) v))
    exact hends.trans hchains

omit hnodup

open fifo

variable {place : υ → Nat} {start : α} {k i : Nat}

theorem first_eq_getElem? (u : υ) : (n.chain u)[0]? = some (n.first u) := by
  rw [← head?_eq_getElem?]
  exact head?_eq_some_head _

theorem last_eq_getElem? (u : υ) : (n.chain u)[(n.chain u).length - 1]? = some (n.last u) := by
  rw [← getLast?_eq_getElem?]
  exact getLast?_eq_some_getLast _

theorem index_unique (hnodup : n.nodes.Nodup) (hu : u ∈ n.units) {j : Nat} (hi : (n.chain u)[i]? = some a)
    (hj : (n.chain u)[j]? = some a) : i = j := by
  grind [getElem?_inj, chain_nodup]

theorem reach_chain (hu : u ∈ n.units) (hreach : Reach n.Edge start k (n.first u)) (ha : (n.chain u)[i]? = some a) :
    Reach n.Edge start (k + i) a := by
  induction i generalizing a with
  | zero =>
    rw [first_eq_getElem?, Option.some.injEq] at ha
    exact ha ▸ hreach
  | succ i ih =>
    obtain ⟨hlt, _⟩ := List.getElem?_eq_some_iff.mp ha
    have hbefore : (n.chain u)[i]? = some (n.chain u)[i] := List.getElem?_eq_getElem (by omega)
    exact .succ (ih hbefore) (.of_chain hu (mem_consecutivePairs_iff.mpr ⟨i, hbefore, ha⟩))

theorem reach_link (hlink : n.Link u v) (hplace : place v = place u + (n.chain u).length)
    (hreach : Reach n.Edge start (place u) (n.first u)) : Reach n.Edge start (place v) (n.first v) := by
  have hpos := length_pos_iff.mpr (n.chain_ne_nil u)
  have hlast := reach_chain (n.links_units _ hlink).1 hreach (last_eq_getElem? u)
  have hnext := Reach.succ hlast (Edge.of_link hlink)
  grind

/-- Places of the units, counted in nodes from a first unit: no link leads further
ahead than right behind a unit, and some link leads there. -/
structure Places (n : Network υ α) (root : υ) (place : υ → Nat) : Prop where
  root_mem : root ∈ n.units
  zero : place root = 0
  links : ∀ u v, n.Link u v → place v ≤ place u + (n.chain u).length
  reached : ∀ v ∈ n.units, v = root ∨ ∃ u, n.Link u v ∧ place v = place u + (n.chain u).length

variable {root : υ}

theorem reach_first (hplaces : Places n root place) (hu : u ∈ n.units) :
    Reach n.Edge (n.first root) (place u) (n.first u) := by
  induction hk : place u using Nat.strong_induction_on generalizing u with
  | _ k ih =>
    rcases hplaces.reached u hu with rfl | ⟨v, hlink, hplace⟩
    · rw [← hk, hplaces.zero]
      exact .zero
    · have hpos := length_pos_iff.mpr (n.chain_ne_nil v)
      rw [← hk]
      exact reach_link hlink hplace (ih (place v) (by omega) (n.links_units _ hlink).1 rfl)

theorem place_le_of_reach (hnodup : n.nodes.Nodup) (hplaces : Places n root place)
    (hreach : Reach n.Edge (n.first root) k a) (hu : u ∈ n.units) (ha : (n.chain u)[i]? = some a) :
    place u + i ≤ k := by
  induction hreach generalizing u i with
  | zero =>
    obtain rfl := unit_unique hnodup hu hplaces.root_mem (mem_of_getElem? ha) (first_mem root)
    have hindex := index_unique hnodup hu ha (first_eq_getElem? u)
    have hzero := hplaces.zero
    omega
  | @succ k a b _ hedge ih =>
    rcases edge_iff.mp hedge with ⟨v, hv, hpair⟩ | ⟨v, w, hlink, rfl, rfl⟩
    · obtain ⟨j, hj, hnext⟩ := mem_consecutivePairs_iff.mp hpair
      obtain rfl := unit_unique hnodup hu hv (mem_of_getElem? ha) (mem_of_getElem? hnext)
      grind [index_unique]
    · obtain ⟨hv, hw⟩ : v ∈ n.units ∧ w ∈ n.units := n.links_units _ hlink
      obtain rfl := unit_unique hnodup hu hw (mem_of_getElem? ha) (first_mem w)
      have hindex := index_unique hnodup hu ha (first_eq_getElem? u)
      have hbefore := ih hv (last_eq_getElem? v)
      have hplace := hplaces.links v u hlink
      omega

theorem exists_root_of_not_edge (ha : a ∈ n.nodes) (hnone : ∀ b, ¬ n.Edge b a) :
    ∃ u ∈ n.units, a = n.first u ∧ ∀ v, ¬ n.Link v u := by
  obtain ⟨u, hu, hmem⟩ := mem_nodes.mp ha
  have hfirst : a = n.first u := by
    rw [← cons_head_tail (n.chain_ne_nil u)] at hmem
    rcases mem_cons.mp hmem with hhead | htail
    · exact hhead
    · obtain ⟨b, hb⟩ := exists_mem_consecutivePairs htail
      exact absurd (Edge.of_chain hu hb) (hnone b)
  exact ⟨u, hu, hfirst, fun v hlink => hnone _ (hfirst ▸ Edge.of_link hlink)⟩

end Network

end network
