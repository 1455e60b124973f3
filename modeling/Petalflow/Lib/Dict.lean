import Mathlib.Data.List.Sort

open List

namespace dict

/-- A map with finitely many entries. They stand in the order in which a loop
over the map visits them. -/
structure Dict (α β : Type) where
  entries : List (α × β)
  nodup : (entries.map Prod.fst).Nodup

namespace Dict

variable {α β : Type}

def empty : Dict α β where
  entries := []
  nodup := List.nodup_nil

def keys (d : Dict α β) : List α := d.entries.map Prod.fst

variable [DecidableEq α] {d : Dict α β} {key : α} {value : β}

def get? (d : Dict α β) (key : α) : Option β := d.entries.lookup key

def insert (d : Dict α β) (key : α) (value : β) : Dict α β :=
  if hkey : key ∈ d.keys then
    { entries := d.entries.map fun e => if e.1 = key then (key, value) else e
      nodup := by
        have hkeys : (d.entries.map fun e => if e.1 = key then (key, value) else e).map Prod.fst =
            d.entries.map Prod.fst := by
          rw [List.map_map]
          refine List.map_congr_left fun e _ => ?_
          simp only [Function.comp_apply]
          split
          · next heq => exact heq.symm
          · rfl
        rw [hkeys]
        exact d.nodup }
  else
    { entries := d.entries ++ [(key, value)]
      nodup := by
        rw [List.map_append, List.nodup_append]
        refine ⟨d.nodup, List.nodup_singleton _, ?_⟩
        grind [keys] }

theorem get?_eq_some_iff : d.get? key = some value ↔ (key, value) ∈ d.entries := by
  obtain ⟨entries, hnodup⟩ := d
  simp only [get?]
  induction entries with
  | nil => simp
  | cons e rest ih => grind

theorem get?_eq_none_iff : d.get? key = none ↔ key ∉ d.keys := by
  simp only [get?, keys, lookup_eq_none_iff, mem_map, not_exists, not_and]
  grind

theorem lookup_replace_self (value : β) {entries : List (α × β)} (hmem : key ∈ entries.map Prod.fst) :
    (entries.map fun e => if e.1 = key then (key, value) else e).lookup key = some value := by
  induction entries with
  | nil => cases hmem
  | cons e rest ih => grind

variable {k : α}

theorem lookup_replace_of_ne (hk : k ≠ key) (value : β) (entries : List (α × β)) :
    (entries.map fun e => if e.1 = key then (key, value) else e).lookup k = entries.lookup k := by
  induction entries with
  | nil => rfl
  | cons e rest ih => grind

@[simp] theorem get?_insert_self (d : Dict α β) (key : α) (value : β) : (d.insert key value).get? key = some value := by
  unfold insert
  split
  · next hmem => exact lookup_replace_self value hmem
  · grind [get?]

theorem get?_insert_of_ne (hk : k ≠ key) (d : Dict α β) (value : β) : (d.insert key value).get? k = d.get? k := by
  unfold insert
  split
  · exact lookup_replace_of_ne hk value d.entries
  grind [get?]

def erase (d : Dict α β) (key : α) : Dict α β where
  entries := d.entries.filter (·.1 ≠ key)
  nodup := (List.filter_sublist.map Prod.fst).nodup d.nodup

@[simp] theorem get?_erase_self (d : Dict α β) (key : α) : (d.erase key).get? key = none := by
  rw [get?_eq_none_iff]
  simp [keys, erase]

theorem get?_erase_of_ne (hk : k ≠ key) (d : Dict α β) : (d.erase key).get? k = d.get? k := by
  ext value
  simp_all [get?_eq_some_iff, erase]

def mapEntries {γ : Type} (f : α → β → γ) (d : Dict α β) : Dict α γ where
  entries := d.entries.map fun e => (e.1, f e.1 e.2)
  nodup := by
    rw [List.map_map]
    exact d.nodup

variable {γ : Type}

theorem lookup_mapEntries (f : α → β → γ) (entries : List (α × β)) (key : α) :
    (entries.map fun e => (e.1, f e.1 e.2)).lookup key = (entries.lookup key).map (f key) := by
  induction entries with
  | nil => rfl
  | cons e rest ih => grind

@[simp] theorem get?_mapEntries (f : α → β → γ) (d : Dict α β) (key : α) :
    (d.mapEntries f).get? key = (d.get? key).map (f key) :=
  lookup_mapEntries f d.entries key

def overlay (d changes : Dict α β) : Dict α β := changes.entries.foldl (fun d e => d.insert e.1 e.2) d

theorem get?_foldl_insert {changes : List (α × β)} (hnodup : (changes.map Prod.fst).Nodup) (d : Dict α β) (key : α) :
    (changes.foldl (fun d e => d.insert e.1 e.2) d).get? key = (changes.lookup key).or (d.get? key) := by
  induction changes generalizing d with
  | nil => rfl
  | cons e rest ih =>
    rw [map_cons, nodup_cons] at hnodup
    obtain ⟨hfresh, hrest⟩ := hnodup
    rw [foldl_cons, ih hrest, lookup_cons]
    by_cases hkey : key = e.1
    · have hnone : rest.lookup key = none := by
        rw [lookup_eq_none_iff]
        intro e' he'
        rw [hkey, bne_iff_ne]
        intro heq
        exact hfresh (mem_map.mpr ⟨e', he', heq.symm⟩)
      rw [hnone, hkey]
      simp
    grind [get?_insert_of_ne]

theorem get?_foldl_insert_iff {key : γ → α} (value : γ → β) {items : List γ} (hnodup : (items.map key).Nodup) {v : β} :
    (items.foldl (fun d a => d.insert (key a) (value a)) (empty : Dict α β)).get? k = some v ↔
      ∃ a ∈ items, key a = k ∧ value a = v := by
  have hkeys : ((items.map fun a => (key a, value a)).map Prod.fst).Nodup := by
    rw [map_map]
    exact hnodup
  have hget := get?_foldl_insert hkeys (empty : Dict α β) k
  rw [foldl_map] at hget
  rw [hget]
  refine (Eq.congr_left Option.or_none).trans ?_
  refine (get?_eq_some_iff (d := ⟨_, hkeys⟩)).trans ?_
  simp

theorem get?_overlay (d changes : Dict α β) (key : α) :
    (d.overlay changes).get? key = (changes.get? key).or (d.get? key) :=
  get?_foldl_insert changes.nodup d key

theorem mem_keys_iff : key ∈ d.keys ↔ ∃ value, d.get? key = some value := by
  simp [keys, get?_eq_some_iff]

omit [DecidableEq α] in
theorem mem_keys_of_mem {e : α × β} (he : e ∈ d.entries) : e.1 ∈ d.keys := mem_map_of_mem he

end Dict

def sortedKeys {α β : Type} [LE α] [DecidableLE α] (d : Dict α β) : List α := d.keys.insertionSort (· ≤ ·)

variable {α β : Type} [LE α] [DecidableLE α] {d : Dict α β}

@[simp] theorem mem_sortedKeys {key : α} : key ∈ sortedKeys d ↔ key ∈ d.keys := mem_insertionSort _

theorem sortedKeys_nodup : (sortedKeys d).Nodup := (perm_insertionSort _ _).nodup_iff.mpr d.nodup

theorem sortedKeys_pairwise {α β : Type} [LinearOrder α] (d : Dict α β) : (sortedKeys d).Pairwise (· < ·) := by
  refine ((pairwise_insertionSort _ d.keys).and sortedKeys_nodup).imp ?_
  grind

end dict

namespace table

structure Table {α κ : Type} (key : α → κ) where
  rows : List α
  unique : (rows.map key).Nodup

namespace Table

variable {α κ : Type} {key : α → κ} {t : Table key} {a b : α}

def empty : Table key where
  rows := []
  unique := List.nodup_nil

def modify (t : Table key) (f : α → α) (hf : ∀ a, key (f a) = key a) : Table key where
  rows := t.rows.map f
  unique := by
    have hkeys : key ∘ f = key := funext hf
    rw [List.map_map, hkeys]
    exact t.unique

def restrict (t : Table key) (p : α → Bool) : Table key where
  rows := t.rows.filter p
  unique := (List.filter_sublist.map key).nodup t.unique

def insert? [DecidableEq κ] (t : Table key) (a : α) : Option (Table key) :=
  if hkey : key a ∈ t.rows.map key then none
  else
    some
      { rows := t.rows ++ [a]
        unique := by
          rw [List.map_append, List.nodup_append]
          refine ⟨t.unique, List.nodup_singleton _, ?_⟩
          intro k hk k' hk' heq
          rw [List.map_singleton, List.mem_singleton] at hk'
          exact hkey (hk' ▸ heq ▸ hk) }

theorem eq_of_key (ha : a ∈ t.rows) (hb : b ∈ t.rows) (hkey : key a = key b) : a = b :=
  List.inj_on_of_nodup_map t.unique ha hb hkey

theorem insert?_rows [DecidableEq κ] {t' : Table key} (hinsert : t.insert? a = some t') :
    key a ∉ t.rows.map key ∧ t'.rows = t.rows ++ [a] := by
  unfold insert? at hinsert
  split at hinsert
  · cases hinsert
  · next hkey =>
    cases hinsert
    exact ⟨hkey, rfl⟩

end Table

end table
