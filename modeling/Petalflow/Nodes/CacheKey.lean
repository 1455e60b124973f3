import Mathlib.Data.List.Sort
import Petalflow.Lib.Scan
import Petalflow.Nodes.LLM

open petalflow.core List

namespace petalflow.nodes

/-- A builder of cache keys from named parts. -/
structure CacheKeyBuilder where
  parts : List String := []

namespace CacheKeyBuilder

/-- No value of the model has a `String` method. -/
def add (lib : Library) (b : CacheKeyBuilder) (key : String) (value : Value) : CacheKeyBuilder :=
  let strVal :=
    match value with
    | .str s => s
    | v => lib.marshal v
  ⟨b.parts ++ [key ++ "=" ++ strVal]⟩

def build (b : CacheKeyBuilder) : String := "&".intercalate (b.parts.insertionSort (· ≤ ·))

def ofPairs (lib : Library) (pairs : List (String × String)) : CacheKeyBuilder :=
  pairs.foldl (fun b pair => b.add lib pair.1 (.str pair.2)) {}

/-- The pairs read back from a key. -/
def pairsOf (key : String) : List (String × String) :=
  (key.toList.splitOn '&').filterMap fun part =>
    (text.cut '=' part).2.map fun value => (.ofList (text.cut '=' part).1, .ofList value)

theorem ofPairs_parts (lib : Library) (pairs : List (String × String)) :
    (ofPairs lib pairs).parts = pairs.map fun pair => pair.1 ++ "=" ++ pair.2 := by
  induction pairs using reverseRecOn with
  | nil => rfl
  | append_singleton pairs pair ih => simp_all [ofPairs, add]

theorem pairsOf_build (lib : Library) {pairs : List (String × String)}
    (hpairs : ∀ pair ∈ pairs, '=' ∉ pair.1.toList ∧ '&' ∉ pair.1.toList ∧ '&' ∉ pair.2.toList) :
    (pairsOf (ofPairs lib pairs).build).Perm pairs := by
  rw [pairsOf, build, ofPairs_parts]
  rcases eq_or_ne pairs [] with rfl | hne
  · decide
  have hsorted := perm_insertionSort (· ≤ ·) (pairs.map fun pair => pair.1 ++ "=" ++ pair.2)
  have hplain : ∀ part ∈ (insertionSort (· ≤ ·) (pairs.map fun pair => pair.1 ++ "=" ++ pair.2)).map String.toList,
      '&' ∉ part := by
    rw [forall_mem_map]
    intro part hpart
    obtain ⟨pair, hpair, rfl⟩ := mem_map.mp (hsorted.subset hpart)
    simp [hpairs pair hpair]
  rw [String.toList_intercalate, show "&".toList = ['&'] from rfl,
    splitOn_intercalate '&' hplain (by simpa [← length_eq_zero_iff] using hne)]
  refine ((hsorted.map _).filterMap _).trans (.of_eq ?_)
  rw [map_map, filterMap_map]
  refine (filterMap_congr fun pair hpair => ?_).trans filterMap_some
  simp [text.cut_append (hpairs pair hpair).1]

theorem build_perm (lib : Library) {pairs pairs' : List (String × String)} (hperm : pairs.Perm pairs') :
    (ofPairs lib pairs).build = (ofPairs lib pairs').build := by
  have hparts := hperm.map fun pair => pair.1 ++ "=" ++ pair.2
  rw [build, build, ofPairs_parts, ofPairs_parts, ((perm_insertionSort (· ≤ ·) _).trans (hparts.trans
    (perm_insertionSort (· ≤ ·) _).symm)).eq_of_pairwise' (pairwise_insertionSort _ _) (pairwise_insertionSort _ _)]

theorem build_single (lib : Library) (name value : String) :
    (ofPairs lib [(name, value)]).build = name ++ "=" ++ value := by
  rw [build, ofPairs_parts]
  exact String.intercalate_singleton

theorem length_le_count {c sep : Char} {parts : List (List Char)} (hparts : ∀ part ∈ parts, c ∈ part) :
    parts.length ≤ (intercalate [sep] parts).count c := by
  induction parts with
  | nil => exact Nat.zero_le _
  | cons part parts ih =>
    obtain ⟨hpart, hparts⟩ := forall_mem_cons.mp hparts
    have hone := count_pos_iff.mpr hpart
    cases parts with
    | nil => simpa [intercalate] using hone
    | cons next parts =>
      rw [intercalate_cons_cons, count_append, count_append, length_cons]
      have hrest := ih hparts
      omega

/-- Each part has an equals sign. -/
theorem length_le_count_build (lib : Library) (pairs : List (String × String)) :
    pairs.length ≤ (ofPairs lib pairs).build.toList.count '=' := by
  have hsorted := perm_insertionSort (· ≤ ·) (pairs.map fun pair => pair.1 ++ "=" ++ pair.2)
  rw [build, ofPairs_parts, String.toList_intercalate, show "&".toList = ['&'] from rfl]
  refine Nat.le_trans (Nat.le_of_eq ?_) (length_le_count ?_)
  · rw [length_map, hsorted.length_eq, length_map]
  · intro part hpart
    obtain ⟨text, htext, rfl⟩ := mem_map.mp hpart
    obtain ⟨pair, _, rfl⟩ := mem_map.mp (hsorted.subset htext)
    simp

theorem exists_pair_of_mem {key : String} (hmem : '=' ∈ key.toList) :
    ∃ name value, key = name ++ "=" ++ value ∧ '=' ∉ name.toList := by
  obtain ⟨name, value, hkey, hname⟩ := eq_append_cons_of_mem hmem
  exact ⟨.ofList name, .ofList value, by simp [← String.toList_inj, hkey], by simpa using hname⟩

/-- The key of a list of parts determines them exactly if there are none, or one without a further equals
sign. Two keys tell apart the lists whose names have no separator and whose values no ampersand. -/
theorem keys_determine_parts (lib : Library) (pairs : List (String × String)) :
    ((∀ pairs' : List (String × String), (pairs'.map Prod.fst).Nodup →
        ((ofPairs lib pairs).build = (ofPairs lib pairs').build ↔ pairs.Perm pairs')) ↔
      pairs = [] ∨ ∃ name value, pairs = [(name, value)] ∧ '=' ∉ name.toList ∧ '=' ∉ value.toList) ∧
    ∀ pairs' : List (String × String),
      (∀ pair ∈ pairs ++ pairs', '=' ∉ pair.1.toList ∧ '&' ∉ pair.1.toList ∧ '&' ∉ pair.2.toList) →
      ((ofPairs lib pairs).build = (ofPairs lib pairs').build ↔ pairs.Perm pairs') := by
  refine ⟨⟨fun hall => ?_, ?_⟩, fun pairs' hpairs => ?_⟩
  · have hsingle (name value : String) (hkey : (ofPairs lib pairs).build = name ++ "=" ++ value) :
        pairs = [(name, value)] :=
      perm_singleton.mp ((hall [(name, value)] (nodup_singleton _)).mp (hkey.trans (build_single lib _ _).symm))
    refine or_iff_not_imp_left.mpr fun hne => ?_
    have hcount := length_le_count_build lib pairs
    have hmem : '=' ∈ (ofPairs lib pairs).build.toList :=
      count_pos_iff.mp (Nat.lt_of_lt_of_le (length_pos_iff.mpr hne) hcount)
    obtain ⟨name, value, hkey, hname⟩ := exists_pair_of_mem hmem
    refine ⟨name, value, hsingle name value hkey, hname, fun hvalue => ?_⟩
    -- the key could be cut at an equals sign of the value
    obtain ⟨first, second, rfl, _⟩ := exists_pair_of_mem hvalue
    have hother := hsingle (name ++ "=" ++ first) second (by simp [hkey, String.append_assoc])
    rw [hsingle name _ hkey, cons.injEq, Prod.mk.injEq] at hother
    have hlength := congrArg String.length hother.1.1
    have hsign : "=".length = 1 := rfl
    simp only [String.length_append] at hlength
    omega
  · rintro (rfl | ⟨name, value, rfl, hname, hvalue⟩) pairs' _
    · refine ⟨fun hkey => ?_, build_perm lib⟩
      have hcount := length_le_count_build lib pairs'
      rw [← hkey] at hcount
      rw [length_eq_zero_iff.mp (Nat.le_zero.mp hcount)]
    · refine ⟨fun hkey => ?_, build_perm lib⟩
      rw [build_single] at hkey
      have hone : (name ++ "=" ++ value).toList.count '=' = 1 := by
        simp [count_eq_zero.mpr hname, count_eq_zero.mpr hvalue]
      have hcount := length_le_count_build lib pairs'
      rw [← hkey, hone] at hcount
      match pairs', hcount with
      | [], _ =>
        rw [hkey] at hone
        exact absurd hone Nat.zero_ne_one
      | [(name', value')], _ =>
        rw [build_single] at hkey
        rw [hkey] at hone
        have hname' : '=' ∉ name'.toList := by
          refine count_eq_zero.mp ?_
          simp only [String.toList_append, count_append] at hone
          have hsign : "=".toList.count '=' = 1 := rfl
          omega
        have htexts := congrArg (text.cut '=' ·.toList) hkey
        simp [text.cut_append hname, text.cut_append hname'] at htexts
        rw [String.toList_inj.mp htexts.1, String.toList_inj.mp htexts.2]
  · rw [forall_mem_append] at hpairs
    refine ⟨fun hkey => ?_, build_perm lib⟩
    exact (hkey ▸ pairsOf_build lib hpairs.1).symm.trans (pairsOf_build lib hpairs.2)

def plainLibrary : Library :=
  { sprint := fun _ => "", typeName := fun _ => "", marshal := fun _ => "", toLower := fun s => s,
    compileRegexp := fun _ => .error "unsupported" }

theorem keys_of_two_parts :
    (ofPairs plainLibrary [("a", "1"), ("b", "2=")]).build =
      (ofPairs plainLibrary [("b", "2="), ("a", "1")]).build :=
  ((keys_determine_parts _ _).2 _ (by decide)).mpr (.swap _ _ _)

/-- An ampersand in a value reads as the start of another part. -/
theorem keys_collide :
    (ofPairs plainLibrary [("a", "1&b=2")]).build =
      (ofPairs plainLibrary [("a", "1"), ("b", "2")]).build ∧
    ¬ [("a", "1&b=2")].Perm [("a", "1"), ("b", "2")] := by
  decide

end CacheKeyBuilder

end petalflow.nodes
