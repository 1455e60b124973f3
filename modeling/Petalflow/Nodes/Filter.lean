import Mathlib.Algebra.Order.Ring.Unbundled.Rat
import Petalflow.Nodes.Helpers

open petalflow.core List

namespace petalflow.nodes

/-- `sort.Slice`: the elements in some order, and in the order of a comparison if it is one. -/
structure SliceSort (α : Type) where
  slice : (α → α → Bool) → List α → List α
  perm : ∀ less l, (slice less l).Perm l
  sorted : ∀ less l, (∀ a b c, less b a = false → less c b = false → less c a = false) →
    (∀ a b, less a b = false ∨ less b a = false) → (slice less l).Pairwise fun a b => less b a = false

/-- What a filter operation of type `top_n` is given. -/
structure FilterOp where
  n : Int
  scoreField : String
  order : String := ""

structure Scored (α : Type) where
  index : Nat
  item : α
  score : Rat

section topN

variable {α : Type} (sort : SliceSort (Scored α)) (extractValue : α → String → Option Value)
  (op : FilterOp)

def extractFloat (item : α) (fieldPath : String) : Option Rat :=
  (extractValue item fieldPath).bind fun
    | .num .float64 n | .num .float32 n | .num .int n | .num .int64 n | .num .int32 n => some n
    | _ => none

/-- The score of an item, 0 if it has none. -/
def score (item : α) : Rat := (extractFloat extractValue item op.scoreField).getD 0

/-- The comparison of scores for the order of the operation. -/
def better (x y : Rat) : Bool :=
  if op.order ≠ "asc" then y < x else x < y

/-- The items in the order of their scores. -/
def ranked (l : List α) : List (Scored α) :=
  sort.slice (fun a b => better op a.score b.score)
    (l.mapIdx fun index item => { index, item, score := score extractValue op item })

def filterTopN (l : List α) : List α :=
  if op.n ≤ 0 ∨ (l.length : Int) ≤ op.n then l
  else ((ranked sort extractValue op l).take op.n.toNat).map Scored.item

theorem better_total (x y : Rat) : better op x y = false ∨ better op y x = false := by
  unfold better
  split
  · simpa using le_total x y
  · simpa using le_total y x

theorem better_trans {x y z : Rat} (hxy : better op y x = false) (hyz : better op z y = false) :
    better op z x = false := by
  unfold better at *
  split at hxy
  · simp only [*, if_true, ne_eq, not_false_eq_true, decide_eq_false_iff_not, not_lt] at *
    exact hyz.trans hxy
  · simp only [*, if_false, decide_eq_false_iff_not, not_lt] at *
    exact hxy.trans hyz

theorem ranked_perm (l : List α) : ((ranked sort extractValue op l).map Scored.item).Perm l := by
  refine ((sort.perm _ _).map Scored.item).trans (.of_eq ?_)
  simp [mapIdx_eq_zipIdx_map, Function.comp_def]

theorem ranked_score {l : List α} {s : Scored α} (hs : s ∈ ranked sort extractValue op l) :
    s.score = score extractValue op s.item := by
  obtain ⟨index, hlt, rfl⟩ := mem_mapIdx.mp ((sort.perm _ _).mem_iff.mp hs)
  rfl

theorem ranked_sorted (l : List α) : ((ranked sort extractValue op l).map Scored.item).Pairwise fun a b =>
    better op (score extractValue op b) (score extractValue op a) = false := by
  rw [pairwise_map]
  have hsorted : (ranked sort extractValue op l).Pairwise fun a b => better op b.score a.score = false :=
    sort.sorted _ _ (fun _ _ _ => better_trans op) fun _ _ => better_total op _ _
  refine hsorted.imp_of_mem fun {a b} ha hb hab => ?_
  rwa [← ranked_score sort extractValue op ha, ← ranked_score sort extractValue op hb]

end topN

/-- What counts as the score of an item: the number under the field, or 0 if there is none. -/
inductive ScoreIs {α : Type} (extractValue : α → String → Option Value) (field : String) (item : α) : Rat → Prop
  | number {type : NumType} {n : Rat} (hvalue : extractValue item field = some (.num type n))
      (htype : type ∈ [.float64, .float32, .int, .int64, .int32]) : ScoreIs extractValue field item n
  | missing (hvalue : ∀ type n, extractValue item field = some (.num type n) →
      type ∉ [.float64, .float32, .int, .int64, .int32]) : ScoreIs extractValue field item 0

theorem scoreIs_iff {α : Type} {extractValue : α → String → Option Value} {op : FilterOp} {item : α} {x : Rat} :
    ScoreIs extractValue op.scoreField item x ↔ score extractValue op item = x := by
  constructor
  · rintro (⟨hvalue, htype⟩ | hvalue)
    · simp only [mem_cons, not_mem_nil, or_false] at htype
      rcases htype with rfl | rfl | rfl | rfl | rfl <;> simp [score, extractFloat, hvalue]
    · cases hfield : extractValue item op.scoreField with
      | none => simp [score, extractFloat, hfield]
      | some v =>
        cases v with
        | num type n =>
          have htype := hvalue type n hfield
          cases type <;> simp_all [score, extractFloat]
        | _ => simp [score, extractFloat, hfield]
  · rintro rfl
    cases hfield : extractValue item op.scoreField with
    | none =>
      have hscore : score extractValue op item = 0 := by simp [score, extractFloat, hfield]
      exact hscore ▸ .missing (by simp [hfield])
    | some v =>
      cases v with
      | num type n =>
        by_cases htype : type ∈ [.float64, .float32, .int, .int64, .int32]
        · have hscore : score extractValue op item = n := by
            simp only [mem_cons, not_mem_nil, or_false] at htype
            rcases htype with rfl | rfl | rfl | rfl | rfl <;> simp [score, extractFloat, hfield]
          exact hscore ▸ .number hfield htype
        · have hscore : score extractValue op item = 0 := by cases type <;> simp_all [score, extractFloat]
          refine hscore ▸ .missing fun s m h => ?_
          rw [hfield] at h
          cases h
          exact htype
      | _ =>
        have hscore : score extractValue op item = 0 := by simp [score, extractFloat, hfield]
        exact hscore ▸ .missing (by simp [hfield])

/-- The one score is at least as good as the other in the given order. -/
def AsGood (order : String) (x y : Rat) : Prop := if order = "asc" then x ≤ y else y ≤ x

theorem asGood_of_not_better {op : FilterOp} {x y : Rat} (h : better op y x = false) : AsGood op.order x y := by
  unfold better at h
  unfold AsGood
  by_cases horder : op.order = "asc" <;> simp_all

/-- `filterTopN` keeps the right number of items, drops none whose score is better than that
of one it keeps, and sorts what it keeps if it drops anything. -/
theorem top_n_correct {α : Type} (sort : SliceSort (Scored α)) (extractValue : α → String → Option Value)
    (op : FilterOp) (l : List α) (hn : 1 ≤ op.n) :
    ∃ dropped, (filterTopN sort extractValue op l ++ dropped).Perm l ∧
      (filterTopN sort extractValue op l).length = min op.n.toNat l.length ∧
      (∀ k ∈ filterTopN sort extractValue op l, ∀ d ∈ dropped, ∃ x y,
        ScoreIs extractValue op.scoreField k x ∧ ScoreIs extractValue op.scoreField d y ∧ AsGood op.order x y) ∧
      (op.n.toNat < l.length → (filterTopN sort extractValue op l).Pairwise fun a b => ∃ x y,
        ScoreIs extractValue op.scoreField a x ∧ ScoreIs extractValue op.scoreField b y ∧ AsGood op.order x y) := by
  have hgood : ∀ a b, better op (score extractValue op b) (score extractValue op a) = false → ∃ x y,
      ScoreIs extractValue op.scoreField a x ∧ ScoreIs extractValue op.scoreField b y ∧ AsGood op.order x y :=
    fun a b h => ⟨_, _, scoreIs_iff.mpr rfl, scoreIs_iff.mpr rfl, asGood_of_not_better h⟩
  unfold filterTopN
  split
  · next hshort => exact ⟨[], by simp, by omega, nofun, by omega⟩
  · next hlong =>
    have hperm := ranked_perm sort extractValue op l
    have hsorted := ranked_sorted sort extractValue op l
    have hlength := hperm.length_eq
    rw [← take_append_drop op.n.toNat ((ranked sort extractValue op l).map Scored.item)] at hperm hsorted
    obtain ⟨hkept, -, hbetter⟩ := pairwise_append.mp hsorted
    rw [← map_take] at hperm hkept hbetter
    refine ⟨_, hperm, ?_, fun k hk d hd => hgood k d (hbetter k hk d hd), fun _ => hkept.imp (hgood _ _)⟩
    rw [length_map] at hlength ⊢
    rw [length_take, hlength]

namespace scores

def sort : SliceSort (Scored Value) where
  slice less l := l.mergeSort fun a b => !less b a
  perm less l := List.mergeSort_perm l _
  sorted less l htrans htotal :=
    (List.pairwise_mergeSort (by simpa using fun a b c => htrans a b c) (by simpa [or_comm] using htotal) l).imp
      (by simp)

def hit (score : Rat) : Value := .map [("score", .num .float64 score)]

def field (item : Value) (fieldPath : String) : Option Value :=
  if fieldPath = "" then none else Envelope.nestedValue item (text.splitDots fieldPath)

end scores

/-- Of two hits the one with the better score is kept. -/
theorem top_n_correct_best :
    filterTopN scores.sort scores.field ⟨1, "score", ""⟩ [scores.hit 1, scores.hit 2] = [scores.hit 2] := by
  obtain ⟨dropped, hperm, hlength, hbetter, -⟩ :=
    top_n_correct scores.sort scores.field ⟨1, "score", ""⟩ [scores.hit 1, scores.hit 2] (by decide)
  obtain ⟨kept, hkept⟩ := length_eq_one_iff.mp hlength
  rw [hkept] at hperm hbetter ⊢
  have hmem : kept ∈ [scores.hit 1, scores.hit 2] := hperm.subset (by simp)
  rcases mem_pair.mp hmem with rfl | rfl
  · -- the other hit would have been dropped with a better score
    have hdropped : dropped = [scores.hit 2] := perm_singleton.mp (perm_cons _ |>.mp hperm)
    obtain ⟨x, y, hx, hy, hgood⟩ := hbetter (scores.hit 1) (by simp) (scores.hit 2) (by simp [hdropped])
    obtain rfl : 1 = x := scoreIs_iff.mp hx
    obtain rfl : 2 = y := scoreIs_iff.mp hy
    rw [AsGood, if_neg (by decide)] at hgood
    exact absurd hgood (by decide +kernel)
  · rfl

end petalflow.nodes
