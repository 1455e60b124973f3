import Petalflow.Lib.Fold
import Petalflow.Nodes.Expr

open petalflow.core List

namespace petalflow.nodes.expr

/-- The zeros that equal 0 and yet count as true. -/
def truthyZero : Value → Bool
  | .num .float32 n | .num .int64 n | .num .int32 n => n = 0
  | _ => false

variable {a b : Value}

theorem isTruthy_of_toFloat64 {x : Rat} (ha : toFloat64 a = some x) (hzero : truthyZero a = false) :
    isTruthy a = decide (x ≠ 0) := by
  cases a with
  | num type n => cases type <;> simp_all [toFloat64, truthyZero, isTruthy]
  | _ => cases ha

theorem length_eq_of_deepEqualList {as bs : List Value} (h : deepEqualList as bs = true) : as.length = bs.length := by
  induction as generalizing bs with
  | nil =>
    cases bs with
    | nil => rfl
    | cons b bs => cases h
  | cons a as ih =>
    cases bs with
    | nil => cases h
    | cons b bs =>
      rw [deepEqualList, Bool.and_eq_true] at h
      rw [length_cons, length_cons, ih h.2]

theorem isTruthy_of_deepEqual (h : deepEqual a b = true) : isTruthy a = isTruthy b := by
  cases a with
  | list as =>
    cases b with
    | list bs => rw [isTruthy, isTruthy, length_eq_of_deepEqualList (by simpa only [deepEqual] using h)]
    | _ => simp [deepEqual] at h
  | map as =>
    cases b with
    | map bs =>
      rw [deepEqual, Bool.and_eq_true] at h
      cases as <;> cases bs <;> simp_all [isTruthy, deepEqualEntries]
    | _ => simp [deepEqual] at h
  | num s x =>
    cases b with
    | num t y =>
      obtain ⟨rfl, rfl⟩ : s = t ∧ x = y := by simpa [deepEqual] using h
      rfl
    | _ => simp [deepEqual] at h
  | _ => cases b <;> simp_all [deepEqual, isTruthy]

theorem isTruthy_eq_truthyZero (ha : toFloat64 a = some 0) : isTruthy a = truthyZero a := by
  cases a with
  | num type n => cases type <;> simp_all [toFloat64, truthyZero, isTruthy]
  | _ => cases ha

theorem truthyZero_eq_false {x : Rat} (ha : toFloat64 a = some x) (hx : x ≠ 0) : truthyZero a = false := by
  cases a with
  | num type n => cases type <;> simp_all [toFloat64, truthyZero]
  | _ => cases ha

/-- Equal values count as true or false together exactly if they are not two zeros of which
one has a type that `IsTruthy` does not look at, and what equals 0 counts as false exactly
if it has none of these types. -/
theorem truthiness_respects_equality (a b : Value) :
    ((isEqual a b = true → isTruthy a = isTruthy b) ↔
      (toFloat64 a = some 0 → toFloat64 b = some 0 → truthyZero a = truthyZero b)) ∧
    ((isEqual a (.num .float64 0) = true → isTruthy a = false) ↔ truthyZero a = false) := by
  have hexact : ∀ b, (isEqual a b = true → isTruthy a = isTruthy b) ↔
      (toFloat64 a = some 0 → toFloat64 b = some 0 → truthyZero a = truthyZero b) := by
    intro b
    constructor
    · intro h ha hb
      rw [← isTruthy_eq_truthyZero ha, ← isTruthy_eq_truthyZero hb]
      exact h (by simp [isEqual, ha, hb])
    · intro h hequal
      unfold isEqual at hequal
      split at hequal
      · next x y hx hy =>
        obtain rfl := of_decide_eq_true hequal
        by_cases hzero : x = 0
        · subst hzero
          rw [isTruthy_eq_truthyZero hx, isTruthy_eq_truthyZero hy, h hx hy]
        · rw [isTruthy_of_toFloat64 hx (truthyZero_eq_false hx hzero),
            isTruthy_of_toFloat64 hy (truthyZero_eq_false hy hzero)]
      · exact isTruthy_of_deepEqual hequal
  refine ⟨hexact b, (hexact _).trans ?_⟩
  constructor
  · intro h
    by_contra hodd
    cases a with
    | num type n => cases type <;> simp_all [toFloat64, truthyZero]
    | _ => simp_all [truthyZero]
  · intro h _ _
    rw [h]
    rfl

/-- A zero of type `int64` equals 0 and counts as true. -/
theorem truthy_zero :
    isEqual (.num .int64 0) (.num .float64 0) = true ∧ isTruthy (.num .int64 0) = true ∧
      isTruthy (.num .float64 0) = false := by
  decide +kernel

mutual

/-- The values built from arrays and scalars. -/
def arrayValue : Value → Bool
  | .list elems => arrayValues elems
  | .map _ | .decision _ | .record _ _ => false
  | _ => true

def arrayValues : List Value → Bool
  | [] => true
  | elem :: rest => arrayValue elem && arrayValues rest

end

mutual

theorem deepEqual_iff_eq : ∀ {a b : Value}, arrayValue a = true → (deepEqual a b = true ↔ a = b)
  | .list as, b, ha => by
    cases b with
    | list bs => simpa only [deepEqual, Value.list.injEq] using deepEqualList_iff_eq ha
    | _ => simp [deepEqual]
  | .nil, b, _ | .bool _, b, _ | .str _, b, _ | .num _ _, b, _ => by cases b <;> simp [deepEqual]

theorem deepEqualList_iff_eq : ∀ {as bs : List Value}, arrayValues as = true → (deepEqualList as bs = true ↔ as = bs)
  | [], bs, _ => by cases bs <;> simp [deepEqualList]
  | a :: as, bs, has => by
    cases bs with
    | nil => simp [deepEqualList]
    | cons b bs =>
      rw [arrayValues, Bool.and_eq_true] at has
      rw [deepEqualList, Bool.and_eq_true, deepEqual_iff_eq has.1, deepEqualList_iff_eq has.2, List.cons.injEq]

end

/-- Numbers of different Go types. -/
def mixed : Value → Value → Bool
  | .num s _, .num t _ => s ≠ t
  | _, _ => false

theorem isEqual_of_not_mixed (h : mixed a b = false) : isEqual a b = deepEqual a b := by
  unfold isEqual
  split
  · next x y hx hy =>
    cases a with
    | num s x =>
      cases b with
      | num t y =>
        obtain rfl : s = t := by simpa [mixed] using h
        cases s <;> simp_all [toFloat64, deepEqual]
      | _ => cases hy
    | _ => cases hx
  · rfl

theorem deepEqualList_iff_isEqual {as bs : List Value} (hlength : as.length = bs.length)
    (hsame : ∀ p ∈ as.zip bs, mixed p.1 p.2 = false) :
    deepEqualList as bs = true ↔ ∀ p ∈ as.zip bs, isEqual p.1 p.2 = true := by
  induction as generalizing bs with
  | nil => cases bs <;> simp_all [deepEqualList]
  | cons a as ih =>
    cases bs with
    | nil => cases hlength
    | cons b bs =>
      obtain ⟨hhead, htail⟩ := forall_mem_cons.mp hsame
      rw [deepEqualList, Bool.and_eq_true, zip_cons_cons, forall_mem_cons,
        ih (Nat.succ.inj hlength) htail, isEqual_of_not_mixed hhead]

theorem not_mixed_of_deepEqualList {as bs : List Value} (h : deepEqualList as bs = true) :
    ∀ p ∈ as.zip bs, mixed p.1 p.2 = false := by
  induction as generalizing bs with
  | nil => simp
  | cons a as ih =>
    cases bs with
    | nil => simp
    | cons b bs =>
      rw [deepEqualList, Bool.and_eq_true] at h
      refine forall_mem_cons.mpr ⟨?_, ih h.2⟩
      cases a with
      | num s x =>
        cases b with
        | num t y =>
          have hequal : s = t ∧ x = y := by simpa [deepEqual] using h.1
          simp [mixed, hequal.1]
        | _ => rfl
      | _ => rfl

theorem isEqual_equivalence : Equivalence fun a b : { v : Value // arrayValue v = true } => isEqual a b = true := by
  have hcases : ∀ a b : { v : Value // arrayValue v = true }, isEqual a b = true ↔
      toFloat64 a.1 = toFloat64 b.1 ∧ (toFloat64 a.1 = none → a.1 = b.1) := by
    intro a b
    unfold isEqual
    split
    · next x y hx hy => simp [hx, hy]
    · next hnone =>
      rw [deepEqual_iff_eq a.2]
      refine ⟨fun h => ⟨congrArg _ h, fun _ => h⟩, fun ⟨hfloat, h⟩ => h ?_⟩
      cases hx : toFloat64 a.1 with
      | none => rfl
      | some x => exact absurd (hfloat ▸ hx) (hnone x x hx)
  refine ⟨fun a => ?_, fun {a b} h => ?_, fun {a b c} h h' => ?_⟩
  · exact (hcases a a).mpr ⟨rfl, fun _ => rfl⟩
  · obtain ⟨hfloat, heq⟩ := (hcases a b).mp h
    exact (hcases b a).mpr ⟨hfloat.symm, fun hnone => (heq (hfloat.trans hnone)).symm⟩
  · obtain ⟨hfloat, heq⟩ := (hcases a b).mp h
    obtain ⟨hfloat', heq'⟩ := (hcases b c).mp h'
    exact (hcases a c).mpr ⟨hfloat.trans hfloat', fun hnone => (heq hnone).trans (heq' (hfloat ▸ hnone))⟩

def arrayOf (values : List Value) : Expr := .array (values.map .literal)

theorem eval_arrayOf (lib : Library) (vars : Vars) (values : List Value) :
    eval lib vars (arrayOf values) = .ok (.list values) := by
  have helems : evalElements lib vars (values.map .literal) = .ok values := by
    induction values with
    | nil => rfl
    | cons v values ih => simp [evalElements, eval, ih, bind, Except.bind]
  simp only [arrayOf, eval, helems, bind, Except.bind]

/-- The expression has the value true. -/
def Holds (lib : Library) (vars : Vars) (e : Expr) : Prop := eval lib vars e = .ok (.bool true)

theorem holds_binary {lib : Library} {vars : Vars} {left right : Expr} {l r : Value} {op : TokenKind} {result : Bool}
    (hleft : eval lib vars left = .ok l) (hright : eval lib vars right = .ok r)
    (hop : op ≠ .and ∧ op ≠ .or ∧ op ≠ .nullCoal) (hvalue : evalBinaryValues lib op l r = .ok (.bool result)) :
    Holds lib vars (.binary left op right) ↔ result = true := by
  cases op <;> simp_all [Holds, eval, bind, Except.bind]

/-- Arrays are equal exactly if their elements are, unless all elements are equal and numbers
of different types stand in the same place. `in` finds the elements that are equal, and
equality is an equivalence relation on the values that are built from arrays and scalars. -/
theorem array_equality_congruent (lib : Library) (vars : Vars) :
    (∀ as bs : List Value, as.length = bs.length →
      ((Holds lib vars (.binary (arrayOf as) .eq (arrayOf bs)) ↔
        ∀ p ∈ as.zip bs, Holds lib vars (.binary (.literal p.1) .eq (.literal p.2))) ↔
      (∃ p ∈ as.zip bs, isEqual p.1 p.2 = false) ∨ ∀ p ∈ as.zip bs, mixed p.1 p.2 = false)) ∧
    (∀ x as, Holds lib vars (.binary (.literal x) .in (arrayOf as)) ↔
      ∃ a ∈ as, Holds lib vars (.binary (.literal x) .eq (.literal a))) ∧
    Equivalence fun a b : { v : Value // arrayValue v = true } =>
      Holds lib vars (.binary (.literal a.1) .eq (.literal b.1)) := by
  have hequal : ∀ a b, Holds lib vars (.binary (.literal a) .eq (.literal b)) ↔ isEqual a b = true :=
    fun a b => holds_binary rfl rfl (by decide) rfl
  simp only [hequal]
  refine ⟨?_, ?_, isEqual_equivalence⟩
  · intro as bs hlength
    rw [holds_binary (eval_arrayOf lib vars as) (eval_arrayOf lib vars bs) (by decide) rfl, isEqual_of_not_mixed rfl,
      deepEqual]
    by_cases hsame : ∀ p ∈ as.zip bs, mixed p.1 p.2 = false
    · exact iff_of_true (deepEqualList_iff_isEqual hlength hsame) (.inr hsame)
    -- the arrays differ, so the elements must differ somewhere too
    have hdiffer : deepEqualList as bs ≠ true := fun h => hsame (not_mixed_of_deepEqualList h)
    rw [iff_false_left hdiffer, or_iff_left hsame]
    simp only [not_forall, Bool.not_eq_true, exists_prop]
  · intro x as
    rw [holds_binary rfl (eval_arrayOf lib vars as) (by decide) rfl]
    simp [checkIn]

theorem array_equality_congruent_nested :
    Holds ⟨fun _ => "", fun _ => "", fun _ => "", id, fun _ => .ok fun _ => false⟩ []
      (.binary (arrayOf [.num .int 1, .list [.str "a"]]) .eq (arrayOf [.num .int 1, .list [.str "a"]])) := by
  obtain ⟨harrays, -, hequivalence⟩ := array_equality_congruent
    ⟨fun _ => "", fun _ => "", fun _ => "", id, fun _ => .ok fun _ => false⟩ []
  refine ((harrays _ _ rfl).mpr (.inr (by decide +kernel))).mpr ?_
  simp only [zip_cons_cons, zip_nil_left, forall_mem_cons]
  exact ⟨hequivalence.refl ⟨_, rfl⟩, hequivalence.refl ⟨_, rfl⟩, by simp⟩

/-- 1 equals 1.0, but the array of the one does not equal the array of the other. -/
theorem arrays_of_equals_differ :
    isEqual (.num .int 1) (.num .float64 1) = true ∧
      isEqual (.list [.num .int 1]) (.list [.num .float64 1]) = false := by
  decide +kernel

end petalflow.nodes.expr
