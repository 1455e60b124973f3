import Mathlib.Data.List.DropRight
import Mathlib.Data.String.Basic

open List

namespace calendar

def digits : Nat → Nat → List Char
  | 0, _ => []
  | width + 1, n => digits width (n / 10) ++ [Char.ofNat ('0'.toNat + n % 10)]

def decimal (width n : Nat) : List Char :=
  if n < 10 ^ width then digits width n else n.repr.toList

def render : List (Nat × List Char) → List Nat → List Char
  | (width, sep) :: layout, n :: ns => decimal width n ++ (sep ++ render layout ns)
  | _, _ => []

theorem digits_length (width n : Nat) : (digits width n).length = width := by
  induction width generalizing n with
  | zero => rfl
  | succ width ih => simp [digits, ih]

theorem append_lt_append {α : Type} [LT α] {l r : List α} (hlength : l.length = r.length) (hlt : l < r)
    (a b : List α) : l ++ a < r ++ b := by
  induction hlt with
  | nil => simp at hlength
  | cons _ ih =>
    rw [cons_append, cons_append]
    exact Lex.cons (ih (by simpa using hlength))
  | rel hlt => exact Lex.rel hlt

theorem digit_lt {d e : Nat} (hlt : d < e) (he : e < 10) : Char.ofNat ('0'.toNat + d) < Char.ofNat ('0'.toNat + e) := by
  have hall : ∀ e < 10, ∀ d < e, Char.ofNat ('0'.toNat + d) < Char.ofNat ('0'.toNat + e) := by decide
  exact hall e he d hlt

theorem digits_lt {width n m : Nat} (hlt : n < m) (hm : m < 10 ^ width) : digits width n < digits width m := by
  induction width generalizing n m with
  | zero => simp at hm; omega
  | succ width ih =>
    rw [Nat.pow_succ] at hm
    rw [digits, digits]
    rcases Nat.lt_or_ge (n / 10) (m / 10) with hless | hge
    · exact append_lt_append (by simp [digits_length]) (ih hless (by omega)) _ _
    · have hsame : n / 10 = m / 10 := by omega
      rw [hsame]
      exact Lex.append_left _ (Lex.rel (digit_lt (by omega) (by omega))) _

theorem mem_digits {width n : Nat} {c : Char} (hc : c ∈ digits width n) : '0' ≤ c ∧ c < 'Z' := by
  induction width generalizing n with
  | zero => cases hc
  | succ width ih =>
    rcases mem_append.mp hc with hc | hc
    · exact ih hc
    · have hall : ∀ d < 10, '0' ≤ Char.ofNat ('0'.toNat + d) ∧ Char.ofNat ('0'.toNat + d) < 'Z' := by decide
      rw [mem_singleton.mp hc]
      exact hall _ (Nat.mod_lt _ (by decide))

/-- The first place where two texts of one length differ. -/
theorem exists_split {α : Type} [LT α] {l r : List α} (hlength : l.length = r.length) (hlt : l < r) :
    ∃ common c d left right, c < d ∧ l = common ++ c :: left ∧ r = common ++ d :: right := by
  induction hlt with
  | nil => simp at hlength
  | cons _ ih =>
    obtain ⟨common, c, d, left, right, hcd, rfl, rfl⟩ := ih (by simpa using hlength)
    exact ⟨_ :: common, c, d, left, right, hcd, rfl, rfl⟩
  | rel hlt => exact ⟨[], _, _, _, _, hlt, rfl, rfl⟩

theorem rdropWhile_split {α : Type} {p : α → Bool} {d : α} (hd : p d = false) (common right : List α) :
    ∃ rest, (common ++ d :: right).rdropWhile p = common ++ d :: rest := by
  simp only [rdropWhile, reverse_append, reverse_cons, append_assoc, dropWhile_append]
  split
  · exact ⟨[], by simp [hd]⟩
  · exact ⟨(right.reverse.dropWhile p).reverse, by simp⟩

def Fits : List (Nat × List Char) → List Nat → Prop
  | (width, _) :: layout, n :: ns => n < 10 ^ width ∧ Fits layout ns
  | [], [] => True
  | _, _ => False

theorem render_lt {layout : List (Nat × List Char)} {ns ms : List Nat} (hns : Fits layout ns) (hms : Fits layout ms)
    (hlt : ns < ms) (a b : List Char) : render layout ns ++ a < render layout ms ++ b := by
  induction hlt generalizing layout with
  | nil => cases layout <;> simp [Fits] at hns hms
  | @cons n ns ms _ ih =>
    cases layout with
    | nil => exact hns.elim
    | cons head layout =>
      simp only [render, append_assoc]
      exact Lex.append_left _ (Lex.append_left _ (ih hns.2 hms.2) _) _
  | @rel n ns m ms hlt =>
    cases layout with
    | nil => exact hns.elim
    | cons head layout => simp_all [decimal, append_lt_append, digits_length, digits_lt, render, Fits]

def daysIn (month year : Nat) : Nat :=
  if month = 2 then if 4 ∣ year ∧ (¬ 100 ∣ year ∨ 400 ∣ year) then 29 else 28
  else if month ∈ [4, 6, 9, 11] then 30 else 31

@[ext] structure Time where
  year : Nat
  month : Nat
  day : Nat
  hour : Nat
  minute : Nat
  second : Nat
  nano : Nat
  date : 1 ≤ month ∧ month ≤ 12 ∧ 1 ≤ day ∧ day ≤ daysIn month year
  clock : hour < 24 ∧ minute < 60 ∧ second < 60 ∧ nano < 10 ^ 9
deriving DecidableEq

namespace Time

theorem midnight : 0 < 24 ∧ 0 < 60 ∧ 0 < 60 ∧ 0 < 10 ^ 9 := by decide

def zero : Time := ⟨1, 1, 1, 0, 0, 0, 0, by decide, midnight⟩

def fields (t : Time) : List Nat := [t.year, t.month, t.day, t.hour, t.minute, t.second]

def key (t : Time) : List Nat := t.fields ++ [t.nano]

theorem key_injective : Function.Injective key := by
  intro t u hkey
  simp only [key, fields, cons_append, nil_append, List.cons.injEq] at hkey
  grind [Time.ext]

instance : LinearOrder Time := LinearOrder.lift' key key_injective

variable {t u : Time}

theorem lt_iff : t < u ↔ t.key < u.key := Iff.rfl

theorem year_le (hle : t ≤ u) : t.year ≤ u.year := by
  by_contra hless
  exact absurd (Lex.rel (Nat.lt_of_not_le hless) : u < t) (not_lt.mpr hle)

def fraction (nano : Nat) : List Char :=
  if nano = 0 then [] else '.' :: (digits 9 nano).rdropWhile (· = '0')

def layout : List (Nat × List Char) := [(4, ['-']), (2, ['-']), (2, ['T']), (2, [':']), (2, [':']), (2, [])]

def rfc3339Nano (t : Time) : String := String.ofList (render layout t.fields ++ (fraction t.nano ++ ['Z']))

theorem fits (t : Time) (hyear : t.year < 10000) : Fits layout t.fields := by
  obtain ⟨_, hmonth, _, hday⟩ := t.date
  obtain ⟨hhour, hminute, hsecond, _⟩ := t.clock
  have hdays : daysIn t.month t.year ≤ 31 := by
    unfold daysIn
    split_ifs <;> omega
  refine ⟨?_, ?_, ?_, ?_, ?_, ?_, trivial⟩ <;> omega

theorem fields_lt (hlt : t < u) (hfull : t.fields = u.fields → u.nano = 0) : t.fields < u.fields := by
  rcases lt_trichotomy t.fields u.fields with hless | heq | hgreater
  · exact hless
  · rw [lt_iff, key, key, heq, hfull heq] at hlt
    rcases Nat.eq_zero_or_pos t.nano with hzero | hpos
    · simp_all
    · have hback : u.fields ++ [0] < u.fields ++ [t.nano] := Lex.append_left (· < ·) (Lex.rel hpos) _
      exact absurd hlt hback.asymm
  · have hlength : u.fields.length = t.fields.length := rfl
    exact absurd hlt (append_lt_append hlength hgreater _ _).asymm

theorem rfc3339Nano_lt (ht : t.year < 10000) (hu : u.year < 10000) (hfull : t.fields = u.fields → u.nano = 0)
    (hlt : t < u) : t.rfc3339Nano < u.rfc3339Nano := by
  rw [String.lt_iff_toList_lt]
  simp only [rfc3339Nano, String.toList_ofList]
  exact render_lt (t.fits ht) (u.fits hu) (fields_lt hlt hfull) _ _

theorem fraction_cases {n m : Nat} (hlt : n < m) (hm : m < 10 ^ 9) :
    (∃ c rest, c < 'Z' ∧ fraction m = fraction n ++ c :: rest) ∨
      ∃ common c d left right, c < d ∧ fraction n = common ++ c :: left ∧ fraction m = common ++ d :: right := by
  have hpos : m ≠ 0 := by omega
  by_cases hn : n = 0
  · exact .inl ⟨'.', _, by decide, by simp only [fraction, hn, hpos, if_true, if_false]; rfl⟩
  have hlength : (digits 9 n).length = (digits 9 m).length := by rw [digits_length, digits_length]
  obtain ⟨common, c, d, left, right, hcd, hdn, hdm⟩ := exists_split hlength (digits_lt hlt hm)
  have hc := mem_digits (hdn ▸ mem_append_right _ mem_cons_self : c ∈ digits 9 n)
  have hd := mem_digits (hdm ▸ mem_append_right _ mem_cons_self : d ∈ digits 9 m)
  have hzero : decide (d = '0') = false := decide_eq_false (hc.1.trans_lt hcd).ne'
  obtain ⟨rest, hrest⟩ := rdropWhile_split (p := (decide <| · = '0')) hzero common right
  simp only [fraction, hn, hpos, if_false, hdn, hdm, hrest]
  -- the zeros dropped from the smaller number end before the place of difference, or after it
  have hshort := rdropWhile_prefix (decide <| · = '0') (common ++ c :: left)
  generalize rdropWhile (decide <| · = '0') (common ++ c :: left) = short at hshort ⊢
  rcases prefix_or_prefix_of_prefix hshort (prefix_append common (c :: left)) with hbefore | hafter
  · obtain ⟨more, hmore⟩ := hbefore
    left
    cases more with
    | nil => exact ⟨d, rest, hd.2, by rw [append_nil] at hmore; rw [hmore]; rfl⟩
    | cons e more =>
      have he : e ∈ digits 9 m := by
        rw [hdm, ← hmore]
        simp
      exact ⟨e, more ++ d :: rest, (mem_digits he).2, by rw [← hmore]; simp⟩
  · obtain ⟨more, hmore⟩ := hafter
    rw [← hmore, prefix_append_right_inj] at hshort
    rw [← hmore]
    cases more with
    | nil => exact .inl ⟨d, rest, hd.2, by simp⟩
    | cons e more =>
      obtain ⟨rfl, _⟩ := cons_prefix_cons.mp hshort
      exact .inr ⟨'.' :: common, _, d, more, rest, hcd, rfl, rfl⟩

/-- The first time is the earlier one, but its text is the greater one: both are in one
second, and the digits of its fraction begin those of the second's. -/
def Overtakes (t u : Time) : Prop :=
  t.fields = u.fields ∧ t.nano < u.nano ∧ fraction t.nano <+: fraction u.nano

instance : Decidable (Overtakes t u) := inferInstanceAs (Decidable (_ ∧ _ ∧ _))

theorem lt_of_fields_eq (hfields : t.fields = u.fields) : t < u ↔ t.nano < u.nano := by
  rw [lt_iff, key, key, hfields]
  constructor
  · intro hlt
    by_contra hge
    rcases (Nat.le_of_not_lt hge).lt_or_eq with hless | heq
    · exact hlt.asymm (Lex.append_left (· < ·) (Lex.rel hless) _)
    · rw [heq] at hlt
      exact lt_irrefl _ hlt
  · intro hlt
    exact Lex.append_left (· < ·) (Lex.rel hlt) _

theorem rfc3339Nano_overtaken (hover : Overtakes t u) : u.rfc3339Nano < t.rfc3339Nano := by
  obtain ⟨hfields, hnano, hstart⟩ := hover
  rw [String.lt_iff_toList_lt]
  simp only [rfc3339Nano, String.toList_ofList, hfields]
  refine Lex.append_left _ ?_ _
  rcases fraction_cases hnano u.clock.2.2.2 with ⟨c, rest, hc, hmore⟩ | ⟨common, c, d, left, right, hcd, hl, hr⟩
  · rw [hmore, append_assoc]
    exact Lex.append_left _ (Lex.rel hc) _
  · rw [hl, hr, prefix_append_right_inj] at hstart
    exact absurd (cons_prefix_cons.mp hstart).1 hcd.ne

/-- Other times are in the order of their texts. -/
theorem rfc3339Nano_lt_of_lt (ht : t.year < 10000) (hu : u.year < 10000) (hlt : t < u) (hover : ¬ Overtakes t u) :
    t.rfc3339Nano < u.rfc3339Nano := by
  by_cases hfields : t.fields = u.fields
  · have hnano := (lt_of_fields_eq hfields).mp hlt
    rw [String.lt_iff_toList_lt]
    simp only [rfc3339Nano, String.toList_ofList, hfields]
    refine Lex.append_left _ ?_ _
    rcases fraction_cases hnano u.clock.2.2.2 with ⟨c, rest, hc, hmore⟩ | ⟨common, c, d, left, right, hcd, hl, hr⟩
    · exact absurd ⟨hfields, hnano, hmore ▸ prefix_append _ _⟩ hover
    · rw [hl, hr, append_assoc, append_assoc]
      exact Lex.append_left _ (Lex.rel hcd) _
  · exact rfc3339Nano_lt ht hu (fun h => absurd h hfields) hlt

end Time

/-- The times of a repeated event, all of them on full minutes, and a search for
the next one that gives up after five years. -/
structure Recurrence where
  Matches : Time → Prop
  minutes : ∀ t, Matches t → t.second = 0 ∧ t.nano = 0
  next : Time → Time
  next_least : ∀ t u, Matches u → t < u → u.year ≤ t.year + 5 → Matches (next t) ∧ t < next t ∧ next t ≤ u
  next_zero : ∀ t, (∀ u, Matches u → t < u → t.year + 5 < u.year) → next t = Time.zero

end calendar
