import Mathlib.Data.List.DropRight
import Mathlib.Data.List.Infix

open List

namespace text

def split (sep : Char) : List Char → List (List Char)
  | [] => [[]]
  | c :: cs =>
    if c = sep then [] :: split sep cs
    else
      match split sep cs with
      | [] => [[c]]
      | piece :: pieces => (c :: piece) :: pieces

def splitDots (path : String) : List String := (split '.' path.toList).map String.ofList

def contains (s sub : String) : Bool := s.toList.tails.any sub.toList.isPrefixOf

def hasPrefix (s start : String) : Bool := start.toList.isPrefixOf s.toList

def hasSuffix (s ending : String) : Bool := ending.toList.isSuffixOf s.toList

theorem ne_append {s ending : String} (h : ending ≠ "") : s ≠ s ++ ending := by
  intro heq
  have hlist := congrArg String.toList heq
  rw [String.toList_append] at hlist
  exact h (String.toList_inj.mp (List.self_eq_append_right.mp hlist))

/-! Trimming, patterns and compound names. -/

def isSpace (c : Char) : Bool :=
  c.toNat ∈ [0x09, 0x0A, 0x0B, 0x0C, 0x0D, 0x20, 0x85, 0xA0, 0x1680, 0x2028, 0x2029, 0x202F, 0x205F, 0x3000] ||
    (0x2000 ≤ c.toNat && c.toNat ≤ 0x200A)

def trimSpace (s : String) : String :=
  .ofList ((s.toList.dropWhile isSpace).reverse.dropWhile isSpace).reverse

/-- The characters `[a-zA-Z0-9_]`. -/
def isWord (c : Char) : Bool := c.isAlphanum || c = '_'

/-- The text before the first separator, and the text after it if there is one. -/
def cut (sep : Char) (cs : List Char) : List Char × Option (List Char) :=
  match cs.dropWhile (· ≠ sep) with
  | [] => (cs, none)
  | _ :: after => (cs.takeWhile (· ≠ sep), some after)

/-- What a pattern captures at the start of a text, and the text after the match. -/
abbrev Pattern (β : Type) := List Char → Option (β × List Char)

/-- The captures of all matches from left to right. The number counts the
characters that still belong to the last match. -/
def findAll {β : Type} (pattern : Pattern β) : Nat → List Char → List β
  | _, [] => []
  | skip + 1, _ :: cs => findAll pattern skip cs
  | 0, c :: cs =>
    match pattern (c :: cs) with
    | some (found, rest) => found :: findAll pattern (cs.length - rest.length) cs
    | none => findAll pattern 0 cs

def replaceAll (pattern : Pattern (List Char)) : Nat → List Char → List Char
  | _, [] => []
  | skip + 1, _ :: cs => replaceAll pattern skip cs
  | 0, c :: cs =>
    match pattern (c :: cs) with
    | some (replacement, rest) => replacement ++ replaceAll pattern (cs.length - rest.length) cs
    | none => c :: replaceAll pattern 0 cs

variable {α : Type} {q : α → Bool}

theorem dropWhile_of_head {l : List α} (hhead : l.head?.any (!q ·) = true) : l.dropWhile q = l := by
  cases l with
  | nil => rfl
  | cons a rest => simp_all

theorem trimSpace_trimSpace (s : String) : trimSpace (trimSpace s) = trimSpace s := by
  let front := s.toList.dropWhile isSpace
  have hfront : front.dropWhile isSpace = front := dropWhile_idempotent isSpace _
  have hback : (front.rdropWhile isSpace).rdropWhile isSpace = front.rdropWhile isSpace :=
    rdropWhile_idempotent isSpace _
  have hboth : (front.rdropWhile isSpace).dropWhile isSpace = front.rdropWhile isSpace := by
    obtain ⟨tail, htail⟩ := rdropWhile_prefix isSpace front
    cases hcs : front.rdropWhile isSpace with
    | nil => rfl
    | cons c cs =>
      rw [hcs] at htail
      rw [← htail, cons_append] at hfront
      simp_all
  change String.ofList (((String.ofList (front.rdropWhile isSpace)).toList.dropWhile isSpace).rdropWhile isSpace) =
    String.ofList (front.rdropWhile isSpace)
  rw [String.toList_ofList, hboth, hback]

theorem hasPrefix_trimSpace {start : String} (hhead : start.toList.head?.any (!isSpace ·) = true)
    (hlast : start.toList.getLast?.any (!isSpace ·) = true) (rest : String) :
    hasPrefix (trimSpace (start ++ rest)) start = true := by
  have hleft : (start.toList ++ rest.toList).dropWhile isSpace = start.toList ++ rest.toList := by
    apply dropWhile_of_head
    cases hstart : start.toList with
    | nil =>
      rw [hstart] at hhead
      cases hhead
    | cons c cs => rwa [hstart] at hhead
  have hright : start.toList.reverse.dropWhile isSpace = start.toList.reverse := by
    apply dropWhile_of_head
    rwa [head?_reverse]
  rw [hasPrefix, trimSpace, String.toList_ofList, isPrefixOf_iff_prefix, String.toList_append, hleft,
    reverse_append, dropWhile_append]
  split
  · rw [hright, reverse_reverse]
  simp_all

theorem isAlpha_eq (c : Char) : c.isAlpha = (c.isUpper || c.isLower) := rfl

theorem isUpper_eq (c : Char) : c.isUpper = decide (c.val ≥ 'A'.val ∧ c.val ≤ 'Z'.val) := rfl

theorem isLower_eq (c : Char) : c.isLower = (decide (c.val ≥ 'a'.val) && decide (c.val ≤ 'z'.val)) := rfl

theorem toNat_lt_of_isWord {c : Char} (hc : isWord c = true) : c.toNat < 123 := by
  simp only [isWord, Char.isAlphanum, isAlpha_eq, isUpper_eq, isLower_eq, Char.isDigit, Bool.or_eq_true,
    Bool.and_eq_true, decide_eq_true_eq, UInt32.le_iff_toNat_le] at hc
  change c.val.toNat < 123
  obtain ((⟨-, hc⟩ | ⟨-, hc⟩) | ⟨-, hc⟩) | rfl := hc
  · exact lt_of_le_of_lt hc (by decide)
  · exact lt_of_le_of_lt hc (by decide)
  · exact lt_of_le_of_lt hc (by decide)
  · decide

theorem isWord_spec {c : Char} (hc : isWord c = true) :
    isSpace c = false ∧ isWord c.toLower = true ∧ c.toLower.toLower = c.toLower ∧ (c.toLower = '_' → c = '_') := by
  have hall : ∀ n < 123, let c := Char.ofNat n
      isWord c = true →
        isSpace c = false ∧ isWord c.toLower = true ∧ c.toLower.toLower = c.toLower ∧ (c.toLower = '_' → c = '_') := by
    decide +kernel
  have hspec := hall c.toNat (toNat_lt_of_isWord hc)
  rw [Char.ofNat_toNat] at hspec
  exact hspec hc

theorem trimSpace_of_words {s : String} (hwords : ∀ c ∈ s.toList, isWord c = true) : trimSpace s = s := by
  have hkept : ∀ l : List Char, (∀ c ∈ l, isWord c = true) → l.dropWhile isSpace = l := by
    intro l hl
    cases l with
    | nil => rfl
    | cons c cs => simp_all [isWord_spec]
  grind [trimSpace, String.ofList_toList]

theorem dropPrefix?_eq_some {cs rest lit : List Char} : cs.dropPrefix? lit = some rest ↔ cs = lit ++ rest := by
  simp [dropPrefix?_eq_some_iff]

theorem span_iff {cs w rest : List α} : cs.takeWhile q = w ∧ cs.dropWhile q = rest ↔
    cs = w ++ rest ∧ (∀ c ∈ w, q c = true) ∧ ∀ c ∈ rest.head?, q c = false := by
  constructor
  · rintro ⟨rfl, rfl⟩
    refine ⟨takeWhile_append_dropWhile.symm, fun c hc => mem_takeWhile_imp hc, ?_⟩
    intro c hc
    have hnot := head?_dropWhile_not q cs
    rwa [hc] at hnot
  · rintro ⟨rfl, hw, hrest⟩
    rw [takeWhile_append_of_pos hw, dropWhile_append_of_pos hw]
    cases rest with
    | nil => simp
    | cons c rest => simp [hrest c rfl]

theorem span_append {w : List α} (hw : ∀ c ∈ w, q c = true) (rest : List α)
    (hrest : ∀ c ∈ rest.head?, q c = false) : (w ++ rest).takeWhile q = w ∧ (w ++ rest).dropWhile q = rest :=
  span_iff.mpr ⟨rfl, hw, hrest⟩

theorem take_matched (l rest : List Char) : (l ++ rest).take ((l ++ rest).length - rest.length) = l := by simp

theorem cut_append {sep : Char} {before : List Char} (hbefore : sep ∉ before) (after : List Char) :
    cut sep (before ++ sep :: after) = (before, some after) := by
  have hspan := span_append (q := (· ≠ sep)) (w := before) (by grind) (sep :: after) (by simp)
  rw [cut, hspan.1, hspan.2]

variable {pattern : Pattern (List Char)} {before after matched replacement rest : List Char}

theorem replaceAll_skip (matched rest : List Char) :
    replaceAll pattern matched.length (matched ++ rest) = replaceAll pattern 0 rest := by
  induction matched with
  | nil => rfl
  | cons c cs ih => exact ih

theorem replaceAll_of_match {c : Char} (hmatch : pattern (c :: (matched ++ rest)) = some (replacement, rest)) :
    replaceAll pattern 0 (c :: (matched ++ rest)) = replacement ++ replaceAll pattern 0 rest := by
  simp_all [replaceAll, replaceAll_skip]

theorem replaceAll_keep (hkeep : ∀ x c y, before = x ++ c :: y → pattern (c :: (y ++ after)) = none) :
    replaceAll pattern 0 (before ++ after) = before ++ replaceAll pattern 0 after := by
  induction before with
  | nil => rfl
  | cons c cs ih =>
    rw [cons_append, replaceAll, hkeep [] c cs rfl, cons_append]
    grind

theorem replaceAll_append (hcut : ∀ x c y, before = x ++ c :: y →
      pattern (c :: (y ++ after)) = (pattern (c :: y)).map fun m => (m.1, m.2 ++ after)) :
    replaceAll pattern 0 (before ++ after) = replaceAll pattern 0 before ++ replaceAll pattern 0 after := by
  suffices hgoal : ∀ skip ≤ before.length, replaceAll pattern skip (before ++ after) =
      replaceAll pattern skip before ++ replaceAll pattern 0 after from hgoal 0 (Nat.zero_le _)
  induction before with
  | nil =>
    intro skip hskip
    obtain rfl := Nat.le_zero.mp hskip
    rfl
  | cons c cs ih =>
    have hrest : ∀ skip ≤ cs.length, replaceAll pattern skip (cs ++ after) =
        replaceAll pattern skip cs ++ replaceAll pattern 0 after := by
      refine ih fun x c' y hsplit => hcut (c :: x) c' y ?_
      rw [hsplit, cons_append]
    intro skip hskip
    cases skip with
    | succ skip => exact hrest skip (Nat.le_of_succ_le_succ hskip)
    | zero =>
      rw [cons_append, replaceAll, replaceAll, hcut [] c cs rfl]
      cases hmatch : pattern (c :: cs) with
      | none => exact congrArg (c :: ·) (hrest 0 (Nat.zero_le _))
      | some found => grind

/-- A pattern matches the texts that stand in a relation to their replacement and to the text after them. -/
def Describes (pattern : Pattern (List Char)) (M : List Char → List Char → List Char → Prop) : Prop :=
  ∀ cs replacement rest, pattern cs = some (replacement, rest) ↔ ∃ m, M m replacement rest ∧ cs = m ++ rest

theorem Describes.cut {M : List Char → List Char → List Char → Prop} (hpattern : Describes pattern M)
    (hreach : ∀ m r rest, M m r rest → ∀ b, b ≠ [] → m = before ++ b → after ≠ b ++ rest)
    (hafter : ∀ m r a, before = m ++ a → (M m r (a ++ after) ↔ M m r a)) :
    pattern (before ++ after) = (pattern before).map fun m => (m.1, m.2 ++ after) := by
  cases hfound : pattern before with
  | some found =>
    obtain ⟨r, rest⟩ := found
    obtain ⟨m, hm, hsplit⟩ := (hpattern before r rest).mp hfound
    simp_all [Describes]
  | none =>
    cases hlonger : pattern (before ++ after) with
    | none => rfl
    | some found =>
      exfalso
      obtain ⟨r, rest⟩ := found
      obtain ⟨m, hm, hsplit⟩ := (hpattern _ r rest).mp hlonger
      have hinside : ∀ a, before = m ++ a → rest = a ++ after → False := by
        rintro a ha rfl
        rw [(hpattern before r a).mpr ⟨m, (hafter m r a ha).mp hm, ha⟩] at hfound
        cases hfound
      rcases append_eq_append_iff.mp hsplit with ⟨b, hb, hrest⟩ | ⟨a, ha, hrest⟩
      · by_cases hnil : b = []
        · simp_all
        · exact hreach m r rest hm b hnil hb hrest
      · exact hinside a ha hrest

def sprintList (texts : List String) : String := "[" ++ " ".intercalate texts ++ "]"

end text
