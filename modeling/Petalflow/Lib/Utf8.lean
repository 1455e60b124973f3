import Mathlib.Data.List.Basic

open List

namespace utf8

/-! Texts as sequences of bytes that need not be valid. -/

/-- The character at the start of the bytes and its size. A byte that starts none
stands for the replacement character. -/
def decodeRune (bs : List UInt8) : Char × Nat :=
  match bs.toByteArray.utf8DecodeChar? 0 with
  | some c => (c, c.utf8Size)
  | none => ('�', 1)

/-- The bytes up to the first character that is not in a class, and those from there
on. The number counts the bytes that still belong to the last character. -/
def spanFrom (q : Char → Bool) : Nat → List UInt8 → List UInt8 × List UInt8
  | _, [] => ([], [])
  | skip + 1, b :: bs => ((spanFrom q skip bs).map (b :: ·) id)
  | 0, b :: bs =>
    let (c, size) := decodeRune (b :: bs)
    if q c then (spanFrom q (size - 1) bs).map (b :: ·) id else ([], b :: bs)

def span (q : Char → Bool) (bs : List UInt8) : List UInt8 × List UInt8 := spanFrom q 0 bs

def encode (cs : List Char) : List UInt8 := cs.flatMap String.utf8EncodeChar

/-- The characters of some bytes. The number counts the bytes that still belong to
the last character. -/
def decodeFrom : Nat → List UInt8 → List Char
  | _, [] => []
  | skip + 1, _ :: bs => decodeFrom skip bs
  | 0, b :: bs =>
    let (c, size) := decodeRune (b :: bs)
    c :: decodeFrom (size - 1) bs

def decode (bs : List UInt8) : List Char := decodeFrom 0 bs

variable {q : Char → Bool} {c : Char} {bs rest w : List UInt8}

theorem encode_cons_ne_nil (c : Char) (cs : List Char) : encode (c :: cs) ≠ [] := by
  simp [encode]

theorem decodeRune_encode (c : Char) (rest : List UInt8) :
    decodeRune (String.utf8EncodeChar c ++ rest) = (c, c.utf8Size) := by
  simp [decodeRune, ByteArray.utf8DecodeChar?_utf8EncodeChar_append]

theorem decodeRune_encode_cons (c : Char) (cs : List Char) (rest : List UInt8) :
    decodeRune (encode (c :: cs) ++ rest) = (c, c.utf8Size) := by
  rw [encode, flatMap_cons, append_assoc, decodeRune_encode]

theorem decodeFrom_append (w rest : List UInt8) : decodeFrom w.length (w ++ rest) = decode rest := by
  induction w with
  | nil => rfl
  | cons b w ih => exact ih

theorem decode_append (c : Char) (rest : List UInt8) :
    decode (String.utf8EncodeChar c ++ rest) = c :: decode rest := by
  have hdecode := decodeRune_encode c rest
  have hlength := String.length_utf8EncodeChar c
  cases hbytes : String.utf8EncodeChar c with
  | nil => exact absurd hbytes String.utf8EncodeChar_ne_nil
  | cons b tail => grind [decode, decodeFrom, decodeFrom_append]

theorem decode_encode (cs : List Char) : decode (encode cs) = cs := by
  induction cs with
  | nil => rfl
  | cons c cs ih => rw [encode, flatMap_cons, decode_append, ← encode, ih]

theorem eq_encode_of_decodeRune (h : (decodeRune bs).1 = c) (hc : c ≠ '�') :
    ∃ rest, bs = String.utf8EncodeChar c ++ rest := by
  unfold decodeRune at h
  split at h
  · next c' hdecode =>
    obtain rfl : c' = c := h
    obtain ⟨tail, hbytes⟩ := ByteArray.exists_of_utf8DecodeChar?_eq_some hdecode
    have htail : tail = tail.data.toList.toByteArray := ByteArray.ext (by simp)
    rw [htail, ← toByteArray_append] at hbytes
    exact ⟨_, toByteArray_inj.mp hbytes⟩
  · exact absurd h.symm hc

theorem eq_cons_of_decodeRune (h : (decodeRune bs).1 = c) (hc : c.utf8Size = 1) : ∃ rest, bs = c.toUInt8 :: rest := by
  have hne : c ≠ '�' := by
    rintro rfl
    cases hc
  obtain ⟨rest, hbs⟩ := eq_encode_of_decodeRune h hne
  rw [String.utf8EncodeChar_eq_singleton hc] at hbs
  exact ⟨rest, hbs⟩

theorem decodeRune_cons (hc : c.utf8Size = 1) (rest : List UInt8) : decodeRune (c.toUInt8 :: rest) = (c, 1) := by
  have hdecode := decodeRune_encode c rest
  rw [String.utf8EncodeChar_eq_singleton hc, hc] at hdecode
  exact hdecode

def Stops (q : Char → Bool) (bs : List UInt8) : Prop := bs = [] ∨ q (decodeRune bs).1 = false

theorem spanFrom_append (w rest : List UInt8) :
    spanFrom q w.length (w ++ rest) = (spanFrom q 0 rest).map (w ++ ·) id := by
  induction w with
  | nil => rfl
  | cons b w ih =>
    simp only [length_cons, cons_append, spanFrom, ih]
    rfl

theorem span_cons (hq : q c = true) (rest : List UInt8) :
    span q (String.utf8EncodeChar c ++ rest) = (span q rest).map (String.utf8EncodeChar c ++ ·) id := by
  have hdecode := decodeRune_encode c rest
  have hlength := String.length_utf8EncodeChar c
  cases hbytes : String.utf8EncodeChar c with
  | nil => exact absurd hbytes String.utf8EncodeChar_ne_nil
  | cons b tail =>
    rw [hbytes] at hdecode hlength
    simp only [cons_append] at hdecode ⊢
    simp only [span, spanFrom, hdecode, hq, if_true, ← hlength, length_cons, Nat.add_sub_cancel, spanFrom_append]
    rfl

theorem span_of_stops (h : Stops q bs) : span q bs = ([], bs) := by
  cases bs with
  | nil => rfl
  | cons b bs => simp_all [spanFrom, span, Stops]

theorem span_encode (cs : List Char) (hcs : ∀ c ∈ cs, q c = true) (hrest : Stops q rest) :
    span q (encode cs ++ rest) = (encode cs, rest) := by
  induction cs with
  | nil => exact span_of_stops hrest
  | cons c cs ih => simp_all [span_cons, encode]

theorem exists_encode (hq : q '�' = false) (bs : List UInt8) :
    ∃ cs rest, bs = encode cs ++ rest ∧ (∀ c ∈ cs, q c = true) ∧ Stops q rest := by
  generalize hn : bs.length = n
  have hle : bs.length ≤ n := Nat.le_of_eq hn
  clear hn
  induction n generalizing bs with
  | zero => exact ⟨[], bs, rfl, nofun, .inl (length_eq_zero_iff.mp (Nat.le_zero.mp hle))⟩
  | succ n ih =>
    by_cases hstop : Stops q bs
    · exact ⟨[], bs, rfl, nofun, hstop⟩
    · have hin : q (decodeRune bs).1 = true := by simpa using (not_or.mp hstop).2
      have hc : (decodeRune bs).1 ≠ '�' := by
        intro hc
        rw [hc, hq] at hin
        cases hin
      obtain ⟨tail, hbs⟩ := eq_encode_of_decodeRune rfl hc
      have hshorter : tail.length ≤ n := by
        have hlength := congrArg List.length hbs
        have hpos := length_pos_iff.mpr (String.utf8EncodeChar_ne_nil (c := (decodeRune bs).1))
        rw [length_append] at hlength
        omega
      obtain ⟨cs, rest, htail, hcs, hrest⟩ := ih tail hshorter
      refine ⟨(decodeRune bs).1 :: cs, rest, ?_, forall_mem_cons.mpr ⟨hin, hcs⟩, hrest⟩
      grind [encode]

theorem exists_span (hq : q '�' = false) (bs : List UInt8) :
    ∃ cs rest, span q bs = (encode cs, rest) ∧ bs = encode cs ++ rest ∧ (∀ c ∈ cs, q c = true) ∧ Stops q rest := by
  obtain ⟨cs, rest, hbs, hcs, hrest⟩ := exists_encode hq bs
  grind [span_encode]

end utf8
