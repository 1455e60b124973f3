import Mathlib.Tactic.IntervalCases
import Petalflow.Nodes.Expr.Lexer

open parsing utf8 List Option text

namespace petalflow.nodes.expr

def escape (ch : UInt8) : Bytes :=
  if ch = '\\'.toUInt8 ∨ ch = '"'.toUInt8 then ['\\'.toUInt8, ch] else [ch]

def quoted (value : Bytes) : Bytes := '"'.toUInt8 :: (value.flatMap escape ++ ['"'.toUInt8])

def printToken (kind : TokenKind) (value : Bytes) : Bytes :=
  if kind = .string then quoted value else value

def printTokens (tokens : List (Token Bytes)) : Bytes :=
  List.intercalate [' '.toUInt8]
    ((tokens.filter (·.kind ≠ .eof)).map fun tok => printToken tok.kind tok.value)

inductive Escaped : Bytes → Bytes → Prop where
  | nil : Escaped [] []
  | plain {ch : UInt8} {text value : Bytes} (hslash : ch ≠ '\\'.toUInt8) (hquote : ch ≠ '"'.toUInt8)
      (h : Escaped text value) : Escaped (ch :: text) (ch :: value)
  | escape {esc : UInt8} {text value : Bytes} (h : Escaped text value) :
      Escaped ('\\'.toUInt8 :: esc :: text) (unescape esc ++ value)

def Spells (kind : TokenKind) (value text : Bytes) : Prop :=
  if kind = .string then ∃ body, text = '"'.toUInt8 :: (body ++ ['"'.toUInt8]) ∧ Escaped body value
  else text = value

variable {tables : UnicodeTables} {last : Option TokenKind} {pos : Nat} {src rest more w : Bytes}
  {scanned : Scanned}
  {cs : List Char} {c : Char} {body value : Bytes}

theorem stringBody_of_escaped (h : Escaped body value) (rest : Bytes) :
    stringBody (body ++ '"'.toUInt8 :: rest) = some (value, rest) := by
  induction h with
  | nil =>
    unfold stringBody
    rfl
  | plain hslash hquote _ ih =>
    rw [cons_append, stringBody.eq_def]
    simp [hslash, hquote, ih]
  | escape _ ih =>
    rw [cons_append, cons_append, stringBody.eq_def]
    simp [ih]

theorem escaped_of_stringBody (h : stringBody src = some (value, rest)) :
    ∃ body, src = body ++ '"'.toUInt8 :: rest ∧ Escaped body value := by
  fun_induction stringBody src generalizing value with
  | case1 => cases h
  | case2 => cases h
  | case3 esc src ih =>
    obtain ⟨⟨value', rest'⟩, hbody, heq⟩ := map_eq_some_iff.mp h
    cases heq
    obtain ⟨body, rfl, hescaped⟩ := ih hbody
    exact ⟨_ :: esc :: body, rfl, .escape hescaped⟩
  | case4 => 
    cases h
    exact ⟨[], rfl, .nil⟩
  | case5 ch src hslash hquote ih =>
    obtain ⟨⟨value', rest'⟩, hbody, heq⟩ := map_eq_some_iff.mp h
    cases heq
    obtain ⟨body, rfl, hescaped⟩ := ih hbody
    exact ⟨ch :: body, rfl, .plain hslash hquote hescaped⟩

theorem escaped_escape (value : Bytes) : Escaped (value.flatMap escape) value := by
  induction value with
  | nil => exact .nil
  | cons ch value ih =>
    rw [flatMap_cons]
    unfold escape
    split
    · next hch =>
      have hunescape : unescape ch = [ch] := by
        unfold unescape
        rcases hch with rfl | rfl <;> rfl
      have hescape : Escaped ('\\'.toUInt8 :: ch :: value.flatMap escape) (unescape ch ++ value) := .escape ih
      rw [hunescape] at hescape
      exact hescape
    · next hch =>
      obtain ⟨hslash, hquote⟩ := not_or.mp hch
      exact .plain hslash hquote ih

variable {ch : Char} {kind : TokenKind}

theorem tryEmitDoubleCharToken_eq_some {next : UInt8} (h : tryEmitDoubleCharToken ch next = some kind) :
    ch.utf8Size = 1 ∧ next ≠ 0 ∧ kind ≠ .string ∧ kind ≠ .eof := by
  unfold tryEmitDoubleCharToken at h
  repeat'
    split at h
    · next hop =>
      obtain ⟨hch, hnext⟩ := Bool.and_eq_true_iff.mp hop
      cases h
      rw [of_decide_eq_true hch, of_decide_eq_true hnext]
      decide
  cases h

theorem tryEmitSingleCharToken_eq_some (h : tryEmitSingleCharToken ch = some kind) :
    ch.utf8Size = 1 ∧ kind ≠ .string ∧ kind ≠ .eof := by
  unfold tryEmitSingleCharToken at h
  split at h <;> cases h <;> decide

/-- The bytes behind a token that has been printed: the end of the text or a space. -/
def Boundary (more : Bytes) : Prop := more = [] ∨ ∃ tail, more = ' '.toUInt8 :: tail

theorem tryEmitDoubleCharToken_of_boundary (ch : Char) {b : UInt8} (hmore : Boundary more) :
    tryEmitDoubleCharToken ch (peekNext (b :: more)) = none := by
  obtain rfl | ⟨tail, rfl⟩ := hmore
  · simp +decide [tryEmitDoubleCharToken, peekNext]
  · simp +decide [tryEmitDoubleCharToken, peekNext]

variable {sign whole decimal : Bytes}

theorem digits_append (hw : ∀ b ∈ w, isDigitByte b = true) (hrest : ∀ b ∈ rest.head?, isDigitByte b = false) :
    digits (w ++ rest) = (w, rest) := by
  obtain ⟨htake, hdrop⟩ := span_iff.mpr ⟨rfl, hw, hrest⟩
  exact Prod.ext htake hdrop

theorem digits_text (src : Bytes) :
    src = (digits src).1 ++ (digits src).2 ∧ (∀ b ∈ (digits src).1, isDigitByte b = true) ∧
      ∀ b ∈ (digits src).2.head?, isDigitByte b = false :=
  span_iff.mp ⟨rfl, rfl⟩

structure NumberText (sign whole decimal : Bytes) : Prop where
  sign : sign = [] ∨ sign = ['-'.toUInt8]
  whole : ∀ b ∈ whole, isDigitByte b = true
  decimal : decimal = [] ∨ ∃ ds, decimal = '.'.toUInt8 :: ds ∧ ∀ b ∈ ds, isDigitByte b = true

structure EndsNumber (decimal more : Bytes) : Prop where
  digit : ∀ b ∈ more.head?, isDigitByte b = false
  point : decimal = [] → more.head? ≠ some '.'.toUInt8

variable {b : UInt8}

theorem head?_eq_some_iff : src.head? = some b ↔ src = b :: src.tail := by
  cases src <;> simp

theorem minusSign_text (src : Bytes) : src = (minusSign src).1 ++ (minusSign src).2 ∧
    ((minusSign src).1 = [] ∨ (minusSign src).1 = ['-'.toUInt8]) := by
  unfold minusSign
  split
  · next hhead => exact ⟨head?_eq_some_iff.mp hhead, .inr rfl⟩
  · exact ⟨rfl, .inl rfl⟩

theorem decimalPart_text (hsrc : ∀ b ∈ src.head?, isDigitByte b = false) :
    src = (decimalPart src).1 ++ (decimalPart src).2 ∧ ((decimalPart src).1 = [] ∨
        ∃ ds, (decimalPart src).1 = '.'.toUInt8 :: ds ∧ ∀ b ∈ ds, isDigitByte b = true) ∧
      EndsNumber (decimalPart src).1 (decimalPart src).2 := by
  unfold decimalPart
  split
  · next hhead =>
    obtain ⟨htail, hdigits, hends⟩ := digits_text src.tail
    refine ⟨?_, .inr ⟨_, rfl, hdigits⟩, hends, nofun⟩
    rw [cons_append, ← htail]
    exact head?_eq_some_iff.mp hhead
  · next hhead => exact ⟨rfl, .inl rfl, hsrc, fun _ => hhead⟩

theorem lexNumber_text (src : Bytes) : ∃ sign whole decimal rest, NumberText sign whole decimal ∧
    src = sign ++ (whole ++ (decimal ++ rest)) ∧ EndsNumber decimal rest ∧
      lexNumber src = { kind := .number, value := sign ++ (whole ++ decimal), rest } := by
  obtain ⟨hsrc, hsign⟩ := minusSign_text src
  obtain ⟨hafter, hwhole, hends⟩ := digits_text (minusSign src).2
  obtain ⟨hrest, hdecimal, hends⟩ := decimalPart_text hends
  refine ⟨_, _, _, (decimalPart (digits (minusSign src).2).2).2, ⟨hsign, hwhole, hdecimal⟩, ?_, hends, rfl⟩
  rw [← hrest, ← hafter, ← hsrc]

theorem Boundary.head_ne (hmore : Boundary more) (hb : b ≠ ' '.toUInt8) : more.head? ≠ some b := by
  obtain rfl | ⟨tail, rfl⟩ := hmore
  · nofun
  grind

theorem Boundary.not_digit (hmore : Boundary more) : ∀ b ∈ more.head?, isDigitByte b = false := by
  obtain rfl | ⟨tail, rfl⟩ := hmore
  · nofun
  · rintro b ⟨⟩
    decide

theorem Boundary.endsNumber (hmore : Boundary more) : EndsNumber decimal more :=
  ⟨hmore.not_digit, fun _ => hmore.head_ne (by decide)⟩

variable (h : NumberText sign whole decimal)
include h

theorem decimalPart_append (hmore : EndsNumber decimal more) : decimalPart (decimal ++ more) = (decimal, more) := by
  unfold decimalPart
  obtain rfl | ⟨ds, rfl, hds⟩ := h.decimal
  · rw [nil_append, if_neg (hmore.point rfl)]
  · rw [cons_append, head?_cons, if_pos rfl, tail_cons, digits_append hds hmore.digit]

theorem NumberText.digits_append (hmore : EndsNumber decimal more) :
    digits (whole ++ (decimal ++ more)) = (whole, decimal ++ more) := by
  apply expr.digits_append h.whole
  obtain rfl | ⟨ds, rfl, _⟩ := h.decimal
  · exact hmore.digit
  · rintro b ⟨⟩
    decide

theorem minusSign_append (hne : sign ++ (whole ++ decimal) ≠ []) (more : Bytes) :
    minusSign (sign ++ (whole ++ (decimal ++ more))) = (sign, whole ++ (decimal ++ more)) := by
  unfold minusSign
  obtain rfl | rfl := h.sign
  · have hhead : (whole ++ (decimal ++ more)).head? ≠ some '-'.toUInt8 := by
      cases whole with
      | cons b whole =>
        intro hhead
        have hdigit := h.whole b mem_cons_self
        rw [some.inj hhead] at hdigit
        exact absurd hdigit (by decide)
      | nil =>
        obtain rfl | ⟨ds, rfl, _⟩ := h.decimal
        · exact absurd rfl hne
        · exact fun hhead => absurd (some.inj hhead) (by decide)
    rw [nil_append, if_neg hhead]
  · rfl

theorem lexNumber_append (hne : sign ++ (whole ++ decimal) ≠ []) (hmore : EndsNumber decimal more) :
    lexNumber (sign ++ (whole ++ (decimal ++ more))) =
      { kind := .number, value := sign ++ (whole ++ decimal), rest := more } := by
  simp only [lexNumber, minusSign_append h hne more, h.digits_append hmore, decimalPart_append h hmore]

omit h

theorem utf8Size_of_isDigit (h : isDigit ch) : ch.utf8Size = 1 := by
  simp only [isDigit, decide_eq_true_eq] at h
  rw [Char.utf8Size_eq_one_iff]
  have hle : ch.val ≤ '9'.val := h.2
  exact UInt32.le_trans hle (by decide)

theorem isDigitByte_toUInt8 (h : isDigit ch) : isDigitByte ch.toUInt8 = true := by
  have hsize := Char.utf8Size_eq_one_iff.mp (utf8Size_of_isDigit h)
  have hchar : Char.ofNat ch.toUInt8.toNat = ch := by
    have hnat : ch.toUInt8.toNat = ch.toNat := by
      simp only [Char.toUInt8, UInt32.toNat_toUInt8]
      have hle : ch.val.toNat ≤ 127 := hsize
      exact Nat.mod_eq_of_lt (by omega)
    rw [hnat, Char.ofNat_toNat]
  rw [isDigitByte, hchar]
  exact h

theorem lexNumber_value_ne_nil (hch : isDigit ch ∨ ch = '-') (rest : Bytes) :
    (lexNumber (ch.toUInt8 :: rest)).value ≠ [] := by
  obtain hdigit | rfl := hch
  · have hbyte := isDigitByte_toUInt8 hdigit
    have hsign : ch.toUInt8 ≠ '-'.toUInt8 := by
      intro hminus
      rw [hminus] at hbyte
      exact absurd hbyte (by decide)
    simp [lexNumber, minusSign, hsign, digits, hbyte]
  · simp [lexNumber, minusSign]

theorem wordKind_ne (word : Bytes) : wordKind word ≠ .string ∧ wordKind word ≠ .eof := by
  unfold wordKind
  cases hfind : keywords.find? fun entry => encode entry.1.toList = word with
  | none => decide
  | some entry =>
    have hall : ∀ entry ∈ keywords, entry.2 ≠ .string ∧ entry.2 ≠ .eof := by decide
    exact hall entry (mem_of_find?_eq_some hfind)

theorem isIdentPart_replacement : isIdentPart tables '�' = false := by
  have hletter : isLetter tables '�' = false := tables.replacement_not_letter
  have hdigit : isUnicodeDigit tables '�' = false := tables.replacement_not_digit
  rw [isIdentPart, hletter, hdigit]
  rfl

theorem isIdentPart_of_start (h : isIdentStart tables ch = true) : isIdentPart tables ch = true := by
  unfold isIdentPart
  rw [show (decide (ch = '_') || isLetter tables ch) = true from h, Bool.true_or]

theorem not_isDigit_of_isIdentStart (hc : isIdentStart tables c = true) : isDigit c = false := by
  by_contra hdigit
  simp only [Bool.not_eq_false, isDigit, decide_eq_true_eq, Char.le_def, UInt32.le_iff_toNat_le] at hdigit
  obtain ⟨hge, hle⟩ : 48 ≤ c.toNat ∧ c.toNat ≤ 57 := hdigit
  rw [← Char.ofNat_toNat c] at hc
  generalize c.toNat = n at *
  interval_cases n <;> exact Bool.false_ne_true hc

theorem Boundary.stops_word (hmore : Boundary more) : Stops (isIdentPart tables) more := by
  obtain rfl | ⟨tail, rfl⟩ := hmore
  · exact .inl rfl
  · refine .inr ?_
    rw [decodeRune_cons (by decide)]
    rfl

theorem lexIdent_append (hcs : ∀ c ∈ cs, isIdentPart tables c = true) (hrest : Stops (isIdentPart tables) rest) :
    lexIdent tables (encode cs ++ rest) = { kind := wordKind (encode cs), value := encode cs, rest } := by
  simp only [lexIdent, span_encode cs hcs hrest]

theorem lexIdent_text (hstart : isIdentStart tables (decodeRune src).1 = true) :
    ∃ c cs rest, src = encode (c :: cs) ++ rest ∧ (∀ c' ∈ c :: cs, isIdentPart tables c' = true) ∧
      Stops (isIdentPart tables) rest ∧
      lexIdent tables src = { kind := wordKind (encode (c :: cs)), value := encode (c :: cs), rest } := by
  obtain ⟨cs, rest, _, hsrc, hcs, hrest⟩ := exists_span (q := isIdentPart tables) isIdentPart_replacement src
  cases cs with
  | nil =>
    have hpart := isIdentPart_of_start hstart
    obtain rfl : src = rest := hsrc
    obtain rfl | hstop := hrest
    · exact absurd hpart (by rw [show (decodeRune []).1 = '�' from rfl, isIdentPart_replacement]; decide)
    · rw [hstop] at hpart
      cases hpart
  | cons c cs => grind [lexIdent_append]

structure Plain (src : Bytes) (ch : Char) : Prop where
  first : (decodeRune src).1 = ch
  double : tryEmitDoubleCharToken ch (peekNext src) = none
  single : tryEmitSingleCharToken ch = none
  quote : ch ≠ '"'

inductive TokenCase (tables : UnicodeTables) (last : Option TokenKind) : Bytes → Scanned → Prop where
  | double {ch : Char} {b : UInt8} {rest : Bytes} {kind : TokenKind}
      (hkind : tryEmitDoubleCharToken ch b = some kind) :
      TokenCase tables last (ch.toUInt8 :: b :: rest) { kind, value := [ch.toUInt8, b], rest }
  | single {ch : Char} {rest : Bytes} {kind : TokenKind} (hkind : tryEmitSingleCharToken ch = some kind) :
      TokenCase tables last (ch.toUInt8 :: rest) { kind, value := [ch.toUInt8], rest }
  | string {body value rest : Bytes} (hbody : Escaped body value) :
      TokenCase tables last ('"'.toUInt8 :: (body ++ '"'.toUInt8 :: rest)) { kind := .string, value, rest }
  | number {ch : Char} {sign whole decimal rest : Bytes}
      (hplain : Plain (sign ++ (whole ++ (decimal ++ rest))) ch)
      (hch : isDigit ch ∨ ch = '-' ∧ isNegativeNumber last) (htext : NumberText sign whole decimal)
      (hne : sign ++ (whole ++ decimal) ≠ []) :
      TokenCase tables last (sign ++ (whole ++ (decimal ++ rest)))
        { kind := .number, value := sign ++ (whole ++ decimal), rest }
  | word {c : Char} {cs : List Char} {rest : Bytes} (hplain : Plain (encode (c :: cs) ++ rest) c)
      (hnumber : ¬(isDigit c ∨ c = '-' ∧ isNegativeNumber last)) (hstart : isIdentStart tables c = true)
      (hcs : ∀ c' ∈ c :: cs, isIdentPart tables c' = true) :
      TokenCase tables last (encode (c :: cs) ++ rest)
        { kind := wordKind (encode (c :: cs)), value := encode (c :: cs), rest }

theorem TokenCase.of_double (hkind : tryEmitDoubleCharToken (decodeRune src).1 (peekNext src) = some kind) :
    TokenCase tables last src (emit2 kind src) := by
  obtain ⟨hsize, hnext, _⟩ := tryEmitDoubleCharToken_eq_some hkind
  obtain ⟨tail, hsrc⟩ := eq_cons_of_decodeRune rfl hsize
  generalize (decodeRune src).1 = ch at *
  subst hsrc
  cases tail with
  | nil => exact absurd rfl hnext
  | cons b rest => exact .double hkind

theorem TokenCase.of_single (hkind : tryEmitSingleCharToken (decodeRune src).1 = some kind) :
    TokenCase tables last src (emit1 kind src) := by
  obtain ⟨hsize, _⟩ := tryEmitSingleCharToken_eq_some hkind
  obtain ⟨tail, hsrc⟩ := eq_cons_of_decodeRune rfl hsize
  generalize (decodeRune src).1 = ch at *
  subst hsrc
  exact .single hkind

theorem TokenCase.of_string (hch : (decodeRune src).1 = '"') (hbody : stringBody src.tail = some (value, rest)) :
    TokenCase tables last src { kind := .string, value, rest } := by
  obtain ⟨tail, rfl⟩ := eq_cons_of_decodeRune hch (by decide)
  obtain ⟨body, htail, hescaped⟩ := escaped_of_stringBody hbody
  rw [tail_cons] at htail
  subst htail
  exact .string hescaped

theorem TokenCase.of_number (hplain : Plain src ch) (hch : isDigit ch ∨ ch = '-' ∧ isNegativeNumber last) :
    TokenCase tables last src (lexNumber src) := by
  have hch' : isDigit ch ∨ ch = '-' := hch.imp_right And.left
  have hsize : ch.utf8Size = 1 := by
    obtain hdigit | rfl := hch'
    · exact utf8Size_of_isDigit hdigit
    · decide
  obtain ⟨tail, hsrc⟩ := eq_cons_of_decodeRune hplain.first hsize
  have hne : (lexNumber src).value ≠ [] := by
    rw [hsrc]
    exact lexNumber_value_ne_nil hch' tail
  obtain ⟨sign, whole, decimal, rest, htext, htail, _, hscan⟩ := lexNumber_text src
  rw [hscan] at hne ⊢
  rw [htail] at hplain ⊢
  exact .number hplain hch htext hne

theorem TokenCase.of_word (hplain : Plain src ch) (hnumber : ¬(isDigit ch ∨ ch = '-' ∧ isNegativeNumber last))
    (hstart : isIdentStart tables ch = true) : TokenCase tables last src (lexIdent tables src) := by
  obtain ⟨c, cs, rest, hsrc, hcs, _, hscan⟩ := lexIdent_text (by rw [hplain.first]; exact hstart)
  have hc : c = ch := by rw [← hplain.first, hsrc, decodeRune_encode_cons]
  subst hc
  rw [hscan]
  rw [hsrc] at hplain ⊢
  exact .word hplain hnumber hstart hcs

theorem lexToken_of_plain (hplain : Plain src ch) : lexToken tables last pos src =
    if isDigit ch ∨ ch = '-' ∧ isNegativeNumber last then .ok (lexNumber src)
    else if isIdentStart tables ch then .ok (lexIdent tables src)
    else .error s!"unexpected character {(String.singleton ch).quote} at position {pos}" := by
  simp [lexToken, hplain.first, hplain.double, hplain.single, hplain.quote]

theorem lexToken_of_quote (hfirst : (decodeRune src).1 = '"') :
    lexToken tables last pos src = lexString pos src := by
  simp +decide [lexToken, hfirst, tryEmitDoubleCharToken, tryEmitSingleCharToken]

theorem lexToken_cases (h : lexToken tables last pos src = .ok scanned) : TokenCase tables last src scanned := by
  cases hdouble : tryEmitDoubleCharToken (decodeRune src).1 (peekNext src) with
  | some kind =>
    simp only [lexToken, hdouble] at h
    cases h
    exact .of_double hdouble
  | none =>
    cases hsingle : tryEmitSingleCharToken (decodeRune src).1 with
    | some kind =>
      simp only [lexToken, hdouble, hsingle] at h
      cases h
      exact .of_single hsingle
    | none =>
      by_cases hquote : (decodeRune src).1 = '"'
      · rw [lexToken_of_quote hquote, lexString] at h
        split at h
        · cases h
        · next hbody =>
          cases h
          exact .of_string hquote hbody
      · have hplain : Plain src (decodeRune src).1 := ⟨rfl, hdouble, hsingle, hquote⟩
        rw [lexToken_of_plain hplain] at h
        split at h
        · next hnumber =>
          cases h
          exact .of_number hplain hnumber
        · next hnumber =>
          split at h
          · next hstart =>
            cases h
            exact .of_word hplain hnumber hstart
          · cases h

theorem spells_of_ne_string (hkind : kind ≠ .string) : Spells kind value value := by
  rw [Spells, if_neg hkind]

theorem TokenCase.text (h : TokenCase tables last src scanned) : ∃ text, text ≠ [] ∧
    src = text ++ scanned.rest ∧ Spells scanned.kind scanned.value text ∧ scanned.kind ≠ .eof := by
  cases h with
  | @double ch b rest kind hkind =>
    obtain ⟨_, _, hstring, heof⟩ := tryEmitDoubleCharToken_eq_some hkind
    exact ⟨_, cons_ne_nil _ _, rfl, spells_of_ne_string hstring, heof⟩
  | single hkind =>
    obtain ⟨_, hstring, heof⟩ := tryEmitSingleCharToken_eq_some hkind
    exact ⟨_, cons_ne_nil _ _, rfl, spells_of_ne_string hstring, heof⟩
  | @string body value rest hbody => simp_all [Spells]
  | number _ _ _ hne =>
    refine ⟨_, hne, ?_, rfl, nofun⟩
    simp
  | @word c cs _ _ _ _ => grind [wordKind_ne, encode_cons_ne_nil, spells_of_ne_string]

structure Rescans (tables : UnicodeTables) (last : Option TokenKind) (src : Bytes) (scanned : Scanned) : Prop where
  scan : ∀ pos more, Boundary more →
    lexToken tables last pos (printToken scanned.kind scanned.value ++ more) = .ok { scanned with rest := more }
  first : ∀ more, (decodeRune (printToken scanned.kind scanned.value ++ more)).1 = (decodeRune src).1

theorem printToken_of_ne_string (hkind : kind ≠ .string) : printToken kind value = value := if_neg hkind

theorem decodeRune_append (hsize : ch.utf8Size = 1) (hw : w ≠ [])
    (hfirst : (decodeRune (w ++ rest)).1 = ch) (more : Bytes) : (decodeRune (w ++ more)).1 = ch := by
  obtain ⟨tail, hsrc⟩ := eq_cons_of_decodeRune hfirst hsize
  cases w with
  | nil => exact absurd rfl hw
  | cons b w => rw [cons_append, (List.cons.inj hsrc).1, decodeRune_cons hsize]

theorem plain_of_number (hch : isDigit ch ∨ ch = '-') (hfirst : (decodeRune src).1 = ch) :
    Plain src ch ∧ ch.utf8Size = 1 := by
  have hne (d : Char) (hdigit : isDigit d = false) (hminus : d ≠ '-') : ch ≠ d := by
    rintro rfl
    rw [hdigit] at hch
    exact hch.elim Bool.false_ne_true hminus
  refine ⟨⟨hfirst, ?_, ?_, hne '"' rfl (by decide)⟩, ?_⟩
  · simp_all [tryEmitDoubleCharToken, isDigit]
  · unfold tryEmitSingleCharToken
    split <;> first | rfl | exact absurd rfl (hne _ rfl (by decide))
  · obtain hdigit | rfl := hch
    · exact utf8Size_of_isDigit hdigit
    · decide

theorem plain_of_isIdentStart (hc : isIdentStart tables c = true) (hfirst : (decodeRune src).1 = c) :
    Plain src c := by
  have hne (d : Char) (hd : isIdentStart tables d = false) : c ≠ d := by
    rintro rfl
    rw [hd] at hc
    cases hc
  refine ⟨hfirst, ?_, ?_, hne '"' rfl⟩
  · simp only [tryEmitDoubleCharToken, hne '=' rfl, hne '!' rfl, hne '>' rfl, hne '<' rfl, hne '&' rfl, hne '|' rfl,
      hne '?' rfl, decide_false, Bool.false_and, Bool.false_eq_true, if_false]
  · unfold tryEmitSingleCharToken
    split <;> first | rfl | exact absurd rfl (hne _ rfl)

/-! How each kind of token is read in front of other bytes. -/

theorem lexToken_double (hkind : tryEmitDoubleCharToken ch b = some kind) (more : Bytes) :
    lexToken tables last pos (ch.toUInt8 :: b :: more) = .ok { kind, value := [ch.toUInt8, b], rest := more } := by
  have hread : tryEmitDoubleCharToken ch (peekNext (ch.toUInt8 :: b :: more)) = some kind := hkind
  obtain ⟨hsize, _⟩ := tryEmitDoubleCharToken_eq_some hkind
  simp only [lexToken, decodeRune_cons hsize, hread]
  rfl

theorem lexToken_single (hkind : tryEmitSingleCharToken ch = some kind)
    (hnone : tryEmitDoubleCharToken ch (peekNext (ch.toUInt8 :: more)) = none) :
    lexToken tables last pos (ch.toUInt8 :: more) = .ok { kind, value := [ch.toUInt8], rest := more } := by
  obtain ⟨hsize, _⟩ := tryEmitSingleCharToken_eq_some hkind
  simp only [lexToken, decodeRune_cons hsize, hnone, hkind]
  rfl

theorem lexToken_string (hbody : Escaped body value) (more : Bytes) :
    lexToken tables last pos ('"'.toUInt8 :: (body ++ '"'.toUInt8 :: more)) =
      .ok { kind := .string, value, rest := more } := by
  rw [lexToken_of_quote (by rw [decodeRune_cons (by decide)]), lexString, tail_cons, stringBody_of_escaped hbody]

theorem lexToken_number (hfirst : (decodeRune (sign ++ (whole ++ (decimal ++ more)))).1 = ch)
    (hch : isDigit ch ∨ ch = '-' ∧ isNegativeNumber last) (htext : NumberText sign whole decimal)
    (hne : sign ++ (whole ++ decimal) ≠ []) (hmore : EndsNumber decimal more) :
    lexToken tables last pos (sign ++ (whole ++ (decimal ++ more))) =
      .ok { kind := .number, value := sign ++ (whole ++ decimal), rest := more } := by
  obtain ⟨hplain, _⟩ := plain_of_number (hch.imp_right And.left) hfirst
  rw [lexToken_of_plain hplain, if_pos hch, lexNumber_append htext hne hmore]

theorem lexToken_word (hstart : isIdentStart tables c = true)
    (hcs : ∀ c' ∈ c :: cs, isIdentPart tables c' = true) (hmore : Stops (isIdentPart tables) more) :
    lexToken tables last pos (encode (c :: cs) ++ more) =
      .ok { kind := wordKind (encode (c :: cs)), value := encode (c :: cs), rest := more } := by
  have hplain : Plain (encode (c :: cs) ++ more) c := plain_of_isIdentStart hstart (by rw [decodeRune_encode_cons])
  have hnumber : ¬(isDigit c ∨ c = '-' ∧ isNegativeNumber last) := by
    rw [not_isDigit_of_isIdentStart hstart]
    rintro (hdigit | ⟨rfl, _⟩)
    · cases hdigit
    · exact Bool.false_ne_true hstart
  rw [lexToken_of_plain hplain, if_neg hnumber, if_pos hstart, lexIdent_append hcs hmore]

theorem rescans_double (hkind : tryEmitDoubleCharToken ch b = some kind) :
    Rescans tables last (ch.toUInt8 :: b :: rest) { kind, value := [ch.toUInt8, b], rest } := by
  obtain ⟨hsize, _, hstring, _⟩ := tryEmitDoubleCharToken_eq_some hkind
  refine ⟨fun pos more _ => ?_, fun more => ?_⟩
  · rw [printToken_of_ne_string hstring]
    exact lexToken_double hkind more
  · rw [printToken_of_ne_string hstring]
    simp [decodeRune_cons hsize]

theorem rescans_single (hkind : tryEmitSingleCharToken ch = some kind) :
    Rescans tables last (ch.toUInt8 :: rest) { kind, value := [ch.toUInt8], rest } := by
  obtain ⟨hsize, hstring, _⟩ := tryEmitSingleCharToken_eq_some hkind
  refine ⟨fun pos more hmore => ?_, fun more => ?_⟩
  · rw [printToken_of_ne_string hstring]
    exact lexToken_single hkind (tryEmitDoubleCharToken_of_boundary ch hmore)
  · rw [printToken_of_ne_string hstring]
    simp [decodeRune_cons hsize]

theorem rescans_string {tail : Bytes} :
    Rescans tables last ('"'.toUInt8 :: tail) { kind := .string, value, rest } := by
  have hfirst (tail : Bytes) : (decodeRune ('"'.toUInt8 :: tail)).1 = '"' := by rw [decodeRune_cons (by decide)]
  have hprint (more : Bytes) : printToken .string value ++ more =
      '"'.toUInt8 :: (value.flatMap escape ++ '"'.toUInt8 :: more) := by
    simp [printToken, quoted]
  refine ⟨fun pos more _ => ?_, fun more => ?_⟩
  · rw [hprint]
    exact lexToken_string (escaped_escape value) more
  · rw [hprint, hfirst, hfirst]

theorem rescans_number (hplain : Plain (sign ++ (whole ++ (decimal ++ rest))) ch)
    (hch : isDigit ch ∨ ch = '-' ∧ isNegativeNumber last) (htext : NumberText sign whole decimal)
    (hne : sign ++ (whole ++ decimal) ≠ []) : Rescans tables last (sign ++ (whole ++ (decimal ++ rest)))
      { kind := .number, value := sign ++ (whole ++ decimal), rest } := by
  have hstring : TokenKind.number ≠ .string := nofun
  obtain ⟨_, hsize⟩ := plain_of_number (hch.imp_right And.left) hplain.first
  have hassoc (more : Bytes) : sign ++ (whole ++ (decimal ++ more)) = sign ++ (whole ++ decimal) ++ more := by simp
  have hfirst (more : Bytes) : (decodeRune (sign ++ (whole ++ (decimal ++ more)))).1 = ch := by
    rw [hassoc]
    exact decodeRune_append hsize hne (by rw [← hassoc]; exact hplain.first) more
  refine ⟨fun pos more hmore => ?_, fun more => ?_⟩
  · rw [printToken_of_ne_string hstring, ← hassoc]
    exact lexToken_number (hfirst more) hch htext hne hmore.endsNumber
  · rw [printToken_of_ne_string hstring, ← hassoc, hfirst, hfirst]

theorem rescans_word (hstart : isIdentStart tables c = true) (hcs : ∀ c' ∈ c :: cs, isIdentPart tables c' = true) :
    Rescans tables last (encode (c :: cs) ++ rest)
      { kind := wordKind (encode (c :: cs)), value := encode (c :: cs), rest } := by
  obtain ⟨hstring, _⟩ := wordKind_ne (encode (c :: cs))
  refine ⟨fun pos more hmore => ?_, fun more => ?_⟩
  · rw [printToken_of_ne_string hstring]
    exact lexToken_word hstart hcs hmore.stops_word
  · rw [printToken_of_ne_string hstring, decodeRune_encode_cons, decodeRune_encode_cons]

theorem TokenCase.rescans (h : TokenCase tables last src scanned) : Rescans tables last src scanned := by
  cases h with
  | double hkind => exact rescans_double hkind
  | single hkind => exact rescans_single hkind
  | string _ => exact rescans_string
  | number hplain hch htext hne => exact rescans_number hplain hch htext hne
  | word _ _ hstart hcs => exact rescans_word hstart hcs

inductive Lexes (tables : UnicodeTables) : Option TokenKind → Nat → Bytes → List (Token Bytes) → Prop where
  | blank {last : Option TokenKind} {pos : Nat} {src : Bytes} (hblank : (skipWhitespace src).2 = []) :
      Lexes tables last pos src []
  | token {last : Option TokenKind} {pos : Nat} {src blank tail : Bytes} {scanned : Scanned}
      {toks : List (Token Bytes)} (hblank : skipWhitespace src = (blank, tail)) (hne : tail ≠ [])
      (hscan : lexToken tables last (pos + blank.length) tail = .ok scanned)
      (hrest : Lexes tables (some scanned.kind) (pos + blank.length + (tail.length - scanned.rest.length))
        scanned.rest toks) :
      Lexes tables last pos src
        ({ kind := scanned.kind, value := scanned.value, pos := pos + blank.length } :: toks)

variable {toks : List (Token Bytes)}

theorem skipWhitespace_text (src : Bytes) :
    src = (skipWhitespace src).1 ++ (skipWhitespace src).2 ∧ Stops text.isSpace (skipWhitespace src).2 := by
  obtain ⟨cs, rest, hspan, hsrc, _, hrest⟩ := exists_span (q := isSpace) (by decide) src
  rw [skipWhitespace, hspan]
  exact ⟨hsrc, hrest⟩

variable {blank tail : Bytes}

theorem skipWhitespace_length (h : skipWhitespace src = (blank, tail)) : src.length = blank.length + tail.length := by
  grind [skipWhitespace_text]

theorem skipWhitespace_space (src : Bytes) :
    skipWhitespace (' '.toUInt8 :: src) = (' '.toUInt8 :: (skipWhitespace src).1, (skipWhitespace src).2) :=
  span_cons (q := isSpace) (c := ' ') (by decide) src

variable {l : Lexer}

theorem lexNext_of_token (hblank : skipWhitespace src = (blank, tail)) (hne : tail ≠ [])
    (hscan : lexToken tables (l.tokens.getLast?.map Token.kind) (l.pos + blank.length) tail = .ok scanned) :
    lexNext tables l src = some (.ok
        ({ pos := l.pos + blank.length + (tail.length - scanned.rest.length),
           tokens := l.tokens ++ [{ kind := scanned.kind, value := scanned.value, pos := l.pos + blank.length }] },
          scanned.rest)) := by
  simp only [lexNext, hblank, if_neg hne, hscan, Except.map]

variable {l' : Lexer}

theorem lexNext_cases (h : lexNext tables l src = some (.ok (l', rest))) :
    ∃ blank tail scanned, skipWhitespace src = (blank, tail) ∧ tail ≠ [] ∧
      lexToken tables (l.tokens.getLast?.map Token.kind) (l.pos + blank.length) tail = .ok scanned ∧
      l' = { pos := l.pos + blank.length + (tail.length - scanned.rest.length),
             tokens := l.tokens ++ [{ kind := scanned.kind, value := scanned.value, pos := l.pos + blank.length }] } ∧
      rest = scanned.rest := by
  simp only [lexNext] at h
  split at h
  · cases h
  · next hne =>
    obtain ⟨scanned, hscan, heq⟩ := fold.map_eq_ok.mp (some.inj h)
    grind

theorem lexToken_length (h : lexToken tables last pos src = .ok scanned) : scanned.rest.length < src.length := by
  obtain ⟨text, hne, hsrc, _⟩ := (lexToken_cases h).text
  have hpos := length_pos_iff.mpr hne
  rw [hsrc, length_append]
  omega

theorem lexNext_progress : Progress (lexNext tables) := by
  refine ⟨fun _ => rfl, ?_⟩
  intro l src l' rest h
  obtain ⟨blank, tail, scanned, hblank, _, hscan, _, rfl⟩ := lexNext_cases h
  have hlength := lexToken_length hscan
  have hsrc := skipWhitespace_length hblank
  omega

theorem Lexes.runs (h : Lexes tables last pos src toks) (tokens : List (Token Bytes))
    (hlast : tokens.getLast?.map Token.kind = last) :
    ∃ l blank, Runs (lexNext tables) { pos, tokens } src l blank ∧ l.tokens = tokens ++ toks ∧
      l.pos + blank.length = pos + src.length := by
  induction h generalizing tokens with
  | blank hblank =>
    refine ⟨_, _, .stop _ _ ?_, (append_nil tokens).symm, rfl⟩
    simp [lexNext, hblank]
  | @token last pos src blank tail scanned toks hblank hne hscan _ ih =>
    have hconcat (tok : Token Bytes) : (tokens ++ [tok]).getLast?.map Token.kind = some tok.kind := by
      rw [getLast?_concat]
      rfl
    obtain ⟨l, after, hruns, htokens, hpos⟩ :=
      ih (tokens ++ [{ kind := scanned.kind, value := scanned.value, pos := pos + blank.length }]) (hconcat _)
    refine ⟨l, after, .next _ _ _ _ _ _ (lexNext_of_token hblank hne ?_) hruns, ?_, ?_⟩
    · rw [hlast]
      exact hscan
    · rw [htokens, append_assoc]
      rfl
    · have hlength := lexToken_length hscan
      have hsrc := skipWhitespace_length hblank
      omega

theorem lexes_of_runs (h : Runs (lexNext tables) l src l' blank) :
    ∃ toks, Lexes tables (l.tokens.getLast?.map Token.kind) l.pos src toks ∧ l'.tokens = l.tokens ++ toks ∧
      l'.pos + blank.length = l.pos + src.length := by
  induction h with
  | stop l src hnone =>
    refine ⟨[], .blank ?_, (append_nil _).symm, rfl⟩
    by_contra hne
    simp only [lexNext, if_neg hne] at hnone
    cases hnone
  | next l m l' src rest blank hnext _ ih =>
    obtain ⟨toks, hlexes, htokens, hpos⟩ := ih
    obtain ⟨skipped, tail, scanned, hblank, hne, hscan, rfl, rfl⟩ := lexNext_cases hnext
    rw [getLast?_concat] at hlexes
    refine ⟨_, .token hblank hne hscan hlexes, ?_, ?_⟩
    · rw [htokens, append_assoc]
      rfl
    · have hlength := lexToken_length hscan
      have hsrc := skipWhitespace_length hblank
      dsimp only at hpos
      omega

theorem lex_eq_ok {tokens : List (Token Bytes)} : lex tables src = .ok tokens ↔
    ∃ toks, Lexes tables none 0 src toks ∧ tokens = toks ++ [{ kind := .eof, value := [], pos := src.length }] := by
  simp only [lex, lexAll, fold.map_eq_ok]
  constructor
  · rintro ⟨⟨l, blank⟩, hloop, rfl⟩
    obtain ⟨toks, hlexes, htokens, hpos⟩ := lexes_of_runs (loop_runs lexNext_progress hloop)
    simp_all
  · rintro ⟨toks, hlexes, rfl⟩
    obtain ⟨l, blank, hruns, htokens, hpos⟩ := hlexes.runs [] rfl
    refine ⟨(l, blank), hruns.loop_eq lexNext_progress, ?_⟩
    simp_all

theorem Lexes.ne_eof (h : Lexes tables last pos src toks) : ∀ tok ∈ toks, tok.kind ≠ .eof := by
  induction h with
  | blank _ => nofun
  | token _ _ hscan _ ih =>
    obtain ⟨_, _, _, _, heof⟩ := (lexToken_cases hscan).text
    exact forall_mem_cons.mpr ⟨heof, ih⟩

theorem Lexes.space (h : Lexes tables last (pos + 1) src toks) : Lexes tables last pos (' '.toUInt8 :: src) toks := by
  cases h with
  | blank hblank => exact .blank (by rw [skipWhitespace_space]; exact hblank)
  | @token _ _ _ blank tail scanned toks hblank hne hscan hrest =>
    have hspace : skipWhitespace (' '.toUInt8 :: src) = (' '.toUInt8 :: blank, tail) := by
      rw [skipWhitespace_space, hblank]
    have hpos : pos + 1 + blank.length = pos + (' '.toUInt8 :: blank).length := by
      rw [length_cons]
      omega
    rw [hpos] at hscan hrest ⊢
    exact .token hspace hne hscan hrest

def behind (toks : List (Token Bytes)) : Bytes :=
  if toks = [] then [] else ' '.toUInt8 :: printTokens toks

theorem boundary_behind (toks : List (Token Bytes)) : Boundary (behind toks) := by
  unfold behind
  split
  · exact .inl rfl
  · exact .inr ⟨_, rfl⟩

theorem printTokens_cons {tok : Token Bytes} (h : ∀ tok' ∈ tok :: toks, tok'.kind ≠ .eof) :
    printTokens (tok :: toks) = printToken tok.kind tok.value ++ behind toks := by
  have hfilter (toks : List (Token Bytes)) (h : ∀ tok ∈ toks, tok.kind ≠ .eof) :
      toks.filter (·.kind ≠ .eof) = toks := filter_eq_self.mpr (by simpa using h)
  unfold behind printTokens
  rw [hfilter _ h, hfilter _ (forall_mem_cons.mp h).2]
  cases toks with
  | nil | cons tok' toks => simp [intercalate]

def content (tok : Token Bytes) : TokenKind × Bytes := (tok.kind, tok.value)

theorem Lexes.reprint (h : Lexes tables last pos src toks) (pos' : Nat) :
    ∃ toks', Lexes tables last pos' (printTokens toks) toks' ∧ toks'.map content = toks.map content := by
  induction h generalizing pos' with
  | blank _ => exact ⟨[], .blank rfl, rfl⟩
  | @token last pos src blank tail scanned toks hblank hne hscan hrest ih =>
    have hrescan := (lexToken_cases hscan).rescans
    have hmore := boundary_behind toks
    have hread := hrescan.scan pos' (behind toks) hmore
    have hlength := lexToken_length hread
    have hstop : isSpace (decodeRune tail).1 = false := by
      have hstops := (skipWhitespace_text src).2
      rw [hblank] at hstops
      exact hstops.resolve_left hne
    have hblank' : skipWhitespace (printToken scanned.kind scanned.value ++ behind toks) =
        ([], printToken scanned.kind scanned.value ++ behind toks) :=
      span_of_stops (.inr (by rw [hrescan.first]; exact hstop))
    have hne' : printToken scanned.kind scanned.value ++ behind toks ≠ [] :=
      length_pos_iff.mp (Nat.lt_of_le_of_lt (Nat.zero_le _) hlength)
    have hbehind (pos : Nat) : ∃ toks', Lexes tables (some scanned.kind) pos (behind toks) toks' ∧
        toks'.map content = toks.map content := by
      unfold behind
      split
      · next hnil => exact ⟨[], .blank rfl, by rw [hnil]⟩
      · obtain ⟨toks', hlexes, hsame⟩ := ih (pos + 1)
        exact ⟨toks', hlexes.space, hsame⟩
    obtain ⟨toks', hlexes, hsame⟩ := hbehind _
    rw [printTokens_cons (Lexes.token hblank hne hscan hrest).ne_eof]
    refine ⟨_, .token hblank' hne' hread hlexes, ?_⟩
    rw [map_cons, map_cons, hsame]
    rfl

def Token.StartsIn (src : Bytes) (tok : Token Bytes) : Prop :=
  ∃ text, Spells tok.kind tok.value text ∧ text <+: src.drop tok.pos

theorem Lexes.positions (h : Lexes tables last pos src toks) (hwhole : whole.drop pos = src) :
    toks.Pairwise (fun tok tok' => tok.pos < tok'.pos) ∧
      ∀ tok ∈ toks, pos ≤ tok.pos ∧ tok.pos < pos + src.length ∧ tok.StartsIn whole := by
  induction h with
  | blank _ => exact ⟨.nil, nofun⟩
  | @token last pos src blank tail scanned toks hblank hne hscan _ ih =>
    obtain ⟨text, htext, htail, hspells, _⟩ := (lexToken_cases hscan).text
    have hsrc := (skipWhitespace_text src).1
    rw [hblank] at hsrc
    have hdrop : whole.drop (pos + blank.length) = tail := by rw [← drop_drop, hwhole, hsrc, drop_left]
    have hlength : tail.length - scanned.rest.length = text.length := by
      rw [htail, length_append]
      omega
    have hpos := length_pos_iff.mpr htext
    have hsrcLength := skipWhitespace_length hblank
    have htailLength := congrArg List.length htail
    rw [length_append] at htailLength
    obtain ⟨hpairs, hrest⟩ := ih (by rw [← drop_drop, hdrop, hlength, htail, drop_left])
    rw [hlength] at hrest
    refine ⟨pairwise_cons.mpr ⟨?_, hpairs⟩, forall_mem_cons.mpr ⟨⟨?_, ?_, ?_⟩, ?_⟩⟩
    · grind
    · exact Nat.le_add_right pos blank.length
    · dsimp only
      omega
    · exact ⟨text, hspells, scanned.rest, by rw [hdrop, ← htail]⟩
    grind

/-- Reading the tokens of a text again after they have been printed gives the same
kinds and values. The positions of the text's tokens increase, and each token's own
text starts at its position. -/
theorem lex_stable (tables : UnicodeTables) (src : Bytes) (tokens : List (Token Bytes))
    (h : lex tables src = .ok tokens) :
    (∃ tokens', lex tables (printTokens tokens) = .ok tokens' ∧ tokens'.map content = tokens.map content) ∧
      tokens.Pairwise (fun tok tok' => tok.pos < tok'.pos) ∧ ∀ tok ∈ tokens, tok.StartsIn src := by
  obtain ⟨toks, hlexes, rfl⟩ := lex_eq_ok.mp h
  obtain ⟨toks', hlexes', hsame⟩ := hlexes.reprint 0
  obtain ⟨hpairs, hall⟩ := hlexes.positions (show src.drop 0 = src from rfl)
  refine ⟨?_, ?_, ?_⟩
  · have hprint : printTokens (toks ++ [{ kind := .eof, value := [], pos := src.length }]) = printTokens toks := by
      simp [printTokens]
    rw [hprint]
    refine ⟨_, lex_eq_ok.mpr ⟨toks', hlexes', rfl⟩, ?_⟩
    rw [map_append, map_append, hsame]
    rfl
  · grind
  · refine forall_mem_append.mpr ⟨fun tok htok => (hall tok htok).2.2, ?_⟩
    rw [forall_mem_singleton]
    exact ⟨[], rfl, nil_prefix⟩

namespace sample

/-- A text with a word of two bytes, a keyword behind a dot, an escaped quote, an
unknown escape sequence and a number that ends with a dot. -/
def source : Bytes := encode "é.has ?? \"\\\"\\q\"!=-5.".toList

def latin1 : UnicodeTables where
  letter _ := false
  digit _ := false
  replacement_not_letter := rfl
  replacement_not_digit := rfl

def tokens : List (Token Bytes) :=
  [{ kind := .ident, value := encode ['é'], pos := 0 }, { kind := .dot, value := encode ['.'], pos := 2 },
    { kind := .has, value := encode ['h', 'a', 's'], pos := 3 },
    { kind := .nullCoal, value := encode ['?', '?'], pos := 7 },
    { kind := .string, value := encode ['"', '\\', 'q'], pos := 10 },
    { kind := .neq, value := encode ['!', '='], pos := 16 },
    { kind := .number, value := encode ['-', '5', '.'], pos := 18 },
    { kind := .eof, value := [], pos := 21 }]

end sample

theorem sample_stable : lex sample.latin1 sample.source = .ok sample.tokens ∧
    (∃ tokens', lex sample.latin1 (printTokens sample.tokens) = .ok tokens' ∧
        tokens'.map content = sample.tokens.map content) ∧
      sample.tokens.Pairwise (fun tok tok' => tok.pos < tok'.pos) ∧
      ∀ tok ∈ sample.tokens, tok.StartsIn sample.source :=
  ⟨by decide +kernel, lex_stable sample.latin1 sample.source sample.tokens (by decide +kernel)⟩

end petalflow.nodes.expr
