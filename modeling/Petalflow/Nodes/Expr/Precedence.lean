import Petalflow.Nodes.Expr.Lexer

open petalflow.core parsing List fold

namespace petalflow.nodes.expr

/-- The levels of precedence, from the operators that bind least to the expressions
without one, and the elements of an array. -/
inductive Level where
  | nullCoalescing | or | and | equality | comparison | membership | unary | access | primary | elements
deriving DecidableEq

def Level.kinds : Level → List TokenKind
  | nullCoalescing => [.nullCoal]
  | or => [.or]
  | and => [.and]
  | equality => [.eq, .neq]
  | comparison => [.gt, .gte, .lt, .lte]
  | _ => []

def Level.tighter : Level → Option Level
  | nullCoalescing => some or
  | or => some and
  | and => some equality
  | equality => some comparison
  | comparison => some membership
  | membership => some unary
  | unary => some access
  | access => some primary
  | primary | elements => none

/-- The grammar of expressions: the tokens of each level and the expression they
stand for. Numbers are the texts that have a value. -/
inductive Derives (parseFloat : String → Option Value) : Level → List (Token String) → Expr → Prop
  | tighter {l l' ts e} (hl : l.tighter = some l') (h : Derives parseFloat l' ts e) :
      Derives parseFloat l ts e
  | binary {l l' ts ts' left right} {op : Token String} (hl : l.tighter = some l') (hop : op.kind ∈ l.kinds)
      (hleft : Derives parseFloat l ts left) (hright : Derives parseFloat l' ts' right) :
      Derives parseFloat l (ts ++ op :: ts') (.binary left op.kind right)
  | membership {ts ts' left right} {op : Token String} (hop : isMembershipToken op.kind)
      (hleft : Derives parseFloat .unary ts left) (hright : Derives parseFloat .unary ts' right) :
      Derives parseFloat .membership (ts ++ op :: ts') (.binary left op.kind right)
  | not {ts operand} {op : Token String} (hop : op.kind = .not)
      (h : Derives parseFloat .unary ts operand) :
      Derives parseFloat .unary (op :: ts) (.unary op.kind operand)
  | member {ts object} {dot name : Token String} (hdot : dot.kind = .dot)
      (hname : name.kind = .ident ∨ isKeywordToken name.kind) (h : Derives parseFloat .access ts object) :
      Derives parseFloat .access (ts ++ [dot, name]) (.member object name.value)
  | index {ts ts' object i} {left right : Token String} (hleft : left.kind = .lBracket)
      (hright : right.kind = .rBracket) (h : Derives parseFloat .access ts object)
      (hi : Derives parseFloat .nullCoalescing ts' i) :
      Derives parseFloat .access (ts ++ left :: (ts' ++ [right])) (.index object i)
  | number {tok : Token String} {val} (hkind : tok.kind = .number) (hval : parseFloat tok.value = some val) :
      Derives parseFloat .primary [tok] (.literal val)
  | string {tok : Token String} (hkind : tok.kind = .string) :
      Derives parseFloat .primary [tok] (.literal (.str tok.value))
  | true {tok : Token String} (hkind : tok.kind = .true) :
      Derives parseFloat .primary [tok] (.literal (.bool true))
  | false {tok : Token String} (hkind : tok.kind = .false) :
      Derives parseFloat .primary [tok] (.literal (.bool false))
  | null {tok : Token String} (hkind : tok.kind = .null) :
      Derives parseFloat .primary [tok] (.literal .nil)
  | ident {tok : Token String} (hkind : tok.kind = .ident) :
      Derives parseFloat .primary [tok] (.ident tok.value)
  | paren {ts e} {left right : Token String} (hleft : left.kind = .lParen) (hright : right.kind = .rParen)
      (h : Derives parseFloat .nullCoalescing ts e) :
      Derives parseFloat .primary (left :: (ts ++ [right])) e
  | empty {left right : Token String} (hleft : left.kind = .lBracket) (hright : right.kind = .rBracket) :
      Derives parseFloat .primary [left, right] (.array [])
  | array {ts elems} {left right : Token String} (hleft : left.kind = .lBracket)
      (hright : right.kind = .rBracket) (h : Derives parseFloat .elements ts (.array elems)) :
      Derives parseFloat .primary (left :: (ts ++ [right])) (.array elems)
  | element {ts e} (h : Derives parseFloat .nullCoalescing ts e) :
      Derives parseFloat .elements ts (.array [e])
  | elements {ts ts' elems e} {comma : Token String} (hcomma : comma.kind = .comma)
      (h : Derives parseFloat .elements ts (.array elems)) (he : Derives parseFloat .nullCoalescing ts' e) :
      Derives parseFloat .elements (ts ++ comma :: ts') (.array (elems ++ [e]))

variable {parseFloat : String → Option Value} {p : ExprParser} {ts rest : List (Token String)}
  {e : Expr}

variable {kind : TokenKind}

theorem eq_current_cons (h : (current ts).kind = kind) (hkind : kind ≠ .eof) : ts = current ts :: advance ts := by
  cases ts with
  | nil => exact absurd h.symm hkind
  | cons tok ts => rfl

variable {tok : Token String}

theorem expect_eq_ok (h : expect kind ts = .ok (tok, rest)) (hkind : kind ≠ .eof) :
    tok.kind = kind ∧ ts = tok :: rest := by
  simp only [expect] at h
  split at h
  · next hcurrent =>
    cases h
    exact ⟨hcurrent, eq_current_cons hcurrent hkind⟩
  · cases h

theorem binaryOp_eq_some {kinds : List TokenKind} {op : Token String} {f : Expr → Expr → Expr}
    (h : binaryOp kinds op = some f) : op.kind ∈ kinds ∧ f = fun left right => .binary left op.kind right := by
  grind [binaryOp]

theorem commaOp_eq_some {f : List Expr → List Expr → List Expr} (h : commaOp tok = some f) :
    tok.kind = .comma ∧ f = fun elements elem => elements ++ elem := by
  grind [commaOp]

variable (hp : Sound p (Derives parseFloat .nullCoalescing))
include hp

theorem parseElement_sound :
    Sound (parseElement p) fun ts elems => ∃ e, elems = [e] ∧ Derives parseFloat .nullCoalescing ts e := by
  intro ts elems rest helems
  obtain ⟨⟨e, rest'⟩, he, heq⟩ := map_eq_ok.mp helems
  cases heq
  obtain ⟨used, hused, hderives⟩ := hp ts e rest he
  exact ⟨used, hused, e, rfl, hderives⟩

theorem parseElements_sound :
    Sound (parseElements p) fun ts elems => Derives parseFloat .elements ts (.array elems) := by
  refine chain_sound (parseElement_sound hp) ?_ ?_
  · rintro ts _ ⟨e, rfl, he⟩
    exact .element he
  · rintro ts elems tok f ts' _ helems htok ⟨e, rfl, he⟩
    obtain ⟨hcomma, rfl⟩ := commaOp_eq_some htok
    exact .elements hcomma helems he

theorem parseArrayLiteral_sound (hleft : (current ts).kind = .lBracket) (h : parseArrayLiteral p ts = .ok (e, rest)) :
    ∃ used, ts = used ++ rest ∧ Derives parseFloat .primary used e := by
  have hts := eq_current_cons hleft nofun
  simp only [parseArrayLiteral] at h
  split at h
  · next hright =>
    cases h
    refine ⟨[current ts, current (advance ts)], ?_, .empty hleft hright⟩
    rw [cons_append, cons_append, nil_append, ← eq_current_cons hright nofun, ← hts]
  · obtain ⟨⟨elems, after⟩, helems, h⟩ := bind_eq_ok.mp h
    obtain ⟨⟨right, after'⟩, hright, h⟩ := bind_eq_ok.mp h
    cases h
    obtain ⟨used, hused, hinside⟩ := parseElements_sound hp _ _ _ helems
    obtain ⟨hclose, rfl⟩ := expect_eq_ok hright nofun
    refine ⟨current ts :: (used ++ [right]), ?_, .array hleft hclose hinside⟩
    grind

theorem parsePrimary_sound : Sound (parsePrimary parseFloat p) (Derives parseFloat .primary) := by
  intro ts e rest h
  simp only [parsePrimary] at h
  -- one goal for each kind of token
  split at h
  · next hkind =>
    split at h
    · cases h
    · next val hval =>
      cases h
      exact ⟨[current ts], eq_current_cons hkind nofun, .number hkind hval⟩
  · next hkind =>
    cases h
    exact ⟨[current ts], eq_current_cons hkind nofun, .string hkind⟩
  · next hkind =>
    cases h
    exact ⟨[current ts], eq_current_cons hkind nofun, .true hkind⟩
  · next hkind =>
    cases h
    exact ⟨[current ts], eq_current_cons hkind nofun, .false hkind⟩
  · next hkind =>
    cases h
    exact ⟨[current ts], eq_current_cons hkind nofun, .null hkind⟩
  · next hkind =>
    cases h
    exact ⟨[current ts], eq_current_cons hkind nofun, .ident hkind⟩
  · next hkind =>
    have hts := eq_current_cons hkind nofun
    obtain ⟨⟨inner, after⟩, hinner, h⟩ := bind_eq_ok.mp h
    obtain ⟨⟨right, after'⟩, hright, h⟩ := bind_eq_ok.mp h
    cases h
    obtain ⟨used, hused, hinside⟩ := hp _ _ _ hinner
    obtain ⟨hclose, rfl⟩ := expect_eq_ok hright nofun
    refine ⟨current ts :: (used ++ [right]), ?_, .paren hkind hclose hinside⟩
    grind
  · next hkind => exact parseArrayLiteral_sound hp hkind h
  · cases h

theorem parseAccess_sound {object : Expr} (h : parseAccess p object ts = some (.ok (e, rest))) :
    ∃ read, read ≠ [] ∧ ts = read ++ rest ∧
      ∀ used, Derives parseFloat .access used object → Derives parseFloat .access (used ++ read) e := by
  simp only [parseAccess] at h
  split at h
  · next hdot =>
    have hts := eq_current_cons hdot nofun
    split at h
    · next name after hname =>
      cases h
      obtain ⟨hident, hafter⟩ := expect_eq_ok hname nofun
      refine ⟨[current ts, name], nofun, ?_, fun used hused => .member hdot (.inl hident) hused⟩
      grind
    · split at h
      · next hkeyword =>
        cases h
        refine ⟨[current ts, current (advance ts)], nofun, ?_, fun used hused => .member hdot (.inr hkeyword) hused⟩
        have hkind : (current (advance ts)).kind ≠ .eof := by
          intro heof
          rw [heof] at hkeyword
          cases hkeyword
        rw [cons_append, cons_append, nil_append, ← eq_current_cons rfl hkind, ← hts]
      · cases h
  · next hleft =>
    have hts := eq_current_cons hleft nofun
    obtain ⟨⟨i, after⟩, hi, h⟩ := bind_eq_ok.mp (Option.some.inj h)
    obtain ⟨⟨right, after'⟩, hright, h⟩ := bind_eq_ok.mp h
    cases h
    obtain ⟨inside, hinside, hderives⟩ := hp _ _ _ hi
    obtain ⟨hclose, rfl⟩ := expect_eq_ok hright nofun
    refine ⟨current ts :: (inside ++ [right]), nofun, ?_, fun used hused => .index hleft hclose hused hderives⟩
    grind
  · cases h

theorem parseAccess_progress : Progress (parseAccess p) := by
  refine ⟨fun _ => rfl, ?_⟩
  intro object ts e rest hstep
  obtain ⟨read, hread, rfl, _⟩ := parseAccess_sound hp hstep
  have hpos := length_pos_iff.mpr hread
  rw [length_append]
  omega

theorem parsePostfix_sound : Sound (parsePostfix parseFloat p) (Derives parseFloat .access) := by
  intro ts e rest h
  obtain ⟨⟨first, after⟩, hfirst, h⟩ := bind_eq_ok.mp h
  obtain ⟨used, hused, hfirst⟩ := parsePrimary_sound hp ts first after hfirst
  refine loop_invariant (P := fun e rest => ∃ used, ts = used ++ rest ∧ Derives parseFloat .access used e)
    ?_ h ⟨used, hused, .tighter rfl hfirst⟩
  grind [parseAccess_sound]

theorem parseUnary_sound : Sound (parseUnary parseFloat p) (Derives parseFloat .unary) := by
  intro ts
  induction ts with
  | nil =>
    intro e rest h
    obtain ⟨used, hused, hderives⟩ := parsePostfix_sound hp [] e rest h
    exact ⟨used, hused, .tighter rfl hderives⟩
  | cons tok ts ih =>
    intro e rest h
    unfold parseUnary at h
    split at h
    · next hnot =>
      obtain ⟨⟨operand, after⟩, hoperand, heq⟩ := map_eq_ok.mp h
      cases heq
      obtain ⟨used, rfl, hderives⟩ := ih operand rest hoperand
      exact ⟨tok :: used, rfl, .not hnot hderives⟩
    · obtain ⟨used, hused, hderives⟩ := parsePostfix_sound hp (tok :: ts) e rest h
      exact ⟨used, hused, .tighter rfl hderives⟩

theorem parseMembership_sound : Sound (parseMembership parseFloat p) (Derives parseFloat .membership) := by
  intro ts e rest h
  obtain ⟨⟨left, after⟩, hparse, h⟩ := bind_eq_ok.mp h
  obtain ⟨used, hused, hleft⟩ := parseUnary_sound hp ts left after hparse
  dsimp only at h
  split at h
  · next hop =>
    obtain ⟨⟨right, after'⟩, hparse', h⟩ := bind_eq_ok.mp h
    cases h
    obtain ⟨used', hused', hright⟩ := parseUnary_sound hp _ right _ hparse'
    refine ⟨used ++ current after :: used', ?_, .membership hop hleft hright⟩
    have hkind : (current after).kind ≠ .eof := by
      intro heof
      rw [heof] at hop
      cases hop
    rw [append_assoc, cons_append, ← hused', ← eq_current_cons rfl hkind, hused]
  · cases h
    exact ⟨used, hused, .tighter rfl hleft⟩

omit hp

theorem parseBinary_sound {operand : ExprParser} {l l' : Level} (hl : l.tighter = some l')
    (hoperand : Sound operand (Derives parseFloat l')) :
    Sound (parseBinary l.kinds operand) (Derives parseFloat l) := by
  refine chain_sound hoperand (fun ts e he => .tighter hl he) ?_
  intro ts left op f ts' right hleft hf hright
  obtain ⟨hop, rfl⟩ := binaryOp_eq_some hf
  exact .binary hl hop hleft hright

def Level.parser (parseFloat : String → Option Value) (p : ExprParser) : Level → ExprParser
  | nullCoalescing => parseNullCoalescing parseFloat p
  | or => parseOr parseFloat p
  | and => parseAnd parseFloat p
  | equality => parseEquality parseFloat p
  | comparison => parseComparison parseFloat p
  | membership => parseMembership parseFloat p
  | unary => parseUnary parseFloat p
  | access => parsePostfix parseFloat p
  | primary => parsePrimary parseFloat p
  | elements => fun ts => (parseElements p ts).map fun (elems, rest) => (.array elems, rest)

theorem Level.parser_sound (hp : Sound p (Derives parseFloat .nullCoalescing)) (l : Level) :
    Sound (l.parser parseFloat p) (Derives parseFloat l) := by
  have hcomparison : Sound (parseComparison parseFloat p) (Derives parseFloat .comparison) :=
    parseBinary_sound (l := .comparison) rfl (parseMembership_sound hp)
  have hequality : Sound (parseEquality parseFloat p) (Derives parseFloat .equality) :=
    parseBinary_sound (l := .equality) rfl hcomparison
  have hand : Sound (parseAnd parseFloat p) (Derives parseFloat .and) :=
    parseBinary_sound (l := .and) rfl hequality
  have hor : Sound (parseOr parseFloat p) (Derives parseFloat .or) := parseBinary_sound (l := .or) rfl hand
  cases l with
  | nullCoalescing => exact parseBinary_sound (l := .nullCoalescing) rfl hor
  | or => exact hor
  | and => exact hand
  | equality => exact hequality
  | comparison => exact hcomparison
  | membership => exact parseMembership_sound hp
  | unary => exact parseUnary_sound hp
  | access => exact parsePostfix_sound hp
  | primary => exact parsePrimary_sound hp
  | elements =>
    intro ts e rest h
    obtain ⟨⟨elems, after⟩, helems, heq⟩ := map_eq_ok.mp h
    cases heq
    exact parseElements_sound hp ts elems rest helems

theorem parseExpr_sound (depth : Nat) : Sound (parseExpr parseFloat depth) (Derives parseFloat .nullCoalescing) := by
  induction depth with
  | zero =>
    intro ts e rest h
    cases h
  | succ depth ih => exact Level.parser_sound ih .nullCoalescing

/-! The depth makes no difference if there are not more tokens. -/

open Level

def Level.rank : Level → Nat
  | elements => 1
  | nullCoalescing => 2
  | or => 3
  | and => 4
  | equality => 5
  | comparison => 6
  | membership => 7
  | unary => 9
  | access => 10
  | primary => 11

/-- How tightly a token binds what stands before it; zero if it cannot go on with it. -/
def TokenKind.strength : TokenKind → Nat
  | comma => 1
  | nullCoal => 2
  | or => 3
  | and => 4
  | eq | neq => 5
  | gt | gte | lt | lte => 6
  | .in | has | contains | startsWith | endsWith | .matches => 8
  | dot | lBracket => 10
  | _ => 0

variable {l l' : Level}

theorem Level.rank_lt_tighter (hl : l.tighter = some l') : l.rank < l'.rank := by
  cases l <;> cases hl <;> decide

theorem Level.strength_of_mem_kinds (hkind : kind ∈ l.kinds) : kind.strength = l.rank := by
  cases l <;> simp only [kinds, mem_cons, not_mem_nil, or_false] at hkind
  case equality => rcases hkind with rfl | rfl <;> rfl
  case comparison => rcases hkind with rfl | rfl | rfl | rfl <;> rfl
  all_goals
    subst hkind
    rfl

theorem strength_of_isMembershipToken (hkind : isMembershipToken kind) : kind.strength = 8 := by
  cases kind <;> first | rfl | cases hkind

def Level.goOn (parseFloat : String → Option Value) (p : ExprParser) : Level → Expr → ExprParser
  | elements, .array elems, ts =>
    (loop (chainStep (parseElement p) commaOp) elems ts).map fun (elems, rest) => (.array elems, rest)
  | access, e, ts => loop (parseAccess p) e ts
  | l, e, ts =>
    match l.tighter, l.kinds with
    | some l', kind :: kinds => loop (chainStep (l'.parser parseFloat p) (binaryOp (kind :: kinds))) e ts
    | _, _ => .ok (e, ts)

theorem Level.parser_eq_chain (hl : l.tighter = some l') (hkinds : l.kinds ≠ []) :
    l.parser parseFloat p = chain (l'.parser parseFloat p) (binaryOp l.kinds) := by
  cases l <;> cases hl <;> first | rfl | exact absurd rfl hkinds

theorem Level.goOn_eq_loop (hl : l.tighter = some l') (hkinds : l.kinds ≠ []) :
    l.goOn parseFloat p e = loop (chainStep (l'.parser parseFloat p) (binaryOp l.kinds)) e := by
  cases l <;> cases hl <;> first | rfl | exact absurd rfl hkinds

theorem Level.eq_of_kinds_nil (hl : l.tighter = some l') (hkinds : l.kinds = []) :
    (l = membership ∧ l' = unary) ∨ (l = unary ∧ l' = access) ∨ (l = access ∧ l' = primary) := by
  cases l <;> cases hl <;> first | exact absurd hkinds (by decide) | simp

theorem chainStep_of_none {α : Type} {operand : Parser (Token String) String α} {a : α}
    {op? : Token String → Option (α → α → α)} (hnone : op? (current ts) = none) :
    chainStep operand op? a ts = none := by
  cases ts with
  | nil => rfl
  | cons tok ts =>
    have htok : op? tok = none := hnone
    simp [chainStep, htok]

theorem parseAccess_of_strength {object : Expr} (hstop : (current ts).kind.strength < 10) :
    parseAccess p object ts = none := by
  unfold parseAccess
  split
  · next hkind =>
    rw [hkind] at hstop
    exact absurd hstop (by decide)
  · next hkind =>
    rw [hkind] at hstop
    exact absurd hstop (by decide)
  · rfl

theorem Level.goOn_of_strength (hstop : (current rest).kind.strength < l.rank) :
    l.goOn parseFloat p e rest = .ok (e, rest) := by
  have hkinds : binaryOp l.kinds (current rest) = none := by
    cases hop : binaryOp l.kinds (current rest) with
    | none => rfl
    | some f =>
      have hsame := strength_of_mem_kinds (binaryOp_eq_some hop).1
      omega
  unfold Level.goOn
  split
  · next elems =>
    have hcomma : commaOp (current rest) = none := by
      cases hop : commaOp (current rest) with
      | none => rfl
      | some f =>
        rw [(commaOp_eq_some hop).1] at hstop
        exact absurd hstop (by decide)
    rw [loop_of_none (chainStep_of_none hcomma)]
    rfl
  · exact loop_of_none (parseAccess_of_strength hstop)
  grind [loop_of_none, chainStep_of_none]

theorem Derives.head (h : Derives parseFloat l ts e) :
    ∃ tok ts', ts = tok :: ts' ∧ tok.kind ≠ .rBracket ∧ (10 ≤ l.rank → tok.kind ≠ .not) := by
  induction h with
  | tighter hl _ ih =>
    obtain ⟨tok, ts', hts, hbracket, hnot⟩ := ih
    have hrank := rank_lt_tighter hl
    exact ⟨tok, ts', hts, hbracket, fun hle => hnot (by omega)⟩
  | @binary l l' _ ts' _ _ op hl hop _ _ ih _ => grind
  | @membership _ ts' _ _ op _ _ _ ih _ => grind [Level.rank]
  | not hop _ _ => exact ⟨_, _, rfl, by rw [hop]; decide, fun hle => absurd hle (by decide)⟩
  | @member _ _ dot name _ _ _ ih => grind
  | @index _ ts' _ _ left right _ _ _ _ ih _ => grind
  | number hkind _ | string hkind | true hkind | false hkind | null hkind | ident hkind
  | paren hkind _ _ _ | empty hkind _ | array hkind _ _ _ => simp_all
  | element _ ih => grind [Level.rank]
  | @elements _ ts' _ _ comma _ _ _ ih _ => grind

theorem Derives.length_pos (h : Derives parseFloat l ts e) : 0 < ts.length := by
  obtain ⟨tok, ts', rfl, _⟩ := h.head
  exact Nat.succ_pos _

theorem parsePostfix_of_ok (h : parsePrimary parseFloat p ts = .ok (e, rest)) :
    parsePostfix parseFloat p ts = loop (parseAccess p) e rest := by
  simp only [parsePostfix, h, bind, Except.bind]

theorem parseMembership_of_ok (h : parseUnary parseFloat p ts = .ok (e, rest)) :
    parseMembership parseFloat p ts = if isMembershipToken (current rest).kind then
        (parseUnary parseFloat p (advance rest)).map fun (right, rest') =>
          (.binary e (current rest).kind right, rest')
      else .ok (e, rest) := by
  simp only [parseMembership, h, bind, Except.bind, pure, Except.pure]
  split
  · cases parseUnary parseFloat p (advance rest) <;> rfl
  · rfl

variable {left right : Expr}

theorem expect_of_kind (h : tok.kind = kind) : expect kind (tok :: rest) = .ok (tok, rest) := if_pos h

def Level.opened : Level → Nat
  | elements => 1
  | _ => 0

/-- The parser of a level reads the tokens of an expression, and goes on with what
stands behind them if they do not bind tighter. -/
def Complete (parseFloat : String → Option Value) (l : Level) (ts : List (Token String)) (e : Expr) : Prop :=
  ∀ depth rest, (ts ++ rest).length + l.opened ≤ depth + 1 → (current rest).kind.strength ≤ l.rank →
    l.parser parseFloat (parseExpr parseFloat depth) (ts ++ rest) =
      l.goOn parseFloat (parseExpr parseFloat depth) e rest

variable {depth : Nat}

theorem Complete.stop (h : Complete parseFloat l ts e) (hlength : (ts ++ rest).length + l.opened ≤ depth + 1)
    (hstop : (current rest).kind.strength < l.rank) :
    l.parser parseFloat (parseExpr parseFloat depth) (ts ++ rest) = .ok (e, rest) := by
  rw [h depth rest hlength (by omega)]
  exact goOn_of_strength hstop

theorem Complete.inside (h : Complete parseFloat .nullCoalescing ts e) (hpos : 0 < ts.length)
    (hlength : (ts ++ rest).length ≤ depth) (hstop : (current rest).kind.strength < 2) :
    parseExpr parseFloat depth (ts ++ rest) = .ok (e, rest) := by
  cases depth with
  | zero => simp_all
  | succ depth => exact h.stop hlength hstop

theorem Complete.tighter (hl : l.tighter = some l') (hderives : Derives parseFloat l' ts e)
    (h : Complete parseFloat l' ts e) : Complete parseFloat l ts e := by
  intro depth rest hlength hstrength
  have hrank := rank_lt_tighter hl
  have hread : l'.parser parseFloat (parseExpr parseFloat depth) (ts ++ rest) = .ok (e, rest) := by
    apply h.stop
    · cases l <;> cases hl <;> exact hlength
    · omega
  by_cases hkinds : l.kinds = []
  · obtain ⟨rfl, rfl⟩ | ⟨rfl, rfl⟩ | ⟨rfl, rfl⟩ := eq_of_kinds_nil hl hkinds
    · have hop : ¬isMembershipToken (current rest).kind := by
        intro hop
        rw [strength_of_isMembershipToken hop] at hstrength
        exact absurd hstrength (by decide)
      exact (parseMembership_of_ok hread).trans (if_neg hop)
    · obtain ⟨tok, ts', rfl, _, hnot⟩ := hderives.head
      simp only [parser, cons_append, parseUnary, hnot (by decide), if_false]
      exact hread
    · exact parsePostfix_of_ok hread
  · rw [parser_eq_chain hl hkinds, goOn_eq_loop hl hkinds]
    exact chain_eq_loop hread

variable {ts' : List (Token String)} {op : Token String}

theorem Complete.binary (hl : l.tighter = some l') (hop : op.kind ∈ l.kinds)
    (hleft : Complete parseFloat l ts left) (hright : Complete parseFloat l' ts' right) :
    Complete parseFloat l (ts ++ op :: ts') (.binary left op.kind right) := by
  intro depth rest hlength hstrength
  have hrank := rank_lt_tighter hl
  have hkinds : l.kinds ≠ [] := ne_nil_of_mem hop
  have hopened : l'.opened = 0 ∧ l.opened = 0 := by cases l <;> cases hl <;> exact ⟨rfl, rfl⟩
  simp only [append_assoc, cons_append, length_append, length_cons] at hlength ⊢
  have hread : l'.parser parseFloat (parseExpr parseFloat depth) (ts' ++ rest) = .ok (right, rest) := by
    apply hright.stop
    · rw [length_append]
      omega
    · omega
  have hsame := strength_of_mem_kinds hop
  rw [hleft depth (op :: (ts' ++ rest)) (by simp; omega) (by rw [← hsame]; exact le_rfl),
    goOn_eq_loop hl hkinds, goOn_eq_loop hl hkinds]
  have hf : binaryOp l.kinds op = some fun left right => .binary left op.kind right := if_pos hop
  exact loop_chainStep (parser_sound (parseExpr_sound depth) l') hf hread

theorem Complete.membership (hop : isMembershipToken op.kind)
    (hleft : Complete parseFloat .unary ts left) (hright : Complete parseFloat .unary ts' right) :
    Complete parseFloat .membership (ts ++ op :: ts') (.binary left op.kind right) := by
  intro depth rest hlength hstrength
  simp only [append_assoc, cons_append, length_append, length_cons] at hlength ⊢
  have hreadLeft : parseUnary parseFloat (parseExpr parseFloat depth) (ts ++ op :: (ts' ++ rest)) =
      .ok (left, op :: (ts' ++ rest)) := by
    apply hleft.stop
    · simp only [length_append, length_cons]
      exact hlength
    · have hsame : op.kind.strength = 8 := strength_of_isMembershipToken hop
      rw [current, headD_cons, hsame]
      decide
  have hreadRight : parseUnary parseFloat (parseExpr parseFloat depth) (ts' ++ rest) = .ok (right, rest) := by
    apply hright.stop
    · simp only [length_append, opened] at hlength ⊢
      omega
    · exact lt_of_le_of_lt hstrength (by decide)
  refine (parseMembership_of_ok hreadLeft).trans ((if_pos hop).trans ?_)
  rw [advance, tail_cons, hreadRight]
  rfl

theorem Complete.not {operand : Expr} (hop : op.kind = .not) (h : Complete parseFloat .unary ts operand) :
    Complete parseFloat .unary (op :: ts) (.unary op.kind operand) := by
  intro depth rest hlength hstrength
  have hread : parseUnary parseFloat (parseExpr parseFloat depth) (ts ++ rest) = .ok (operand, rest) := by
    refine (h depth rest ?_ hstrength).trans rfl
    simp only [cons_append, length_cons] at hlength
    omega
  simp only [parser, cons_append, parseUnary, if_pos hop, hread]
  rfl

variable {object : Expr}

theorem Complete.member {dot name : Token String} (hdot : dot.kind = .dot)
    (hname : name.kind = .ident ∨ isKeywordToken name.kind) (h : Complete parseFloat .access ts object) :
    Complete parseFloat .access (ts ++ [dot, name]) (.member object name.value) := by
  intro depth rest hlength _
  rw [append_assoc] at hlength ⊢
  rw [h depth ([dot, name] ++ rest) hlength (by rw [cons_append, current, headD_cons, hdot]; decide)]
  refine loop_of_some (parseAccess_progress (parseExpr_sound depth)) ?_
  simp only [parseAccess, cons_append, nil_append, current, advance, headD_cons, tail_cons, hdot]
  obtain hident | hkeyword := hname
  · rw [expect_of_kind hident]
  · have hident : name.kind ≠ .ident := by
      intro hident
      rw [hident] at hkeyword
      cases hkeyword
    simp_all [expect, current]

variable {left right : Token String}

theorem Complete.index {i : Expr} (hleft : left.kind = .lBracket) (hright : right.kind = .rBracket)
    (hpos : 0 < ts'.length) (h : Complete parseFloat .access ts object)
    (hi : Complete parseFloat .nullCoalescing ts' i) :
    Complete parseFloat .access (ts ++ left :: (ts' ++ [right])) (.index object i) := by
  intro depth rest hlength _
  simp only [append_assoc, cons_append, nil_append] at hlength ⊢
  rw [h depth (left :: (ts' ++ right :: rest)) hlength (by rw [current, headD_cons, hleft]; decide)]
  refine loop_of_some (parseAccess_progress (parseExpr_sound depth)) ?_
  have hread : parseExpr parseFloat depth (ts' ++ right :: rest) = .ok (i, right :: rest) := by
    apply hi.inside hpos
    · grind
    · rw [current, headD_cons, hright]
      decide
  simp only [parseAccess, current, advance, headD_cons, tail_cons, hleft, hread, bind, Except.bind,
    expect_of_kind hright]
  rfl

theorem Complete.single (h : ∀ p rest, parsePrimary parseFloat p (tok :: rest) = .ok (e, rest)) :
    Complete parseFloat .primary [tok] e :=
  fun depth rest _ _ => h (parseExpr parseFloat depth) rest

theorem Complete.paren (hleft : left.kind = .lParen) (hright : right.kind = .rParen) (hpos : 0 < ts.length)
    (h : Complete parseFloat .nullCoalescing ts e) : Complete parseFloat .primary (left :: (ts ++ [right])) e := by
  intro depth rest hlength _
  simp only [append_assoc, cons_append, nil_append] at hlength ⊢
  have hread : parseExpr parseFloat depth (ts ++ right :: rest) = .ok (e, right :: rest) := by
    apply h.inside hpos
    · grind
    · rw [current, headD_cons, hright]
      decide
  simp only [parser, parsePrimary, current, advance, headD_cons, tail_cons, hleft, hread, bind,
    Except.bind, expect_of_kind hright]
  rfl

theorem Complete.empty (hleft : left.kind = .lBracket) (hright : right.kind = .rBracket) :
    Complete parseFloat .primary [left, right] (.array []) := by
  intro depth rest _ _
  simp only [parser, parsePrimary, cons_append, nil_append, current, advance, headD_cons,
    hleft, parseArrayLiteral, tail_cons, hright, if_true]
  rfl

variable {elems : List Expr}

theorem Complete.array (hleft : left.kind = .lBracket) (hright : right.kind = .rBracket)
    (hderives : Derives parseFloat .elements ts (.array elems)) (h : Complete parseFloat .elements ts (.array elems)) :
    Complete parseFloat .primary (left :: (ts ++ [right])) (.array elems) := by
  intro depth rest hlength _
  simp only [append_assoc, cons_append, nil_append] at hlength ⊢
  obtain ⟨tok, ts', rfl, hbracket, _⟩ := hderives.head
  have hread : Level.elements.parser parseFloat (parseExpr parseFloat depth) (tok :: ts' ++ right :: rest) =
      .ok (.array elems, right :: rest) := by
    apply h.stop
    · grind [opened]
    · rw [current, headD_cons, hright]
      decide
  obtain ⟨⟨elems', after⟩, helems, heq⟩ := fold.map_eq_ok.mp hread
  cases heq
  simp only [parser, parsePrimary, current, headD_cons, hleft, parseArrayLiteral, advance, tail_cons]
  rw [cons_append] at helems
  simp only [cons_append, headD_cons, hbracket, if_false, helems, bind, Except.bind, expect_of_kind hright]
  rfl

theorem Complete.element (hpos : 0 < ts.length) (h : Complete parseFloat .nullCoalescing ts e) :
    Complete parseFloat .elements ts (.array [e]) := by
  intro depth rest hlength hstrength
  have hread : parseElement (parseExpr parseFloat depth) (ts ++ rest) = .ok ([e], rest) := by
    unfold parseElement
    rw [h.inside hpos (Nat.le_of_succ_le_succ hlength) (lt_of_le_of_lt hstrength (by decide))]
    rfl
  simp only [parser, parseElements, chain_eq_loop hread]
  rfl

theorem Complete.elements {comma : Token String} (hcomma : comma.kind = .comma) (hpos : 0 < ts'.length)
    (h : Complete parseFloat .elements ts (.array elems)) (he : Complete parseFloat .nullCoalescing ts' e) :
    Complete parseFloat .elements (ts ++ comma :: ts') (.array (elems ++ [e])) := by
  intro depth rest hlength hstrength
  simp only [append_assoc, cons_append] at hlength ⊢
  have hread : parseElement (parseExpr parseFloat depth) (ts' ++ rest) = .ok ([e], rest) := by
    unfold parseElement
    rw [he.inside hpos _ (lt_of_le_of_lt hstrength (by decide))]
    · rfl
    · grind
  rw [h depth (comma :: (ts' ++ rest)) hlength (by rw [current, headD_cons, hcomma]; decide)]
  have hf : commaOp comma = some fun elements elem => elements ++ elem := if_pos hcomma
  simp only [Level.goOn]
  rw [loop_chainStep (parseElement_sound (parseExpr_sound depth)) hf hread]

theorem Derives.complete (h : Derives parseFloat l ts e) : Complete parseFloat l ts e := by
  induction h with
  | tighter hl h ih => exact ih.tighter hl h
  | binary hl hop _ _ ihleft ihright => exact ihleft.binary hl hop ihright
  | membership hop _ _ ihleft ihright => exact ihleft.membership hop ihright
  | not hop _ ih => exact ih.not hop
  | member hdot hname _ ih => exact ih.member hdot hname
  | index hleft hright _ hi ih ihi => exact ih.index hleft hright hi.length_pos ihi
  | number hkind hval => grind [Complete.single, parsePrimary, current, advance]
  | string hkind | true hkind | false hkind | null hkind | ident hkind =>
    grind [Complete.single, parsePrimary, current, advance]
  | paren hleft hright h ih => exact ih.paren hleft hright h.length_pos
  | empty hleft hright => exact .empty hleft hright
  | array hleft hright h ih => exact ih.array hleft hright h
  | element h ih => exact ih.element h.length_pos
  | elements hcomma _ he ih ihe => exact ih.elements hcomma he.length_pos ihe

theorem ne_eof_of_strength (hkind : 0 < kind.strength) : kind ≠ .eof := by
  rintro rfl
  exact absurd hkind (by decide)

theorem Derives.ne_eof (h : Derives parseFloat l ts e) : ∀ tok ∈ ts, tok.kind ≠ .eof := by
  induction h with
  | tighter _ _ ih | element _ ih => exact ih
  | @binary l _ _ _ _ _ op _ hop _ _ ihleft ihright =>
    have hop : op.kind ≠ .eof := by
      apply ne_eof_of_strength
      rw [strength_of_mem_kinds hop]
      cases l <;> decide
    grind
  | membership hop _ _ ihleft ihright =>
    have hop := ne_eof_of_strength (by rw [strength_of_isMembershipToken hop]; decide)
    grind
  | not hop _ ih => simp_all
  | @member _ _ _ name hdot hname _ ih =>
    have hname : name.kind ≠ .eof := by
      intro heof
      rw [heof] at hname
      exact absurd hname (by decide)
    grind
  | index hleft hright _ _ ih ihi => grind
  | number hkind _ | string hkind | true hkind | false hkind | null hkind | ident hkind => simp_all
  | paren hleft hright _ ih | array hleft hright _ ih => grind
  | empty hleft hright => simp_all
  | elements hcomma _ _ ih ihe => grind

def body (tokens : List (Token String)) : List (Token String) := tokens.takeWhile (·.kind ≠ .eof)

theorem body_append (hts : ∀ tok ∈ ts, tok.kind ≠ .eof) (hrest : (current rest).kind = .eof) :
    body (ts ++ rest) = ts := by
  have hnil : rest.takeWhile (·.kind ≠ .eof) = [] := by
    cases rest with
    | nil => rfl
    | cons tok rest =>
      have heof : tok.kind = .eof := hrest
      simp [heof]
  simp_all [body]

theorem exists_body (tokens : List (Token String)) :
    ∃ rest, tokens = body tokens ++ rest ∧ (current rest).kind = .eof := by
  refine ⟨tokens.dropWhile (·.kind ≠ .eof), takeWhile_append_dropWhile.symm, ?_⟩
  induction tokens with
  | nil => rfl
  | cons tok tokens ih => grind [current, dropWhile_cons]

variable {tokens : List (Token String)}

theorem parse_of_derives (h : Derives parseFloat .nullCoalescing (body tokens) e) :
    parse parseFloat tokens = .ok e := by
  obtain ⟨rest, htokens, heof⟩ := exists_body tokens
  have hread : parseExpr parseFloat tokens.length tokens = .ok (e, rest) := by
    have hlength : (body tokens ++ rest).length ≤ tokens.length := by rw [← htokens]
    have hinside := h.complete.inside h.length_pos hlength (by rw [heof]; decide)
    rwa [← htokens] at hinside
  simp only [parse, hread, bind, Except.bind, heof, ne_eq, not_true_eq_false, if_false]
  rfl

theorem derives_of_parse (h : parse parseFloat tokens = .ok e) :
    Derives parseFloat .nullCoalescing (body tokens) e := by
  obtain ⟨⟨e', rest⟩, hread, h⟩ := fold.bind_eq_ok.mp h
  dsimp only at h
  split at h
  · cases h
  · next heof =>
    cases h
    obtain ⟨used, rfl, hderives⟩ := parseExpr_sound _ _ _ _ hread
    rwa [body_append hderives.ne_eof (not_not.mp heof)]

/-- The parser accepts the tokens of the grammar's expressions and no others, and
returns the only expression that they stand for. -/
theorem parse_exact (parseFloat : String → Option Value) (tokens : List (Token String)) :
    (∀ e, parse parseFloat tokens = .ok e ↔ Derives parseFloat .nullCoalescing (body tokens) e) ∧
      ∀ e e', Derives parseFloat .nullCoalescing (body tokens) e →
        Derives parseFloat .nullCoalescing (body tokens) e' → e = e' := by
  grind [derives_of_parse, parse_of_derives]

end petalflow.nodes.expr
