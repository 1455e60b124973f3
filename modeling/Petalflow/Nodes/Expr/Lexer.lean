import Petalflow.Lib.Fold
import Petalflow.Lib.Parsing
import Petalflow.Lib.Utf8
import Petalflow.Nodes.Expr

open parsing utf8 petalflow.core

namespace petalflow.nodes.expr

structure Token (α : Type) where
  kind : TokenKind
  value : α
  pos : Nat
deriving DecidableEq, Repr

abbrev ExprParser := Parser (Token String) String Expr

def current (ts : List (Token String)) : Token String := ts.headD { kind := .eof, value := "", pos := 0 }

def advance (ts : List (Token String)) : List (Token String) := ts.tail

def expect (kind : TokenKind) : Parser (Token String) String (Token String) := fun ts =>
  let tok := current ts
  if tok.kind = kind then .ok (tok, advance ts)
  else .error s!"expected {kind.text} but got {tok.kind.text} at position {tok.pos}"

def unexpected (tok : Token String) : String := s!"unexpected token {tok.kind.text} at position {tok.pos}"

def isKeywordToken (kind : TokenKind) : Bool :=
  kind ∈ [.in, .has, .contains, .startsWith, .endsWith, .matches, .true, .false, .null]

def isMembershipToken (kind : TokenKind) : Bool :=
  kind ∈ [.in, .has, .contains, .startsWith, .endsWith, .matches]

def binaryOp (kinds : List TokenKind) (op : Token String) : Option (Expr → Expr → Expr) :=
  if op.kind ∈ kinds then some fun left right => .binary left op.kind right else none

def commaOp (tok : Token String) : Option (List Expr → List Expr → List Expr) :=
  if tok.kind = .comma then some fun elements elem => elements ++ elem else none

section parser

/-! The functions take the parser of the expressions inside brackets. -/

variable (parseFloat : String → Option Value) (parseExpr : ExprParser)

def parseElement : Parser (Token String) String (List Expr) := fun ts =>
  (parseExpr ts).map fun (elem, rest) => ([elem], rest)

def parseElements : Parser (Token String) String (List Expr) := chain (parseElement parseExpr) commaOp

def parseArrayLiteral : ExprParser := fun ts =>
  let ts := advance ts
  if (current ts).kind = .rBracket then .ok (.array [], advance ts)
  else do
    let (elements, ts) ← parseElements parseExpr ts
    let (_, ts) ← expect .rBracket ts
    return (.array elements, ts)

def parsePrimary : ExprParser := fun ts =>
  let tok := current ts
  match tok.kind with
  | .number =>
    match parseFloat tok.value with
    | none => .error s!"invalid number {tok.value.quote} at position {tok.pos}"
    | some val => .ok (.literal val, advance ts)
  | .string => .ok (.literal (.str tok.value), advance ts)
  | .true => .ok (.literal (.bool true), advance ts)
  | .false => .ok (.literal (.bool false), advance ts)
  | .null => .ok (.literal .nil, advance ts)
  | .ident => .ok (.ident tok.value, advance ts)
  | .lParen => do
    let (e, ts) ← parseExpr (advance ts)
    let (_, ts) ← expect .rParen ts
    return (e, ts)
  | .lBracket => parseArrayLiteral parseExpr ts
  | _ => .error (unexpected tok)

def parseAccess : Step (Token String) String Expr := fun object ts =>
  match (current ts).kind with
  | .dot =>
    let ts := advance ts
    match expect .ident ts with
    | .ok (name, ts) => some (.ok (.member object name.value, ts))
    | .error err =>
      let tok := current ts
      if isKeywordToken tok.kind then some (.ok (.member object tok.value, advance ts)) else some (.error err)
  | .lBracket =>
    some do
      let (index, ts) ← parseExpr (advance ts)
      let (_, ts) ← expect .rBracket ts
      return (.index object index, ts)
  | _ => none

def parsePostfix : ExprParser := fun ts => do
  let (e, ts) ← parsePrimary parseFloat parseExpr ts
  loop (parseAccess parseExpr) e ts

def parseUnary : ExprParser
  | [] => parsePostfix parseFloat parseExpr []
  | tok :: ts =>
    if tok.kind = .not then (parseUnary ts).map fun (operand, rest) => (.unary tok.kind operand, rest)
    else parsePostfix parseFloat parseExpr (tok :: ts)

def parseMembership : ExprParser := fun ts => do
  let (left, ts) ← parseUnary parseFloat parseExpr ts
  let op := current ts
  if isMembershipToken op.kind then
    let (right, ts) ← parseUnary parseFloat parseExpr (advance ts)
    return (.binary left op.kind right, ts)
  else return (left, ts)

def parseBinary (kinds : List TokenKind) (operand : ExprParser) : ExprParser := chain operand (binaryOp kinds)

def parseComparison : ExprParser := parseBinary [.gt, .gte, .lt, .lte] (parseMembership parseFloat parseExpr)

def parseEquality : ExprParser := parseBinary [.eq, .neq] (parseComparison parseFloat parseExpr)

def parseAnd : ExprParser := parseBinary [.and] (parseEquality parseFloat parseExpr)

def parseOr : ExprParser := parseBinary [.or] (parseAnd parseFloat parseExpr)

def parseNullCoalescing : ExprParser := parseBinary [.nullCoal] (parseOr parseFloat parseExpr)

end parser

def parseExpr (parseFloat : String → Option Value) : Nat → ExprParser
  | 0 => fun ts => .error (unexpected (current ts))
  | depth + 1 => parseNullCoalescing parseFloat (parseExpr parseFloat depth)

def parse (parseFloat : String → Option Value) (tokens : List (Token String)) : Except String Expr := do
  let (e, rest) ← parseExpr parseFloat tokens.length tokens
  if (current rest).kind ≠ .eof then throw (unexpected (current rest))
  return e

abbrev Bytes := List UInt8

/-- The letters and digits of Unicode beyond the first 256 characters. The
replacement character is neither. -/
structure UnicodeTables where
  letter : Char → Bool
  digit : Char → Bool
  replacement_not_letter : letter '�' = false
  replacement_not_digit : digit '�' = false

variable (tables : UnicodeTables)

def isLetter (ch : Char) : Bool :=
  if ch.toNat ≤ 0xFF then
    ch.isAlpha || ch.toNat ∈ [0xAA, 0xB5, 0xBA] || (0xC0 ≤ ch.toNat && ch.toNat ≠ 0xD7 && ch.toNat ≠ 0xF7)
  else tables.letter ch

def isUnicodeDigit (ch : Char) : Bool :=
  if ch.toNat ≤ 0xFF then ch.isDigit else tables.digit ch

def isDigit (ch : Char) : Bool := '0' ≤ ch ∧ ch ≤ '9'

def isIdentStart (ch : Char) : Bool := ch = '_' || isLetter tables ch

def isIdentPart (ch : Char) : Bool := ch = '_' || isLetter tables ch || isUnicodeDigit tables ch

def keywords : List (String × TokenKind) :=
  [("in", .in), ("has", .has), ("contains", .contains), ("startsWith", .startsWith), ("endsWith", .endsWith),
    ("matches", .matches), ("true", .true), ("false", .false), ("null", .null)]

structure Scanned where
  kind : TokenKind
  value : Bytes
  rest : Bytes
deriving DecidableEq

def peekNext (src : Bytes) : UInt8 := src.getD 1 0

def tryEmitDoubleCharToken (ch : Char) (next : UInt8) : Option TokenKind :=
  if ch = '=' && next = '='.toUInt8 then some .eq
  else if ch = '!' && next = '='.toUInt8 then some .neq
  else if ch = '>' && next = '='.toUInt8 then some .gte
  else if ch = '<' && next = '='.toUInt8 then some .lte
  else if ch = '&' && next = '&'.toUInt8 then some .and
  else if ch = '|' && next = '|'.toUInt8 then some .or
  else if ch = '?' && next = '?'.toUInt8 then some .nullCoal
  else none

def tryEmitSingleCharToken : Char → Option TokenKind
  | '>' => some .gt
  | '<' => some .lt
  | '!' => some .not
  | '.' => some .dot
  | '[' => some .lBracket
  | ']' => some .rBracket
  | '(' => some .lParen
  | ')' => some .rParen
  | ',' => some .comma
  | _ => none

def emit (size : Nat) (kind : TokenKind) (src : Bytes) : Scanned :=
  { kind, value := src.take size, rest := src.drop size }

def emit1 : TokenKind → Bytes → Scanned := emit 1

def emit2 : TokenKind → Bytes → Scanned := emit 2

/-- What an escape sequence stands for. The backslash of an unknown one stays. -/
def unescape (esc : UInt8) : Bytes :=
  if esc = '"'.toUInt8 || esc = '\\'.toUInt8 || esc = '/'.toUInt8 then [esc]
  else if esc = 'n'.toUInt8 then ['\n'.toUInt8]
  else if esc = 't'.toUInt8 then ['\t'.toUInt8]
  else if esc = 'r'.toUInt8 then ['\r'.toUInt8]
  else ['\\'.toUInt8, esc]

def stringBody : Bytes → Option (Bytes × Bytes)
  | [] => none
  | ch :: src =>
    if ch = '\\'.toUInt8 then
      match src with
      | [] => none
      | esc :: src => (stringBody src).map fun (value, rest) => (unescape esc ++ value, rest)
    else if ch = '"'.toUInt8 then some ([], src)
    else (stringBody src).map fun (value, rest) => (ch :: value, rest)

def lexString (start : Nat) (src : Bytes) : Except String Scanned :=
  match stringBody src.tail with
  | none => .error s!"unterminated string at position {start}"
  | some (value, rest) => .ok { kind := .string, value, rest }

def isDigitByte (ch : UInt8) : Bool := isDigit (Char.ofNat ch.toNat)

def digits (src : Bytes) : Bytes × Bytes := (src.takeWhile isDigitByte, src.dropWhile isDigitByte)

def minusSign (src : Bytes) : Bytes × Bytes :=
  if src.head? = some '-'.toUInt8 then (['-'.toUInt8], src.tail) else ([], src)

def decimalPart (src : Bytes) : Bytes × Bytes :=
  if src.head? = some '.'.toUInt8 then ('.'.toUInt8 :: (digits src.tail).1, (digits src.tail).2) else ([], src)

def lexNumber (src : Bytes) : Scanned :=
  let (sign, src) := minusSign src
  let (whole, src) := digits src
  let (decimal, src) := decimalPart src
  { kind := .number, value := sign ++ (whole ++ decimal), rest := src }

def wordKind (word : Bytes) : TokenKind :=
  ((keywords.find? fun entry => encode entry.1.toList = word).map Prod.snd).getD .ident

def lexIdent (tables : UnicodeTables) (src : Bytes) : Scanned :=
  let (word, src) := span (isIdentPart tables) src
  { kind := wordKind word, value := word, rest := src }

def isNegativeNumber (last : Option TokenKind) : Bool :=
  match last with
  | none => true
  | some kind =>
    kind ∈ [.eq, .neq, .gt, .gte, .lt, .lte, .and, .or, .not, .nullCoal, .lParen, .lBracket, .comma, .in, .has,
      .contains, .startsWith, .endsWith, .matches]

def skipWhitespace (src : Bytes) : Bytes × Bytes := span text.isSpace src

def lexToken (last : Option TokenKind) (pos : Nat) (src : Bytes) : Except String Scanned :=
  let ch := (decodeRune src).1
  match tryEmitDoubleCharToken ch (peekNext src), tryEmitSingleCharToken ch with
  | some kind, _ => .ok (emit2 kind src)
  | none, some kind => .ok (emit1 kind src)
  | none, none =>
    if ch = '"' then lexString pos src
    else if isDigit ch || (ch = '-' && isNegativeNumber last) then .ok (lexNumber src)
    else if isIdentStart tables ch then .ok (lexIdent tables src)
    else .error s!"unexpected character {(String.singleton ch).quote} at position {pos}"

structure Lexer where
  pos : Nat
  tokens : List (Token Bytes)

def lexNext : Step UInt8 String Lexer := fun l src =>
  let (blank, src) := skipWhitespace src
  if src = [] then none
  else
    let pos := l.pos + blank.length
    some ((lexToken tables (l.tokens.getLast?.map Token.kind) pos src).map fun scanned =>
      ({ pos := pos + (src.length - scanned.rest.length),
         tokens := l.tokens ++ [{ kind := scanned.kind, value := scanned.value, pos }] }, scanned.rest))

def lexAll (src : Bytes) : Except String (List (Token Bytes)) :=
  (loop (lexNext tables) { pos := 0, tokens := [] } src).map fun (l, blank) =>
    l.tokens ++ [{ kind := .eof, value := [], pos := l.pos + blank.length }]

def lex (src : Bytes) : Except String (List (Token Bytes)) := lexAll tables src

def Token.ofBytes (tok : Token Bytes) : Token String :=
  { kind := tok.kind, value := .ofList (decode tok.value), pos := tok.pos }

def parseString (tables : UnicodeTables) (parseFloat : String → Option Value) (input : String) :
    Except String Expr := do
  let tokens ← lex tables (encode input.toList)
  parse parseFloat (tokens.map Token.ofBytes)

end petalflow.nodes.expr
