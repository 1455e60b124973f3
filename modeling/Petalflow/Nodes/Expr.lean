import Mathlib.Data.Rat.Floor
import Petalflow.Nodes.Helpers

open petalflow.core

namespace petalflow.nodes.expr

inductive TokenKind where
  | ident | number | string
  | eq | neq | gt | gte | lt | lte | and | or | not | nullCoal
  | in | has | contains | startsWith | endsWith | matches
  | dot | lBracket | rBracket | lParen | rParen | comma
  | true | false | null | eof
deriving DecidableEq, Repr

def TokenKind.text : TokenKind → String
  | ident => "identifier" | number => "number" | string => "string"
  | eq => "==" | neq => "!=" | gt => ">" | gte => ">=" | lt => "<" | lte => "<="
  | and => "&&" | or => "||" | not => "!" | nullCoal => "??"
  | .in => "in" | has => "has" | contains => "contains" | startsWith => "startsWith"
  | endsWith => "endsWith" | .matches => "matches"
  | dot => "." | lBracket => "[" | rBracket => "]" | lParen => "(" | rParen => ")" | comma => ","
  | .true => "true" | .false => "false" | null => "null" | eof => "EOF"

inductive Expr where
  | binary (left : Expr) (op : TokenKind) (right : Expr)
  | unary (op : TokenKind) (operand : Expr)
  | literal (value : Value)
  | ident (name : String)
  | member (object : Expr) (property : String)
  | index (object index : Expr)
  | array (elements : List Expr)

/-- Whether a value counts as true. Of the numbers only those of type `float64`
and `int` can count as false. -/
def isTruthy : Value → Bool
  | .nil => false
  | .bool b => b
  | .num .float64 n | .num .int n => n ≠ 0
  | .str s => s ≠ ""
  | .list elems => elems.length > 0
  | .map entries => entries.length > 0
  | _ => true

def toFloat64 : Value → Option Rat
  | .num .float64 n | .num .float32 n | .num .int n | .num .int64 n | .num .int32 n => some n
  | _ => none

mutual

def deepEqual : Value → Value → Bool
  | .nil, .nil => true
  | .bool a, .bool b => a = b
  | .str a, .str b => a = b
  | .num s a, .num t b => s = t ∧ a = b
  | .list as, .list bs => deepEqualList as bs
  | .map as, .map bs => bs.all (fun e => (as.lookup e.1).isSome) && deepEqualEntries [] as bs
  | .decision a, .decision b => a = b
  | .record s as, .record t bs => s = t && (as.length = bs.length && deepEqualEntries [] as bs)
  | _, _ => false

def deepEqualList : List Value → List Value → Bool
  | [], [] => true
  | a :: as, b :: bs => deepEqual a b && deepEqualList as bs
  | _, _ => false

def deepEqualEntries (seen : List String) : List (String × Value) → List (String × Value) → Bool
  | [], _ => true
  | (k, a) :: rest, bs =>
    (k ∈ seen || (match bs.lookup k with
      | some b => deepEqual a b
      | none => false)) && deepEqualEntries (k :: seen) rest bs

end

def isEqual (a b : Value) : Bool :=
  match toFloat64 a, toFloat64 b with
  | some x, some y => x = y
  | _, _ => deepEqual a b

def compareNumeric (a b : Value) : Option Ordering :=
  match toFloat64 a, toFloat64 b with
  | some x, some y => some (compareOfLessAndEq x y)
  | _, _ =>
    match a, b with
    | .str x, .str y => some (compareOfLessAndEq x y)
    | _, _ => none

def evalNumericComparison (op : TokenKind) (left right : Value) : Bool :=
  match compareNumeric left right with
  | none => false
  | some cmp =>
    match op with
    | .gt => cmp = .gt
    | .gte => cmp ≠ .lt
    | .lt => cmp = .lt
    | .lte => cmp ≠ .gt
    | _ => false

/-- The number of bytes, elements or keys; nil for a value that has no length. -/
def getLength (lib : Library) : Value → Value
  | .str s => .num .float64 s.utf8ByteSize
  | .num .jsonNumber n => .num .float64 (lib.sprint (.num .jsonNumber n)).utf8ByteSize
  | .list elems => .num .float64 elems.length
  | .map entries => .num .float64 (entries.map Prod.fst).dedup.length
  | _ => .nil

def accessMember (lib : Library) (obj : Value) (prop : String) : Value :=
  match obj with
  | .nil => .nil
  | obj =>
    if prop = "length" then getLength lib obj
    else
      match obj with
      | .map entries => (entries.lookup prop).getD .nil
      | _ => .nil

def truncate (q : Rat) : Int :=
  if 0 ≤ q then ⌊q⌋ else ⌈q⌉

def accessIndex (lib : Library) (obj idx : Value) : Except String Value :=
  match obj with
  | .nil => .ok .nil
  | obj =>
    match idx with
    | .str key => .ok (accessMember lib obj key)
    | idx =>
      match toFloat64 idx with
      | none => .error s!"invalid index type {lib.typeName idx}"
      | some i =>
        match obj with
        | .list elems =>
          let index := truncate i
          .ok (if index < 0 then .nil else (elems[index.toNat]?).getD .nil)
        | _ => .ok .nil

def checkIn (left : Value) : Value → Bool
  | .list elems => elems.any (isEqual left)
  | _ => false

def checkHas (left right : Value) : Bool :=
  match left, right with
  | .map entries, .str key => (entries.lookup key).isSome
  | _, _ => false

def checkText (test : String → String → Bool) (left right : Value) : Bool :=
  match left, right with
  | .str ls, .str rs => test ls rs
  | _, _ => false

def checkContains : Value → Value → Bool := checkText text.contains

def checkStartsWith : Value → Value → Bool := checkText text.hasPrefix

def checkEndsWith : Value → Value → Bool := checkText text.hasSuffix

def checkMatches (lib : Library) (left right : Value) : Except String Bool :=
  match left, right with
  | .str ls, .str rs =>
    match lib.compileRegexp rs with
    | .error err => .error s!"invalid regex {rs.quote}: {err}"
    | .ok matchString => .ok (matchString ls)
  | _, _ => .ok false

def evalBinaryValues (lib : Library) (op : TokenKind) (left right : Value) : Except String Value :=
  match op with
  | .eq => .ok (.bool (isEqual left right))
  | .neq => .ok (.bool (!isEqual left right))
  | .gt | .gte | .lt | .lte => .ok (.bool (evalNumericComparison op left right))
  | .in => .ok (.bool (checkIn left right))
  | .has => .ok (.bool (checkHas left right))
  | .contains => .ok (.bool (checkContains left right))
  | .startsWith => .ok (.bool (checkStartsWith left right))
  | .endsWith => .ok (.bool (checkEndsWith left right))
  | .matches => (checkMatches lib left right).map .bool
  | op => .error s!"unknown binary operator {op.text}"

mutual

/-- The value of an expression. An undefined variable is nil; `&&`, `||` and `??`
look at their right side only when it matters. -/
def eval (lib : Library) (vars : Vars) : Expr → Except String Value
  | .literal value => .ok value
  | .ident name => .ok ((vars.lookup name).getD .nil)
  | .member object property => do
    let obj ← eval lib vars object
    .ok (accessMember lib obj property)
  | .index object index => do
    let obj ← eval lib vars object
    let idx ← eval lib vars index
    accessIndex lib obj idx
  | .array elements => do
    let elems ← evalElements lib vars elements
    .ok (.list elems)
  | .unary op operand => do
    let val ← eval lib vars operand
    match op with
    | .not => .ok (.bool (!isTruthy val))
    | op => .error s!"unknown unary operator {op.text}"
  | .binary left op right =>
    match op with
    | .and => do
      let l ← eval lib vars left
      if isTruthy l then do
        let r ← eval lib vars right
        .ok (.bool (isTruthy r))
      else .ok (.bool false)
    | .or => do
      let l ← eval lib vars left
      if isTruthy l then .ok (.bool true)
      else do
        let r ← eval lib vars right
        .ok (.bool (isTruthy r))
    | .nullCoal => do
      let l ← eval lib vars left
      match l with
      | .nil => eval lib vars right
      | l => .ok l
    | op => do
      let l ← eval lib vars left
      let r ← eval lib vars right
      evalBinaryValues lib op l r

def evalElements (lib : Library) (vars : Vars) : List Expr → Except String (List Value)
  | [] => .ok []
  | elem :: rest => do
    let val ← eval lib vars elem
    let vals ← evalElements lib vars rest
    .ok (val :: vals)

end

end petalflow.nodes.expr
