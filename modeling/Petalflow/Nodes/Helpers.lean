import Petalflow.Core.Envelope

open petalflow.core

namespace petalflow.nodes

/-- The functions of the standard library that the nodes call and that are not
modelled further: the default format of a value and of its type, the JSON form of
a value, lower case, and regular expressions. -/
structure Library where
  sprint : Value → String
  typeName : Value → String
  marshal : Value → String
  toLower : String → String
  compileRegexp : String → Except String (String → Bool)

/-- The number behind a value. Numbers are exact, so a conversion never rounds. -/
def toFloat64 : Value → Option Rat
  | .num .int n | .num .int64 n | .num .float32 n | .num .float64 n | .num .jsonNumber n => some n
  | _ => none

def toString (lib : Library) : Value → String
  | .str s => s
  | v => lib.marshal v

def compare (lib : Library) (a b : Value) : Ordering :=
  match toFloat64 a, toFloat64 b with
  | some x, some y => compareOfLessAndEq x y
  | _, _ => compareOfLessAndEq (lib.sprint a) (lib.sprint b)

def containsValue (lib : Library) (container value : Value) : Bool :=
  text.contains (lib.sprint container) (lib.sprint value)

def inValues (lib : Library) (val : Value) (values : List Value) : Bool :=
  values.any fun v => compare lib val v = .eq

/-- Whether a value counts as true. The numbers of other types than the three
that are tested count as true, zero included. -/
def isTruthy : Value → Bool
  | .nil => false
  | .bool b => b
  | .num .int n | .num .int64 n | .num .float64 n => n ≠ 0
  | .str s => s ≠ ""
  | .list elems => elems.length > 0
  | .map entries => entries.length > 0
  | _ => true

end petalflow.nodes
