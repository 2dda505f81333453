import ScriptFrontend.Text.Escaped

set_option autoImplicit false

namespace ScriptFrontend.Numeral

inductive Fault where
  | moreDigits
  | unexpected (rest : List Char)
  | tooLarge
deriving DecidableEq

namespace Fault

def unused : List Char → Fault
  | [] => moreDigits
  | rest => unexpected rest

def message : Fault → String
  | moreDigits => "expected more digits"
  | unexpected rest => "unexpected " ++ Text.quoted (String.ofList rest)
  | tooLarge => "number too large to fit in target type"

end Fault

def digit? (base : Nat) (c : Char) : Option Nat :=
  let value :=
    if c.isDigit then some (c.toNat - '0'.toNat)
    else if 'a' ≤ c ∧ c ≤ 'f' then some (c.toNat - 'a'.toNat + 10)
    else if 'A' ≤ c ∧ c ≤ 'F' then some (c.toNat - 'A'.toNat + 10)
    else none
  value.filter (· < base)

def isDigit (base : Nat) (c : Char) : Bool :=
  (digit? base c).isSome

def isDigitOrSeparator (base : Nat) (c : Char) : Bool :=
  isDigit base c || c == '_'

/-- The positional value of the digits of a text. All else in it counts for nothing. -/
def value (base : Nat) (text : List Char) : Nat :=
  (text.filterMap (digit? base)).foldl (fun n d => base * n + d) 0

/-- Separated digits at the start of a text, and what follows them. -/
def digits (base : Nat) (text : List Char) : Option (List Char × List Char) :=
  if (text.head?.map (isDigit base)).getD false then
    some (text.span (isDigitOrSeparator base))
  else none

/-- The base that a text names, and the digits it is to be read with. -/
def radix : List Char → Nat × List Char
  | '0' :: 'x' :: rest | '0' :: 'X' :: rest => (16, rest)
  | '0' :: 'o' :: rest | '0' :: 'O' :: rest => (8, rest)
  | '0' :: 'b' :: rest | '0' :: 'B' :: rest => (2, rest)
  | text => (10, text)

def bound : Nat :=
  0x8000000000000000

def int (text : List Char) : Except Fault Int :=
  let (base, body) := radix text
  match digits base body with
  | none => .error (.unused body)
  | some (run, []) => if value base run < bound then .ok (value base run) else .error .tooLarge
  | some (_, rest) => .error (.unused rest)

def plain (run : List Char) : List Char :=
  run.filter (· != '_')

/-- The number nearest to digits with a point among them, infinity when they stand for too much. -/
def nearest (text : List Char) : Float :=
  let places := (text.dropWhile (· != '.')).tail.length
  Float.ofScientific (value 10 text) true places

def float (text : List Char) : Except Fault Float :=
  match digits 10 text with
  | none => .error (.unused text)
  | some (whole, '.' :: rest) =>
    match digits 10 rest with
    | some (fraction, []) => .ok (nearest (plain whole ++ '.' :: plain fraction))
    | some (_, rest) => .error (.unused rest)
    | none => if rest.isEmpty then .ok (nearest (plain whole ++ ['.'])) else .error (.unused rest)
  | some (_, rest) => .error (.unused rest)

end ScriptFrontend.Numeral
