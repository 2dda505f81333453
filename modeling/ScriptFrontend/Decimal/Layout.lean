import ScriptFrontend.Decimal.Shortest

set_option autoImplicit false

namespace ScriptFrontend

namespace Float64

inductive Reading where
  | nan
  | infinite
  | zero
  | finite (x : Dyadic)

def isNegative (x : Float) : Bool :=
  x.toBits >>> 63 = 1

/-- From the top there are a sign, eleven bits of exponent and the fraction. A number with no
exponent has no leading one before its fraction. -/
def reading (x : Float) : Reading :=
  let exponent := (x.toBits >>> 52 &&& 0x7FF).toNat
  let fraction := (x.toBits &&& 0xFFFFFFFFFFFFF).toNat
  if exponent = 0x7FF then if fraction = 0 then .infinite else .nan
  else if exponent = 0 then if fraction = 0 then .zero else .finite ⟨fraction, -1074, false⟩
  else
    .finite ⟨0x10000000000000 + fraction, (exponent : Int) - 1075, fraction = 0 && exponent > 1⟩

end Float64

namespace Decimal

def significant (d : Decimal) : List Char :=
  ((Nat.toDigits 10 d.digits).reverse.dropWhile (· == '0')).reverse

def point (d : Decimal) : Int :=
  (Nat.toDigits 10 d.digits).length + d.exponent

end Decimal

structure Layout where
  wholeMark : Bool
  positional : Int → Bool

namespace Layout

def plain : Layout :=
  { wholeMark := false, positional := fun _ => true }

/-- An exponent below `10 ^ -4` and from `10 ^ 16` on; a whole number never looks like an integer.
-/
def marked : Layout :=
  { wholeMark := true, positional := fun point => -4 < point && point < 17 }

def fractionMark (l : Layout) : List Char → List Char
  | [] => if l.wholeMark then ['.', '0'] else []
  | fraction => '.' :: fraction

def positionalDigits (l : Layout) (digits : List Char) (point : Int) : List Char :=
  if point ≤ 0 then '0' :: '.' :: List.replicate (-point).toNat '0' ++ digits
  else
    let whole := point.toNat
    digits.take whole ++ List.replicate (whole - digits.length) '0' ++
      l.fractionMark (digits.drop whole)

def exponentDigits (digits : List Char) (point : Int) : List Char :=
  let fraction := if digits.length ≤ 1 then [] else '.' :: digits.drop 1
  digits.take 1 ++ fraction ++ 'e' :: (toString (point - 1)).toList

def magnitude (l : Layout) : Float64.Reading → List Char
  | .nan => "NaN".toList
  | .infinite => "inf".toList
  | .zero => '0' :: l.fractionMark []
  | .finite x =>
    let d := x.shortest
    if l.positional d.point then l.positionalDigits d.significant d.point
    else exponentDigits d.significant d.point

def render (l : Layout) (x : Float) : String :=
  let reading := Float64.reading x
  let sign := match reading with
    | .nan => []
    | _ => if Float64.isNegative x then ['-'] else []
  String.ofList (sign ++ l.magnitude reading)

end Layout

end ScriptFrontend
