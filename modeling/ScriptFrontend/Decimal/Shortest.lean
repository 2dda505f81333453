/-! The shortest decimal that reads back as a given binary number.

A binary number stands for every real that rounds to it. Of the decimals among those reals the ones
with the fewest digits are wanted, and of these the nearest one. All arithmetic is exact, on natural
numbers.
-/

set_option autoImplicit false

namespace ScriptFrontend

structure Dyadic where
  mantissa : Nat
  exponent : Int
  /-- The next number below is half as far away as the next one above. -/
  narrowBelow : Bool

structure Decimal where
  digits : Nat
  exponent : Int

namespace Dyadic

def power (base : Nat) (e : Int) : Nat × Nat :=
  (Nat.pow base e.toNat, Nat.pow base (-e).toNat)

/-- Numerator and denominator of `quarters * 2 ^ (exponent - 2) / 10 ^ k`: how many steps of `10 ^
k` lie below a point that is given in quarters of a unit of the mantissa. -/
def steps (x : Dyadic) (k : Int) (quarters : Nat) : Nat × Nat :=
  let (p, q) := power 2 (x.exponent - 2)
  let (r, s) := power 10 k
  (quarters * p * s, q * r)

/-- The reals that round to `x` lie between these points, given in quarters of a unit. -/
def lower (x : Dyadic) : Nat := 4 * x.mantissa - if x.narrowBelow then 1 else 2
def upper (x : Dyadic) : Nat := 4 * x.mantissa + 2

/-- Whether `d * 10 ^ k` rounds to `x`. A point half way between two numbers rounds to the one with
the even mantissa. -/
def covers (x : Dyadic) (k : Int) (d : Nat) : Bool :=
  let (low, unit) := x.steps k x.lower
  let (high, _) := x.steps k x.upper
  if x.mantissa % 2 = 0 then low ≤ d * unit && d * unit ≤ high
  else low < d * unit && d * unit < high

/-- The multiple of `10 ^ k` that rounds to `x` and is nearest to it, the larger of two equally
near. -/
def nearestOn (x : Dyadic) (k : Int) : Option Decimal :=
  let (value, unit) := x.steps k (4 * x.mantissa)
  let d := value / unit
  let above := 2 * (value % unit) ≥ unit
  let candidates := if above then [d + 1, d] else [d, d + 1]
  (candidates.find? (x.covers k)).map (⟨·, k⟩)

def decimalLength (n : Nat) : Nat :=
  (Nat.toDigits 10 n).length

def magnitude (x : Dyadic) : Int :=
  let (value, unit) := x.steps 0 (4 * x.mantissa)
  if unit ≤ value then decimalLength (value / unit)
  else 1 - decimalLength ((unit + value - 1) / value - 1)

/-- No binary number of 64 bits needs more than 17 digits. -/
def shortest (x : Dyadic) : Decimal :=
  let grid (count : Nat) : Int := x.magnitude - (count + 1 : Nat)
  ((List.range 17).findSome? fun count => x.nearestOn (grid count)).getD ⟨0, 0⟩

end Dyadic

end ScriptFrontend
