/- Numbers of 64-bit binary floating point, exactly.

   A finite number that is not negative is `mantissa * 2 ^ exponent`. It is normal when the mantissa has 53 bits, and
   small numbers keep the least exponent. `round` gives the nearest such number of a fraction, of two equally near ones
   the one with the even mantissa, and nothing when the fraction is too large. Products and quotients are rounded once,
   from the exact result. -/
namespace LogFanout.Decimal

/-- The number `mantissa * 2 ^ exponent`. -/
structure Binary64 where
  mantissa : Nat
  exponent : Int
  deriving DecidableEq, Repr

namespace Binary64

/-- The exponent of zero and of the smallest numbers. -/
def leastExponent : Int := -1074

/-- The exponent of the largest numbers. -/
def greatestExponent : Int := 971

def zero : Binary64 := ⟨0, leastExponent⟩

def isZero (x : Binary64) : Bool := x.mantissa == 0

/-- The number as a fraction: numerator and denominator. -/
def fraction (x : Binary64) : Nat × Nat :=
  if 0 ≤ x.exponent then (x.mantissa * Nat.pow 2 x.exponent.toNat, 1) else (x.mantissa, Nat.pow 2 (-x.exponent).toNat)

/-- A quotient rounded to the nearest natural number, a half to the even one. -/
def nearest (num den : Nat) : Nat :=
  let q := num / den
  let r := num % den
  if 2 * r < den then q
  else if 2 * r > den then q + 1
  else if q % 2 = 0 then q else q + 1

/-- The exponent at which the mantissa of a fraction has 53 bits, but no less than the least one. -/
def exponentOf (num den : Nat) : Int :=
  let k : Int := (Nat.log2 num : Int) - (Nat.log2 den : Int)
  let reached := if 0 ≤ k then den * Nat.pow 2 k.toNat ≤ num else den ≤ num * Nat.pow 2 (-k).toNat
  max leastExponent (if reached then k - 52 else k - 53)

/-- The number nearest to a fraction with a positive denominator; none beyond the largest one. -/
def round (num den : Nat) : Option Binary64 :=
  if num = 0 then some zero
  else
    let e := exponentOf num den
    let m := if 0 ≤ e then nearest num (den * Nat.pow 2 e.toNat) else nearest (num * Nat.pow 2 (-e).toNat) den
    let x : Binary64 := if m = Nat.pow 2 53 then ⟨Nat.pow 2 52, e + 1⟩ else ⟨m, e⟩
    if x.exponent ≤ greatestExponent then some x else none

def mul (x y : Binary64) : Option Binary64 :=
  round (x.fraction.1 * y.fraction.1) (x.fraction.2 * y.fraction.2)

def div (x y : Binary64) : Option Binary64 :=
  round (x.fraction.1 * y.fraction.2) (x.fraction.2 * y.fraction.1)

/-- The number nearest to a natural number below the range's end; zero beyond it. -/
def ofNat (n : Nat) : Binary64 := (round n 1).getD zero

/-- The number nearest to a power of ten up to the 308th. -/
def powerOfTen (n : Nat) : Binary64 := ofNat (Nat.pow 10 n)

end Binary64
end LogFanout.Decimal
