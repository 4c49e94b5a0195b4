import LogFanout.Decimal.Binary64

/- The shortest decimal that reads back.

   A positive number of binary floating point stands for every real number that rounds to it: an interval around it,
   whose ends belong to it when its mantissa is even. Of all decimals in the interval `shortest` takes one with the
   fewest digits, of those the nearest to the number, and of two equally near the even one. `Format` says how the digits
   are laid out. -/
namespace LogFanout.Decimal

/-- Digits of a positive decimal: `digits` is the number that they spell, and `exponent` the power of ten that the last
    of them counts. -/
structure Digits where
  digits : Nat
  exponent : Int
  deriving DecidableEq, Repr

/-- How a number is laid out: the powers of ten of a first digit that is written without an exponent. -/
structure Format where
  least : Int
  greatest : Int
  deriving Repr

namespace Binary64

/-- The ends of the interval of reals that round to `x`, and `x` itself, over one denominator. -/
def interval (x : Binary64) : (Nat × Nat × Nat) × Nat :=
  let gap := if x.mantissa = Nat.pow 2 52 ∧ leastExponent < x.exponent then 1 else 2
  let low := 4 * x.mantissa - gap
  let high := 4 * x.mantissa + 2
  let e := x.exponent - 2
  if 0 ≤ e then ((low * Nat.pow 2 e.toNat, 4 * x.mantissa * Nat.pow 2 e.toNat, high * Nat.pow 2 e.toNat), 1)
  else ((low, 4 * x.mantissa, high), Nat.pow 2 (-e).toNat)

/-- The power of ten of the first digit of a positive fraction. -/
def magnitude (num den : Nat) : Int :=
  if den ≤ num then ((Nat.toDigits 10 (num / den)).length : Int) - 1
  else
    let d := (Nat.toDigits 10 (den / num)).length
    if den = num * Nat.pow 10 (d - 1) then 1 - (d : Int) else -(d : Int)

/-- `n * 10 ^ e` as a fraction. -/
def scaled (n : Nat) (e : Int) : Nat × Nat :=
  if 0 ≤ e then (n * Nat.pow 10 e.toNat, 1) else (n, Nat.pow 10 (-e).toNat)

/-- The decimal of `size` digits nearest to `x` among its two neighbours on that grid that round to `x`, if any does; of
    two equally near ones the one whose last digit is even. -/
def decimalOf? (x : Binary64) (size : Nat) : Option Digits :=
  let ((low, value, high), den) := x.interval
  let e := magnitude value den - (size : Int) + 1
  let (unit, unitDen) := scaled 1 e
  let below := value * unitDen / (den * unit)
  let inside (n : Nat) : Bool :=
    let v := n * unit * den
    if x.mantissa % 2 = 0 then decide (low * unitDen ≤ v) && decide (v ≤ high * unitDen)
    else decide (low * unitDen < v) && decide (v < high * unitDen)
  let toBelow := value * unitDen - below * unit * den
  let toAbove := (below + 1) * unit * den - value * unitDen
  match inside below && below != 0, inside (below + 1) with
  | true, true =>
    if toBelow < toAbove ∨ (toBelow = toAbove ∧ below % 2 = 0) then some ⟨below, e⟩ else some ⟨below + 1, e⟩
  | true, false => some ⟨below, e⟩
  | false, true => some ⟨below + 1, e⟩
  | false, false => none

/-- The shortest decimal that reads back as a positive number. Seventeen digits are always enough. -/
def shortest (x : Binary64) : Digits :=
  ((List.range 17).findSome? fun n => x.decimalOf? (n + 1)).getD ⟨0, 0⟩

end Binary64

/-- A text of digits without the zeros at its end, but at least one digit. -/
def significant (digits : List Char) : List Char :=
  match (digits.reverse.dropWhile (· == '0')).reverse with
  | [] => ['0']
  | kept => kept

/-- The text of a positive decimal under a format. A number written without an exponent always shows a point. -/
def Format.text (f : Format) (d : Digits) : List Char :=
  let all := Nat.toDigits 10 d.digits
  let first : Int := d.exponent + (all.length : Int) - 1
  let kept := significant all
  if f.least ≤ first ∧ first ≤ f.greatest then
    if first < 0 then
      ['0', '.'] ++ List.replicate (-first - 1).toNat '0' ++ kept
    else
      let whole := first.toNat + 1
      if kept.length ≤ whole then kept ++ List.replicate (whole - kept.length) '0' ++ ['.', '0']
      else kept.take whole ++ ['.'] ++ kept.drop whole
  else
    let mantissa := match kept with
      | [d] => [d]
      | d :: more => d :: '.' :: more
      | [] => []
    mantissa ++ ['e', if 0 ≤ first then '+' else '-'] ++ Nat.toDigits 10 first.natAbs

/-- The text of a number: its sign, then the shortest digits that read back. -/
def Format.signed (f : Format) (negative : Bool) (x : Binary64) : String :=
  let body := if x.isZero then ['0', '.', '0'] else f.text x.shortest
  String.ofList (if negative then '-' :: body else body)

end LogFanout.Decimal
