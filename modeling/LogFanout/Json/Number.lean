import LogFanout.Json.Fault

/- Numbers of JSON.

   No field of the options is a number, so a number is read only to be named in a fault; but it is read to its end, and
   a malformed one is a fault of its own. A whole number of 64 bits is kept as it is. Any other number becomes binary
   floating point: its digits are taken into a significand while that stays below 2^64, and the significand is then
   multiplied or divided by a power of ten, rounded each time. -/
namespace LogFanout.Json

open Decimal (Binary64)

def digitValue (c : Char) : Nat := c.toNat - '0'.toNat

/-- Bound of the significands. -/
def significandBound : Nat := Nat.pow 2 64

/-- Takes digits into a significand while it stays below the bound: the significand, how many digits it took, and what
    follows them. -/
def absorb (s : Nat) : List Char → Nat × Nat × List Char
  | [] => (s, 0, [])
  | c :: rest =>
    if c.isDigit ∧ s * 10 + digitValue c < significandBound then
      let (s', n, after) := absorb (s * 10 + digitValue c) rest
      (s', n + 1, after)
    else (s, 0, c :: rest)

/-- `s * 10 ^ e`, rounded after every step. A power below the least one of the table is reached by dividing by `10 ^ 308`
    first; after three of these steps every significand is zero. -/
def scale (s : Binary64) (e : Int) : Nat → Option Binary64
  | 0 => some Binary64.zero
  | steps + 1 =>
    if e.natAbs ≤ 308 then
      if 0 ≤ e then s.mul (Binary64.powerOfTen e.natAbs) else s.div (Binary64.powerOfTen e.natAbs)
    else if s.isZero then some s
    else if 0 ≤ e then none
    else (s.div (Binary64.powerOfTen 308)).bind fun s' => scale s' (e + 308) steps

/-- The floating-point number of a significand and a power of ten. -/
def floating (negative : Bool) (s : Nat) (e : Int) (rest : List Char) : Except Fault (Found × List Char) :=
  match scale (Binary64.ofNat s) e 4 with
  | some x => .ok (.float negative x, rest)
  | none => .error (here .numberOutOfRange rest)

/-- Greatest exponent that is still added up. -/
def exponentBound : Nat := Nat.pow 2 31

/-- Takes the digits of an exponent: its value, or what is left behind the digit that makes it too large. -/
def absorbExponent (e : Nat) : List Char → Except (List Char) (Nat × List Char)
  | [] => .ok (e, [])
  | c :: rest =>
    if c.isDigit then
      if e * 10 + digitValue c < exponentBound then absorbExponent (e * 10 + digitValue c) rest else .error rest
    else .ok (e, c :: rest)

/-- The exponent of a number, from behind its `e`. An exponent that is too large gives zero, or no number at all. -/
def readExponent (negative : Bool) (s : Nat) (e : Int) (rest : List Char) : Except Fault (Found × List Char) :=
  let (down, rest) := match rest with
    | '+' :: more => (false, more)
    | '-' :: more => (true, more)
    | _ => (false, rest)
  match rest with
  | [] => .error (here .endInValue [])
  | c :: more =>
    if c.isDigit then
      match absorbExponent (digitValue c) more with
      | .ok (n, after) => floating negative s (if down then e - n else e + n) after
      | .error after =>
        if s ≠ 0 ∧ ¬ down then .error (here .numberOutOfRange after)
        else .ok (.float negative Binary64.zero, after.dropWhile Char.isDigit)
    else .error (ahead .badNumber rest)

/-- What follows the digits of a floating-point number: its exponent, if it has one. -/
def readScale (negative : Bool) (s : Nat) (e : Int) (rest : List Char) : Except Fault (Found × List Char) :=
  match rest with
  | 'e' :: more => readExponent negative s e more
  | 'E' :: more => readExponent negative s e more
  | _ => floating negative s e rest

/-- The digits behind a point. One at least has to be there; those beyond the bound are dropped. -/
def readFraction (negative : Bool) (s : Nat) (e : Int) (rest : List Char) : Except Fault (Found × List Char) :=
  match rest with
  | [] => .error (here .endInValue [])
  | c :: _ =>
    if c.isDigit then
      let (s, n, after) := absorb s rest
      readScale negative s (e - n) (after.dropWhile Char.isDigit)
    else .error (ahead .badNumber rest)

/-- The number with a significand that has no point, exponent or further digit behind it. -/
def whole (negative : Bool) (s : Nat) : Found :=
  if ¬ negative then .integer s
  else if s = 0 ∨ Nat.pow 2 63 < s then .float true (Binary64.ofNat s)
  else .integer (-s)

/-- What follows the first digits of a number. -/
def readTail (negative : Bool) (s : Nat) (rest : List Char) : Except Fault (Found × List Char) :=
  match rest with
  | '.' :: more => readFraction negative s 0 more
  | 'e' :: more => readExponent negative s 0 more
  | 'E' :: more => readExponent negative s 0 more
  | _ => .ok (whole negative s, rest)

/-- A number, from behind its minus sign if it has one. A zero at the front stands alone. -/
def readNumber (negative : Bool) (rest : List Char) : Except Fault (Found × List Char) :=
  match rest with
  | [] => .error (here .endInValue [])
  | c :: more =>
    if c = '0' then
      match more with
      | d :: _ => if d.isDigit then .error (ahead .badNumber more) else readTail negative 0 more
      | [] => readTail negative 0 []
    else if c.isDigit then
      let (s, _, after) := absorb (digitValue c) more
      match after with
      | d :: _ =>
        if d.isDigit then
          let dropped := (after.takeWhile Char.isDigit).length
          match after.dropWhile Char.isDigit with
          | '.' :: more => readFraction negative s dropped more
          | after => readScale negative s dropped after
        else readTail negative s after
      | [] => readTail negative s []
    else .error (ahead .badNumber rest)

end LogFanout.Json
