import MaterialText.Single.Nearest

namespace MaterialText.Single
open Numeral

/-- Decimal digits with the place of the point: the value is `0.digits` times `10^point`. -/
structure Significand where
  digits : Text
  point : Int
deriving DecidableEq

/-- The number of powers of ten, counted from 10^-45, that a positive magnitude reaches. -/
def decade (units : Nat) : Nat :=
  ((List.range 85).find? fun i => units * tenPow 45 < tenPow i * unitsInOne).getD 85

/-- The nearest number of `k` digits that reads back to a code; of two equally near, the greater. -/
def candidate? (code k : Nat) : Option Nat :=
  let num := unitsOf code * tenPow (45 + k)
  let den := unitsInOne * tenPow (decade (unitsOf code))
  let below := num / den
  let readsBack (m : Nat) : Bool := nearestCode (m * den) (tenPow (45 + k)) == code
  let nearer := if 2 * (num % den) < den then below else below + 1
  let farther := if 2 * (num % den) < den then below + 1 else below
  if readsBack nearer then some nearer else if readsBack farther then some farther else none

/-- Nine digits always suffice. -/
def significand (code : Nat) : Significand :=
  let point : Int := decade (unitsOf code) - 45
  match (List.range' 1 9).findSome? fun k => (candidate? code k).map (k, ·) with
  | some (k, m) =>
    if m = tenPow k then ⟨['1'], point + 1⟩ else ⟨decimal m, point⟩
  | none => ⟨['0'], 1⟩

namespace Significand

def positional (s : Significand) : Text :=
  if s.point ≤ 0 then "0.".toList ++ List.replicate (-s.point).toNat '0' ++ s.digits
  else
    let whole := s.digits.take s.point.toNat
    let fraction := s.digits.drop s.point.toNat
    whole ++ List.replicate (s.point.toNat - whole.length) '0' ++ '.' ::
      if fraction = [] then ['0'] else fraction

def scientific (s : Significand) : Text :=
  let mantissa :=
    match s.digits with
    | d :: e :: rest => d :: '.' :: e :: rest
    | ds => ds
  let power := s.point - 1
  mantissa ++ 'e' ::
    (if power < 0 then '-' :: decimal power.natAbs else decimal power.natAbs)

def text (s : Significand) : Text :=
  if -4 < s.point ∧ s.point ≤ 16 then s.positional else s.scientific

end Significand

/-- The shortest text of a single, with its sign; zero is `0.0`. -/
def shortestText (x : Single) : Text :=
  if x.isNaN then "NaN".toList
  else
    let magnitude :=
      if x.isFinite = false then "inf".toList
      else if x.code = 0 then "0.0".toList
      else (significand x.code.toNat).text
    if x.negative then '-' :: magnitude else magnitude

end MaterialText.Single
