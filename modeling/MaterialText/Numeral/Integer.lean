import MaterialText.Numeral.Basic
import MaterialText.Text.Blank

namespace MaterialText.Integer
open Numeral

/-- Whether a minus sign comes first, and what follows it and any blanks after it. -/
def sign : Text → Bool × Text
  | '-' :: rest => (true, skipBlanks rest)
  | s => (false, s)

inductive Radix
  | octal | decimal | hexadecimal
deriving DecidableEq

def Radix.base : Radix → Nat
  | .octal => 8
  | .decimal => 10
  | .hexadecimal => 16

/-- The radix that the first characters fix, and what follows the marker: `0x` and `0X` are
hexadecimal, any other leading zero is octal. -/
def marker : Text → Radix × Text
  | '0' :: 'x' :: rest => (.hexadecimal, rest)
  | '0' :: 'X' :: rest => (.hexadecimal, rest)
  | '0' :: rest => (.octal, rest)
  | s => (.decimal, s)

def isSuffix (c : Char) : Bool := c == 'u' || c == 'U' || c == 'l' || c == 'L'

/-- The word that a run of digits builds up, the most significant first. Every step wraps. -/
def wrapped (radix : Nat) (digits : Text) : Int64 :=
  digits.foldl (fun v c => v * Int64.ofNat radix + Int64.ofNat ((digit? c).getD 0)) 0

/-- A word with its sign. The least word is its own negative. -/
def withMinus (negative : Bool) (v : Int64) : Int64 := if negative then -v else v

/-- An integer literal after leading blanks, with at most one suffix letter. The zero that marks
octal may stand alone. -/
def scan (s : Text) : Option (Int64 × Text) :=
  let signedPart := sign (skipBlanks s)
  let marked := marker signedPart.2
  let digits := marked.2.takeWhile (isDigitOf marked.1.base)
  let rest := marked.2.dropWhile (isDigitOf marked.1.base)
  if digits = [] ∧ marked.1 ≠ .octal then none
  else
    some (withMinus signedPart.1 (wrapped marked.1.base digits), Text.dropOne isSuffix rest)

theorem sign_suffix (s : Text) : (sign s).2 <:+ s := by
  unfold sign
  split
  · exact (skipBlanks_suffix _).trans (List.suffix_cons _ _)
  · exact List.suffix_refl _

theorem marker_suffix (s : Text) : (marker s).2 <:+ s := by
  unfold marker
  split
  · exact (List.suffix_cons _ _).trans (List.suffix_cons _ _)
  · exact (List.suffix_cons _ _).trans (List.suffix_cons _ _)
  · exact List.suffix_cons _ _
  · exact List.suffix_refl _

theorem scan_suffix {s rest : Text} {i : Int64} (h : scan s = some (i, rest)) : rest <:+ s := by
  unfold scan at h
  dsimp only at h
  split at h
  · cases h
  · cases h
    exact (Text.dropOne_suffix _ _).trans ((List.dropWhile_suffix _).trans
      ((marker_suffix _).trans ((sign_suffix _).trans (skipBlanks_suffix _))))

def text (i : Int64) : Text :=
  if i.toInt < 0 then '-' :: decimal i.toInt.natAbs else decimal i.toInt.natAbs

end MaterialText.Integer
