import MaterialText.Single.Nearest

namespace MaterialText.Single
open Numeral

/-- The exact magnitude rounded to millionths, a half going to the even neighbour. -/
def millionths (x : Single) : Nat := roundDiv (x.units * tenPow 6) unitsInOne

/-- The digits of a remainder below `10^k`: the first always, a later one only while something
remains. -/
def places : Nat → Nat → Text
  | 0, _ => []
  | k + 1, n =>
    (n / tenPow k).digitChar :: if n % tenPow k = 0 then [] else places k (n % tenPow k)

def fixedText (n : Nat) : Text := decimal (n / tenPow 6) ++ '.' :: places 6 (n % tenPow 6)

/-- The text of a single. What rounds to zero has no sign. -/
def text (x : Single) : Text :=
  if x.isNaN then "NaN".toList
  else
    let magnitude := if x.isFinite then fixedText x.millionths else "inf".toList
    if x.negative ∧ (x.isFinite → x.millionths ≠ 0) then '-' :: magnitude else magnitude

@[simp]
theorem places_ne_nil (k n : Nat) : places (k + 1) n ≠ [] := by simp [places]

theorem places_length_le (k n : Nat) : (places k n).length ≤ k := by
  induction k generalizing n with
  | zero => simp [places]
  | succ k ih =>
    rw [places, List.length_cons]
    split
    · simp
    · exact Nat.succ_le_succ (ih _)

end MaterialText.Single
