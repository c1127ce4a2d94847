import Mathlib.Algebra.Order.Field.Basic
import Mathlib.Data.Rat.Cast.Order
import Mathlib.Tactic.FieldSimp
import Mathlib.Tactic.Linarith
import MaterialText.Single.Nearest

namespace MaterialText

variable {num den q : Nat}

theorem roundDiv_even_of_tie (num : Nat) (h : 0 < den)
    (ht : 2 * (roundDiv num den * den) = 2 * num + den ∨
      2 * num = 2 * (roundDiv num den * den) + den) : roundDiv num den % 2 = 0 := by
  have hd : num / den * den + num % den = num := Nat.div_add_mod' num den
  have hr : num % den < den := Nat.mod_lt _ h
  unfold roundDiv at ht ⊢
  split
  · rename_i hlow
    rw [if_pos hlow] at ht
    omega
  · rename_i hlow
    rw [if_neg hlow, Nat.add_mul] at ht
    omega

theorem abs_roundDiv_sub (num : Nat) (h : 0 < den) :
    |(roundDiv num den : ℚ) - num / den| ≤ 1 / 2 ∧
      (|(roundDiv num den : ℚ) - num / den| = 1 / 2 → roundDiv num den % 2 = 0) := by
  have hden : (0 : ℚ) < den := Nat.cast_pos.mpr h
  have heven := roundDiv_even_of_tie num h
  obtain ⟨hlow, hhigh⟩ := roundDiv_near num h
  generalize roundDiv num den = q at heven hlow hhigh ⊢
  have he : (q : ℚ) - num / den = (q * den - num) / den := by field_simp
  have hlow' : (2 : ℚ) * (q * den) ≤ 2 * num + den := by exact_mod_cast hlow
  have hhigh' : (2 : ℚ) * num ≤ 2 * (q * den) + den := by exact_mod_cast hhigh
  rw [he, abs_div, abs_of_pos hden]
  refine ⟨?_, fun htie => heven ?_⟩
  · rw [div_le_iff₀ hden, abs_le]
    constructor <;> linarith
  · rw [div_eq_iff hden.ne'] at htie
    have hcast : (2 : ℚ) * (q * den) = 2 * num + den ∨ (2 : ℚ) * num = 2 * (q * den) + den := by
      rcases abs_cases ((q : ℚ) * den - num) with h | h
      · exact .inl (by linarith [h.1])
      · exact .inr (by linarith [h.1])
    exact_mod_cast hcast

/-- No whole number is nearer to a number than this one, which is even if another is as near. -/
def IsRounding (v : ℚ) (n : Int) : Prop :=
  ∀ m : Int, |(n : ℚ) - v| ≤ |(m : ℚ) - v| ∧ (|(n : ℚ) - v| = |(m : ℚ) - v| → m = n ∨ n % 2 = 0)

variable {v w : ℚ} {n m : Int}

theorem isRounding_of_abs_sub_le (hle : |(n : ℚ) - v| ≤ 1 / 2)
    (heven : |(n : ℚ) - v| = 1 / 2 → n % 2 = 0) : IsRounding v n := by
  intro m
  by_cases hmn : m = n
  · rw [hmn]
    exact ⟨le_rfl, fun _ => .inl rfl⟩
  · have hstep : (1 : ℚ) ≤ |(n : ℚ) - m| := by
      exact_mod_cast Int.one_le_abs (sub_ne_zero.mpr (Ne.symm hmn))
    have hsum := abs_sub_le (n : ℚ) v m
    rw [abs_sub_comm v] at hsum
    exact ⟨by linarith, fun htie => .inr (heven (le_antisymm hle (by linarith)))⟩

/-- Rounding keeps the order: else the number is halfway between two even whole numbers, and the one
after the lesser is nearer. -/
theorem IsRounding.le (hn : IsRounding v n) (hm : IsRounding w m) (hvw : v ≤ w) : n ≤ m := by
  by_contra hlt
  have hmn : (m : ℚ) < n := by exact_mod_cast not_le.mp hlt
  have hv : (m : ℚ) + n ≤ 2 * v := by
    have hnear := (hn m).1
    rw [← sq_le_sq, ← sub_nonneg] at hnear
    nlinarith
  have hw : 2 * w ≤ (m : ℚ) + n := by
    have hnear := (hm n).1
    rw [← sq_le_sq, ← sub_nonneg] at hnear
    nlinarith
  have hmid : v = w := by linarith
  subst hmid
  have htie : |(n : ℚ) - v| = |(m : ℚ) - v| := le_antisymm (hn m).1 (hm n).1
  have hneven := ((hn m).2 htie).resolve_left (by omega)
  have hmeven := ((hm n).2 htie.symm).resolve_left (by omega)
  have hgap : (m : ℚ) + 2 ≤ n := by
    have hgap : m + 2 ≤ n := by omega
    exact_mod_cast hgap
  have hnext := (hm (m + 1)).1
  push_cast at hnext
  rw [abs_of_nonpos (by linarith), abs_of_nonpos (by linarith)] at hnext
  linarith

theorem IsRounding.unique (hn : IsRounding v n) (hm : IsRounding v m) : n = m :=
  le_antisymm (hn.le hm le_rfl) (hm.le hn le_rfl)

theorem isRounding_roundDiv (num : Nat) (h : 0 < den) :
    IsRounding ((num : ℚ) / den) (roundDiv num den) := by
  obtain ⟨hle, heven⟩ := abs_roundDiv_sub num h
  exact isRounding_of_abs_sub_le hle fun htie => by exact_mod_cast heven htie

/-- The rounding is the only whole number within half a unit that is even at exactly half a unit. -/
theorem roundDiv_eq (h : 0 < den) (hq : |(q : ℚ) - num / den| ≤ 1 / 2)
    (heven : |(q : ℚ) - num / den| = 1 / 2 → q % 2 = 0) : roundDiv num den = q := by
  have hround : IsRounding ((num : ℚ) / den) q :=
    isRounding_of_abs_sub_le hq fun htie => by exact_mod_cast heven htie
  exact_mod_cast (isRounding_roundDiv num h).unique hround

end MaterialText
