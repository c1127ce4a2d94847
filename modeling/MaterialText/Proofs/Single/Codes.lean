import Mathlib.Order.Monotone.Basic
import Mathlib.Tactic.Ring
import MaterialText.Single.Nearest

namespace MaterialText.Single

variable {c d q s : Nat}

theorem binade_eq : binade = 2 ^ 23 := rfl

theorem unitsInOne_eq : unitsInOne = 2 ^ 149 := by
  rw [unitsInOne, Nat.shiftLeft_eq, one_mul]

theorem infinityCode_eq : infinityCode = 255 * 2 ^ 23 := rfl

/-- A significand of twenty-four bits at a scale; the greatest is the power of two after it. -/
theorem unitsOf_add (hq : q ≤ 2 ^ 24) (h : s = 0 ∨ 2 ^ 23 ≤ q) :
    unitsOf (q + s * binade) = q * 2 ^ s := by
  rw [unitsOf, binade_eq]
  by_cases hlow : q < 2 ^ 23
  · have hs : s = 0 := by omega
    subst hs
    rw [if_pos (by omega)]
    ring
  · rw [if_neg (by omega)]
    by_cases htop : q = 2 ^ 24
    -- The power of two is the least significand of the next scale.
    · have hdiv : (q + s * 2 ^ 23) / 2 ^ 23 - 1 = s + 1 := by omega
      have hmod : (q + s * 2 ^ 23) % 2 ^ 23 = 0 := by omega
      rw [hdiv, hmod, Nat.shiftLeft_eq, htop]
      ring
    · have hdiv : (q + s * 2 ^ 23) / 2 ^ 23 - 1 = s := by omega
      have hmod : 2 ^ 23 + (q + s * 2 ^ 23) % 2 ^ 23 = q := by omega
      rw [hdiv, hmod, Nat.shiftLeft_eq]

theorem exists_significand (c : Nat) :
    ∃ q s, c = q + s * binade ∧ q < 2 ^ 24 ∧ (s = 0 ∨ 2 ^ 23 ≤ q) := by
  rw [binade_eq]
  by_cases h : c < 2 ^ 23
  · exact ⟨c, 0, by omega, by omega, .inl rfl⟩
  · exact ⟨2 ^ 23 + c % 2 ^ 23, c / 2 ^ 23 - 1, by omega, by omega, .inr (by omega)⟩

theorem unitsOf_strictMono : StrictMono unitsOf := by
  apply strictMono_nat_of_lt_succ
  intro c
  obtain ⟨q, s, rfl, hq, hs⟩ := exists_significand c
  have hnext : q + s * binade + 1 = (q + 1) + s * binade := by ring
  rw [hnext, unitsOf_add hq.le hs, unitsOf_add hq (by omega), Nat.succ_mul]
  exact Nat.lt_add_of_pos_right (Nat.two_pow_pos s)

/-- The code after a significand is at least one unit of its scale away. -/
theorem unitsOf_succ_le (hq : q ≤ 2 ^ 24) (h : s = 0 ∨ 2 ^ 23 ≤ q) :
    (q + 1) * 2 ^ s ≤ unitsOf (q + s * binade + 1) := by
  by_cases htop : q = 2 ^ 24
  · have hnext : q + s * binade + 1 = (2 ^ 23 + 1) + (s + 1) * binade := by
      rw [htop, binade_eq]
      ring
    rw [hnext, unitsOf_add (by omega) (by omega), htop]
    have h2 : (2 ^ 23 + 1) * 2 ^ (s + 1) = (2 ^ 24 + 2) * 2 ^ s := by ring
    rw [h2]
    exact Nat.mul_le_mul_right _ (by omega)
  · have hnext : q + s * binade + 1 = (q + 1) + s * binade := by ring
    rw [hnext, unitsOf_add (by omega) (by omega)]

/-- The code before a significand is at least one unit of its scale away, unless the significand is
the least at its scale. -/
theorem unitsOf_add_le (hd : d < q + s * binade) (hq : q ≤ 2 ^ 24) (h : s = 0 ∨ 2 ^ 23 < q) :
    unitsOf d + 2 ^ s ≤ q * 2 ^ s := by
  have hpos : 0 < q := by
    rcases h with rfl | h
    · omega
    · omega
  obtain ⟨p, rfl⟩ : ∃ p, q = p + 1 := ⟨q - 1, by omega⟩
  have hle : d ≤ p + s * binade := by omega
  have hmono := unitsOf_strictMono.monotone hle
  rw [unitsOf_add (by omega) (by omega)] at hmono
  rw [add_mul, one_mul]
  omega

/-- From `2^(23 + s)` units on, every magnitude is a multiple of `2^s` units. -/
theorem dvd_unitsOf (h : 2 ^ (23 + s) ≤ unitsOf c) : 2 ^ s ∣ unitsOf c := by
  obtain ⟨q, t, rfl, hq, ht⟩ := exists_significand c
  rw [unitsOf_add hq.le ht] at h ⊢
  have hlt : 2 ^ (23 + s) < 2 ^ (24 + t) := by
    calc
      2 ^ (23 + s) ≤ q * 2 ^ t := h
      _ < 2 ^ 24 * 2 ^ t := Nat.mul_lt_mul_of_pos_right hq (Nat.two_pow_pos t)
      _ = 2 ^ (24 + t) := (pow_add 2 24 t).symm
  have hst := (Nat.pow_lt_pow_iff_right (by decide : 1 < 2)).mp hlt
  exact (pow_dvd_pow 2 (by omega)).mul_left q

end MaterialText.Single
