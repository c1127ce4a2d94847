import Mathlib.Tactic.Positivity
import MaterialText.Proofs.Single.Codes
import MaterialText.Proofs.Single.Rounding

namespace MaterialText

namespace Single

variable {num den : Nat} {u : ℚ} {c d : Nat}

/-- A code is at least as near to a number of units as another, and even if both are equally near. -/
def Nearer (u : ℚ) (c d : Nat) : Prop :=
  |(unitsOf c : ℚ) - u| ≤ |(unitsOf d : ℚ) - u| ∧
    (|(unitsOf c : ℚ) - u| = |(unitsOf d : ℚ) - u| → d = c ∨ c % 2 = 0)

theorem exists_nearestCode_eq (num : Nat) (hd : 0 < den) : ∃ s,
    nearestCode num den = roundDiv num (den * 2 ^ s) + s * binade ∧
      roundDiv num (den * 2 ^ s) ≤ 2 ^ 24 ∧
        (s = 0 ∨ (2 ^ 23 ≤ roundDiv num (den * 2 ^ s) ∧ 2 ^ (23 + s) * den ≤ num)) := by
  refine ⟨(num / den).log2 - 23, ?_, ?_, ?_⟩
  · rw [nearestCode, Nat.shiftLeft_eq]
  · have hle := roundDiv_le num (den * 2 ^ ((num / den).log2 - 23))
    have hlog := Nat.lt_log2_self (n := num / den)
    rw [← Nat.div_div_eq_div_mul] at hle
    -- The scale leaves twenty-four bits of the quotient, and rounding adds one at most.
    have hlt : num / den / 2 ^ ((num / den).log2 - 23) < 2 ^ 24 := by
      rw [Nat.div_lt_iff_lt_mul (Nat.two_pow_pos _), ← pow_add]
      exact hlog.trans_le (Nat.pow_le_pow_right (by decide) (by omega))
    omega
  · by_cases hs : (num / den).log2 - 23 = 0
    · exact .inl hs
    · have hne : num / den ≠ 0 := by
        intro h
        rw [h] at hs
        exact hs rfl
      have hlog := Nat.log2_self_le hne
      have hsum : (num / den).log2 = 23 + ((num / den).log2 - 23) := by omega
      rw [hsum] at hlog
      refine .inr ⟨?_, (Nat.le_div_iff_mul_le hd).mp hlog⟩
      refine le_trans ?_ (le_roundDiv num _)
      rw [← Nat.div_div_eq_div_mul, Nat.le_div_iff_mul_le (Nat.two_pow_pos _), ← pow_add]
      exact hlog

/-- The error of rounding at a scale, with the even significand at half a unit. -/
theorem abs_roundDiv_sub_le (num : Nat) (hd : 0 < den) (s : Nat) :
    |((roundDiv num (den * 2 ^ s) * 2 ^ s : Nat) : ℚ) - num / den| ≤ 2 ^ s / 2 ∧
      (|((roundDiv num (den * 2 ^ s) * 2 ^ s : Nat) : ℚ) - num / den| = 2 ^ s / 2 →
        roundDiv num (den * 2 ^ s) % 2 = 0) := by
  have hs : (0 : ℚ) < 2 ^ s := by positivity
  have hden : (0 : ℚ) < den := Nat.cast_pos.mpr hd
  obtain ⟨hle, heven⟩ := abs_roundDiv_sub num (Nat.mul_pos hd (Nat.two_pow_pos s))
  generalize roundDiv num (den * 2 ^ s) = q at hle heven ⊢
  have he : ((q * 2 ^ s : Nat) : ℚ) - num / den = (q - num / (den * 2 ^ s : Nat)) * 2 ^ s := by
    push_cast
    field_simp
  rw [he, abs_mul, abs_of_pos hs]
  refine ⟨?_, fun h => heven ?_⟩
  · have hscaled := mul_le_mul_of_nonneg_right hle hs.le
    linarith
  · apply mul_right_cancel₀ hs.ne'
    linarith

theorem nearer_nearestCode (num : Nat) (hd : 0 < den) (d : Nat) :
    Nearer (num / den) (nearestCode num den) d := by
  obtain ⟨s, hcode, hq, hs⟩ := exists_nearestCode_eq num hd
  obtain ⟨herror, htie⟩ := abs_roundDiv_sub_le num hd s
  have hscale : s = 0 ∨ 2 ^ 23 ≤ roundDiv num (den * 2 ^ s) := hs.imp_right And.left
  rw [Nearer, hcode, unitsOf_add hq hscale]
  generalize roundDiv num (den * 2 ^ s) = q at *
  -- An even significand makes an even code, since a binade has an even number of codes.
  have heven : q % 2 = 0 → (q + s * binade) % 2 = 0 := by
    rw [binade_eq]
    omega
  -- A code at least half a unit away is not nearer, and ties only where rounding went to even.
  have far (h : (2 : ℚ) ^ s / 2 ≤ |(unitsOf d : ℚ) - num / den|) :
      |((q * 2 ^ s : Nat) : ℚ) - num / den| ≤ |(unitsOf d : ℚ) - num / den| ∧
        (|((q * 2 ^ s : Nat) : ℚ) - num / den| = |(unitsOf d : ℚ) - num / den| →
          d = q + s * binade ∨ (q + s * binade) % 2 = 0) :=
    ⟨herror.trans h, fun he => .inr (heven (htie (le_antisymm herror (h.trans he.ge))))⟩
  rcases lt_trichotomy d (q + s * binade) with hlt | rfl | hgt
  · by_cases hleast : s = 0 ∨ 2 ^ 23 < q
    · apply far
      have hle : (unitsOf d : ℚ) + 2 ^ s ≤ ((q * 2 ^ s : Nat) : ℚ) := by
        exact_mod_cast unitsOf_add_le hlt hq hleast
      have hc := (abs_le.mp herror).2
      rw [abs_sub_comm]
      exact le_trans (by linarith) (le_abs_self _)
    · -- Below the least significand of a scale the unit is halved, but rounding came from above.
      have hle : ((q * 2 ^ s : Nat) : ℚ) ≤ num / den := by
        rw [le_div_iff₀ (Nat.cast_pos.mpr hd)]
        have hnum : 2 ^ (23 + s) * den ≤ num := by omega
        have hq23 : q = 2 ^ 23 := by omega
        rw [hq23, ← pow_add]
        exact_mod_cast hnum
      have hd' : (unitsOf d : ℚ) < ((q * 2 ^ s : Nat) : ℚ) := by
        have hmono := unitsOf_strictMono hlt
        rw [unitsOf_add hq hscale] at hmono
        exact_mod_cast hmono
      have hstrict : |((q * 2 ^ s : Nat) : ℚ) - num / den| < |(unitsOf d : ℚ) - num / den| := by
        rw [abs_of_nonpos (by linarith), abs_of_nonpos (by linarith)]
        linarith
      exact ⟨hstrict.le, fun he => absurd he hstrict.ne⟩
  · rw [unitsOf_add hq hscale]
    exact ⟨le_rfl, fun _ => .inl rfl⟩
  · apply far
    have hge : ((q * 2 ^ s : Nat) : ℚ) + 2 ^ s ≤ (unitsOf d : ℚ) := by
      have hmono := unitsOf_strictMono.monotone (Nat.succ_le_of_lt hgt)
      have hsucc := (unitsOf_succ_le hq hscale).trans hmono
      rw [add_mul, one_mul] at hsucc
      exact_mod_cast hsucc
    have hc := (abs_le.mp herror).1
    exact le_trans (by linarith) (le_abs_self _)

/-- Two nearest codes are one: a code between two that are equally near would be nearer. -/
theorem eq_of_nearer {n : Nat} (hcn : c < n) (hdn : d < n) (hc : ∀ e < n, Nearer u c e)
    (hd : ∀ e < n, Nearer u d e) : c = d := by
  -- Both would be odd, so that there is a code between them.
  have key {a b : Nat} (hbn : b < n) (ha : ∀ e < n, Nearer u a e) (hb : Nearer u b a) : ¬a < b := by
    intro hlt
    have heq := le_antisymm (ha b hbn).1 hb.1
    have ha2 := ((ha b hbn).2 heq).resolve_left hlt.ne'
    have hb2 := (hb.2 heq.symm).resolve_left hlt.ne
    have hlow : (unitsOf a : ℚ) < unitsOf (a + 1) := by
      exact_mod_cast unitsOf_strictMono (Nat.lt_succ_self a)
    have hhigh : (unitsOf (a + 1) : ℚ) < unitsOf b := by
      exact_mod_cast unitsOf_strictMono (by omega : a + 1 < b)
    have hmid := (ha (a + 1) (by omega)).1
    rcases abs_cases ((unitsOf a : ℚ) - u) with h₁ | h₁ <;>
      rcases abs_cases ((unitsOf b : ℚ) - u) with h₂ | h₂ <;>
        rcases abs_cases ((unitsOf (a + 1) : ℚ) - u) with h₃ | h₃ <;> linarith
  exact Nat.le_antisymm (Nat.le_of_not_lt (key hcn hd (hc d hdn)))
    (Nat.le_of_not_lt (key hdn hc (hd c hcn)))

theorem unitsOf_infinityCode : unitsOf infinityCode = 2 ^ 25 * 2 ^ 252 := by
  have hsplit : infinityCode = 2 ^ 23 + 254 * binade := rfl
  rw [hsplit, unitsOf_add (by omega) (by omega), ← pow_add, ← pow_add]

theorem unitsOf_greatest : unitsOf (infinityCode - 1) = (2 ^ 25 - 2) * 2 ^ 252 := by
  have hsplit : infinityCode - 1 = (2 ^ 24 - 1) + 253 * binade := rfl
  have hpow : (2 : Nat) ^ 253 = 2 * 2 ^ 252 := pow_succ' 2 252
  have hdouble : (2 ^ 24 - 1) * 2 = 2 ^ 25 - 2 := by norm_num
  rw [hsplit, unitsOf_add (by omega) (by omega), hpow, ← mul_assoc, hdouble]

/-- Rounding stays finite below the midpoint between the greatest magnitude and infinity. -/
theorem lt_infinityCode_iff (hu : ∀ d, Nearer u c d) :
    c < infinityCode ↔ u < (2 ^ 25 - 1) * 2 ^ 252 := by
  have hinf : (unitsOf infinityCode : ℚ) = 2 ^ 25 * 2 ^ 252 := by
    exact_mod_cast unitsOf_infinityCode
  have hmax : (unitsOf (infinityCode - 1) : ℚ) = (2 ^ 25 - 2) * 2 ^ 252 := by
    rw [unitsOf_greatest]
    norm_num
  have hodd : ¬(infinityCode = infinityCode - 1 ∨ (infinityCode - 1) % 2 = 0) := by decide
  have hmono := unitsOf_strictMono.monotone
  have ht : (0 : ℚ) < 2 ^ 252 := by positivity
  generalize (2 : ℚ) ^ 252 = t at *
  refine ⟨fun hlt => ?_, fun hlt => ?_⟩
  · by_contra hge
    have hle : (unitsOf c : ℚ) ≤ unitsOf (infinityCode - 1) := by
      exact_mod_cast hmono (Nat.le_sub_one_of_lt hlt)
    obtain ⟨hnear, htie⟩ := hu infinityCode
    have hc : |(unitsOf c : ℚ) - u| = u - unitsOf c := by
      rw [abs_sub_comm]
      exact abs_of_nonneg (by linarith)
    rw [hc, hinf] at hnear htie
    rcases abs_cases (2 ^ 25 * t - u) with h | h
    · -- Only the midpoint itself is left, and there the tie goes to infinity, whose code is even.
      have hcode : (unitsOf c : ℚ) = unitsOf (infinityCode - 1) := by linarith [h.1]
      rw [unitsOf_strictMono.injective (Nat.cast_injective hcode)] at htie
      exact hodd (htie (by linarith [h.1]))
    · linarith [h.1]
  · by_contra hge
    have hle : 2 ^ 25 * t ≤ unitsOf c := by
      rw [← hinf]
      exact_mod_cast hmono (Nat.le_of_not_lt hge)
    have hnear := (hu (infinityCode - 1)).1
    rw [abs_of_nonneg (by linarith)] at hnear
    rcases abs_cases ((unitsOf (infinityCode - 1) : ℚ) - u) with h | h <;> linarith [h.1]

end Single
end MaterialText
