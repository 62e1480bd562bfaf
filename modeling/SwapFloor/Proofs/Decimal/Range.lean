import Mathlib.Tactic.Linarith
import SwapFloor.Proofs.Decimal.Fitting
import SwapFloor.Proofs.Decimal.Value

/-!
# Sums out of range

A sum loses fraction digits until its coefficient fits. One that does not fit as a whole number
either is out of range. The first coefficient that does not fit is even, so that half a unit below
it a sum is rounded up to it.

Main statement: two decimals have no sum exactly if their numbers exceed the range together
(`add_eq_none_iff`).
-/

namespace SwapFloor.Decimal

/-- Rounded to a whole one, the number has a coefficient that does not fit. -/
def Exceeds (x : ℚ) : Prop := 2 ^ 96 - 1 / 2 ≤ |x|

instance : DecidablePred Exceeds := fun _ => inferInstanceAs (Decidable (_ ≤ _))

theorem le_roundDiv_iff {c d m : Nat} (hd : 0 < d) (hm : m % 2 = 0) :
    m ≤ roundDiv c d ↔ 2 * (m * d) ≤ 2 * c + d := by
  have hsplit := Nat.div_add_mod' c d
  have hrest := Nat.mod_lt c hd
  rcases Nat.lt_trichotomy (c / d + 1) m with hlt | heq | hgt
  · have hround : roundDiv c d ≤ c / d + 1 := by unfold roundDiv; grind
    have hprod : (c / d + 2) * d ≤ m * d := Nat.mul_le_mul_right d hlt
    rw [Nat.add_mul] at hprod
    exact iff_of_false (by omega) (by omega)
  · -- Rounding up reaches the bound, and does so from a tie on.
    have hround : m ≤ roundDiv c d ↔ d ≤ 2 * (c % d) := by unfold roundDiv; grind
    rw [hround, ← heq, Nat.add_mul, Nat.one_mul]
    omega
  · have hround : c / d ≤ roundDiv c d := by unfold roundDiv; grind
    have hprod : m * d ≤ c / d * d := Nat.mul_le_mul_right d (Nat.le_of_lt_succ hgt)
    exact iff_of_true (by omega) (by omega)

theorem ofParts?_eq_none_iff {negative : Bool} {c scale : Nat} (hs : scale ≤ 28) :
    ofParts? negative c scale = none ↔ 2 ^ 96 ≤ c := by
  unfold ofParts?
  split
  · rename_i h
    exact iff_of_false (Option.some_ne_none _) (Nat.not_le.2 h.1)
  · rename_i h
    exact iff_of_true rfl (Nat.not_lt.1 fun hc => h ⟨hc, hs⟩)

/-- If a number fits as a whole one, it fits with some of its fraction digits, and if not, with
none of them. -/
theorem fitFrom_eq_none_iff {negative : Bool} {c scale digits : Nat} (hs : scale ≤ 28)
    (hdigits : digits ≤ scale) :
    fitFrom negative c scale digits = none ↔ 2 * (2 ^ 96 * 10 ^ scale) ≤ 2 * c + 10 ^ scale := by
  induction digits with
  | zero =>
    unfold fitFrom
    rw [ofParts?_eq_none_iff (Nat.zero_le _)]
    exact le_roundDiv_iff (Nat.pow_pos (by decide)) rfl
  | succ digits ih =>
    have hcoarse : 10 ^ (scale - (digits + 1)) ≤ 10 ^ scale :=
      Nat.pow_le_pow_right (by decide) (Nat.sub_le ..)
    unfold fitFrom
    rw [Option.orElse_eq_or, Option.or_eq_none_iff, ih (Nat.le_of_succ_le hdigits),
      ofParts?_eq_none_iff (hdigits.trans hs), Nat.pow_eq,
      le_roundDiv_iff (Nat.pow_pos (by decide)) rfl]
    exact and_iff_right_of_imp fun h => by omega

theorem exceeds_div_iff (n : ℤ) (scale : Nat) :
    Exceeds (n / 10 ^ scale) ↔ 2 * (2 ^ 96 * 10 ^ scale) ≤ 2 * n.natAbs + 10 ^ scale := by
  have hpos : (0 : ℚ) < 10 ^ scale := by positivity
  unfold Exceeds
  rw [abs_div, abs_of_pos hpos, le_div_iff₀ hpos, ← Int.cast_abs, ← Nat.cast_natAbs,
    ← Nat.cast_le (α := ℚ)]
  push_cast
  constructor <;> intro h <;> linarith

theorem not_exceeds_value (d : Decimal) : ¬ Exceeds d.value := by
  have hpos : 0 < 10 ^ d.scale := Nat.pow_pos (by decide)
  have hc := d.coeff_lt
  unfold value
  rw [exceeds_div_iff, natAbs_signed]
  omega

/-- A sum is out of range exactly if it is too large when it is rounded to a whole number. -/
theorem add_eq_none_iff (a b : Decimal) : a.add b = none ↔ Exceeds (a.value + b.value) := by
  unfold add
  split
  · rename_i ha
    rw [(value_eq_zero_iff a).2 ha, add_comm, add_zero]
    exact iff_of_false nofun b.not_exceeds_value
  · split
    · rename_i hb
      rw [(value_eq_zero_iff b).2 hb, add_zero]
      exact iff_of_false nofun a.not_exceeds_value
    · have hpos : (10 : ℚ) ^ max a.scale b.scale ≠ 0 := by positivity
      have hsum : a.value + b.value = ((a.unitsAt (max a.scale b.scale)
          + b.unitsAt (max a.scale b.scale) : ℤ) : ℚ) / 10 ^ max a.scale b.scale := by
        rw [Int.cast_add, unitsAt_eq a (Nat.le_max_left ..), unitsAt_eq b (Nat.le_max_right ..),
          ← add_mul, mul_div_cancel_right₀ _ hpos]
      rw [hsum, exceeds_div_iff]
      exact fitFrom_eq_none_iff (Nat.max_le.2 ⟨a.scale_le, b.scale_le⟩) (Nat.le_refl _)

end SwapFloor.Decimal
