import Mathlib.Algebra.BigOperators.Group.List.Basic
import Mathlib.Algebra.Order.Ring.Nat
import SwapFloor.Decimal.Basic
import SwapFloor.Table

/-!
# Sums that fit

Bounds of decimals by whole numbers. Rounding to fewer fraction digits stays within such a bound,
so a sum fits as soon as the bounds of what is added fit together, and their sum bounds it.

Main statements: sums, differences and sums of lists (`Within.add`, `Within.sub`, `Within.sum`).
-/

namespace SwapFloor

namespace Decimal

/-- The magnitude is no more than a whole number. -/
def Within (n : Nat) (d : Decimal) : Prop := d.coeff ≤ n * 10 ^ d.scale

/-- The least whole number that is no less than the magnitude. -/
def size (d : Decimal) : Nat := (d.coeff + (10 ^ d.scale - 1)) / 10 ^ d.scale

theorem within_size (d : Decimal) : Within d.size d := by
  have hpos : 0 < 10 ^ d.scale := Nat.pow_pos (by decide)
  have hdiv := Nat.div_add_mod (d.coeff + (10 ^ d.scale - 1)) (10 ^ d.scale)
  have hmod := Nat.mod_lt (d.coeff + (10 ^ d.scale - 1)) hpos
  unfold Within size
  rw [Nat.mul_comm]
  omega

theorem natAbs_signed (d : Decimal) : d.signed.natAbs = d.coeff := by
  unfold signed
  split
  · rw [Int.natAbs_neg, Int.natAbs_natCast]
  · exact Int.natAbs_natCast _

/-- Rounding a quotient stays within a bound that is a whole number. -/
theorem roundDiv_le {c d n : Nat} (hd : 0 < d) (h : c ≤ n * d) : roundDiv c d ≤ n := by
  have hdiv : c / d ≤ n := Nat.div_le_of_le_mul (Nat.mul_comm n d ▸ h)
  rcases Nat.eq_or_lt_of_le hdiv with hn | hn
  · -- The quotient is the bound itself, and nothing is left over.
    have hrest : c % d = 0 := by
      have hsplit := Nat.div_add_mod c d
      rw [hn, Nat.mul_comm] at hsplit
      omega
    unfold roundDiv
    simp only [hrest, Nat.mul_zero, Nat.not_lt_zero, if_false]
    rw [if_neg (by omega)]
    exact hdiv
  · unfold roundDiv
    simp only
    split
    · omega
    · split
      · have := Nat.mod_two_eq_zero_or_one (c / d)
        omega
      · omega

theorem coeff_of_ofParts? {negative : Bool} {c scale : Nat} {d : Decimal}
    (h : ofParts? negative c scale = some d) : d.coeff = c ∧ d.scale = scale := by
  unfold ofParts? at h
  split at h
  · cases h
    exact ⟨rfl, rfl⟩
  · cases h

theorem fitFrom_within {negative : Bool} {c scale n digits : Nat} (hn : n < 2 ^ 96)
    (hc : c ≤ n * 10 ^ scale) (hdigits : digits ≤ scale) :
    ∃ d, fitFrom negative c scale digits = some d ∧ d.Within n := by
  have hround : ∀ k ≤ scale, roundDiv c (Nat.pow 10 (scale - k)) ≤ n * 10 ^ k := by
    intro k hk
    refine roundDiv_le (Nat.pow_pos (by decide)) ?_
    show c ≤ n * 10 ^ k * 10 ^ (scale - k)
    rw [Nat.mul_assoc, ← Nat.pow_add, Nat.add_sub_cancel' hk]
    exact hc
  induction digits with
  | zero =>
    have h0 := hround 0 (Nat.zero_le _)
    rw [Nat.pow_zero, Nat.mul_one, Nat.sub_zero] at h0
    unfold fitFrom ofParts?
    rw [dif_pos ⟨Nat.lt_of_le_of_lt h0 hn, Nat.zero_le _⟩]
    refine ⟨_, rfl, ?_⟩
    unfold Within
    rw [Nat.pow_zero, Nat.mul_one]
    exact h0
  | succ digits ih =>
    unfold fitFrom
    cases hp : ofParts? negative (roundDiv c (Nat.pow 10 (scale - (digits + 1)))) (digits + 1) with
    | some d =>
      obtain ⟨hcoeff, hscale⟩ := coeff_of_ofParts? hp
      refine ⟨d, rfl, ?_⟩
      unfold Within
      rw [hcoeff, hscale]
      exact hround (digits + 1) hdigits
    | none => exact ih (Nat.le_of_succ_le hdigits)

namespace Within

variable {a b : Decimal} {m n : Nat}

theorem mono (h : Within m a) (hmn : m ≤ n) : Within n a :=
  Nat.le_trans h (Nat.mul_le_mul_right _ hmn)

theorem zero : Within n Decimal.zero := Nat.zero_le _

theorem neg (h : Within n a) : Within n a.neg := h

theorem abs (h : Within n a) : Within n a.abs := h

theorem natAbs_unitsAt (h : Within n a) {scale : Nat} (hs : a.scale ≤ scale) :
    (a.unitsAt scale).natAbs ≤ n * 10 ^ scale := by
  have hpow : (Int.pow 10 (scale - a.scale)).natAbs = 10 ^ (scale - a.scale) := Int.natAbs_pow ..
  unfold unitsAt
  rw [Int.natAbs_mul, natAbs_signed, hpow]
  calc a.coeff * 10 ^ (scale - a.scale)
      ≤ n * 10 ^ a.scale * 10 ^ (scale - a.scale) := Nat.mul_le_mul_right _ h
    _ = n * 10 ^ scale := by rw [Nat.mul_assoc, ← Nat.pow_add, Nat.add_sub_cancel' hs]

/-- A sum fits if the bounds of both sides do together. -/
theorem add (ha : Within m a) (hb : Within n b) (hfit : m + n < 2 ^ 96) :
    ∃ c, a.add b = some c ∧ Within (m + n) c := by
  unfold Decimal.add
  split
  · exact ⟨b, rfl, hb.mono (Nat.le_add_left ..)⟩
  · split
    · exact ⟨a, rfl, ha.mono (Nat.le_add_right ..)⟩
    · have hsum : (a.unitsAt (max a.scale b.scale) + b.unitsAt (max a.scale b.scale)).natAbs
          ≤ (m + n) * 10 ^ max a.scale b.scale := by
        rw [Nat.add_mul]
        exact Nat.le_trans (Int.natAbs_add_le _ _) (Nat.add_le_add
          (ha.natAbs_unitsAt (Nat.le_max_left ..)) (hb.natAbs_unitsAt (Nat.le_max_right ..)))
      exact fitFrom_within hfit hsum (Nat.le_refl _)

theorem sub (ha : Within m a) (hb : Within n b) (hfit : m + n < 2 ^ 96) :
    ∃ c, a.sub b = some c ∧ Within (m + n) c := by
  unfold Decimal.sub
  split
  · refine ⟨_, rfl, Within.mono ?_ (Nat.le_add_left ..)⟩
    split
    · exact hb
    · exact hb.neg
  · split
    · exact ⟨a, rfl, ha.mono (Nat.le_add_right ..)⟩
    · exact ha.add hb.neg hfit

theorem sum (ds : List Decimal) (ha : Within m a) (hfit : m + (ds.map size).sum < 2 ^ 96) :
    ∃ c, ds.foldlM Decimal.add a = some c ∧ Within (m + (ds.map size).sum) c := by
  induction ds generalizing a m with
  | nil => exact ⟨a, rfl, ha⟩
  | cons d ds ih =>
    rw [List.map_cons, List.sum_cons, ← Nat.add_assoc] at hfit ⊢
    obtain ⟨c, hc, hcn⟩ := ha.add d.within_size (by omega)
    obtain ⟨e, he, hen⟩ := ih hcn hfit
    refine ⟨e, ?_, hen⟩
    rw [List.foldlM_cons, hc]
    exact he

end Within

end Decimal

namespace Table

/-- Every amount of the table has the bound. -/
def Within (n : Nat) (t : Table String Decimal) : Prop := ∀ k d, t.get? k = some d → d.Within n

namespace Within

variable {t : Table String Decimal} {m n : Nat}

theorem empty : Within n .empty := fun _ _ h => nomatch h

theorem mono (h : Within m t) (hmn : m ≤ n) : Within n t := fun k d hd => (h k d hd).mono hmn

theorem getD (h : Within n t) (k : String) : ((t.get? k).getD .zero).Within n := by
  cases hd : t.get? k with
  | none => exact .zero
  | some d => exact h k d hd

theorem insert (h : Within n t) {d : Decimal} (hd : d.Within n) (k : String) :
    Within n (t.insert k d) := by
  intro k' d' hd'
  rw [get?_insert] at hd'
  split at hd'
  · cases hd'
    exact hd
  · exact h k' d' hd'

end Within

end Table

end SwapFloor
