import Mathlib.Algebra.BigOperators.Group.List.Basic
import Mathlib.Algebra.Order.Field.Basic
import Mathlib.Algebra.Order.Field.Rat
import Mathlib.Tactic.FieldSimp
import Mathlib.Tactic.Positivity
import Mathlib.Tactic.Ring
import SwapFloor.Decimal.Basic

/-!
# The number of a decimal

A decimal stands for its signed coefficient over a power of ten. Main statements: decimals compare
as their numbers do (`compare_eq_lt_iff`, `compare_eq_eq_iff`), a whole number that fits stands
for itself (`value_ofInt?_getD`), and amounts that are added exactly at every step have the sum of
their numbers (`ExactFrom`).
-/

namespace SwapFloor.Decimal

/-- The number that a decimal stands for. -/
def value (d : Decimal) : ℚ := d.signed / 10 ^ d.scale

@[simp] theorem value_zero : zero.value = 0 := by simp [value, zero, signed]

@[simp] theorem value_neg (d : Decimal) : d.neg.value = -d.value := by
  unfold value
  rw [signed_neg, Int.cast_neg, neg_div]
  rfl

/-- In units of ten to a scale that is fine enough, the number is an integer. -/
theorem unitsAt_eq (d : Decimal) {scale : Nat} (h : d.scale ≤ scale) :
    (d.unitsAt scale : ℚ) = d.value * 10 ^ scale := by
  obtain ⟨k, rfl⟩ := Nat.exists_eq_add_of_le h
  unfold unitsAt value
  rw [Nat.add_sub_cancel_left, show Int.pow 10 k = 10 ^ k from rfl]
  push_cast
  field_simp
  ring

theorem unitsAt_lt_iff (a b : Decimal) :
    a.unitsAt (max a.scale b.scale) < b.unitsAt (max a.scale b.scale) ↔ a.value < b.value := by
  have hpos : (0 : ℚ) < 10 ^ max a.scale b.scale := by positivity
  rw [← Int.cast_lt (R := ℚ), unitsAt_eq a (Nat.le_max_left ..), unitsAt_eq b (Nat.le_max_right ..),
    mul_lt_mul_iff_left₀ hpos]

theorem compare_eq_lt_iff (a b : Decimal) : a.compare b = .lt ↔ a.value < b.value := by
  unfold compare
  rw [compare_lt_iff_lt, unitsAt_lt_iff]

theorem compare_eq_gt_iff (a b : Decimal) : a.compare b = .gt ↔ b.value < a.value := by
  unfold compare
  rw [compare_gt_iff_gt, Nat.max_comm, unitsAt_lt_iff]

theorem compare_eq_eq_iff (a b : Decimal) : a.compare b = .eq ↔ a.value = b.value := by
  have hlt := compare_eq_lt_iff a b
  have hgt := compare_eq_gt_iff a b
  cases hc : a.compare b with
  | lt =>
    rw [hc] at hlt
    simpa using (hlt.1 rfl).ne
  | eq =>
    rw [hc] at hlt hgt
    simp only [reduceCtorEq, false_iff, not_lt] at hlt hgt
    simpa using le_antisymm hgt hlt
  | gt =>
    rw [hc] at hgt
    simpa using (hgt.1 rfl).ne'

theorem le_iff (a b : Decimal) : a.le b = true ↔ a.value ≤ b.value := by
  unfold le
  rw [decide_eq_true_eq, ← not_lt, ← not_lt, Nat.max_comm, unitsAt_lt_iff]

theorem value_lt_zero_iff (d : Decimal) : d.value < 0 ↔ d.isNeg = true := by
  have hpos : (0 : ℚ) < 10 ^ d.scale := by positivity
  unfold value isNeg signed isZero
  rw [div_lt_iff₀ hpos, zero_mul, Int.cast_lt_zero]
  cases d.negative with
  | true => simp [Nat.pos_iff_ne_zero]
  | false => simp

theorem value_eq_zero_iff (d : Decimal) : d.value = 0 ↔ d.isZero = true := by
  have hpos : (0 : ℚ) < 10 ^ d.scale := by positivity
  unfold value
  rw [div_eq_zero_iff, or_iff_left hpos.ne', Int.cast_eq_zero, signed_eq_zero_iff]

theorem zero_lt_value_iff (d : Decimal) : 0 < d.value ↔ d.isPos = true := by
  rw [← not_le, le_iff_lt_or_eq, value_lt_zero_iff, value_eq_zero_iff]
  unfold isNeg isPos
  cases d.negative <;> cases d.isZero <;> simp

@[simp] theorem value_abs (d : Decimal) : d.abs.value = |d.value| := by
  have hpos : (0 : ℚ) < 10 ^ d.scale := by positivity
  unfold value
  rw [abs_div, abs_of_pos hpos, ← Int.cast_abs]
  refine congrArg (fun n : Int => (n : ℚ) / 10 ^ d.scale) ?_
  unfold signed abs
  cases d.negative <;> simp

/-- The magnitude of an integer with its sign. -/
theorem signed_natAbs (n : Int) :
    (if (decide (n < 0) && n.natAbs != 0) = true then -(n.natAbs : Int) else n.natAbs) = n := by
  by_cases hneg : n < 0
  · have hnonzero : (n.natAbs != 0) = true := by simpa using hneg.ne
    rw [decide_eq_true hneg, hnonzero, Bool.and_self, if_pos rfl]
    omega
  · rw [decide_eq_false hneg, Bool.false_and, if_neg Bool.false_ne_true]
    omega

/-- An integer over a power of ten, if it fits. -/
theorem value_ofIntScaled?_getD {n : Int} {scale : Nat} (hn : n.natAbs < 2 ^ 96)
    (hs : scale ≤ 28) : ((ofIntScaled? n scale).getD zero).value = n / 10 ^ scale := by
  unfold ofIntScaled? ofParts?
  rw [dif_pos ⟨hn, hs⟩]
  exact congrArg (fun m : Int => (m : ℚ) / 10 ^ scale) (signed_natAbs n)

/-- A whole number that fits, without fraction digits and without a sign. -/
theorem value_ofInt?_getD {n : Nat} (hn : n < 2 ^ 96) :
    ((ofInt? n).getD zero).value = n := by
  unfold ofInt?
  rw [value_ofIntScaled?_getD (by rwa [Int.natAbs_natCast]) (Nat.zero_le 28)]
  simp

/-! ## Exact sums -/

/-- The number that amounts come to. -/
def total (ds : List Decimal) : ℚ := (ds.map value).sum

@[simp] theorem total_cons (d : Decimal) (ds : List Decimal) :
    total (d :: ds) = d.value + total ds := rfl

@[simp] theorem total_append (as bs : List Decimal) : total (as ++ bs) = total as + total bs := by
  unfold total
  rw [List.map_append, List.sum_append]

theorem total_perm {as bs : List Decimal} (h : as.Perm bs) : total as = total bs :=
  (h.map value).sum_eq

/-- Adding the amounts to `s`, one after the other, is exact at every step. -/
def ExactFrom (s : Decimal) : List Decimal → Prop
  | [] => True
  | a :: as => ∃ c, s.add a = some c ∧ c.value = s.value + a.value ∧ ExactFrom c as

instance decidableExactFrom (s : Decimal) : (as : List Decimal) → Decidable (s.ExactFrom as)
  | [] => .isTrue trivial
  | a :: as =>
    match h : s.add a with
    | none => .isFalse fun ⟨_, hc, _⟩ => nomatch h.symm.trans hc
    | some c =>
      have := decidableExactFrom c as
      decidable_of_iff (c.value = s.value + a.value ∧ c.ExactFrom as)
        ⟨fun hc => ⟨c, h, hc⟩, fun ⟨_, h', hc⟩ => Option.some.inj (h'.symm.trans h) ▸ hc⟩

/-- Taking the amounts up into `s` by `op`, one after the other, is `f` at every step. -/
def ExactBy (op : Decimal → Decimal → Option Decimal) (f : ℚ → ℚ → ℚ) (s : Decimal) :
    List Decimal → Prop
  | [] => True
  | a :: as => ∃ c, op s a = some c ∧ c.value = f s.value a.value ∧ ExactBy op f c as

instance decidableExactBy (op : Decimal → Decimal → Option Decimal) (f : ℚ → ℚ → ℚ) (s : Decimal) :
    (as : List Decimal) → Decidable (s.ExactBy op f as)
  | [] => .isTrue trivial
  | a :: as =>
    match h : op s a with
    | none => .isFalse fun ⟨_, hc, _⟩ => nomatch h.symm.trans hc
    | some c =>
      have := decidableExactBy op f c as
      decidable_of_iff (c.value = f s.value a.value ∧ c.ExactBy op f as)
        ⟨fun hc => ⟨c, h, hc⟩, fun ⟨_, h', hc⟩ => Option.some.inj (h'.symm.trans h) ▸ hc⟩

/-- Subtracting the amounts from `s`, one after the other, is exact at every step. -/
def ExactLess (s : Decimal) (as : List Decimal) : Prop := s.ExactBy sub (· - ·) as

instance (s : Decimal) (as : List Decimal) : Decidable (s.ExactLess as) :=
  decidableExactBy sub (· - ·) s as

theorem exactFrom_iff {s : Decimal} {as : List Decimal} :
    s.ExactFrom as ↔ s.ExactBy add (· + ·) as := by
  induction as generalizing s with
  | nil => exact Iff.rfl
  | cons a as ih => exact exists_congr fun c => and_congr_right fun _ => and_congr_right fun _ => ih

/-- What comes out when all amounts are taken up. -/
theorem ExactBy.exists_foldlM {op : Decimal → Decimal → Option Decimal} {f : ℚ → ℚ → ℚ}
    {s : Decimal} {as : List Decimal} (h : s.ExactBy op f as) :
    ∃ c, as.foldlM op s = some c ∧ c.value = as.foldl (fun x a => f x a.value) s.value := by
  induction as generalizing s with
  | nil => exact ⟨s, rfl, rfl⟩
  | cons a as ih =>
    obtain ⟨c, hc, hval, hrest⟩ := h
    obtain ⟨d, hd, hsum⟩ := ih hrest
    refine ⟨d, ?_, ?_⟩
    · rw [List.foldlM_cons, hc]
      exact hd
    · rw [hsum, hval, List.foldl_cons]

theorem foldl_add (x : ℚ) (as : List Decimal) :
    as.foldl (fun x a => x + a.value) x = x + total as := by
  induction as generalizing x with
  | nil => exact (add_zero x).symm
  | cons a as ih => rw [List.foldl_cons, ih, total_cons, add_assoc]

theorem foldl_sub (x : ℚ) (as : List Decimal) :
    as.foldl (fun x a => x - a.value) x = x - total as := by
  induction as generalizing x with
  | nil => exact (sub_zero x).symm
  | cons a as ih => rw [List.foldl_cons, ih, total_cons, sub_sub]

end SwapFloor.Decimal
