import SwapFloor.Power

/-!
# Decimals with a 96-bit coefficient

A decimal is a sign, a coefficient below `2 ^ 96` and a scale of at most 28 fraction digits.
The scale is part of the value: `3.10` and `3.1` are different decimals that compare as equal.

Sums are exact at the larger of the two scales. A sum whose coefficient does not fit is rounded,
half to even, to the most fraction digits that do; when even its integer part does not fit there
is no sum. Main statements: a rounded quotient is within half a unit (`roundDiv_near`), and every
coefficient that fits is kept as it is (`fit?_of_lt`).
-/

namespace SwapFloor

/-- A decimal number `± coeff / 10 ^ scale`, zero included with either sign. -/
structure Decimal where
  negative : Bool
  coeff : Nat
  scale : Nat
  coeff_lt : coeff < 2 ^ 96
  scale_le : scale ≤ 28
  deriving DecidableEq

namespace Decimal

/-- The coefficients that fit are those below this bound. -/
abbrev coeffBound : Nat := 2 ^ 96

/-- The largest number of fraction digits. -/
abbrev maxScale : Nat := 28

/-- The decimal with the given parts, if they are in range; zero has no sign. -/
def ofParts? (negative : Bool) (coeff scale : Nat) : Option Decimal :=
  if h : coeff < 2 ^ 96 ∧ scale ≤ 28 then
    some ⟨negative && coeff != 0, coeff, scale, h.1, h.2⟩
  else none

/-- Plain zero. -/
def zero : Decimal := ⟨false, 0, 0, by decide, by decide⟩

instance : Inhabited Decimal := ⟨zero⟩

/-- Zero, of either sign and any scale. -/
def isZero (d : Decimal) : Bool := d.coeff == 0

def signed (d : Decimal) : Int := if d.negative then -(d.coeff : Int) else d.coeff

/-- The opposite number; a zero changes its sign too. -/
def neg (d : Decimal) : Decimal := { d with negative := !d.negative }

/-- The magnitude. -/
def abs (d : Decimal) : Decimal := { d with negative := false }

/-- Strictly above zero. -/
def isPos (d : Decimal) : Bool := !d.negative && !d.isZero

/-- Strictly below zero. -/
def isNeg (d : Decimal) : Bool := d.negative && !d.isZero

/-! ## Order by value -/

/-- `d` in units of `10 ^ -scale`, for a scale no smaller than its own. -/
def unitsAt (d : Decimal) (scale : Nat) : Int := d.signed * Int.pow 10 (scale - d.scale)

/-- Comparison of the numbers, whatever their scales. -/
def compare (a b : Decimal) : Ordering :=
  Ord.compare (a.unitsAt (max a.scale b.scale)) (b.unitsAt (max a.scale b.scale))

/-- `a ≤ b` as numbers. -/
def le (a b : Decimal) : Bool := a.unitsAt (max a.scale b.scale) ≤ b.unitsAt (max a.scale b.scale)

/-! ## Rounding -/

/-- `n / d` to the nearest integer, a half going to the even neighbour. -/
def roundDiv (n d : Nat) : Nat :=
  let q := n / d
  let r := n % d
  if d < 2 * r then q + 1
  else if 2 * r = d then q + q % 2
  else q

theorem roundDiv_one (n : Nat) : roundDiv n 1 = n := by
  simp [roundDiv, Nat.mod_one]

/-- Rounding moves a quotient by no more than half a unit. -/
theorem roundDiv_near (n d : Nat) (h : 0 < d) :
    2 * (roundDiv n d * d) ≤ 2 * n + d ∧ 2 * n ≤ 2 * (roundDiv n d * d) + d := by
  have e := Nat.div_add_mod n d
  have l := Nat.mod_lt n h
  have c : d * (n / d) = n / d * d := Nat.mul_comm ..
  unfold roundDiv
  simp only
  split
  · rw [Nat.add_mul]; omega
  · split
    · rcases Nat.mod_two_eq_zero_or_one (n / d) with p | p <;> rw [p, Nat.add_mul] <;> omega
    · omega

/-- A tie goes to the even neighbour. -/
theorem roundDiv_tie_even {n d : Nat} (h : 2 * (n % d) = d) : roundDiv n d % 2 = 0 := by
  unfold roundDiv
  simp only [h]
  split
  · omega
  · simp only [↓reduceIte]
    omega

/-- The most fraction digits, of at most `scale - dropped`, at which `coeff / 10 ^ scale` fits. -/
def fitFrom (negative : Bool) (coeff scale : Nat) : Nat → Option Decimal
  | 0 => ofParts? negative (roundDiv coeff (Nat.pow 10 scale)) 0
  | digits + 1 =>
    (ofParts? negative (roundDiv coeff (Nat.pow 10 (scale - (digits + 1)))) (digits + 1)).orElse
      fun _ => fitFrom negative coeff scale digits

/-- `± coeff / 10 ^ scale` as a decimal with as many of its fraction digits as fit. -/
def fit? (negative : Bool) (coeff scale : Nat) : Option Decimal :=
  fitFrom negative coeff scale scale

theorem fit?_of_lt {negative : Bool} {coeff scale : Nat} (hc : coeff < 2 ^ 96)
    (hs : scale ≤ 28) :
    fit? negative coeff scale = some ⟨negative && coeff != 0, coeff, scale, hc, hs⟩ := by
  cases scale with
  | zero => simp only [fit?, fitFrom, Nat.pow_eq, Nat.pow_zero, roundDiv_one, ofParts?, hc,
      true_and, dif_pos, Nat.zero_le]
  | succ n => simp only [fit?, fitFrom, Nat.sub_self, Nat.pow_eq, Nat.pow_zero, roundDiv_one,
      ofParts?, dif_pos (And.intro hc hs), Option.orElse_some]

/-! ## Sums and products -/

/-- The sum, or none when it is out of range. A zero gives way to the other operand. -/
def add (a b : Decimal) : Option Decimal :=
  if a.isZero then some b
  else if b.isZero then some a
  else
    let scale := max a.scale b.scale
    let sum := a.unitsAt scale + b.unitsAt scale
    fit? (sum < 0) sum.natAbs scale

/-- The difference, or none when it is out of range. Nothing less a zero is that zero. -/
def sub (a b : Decimal) : Option Decimal :=
  if a.isZero then some (if b.isZero then b else b.neg)
  else if b.isZero then some a
  else a.add b.neg

/-- The product with a power of ten, or none when it is out of range. -/
def timesPowerOfTen (a : Decimal) (n : Nat) : Option Decimal :=
  fit? a.negative (a.coeff * Nat.pow 10 n) a.scale

/-- The sum of a list from the left, starting at zero. -/
def sum (ds : List Decimal) : Option Decimal := ds.foldlM add zero

/-- The same number without trailing fraction zeros. -/
def normalize (d : Decimal) : Decimal :=
  if d.isZero then zero else go d d.scale
where
  /-- Drops up to `fuel` trailing zeros. -/
  go (d : Decimal) : Nat → Decimal
    | 0 => d
    | fuel + 1 =>
      if d.coeff % 10 = 0 ∧ 0 < d.scale then
        go ⟨d.negative, d.coeff / 10, d.scale - 1,
          Nat.lt_of_le_of_lt (Nat.div_le_self ..) d.coeff_lt,
          Nat.le_trans (Nat.sub_le ..) d.scale_le⟩ fuel
      else d

/-- An integer divided by `10 ^ scale`, if it fits. -/
def ofIntScaled? (n : Int) (scale : Nat) : Option Decimal := ofParts? (n < 0) n.natAbs scale

/-- An integer, if it fits. -/
def ofInt? (n : Int) : Option Decimal := ofIntScaled? n 0

/-! ## Small lemmas -/

@[simp] theorem isZero_zero : zero.isZero = true := rfl

theorem neg_neg (d : Decimal) : d.neg.neg = d := by simp [neg]

theorem signed_neg (d : Decimal) : d.neg.signed = -d.signed := by
  unfold signed neg
  cases d.negative <;> simp

theorem zero_add (d : Decimal) : zero.add d = some d := rfl

theorem add_of_isZero_right {a b : Decimal} (ha : a.isZero = false) (hb : b.isZero) :
    a.add b = some a := by
  simp [add, ha, hb]

theorem signed_eq_zero_iff (d : Decimal) : d.signed = 0 ↔ d.isZero = true := by
  unfold signed isZero
  split <;> simp

end Decimal

end SwapFloor
