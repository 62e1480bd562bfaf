import SwapFloor.Decimal.Basic
import SwapFloor.Binary.Shortest

/-!
# Decimals from doubles

A double is turned into a decimal in 96-bit arithmetic: its binary exponent is traded for a
decimal one, and what a coefficient cannot hold is cut off. The result keeps no more digits than
the 52 bits of a double vouch for, and no trailing fraction zeros.
-/

namespace SwapFloor.Decimal

open SwapFloor.Binary (parts?)

/-- A coefficient below `2 ^ 96` times a power of ten. -/
structure Scaled where
  coeff : Nat
  exponent : Int

/-- Divides by two `k` times, each time by halving where that is exact, by multiplying by five
where that fits, and by halving with loss otherwise. -/
def Scaled.halve (s : Scaled) : Nat → Scaled
  | 0 => s
  | k + 1 =>
    if s.coeff % 2 = 0 then Scaled.halve ⟨s.coeff / 2, s.exponent + 1⟩ k
    else if s.coeff * 5 < 2 ^ 96 then Scaled.halve ⟨s.coeff * 5, s.exponent⟩ k
    else Scaled.halve ⟨s.coeff / 2, s.exponent + 1⟩ k

/-- Multiplies by two `k` times, by doubling where that fits and by dividing by five under a
higher power of ten otherwise. -/
def Scaled.double (s : Scaled) : Nat → Scaled
  | 0 => s
  | k + 1 =>
    if s.coeff < 2 ^ 95 then Scaled.double ⟨s.coeff * 2, s.exponent - 1⟩ k
    else Scaled.double ⟨s.coeff / 5, s.exponent⟩ k

/-- Brings a positive exponent down to zero, if the coefficient allows it. -/
def Scaled.lower (s : Scaled) : Nat → Option Scaled
  | 0 => some s
  | k + 1 =>
    if 0 < s.exponent then
      if s.coeff * 10 < 2 ^ 96 then Scaled.lower ⟨s.coeff * 10, s.exponent - 1⟩ k else none
    else some s

/-- Drops the last digit, rounding half up. -/
def Scaled.dropDigit (s : Scaled) : Scaled :=
  ⟨s.coeff / 10 + (if 5 ≤ s.coeff % 10 then 1 else 0), s.exponent + 1⟩

/-- Drops digits until at most 28 fraction digits are left; what vanishes on the way is zero. -/
def Scaled.raise (s : Scaled) : Nat → Scaled
  | 0 => s
  | k + 1 =>
    if s.exponent < -28 then
      if s.coeff / 10 = 0 then ⟨0, 0⟩ else Scaled.raise s.dropDigit k
    else s

/-- Drops fraction digits until the coefficient has at most 52 bits. -/
def Scaled.trust (s : Scaled) : Nat → Scaled
  | 0 => s
  | k + 1 =>
    if s.exponent < 0 ∧ 2 ^ 52 ≤ s.coeff then Scaled.trust s.dropDigit k else s

/-- Drops trailing fraction zeros. -/
def Scaled.strip (s : Scaled) : Nat → Scaled
  | 0 => s
  | k + 1 =>
    if s.exponent < 0 ∧ s.coeff % 10 = 0 then Scaled.strip ⟨s.coeff / 10, s.exponent + 1⟩ k
    else s

/-- The decimal that a double stands for; none if it is not finite or too large. -/
def ofFloat? (x : Float) : Option Decimal := do
  let p ← parts? x
  if p.m = 0 then pure { zero with negative := p.negative }
  else
    let start : Scaled := ⟨p.m, p.q⟩
    let s := if p.q < 0 then start.halve (-p.q).toNat else start.double p.q.toNat
    let s ← s.lower 1100
    let s := ((s.raise 1100).trust 40).strip 40
    if h : s.coeff < 2 ^ 96 ∧ (-s.exponent).toNat ≤ 28 then
      pure ⟨p.negative, s.coeff, (-s.exponent).toNat, h.1, h.2⟩
    else none

end SwapFloor.Decimal
