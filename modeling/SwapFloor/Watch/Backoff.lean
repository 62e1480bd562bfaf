import SwapFloor.Settings.Basic

/-!
# Waiting before another try

After a failure the next try waits; the wait doubles with every further failure, up to a limit
and at most sixteen times. The failures are counted in 32 bits. Main statements: a wait never exceeds the limit, never shrinks with
more failures, and is the doubled first wait up to the limit also where that is too long to be a
duration (`wait_eq`).
-/

namespace SwapFloor

/-- How long to wait before another try, in milliseconds. -/
structure Backoff where
  baseMs : Nat
  maxMs : Nat
  deriving DecidableEq, Inhabited

namespace Backoff

/-- The waits of the settings; the limit is no smaller than the first wait. -/
def ofSettings (s : Settings.Provider) : Backoff :=
  ⟨s.retryBaseMs, max s.retryBaseMs s.retryMaxMs⟩

/-- A duration has a number of whole seconds of 64 bits; this is the least number of milliseconds
that is too long. -/
abbrev spanBound : Nat := 2 ^ 64 * 1000

/-- A multiple of a duration, none when it is too long. -/
def times? (ms factor : Nat) : Option Nat :=
  if ms * factor < spanBound then some (ms * factor) else none

/-- The wait after a number of failures; the limit where the doubled wait is too long for a
duration. -/
def wait (b : Backoff) (failures : UInt32) : Nat :=
  min ((times? b.baseMs (Nat.pow 2 (min (failures.toNat - 1) 16))).getD b.maxMs) b.maxMs

theorem wait_le_max (b : Backoff) (n : UInt32) : b.wait n ≤ b.maxMs := Nat.min_le_right ..

/-- Where a multiple is too long, the limit is what there is. -/
theorem getD_times? (ms factor limit : Nat) :
    (times? ms factor).getD limit = if ms * factor < spanBound then ms * factor else limit := by
  unfold times?
  split <;> rfl

/-- A limit that is a duration caps the doubled wait, whether or not that is one. -/
theorem wait_eq {b : Backoff} (h : b.maxMs < spanBound) (n : UInt32) :
    b.wait n = min b.maxMs (b.baseMs * Nat.pow 2 (min (n.toNat - 1) 16)) := by
  unfold wait
  rw [getD_times?]
  split <;> omega

theorem wait_mono (b : Backoff) {m n : UInt32} (h : m ≤ n) : b.wait m ≤ b.wait n := by
  rw [UInt32.le_iff_toNat_le] at h
  have hpow : Nat.pow 2 (min (m.toNat - 1) 16) ≤ Nat.pow 2 (min (n.toNat - 1) 16) :=
    Nat.pow_le_pow_right (by omega) (by omega)
  have hwait := Nat.mul_le_mul_left b.baseMs hpow
  unfold wait
  rw [getD_times?, getD_times?]
  split <;> split <;> omega

theorem base_le_wait (s : Settings.Provider) (n : UInt32) :
    s.retryBaseMs ≤ (ofSettings s).wait n := by
  have hwait := Nat.le_mul_of_pos_right s.retryBaseMs (Nat.two_pow_pos (min (n.toNat - 1) 16))
  unfold wait ofSettings
  rw [getD_times?, Nat.pow_eq]
  dsimp only
  split <;> omega

/-- A wait that is too long for a duration is the limit. -/
example : (Backoff.mk (2 ^ 63) (2 ^ 64 - 1)).wait 12 = 2 ^ 64 - 1 := by decide

end Backoff

end SwapFloor
