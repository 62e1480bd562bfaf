import SwapFloor.Power

/-!
# Numbers as bytes

Numbers are written with their lowest byte first.
-/

namespace SwapFloor.Crypto

/-- The lowest `size` bytes of a number, lowest first. -/
def littleEndian : Nat → Nat → List UInt8
  | 0, _ => []
  | size + 1, n => UInt8.ofNat n :: littleEndian size (n / 256)

/-- The number of bytes that come lowest first. -/
def ofLittleEndian : List UInt8 → Nat
  | [] => 0
  | b :: rest => b.toNat + 256 * ofLittleEndian rest

/-- A word from bytes that come lowest first. -/
def word (bytes : List UInt8) : UInt64 := UInt64.ofNat (ofLittleEndian bytes)

/-- The eight bytes of a word. -/
def wordBytes (w : UInt64) : List UInt8 := littleEndian 8 w.toNat

/-- The words of bytes, eight for each. -/
def words : Nat → List UInt8 → List UInt64
  | 0, _ => []
  | count + 1, bytes => word (bytes.take 8) :: words count (bytes.drop 8)

/-- A word turned right by `n` bits, for `n` from 1 to 63. -/
@[inline] def rotateRight (w n : UInt64) : UInt64 := (w >>> n) ||| (w <<< (64 - n))

theorem length_littleEndian (size n : Nat) : (littleEndian size n).length = size := by
  induction size generalizing n with
  | zero => rfl
  | succ size ih => simp [littleEndian, ih]

theorem ofLittleEndian_littleEndian {size n : Nat} (h : n < Nat.pow 256 size) :
    ofLittleEndian (littleEndian size n) = n := by
  induction size generalizing n with
  | zero =>
    have : n = 0 := by simpa using h
    rw [this]
    rfl
  | succ size ih =>
    have hs : n / 256 < Nat.pow 256 size :=
      (Nat.div_lt_iff_lt_mul (by decide)).2 h
    simp only [littleEndian, ofLittleEndian, UInt8.toNat_ofNat', ih hs]
    omega

theorem word_wordBytes (w : UInt64) : word (wordBytes w) = w := by
  unfold word wordBytes
  rw [ofLittleEndian_littleEndian (by have := w.toNat_lt; omega)]
  exact UInt64.ofNat_toNat

end SwapFloor.Crypto
