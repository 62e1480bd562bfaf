import SwapFloor.Crypto.Bytes

/-!
# The hash function BLAKE2b

Unkeyed, with digests of one to sixty-four bytes.
-/

namespace SwapFloor.Crypto.Blake2b

/-- The eight words from which the state starts. -/
def start : Vector UInt64 8 :=
  #v[0x6a09e667f3bcc908, 0xbb67ae8584caa73b, 0x3c6ef372fe94f82b, 0xa54ff53a5f1d36f1,
    0x510e527fade682d1, 0x9b05688c2b3e6c1f, 0x1f83d9abfb41bd6b, 0x5be0cd19137e2179]

/-- The order in which each of ten rounds takes the words of the message. -/
def schedule : List (Vector (Fin 16) 16) :=
  [#v[0, 1, 2, 3, 4, 5, 6, 7, 8, 9, 10, 11, 12, 13, 14, 15],
    #v[14, 10, 4, 8, 9, 15, 13, 6, 1, 12, 0, 2, 11, 7, 5, 3],
    #v[11, 8, 12, 0, 5, 2, 15, 13, 10, 14, 3, 6, 7, 1, 9, 4],
    #v[7, 9, 3, 1, 13, 12, 11, 14, 2, 6, 5, 10, 4, 0, 15, 8],
    #v[9, 0, 5, 7, 2, 4, 10, 15, 14, 1, 11, 12, 6, 8, 3, 13],
    #v[2, 12, 6, 10, 0, 11, 8, 3, 4, 13, 7, 5, 15, 14, 1, 9],
    #v[12, 5, 1, 15, 14, 13, 4, 10, 0, 7, 6, 3, 9, 2, 8, 11],
    #v[13, 11, 7, 14, 12, 1, 3, 9, 5, 0, 15, 4, 8, 6, 2, 10],
    #v[6, 15, 14, 9, 11, 3, 0, 8, 12, 2, 13, 7, 1, 4, 10, 5],
    #v[10, 2, 8, 4, 7, 6, 1, 5, 15, 11, 9, 14, 3, 12, 13, 0]]

/-- Mixes two words of the message into four words of the state. -/
def mix (v : Vector UInt64 16) (a b c d : Fin 16) (x y : UInt64) : Vector UInt64 16 :=
  let va := v[a] + v[b] + x
  let vd := rotateRight (v[d] ^^^ va) 32
  let vc := v[c] + vd
  let vb := rotateRight (v[b] ^^^ vc) 24
  let va := va + vb + y
  let vd := rotateRight (vd ^^^ va) 16
  let vc := vc + vd
  let vb := rotateRight (vb ^^^ vc) 63
  (((v.set a va).set b vb).set c vc).set d vd

/-- One round: four columns, then four diagonals. -/
def round (m : Vector UInt64 16) (v : Vector UInt64 16) (s : Vector (Fin 16) 16) :
    Vector UInt64 16 :=
  let v := mix v 0 4 8 12 m[s[0]] m[s[1]]
  let v := mix v 1 5 9 13 m[s[2]] m[s[3]]
  let v := mix v 2 6 10 14 m[s[4]] m[s[5]]
  let v := mix v 3 7 11 15 m[s[6]] m[s[7]]
  let v := mix v 0 5 10 15 m[s[8]] m[s[9]]
  let v := mix v 1 6 11 12 m[s[10]] m[s[11]]
  let v := mix v 2 7 8 13 m[s[12]] m[s[13]]
  mix v 3 4 9 14 m[s[14]] m[s[15]]

/-- Takes a block of the message into the state; `counted` bytes have been taken with it. -/
def compress (h : Vector UInt64 8) (block : List UInt8) (counted : Nat) (last : Bool) :
    Vector UInt64 8 :=
  let bytes := block ++ List.replicate (128 - block.length) 0
  let ws := words 16 bytes
  let m : Vector UInt64 16 := Vector.ofFn fun i => (ws[i.val]?).getD 0
  let v : Vector UInt64 16 := h ++ start
  let v := v.set 12 (v[12] ^^^ UInt64.ofNat counted)
  let v := v.set 13 (v[13] ^^^ UInt64.ofNat (counted / 2 ^ 64))
  let v := if last then v.set 14 (~~~v[14]) else v
  let v := (schedule ++ schedule.take 2).foldl (round m) v
  Vector.ofFn fun i => h[i] ^^^ v.get ⟨i.val, by omega⟩ ^^^ v.get ⟨i.val + 8, by omega⟩

/-- Takes the rest of a message into the state; `fuel` bounds its blocks. -/
def absorb (h : Vector UInt64 8) (counted : Nat) : Nat → List UInt8 → Vector UInt64 8
  | 0, bytes => compress h bytes (counted + bytes.length) true
  | fuel + 1, bytes =>
    if bytes.length ≤ 128 then compress h bytes (counted + bytes.length) true
    else absorb (compress h (bytes.take 128) (counted + 128) false) (counted + 128) fuel
      (bytes.drop 128)

/-- The digest of a message, `size` bytes long. -/
def hash (size : Nat) (message : List UInt8) : List UInt8 :=
  let h := start.set 0 (start[0] ^^^ 0x01010000 ^^^ UInt64.ofNat size)
  ((absorb h 0 (message.length / 128 + 1) message).toList.flatMap wordBytes).take size

end SwapFloor.Crypto.Blake2b
