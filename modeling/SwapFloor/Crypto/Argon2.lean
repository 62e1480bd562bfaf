import SwapFloor.Crypto.Blake2b

/-!
# The memory-hard function Argon2

A password is hashed by filling a memory of blocks, each made from the one before and another one,
and the digest is taken from the last blocks. In the kind `d` the other block depends on the block
before, in the kind `i` on the position alone, and the kind `id` starts like `i` and goes on like
`d`.

A block is eight rows of sixteen words. Seen as eight by eight pairs of words it has columns as
well as rows; `Block.transpose` exchanges the two.
-/

namespace SwapFloor.Crypto.Argon2

/-! ## Blocks -/

/-- Sixteen words. -/
structure Row where
  w0 : UInt64
  w1 : UInt64
  w2 : UInt64
  w3 : UInt64
  w4 : UInt64
  w5 : UInt64
  w6 : UInt64
  w7 : UInt64
  w8 : UInt64
  w9 : UInt64
  w10 : UInt64
  w11 : UInt64
  w12 : UInt64
  w13 : UInt64
  w14 : UInt64
  w15 : UInt64
  deriving DecidableEq, Inhabited

/-- Eight rows. -/
structure Block where
  r0 : Row
  r1 : Row
  r2 : Row
  r3 : Row
  r4 : Row
  r5 : Row
  r6 : Row
  r7 : Row
  deriving DecidableEq, Inhabited

/-- The sum of two words and twice the product of their lower halves. -/
@[inline] def muddle (x y : UInt64) : UInt64 :=
  x + y + 2 * (x &&& 0xFFFFFFFF) * (y &&& 0xFFFFFFFF)

/-- Mixes four words. -/
@[inline] def mix {α : Type} (a b c d : UInt64) (k : UInt64 → UInt64 → UInt64 → UInt64 → α) : α :=
  let a := muddle a b
  let d := rotateRight (d ^^^ a) 32
  let c := muddle c d
  let b := rotateRight (b ^^^ c) 24
  let a := muddle a b
  let d := rotateRight (d ^^^ a) 16
  let c := muddle c d
  let b := rotateRight (b ^^^ c) 63
  k a b c d

namespace Row

/-- No bit set. -/
def zero : Row := ⟨0, 0, 0, 0, 0, 0, 0, 0, 0, 0, 0, 0, 0, 0, 0, 0⟩

/-- Word by word exclusive or. -/
def xor (x y : Row) : Row :=
  ⟨x.w0 ^^^ y.w0, x.w1 ^^^ y.w1, x.w2 ^^^ y.w2, x.w3 ^^^ y.w3, x.w4 ^^^ y.w4, x.w5 ^^^ y.w5,
    x.w6 ^^^ y.w6, x.w7 ^^^ y.w7, x.w8 ^^^ y.w8, x.w9 ^^^ y.w9, x.w10 ^^^ y.w10, x.w11 ^^^ y.w11,
    x.w12 ^^^ y.w12, x.w13 ^^^ y.w13, x.w14 ^^^ y.w14, x.w15 ^^^ y.w15⟩

/-- Mixes the words as four by four: four columns, then four diagonals. -/
def permute (x : Row) : Row :=
  mix x.w0 x.w4 x.w8 x.w12 fun v0 v4 v8 v12 =>
  mix x.w1 x.w5 x.w9 x.w13 fun v1 v5 v9 v13 =>
  mix x.w2 x.w6 x.w10 x.w14 fun v2 v6 v10 v14 =>
  mix x.w3 x.w7 x.w11 x.w15 fun v3 v7 v11 v15 =>
  mix v0 v5 v10 v15 fun u0 u5 u10 u15 =>
  mix v1 v6 v11 v12 fun u1 u6 u11 u12 =>
  mix v2 v7 v8 v13 fun u2 u7 u8 u13 =>
  mix v3 v4 v9 v14 fun u3 u4 u9 u14 =>
  ⟨u0, u1, u2, u3, u4, u5, u6, u7, u8, u9, u10, u11, u12, u13, u14, u15⟩

/-- The row of sixteen words. -/
def ofWords : List UInt64 → Row
  | [w0, w1, w2, w3, w4, w5, w6, w7, w8, w9, w10, w11, w12, w13, w14, w15] =>
    ⟨w0, w1, w2, w3, w4, w5, w6, w7, w8, w9, w10, w11, w12, w13, w14, w15⟩
  | _ => zero

/-- The sixteen words. -/
def toWords (x : Row) : List UInt64 :=
  [x.w0, x.w1, x.w2, x.w3, x.w4, x.w5, x.w6, x.w7, x.w8, x.w9, x.w10, x.w11, x.w12, x.w13, x.w14,
    x.w15]

/-- A word by its number; zero beyond the last. -/
def get (x : Row) (i : Nat) : UInt64 := (x.toWords[i]?).getD 0

end Row

namespace Block

/-- No bit set. -/
def zero : Block := ⟨.zero, .zero, .zero, .zero, .zero, .zero, .zero, .zero⟩

/-- Row by row exclusive or. -/
def xor (x y : Block) : Block :=
  ⟨x.r0.xor y.r0, x.r1.xor y.r1, x.r2.xor y.r2, x.r3.xor y.r3, x.r4.xor y.r4, x.r5.xor y.r5,
    x.r6.xor y.r6, x.r7.xor y.r7⟩

/-- Mixes every row. -/
def permute (x : Block) : Block :=
  ⟨x.r0.permute, x.r1.permute, x.r2.permute, x.r3.permute, x.r4.permute, x.r5.permute,
    x.r6.permute, x.r7.permute⟩

/-- Exchanges rows and columns of pairs. -/
def transpose (x : Block) : Block :=
  ⟨⟨x.r0.w0, x.r0.w1, x.r1.w0, x.r1.w1, x.r2.w0, x.r2.w1, x.r3.w0, x.r3.w1, x.r4.w0, x.r4.w1,
      x.r5.w0, x.r5.w1, x.r6.w0, x.r6.w1, x.r7.w0, x.r7.w1⟩,
    ⟨x.r0.w2, x.r0.w3, x.r1.w2, x.r1.w3, x.r2.w2, x.r2.w3, x.r3.w2, x.r3.w3, x.r4.w2, x.r4.w3,
      x.r5.w2, x.r5.w3, x.r6.w2, x.r6.w3, x.r7.w2, x.r7.w3⟩,
    ⟨x.r0.w4, x.r0.w5, x.r1.w4, x.r1.w5, x.r2.w4, x.r2.w5, x.r3.w4, x.r3.w5, x.r4.w4, x.r4.w5,
      x.r5.w4, x.r5.w5, x.r6.w4, x.r6.w5, x.r7.w4, x.r7.w5⟩,
    ⟨x.r0.w6, x.r0.w7, x.r1.w6, x.r1.w7, x.r2.w6, x.r2.w7, x.r3.w6, x.r3.w7, x.r4.w6, x.r4.w7,
      x.r5.w6, x.r5.w7, x.r6.w6, x.r6.w7, x.r7.w6, x.r7.w7⟩,
    ⟨x.r0.w8, x.r0.w9, x.r1.w8, x.r1.w9, x.r2.w8, x.r2.w9, x.r3.w8, x.r3.w9, x.r4.w8, x.r4.w9,
      x.r5.w8, x.r5.w9, x.r6.w8, x.r6.w9, x.r7.w8, x.r7.w9⟩,
    ⟨x.r0.w10, x.r0.w11, x.r1.w10, x.r1.w11, x.r2.w10, x.r2.w11, x.r3.w10, x.r3.w11, x.r4.w10,
      x.r4.w11, x.r5.w10, x.r5.w11, x.r6.w10, x.r6.w11, x.r7.w10, x.r7.w11⟩,
    ⟨x.r0.w12, x.r0.w13, x.r1.w12, x.r1.w13, x.r2.w12, x.r2.w13, x.r3.w12, x.r3.w13, x.r4.w12,
      x.r4.w13, x.r5.w12, x.r5.w13, x.r6.w12, x.r6.w13, x.r7.w12, x.r7.w13⟩,
    ⟨x.r0.w14, x.r0.w15, x.r1.w14, x.r1.w15, x.r2.w14, x.r2.w15, x.r3.w14, x.r3.w15, x.r4.w14,
      x.r4.w15, x.r5.w14, x.r5.w15, x.r6.w14, x.r6.w15, x.r7.w14, x.r7.w15⟩⟩

/-- Makes a block out of two. -/
def compress (x y : Block) : Block :=
  let sum := x.xor y
  sum.xor sum.permute.transpose.permute.transpose

def ofBytes (bytes : List UInt8) : Block :=
  let ws := words 128 bytes
  let row := fun i => Row.ofWords ((ws.drop (16 * i)).take 16)
  ⟨row 0, row 1, row 2, row 3, row 4, row 5, row 6, row 7⟩

def rows (x : Block) : List Row := [x.r0, x.r1, x.r2, x.r3, x.r4, x.r5, x.r6, x.r7]

def toBytes (x : Block) : List UInt8 := x.rows.flatMap fun r => r.toWords.flatMap wordBytes

/-- A word by its number; zero beyond the last. -/
def get (x : Block) (i : Nat) : UInt64 := ((x.rows[i / 16]?).getD .zero).get (i % 16)

end Block

/-! ## Parameters -/

/-- Which blocks the choice of another block depends on. -/
inductive Kind where
  | d
  | i
  | id
  deriving DecidableEq

/-- The number of a kind. -/
def Kind.code : Kind → Nat
  | .d => 0
  | .i => 1
  | .id => 2

/-- How a hash is made. -/
structure Params where
  kind : Kind
  /-- 16, or 19, which keeps what it overwrites. -/
  version : Nat
  /-- Blocks of memory. -/
  memory : Nat
  passes : Nat
  lanes : Nat
  /-- Bytes of the digest. -/
  size : Nat
  /-- Further data that goes into the hash. -/
  data : List UInt8 := []
  deriving DecidableEq

namespace Params

/-- Blocks in a quarter of a lane. -/
def segment (p : Params) : Nat := p.memory / (4 * p.lanes)

def lane (p : Params) : Nat := 4 * p.segment

def blocks (p : Params) : Nat := p.lanes * p.lane

end Params

/-! ## Hashes of any length -/

/-- A number as four bytes. -/
def le32 (n : Nat) : List UInt8 := littleEndian 4 n

/-- The rest of a long digest, `left` bytes: the first halves of further digests of 64 bytes, each
of the one before, and a last digest of no more than 64 bytes. -/
def longTail (before : List UInt8) (left : Nat) : List UInt8 :=
  if left ≤ 64 then Blake2b.hash left before
  else
    let next := Blake2b.hash 64 before
    next.take 32 ++ longTail next (left - 32)
termination_by left

/-- A digest of any length. -/
def longHash (size : Nat) (message : List UInt8) : List UInt8 :=
  let message := le32 size ++ message
  if size ≤ 64 then Blake2b.hash size message
  else
    let first := Blake2b.hash 64 message
    first.take 32 ++ longTail first (size - 32)

/-! ## Filling the memory -/

/-- Where a block is made: `index` counts within the segment of a lane in a quarter of a pass. -/
structure Place where
  pass : Nat
  quarter : Nat
  lane : Nat
  index : Nat

/-- The place alone decides which other block is used. -/
def Place.isIndependent (p : Params) (at_ : Place) : Bool :=
  match p.kind with
  | .d => false
  | .i => true
  | .id => at_.pass == 0 && at_.quarter < 2

/-- The words that decide, for the 128 places around one. -/
def Place.addresses (p : Params) (at_ : Place) : Block :=
  let n := UInt64.ofNat
  let input : Block := { Block.zero with
    r0 := ⟨n at_.pass, n at_.lane, n at_.quarter, n p.blocks, n p.passes, n p.kind.code,
      n (at_.index / 128 + 1), 0, 0, 0, 0, 0, 0, 0, 0, 0⟩ }
  Block.zero.compress (Block.zero.compress input)

/-- The number of the other block, for a word that decides. -/
def Place.other (p : Params) (at_ : Place) (w : UInt64) : Nat :=
  let lane := if at_.pass = 0 ∧ at_.quarter = 0 then at_.lane else (w >>> 32).toNat % p.lanes
  let isFirst := if at_.index = 0 then 1 else 0
  let area :=
    if at_.pass = 0 then
      if lane = at_.lane then at_.quarter * p.segment + at_.index - 1
      else at_.quarter * p.segment - isFirst
    else if lane = at_.lane then p.lane - p.segment + at_.index - 1
    else p.lane - p.segment - isFirst
  let x := (w &&& 0xFFFFFFFF).toNat
  let back := area * (x * x / 2 ^ 32) / 2 ^ 32
  let from_ := if at_.pass ≠ 0 ∧ at_.quarter ≠ 3 then (at_.quarter + 1) * p.segment else 0
  lane * p.lane + (from_ + (area - 1 - back)) % p.lane

/-- The memory, and the words that decide for the current places. -/
structure Memory where
  blocks : Array Block
  addresses : Block

/-- Makes the block of a place. -/
def Memory.step (p : Params) (m : Memory) (at_ : Place) : Memory :=
  let inLane := at_.quarter * p.segment + at_.index
  let here := at_.lane * p.lane + inLane
  let before := at_.lane * p.lane + (inLane + p.lane - 1) % p.lane
  let independent := at_.isIndependent p
  let due := independent && (at_.index % 128 == 0 || (inLane == 2 && at_.pass == 0))
  let addresses := if due then at_.addresses p else m.addresses
  let previous := m.blocks.getD before .zero
  let w := if independent then addresses.get (at_.index % 128) else previous.r0.w0
  let made := previous.compress (m.blocks.getD (at_.other p w) .zero)
  let made :=
    if at_.pass = 0 ∨ p.version = 16 then made else made.xor (m.blocks.getD here .zero)
  ⟨m.blocks.setIfInBounds here made, addresses⟩

/-- Makes `count` blocks of a segment from a place on. -/
def Memory.fillFrom (p : Params) (m : Memory) (at_ : Place) : Nat → Memory
  | 0 => m
  | count + 1 => (m.step p at_).fillFrom p { at_ with index := at_.index + 1 } count

/-- Makes the blocks of a segment; the first two blocks of a lane are given. -/
def Memory.fillSegment (p : Params) (m : Memory) (pass quarter lane : Nat) : Memory :=
  let first := if pass = 0 ∧ quarter = 0 then 2 else 0
  m.fillFrom p ⟨pass, quarter, lane, first⟩ (p.segment - first)

/-- The segments in the order in which they are filled. -/
def Params.segments (p : Params) : List (Nat × Nat × Nat) :=
  (List.range p.passes).flatMap fun pass =>
    (List.range 4).flatMap fun quarter => (List.range p.lanes).map fun lane => (pass, quarter, lane)

/-! ## The hash -/

/-- Everything that goes into the hash, digested. -/
def seed (p : Params) (password salt : List UInt8) : List UInt8 :=
  Blake2b.hash 64 <|
    le32 p.lanes ++ le32 p.size ++ le32 p.memory ++ le32 p.passes ++ le32 p.version
      ++ le32 p.kind.code ++ le32 password.length ++ password ++ le32 salt.length ++ salt
      ++ le32 0 ++ le32 p.data.length ++ p.data

/-- The memory with the first two blocks of every lane. -/
def Memory.start (p : Params) (seed : List UInt8) : Memory :=
  let given := fun (blocks : Array Block) (lane i : Nat) =>
    blocks.setIfInBounds (lane * p.lane + i)
      (.ofBytes (longHash 1024 (seed ++ le32 i ++ le32 lane)))
  ⟨(List.range p.lanes).foldl (fun blocks lane => given (given blocks lane 0) lane 1)
    (Array.replicate p.blocks .zero), .zero⟩

/-- The last blocks of all lanes together. -/
def Memory.result (p : Params) (m : Memory) : Block :=
  (List.range p.lanes).foldl
    (fun b lane => b.xor (m.blocks.getD (lane * p.lane + p.lane - 1) .zero)) .zero

def hash (p : Params) (password salt : List UInt8) : List UInt8 :=
  let m := p.segments.foldl (fun m (pass, quarter, lane) => m.fillSegment p pass quarter lane)
    (Memory.start p (seed p password salt))
  longHash p.size (m.result p).toBytes

end SwapFloor.Crypto.Argon2
