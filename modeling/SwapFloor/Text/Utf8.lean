/-!
# UTF-8

Bytes as text. A character takes one to four bytes, of which the first says how many follow and
within which bounds the second one lies. Where no character can be read, the bytes that may still
have begun one, at least one byte, form a gap.

Main statements: `decode` finds a character or a gap for every byte or more (`length_decode_le`),
and ASCII reads as itself (`decode_cons_of_lt`).
-/

namespace SwapFloor.Text.Utf8

/-- What the first byte of a character says. -/
structure Lead where
  /-- The bits that it gives. -/
  bits : Nat
  /-- How many bytes follow. -/
  more : Nat
  /-- The least byte that may follow. -/
  low : Nat := 0x80
  /-- The greatest byte that may follow. -/
  high : Nat := 0xBF

/-- The first byte of a character. -/
def lead? (b : Nat) : Option Lead :=
  if b < 0x80 then some { bits := b, more := 0 }
  else if b < 0xC2 then none
  else if b < 0xE0 then some { bits := b - 0xC0, more := 1 }
  else if b = 0xE0 then some { bits := 0, more := 2, low := 0xA0 }
  else if b = 0xED then some { bits := 0xD, more := 2, high := 0x9F }
  else if b < 0xF0 then some { bits := b - 0xE0, more := 2 }
  else if b = 0xF0 then some { bits := 0, more := 3, low := 0x90 }
  else if b < 0xF4 then some { bits := b - 0xF0, more := 3 }
  else if b = 0xF4 then some { bits := 4, more := 3, high := 0x8F }
  else none

/-- Reads `more` bytes behind the bits that came before, the first of them between `low` and
`high`. Gives the code point, none if a byte does not fit, and the bytes that were not read. -/
def follow (bits low high : Nat) : Nat → List UInt8 → Option Nat × List UInt8
  | 0, bytes => (some bits, bytes)
  | _ + 1, [] => (none, [])
  | more + 1, b :: rest =>
    if low ≤ b.toNat ∧ b.toNat ≤ high then
      follow (bits * 64 + b.toNat % 64) 0x80 0xBF more rest
    else (none, b :: rest)

theorem length_follow_le (bits low high more : Nat) (bytes : List UInt8) :
    (follow bits low high more bytes).2.length ≤ bytes.length := by
  induction more generalizing bits low high bytes with
  | zero => exact Nat.le_refl _
  | succ more ih =>
    cases bytes with
    | nil => exact Nat.le_refl _
    | cons b rest =>
      unfold follow
      split
      · have := ih (bits * 64 + b.toNat % 64) 0x80 0xBF rest
        simp only [List.length_cons]
        omega
      · exact Nat.le_refl _

/-- The characters of bytes, none for each gap. -/
def decode : List UInt8 → List (Option Char)
  | [] => []
  | b :: rest =>
    match lead? b.toNat with
    | none => none :: decode rest
    | some l =>
      let read := follow l.bits l.low l.high l.more rest
      read.1.map Char.ofNat :: decode read.2
termination_by bytes => bytes.length
decreasing_by
  · simp
  · have := length_follow_le l.bits l.low l.high l.more rest
    simp only [List.length_cons]
    omega

/-- The text of bytes, if they are all UTF-8. -/
def text? (bytes : List UInt8) : Option String := ((decode bytes).mapM id).map String.ofList

/-- The text of bytes with a replacement character for each gap. -/
def lossyText (bytes : List UInt8) : String :=
  String.ofList ((decode bytes).map (·.getD '\uFFFD'))

def bytes (s : String) : List UInt8 := s.toUTF8.toList

/-! ## Small lemmas -/

@[simp] theorem decode_nil : decode [] = [] := by
  rw [decode]

theorem decode_cons_of_lt {b : UInt8} (h : b.toNat < 0x80) (rest : List UInt8) :
    decode (b :: rest) = some (Char.ofNat b.toNat) :: decode rest := by
  rw [decode]
  simp [lead?, h, follow]

theorem length_decode_le (bytes : List UInt8) : (decode bytes).length ≤ bytes.length := by
  fun_induction decode bytes with
  | case1 => simp
  | case2 b rest h ih => simpa using ih
  | case3 b rest l h read ih =>
    have : read.2.length ≤ rest.length := length_follow_le l.bits l.low l.high l.more rest
    simp only [List.length_cons]
    omega

end SwapFloor.Text.Utf8
