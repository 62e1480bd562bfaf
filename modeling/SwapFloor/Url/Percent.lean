import SwapFloor.Text.Hex
import SwapFloor.Text.Utf8

/-!
# Percent signs

A percent sign with two hexadecimal digits stands for a byte; any other one stands for itself.
Main statement: decoding makes no text longer (`length_decode_le`).
-/

namespace SwapFloor.Url.Percent

open SwapFloor.Text (hexVal? Utf8.bytes)

/-- The byte of two hexadecimal digits. -/
def byte? (a b : UInt8) : Option UInt8 := do
  let x ← hexVal? (Char.ofNat a.toNat)
  let y ← hexVal? (Char.ofNat b.toNat)
  pure (UInt8.ofNat (x * 16 + y))

/-- The byte that the start of a sequence stands for, if it is a percent sign with two digits, and
what comes after it. -/
def escaped? : List UInt8 → Option (UInt8 × List UInt8)
  | p :: a :: b :: rest => if p.toNat = 0x25 then (byte? a b).map fun c => (c, rest) else none
  | _ => none

theorem length_of_escaped? {bytes rest : List UInt8} {c : UInt8}
    (h : escaped? bytes = some (c, rest)) : rest.length + 3 = bytes.length := by
  unfold escaped? at h
  split at h
  · split at h
    · simp only [Option.map_eq_some_iff, Prod.mk.injEq] at h
      obtain ⟨_, _, _, rfl⟩ := h
      rfl
    · simp at h
  · simp at h

/-- The bytes that a sequence stands for. -/
def decode (bytes : List UInt8) : List UInt8 :=
  match _read : escaped? bytes with
  | some (c, rest) => c :: decode rest
  | none =>
    match bytes with
    | [] => []
    | b :: rest => b :: decode rest
termination_by bytes.length
decreasing_by
  · have := length_of_escaped? _read
    omega
  · simp

/-- The text behind the percent signs of a text, if it is UTF-8. -/
def text? (s : String) : Option String := Text.Utf8.text? (decode (Utf8.bytes s))

/-- The text behind the percent signs of a text, with a replacement character for each gap. -/
def lossyText (s : String) : String := Text.Utf8.lossyText (decode (Utf8.bytes s))

@[simp] theorem decode_nil : decode [] = [] := by
  rw [decode]
  rfl

theorem length_decode_le (bytes : List UInt8) : (decode bytes).length ≤ bytes.length := by
  fun_induction decode bytes with
  | case1 bytes c rest h ih =>
    have := length_of_escaped? h
    simp only [List.length_cons]
    omega
  | case2 => simp
  | case3 => simp only [List.length_cons]; omega

end SwapFloor.Url.Percent
