/-!
# Hexadecimal digits

Main statement: a digit stands for a number below sixteen (`hexVal?_lt`).
-/

namespace SwapFloor.Text

/-- The value of a hexadecimal digit, in either case. -/
def hexVal? (c : Char) : Option Nat :=
  if '0' ≤ c ∧ c ≤ '9' then some (c.toNat - 48)
  else if 'a' ≤ c ∧ c ≤ 'f' then some (c.toNat - 87)
  else if 'A' ≤ c ∧ c ≤ 'F' then some (c.toNat - 55)
  else none

/-- A hexadecimal digit. -/
def isHexDigit (c : Char) : Bool := (hexVal? c).isSome

/-- The value of hexadecimal digits, zero for none. -/
def hexValue? (cs : List Char) : Option Nat :=
  cs.foldlM (fun n c => (hexVal? c).map fun d => n * 16 + d) 0

theorem hexVal?_lt {c : Char} {d : Nat} (h : hexVal? c = some d) : d < 16 := by
  have le {a b : Char} (h : a ≤ b) : a.toNat ≤ b.toNat := h
  unfold hexVal? at h
  split at h
  · rename_i hc
    have := le hc.2
    simp at h this
    omega
  · split at h
    · rename_i hc
      have := le hc.2
      simp at h this
      omega
    · split at h
      · rename_i hc
        have := le hc.2
        simp at h this
        omega
      · simp at h

end SwapFloor.Text
