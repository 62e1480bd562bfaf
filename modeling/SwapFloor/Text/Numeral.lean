import SwapFloor.Power

/-!
# Decimal numerals

Reading and writing whole numbers in base ten. Main statement: reading a written number gives
it back (`ofDigits_digits`).
-/

namespace SwapFloor.Text

/-- The value of an ASCII digit. -/
def digitVal? (c : Char) : Option Nat :=
  if '0' ≤ c ∧ c ≤ '9' then some (c.toNat - '0'.toNat) else none

/-- An ASCII digit. -/
def isDigit (c : Char) : Bool := '0' ≤ c && c ≤ '9'

/-- The digit of a number below ten. -/
def digitChar (n : Nat) : Char := Char.ofNat ('0'.toNat + n)

/-- The base-ten digits of a number, most significant first; zero has one. -/
def digits (n : Nat) : List Char :=
  if n < 10 then [digitChar n] else digits (n / 10) ++ [digitChar (n % 10)]
termination_by n

/-- The number that a list of digits denotes, continuing from `acc`. -/
def ofDigitsFrom (acc : Nat) : List Char → Option Nat
  | [] => some acc
  | c :: cs => (digitVal? c).bind fun d => ofDigitsFrom (acc * 10 + d) cs

/-- The number that a non-empty list of digits denotes. -/
def ofDigits? (cs : List Char) : Option Nat := if cs.isEmpty then none else ofDigitsFrom 0 cs

/-- The numeral of a number. -/
def natText (n : Nat) : String := String.ofList (digits n)

/-- The numeral of an integer, with a minus sign if it is negative. -/
def intText (n : Int) : String := if n < 0 then "-" ++ natText n.natAbs else natText n.natAbs

/-- `n` in at least `width` digits, filled with zeros in front. -/
def padded (width n : Nat) : List Char :=
  let ds := digits n
  List.replicate (width - ds.length) '0' ++ ds

/-- Digits after an optional plus sign. -/
def unsigned? : List Char → Option Nat
  | '+' :: cs => ofDigits? cs
  | cs => ofDigits? cs

/-- Digits after an optional sign. -/
def signed? : List Char → Option Int
  | '+' :: cs => (ofDigits? cs).map fun n => (n : Int)
  | '-' :: cs => (ofDigits? cs).map fun n => -(n : Int)
  | cs => (ofDigits? cs).map fun n => (n : Int)

/-! ## Reading what was written -/

theorem digitVal?_digitChar {n : Nat} (h : n < 10) : digitVal? (digitChar n) = some n := by
  have : n = 0 ∨ n = 1 ∨ n = 2 ∨ n = 3 ∨ n = 4 ∨ n = 5 ∨ n = 6 ∨ n = 7 ∨ n = 8 ∨ n = 9 := by
    omega
  rcases this with rfl | rfl | rfl | rfl | rfl | rfl | rfl | rfl | rfl | rfl <;> decide

theorem ofDigitsFrom_append (acc : Nat) (xs ys : List Char) :
    ofDigitsFrom acc (xs ++ ys) = (ofDigitsFrom acc xs).bind fun a => ofDigitsFrom a ys := by
  induction xs generalizing acc with
  | nil => rfl
  | cons c cs ih =>
    simp only [List.cons_append, ofDigitsFrom]
    cases digitVal? c with
    | none => rfl
    | some d => exact ih _

theorem ofDigitsFrom_digits (n : Nat) : ofDigitsFrom 0 (digits n) = some n := by
  induction n using digits.induct with
  | case1 n h =>
    rw [digits, if_pos h]
    simp [ofDigitsFrom, digitVal?_digitChar h]
  | case2 n h ih =>
    rw [digits, if_neg h, ofDigitsFrom_append, ih]
    simp only [Option.bind_some, ofDigitsFrom, digitVal?_digitChar (Nat.mod_lt n (by decide))]
    congr 1
    omega

theorem digits_ne_nil (n : Nat) : digits n ≠ [] := by
  rw [digits]
  split <;> simp

/-- Reading the digits of a number gives it back. -/
theorem ofDigits_digits (n : Nat) : ofDigits? (digits n) = some n := by
  simp [ofDigits?, digits_ne_nil, ofDigitsFrom_digits]

end SwapFloor.Text
