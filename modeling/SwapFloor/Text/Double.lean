import SwapFloor.Text.Numeral

/-!
# Doubles as text

A double is read from an optional sign and either a word for an infinity or for no number, or
digits with an optional point among or next to them and an optional exponent.
-/

namespace SwapFloor.Text

/-- A letter `A` to `Z` as its lower case. -/
def lowerLetter (c : Char) : Char :=
  if 'A' ≤ c ∧ c ≤ 'Z' then Char.ofNat (c.toNat + 32) else c

/-- The number of digits, zero for none. -/
def digitsValue (cs : List Char) : Nat := cs.foldl (fun n c => n * 10 + (c.toNat - 48)) 0

/-- The exponent behind its mark, zero in its absence. -/
def exponent? : List Char → Option Int
  | [] => some 0
  | c :: rest => if c = 'e' ∨ c = 'E' then signed? rest else none

/-- The double `digits * 10 ^ exponent`. An exponent so large that only the sign of it counts is
cut off. -/
def scientific (digits : Nat) (exponent : Int) : Float :=
  let limit := 100000
  if digits = 0 then 0.0
  else if exponent < -limit then 0.0
  else if limit < exponent then 1.0 / 0.0
  else if 0 ≤ exponent then Float.ofScientific digits false exponent.toNat
  else Float.ofScientific digits true (-exponent).toNat

/-- A double without a sign. -/
def unsignedDouble? (cs : List Char) : Option Float :=
  let word := cs.map lowerLetter
  if word = ['i', 'n', 'f'] ∨ word = ['i', 'n', 'f', 'i', 'n', 'i', 't', 'y'] then
    some (1.0 / 0.0)
  else if word = ['n', 'a', 'n'] then some (0.0 / 0.0)
  else
    let whole := cs.takeWhile isDigit
    let rest := cs.dropWhile isDigit
    let (fraction, rest) := match rest with
      | '.' :: rest => (rest.takeWhile isDigit, rest.dropWhile isDigit)
      | rest => ([], rest)
    if whole.isEmpty && fraction.isEmpty then none
    else (exponent? rest).map fun e =>
      scientific (digitsValue (whole ++ fraction)) (e - fraction.length)

/-- The double that a text denotes. -/
def double? (s : String) : Option Float :=
  match s.toList with
  | '+' :: cs => unsignedDouble? cs
  | '-' :: cs => (unsignedDouble? cs).map fun x => -x
  | cs => unsignedDouble? cs

end SwapFloor.Text
