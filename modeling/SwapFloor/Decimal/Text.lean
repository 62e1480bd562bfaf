import SwapFloor.Decimal.Basic
import SwapFloor.Text.Numeral

/-!
# Decimals as text

A decimal is written with exactly its scale of fraction digits. It is read from an optional
sign, digits with an optional point, and underscores after the first digit; digits beyond the
28th place, or beyond what the coefficient holds, round half up. An exponent of ten may follow.
-/

namespace SwapFloor.Decimal

open SwapFloor.Text (digits digitVal? unsigned?)

/-! ## Writing -/

/-- The characters of a decimal: sign, integer part, and as many fraction digits as its scale. -/
def chars (d : Decimal) : List Char :=
  let ds := digits d.coeff
  let padded := List.replicate (d.scale + 1 - ds.length) '0' ++ ds
  let whole := padded.take (padded.length - d.scale)
  let fraction := padded.drop (padded.length - d.scale)
  let sign := if d.negative then ['-'] else []
  sign ++ whole ++ (if d.scale = 0 then [] else '.' :: fraction)

def text (d : Decimal) : String := String.ofList d.chars

/-! ## Reading -/

/-- Rounds half up at the first character that no longer fits. A coefficient that rounding
carries out of range gives up one more fraction digit. -/
def roundAt (negative : Bool) (coeff scale : Nat) (point : Bool) (next : Char) :
    Option Decimal := do
  let digit ← if next = '_' || (next = '.' && point) then some 0 else digitVal? next
  if digit < 5 then ofParts? negative coeff scale
  else if coeff + 1 < 2 ^ 96 then ofParts? negative (coeff + 1) scale
  else if scale = 0 then none
  else ofParts? negative ((coeff + 5) / 10) (scale - 1)

/-- Reads digits, one point and underscores; `started` says that a digit was read before. -/
def readFrom (negative point started : Bool) (coeff scale : Nat) :
    List Char → Option Decimal
  | [] => if started then ofParts? negative coeff scale else none
  | c :: rest =>
    match digitVal? c with
    | some digit =>
      if point && scale == 28 then roundAt negative coeff scale point c
      else if coeff * 10 + digit < 2 ^ 96 then
        readFrom negative point true (coeff * 10 + digit) (if point then scale + 1 else 0) rest
      else if point then roundAt negative coeff scale point c
      else none
    | none =>
      if point && scale == 28 then roundAt negative coeff scale point c
      else if c = '.' && !point then readFrom negative true started coeff scale rest
      else if c = '_' && started then readFrom negative point started coeff scale rest
      else none

/-- Reads a decimal without an exponent. -/
def ofPlainChars? : List Char → Option Decimal
  | '-' :: cs => readFrom true false false 0 0 cs
  | '+' :: cs => readFrom false false false 0 0 cs
  | cs => readFrom false false false 0 0 cs

/-- Moves the point of `d` by a written exponent. -/
def shiftBy (d : Decimal) : List Char → Option Decimal
  | '-' :: cs => do
    let n ← unsigned? cs
    if h : d.scale + n ≤ 28 then some { d with scale := d.scale + n, scale_le := h } else none
  | cs => do
    let n ← unsigned? cs
    if n ≤ d.scale then
      some { d with
        scale := d.scale - n, scale_le := Nat.le_trans (Nat.sub_le ..) d.scale_le }
    else if n ≤ 28 then (d.timesPowerOfTen n).map normalize
    else none

/-- Reads a decimal, with or without an exponent after `e` or `E`. -/
def ofChars? (cs : List Char) : Option Decimal :=
  match ofPlainChars? cs with
  | some d => some d
  | none =>
    let isMark := fun c : Char => c == 'e' || c == 'E'
    match cs.dropWhile fun c => !isMark c with
    | [] => none
    | _ :: exponent => do
      let d ← ofPlainChars? (cs.takeWhile fun c => !isMark c)
      d.shiftBy exponent

/-- Reads a decimal. -/
def ofText? (s : String) : Option Decimal := ofChars? s.toList

end SwapFloor.Decimal
