import SwapFloor.Text.Hex
import SwapFloor.Text.Numeral

/-!
# Numeric hosts

An IPv4 address has up to four parts in base ten, eight or sixteen, of which the last fills all
bytes that are left. An IPv6 address has eight groups of hexadecimal digits; two colons stand once
for a run of groups, and the last two groups may be written as an IPv4 address of four parts.
-/

namespace SwapFloor.Url

open SwapFloor.Text (hexValue? isDigit isHexDigit ofDigits?)

/-- The parts of a text between dots. -/
def splitDots (cs : List Char) : List (List Char) :=
  (String.ofList cs).splitOn "." |>.map String.toList

namespace Ipv4

/-- The number of a text in a base below ten, zero for an empty one. -/
def inBase? (base : Nat) (cs : List Char) : Option Nat :=
  cs.foldlM (fun n c =>
    if isDigit c && c.toNat - 48 < base then some (n * base + (c.toNat - 48)) else none) 0

/-- The number of a part: hexadecimal behind `0x`, octal behind `0`. -/
def part? : List Char → Option Nat
  | [] => none
  | '0' :: 'x' :: rest => hexValue? rest
  | '0' :: 'X' :: rest => hexValue? rest
  | '0' :: c :: rest => inBase? 8 (c :: rest)
  | cs => ofDigits? cs

/-- The parts, without an empty one at the end. -/
def parts (cs : List Char) : List (List Char) :=
  let ps := splitDots cs
  if 1 < ps.length ∧ ps.getLast? = some [] then ps.dropLast else ps

/-- The last part is a number, so that the whole has to be an address. -/
def isNumeric (cs : List Char) : Bool :=
  match (parts cs).getLast? with
  | some p => (!p.isEmpty && p.all isDigit) || (part? p).isSome
  | none => false

/-- The numbers fit into an address: one byte each, and the last one into the bytes left. -/
def fits : Nat → List Nat → Bool
  | _, [] => false
  | left, [n] => n < Nat.pow 256 left
  | left, n :: rest => n < 256 && 1 < left && fits (left - 1) rest

/-- An address. -/
def isValid (cs : List Char) : Bool :=
  match (parts cs).mapM part? with
  | some ns => fits 4 ns
  | none => false

/-- One byte in base ten without leading zeros. -/
def isByte (cs : List Char) : Bool :=
  match ofDigits? cs with
  | some n => n < 256 && (cs.length == 1 || cs.head? != some '0')
  | none => false

/-- Four bytes in base ten. -/
def isDottedQuad (cs : List Char) : Bool :=
  let ps := splitDots cs
  ps.length == 4 && ps.all isByte

end Ipv4

namespace Ipv6

/-- Reads groups after `count` of them. -/
def groups (count : Nat) (shortened : Bool) (cs : List Char) : Bool :=
  match cs with
  | [] => shortened || count == 8
  | c :: tail =>
    if count = 8 then false
    else if c = ':' then !shortened && groups (count + 1) true tail
    else
      let ds := ((c :: tail).take 4).takeWhile isHexDigit
      match _rest : (c :: tail).drop ds.length with
      | [] => shortened || count == 7
      | '.' :: _ =>
        !ds.isEmpty && count ≤ 6 && Ipv4.isDottedQuad (c :: tail) && (shortened || count == 6)
      | ':' :: rest => !rest.isEmpty && groups (count + 1) shortened rest
      | _ => false
termination_by cs.length
decreasing_by
  · simp
  · have := congrArg List.length _rest
    simp only [List.length_drop, List.length_cons] at this ⊢
    omega

/-- An address. -/
def isValid : List Char → Bool
  | ':' :: ':' :: rest => groups 1 true rest
  | ':' :: _ => false
  | cs => groups 0 false cs

end Ipv6

end SwapFloor.Url
