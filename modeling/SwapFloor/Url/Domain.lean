import SwapFloor.Text.Blank
import SwapFloor.Text.LowerCase
import SwapFloor.Url.Punycode

/-!
# Domains

A domain is compared in a form of its own: in lower case, with wide letters and dots as plain
ones, and without characters that are not shown. A label that starts with `xn--` holds other
letters in Punycode.
-/

namespace SwapFloor.Url.Domain

/-- A character within one of several ranges. -/
def inRanges (ranges : List (Nat × Nat)) (c : Char) : Bool :=
  ranges.any fun r => r.1 ≤ c.toNat && c.toNat ≤ r.2

/-- Characters that are left out. -/
def ignored : List (Nat × Nat) :=
  [(0xAD, 0xAD), (0x34F, 0x34F), (0x180B, 0x180D), (0x180F, 0x180F), (0x200B, 0x200B),
    (0x2060, 0x2060), (0x2064, 0x2064), (0xFE00, 0xFE0F), (0xFEFF, 0xFEFF), (0xE0100, 0xE01EF)]

/-- Characters that no domain has: controls, blanks, marks of direction, joiners, private ones
and those that stand for nothing. -/
def forbidden : List (Nat × Nat) :=
  [(0x80, 0x9F), (0x200C, 0x200F), (0x2028, 0x202E), (0x2061, 0x2063), (0x2065, 0x206F),
    (0xE000, 0xF8FF), (0xFDD0, 0xFDEF), (0xFFF9, 0xFFFF), (0x1FFFE, 0x1FFFF),
    (0x2FFFE, 0x2FFFF), (0x3FFFE, 0xE00FF), (0xE01F0, 0x10FFFF)]

/-- Marks that go with the character before them, so that no label starts with one. -/
def marks : List (Nat × Nat) :=
  [(0x300, 0x36F), (0x483, 0x489), (0x591, 0x5BD), (0x610, 0x61A), (0x64B, 0x65F), (0x670, 0x670),
    (0x900, 0x903), (0x93A, 0x93C), (0x93E, 0x94F), (0xE31, 0xE31), (0xE34, 0xE3A),
    (0xE47, 0xE4E), (0x1AB0, 0x1ACE), (0x1DC0, 0x1DFF), (0x20D0, 0x20F0), (0x302A, 0x302F),
    (0x3099, 0x309A), (0xFE20, 0xFE2F)]

/-- The form of a character in which it is compared, none if no domain has it. -/
def mapped? (c : Char) : Option (List Char) :=
  let n := c.toNat
  if n < 0x80 then some [Text.lowerChar c]
  else if inRanges ignored c then some []
  else if Text.isBlank c || inRanges forbidden c then none
  else if n = 0x3002 ∨ n = 0xFF61 then some ['.']
  else if 0xFF01 ≤ n ∧ n ≤ 0xFF5E then some [Text.lowerChar (Char.ofNat (n - 0xFEE0))]
  else if n = 0x1E9E then some ['s', 's']
  else some [Text.lowerChar c]

/-- ASCII characters that no domain has. -/
def isDenied (c : Char) : Bool :=
  c.toNat ≤ 0x20 || c == '\x7f' || "%#/:<>?@[\\]^|".toList.contains c

/-- A character outside ASCII. -/
def isForeign (c : Char) : Bool := 0x80 ≤ c.toNat

/-- A label of other letters: characters in the form in which they are compared, not all ASCII. -/
def isForeignLabel (cs : List Char) : Bool :=
  cs.any isForeign && cs.all (fun c => mapped? c == some [c])
    && !(cs.head?.map (inRanges marks)).getD false

/-- A label in the form in which it is compared. -/
def isLabel (cs : List Char) : Bool :=
  match cs with
  | 'x' :: 'n' :: '-' :: '-' :: rest =>
    !rest.any isForeign && match Punycode.decode? rest with
      | some ds => isForeignLabel ds
      | none => false
  | cs => !(cs.head?.map (inRanges marks)).getD false

/-- The form of a domain in which it is compared, none if it is no domain. -/
def normal? (s : String) : Option (List Char) := do
  let cs ← s.toList.mapM mapped?
  let cs := cs.flatten
  let labels := (String.ofList cs).splitOn "."
  if cs.any isDenied || !labels.all (fun l => isLabel l.toList) then none else some cs

end SwapFloor.Url.Domain
