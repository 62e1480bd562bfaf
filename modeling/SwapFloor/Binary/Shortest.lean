import SwapFloor.Text.Numeral

/-!
# The shortest decimal of a binary number

A finite double is `m * 2 ^ q`. The reals that round to it form an interval around it, closed
iff `m` is even. Its shortest decimal is a point of the coarsest decimal grid that has one in
that interval, and of those the nearest to the number itself.

Two written forms are given: one that turns to an exponent for large and small numbers, and one
that never does.
-/

namespace SwapFloor.Binary

open SwapFloor.Text (digits natText)

/-- The parts of a finite double: `± m * 2 ^ q`, with `narrow` set when the next smaller double
is only half as far away as the next larger one. -/
structure Parts where
  negative : Bool
  m : Nat
  q : Int
  narrow : Bool

/-- The parts of a double, none for an infinity or a NaN. -/
def parts? (x : Float) : Option Parts :=
  let bits : Nat := x.toBits.toNat
  let negative := bits / 2 ^ 63 == 1
  let field : Nat := bits / 2 ^ 52 % 2 ^ 11
  let fraction : Nat := bits % 2 ^ 52
  if field = 2047 then none
  else if field = 0 then some ⟨negative, fraction, -1074, false⟩
  else some ⟨negative, fraction + 2 ^ 52, Int.ofNat field - 1075, fraction == 0 && field != 1⟩

/-- A positive rational number. -/
structure Ratio where
  num : Nat
  den : Nat

/-- `m * 2 ^ q`. -/
def Ratio.ofBinary (m : Nat) (q : Int) : Ratio := ⟨m * Nat.pow 2 q.toNat, Nat.pow 2 (-q).toNat⟩

/-- `r / 10 ^ e`. -/
def Ratio.scaleDown (r : Ratio) (e : Int) : Ratio :=
  ⟨r.num * Nat.pow 10 (-e).toNat, r.den * Nat.pow 10 e.toNat⟩

/-- `r ≤ s`. -/
def Ratio.le (r s : Ratio) : Bool := r.num * s.den ≤ s.num * r.den

/-- `r < s`. -/
def Ratio.lt (r s : Ratio) : Bool := r.num * s.den < s.num * r.den

/-- How many times, at most `fuel`, a fraction below one is multiplied by ten to reach one. -/
def timesToOne (num den : Nat) : Nat → Nat
  | 0 => 0
  | fuel + 1 => if den ≤ num then 0 else timesToOne (num * 10) den fuel + 1

/-- The least `k` with `r < 10 ^ k`. -/
def Ratio.magnitude (r : Ratio) : Int :=
  if r.den ≤ r.num then ((digits (r.num / r.den)).length : Int)
  else 1 - (timesToOne r.num r.den 400 : Int)

/-- `c` units, of grid step one, lie in the interval. -/
def within (low high : Ratio) (closed : Bool) (c : Nat) : Bool :=
  let p : Ratio := ⟨c, 1⟩
  if closed then low.le p && p.le high else low.lt p && p.lt high

/-- The nearer to `r` of two neighbouring grid points; the even one of two equally near. -/
def nearer (r : Ratio) (c : Nat) : Nat :=
  let twice : Nat := 2 * r.num
  let middle := (2 * c + 1) * r.den
  if twice < middle then c else if middle < twice then c + 1 else c + c % 2

/-- A point of the grid with step `10 ^ e` in the interval around `x`. -/
def onGrid (x low high : Ratio) (closed : Bool) (e : Int) : Option Nat :=
  let r := x.scaleDown e
  let l := low.scaleDown e
  let h := high.scaleDown e
  let c := r.num / r.den
  match within l h closed c, within l h closed (c + 1) with
  | true, true => some (nearer r c)
  | true, false => some c
  | false, true => some (c + 1)
  | false, false => none

/-- Tries grids from coarse to fine. -/
def search (x low high : Ratio) (closed : Bool) (e : Int) : Nat → Nat × Int
  | 0 => let r := x.scaleDown e; (r.num / r.den, e)
  | fuel + 1 =>
    match onGrid x low high closed e with
    | some c => (c, e)
    | none => search x low high closed (e - 1) fuel

/-- The shortest decimal `c * 10 ^ e` of a positive number, as `(c, e)`. -/
def Parts.shortest (p : Parts) : Nat × Int :=
  let x := Ratio.ofBinary p.m p.q
  let high := Ratio.ofBinary (2 * p.m + 1) (p.q - 1)
  let low :=
    if p.narrow then Ratio.ofBinary (4 * p.m - 1) (p.q - 2)
    else Ratio.ofBinary (2 * p.m - 1) (p.q - 1)
  search x low high (p.m % 2 == 0) (x.magnitude - 1) 17

/-- Removes trailing zeros from a coefficient. -/
def stripZeros (c : Nat) (e : Int) : Nat → Nat × Int
  | 0 => (c, e)
  | fuel + 1 => if c % 10 = 0 ∧ c ≠ 0 then stripZeros (c / 10) (e + 1) fuel else (c, e)

/-- The digits of the shortest decimal and the place of the point counted from their start. -/
def Parts.digitsAndPoint (p : Parts) : List Char × Int :=
  if p.m = 0 then (['0'], 1)
  else
    let (c, e) := p.shortest
    let (c, e) := stripZeros c e 20
    let ds := digits c
    (ds, ds.length + e)

/-- Positional notation: no exponent, and no point in a whole number. -/
def plainChars (ds : List Char) (point : Int) : List Char :=
  if point ≤ 0 then '0' :: '.' :: (List.replicate (-point).toNat '0' ++ ds)
  else
    let n := point.toNat
    if ds.length ≤ n then ds ++ List.replicate (n - ds.length) '0'
    else ds.take n ++ '.' :: ds.drop n

/-- The sign of a number that is written with one. -/
def Parts.signChars (p : Parts) : List Char := if p.negative then ['-'] else []

/-- A finite double in positional notation; an infinity or a NaN by its name. -/
def plainText (x : Float) : String :=
  match parts? x with
  | none => if x.isNaN then "NaN" else if x < 0 then "-inf" else "inf"
  | some p => let (ds, point) := p.digitsAndPoint; String.ofList (p.signChars ++ plainChars ds point)

/-- A finite double that always shows a point or an exponent. The exponent stands from `10 ^ 16`
on and below `10 ^ -5`, with a sign and at least two digits. -/
def floatText (x : Float) : String :=
  match parts? x with
  | none => "null"
  | some p =>
    let (ds, point) := p.digitsAndPoint
    let body :=
      if p.m = 0 then ['0', '.', '0']
      else if -4 ≤ point ∧ point ≤ 16 then
        let plain := plainChars ds point
        if plain.contains '.' then plain else plain ++ ['.', '0']
      else
        let exponent := point - 1
        let shown := if ds.length = 1 then ds else ds.take 1 ++ '.' :: ds.drop 1
        let sign := if exponent < 0 then '-' else '+'
        let places := digits exponent.natAbs
        let places := if places.length < 2 then '0' :: places else places
        shown ++ 'e' :: sign :: places
    String.ofList (p.signChars ++ body)

end SwapFloor.Binary
