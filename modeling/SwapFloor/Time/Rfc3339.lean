import SwapFloor.Text.Blank
import SwapFloor.Text.Numeral
import SwapFloor.Time.Calendar
import SwapFloor.Time.Instant

/-!
# Timestamps as text

Instants are written in UTC with a final `Z` and zero, three, six or nine fraction digits, as
few as are exact. They are read with any offset, with blanks between the parts, and with a
space or a lower-case letter for the `T` and the `Z`.
-/

namespace SwapFloor.Time

open SwapFloor.Text (padded isBlank isDigit natText)
open SwapFloor.Calendar (Date)

/-! ## Writing -/

/-- A year in four digits, outside of these with a sign. -/
def yearChars (y : Int) : List Char :=
  if 0 ≤ y ∧ y ≤ 9999 then padded 4 y.toNat
  else (if y < 0 then '-' else '+') :: padded 4 y.natAbs

/-- The fraction digits of a second with the point before them, none when it is whole. -/
def fractionChars (nanos : Nat) : List Char :=
  if nanos = 0 then []
  else if nanos % 1000000 = 0 then '.' :: padded 3 (nanos / 1000000)
  else if nanos % 1000 = 0 then '.' :: padded 6 (nanos / 1000)
  else '.' :: padded 9 nanos

/-- The date and the time of day in UTC. -/
def dateTimeChars (t : Instant) : List Char :=
  let s := t.seconds
  let date := Date.ofDayNumber (s.fdiv 86400)
  let ofDay := (s.fmod 86400).toNat
  let second := ofDay % 60 + (if t.leap then 1 else 0)
  yearChars date.year ++ '-' :: padded 2 date.month ++ '-' :: padded 2 date.day ++ 'T' ::
    padded 2 (ofDay / 3600) ++ ':' :: padded 2 (ofDay / 60 % 60) ++ ':' :: padded 2 second ++
    fractionChars t.subsec

def text (t : Instant) : String := String.ofList (dateTimeChars t ++ ['Z'])

/-- The text of an instant with the offset spelled out. -/
def offsetText (t : Instant) : String := String.ofList (dateTimeChars t ++ "+00:00".toList)

/-! ## Reading -/

/-- Why a text is no timestamp. -/
inductive Fault where
  | tooShort
  | tooLong
  | invalid
  | outOfRange
  | impossible
  deriving DecidableEq

def Fault.message : Fault → String
  | .tooShort => "premature end of input"
  | .tooLong => "trailing input"
  | .invalid => "input contains invalid characters"
  | .outOfRange => "input is out of range"
  | .impossible => "no possible date and time matching input"

/-- Passes over blanks. -/
def skip (cs : List Char) : List Char := cs.dropWhile isBlank

/-- Reads at least one and at most `width` digits below `2 ^ 63`. -/
def readDigits (width : Nat) (cs : List Char) : Except Fault (Nat × List Char) :=
  match cs with
  | [] => .error .tooShort
  | c :: _ =>
    if isDigit c then
      let ds := (cs.take width).takeWhile isDigit
      let n := ds.foldl (fun n c => n * 10 + (c.toNat - 48)) 0
      if n < 2 ^ 63 then .ok (n, cs.drop ds.length) else .error .outOfRange
    else .error .invalid

/-- Reads a number within bounds after blanks. -/
def readField (low high : Nat) (cs : List Char) : Except Fault (Nat × List Char) := do
  let (n, cs) ← readDigits 2 (skip cs)
  if low ≤ n ∧ n ≤ high then pure (n, cs) else .error .outOfRange

/-- Reads one given character after blanks. -/
def readMark (mark : Char) (cs : List Char) : Except Fault (List Char) :=
  match skip cs with
  | [] => .error .tooShort
  | c :: rest => if c = mark then .ok rest else .error .invalid

/-- Reads a year; one with a sign may have any number of digits. -/
def readYear (cs : List Char) : Except Fault (Int × List Char) := do
  let (y, cs) ← match skip cs with
    | '-' :: cs => do
      let (n, cs) ← readDigits cs.length cs
      pure (-(n : Int), cs)
    | '+' :: cs => do
      let (n, cs) ← readDigits cs.length cs
      pure ((n : Int), cs)
    | cs => do
      let (n, cs) ← readDigits 4 cs
      pure ((n : Int), cs)
  if -2 ^ 31 ≤ y ∧ y < 2 ^ 31 then pure (y, cs) else .error .outOfRange

/-- Reads the fraction of a second in nanoseconds; digits beyond the ninth do not count. -/
def readFraction (cs : List Char) : Except Fault (Nat × List Char) :=
  match cs with
  | '.' :: cs => do
    let (n, rest) ← readDigits 9 cs
    let places := cs.length - rest.length
    pure (n * Nat.pow 10 (9 - places), rest.dropWhile isDigit)
  | cs => .ok (0, cs)

/-- Reads the two digits of a part of an offset. -/
def readPair (cs : List Char) : Except Fault (Nat × Nat × List Char) :=
  match cs with
  | a :: b :: rest =>
    if isDigit a && isDigit b then .ok (a.toNat - 48, b.toNat - 48, rest) else .error .invalid
  | _ => .error .tooShort

/-- Reads an offset from UTC in seconds. -/
def readOffset (cs : List Char) : Except Fault (Int × List Char) :=
  match cs with
  | 'Z' :: rest => .ok (0, rest)
  | 'z' :: rest => .ok (0, rest)
  | [] => .error .tooShort
  | sign :: rest =>
    let named := ((sign :: rest).take 3).map Char.toUpper
    if named = ['U', 'T', 'C'] then .ok (0, rest.drop 2)
    else if sign = '+' ∨ sign = '-' ∨ sign = '−' then do
      let (a, b, rest) ← readPair rest
      let rest := rest.dropWhile fun c => c == ':' || isBlank c
      let (c, d, rest) ← readPair rest
      if 6 ≤ c then .error .outOfRange
      else
        let span : Int := ((a * 10 + b) * 3600 + (c * 10 + d) * 60 : Nat)
        pure (if sign = '+' then span else -span, rest)
    else .error .invalid

def readChars (cs : List Char) : Except Fault Instant := do
  let (year, cs) ← readYear cs
  let cs ← readMark '-' cs
  let (month, cs) ← readField 1 12 cs
  let cs ← readMark '-' cs
  let (day, cs) ← readField 1 31 cs
  let cs ← match cs with
    | [] => .error .tooShort
    | c :: rest => if c = 'T' ∨ c = 't' ∨ c = ' ' then pure rest else .error .invalid
  let (hour, cs) ← readField 0 23 cs
  let cs ← readMark ':' cs
  let (minute, cs) ← readField 0 59 cs
  let cs ← readMark ':' cs
  let (second, cs) ← readField 0 60 cs
  let (nanos, cs) ← readFraction cs
  let (offset, cs) ← readOffset (skip cs)
  if !(skip cs).isEmpty then .error .tooLong
  else
    let date : Date := ⟨year, month, day⟩
    if !date.isValid then .error .outOfRange
    else if 86400 ≤ offset.natAbs then .error .outOfRange
    else
      let leap := second == 60
      let shown : Int := (hour * 3600 + minute * 60 + (if leap then 59 else second) : Nat)
      let s := date.dayNumber * 86400 + shown - offset
      if Calendar.coversSecond s then
        pure ⟨s * Instant.perSecond + nanos, leap⟩
      else .error .impossible

def read (s : String) : Except Fault Instant := readChars s.toList

end SwapFloor.Time
