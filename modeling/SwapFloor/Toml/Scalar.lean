import SwapFloor.Json.Basic
import SwapFloor.Text.Double
import SwapFloor.Text.Hex

/-!
# Scalars in TOML

Strings of four kinds, numbers, truth values, dates and times, and keys. Each reader takes the
characters that are left and gives what it read together with the rest. Dates and times are
given as text in their normal form.
-/

namespace SwapFloor.Toml

open SwapFloor.Text (digitsValue hexVal? hexValue? isDigit isHexDigit)

/-- Reads a value from the front of a text. -/
abbrev Reader (α : Type) := List Char → Option (α × List Char)

/-! ## Blanks and comments -/

/-- A blank within a line. -/
def isBlank (c : Char) : Bool := c == ' ' || c == '\t'

/-- A character that may stand in a comment or, apart from quotes and escapes, in a string. -/
def isPrintable (c : Char) : Bool := c == '\t' || (' ' ≤ c && c != '\x7f')

/-- Passes over blanks. -/
def skipBlanks (cs : List Char) : List Char := cs.dropWhile isBlank

/-- Passes over a comment, if there is one, up to the end of its line. -/
def skipComment (cs : List Char) : List Char :=
  match cs with
  | '#' :: rest => rest.dropWhile isPrintable
  | cs => cs

/-- Passes over the end of a line. -/
def newline? : List Char → Option (List Char)
  | '\n' :: rest => some rest
  | '\r' :: '\n' :: rest => some rest
  | _ => none

/-- Passes over blanks, comments and ends of lines. -/
def skipLines : Nat → List Char → List Char
  | 0, cs => cs
  | fuel + 1, cs =>
    let rest := skipComment (skipBlanks cs)
    match newline? rest with
    | some rest => skipLines fuel rest
    | none => rest

/-! ## Strings -/

/-- The character with a code of `size` hexadecimal digits. -/
def codePoint (size : Nat) (cs : List Char) : Option (Char × List Char) := do
  let ds := cs.take size
  if ds.length < size then none
  else
    let n ← hexValue? ds
    if n < 0x110000 ∧ ¬(0xD800 ≤ n ∧ n < 0xE000) then some (Char.ofNat n, cs.drop size) else none

/-- The character of an escape behind its backslash. -/
def escape : Reader Char
  | 'b' :: rest => some ('\x08', rest)
  | 't' :: rest => some ('\t', rest)
  | 'n' :: rest => some ('\n', rest)
  | 'f' :: rest => some ('\x0c', rest)
  | 'r' :: rest => some ('\r', rest)
  | '"' :: rest => some ('"', rest)
  | '\\' :: rest => some ('\\', rest)
  | 'u' :: rest => codePoint 4 rest
  | 'U' :: rest => codePoint 8 rest
  | _ => none

/-- The rest of a string in double quotes on one line; `acc` is reversed. -/
def basicTail (acc : List Char) : Nat → Reader (List Char)
  | 0, _ => none
  | _, [] => none
  | fuel + 1, c :: rest =>
    if c = '"' then some (acc.reverse, rest)
    else if c = '\\' then (escape rest).bind fun (e, rest) => basicTail (e :: acc) fuel rest
    else if isPrintable c then basicTail (c :: acc) fuel rest
    else none

/-- The rest of a string in single quotes on one line. -/
def literalTail (cs : List Char) : Option (List Char × List Char) :=
  let body := cs.takeWhile fun c => isPrintable c && c != '\x27'
  match cs.drop body.length with
  | '\x27' :: rest => some (body, rest)
  | _ => none

/-- Up to two quotes in front of the three that end a long string. -/
def closingQuotes (q : Char) (acc cs : List Char) : Option (List Char × List Char) :=
  let quotes := (cs.takeWhile (· == q)).length
  if 3 ≤ quotes ∧ quotes ≤ 5 then
    some (acc.reverse ++ List.replicate (quotes - 3) q, cs.drop quotes)
  else none

/-- Passes over the blanks and the ends of lines behind a backslash that ends a line. -/
def skipFold (cs : List Char) : Option (List Char) :=
  (newline? (skipBlanks cs)).map fun rest =>
    rest.dropWhile fun c => isBlank c || c == '\n' || c == '\r'

/-- The rest of a long string in quotes `q`; only one in double quotes has escapes. -/
def longTail (q : Char) (acc : List Char) : Nat → Reader (List Char)
  | 0, _ => none
  | _, [] => none
  | fuel + 1, c :: rest =>
    if c = q then
      match rest with
      | d :: e :: _ =>
        if d = q ∧ e = q then closingQuotes q acc (c :: rest) else longTail q (c :: acc) fuel rest
      | _ => longTail q (c :: acc) fuel rest
    else if c = '\\' ∧ q = '"' then
      match escape rest with
      | some (e, rest) => longTail q (e :: acc) fuel rest
      | none => (skipFold rest).bind fun rest => longTail q acc fuel rest
    else if isPrintable c then longTail q (c :: acc) fuel rest
    else
      match newline? (c :: rest) with
      | some rest => longTail q ('\n' :: acc) fuel rest
      | none => none

/-- A long string behind its quotes; an end of line right behind them does not count. -/
def longString (q : Char) (cs : List Char) : Option (List Char × List Char) :=
  longTail q [] (cs.length + 1) ((newline? cs).getD cs)

/-- A string of any kind. -/
def string : Reader String := fun cs =>
  let read := match cs with
    | '"' :: '"' :: '"' :: rest => longString '"' rest
    | '"' :: rest => basicTail [] (rest.length + 1) rest
    | '\x27' :: '\x27' :: '\x27' :: rest => longString '\x27' rest
    | '\x27' :: rest => literalTail rest
    | _ => none
  read.map fun (body, rest) => (String.ofList body, rest)

/-! ## Keys -/

/-- A character of a key without quotes. -/
def isKeyChar (c : Char) : Bool :=
  ('a' ≤ c && c ≤ 'z') || ('A' ≤ c && c ≤ 'Z') || isDigit c || c == '_' || c == '-'

def simpleKey : Reader String := fun cs =>
  match cs with
  | '"' :: rest =>
    (basicTail [] (rest.length + 1) rest).map fun (k, rest) => (String.ofList k, rest)
  | '\x27' :: rest => (literalTail rest).map fun (k, rest) => (String.ofList k, rest)
  | cs =>
    let k := cs.takeWhile isKeyChar
    if k.isEmpty then none else some (String.ofList k, cs.drop k.length)

/-- Keys with dots between them. -/
def dottedKey : Nat → Reader (List String)
  | 0, _ => none
  | fuel + 1, cs => do
    let (k, rest) ← simpleKey (skipBlanks cs)
    match skipBlanks rest with
    | '.' :: rest =>
      let (ks, rest) ← dottedKey fuel rest
      some (k :: ks, rest)
    | rest => some ([k], rest)

/-! ## Numbers -/

/-- Digits with single underscores between them. -/
def spacedDigits? (isOk : Char → Bool) : List Char → Option (List Char)
  | [] => none
  | [c] => if isOk c then some [c] else none
  | c :: '_' :: rest => if isOk c then (spacedDigits? isOk rest).map (c :: ·) else none
  | c :: rest => if isOk c then (spacedDigits? isOk rest).map (c :: ·) else none

/-- Splits at the first character that satisfies `p`, which is kept apart. -/
def splitAtFirst (p : Char → Bool) (cs : List Char) : List Char × Option (List Char) :=
  let front := cs.takeWhile fun c => !p c
  match cs.drop front.length with
  | [] => (front, none)
  | _ :: rest => (front, some rest)

/-- An integer of 64 bits. -/
def asInteger (negative : Bool) (n : Nat) : Option Json :=
  let n : Int := if negative then -n else n
  if -2 ^ 63 ≤ n ∧ n < 2 ^ 63 then some (.int n) else none

/-- Digits in a base other than ten. -/
def basedInteger? (base : Nat) (isOk : Char → Bool) (cs : List Char) : Option Json := do
  let ds ← spacedDigits? isOk cs
  let n ← ds.foldlM (fun n c => (hexVal? c).map fun d => n * base + d) 0
  asInteger false n

/-- A whole part: digits without a leading zero, unless it is the only one. -/
def wholePart? (cs : List Char) : Option (List Char) := do
  let ds ← spacedDigits? isDigit cs
  if ds.head? = some '0' ∧ 1 < ds.length then none else some ds

/-- A decimal number behind its sign. -/
def decimalNumber? (negative : Bool) (cs : List Char) : Option Json := do
  let signed := fun (x : Float) => Json.float (if negative then -x else x)
  if cs = ['i', 'n', 'f'] then some (signed (1.0 / 0.0))
  else if cs = ['n', 'a', 'n'] then some (signed (0.0 / 0.0))
  else
    let (mantissa, exponent) := splitAtFirst (fun c => c == 'e' || c == 'E') cs
    let (whole, fraction) := splitAtFirst (· == '.') mantissa
    let whole ← wholePart? whole
    match fraction, exponent with
    | none, none => asInteger negative (digitsValue whole)
    | _, _ =>
      let fraction ← match fraction with
        | some f => spacedDigits? isDigit f
        | none => some []
      let e ← match exponent with
        | none => some 0
        | some ('+' :: e) => (spacedDigits? isDigit e).map fun ds => (digitsValue ds : Int)
        | some ('-' :: e) => (spacedDigits? isDigit e).map fun ds => -(digitsValue ds : Int)
        | some e => (spacedDigits? isDigit e).map fun ds => (digitsValue ds : Int)
      let x := Text.scientific (digitsValue (whole ++ fraction)) (e - fraction.length)
      if x.isInf then none else some (signed x)

def number? (cs : List Char) : Option Json :=
  match cs with
  | '0' :: 'x' :: rest => basedInteger? 16 isHexDigit rest
  | '0' :: 'o' :: rest => basedInteger? 8 (fun c => '0' ≤ c && c ≤ '7') rest
  | '0' :: 'b' :: rest => basedInteger? 2 (fun c => c == '0' || c == '1') rest
  | '+' :: rest => decimalNumber? false rest
  | '-' :: rest => decimalNumber? true rest
  | rest => decimalNumber? false rest

/-! ## Dates and times -/

/-- The number of exactly `size` digits. -/
def fixedDigits? (size : Nat) (cs : List Char) : Option (Nat × List Char) :=
  let ds := cs.take size
  if ds.length = size ∧ ds.all isDigit then some (digitsValue ds, cs.drop size) else none

def daysIn (year month : Nat) : Nat :=
  if month = 2 then
    if (year % 4 = 0 ∧ year % 100 ≠ 0) ∨ year % 400 = 0 then 29 else 28
  else if month = 4 ∨ month = 6 ∨ month = 9 ∨ month = 11 then 30
  else 31

/-- Passes over one given character. -/
def expect (c : Char) : List Char → Option (List Char)
  | d :: rest => if d = c then some rest else none
  | [] => none

/-- A date in its normal form. -/
def date : Reader (List Char) := fun cs => do
  let (y, rest) ← fixedDigits? 4 cs
  let (m, rest) ← fixedDigits? 2 (← expect '-' rest)
  let (d, rest) ← fixedDigits? 2 (← expect '-' rest)
  if 1 ≤ m ∧ m ≤ 12 ∧ 1 ≤ d ∧ d ≤ daysIn y m then
    some (Text.padded 4 y ++ ['-'] ++ Text.padded 2 m ++ ['-'] ++ Text.padded 2 d, rest)
  else none

/-- The fraction of a second: nine digits count, and zeros at the end are left out. -/
def fractionText (ds : List Char) : List Char :=
  let kept := ((ds.take 9).reverse.dropWhile (· == '0')).reverse
  if kept.isEmpty then [] else '.' :: kept

/-- A time of day in its normal form. -/
def time : Reader (List Char) := fun cs => do
  let (h, rest) ← fixedDigits? 2 cs
  let (m, rest) ← fixedDigits? 2 (← expect ':' rest)
  let (s, rest) ← fixedDigits? 2 (← expect ':' rest)
  let (fraction, rest) ← match rest with
    | '.' :: rest =>
      let ds := rest.takeWhile isDigit
      if ds.isEmpty then none else some (fractionText ds, rest.drop ds.length)
    | rest => some ([], rest)
  if h ≤ 23 ∧ m ≤ 59 ∧ s ≤ 60 then
    some (Text.padded 2 h ++ [':'] ++ Text.padded 2 m ++ [':'] ++ Text.padded 2 s ++ fraction,
      rest)
  else none

/-- The distance from Greenwich. -/
def offset : Reader (List Char) := fun cs =>
  match cs with
  | 'Z' :: rest => some (['Z'], rest)
  | 'z' :: rest => some (['Z'], rest)
  | s :: rest =>
    if s = '+' ∨ s = '-' then do
      let (h, rest) ← fixedDigits? 2 rest
      let (m, rest) ← fixedDigits? 2 (← expect ':' rest)
      if h ≤ 23 ∧ m ≤ 59 then
        some ([s] ++ Text.padded 2 h ++ [':'] ++ Text.padded 2 m, rest)
      else none
    else none
  | [] => none

/-- A date, a time, or both, with an offset or without. -/
def moment : Reader (List Char) := fun cs =>
  match date cs with
  | none => time cs
  | some (d, rest) =>
    match rest with
    | sep :: more =>
      if sep = 'T' ∨ sep = 't' ∨ sep = ' ' then
        match time more with
        | some (t, more) =>
          match offset more with
          | some (o, more) => some (d ++ ['T'] ++ t ++ o, more)
          | none => some (d ++ ['T'] ++ t, more)
        | none => if sep = ' ' then some (d, rest) else none
      else some (d, rest)
    | [] => some (d, [])

/-- A character of a number or a word. -/
def isTokenChar (c : Char) : Bool := isKeyChar c || c == '+' || c == '.'

/-- A scalar that is no string. -/
def plainScalar : Reader Json := fun cs =>
  let startsMoment := match cs with
    | _ :: _ :: ':' :: _ => true
    | _ :: _ :: _ :: _ :: '-' :: _ => (cs.take 4).all isDigit
    | _ => false
  if startsMoment then (moment cs).map fun (t, rest) => (.str (String.ofList t), rest)
  else
    let token := cs.takeWhile isTokenChar
    let rest := cs.drop token.length
    if token = ['t', 'r', 'u', 'e'] then some (.bool true, rest)
    else if token = ['f', 'a', 'l', 's', 'e'] then some (.bool false, rest)
    else (number? token).map fun j => (j, rest)

end SwapFloor.Toml
