import SwapFloor.Json.Basic
import SwapFloor.Text.Hex

/-!
# JSON as written

`Source.read` reads any text to the end or up to its first fault and keeps what a value no
longer shows: the order and repetition of members, numbers out of range, escapes that denote no
character, and the place of the fault. A reader that passes over parts of a text can then tell
what it would have met.

A number with at most 64 bits is an integer. Any other is a double: its first digits, as many as
64 bits hold, are converted and then multiplied or divided by a power of ten.
-/

namespace SwapFloor.Json

open SwapFloor.Text (hexVal? isDigit)

/-- What a text says, up to its first fault. -/
inductive Source where
  /-- The text stops being JSON here. -/
  | fault
  | null
  | bool (b : Bool)
  /-- A number, none if it is out of range. -/
  | number (value : Option Json)
  /-- A string, none if an escape in it denotes no character. -/
  | string (value : Option String)
  | array (items : List Source) (closed : Bool)
  | object (members : List (Option String × Source)) (closed : Bool)
  deriving Inhabited

/-- A step into a value. -/
inductive Segment where
  | key (name : String)
  | index (i : Nat)
  /-- To a member whose name has not been read. -/
  | unnamed
  deriving DecidableEq

/-! ## Numbers -/

/-- `10 ^ k` as a double. -/
def powerOfTen (k : Nat) : Float := Float.ofScientific 1 false k

/-- `significand * 10 ^ exponent`, none beyond the largest double. -/
def scaledFloat (significand : Float) (exponent : Int) : Nat → Option Float
  | 0 => some significand
  | fuel + 1 =>
    if exponent.natAbs ≤ 308 then
      if 0 ≤ exponent then
        let x := significand * powerOfTen exponent.natAbs
        if x.isInf then none else some x
      else some (significand / powerOfTen exponent.natAbs)
    else if significand == 0.0 then some significand
    else if 0 ≤ exponent then none
    else scaledFloat (significand / powerOfTen 308) (exponent + 308) fuel

/-- The double with the given decimal parts. -/
def floatOfParts (negative : Bool) (significand : Nat) (exponent : Int) : Option Json :=
  let exponent := if exponent < -100000 then -100000 else exponent
  (scaledFloat (Float.ofScientific significand false 0) exponent 400).map fun x =>
    .float (if negative then -x else x)

/-- Reads digits into a 64-bit significand; what no longer fits is only counted. -/
def takeDigits (significand : Nat) (taken dropped : Nat) (full : Bool) :
    List Char → Nat × Nat × Nat × List Char
  | [] => (significand, taken, dropped, [])
  | c :: cs =>
    if isDigit c then
      let next := significand * 10 + (c.toNat - 48)
      if full || 2 ^ 64 ≤ next then takeDigits significand taken (dropped + 1) true cs
      else takeDigits next (taken + 1) dropped false cs
    else (significand, taken, dropped, c :: cs)

/-- Reads the digits of an exponent; none if there are none. -/
def readExponent (cs : List Char) : Option (Bool × Nat × List Char) :=
  let (positive, cs) := match cs with
    | '+' :: cs => (true, cs)
    | '-' :: cs => (false, cs)
    | cs => (true, cs)
  let ds := cs.takeWhile isDigit
  if ds.isEmpty then none
  else some (positive, ds.foldl (fun n c => n * 10 + (c.toNat - 48)) 0, cs.dropWhile isDigit)

def finishNumber (negative : Bool) (significand : Nat) (exponent : Int) (cs : List Char) :
    Source × List Char :=
  match cs with
  | c :: rest =>
    if c = 'e' ∨ c = 'E' then
      match readExponent rest with
      | none => (.fault, [])
      | some (positive, n, rest) =>
        if 2 ^ 31 ≤ n then
          if positive ∧ significand ≠ 0 then (.number none, rest)
          else (.number (some (.float (if negative then -0.0 else 0.0))), rest)
        else
          (.number (floatOfParts negative significand
            (if positive then exponent + n else exponent - n)), rest)
    else (.number (floatOfParts negative significand exponent), cs)
  | [] => (.number (floatOfParts negative significand exponent), [])

/-- Reads the digits behind a point. -/
def readFraction (negative : Bool) (significand dropped : Nat) (cs : List Char) :
    Source × List Char :=
  let (significand', taken, ignored, rest) := takeDigits significand 0 0 false cs
  if taken + ignored = 0 then (.fault, [])
  else finishNumber negative significand' ((dropped : Int) - taken) rest

/-- Reads a number whose sign has been read. -/
def readNumber (negative : Bool) (cs : List Char) : Source × List Char :=
  match cs with
  | '0' :: d :: rest =>
    if isDigit d then (.fault, []) else readTail 0 0 (d :: rest)
  | ['0'] => readTail 0 0 []
  | c :: rest =>
    if isDigit c then
      let (significand, _, dropped, rest) := takeDigits 0 0 0 false (c :: rest)
      readTail significand dropped rest
    else (.fault, [])
  | [] => (.fault, [])
where
  /-- What follows the whole part. -/
  readTail (significand dropped : Nat) : List Char → Source × List Char
    | '.' :: rest => readFraction negative significand dropped rest
    | rest =>
      let marked := match rest with
        | c :: _ => c == 'e' || c == 'E'
        | [] => false
      if marked || 0 < dropped then finishNumber negative significand dropped rest
      else if !negative then (.number (some (.int significand)), rest)
      else if 0 < significand ∧ significand ≤ 2 ^ 63 then
        (.number (some (.int (-(significand : Int)))), rest)
      else finishNumber negative significand 0 rest

/-! ## Strings -/

/-- The 16-bit unit of four hexadecimal digits. -/
def hexUnit? : List Char → Option (Nat × List Char)
  | a :: b :: c :: d :: rest => do
    let a ← hexVal? a
    let b ← hexVal? b
    let c ← hexVal? c
    let d ← hexVal? d
    pure (((a * 16 + b) * 16 + c) * 16 + d, rest)
  | _ => none

/-- The character of an escape of one letter. -/
def escaped? : Char → Option Char
  | '"' => some '"'
  | '\\' => some '\\'
  | '/' => some '/'
  | 'b' => some '\x08'
  | 'f' => some '\x0c'
  | 'n' => some '\n'
  | 'r' => some '\r'
  | 't' => some '\t'
  | _ => none

/-- Reads a string up to its closing quote. The result is none at a fault; it holds no text if
an escape denotes no character. -/
def readString (acc : List Char) (sound : Bool) :
    Nat → List Char → Option (Option String × List Char)
  | 0, _ => none
  | _, [] => none
  | fuel + 1, c :: rest =>
    if c = '"' then some (if sound then some (String.ofList acc.reverse) else none, rest)
    else if c = '\\' then
      match rest with
      | 'u' :: rest =>
        match hexUnit? rest with
        | none => none
        | some (unit, rest) =>
          if 0xD800 ≤ unit ∧ unit < 0xDC00 then
            match rest with
            | '\\' :: 'u' :: more =>
              match hexUnit? more with
              | none => none
              | some (low, more) =>
                if 0xDC00 ≤ low ∧ low < 0xE000 then
                  let code := 0x10000 + (unit - 0xD800) * 0x400 + (low - 0xDC00)
                  readString (Char.ofNat code :: acc) sound fuel more
                else readString acc false fuel rest
            | _ => readString acc false fuel rest
          else if 0xDC00 ≤ unit ∧ unit < 0xE000 then readString acc false fuel rest
          else readString (Char.ofNat unit :: acc) sound fuel rest
      | e :: rest =>
        match escaped? e with
        | none => none
        | some ch => readString (ch :: acc) sound fuel rest
      | [] => none
    else if c.toNat < 0x20 then none
    else readString (c :: acc) sound fuel rest

/-! ## Values -/

/-- A blank between the parts of a JSON text. -/
def isGap (c : Char) : Bool := c == ' ' || c == '\n' || c == '\t' || c == '\r'

/-- Passes over blanks. -/
def skipGap (cs : List Char) : List Char := cs.dropWhile isGap

/-- What is left after a given beginning. -/
def after? : List Char → List Char → Option (List Char)
  | [], cs => some cs
  | _ :: _, [] => none
  | w :: ws, c :: cs => if w = c then after? ws cs else none

/-- Reads a word that has begun with a given letter. -/
def readWord (word : List Char) (value : Source) (cs : List Char) : Source × List Char :=
  match after? word cs with
  | some rest => (value, rest)
  | none => (.fault, [])

mutual
/-- Reads one value; `fuel` bounds its length. -/
def readValue : Nat → List Char → Source × List Char
  | 0, _ => (.fault, [])
  | fuel + 1, cs =>
    match skipGap cs with
    | [] => (.fault, [])
    | c :: rest =>
      if c = 'n' then readWord ['u', 'l', 'l'] .null rest
      else if c = 't' then readWord ['r', 'u', 'e'] (.bool true) rest
      else if c = 'f' then readWord ['a', 'l', 's', 'e'] (.bool false) rest
      else if c = '"' then
        match readString [] true (rest.length + 1) rest with
        | some (s, rest) => (.string s, rest)
        | none => (.fault, [])
      else if c = '[' then
        match skipGap rest with
        | ']' :: rest => (.array [] true, rest)
        | rest =>
          let (items, closed, rest) := readItems fuel rest
          (.array items closed, rest)
      else if c = '\x7b' then
        match skipGap rest with
        | '\x7d' :: rest => (.object [] true, rest)
        | rest =>
          let (members, closed, rest) := readMembers fuel rest
          (.object members closed, rest)
      else if c = '-' then readNumber true rest
      else if isDigit c then readNumber false (c :: rest)
      else (.fault, [])

/-- Reads the items of an array that has at least one. -/
def readItems : Nat → List Char → List Source × Bool × List Char
  | 0, _ => ([], false, [])
  | fuel + 1, cs =>
    match readValue fuel cs with
    | (.fault, _) => ([.fault], false, [])
    | (v, rest) =>
      match skipGap rest with
      | ',' :: rest =>
        match skipGap rest with
        | ']' :: _ => ([v], false, [])
        | rest =>
          let (items, closed, rest) := readItems fuel rest
          (v :: items, closed, rest)
      | ']' :: rest => ([v], true, rest)
      | _ => ([v], false, [])

/-- Reads the members of an object that has at least one. -/
def readMembers : Nat → List Char → List (Option String × Source) × Bool × List Char
  | 0, _ => ([], false, [])
  | fuel + 1, cs =>
    match skipGap cs with
    | '"' :: rest =>
      match readString [] true (rest.length + 1) rest with
      | none => ([], false, [])
      | some (k, rest) =>
        match skipGap rest with
        | ':' :: rest =>
          match readValue fuel rest with
          | (.fault, _) => ([(k, .fault)], false, [])
          | (v, rest) =>
            match skipGap rest with
            | ',' :: rest =>
              let (members, closed, rest) := readMembers fuel rest
              ((k, v) :: members, closed, rest)
            | '\x7d' :: rest => ([(k, v)], true, rest)
            | _ => ([(k, v)], false, [])
        | _ => ([(k, .fault)], false, [])
    | _ => ([], false, [])
end

/-- Reads a text, and tells whether nothing but blanks follows the value. -/
def Source.read (s : String) : Source × Bool :=
  let cs := s.toList
  let (v, rest) := readValue (cs.length + 1) cs
  (v, (skipGap rest).isEmpty)

/-! ## Values of sources -/

mutual
/-- No fault anywhere. -/
def Source.sound : Source → Bool
  | .fault => false
  | .array items closed => closed && soundItems items
  | .object members closed => closed && soundMembers members
  | _ => true

/-- No fault in any item. -/
def soundItems : List Source → Bool
  | [] => true
  | v :: rest => v.sound && soundItems rest

/-- No fault in any member. -/
def soundMembers : List (Option String × Source) → Bool
  | [] => true
  | (_, v) :: rest => v.sound && soundMembers rest
end

mutual
/-- The value with at most `depth` levels of nesting, or the path to what keeps it from being
one. Where an array or object stops instead of going on, the path leads to what would have come
next. -/
def Source.value (depth : Nat) : Source → Except (List Segment) Json
  | .fault => .error []
  | .null => .ok .null
  | .bool b => .ok (.bool b)
  | .number (some n) => .ok n
  | .number none => .error []
  | .string (some s) => .ok (.str s)
  | .string none => .error []
  | .array items closed =>
    match depth with
    | 0 => .error []
    | depth + 1 => do
      let items ← itemValues depth 0 items
      if closed then pure (.arr items) else .error [.index items.length]
  | .object members closed =>
    match depth with
    | 0 => .error []
    | depth + 1 => do
      let members ← memberValues depth members
      if closed then pure (.object members) else .error [.unnamed]

/-- The values of the items from number `i` on. -/
def itemValues (depth i : Nat) : List Source → Except (List Segment) (List Json)
  | [] => .ok []
  | v :: rest =>
    match v.value depth with
    | .error path => .error (.index i :: path)
    | .ok v => (itemValues depth (i + 1) rest).map (v :: ·)

/-- The values of the members, in order. -/
def memberValues (depth : Nat) :
    List (Option String × Source) → Except (List Segment) (List (String × Json))
  | [] => .ok []
  | (none, _) :: _ => .error [.unnamed]
  | (some k, v) :: rest =>
    match v.value depth with
    | .error path => .error (.key k :: path)
    | .ok v => (memberValues depth rest).map ((k, v) :: ·)
end

/-- How deep the values of a text may nest. -/
abbrev maxDepth : Nat := 127

/-- Reads a text as one value. -/
def parse? (s : String) : Option Json :=
  match Source.read s with
  | (v, true) => (v.value maxDepth).toOption
  | (_, false) => none

end SwapFloor.Json
