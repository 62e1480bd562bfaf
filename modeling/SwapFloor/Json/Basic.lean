import SwapFloor.Binary.Shortest

/-!
# JSON values

A number is an integer of at most 64 bits or a double. An object lists its members in some
order; `Json.object` builds the canonical one, sorted by key, in which a later member replaces
an earlier one of the same key.
-/

namespace SwapFloor

/-- A JSON value. -/
inductive Json where
  | null
  | bool (b : Bool)
  | int (n : Int)
  | float (x : Float)
  | str (s : String)
  | arr (items : List Json)
  | obj (members : List (String × Json))
  deriving Inhabited

namespace Json

/-- Puts a member in its place by key, replacing one of the same key. -/
def insertMember (k : String) (v : Json) : List (String × Json) → List (String × Json)
  | [] => [(k, v)]
  | (k', v') :: rest =>
    if k = k' then (k, v) :: rest
    else if k < k' then (k, v) :: (k', v') :: rest
    else (k', v') :: insertMember k v rest

/-- The members sorted by key, the last of each key. -/
def sortMembers (members : List (String × Json)) : List (String × Json) :=
  members.foldl (fun acc m => insertMember m.1 m.2 acc) []

/-- The object with these members. -/
def object (members : List (String × Json)) : Json := .obj (sortMembers members)

mutual
/-- The same value with every object in its canonical form. -/
def canonical : Json → Json
  | .arr items => .arr (canonicalItems items)
  | .obj members => object (canonicalMembers members)
  | j => j

/-- Items in canonical form. -/
def canonicalItems : List Json → List Json
  | [] => []
  | j :: rest => canonical j :: canonicalItems rest

/-- Members with their values in canonical form. -/
def canonicalMembers : List (String × Json) → List (String × Json)
  | [] => []
  | (k, v) :: rest => (k, canonical v) :: canonicalMembers rest
end

/-- A natural number. -/
def nat (n : Nat) : Json := .int n

/-- A text, or null. -/
def optStr : Option String → Json
  | none => .null
  | some s => .str s

/-- The value of a member, null in its absence or outside an object. -/
def field (j : Json) (k : String) : Json :=
  match j with
  | .obj ms => (ms.lookup k).getD .null
  | _ => .null

/-- The value of a member, if the value is an object and has it. -/
def field? (j : Json) (k : String) : Option Json :=
  match j with
  | .obj ms => ms.lookup k
  | _ => none

/-- The text of a string. -/
def str? : Json → Option String
  | .str s => some s
  | _ => none

def isNull : Json → Bool
  | .null => true
  | _ => false

/-! ## Writing -/

/-- One hexadecimal digit. -/
def hexDigit (n : Nat) : Char := if n < 10 then Char.ofNat (48 + n) else Char.ofNat (87 + n)

/-- A character of a string, escaped where it has to be. -/
def escapeChar (c : Char) : List Char :=
  if c = '"' then ['\\', '"']
  else if c = '\\' then ['\\', '\\']
  else if c = '\n' then ['\\', 'n']
  else if c = '\r' then ['\\', 'r']
  else if c = '\t' then ['\\', 't']
  else if c = '\x08' then ['\\', 'b']
  else if c = '\x0c' then ['\\', 'f']
  else if c.toNat < 0x20 then ['\\', 'u', '0', '0', hexDigit (c.toNat / 16), hexDigit (c.toNat % 16)]
  else [c]

def quoted (s : String) : String :=
  String.ofList ('"' :: (s.toList.flatMap escapeChar ++ ['"']))

mutual
/-- The text of a value without any blanks. -/
def text : Json → String
  | .null => "null"
  | .bool true => "true"
  | .bool false => "false"
  | .int n => Text.intText n
  | .float x => Binary.floatText x
  | .str s => quoted s
  | .arr items => "[" ++ textItems items ++ "]"
  | .obj members => "\x7b" ++ textMembers members ++ "\x7d"

/-- The items of an array, divided by commas. -/
def textItems : List Json → String
  | [] => ""
  | [x] => text x
  | x :: y :: rest => text x ++ "," ++ textItems (y :: rest)

/-- The members of an object, divided by commas. -/
def textMembers : List (String × Json) → String
  | [] => ""
  | [(k, v)] => quoted k ++ ":" ++ text v
  | (k, v) :: m :: rest => quoted k ++ ":" ++ text v ++ "," ++ textMembers (m :: rest)
end

end Json

end SwapFloor
