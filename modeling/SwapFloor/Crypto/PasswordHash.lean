import SwapFloor.Crypto.Argon2
import SwapFloor.Crypto.Base64
import SwapFloor.Text.Numeral

/-!
# Stored password hashes

A stored hash is one line of fields, each behind a dollar sign: the algorithm, its version, its
parameters, the salt and the digest; those after the algorithm may be missing from the end, the
version and the parameters also from the middle. A line that is no such list is malformed; a line
that is one, but not of a hash that can be recomputed, matches no password.
-/

namespace SwapFloor.Crypto

/-- A stored hash. -/
structure PasswordHash where
  algorithm : String
  version : Option Nat
  params : List (String × String)
  /-- The salt as it is written. -/
  salt : Option (List Char)
  digest : Option (List UInt8)
  deriving DecidableEq

namespace PasswordHash

/-! ## Reading -/

def isNameChar (c : Char) : Bool := ('a' ≤ c && c ≤ 'z') || Text.isDigit c || c == '-'

/-- A name: up to 32 characters, at least one. -/
def isName (s : String) : Bool := 1 ≤ s.length && s.length ≤ 32 && s.toList.all isNameChar

def isValueChar (c : Char) : Bool :=
  ('a' ≤ c && c ≤ 'z') || ('A' ≤ c && c ≤ 'Z') || Text.isDigit c || c == '-' || c == '+'
    || c == '/' || c == '.'

def isValue (s : String) : Bool := s.length ≤ 64 && s.toList.all isValueChar

/-- A number of 32 bits without leading zeros. -/
def number? (s : String) : Option Nat :=
  let cs := s.toList
  if cs.isEmpty || !cs.all Text.isDigit || (cs.head? == some '0' && 1 < cs.length) then none
  else
    let n := cs.foldl (fun n c => n * 10 + (c.toNat - 48)) 0
    if n < 2 ^ 32 then some n else none

/-- A name and its value. -/
def param? (s : String) : Option (String × String) :=
  match s.splitOn "=" with
  | [name, value] => if isName name && isValue value then some (name, value) else none
  | _ => none

def params? (s : String) : Option (List (String × String)) :=
  if 127 < s.utf8ByteSize then none else (s.splitOn ",").mapM param?

/-- A salt: 4 to 64 characters of values. -/
def salt? (s : String) : Option (List Char) :=
  if 4 ≤ s.length ∧ isValue s then some s.toList else none

/-- A digest: 10 to 64 bytes. -/
def digest? (s : String) : Option (List UInt8) :=
  (Base64.decode? s.toList).filter fun bytes => 10 ≤ bytes.length && bytes.length ≤ 64

/-- Reads the salt and the digest. -/
def readEnd (algorithm : String) (version : Option Nat) (params : List (String × String)) :
    List String → Option PasswordHash
  | [] => some ⟨algorithm, version, params, none, none⟩
  | [salt] => (salt? salt).map fun s => ⟨algorithm, version, params, some s, none⟩
  | [salt, digest] => do
    let s ← salt? salt
    let d ← digest? digest
    pure ⟨algorithm, version, params, some s, some d⟩
  | _ => none

/-- Reads the fields after the version. -/
def readParams (algorithm : String) (version : Option Nat) : List String → Option PasswordHash
  | [] => readEnd algorithm version [] []
  | field :: rest =>
    if field.contains '=' then
      (params? field).bind fun params => readEnd algorithm version params rest
    else readEnd algorithm version [] (field :: rest)

/-- Reads the fields after the algorithm. -/
def readVersion (algorithm : String) : List String → Option PasswordHash
  | [] => readEnd algorithm none [] []
  | field :: rest =>
    if field.startsWith "v=" ∧ !field.contains ',' then
      let text := String.ofList (field.toList.drop 2)
      if isValue text then (number? text).bind fun v => readParams algorithm (some v) rest
      else none
    else readParams algorithm none (field :: rest)

/-- Reads a stored hash. -/
def ofText? (s : String) : Option PasswordHash :=
  match s.splitOn "$" with
  | "" :: algorithm :: rest => if isName algorithm then readVersion algorithm rest else none
  | _ => none

/-! ## Checking -/

/-- The kind of a named algorithm. -/
def kind? : String → Option Argon2.Kind
  | "argon2d" => some .d
  | "argon2i" => some .i
  | "argon2id" => some .id
  | _ => none

/-- Bytes in a parameter, at most `limit`. -/
def bytes? (limit : Nat) (s : String) : Option (List UInt8) :=
  (Base64.decode? s.toList).filter fun bytes => bytes.length ≤ limit

/-- Takes one parameter into account. -/
def applyParam (p : Argon2.Params) (name value : String) : Option Argon2.Params :=
  match name with
  | "m" => (number? value).map fun n => { p with memory := n }
  | "t" => (number? value).map fun n => { p with passes := n }
  | "p" => (number? value).map fun n => { p with lanes := n }
  | "keyid" => (bytes? 8 value).map fun _ => p
  | "data" => (bytes? 32 value).map fun b => { p with data := b }
  | _ => none

/-- Parameters with which a hash can be made. -/
def isFeasible (p : Argon2.Params) : Bool :=
  (p.version == 16 || p.version == 19) && 8 ≤ p.memory && p.lanes * 8 ≤ p.memory && 1 ≤ p.passes
    && 1 ≤ p.lanes && p.lanes < 2 ^ 24

def usual : Argon2.Params where
  kind := .id
  version := 19
  memory := 19456
  passes := 2
  lanes := 1
  size := 32

/-- The parameters of a stored hash, with the salt, if it can be recomputed. -/
def recipe? (h : PasswordHash) : Option (Argon2.Params × List UInt8) := do
  let kind ← kind? h.algorithm
  let digest ← h.digest
  let start := { usual with
    kind := kind
    version := h.version.getD 19
    size := digest.length }
  let params ← h.params.foldlM (fun p e => applyParam p e.1 e.2) start
  let salt ← h.salt.bind Base64.decode?
  if isFeasible params ∧ 8 ≤ salt.length then pure (params, salt) else none

/-- The password gives the stored digest. -/
def accepts (h : PasswordHash) (password : String) : Bool :=
  match h.recipe? with
  | some (params, salt) => h.digest == some (Argon2.hash params password.toUTF8.toList salt)
  | none => false

/-! ## Writing -/

/-- A parameter as it is written. -/
def paramText (e : String × String) : String := e.1 ++ "=" ++ e.2

/-- A stored hash without its salt and digest. -/
def head (h : PasswordHash) : String :=
  let version := match h.version with
    | some v => "$v=" ++ Text.natText v
    | none => ""
  let params := if h.params.isEmpty then ""
    else "$" ++ String.intercalate "," (h.params.map paramText)
  "$" ++ h.algorithm ++ version ++ params

/-- A stored hash as one line. -/
def text (h : PasswordHash) : String :=
  let salt := match h.salt with
    | some s => "$" ++ String.ofList s
    | none => ""
  let digest := match h.digest with
    | some d => "$" ++ String.ofList (Base64.encode d)
    | none => ""
  h.head ++ salt ++ digest

/-- The hash of a password under a salt, with the usual parameters. -/
def make (salt : List UInt8) (password : String) : PasswordHash where
  algorithm := "argon2id"
  version := some usual.version
  params := [("m", Text.natText usual.memory), ("t", Text.natText usual.passes),
    ("p", Text.natText usual.lanes)]
  salt := some (Base64.encode salt)
  digest := some (Argon2.hash usual password.toUTF8.toList salt)

end PasswordHash

end SwapFloor.Crypto
