import SwapFloor.Json.Source
import SwapFloor.Text.Blank

/-!
# Typed values from JSON

A decoder reads a value of some type out of JSON or names what does not fit. Records are built
from `Fields`: each field is stated once, with its name and decoder, and the record is then read
from an object, in whatever order its members come, or from an array in the order of the fields.

Of several misfits the first one in the order of the members is reported; a missing field is
reported only when all members that are there fit.
-/

namespace SwapFloor.Json

/-! ## What does not fit -/

/-- The kind of value that was found in place of the expected one. -/
inductive Found where
  | null
  | bool (b : Bool)
  | int (n : Int)
  | float (x : Float)
  | str (s : String)
  | sequence
  | map

/-- The kind of a value. -/
def found : Json → Found
  | .null => .null
  | .bool b => .bool b
  | .int n => .int n
  | .float x => .float x
  | .str s => .str s
  | .arr _ => .sequence
  | .obj _ => .map

/-- Why a value does not fit a type. -/
inductive Misfit where
  | invalidType (found : Found) (expected : String)
  | invalidValue (found : Found) (expected : String)
  | invalidLength (length : Nat) (expected : String)
  | unknownVariant (name : String) (expected : List String)
  | missingField (name : String)
  | duplicateField (name : String)
  /-- A reason in the words of the type itself. -/
  | reason (text : String)
  /-- Something follows a value where the text should end. -/
  | trailing
  /-- The text is not JSON at all. -/
  | malformed

/-- A character as it stands in a quoted text of a message. -/
def shownChar (c : Char) : String :=
  let n := c.toNat
  let hidden := n < 0x20 || (0x7F ≤ n && n < 0xA0) || n == 0xAD || (0x300 ≤ n && n < 0x370)
    || (0x200B ≤ n && n ≤ 0x200F) || (0x2028 ≤ n && n ≤ 0x202E) || (0x2060 ≤ n && n ≤ 0x206F)
    || (0xE000 ≤ n && n < 0xF900) || (0xFE00 ≤ n && n ≤ 0xFE0F) || n == 0xFEFF
    || (0xA0 < n && Text.isBlank c) || n == 0xA0
  if c = '"' then "\\\""
  else if c = '\\' then "\\\\"
  else if c = '\n' then "\\n"
  else if c = '\r' then "\\r"
  else if c = '\t' then "\\t"
  else if n = 0 then "\\0"
  else if hidden then "\\u\x7b" ++ String.ofList (Nat.toDigits 16 n) ++ "\x7d"
  else c.toString

/-- A text in quotes, as messages show it. -/
def shown (s : String) : String :=
  "\"" ++ String.join (s.toList.map shownChar) ++ "\""

/-- The kind of a value in words. -/
def Found.text : Found → String
  | .null => "null"
  | .bool true => "boolean `true`"
  | .bool false => "boolean `false`"
  | .int n => s!"integer `{Text.intText n}`"
  | .float x => s!"floating point `{Binary.floatText x}`"
  | .str s => "string " ++ shown s
  | .sequence => "sequence"
  | .map => "map"

/-- A choice of names in words. -/
def oneOf (names : List String) : String :=
  match names with
  | [] => "there are no variants"
  | [a] => s!"expected `{a}`"
  | [a, b] => s!"expected `{a}` or `{b}`"
  | _ => "expected one of " ++ String.intercalate ", " (names.map fun n => s!"`{n}`")

def Misfit.message : Misfit → String
  | .invalidType found expected => s!"invalid type: {found.text}, expected {expected}"
  | .invalidValue found expected => s!"invalid value: {found.text}, expected {expected}"
  | .invalidLength n expected => s!"invalid length {Text.natText n}, expected {expected}"
  | .unknownVariant name expected => s!"unknown variant `{name}`, " ++ oneOf expected
  | .missingField name => s!"missing field `{name}`"
  | .duplicateField name => s!"duplicate field `{name}`"
  | .reason text => text
  | .trailing => "trailing characters"
  | .malformed => "<syntax>"

/-- Concerns the text and not the value in it. -/
def Misfit.isTextual : Misfit → Bool
  | .trailing | .malformed => true
  | _ => false

/-- Reads a value of a type. -/
abbrev Decoder (α : Type) := Json → Except Misfit α

/-! ## Leaves -/

/-- Any value. -/
def any : Decoder Json := .ok

/-- A text. -/
def string : Decoder String
  | .str s => .ok s
  | j => .error (.invalidType j.found "a string")

/-- A truth value. -/
def boolean : Decoder Bool
  | .bool b => .ok b
  | j => .error (.invalidType j.found "a boolean")

/-- An integer from `low` to below `high`, described as `expected`. -/
def integer (low high : Int) (expected : String) : Decoder Int
  | .int n =>
    if low ≤ n ∧ n < high then .ok n else .error (.invalidValue (.int n) expected)
  | j => .error (.invalidType j.found expected)

/-- An unsigned integer of 64 bits, described as `expected`. -/
def uint64As (expected : String) : Decoder UInt64 := fun j =>
  (integer 0 (2 ^ 64) expected j).map fun n => UInt64.ofNat n.toNat

/-- An unsigned integer of 64 bits. -/
def uint64 : Decoder UInt64 := uint64As "u64"

/-- A count of at most 64 bits, described as `expected`. -/
def count (expected : String) : Decoder Nat := fun j =>
  (integer 0 (2 ^ 64) expected j).map Int.toNat

/-- An unsigned integer of 32 bits. -/
def uint32 : Decoder UInt32 := fun j =>
  (integer 0 (2 ^ 32) "u32" j).map fun n => UInt32.ofNat n.toNat

/-- An unsigned integer of 16 bits. -/
def uint16 : Decoder UInt16 := fun j =>
  (integer 0 (2 ^ 16) "u16" j).map fun n => UInt16.ofNat n.toNat

/-- An unsigned integer of 8 bits. -/
def uint8 : Decoder UInt8 := fun j =>
  (integer 0 (2 ^ 8) "u8" j).map fun n => UInt8.ofNat n.toNat

/-- A signed integer of 64 bits. -/
def int64 : Decoder Int64 := fun j =>
  (integer (-2 ^ 63) (2 ^ 63) "i64" j).map Int64.ofInt

/-- A double; an integer is taken for the nearest one. -/
def double : Decoder Float
  | .float x => .ok x
  | .int n => .ok (Float.ofInt n)
  | j => .error (.invalidType j.found "f64")

/-- A value or null. -/
def option {α : Type} (d : Decoder α) : Decoder (Option α)
  | .null => .ok none
  | j => (d j).map some

/-- A sequence. -/
def list {α : Type} (d : Decoder α) : Decoder (List α)
  | .arr items => items.mapM d
  | j => .error (.invalidType j.found "a sequence")

/-- A map from texts. -/
def mapOf {α : Type} (d : Decoder α) : Decoder (List (String × α))
  | .obj members => members.mapM fun m => (d m.2).map fun v => (m.1, v)
  | j => .error (.invalidType j.found "a map")

/-- One of a list of named constants, as its name or as an object with the name for its key. -/
def constant {α : Type} (names : List (String × α)) : Decoder α
  | .str s =>
    match names.lookup s with
    | some v => .ok v
    | none => .error (.unknownVariant s (names.map Prod.fst))
  | .obj [(k, v)] =>
    match names.lookup k with
    | none => .error (.unknownVariant k (names.map Prod.fst))
    | some c => if v.isNull then .ok c else .error (.invalidType v.found "unit variant")
  | .obj _ => .error (.invalidValue .map "map with a single key")
  | j => .error (.invalidType j.found "string or map")

/-! ## Records -/

/-- How much of a member's text its decoder looks at. -/
inductive Reach where
  /-- The value itself, if it is no array or object. -/
  | scalar
  /-- All of it. -/
  | whole
  /-- All of it, if it is an array. -/
  | wholeArray
  deriving DecidableEq

/-- A field of a record. -/
structure Field where
  name : String
  /-- Another name of the same field. -/
  otherName : Option String
  /-- May be absent from the end of an array. -/
  hasDefault : Bool
  reach : Reach
  check : Json → Except Misfit Unit

/-- `k` names the field. -/
def Field.isNamed (f : Field) (k : String) : Bool := f.name == k || f.otherName == some k

/-- The fields of a record, and how it is read from their values. -/
structure Fields (α : Type) where
  list : List Field
  read : (String → Option Json) → Except Misfit α

/-- A record without fields. -/
def Fields.pure {α : Type} (a : α) : Fields α := ⟨[], fun _ => .ok a⟩

/-- Fields followed by further fields. -/
def Fields.seq {α β : Type} (f : Fields (α → β)) (x : Fields α) : Fields β where
  list := f.list ++ x.list
  read get :=
    match f.read get with
    | .error e => .error e
    | .ok g =>
      match x.read get with
      | .error e => .error e
      | .ok a => .ok (g a)

/-- A record built by `f` from one field after the other. -/
def Fields.map {α β : Type} (f : α → β) (x : Fields α) : Fields β where
  list := x.list
  read get :=
    match x.read get with
    | .error e => .error e
    | .ok a => .ok (f a)

instance : Functor Fields := { map := Fields.map }
instance : Seq Fields := { seq := fun f x => f.seq (x ()) }

def required {α : Type} (name : String) (d : Decoder α) : Fields α where
  list := [⟨name, none, false, .scalar, fun j => (d j).map fun _ => ()⟩]
  read get :=
    match get name with
    | none => .error (.missingField name)
    | some j => d j

/-- A field whose value may be null or, in an object, absent. -/
def optional {α : Type} (name : String) (d : Decoder α) : Fields (Option α) where
  list := [⟨name, none, false, .scalar, fun j => (option d j).map fun _ => ()⟩]
  read get :=
    match get name with
    | none => .ok none
    | some j => option d j

/-- A field that stands for `fallback` where it is absent. -/
def defaulted {α : Type} (name : String) (d : Decoder α) (fallback : α) : Fields α where
  list := [⟨name, none, true, .scalar, fun j => (d j).map fun _ => ()⟩]
  read get :=
    match get name with
    | none => .ok fallback
    | some j => d j

/-- The same fields under one more name. -/
def Fields.orNamed {α : Type} (x : Fields α) (other : String) : Fields α :=
  { x with list := x.list.map fun f => { f with otherName := some other } }

/-- The same fields, reading their text as far as `reach`. -/
def Fields.reaching {α : Type} (x : Fields α) (reach : Reach) : Fields α :=
  { x with list := x.list.map fun f => { f with reach := reach } }

/-- The members that are fields, under the first name of their field. -/
def knownMembers (fields : List Field) (members : List (String × Json)) : List (String × Json) :=
  members.filterMap fun m => (fields.find? (·.isNamed m.1)).map fun f => (f.name, m.2)

/-- Checks members one after the other; `seen` are the fields met before. -/
def checkMembers (fields : List Field) (seen : List String) :
    List (String × Json) → Except Misfit Unit
  | [] => .ok ()
  | (k, v) :: rest =>
    if seen.contains k then .error (.duplicateField k)
    else
      match fields.find? (·.name == k) with
      | none => checkMembers fields seen rest
      | some f =>
        match f.check v with
        | .error e => .error e
        | .ok () => checkMembers fields (k :: seen) rest

/-- Reads a record from the members of an object. -/
def Fields.ofMembers {α : Type} (x : Fields α) (members : List (String × Json)) :
    Except Misfit α :=
  let known := knownMembers x.list members
  match checkMembers x.list [] known with
  | .error e => .error e
  | .ok () => x.read fun k => known.lookup k

/-- Checks items against fields in order, from item `i` on; `whole` describes the record. -/
def checkItems (whole : String) (i : Nat) : List Field → List Json → Except Misfit Unit
  | [], _ => .ok ()
  | f :: fs, v :: vs =>
    match f.check v with
    | .error e => .error e
    | .ok () => checkItems whole (i + 1) fs vs
  | f :: fs, [] =>
    if f.hasDefault then checkItems whole (i + 1) fs [] else .error (.invalidLength i whole)

/-- A record of a number of fields in words. -/
def recordWords (name : String) (size : Nat) : String :=
  let unit := if size = 1 then "element" else "elements"
  s!"struct {name} with {Text.natText size} {unit}"

/-- Reads a record from the items of an array. -/
def Fields.ofItems {α : Type} (name : String) (x : Fields α) (items : List Json) :
    Except Misfit α :=
  match checkItems (recordWords name x.list.length) 0 x.list items with
  | .error e => .error e
  | .ok () =>
    match x.read fun k => ((x.list.map (·.name)).zip items).lookup k with
    | .error e => .error e
    | .ok a =>
      if x.list.length < items.length then
        .error (.invalidLength items.length "fewer elements in array")
      else .ok a

/-- A record of a given name, from an object or an array. -/
def record {α : Type} (name : String) (x : Fields α) : Decoder α
  | .obj members => x.ofMembers members
  | .arr items => x.ofItems name items
  | j => .error (.invalidType j.found s!"struct {name}")

/-! ## Small lemmas -/

@[simp] theorem option_null {α : Type} (d : Decoder α) : option d .null = .ok none := rfl

theorem integer_int {low high n : Int} {expected : String} (h : low ≤ n ∧ n < high) :
    integer low high expected (.int n) = .ok n := by
  simp [integer, h]

theorem uint64As_toNat (expected : String) (n : UInt64) :
    uint64As expected (.int n.toNat) = .ok n := by
  have h : (0 : Int) ≤ n.toNat ∧ (n.toNat : Int) < 2 ^ 64 := by
    have := n.toNat_lt
    omega
  unfold uint64As
  rw [integer_int h]
  exact congrArg Except.ok (UInt64.ofNat_toNat)

end SwapFloor.Json
