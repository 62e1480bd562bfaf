import SwapFloor.Json.Decode

/-!
# Records from text

A record may be read from its text member by member, without building a value first. Then the
first fault in the order of the text counts, whatever it is: a member that does not fit, one that
comes twice, or the place where the text stops being JSON. Members that are no fields are passed
over and need only be well formed, and a scalar field does not look into an array or object.

A fault carries the path to where it was met. Its phrase in a message is kept only if the text as
a whole is JSON.
-/

namespace SwapFloor.Json

/-- What keeps a text from being read, and where. -/
structure Fault where
  path : List Segment
  cause : Misfit

/-- A text as a value of its outermost kind. -/
def Source.shallow : Source → Except Misfit Json
  | .fault => .error .malformed
  | .null => .ok .null
  | .bool b => .ok (.bool b)
  | .number (some n) => .ok n
  | .number none => .error .malformed
  | .string (some s) => .ok (.str s)
  | .string none => .error .malformed
  | .array _ _ => .ok (.arr [])
  | .object _ _ => .ok (.obj [])

/-- A text as a canonical value. -/
def Source.deep (s : Source) : Except Fault Json :=
  match s.value (maxDepth - 1) with
  | .ok j => .ok j.canonical
  | .error path => .error ⟨path, .malformed⟩

/-- As much of a text as a field looks at. -/
def Field.look (f : Field) (s : Source) : Except Fault Json :=
  match f.reach, s with
  | .whole, s => s.deep
  | .wholeArray, .array items closed => Source.deep (.array items closed)
  | _, s => s.shallow.mapError fun m => ⟨[], m⟩

/-- The value of a field, looked at and checked. -/
def Field.readText (f : Field) (s : Source) : Except Fault Json := do
  let j ← f.look s
  match f.check j with
  | .ok () => .ok j
  | .error m => .error ⟨[], m⟩

/-- A fault one step further out. -/
def Fault.within (step : Segment) (f : Fault) : Fault := { f with path := step :: f.path }

/-- Reads the members of an object; `got` are the fields met before. -/
def readFields (fields : List Field) (got : List (String × Json)) :
    List (Option String × Source) → Except Fault (List (String × Json))
  | [] => .ok got
  | (none, _) :: _ => .error ⟨[], .malformed⟩
  | (some k, v) :: rest =>
    match fields.find? (·.isNamed k) with
    | none =>
      if v.sound then readFields fields got rest else .error ⟨[.key k], .malformed⟩
    | some f =>
      if (got.lookup f.name).isSome then .error ⟨[], .duplicateField f.name⟩
      else
        match f.readText v with
        | .error e => .error (e.within (.key k))
        | .ok j => readFields fields (got ++ [(f.name, j)]) rest

/-- Reads the items of an array as fields in order, from item `i` on. -/
def readItemFields (whole : String) (closed : Bool) (i : Nat) :
    List Field → List Source → Except Fault (List (String × Json))
  | [], items =>
    if !closed then .error ⟨[], .malformed⟩
    else if items.isEmpty then .ok []
    else .error ⟨[], .trailing⟩
  | f :: fs, v :: vs =>
    match f.readText v with
    | .error e => .error (e.within (.index i))
    | .ok j => (readItemFields whole closed (i + 1) fs vs).map ((f.name, j) :: ·)
  | f :: fs, [] =>
    if !closed then .error ⟨[.index i], .malformed⟩
    else if f.hasDefault then readItemFields whole closed (i + 1) fs []
    else .error ⟨[], .invalidLength i whole⟩

/-- A misfit of the record itself. -/
def atTop {α : Type} (e : Except Misfit α) : Except Fault α := e.mapError fun m => ⟨[], m⟩

/-- Reads a record of a given name from a source. -/
def Fields.ofSource {α : Type} (name : String) (x : Fields α) : Source → Except Fault α
  | .object members closed => do
    let got ← readFields x.list [] members
    if closed then atTop (x.read fun k => got.lookup k) else .error ⟨[], .malformed⟩
  | .array items closed => do
    let got ← readItemFields (recordWords name x.list.length) closed 0 x.list items
    atTop (x.read fun k => got.lookup k)
  | s => do
    let j ← atTop s.shallow
    .error ⟨[], .invalidType j.found s!"struct {name}"⟩

/-- Reads a record of a given name from a text that holds nothing else. -/
def Fields.ofText {α : Type} (name : String) (x : Fields α) (text : String) : Except Fault α := do
  let (source, clean) := Source.read text
  let a ← x.ofSource name source
  if clean then .ok a else .error ⟨[], .malformed⟩

/-- The phrase of a fault in messages about a text. -/
def Fault.phrase (text : String) (f : Fault) : String :=
  if (parse? text).isSome then f.cause.message else Misfit.malformed.message

/-- A path with dots between keys and brackets around indices. -/
def pathText : List Segment → String
  | [] => ""
  | .key k :: rest => k ++ tail rest
  | .unnamed :: rest => "?" ++ tail rest
  | .index i :: rest => s!"[{Text.natText i}]" ++ tail rest
where
  /-- The steps after the first. -/
  tail : List Segment → String
    | [] => ""
    | .key k :: rest => "." ++ k ++ tail rest
    | .unnamed :: rest => ".?" ++ tail rest
    | .index i :: rest => s!"[{Text.natText i}]" ++ tail rest

/-- The phrase of a fault behind its path, if it has one. -/
def Fault.located (text : String) (f : Fault) : String :=
  if f.path.isEmpty then f.phrase text else pathText f.path ++ ": " ++ f.phrase text

end SwapFloor.Json
