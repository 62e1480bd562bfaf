import SwapFloor.Toml.Scalar

/-!
# TOML documents

A document is a list of statements, one on a line: a header that opens a table or a further table
of an array, or a key with a value. `read?` gives the table that they build up, as an object.

No key is given twice. A header opens a table once; one that only stood in the path of another
may still be opened, but not one that was made by dotted keys, and dotted keys do not reach into
tables that a header opened.
-/

namespace SwapFloor.Toml

/-! ## Values -/

/-- How a table came about. -/
inductive Origin where
  /-- It stood in the path of a header. -/
  | path
  /-- It was opened by a header. -/
  | header
  /-- It stood in front of a dot in a key. -/
  | dotted
  deriving DecidableEq

/-- What a key leads to. -/
inductive Node where
  /-- A value, which nothing can be added to. -/
  | value (v : Json)
  | table (origin : Origin) (members : List (String × Node))
  /-- An array of tables, the last one first. -/
  | tables (last : List (String × Node)) (others : List (List (String × Node)))

/-- The members of a table. -/
abbrev Members := List (String × Node)

/-- Changes the node of a key, or adds one. -/
def Members.update (ms : Members) (k : String) (n : Node) : Members :=
  if ms.any (·.1 == k) then ms.map fun m => if m.1 = k then (k, n) else m else ms ++ [(k, n)]

/-- Adds a value under a dotted key. -/
def addValue (v : Json) : List String → Members → Option Members
  | [], _ => none
  | [k], ms => if (ms.lookup k).isSome then none else some (ms ++ [(k, .value v)])
  | k :: ks, ms =>
    match ms.lookup k with
    | none => (addValue v ks []).map fun inner => ms ++ [(k, .table .dotted inner)]
    | some (.table origin inner) =>
      let reachable := match origin, ks with
        | .dotted, _ => true
        | .path, [_] => false
        | .path, _ => true
        | .header, _ => false
      if reachable then
        (addValue v ks inner).map fun inner => ms.update k (.table origin inner)
      else none
    | some _ => none

/-- Changes the members of the table at the end of a path of headers; tables in the path come
about as needed. -/
def within (f : Members → Option Members) : List String → Members → Option Members
  | [], ms => f ms
  | k :: ks, ms =>
    match ms.lookup k with
    | none => (within f ks []).map fun inner => ms ++ [(k, .table .path inner)]
    | some (.table origin inner) =>
      (within f ks inner).map fun inner => ms.update k (.table origin inner)
    | some (.tables last others) =>
      (within f ks last).map fun last => ms.update k (.tables last others)
    | some (.value _) => none

def openTable (k : String) (ms : Members) : Option Members :=
  match ms.lookup k with
  | none => some (ms ++ [(k, .table .header [])])
  | some (.table .path inner) => some (ms.update k (.table .header inner))
  | some _ => none

/-- Opens a further table of an array. -/
def openItem (k : String) (ms : Members) : Option Members :=
  match ms.lookup k with
  | none => some (ms ++ [(k, .tables [] [])])
  | some (.tables last others) => some (ms.update k (.tables [] (last :: others)))
  | some _ => none

mutual
/-- The value of a node. -/
def Node.toJson : Node → Json
  | .value v => v
  | .table _ members => .obj (membersJson members)
  | .tables last others => .arr ((itemsJson others).reverse ++ [.obj (membersJson last)])

/-- The values of members. -/
def membersJson : List (String × Node) → List (String × Json)
  | [] => []
  | (k, n) :: rest => (k, n.toJson) :: membersJson rest

/-- The values of the tables of an array. -/
def itemsJson : List (List (String × Node)) → List Json
  | [] => []
  | ms :: rest => .obj (membersJson ms) :: itemsJson rest
end

mutual
/-- Reads one value; `fuel` bounds its length. -/
def readValue : Nat → Reader Json
  | 0, _ => none
  | fuel + 1, cs =>
    match cs with
    | '[' :: rest => (readItems fuel rest).map fun (items, rest) => (.arr items, rest)
    | '\x7b' :: rest =>
      match skipBlanks rest with
      | '\x7d' :: rest => some (.obj [], rest)
      | rest => (readMembers fuel [] rest).map fun (ms, rest) => (.obj (membersJson ms), rest)
    | c :: rest =>
      if c = '"' ∨ c = '\x27' then (string (c :: rest)).map fun (s, rest) => (.str s, rest)
      else plainScalar (c :: rest)
    | [] => none

/-- Reads the items of an array and its end. -/
def readItems : Nat → Reader (List Json)
  | 0, _ => none
  | fuel + 1, cs =>
    match skipLines (cs.length + 1) cs with
    | ']' :: rest => some ([], rest)
    | rest =>
      match readValue fuel rest with
      | none => none
      | some (v, rest) =>
        match skipLines (rest.length + 1) rest with
        | ',' :: rest => (readItems fuel rest).map fun (vs, rest) => (v :: vs, rest)
        | ']' :: rest => some ([v], rest)
        | _ => none

/-- Reads the members of an inline table that has at least one, and its end. -/
def readMembers : Nat → Members → Reader Members
  | 0, _, _ => none
  | fuel + 1, ms, cs =>
    match dottedKey (cs.length + 1) cs with
    | some (ks, '=' :: rest) =>
      match readValue fuel (skipBlanks rest) with
      | none => none
      | some (v, rest) =>
        match addValue v ks ms with
        | none => none
        | some ms =>
          match skipBlanks rest with
          | ',' :: rest => readMembers fuel ms rest
          | '\x7d' :: rest => some (ms, rest)
          | _ => none
    | _ => none
end

/-! ## Statements -/

/-- A line of a document. -/
inductive Statement where
  | table (path : List String)
  | item (path : List String)
  | keyed (key : List String) (v : Json)

def readStatement : Reader Statement := fun cs =>
  match cs with
  | '[' :: '[' :: rest =>
    match dottedKey (rest.length + 1) rest with
    | some (path, ']' :: ']' :: rest) => some (.item path, rest)
    | _ => none
  | '[' :: rest =>
    match dottedKey (rest.length + 1) rest with
    | some (path, ']' :: rest) => some (.table path, rest)
    | _ => none
  | cs =>
    match dottedKey (cs.length + 1) cs with
    | some (key, '=' :: rest) =>
      (readValue (rest.length + 1) (skipBlanks rest)).map fun (v, rest) => (.keyed key v, rest)
    | _ => none

/-- Reads all statements; `fuel` bounds their number. -/
def readStatements : Nat → List Char → Option (List Statement)
  | 0, _ => none
  | fuel + 1, cs =>
    match skipLines (cs.length + 1) cs with
    | [] => some []
    | rest =>
      match readStatement rest with
      | none => none
      | some (s, rest) =>
        match skipComment (skipBlanks rest) with
        | [] => some [s]
        | rest =>
          match newline? rest with
          | some rest => (readStatements fuel rest).map (s :: ·)
          | none => none

/-- A path without its last step, and that step. -/
def splitPath : List String → Option (List String × String)
  | [] => none
  | [k] => some ([], k)
  | k :: ks => (splitPath ks).map fun (front, last) => (k :: front, last)

/-- Carries out a statement; `open_` is the path of the table that is open. -/
def perform (root : Members) (open_ : List String) : Statement → Option (Members × List String)
  | .table path => do
    let (front, k) ← splitPath path
    let root ← within (openTable k) front root
    some (root, path)
  | .item path => do
    let (front, k) ← splitPath path
    let root ← within (openItem k) front root
    some (root, path)
  | .keyed key v => do
    let root ← within (addValue v key) open_ root
    some (root, open_)

def read? (text : String) : Option Json := do
  let cs := text.toList
  let cs := match cs with
    | '\uFEFF' :: rest => rest
    | cs => cs
  let statements ← readStatements (cs.length + 1) cs
  let (root, _) ← statements.foldlM (fun (root, open_) s => perform root open_ s) ([], [])
  some (.obj (membersJson root))

end SwapFloor.Toml
