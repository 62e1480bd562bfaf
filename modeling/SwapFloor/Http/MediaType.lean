import SwapFloor.Text.Blank

/-!
# Media types

A media type names a type and a subtype, with parameters behind a semicolon. JSON is
`application/json`, or any subtype of `application` that ends in `+json`.
-/

namespace SwapFloor.Http.MediaType

def isNameChar (c : Char) : Bool := c.isAlphanum || "!#$%&'*+-.^_\x60|~".toList.contains c

/-- Passes over a quoted value up to its closing quote. -/
def skipQuoted? : List Char → Option (List Char)
  | [] => none
  | '"' :: rest => some rest
  | '\\' :: _ :: rest => skipQuoted? rest
  | _ :: rest => skipQuoted? rest

/-- Parameters, each a name and a value; at most `count` of them. -/
def areParameters : Nat → List Char → Bool
  | 0, cs => cs.isEmpty
  | count + 1, cs =>
    match cs.dropWhile (· == ' ') with
    | [] => true
    | cs =>
      let name := cs.takeWhile isNameChar
      match name, cs.drop name.length with
      | _ :: _, '=' :: '"' :: rest =>
        match skipQuoted? rest with
        | some [] => true
        | some (';' :: rest) => areParameters count rest
        | _ => false
      | _ :: _, '=' :: rest =>
        match rest.dropWhile isNameChar with
        | [] => true
        | ';' :: rest => areParameters count rest
        | _ => false
      | _, _ => false

/-- The type and subtype of a media type in lower case, if it is one. -/
def essence? (s : String) : Option (String × String) :=
  let cs := s.toList
  let type := cs.takeWhile isNameChar
  match cs.drop type.length with
  | '/' :: rest =>
    let subtype := rest.takeWhile isNameChar
    let after := rest.drop subtype.length
    let marked := after.isEmpty || after.head? == some ';' || after.head? == some ' '
    if type.isEmpty || subtype.isEmpty || !marked || !areParameters cs.length after.tail then none
    else
      let lower := fun (cs : List Char) => String.ofList (cs.map Char.toLower)
      some (lower type, lower subtype)
  | _ => none

def isJson (s : String) : Bool :=
  match essence? s with
  | some (type, subtype) => type == "application" && (subtype == "json" || subtype.endsWith "+json")
  | none => false

end SwapFloor.Http.MediaType
