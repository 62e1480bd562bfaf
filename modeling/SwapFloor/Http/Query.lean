import SwapFloor.Text.Numeral
import SwapFloor.Url.Percent

/-!
# Queries

The pairs of names and values behind the question mark of a target. A reader says which names it
knows and which of them are counts; the first pair in their order that repeats a known name or
is no count is a fault, and all other names are passed over.
-/

namespace SwapFloor.Http.Query

/-! ## Pairs -/

/-- A name or a value: plus signs are spaces, and percent signs stand for bytes. -/
def component (cs : List Char) : String :=
  Url.Percent.lossyText (String.ofList (cs.map fun c => if c = '+' then ' ' else c))

/-- A pair, divided at its first equals sign. -/
def pair (cs : List Char) : String × String :=
  (component (cs.takeWhile (· != '=')), component (cs.dropWhile (· != '=')).tail)

def pairs (query : String) : List (String × String) :=
  ((query.splitOn "&").filter (· != "")).map fun s => pair s.toList

/-! ## Counts -/

/-- Why a text is no count. -/
inductive CountFault where
  | empty
  | badDigit
  | tooLarge
  deriving DecidableEq

/-- A reason in words. -/
def CountFault.message : CountFault → String
  | .empty => "cannot parse integer from empty string"
  | .badDigit => "invalid digit found in string"
  | .tooLarge => "number too large to fit in target type"

/-- Reads digits of a number below `2 ^ 64` behind `n`. -/
def countFrom (n : Nat) : List Char → Except CountFault Nat
  | [] => .ok n
  | c :: rest =>
    match Text.digitVal? c with
    | none => .error .badDigit
    | some d => if n * 10 + d < 2 ^ 64 then countFrom (n * 10 + d) rest else .error .tooLarge

/-- A number below `2 ^ 64`, with a plus sign or not. -/
def count (s : String) : Except CountFault Nat :=
  match s.toList with
  | [] => .error .empty
  | ['+'] => .error .badDigit
  | '+' :: cs => countFrom 0 cs
  | cs => countFrom 0 cs

/-! ## Known names -/

/-- What a known name stands for. -/
inductive Kind where
  | text
  | count
  deriving DecidableEq

/-- What is wrong with a query. -/
inductive Fault where
  | duplicate (name : String)
  | badCount (name : String) (cause : CountFault)
  deriving DecidableEq

/-- A fault in words. -/
def Fault.message : Fault → String
  | .duplicate name => s!"Failed to deserialize query string: duplicate field `{name}`"
  | .badCount name cause => s!"Failed to deserialize query string: {name}: {cause.message}"

/-- Checks pairs in their order; `seen` are the known names before. -/
def check (known : List (String × Kind)) (seen : List String) :
    List (String × String) → Except Fault Unit
  | [] => .ok ()
  | (name, value) :: rest =>
    match known.lookup name with
    | none => check known seen rest
    | some kind =>
      if seen.contains name then .error (.duplicate name)
      else
        match kind, count value with
        | .count, .error e => .error (.badCount name e)
        | _, _ => check known (name :: seen) rest

/-- The pairs of a query that holds no known name twice and counts where they have to be. -/
def read (known : List (String × Kind)) (query : String) :
    Except Fault (List (String × String)) :=
  (check known [] (pairs query)).map fun () => pairs query

def count? (pairs : List (String × String)) (name : String) : Option Nat :=
  (pairs.lookup name).bind fun v => (count v).toOption

theorem countFrom_lt {n m : Nat} {cs : List Char} (hn : n < 2 ^ 64)
    (h : countFrom n cs = .ok m) : m < 2 ^ 64 := by
  induction cs generalizing n with
  | nil => simp [countFrom] at h; omega
  | cons c rest ih =>
    unfold countFrom at h
    split at h
    · simp at h
    · split at h
      · exact ih (by assumption) h
      · simp at h

end SwapFloor.Http.Query
