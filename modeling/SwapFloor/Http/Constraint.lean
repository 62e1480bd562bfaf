import SwapFloor.Json.Basic
import SwapFloor.Url.Basic

/-!
# Constraints on fields

What the fields of a request have to satisfy beyond their types. A constraint is met, or it is
violated in a way that names its code, its words, its bounds and the value. Main statements: which
values meet the constraints on length and range (`length_eq_none_iff`, `range_eq_none_iff`).
-/

namespace SwapFloor.Http

/-- How a value violates a constraint. -/
structure Violation where
  code : String
  message : String
  params : List (String × Json)

namespace Violation

def toJson (v : Violation) : Json :=
  .obj [("code", .str v.code), ("message", .str v.message), ("params", .obj v.params)]

end Violation

namespace Constraint

/-- Bounds and a value as parameters. -/
def bounds (low : Option Int) (high : Int) (value : Json) : List (String × Json) :=
  [("max", .int high)] ++ (low.map fun n => ("min", Json.int n)).toList ++ [("value", value)]

/-- Lies between two bounds, of which the lower one may be missing. -/
def within (low : Option Int) (high n : Int) : Bool := low.all (· ≤ n) && n ≤ high

/-- The number of characters of a text lies between two bounds. -/
def length (low : Option Int) (high : Int) (message s : String) : Option Violation :=
  if within low high s.length then none else some ⟨"length", message, bounds low high (.str s)⟩

/-- A number lies between two bounds. -/
def range (low : Option Int) (high : Int) (message : String) (n : Int) : Option Violation :=
  if within low high n then none else some ⟨"range", message, bounds low high (.int n)⟩

/-- A text is an absolute URL. -/
def url (message s : String) : Option Violation :=
  if Url.isValid s then none else some ⟨"url", message, [("value", .str s)]⟩

theorem length_eq_none_iff {low : Option Int} {high : Int} {message s : String} :
    length low high message s = none ↔ within low high s.length = true := by
  unfold length
  split <;> simp_all

theorem range_eq_none_iff {low : Option Int} {high n : Int} {message : String} :
    range low high message n = none ↔ within low high n = true := by
  unfold range
  split <;> simp_all

theorem url_eq_none_iff {message s : String} : url message s = none ↔ Url.isValid s = true := by
  unfold url
  split <;> simp_all

end Constraint

end SwapFloor.Http
