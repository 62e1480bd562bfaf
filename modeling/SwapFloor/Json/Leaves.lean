import SwapFloor.Decimal.Text
import SwapFloor.Json.Decode
import SwapFloor.Time.Rfc3339

/-!
# Decimals and instants in JSON

A decimal is written as a string that keeps its scale; it may also be read from a number, whose
shortest text is then read in its place. An instant is written as a timestamp.
-/

namespace SwapFloor.Json

/-- The expected kind of a decimal in words. -/
def decimalWords : String := "a Decimal type representing a fixed-point number"

def decimal : Decoder Decimal
  | .str s =>
    match Decimal.ofText? s with
    | some d => .ok d
    | none => .error (.invalidValue (.str s) decimalWords)
  | .int n =>
    match Decimal.ofInt? n with
    | some d => .ok d
    | none => .error (.invalidValue (.int n) decimalWords)
  | .float x =>
    match Decimal.ofText? (Binary.plainText x) with
    | some d => .ok d
    | none => .error (.invalidValue (.float x) decimalWords)
  | j => .error (.invalidType j.found decimalWords)

/-- A timestamp. -/
def instant : Decoder Instant
  | .str s =>
    match Time.read s with
    | .ok t => .ok t
    | .error f => .error (.reason f.message)
  | j => .error (.invalidType j.found "an RFC 3339 formatted date and time string")

def ofDecimal (d : Decimal) : Json := .str d.text

def ofInstant (t : Instant) : Json := .str (Time.text t)

/-- A double as JSON; one that is not finite is written as null. -/
def ofDouble (x : Float) : Json := if (Binary.parts? x).isSome then .float x else .null

/-- A value or null as JSON. -/
def ofOption {α : Type} (f : α → Json) : Option α → Json
  | none => .null
  | some a => f a

end SwapFloor.Json
