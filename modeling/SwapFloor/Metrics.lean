import SwapFloor.Table
import SwapFloor.Text.Numeral

/-!
# Metrics

Counters and gauges by name and labels, as far as they have been touched. A path is counted under
a label in which everything that names one room or one thing is replaced.
-/

namespace SwapFloor

/-- A metric: its name and its labels. -/
structure Metric where
  name : String
  labels : List (String × String) := []
  deriving DecidableEq

/-- The values of all metrics that have been touched. -/
structure Metrics where
  values : Table Metric Int

namespace Metrics

/-- Nothing touched. -/
def empty : Metrics := ⟨.empty⟩

/-- The value of a metric, zero if it has not been touched. -/
def value (m : Metrics) (k : Metric) : Int := (m.values.get? k).getD 0

def add (m : Metrics) (k : Metric) (n : Int) : Metrics := ⟨m.values.insert k (m.value k + n)⟩

def set (m : Metrics) (k : Metric) (n : Int) : Metrics := ⟨m.values.insert k n⟩

/-- The text of a label's value. -/
def labelText (s : String) : String :=
  String.join (s.toList.map fun c =>
    if c = '\\' then "\\\\" else if c = '"' then "\\\"" else if c = '\n' then "\\n" else c.toString)

/-- A metric with its value on one line. -/
def line (k : Metric) (n : Int) : String :=
  let labels := k.labels.map fun l => l.1 ++ "=\"" ++ labelText l.2 ++ "\""
  let labelled := if labels.isEmpty then k.name
    else k.name ++ "\x7b" ++ String.intercalate "," labels ++ "\x7d"
  labelled ++ " " ++ Text.intText n

/-- All metrics as sorted lines. -/
def lines (m : Metrics) : List String :=
  (m.values.entries.map fun e => line e.1 e.2).mergeSort fun a b => a ≤ b

theorem value_add (m : Metrics) (k k' : Metric) (n : Int) :
    (m.add k n).value k' = if k' = k then m.value k + n else m.value k' := by
  unfold value add
  rw [Table.get?_insert]
  split <;> rfl

/-! ## Paths -/

/-- A segment that looks like a random id: thirty-six bytes, four of them hyphens. -/
def looksRandom (segment : String) : Bool :=
  segment.utf8ByteSize == 36 && (segment.toList.filter (· == '-')).length == 4

def isNumber (segment : String) : Bool := segment != "" && segment.toList.all Text.isDigit

/-- Labels the segments of a path; `before` is the segment in front of them. -/
def labelSegments (before : String) : List String → List String
  | [] => []
  | s :: rest =>
    let named := before == "rooms" && s != ""
    (if looksRandom s || isNumber s || named then ":id" else s) :: labelSegments s rest

def pathLabel (path : String) : String :=
  String.intercalate "/" (labelSegments "" (path.splitOn "/"))

end Metrics

end SwapFloor
