import SwapFloor.Ingest.Record

/-!
# The intake

What was delivered waits in a queue of limited size until the worker takes it. The worker hands
notices on to look-ups, of which only so many may be under way at a time. Once the worker is gone
nothing is taken in any more. Main statement: the queue never holds more than its capacity
(`submit_length_le`).
-/

namespace SwapFloor

/-- Something that was delivered. -/
inductive Job where
  | batch (b : Batch)
  | notice (n : LogNotice)

/-- The number of records in a job. -/
def Job.size : Job → Nat
  | .batch b => b.records.length
  | .notice _ => 1

/-- What became of a record. -/
inductive Outcome where
  | broadcast
  | duplicate
  | parseError
  | dropped
  deriving DecidableEq

namespace Outcome

/-- The name of an outcome in counts. -/
def label : Outcome → String
  | .broadcast => "broadcast"
  | .duplicate => "duplicate"
  | .parseError => "parse_error"
  | .dropped => "dropped_backpressure"

def name : Outcome → String
  | .broadcast => "Broadcast"
  | .duplicate => "Duplicate"
  | .parseError => "ParseError"
  | .dropped => "DroppedBackpressure"

end Outcome

/-- What became of the records of a job. -/
structure JobReport where
  processed : Nat := 0
  duplicates : Nat := 0
  dropped : Nat := 0
  deriving DecidableEq

namespace JobReport

/-- Counts one more record. -/
def add (r : JobReport) : Outcome → JobReport
  | .broadcast => { r with processed := r.processed + 1 }
  | .duplicate => { r with duplicates := r.duplicates + 1 }
  | .parseError | .dropped => { r with dropped := r.dropped + 1 }

/-- The number of records counted. -/
def total (r : JobReport) : Nat := r.processed + r.duplicates + r.dropped

def toJson (r : JobReport) : Json :=
  .obj [("dropped", .nat r.dropped), ("duplicates", .nat r.duplicates),
    ("processed", .nat r.processed)]

@[simp] theorem total_add (r : JobReport) (o : Outcome) : (r.add o).total = r.total + 1 := by
  cases o <;> simp only [add, total] <;> omega

end JobReport

/-- Who takes jobs out of the queue. -/
inductive Worker where
  /-- Not yet. -/
  | absent
  | running
  /-- It broke down. -/
  | broken
  /-- Not any more. -/
  | gone
  deriving DecidableEq

/-- A transaction that is being looked up. -/
structure Lookup where
  notice : LogNotice
  /-- When the answer is there, in milliseconds. -/
  dueAt : Nat

/-- The queue with its worker. -/
structure Intake where
  capacity : Nat
  /-- How many look-ups may be under way. -/
  permits : Nat
  jobs : List Job := []
  worker : Worker := .absent
  /-- The look-ups under way, first begun first. -/
  lookups : List Lookup := []

namespace Intake

/-- An empty queue; it holds at least one job and permits at least one look-up. -/
def new (capacity permits : Nat) : Intake := { capacity := max capacity 1, permits := max permits 1 }

/-- What the queue says to a job. -/
inductive Answer where
  | queued
  | full
  | closed
  deriving DecidableEq

/-- Jobs are taken in: there is a worker, or there may be one. -/
def isOpen (q : Intake) : Bool := q.worker = .absent || q.worker = .running

/-- Puts a job into the queue, if it is open and has room. -/
def submit (q : Intake) (j : Job) : Intake × Answer :=
  if !q.isOpen then (q, .closed)
  else if q.capacity ≤ q.jobs.length then (q, .full)
  else ({ q with jobs := q.jobs ++ [j] }, .queued)

/-- Leaves the queue without its worker; jobs and look-ups are lost. -/
def close (q : Intake) (worker : Worker) : Intake :=
  { q with worker := worker, jobs := [], lookups := [] }

/-- The look-ups whose answers are there by a time, in the order of the answers. -/
def due (q : Intake) (now : Nat) : List Lookup :=
  (q.lookups.filter (·.dueAt ≤ now)).mergeSort fun a b => a.dueAt ≤ b.dueAt

/-- Forgets the look-ups whose answers are there by a time. -/
def dropDue (q : Intake) (now : Nat) : Intake :=
  { q with lookups := q.lookups.filter fun l => now < l.dueAt }

theorem submit_length_le {q : Intake} (h : q.jobs.length ≤ q.capacity) (j : Job) :
    (q.submit j).1.jobs.length ≤ (q.submit j).1.capacity := by
  unfold submit
  split
  · exact h
  · split
    · exact h
    · simp only [List.length_append, List.length_singleton]
      omega

theorem mem_due {q : Intake} {now : Nat} {l : Lookup} :
    l ∈ q.due now ↔ l ∈ q.lookups ∧ l.dueAt ≤ now := by
  unfold due
  rw [List.mem_mergeSort, List.mem_filter, decide_eq_true_eq]

end Intake

end SwapFloor
