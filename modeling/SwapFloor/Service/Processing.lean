import SwapFloor.Ingest.SwapReading
import SwapFloor.Ingest.TxLookup
import SwapFloor.Service.Rooms

/-!
# What becomes of records

A record is read as a trade, unless its signature was seen before; the trade goes to the rooms
that watch one of its addresses, in the order of their ids, and then into the rankings. A notice
stands for a record that has to be looked up first. Every record is counted by what became of it.

A breakdown stops the job in which it happens and comes with the service that it leaves behind.
-/

namespace SwapFloor.Service

/-- Counts what became of a record. -/
def countOutcome (s : Service) (o : Outcome) : Service :=
  s.count "ingest_records_total" [("outcome", o.label)] 1

/-- A record of which this has become. -/
def settled (s : Service) (o : Outcome) : Service × Except Breakdown Outcome :=
  (s.countOutcome o, .ok o)

/-! ## Trades -/

/-- Publishes a trade to several rooms. -/
def publishAll (s : Service) (t : Trade) : List String → Service × Option Breakdown
  | [] => (s, none)
  | room :: rest =>
    match s.publishTrade room t with
    | (s, none) => s.publishAll t rest
    | (s, some b) => (s, some b)

/-- Takes a trade into the rankings, with the tag of its signer. -/
def rankTrade (s : Service) (t : Trade) : Service :=
  { s with rankings := s.rankings.ingest ⟨t, s.tags.get? t.signer⟩ s.now }

def processTrade (s : Service) (t : Trade) : Service × Except Breakdown Outcome :=
  match s.seen.mark t.signature s.elapsedMs with
  | (_, false) => s.settled .duplicate
  | (seen, true) =>
    let s := { s with seen := seen }
    match s.publishAll t (s.watches.roomsWatchingAny t.routingKeys) with
    | (s, some b) => (s, .error b)
    | (s, none) => (s.rankTrade t).settled .broadcast

def processTx (s : Service) (r : TxRecord) (batchTime : Option Int64) :
    Service × Except Breakdown Outcome :=
  match SwapReading.read r s.settings.ingest.quoteMint batchTime s.now with
  | .ok t => s.processTrade t
  | .error (.failure _) => s.settled .parseError
  | .error (.breakdown b) => (s, .error b)

/-! ## Batches -/

/-- Processes a record as it was delivered. -/
def processRecord (s : Service) (batchTime : Option Int64) (j : Json) :
    Service × Except Breakdown Outcome :=
  match TxRecord.ofJson j with
  | .ok r => s.processTx r batchTime
  | .error _ => s.settled .parseError

/-- Processes records after those of a report. -/
def processRecords (s : Service) (batchTime : Option Int64) (report : JobReport) :
    List Json → Service × Except Breakdown JobReport
  | [] => (s, .ok report)
  | j :: rest =>
    match s.processRecord batchTime j with
    | (s, .ok o) => s.processRecords batchTime (report.add o) rest
    | (s, .error b) => (s, .error b)

def processBatch (s : Service) (b : Batch) : Service × Except Breakdown JobReport :=
  s.processRecords b.blockTime {} b.records

/-! ## Notices -/

/-- What becomes of a notice without a look-up: a transaction that failed, one that was seen
before, and any one if nothing can be looked up. -/
def refuse? (s : Service) (n : LogNotice) : Option Outcome :=
  if n.isFailed then some .parseError
  else if s.seen.isSeen n.signature s.elapsedMs then some .duplicate
  else if !s.looksUp then some .parseError
  else none

/-- The record of a transaction with what only its notice tells. -/
def enrich (s : Service) (n : LogNotice) (r : TxRecord) : TxRecord :=
  { r with
    trackedAddress := s.watches.addressOf? n.subscription.toNat
    logMessages := if r.logMessages.isEmpty then n.logs else r.logMessages
    slot := if r.slot = 0 then n.slot else r.slot }

/-- Processes a notice whose transaction has been looked up. -/
def completeNotice (s : Service) (n : LogNotice) (found : Except Failure (Option TxRecord)) :
    Service × Except Breakdown Outcome :=
  match found with
  | .ok (some r) => s.processTx (s.enrich n r) none
  | .ok none | .error _ => s.settled .parseError

/-- Processes a notice and waits for the look-up. -/
def processNotice (s : Service) (lookUp : String → Except Failure (Option TxRecord))
    (n : LogNotice) : Service × Except Breakdown Outcome :=
  match s.refuse? n with
  | some o => s.settled o
  | none => s.completeNotice n (lookUp n.signature)

/-- Processes a job and waits for its look-up. -/
def processJob (s : Service) (lookUp : String → Except Failure (Option TxRecord)) :
    Job → Service × Except Breakdown JobReport
  | .batch b => s.processBatch b
  | .notice n =>
    match s.processNotice lookUp n with
    | (s, .ok o) => (s, .ok (({} : JobReport).add o))
    | (s, .error b) => (s, .error b)

/-! ## The queue -/

/-- Counts several records of which the same has become. -/
def countOutcomes (s : Service) (o : Outcome) : Nat → Service
  | 0 => s
  | n + 1 => (s.countOutcome o).countOutcomes o n

/-- Puts a job into the queue; the records of one for which there is no room are counted. -/
def submit (s : Service) (j : Job) : Service × Bool :=
  match s.intake.submit j with
  | (q, .queued) => ({ s with intake := q }, true)
  | (_, .full) => (s.countOutcomes .dropped j.size, false)
  | (_, .closed) => (s, false)

/-- Takes the next job out of the queue. -/
def takeJob? (s : Service) : Option (Job × Service) :=
  match s.intake.jobs with
  | [] => none
  | j :: rest => some (j, { s with intake := { s.intake with jobs := rest } })

/-- Processes jobs, the first ones of the queue, one after the other. -/
def processJobs (s : Service) (lookUp : String → Except Failure (Option TxRecord))
    (reports : List JobReport) : List Job → Service × Except Breakdown (List JobReport)
  | [] => (s, .ok reports)
  | j :: rest =>
    let s := { s with intake := { s.intake with jobs := rest } }
    match s.processJob lookUp j with
    | (s, .ok r) => s.processJobs lookUp (reports ++ [r]) rest
    | (s, .error b) => (s, .error b)

/-- Processes everything in the queue, if no worker does. -/
def processQueue (s : Service) (lookUp : String → Except Failure (Option TxRecord)) :
    Service × Except Breakdown (List JobReport) :=
  if s.intake.worker = .absent then s.processJobs lookUp [] s.intake.jobs else (s, .ok [])

/-! ## The worker -/

/-- Puts the worker to work, unless there has been one. -/
def startWorker (s : Service) : Service × Bool :=
  if s.intake.worker = .absent then
    ({ s with intake := { s.intake with worker := .running } }, true)
  else (s, false)

/-- Ends the worker, and tells whether there was one to end, be it one that had broken down. -/
def stopWorker (s : Service) : Service × Bool :=
  if s.intake.worker = .running ∨ s.intake.worker = .broken then
    ({ s with intake := s.intake.close .gone }, true)
  else (s, false)

/-- Begins the look-up for a notice, which takes some time, unless too many are under way. -/
def beginLookup (s : Service) (n : LogNotice) (lookUpMs : Nat) : Service :=
  match s.refuse? n with
  | some o => s.countOutcome o
  | none =>
    if s.intake.permits ≤ s.intake.lookups.length then s.countOutcome .dropped
    else
      let lookup : Lookup := ⟨n, s.elapsedMs + lookUpMs⟩
      { s with intake := { s.intake with lookups := s.intake.lookups ++ [lookup] } }

/-- Goes on after a step of the worker, which does not survive a breakdown. -/
def survive {α : Type} : Service × Except Breakdown α → Service
  | (s, .ok _) => s
  | (s, .error _) => { s with intake := s.intake.close .broken }

def workOn (s : Service) (lookUpMs : String → Nat) : Job → Service
  | .batch b => survive (s.processBatch b)
  | .notice n => s.beginLookup n (lookUpMs n.signature)

/-- The worker does jobs, the first ones of the queue, as long as it is there. -/
def workThrough (s : Service) (lookUpMs : String → Nat) : List Job → Service
  | [] => s
  | j :: rest =>
    if s.intake.worker = .running then
      let s := { s with intake := { s.intake with jobs := rest } }
      (s.workOn lookUpMs j).workThrough lookUpMs rest
    else s

/-- The worker takes in what was looked up, as long as it is there. -/
def takeIn (s : Service) (lookUp : String → Except Failure (Option TxRecord)) :
    List Lookup → Service
  | [] => s
  | l :: rest =>
    if s.intake.worker = .running then
      (survive (s.completeNotice l.notice (lookUp l.notice.signature))).takeIn lookUp rest
    else s

/-- The worker does everything that there is to do at present. -/
def work (s : Service) (lookUp : String → Except Failure (Option TxRecord))
    (lookUpMs : String → Nat) : Service :=
  let s := s.workThrough lookUpMs s.intake.jobs
  let due := s.intake.due s.elapsedMs
  let s := { s with intake := s.intake.dropDue s.elapsedMs }
  s.takeIn lookUp due

end SwapFloor.Service
