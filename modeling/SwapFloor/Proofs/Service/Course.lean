import SwapFloor.Proofs.Service.Runs

/-!
# Courses of the service

A run has no breakdowns in it, but the service outlives them: a trade with which it broke down was
marked as seen and published to some of its rooms, recycling that broke down has closed some rooms,
and the worker or the chore is gone. A course is what the service goes through with all of this,
and with the trades that came to the rankings on the way.

Main statements: runs and turns are courses, whatever breaks down in a turn (`reaches_of_run`,
`reaches_turn`).
-/

namespace SwapFloor.Service

/-- A trade that came to the rankings, and when. -/
structure Arrival where
  atMs : Nat
  trade : TaggedTrade

/-- What comes to the rankings when a trade is processed. -/
def arrivals (s : Service) (t : Trade) : List Arrival :=
  match (s.processTrade t).2 with
  | .ok .broadcast => [⟨s.elapsedMs, ⟨t, s.tags.get? t.signer⟩⟩]
  | _ => []

/-- The service gets from one state to another, be it that it breaks down on the way. -/
inductive Course : Service → List Arrival → Service → Prop
  | done (s : Service) : Course s [] s
  | errand {s s₁ s' : Service} {as : List Arrival} (h : Errand s s₁) (rest : Course s₁ as s') :
    Course s as s'
  | reap {s s' : Service} {as : List Arrival} (at_ : Instant)
    (rest : Course (s.reapRoomsAt at_).1 as s') : Course s as s'
  | publish {s s' : Service} {as : List Arrival} (room : String) (t : Trade)
    (rest : Course (s.publishTrade room t).1 as s') : Course s as s'
  | process {s s' : Service} {as : List Arrival} (t : Trade)
    (rest : Course (s.processTrade t).1 as s') : Course s (s.arrivals t ++ as) s'

/-- Some course leads from one state to another. -/
def Reaches (s s' : Service) : Prop := ∃ as, Course s as s'

variable {s s' s'' : Service}

theorem Course.append {as bs : List Arrival} (h : Course s as s') (h' : Course s' bs s'') :
    Course s (as ++ bs) s'' := by
  induction h with
  | done => exact h'
  | errand he _ ih => exact .errand he (ih h')
  | reap at_ _ ih => exact .reap at_ (ih h')
  | publish room t _ ih => exact .publish room t (ih h')
  | process t _ ih =>
    rw [List.append_assoc]
    exact .process t (ih h')

namespace Reaches

theorem refl (s : Service) : Reaches s s := ⟨[], .done s⟩

theorem trans (h : Reaches s s') (h' : Reaches s' s'') : Reaches s s'' :=
  h.elim fun _ hc => h'.elim fun _ hc' => ⟨_, hc.append hc'⟩

theorem of_errand (h : Errand s s') : Reaches s s' := ⟨[], .errand h (.done s')⟩

theorem of_aside (h : Aside s s') : Reaches s s' := of_errand (.aside h)

end Reaches

theorem reaches_publishTrade (s : Service) (room : String) (t : Trade) :
    Reaches s (s.publishTrade room t).1 := ⟨_, .publish room t (.done _)⟩

theorem reaches_processTrade (s : Service) (t : Trade) : Reaches s (s.processTrade t).1 :=
  ⟨_, .process t (.done _)⟩

/-- What is done without a breakdown is a course. -/
theorem reaches_of_run (h : Run s s') : Reaches s s' := by
  induction h with
  | refl => exact .refl s
  | @tail s₁ _ _ hstep ih =>
    refine ih.trans ?_
    cases hstep with
    | errand he => exact .of_errand he
    | @publish room t _ hp =>
      have hpublish := reaches_publishTrade s₁ room t
      rw [hp] at hpublish
      exact hpublish
    | @process t _ o hp =>
      have hprocess := reaches_processTrade s₁ t
      rw [hp] at hprocess
      exact hprocess

/-! ## Records and notices -/

theorem reaches_processTx (s : Service) (r : TxRecord) (batchTime : Option Int64) :
    Reaches s (s.processTx r batchTime).1 := by
  unfold processTx
  split
  · exact reaches_processTrade ..
  · exact .of_aside (aside_countOutcome ..)
  · exact .refl s

theorem reaches_processRecord (s : Service) (batchTime : Option Int64) (j : Json) :
    Reaches s (s.processRecord batchTime j).1 := by
  unfold processRecord
  split
  · exact reaches_processTx ..
  · exact .of_aside (aside_countOutcome ..)

theorem reaches_processRecords (s : Service) (batchTime : Option Int64) (report : JobReport)
    (js : List Json) : Reaches s (s.processRecords batchTime report js).1 := by
  induction js generalizing s report with
  | nil => exact .refl s
  | cons j js ih =>
    have hfirst := reaches_processRecord s batchTime j
    unfold processRecords
    split
    · rename_i hp
      rw [hp] at hfirst
      exact hfirst.trans (ih ..)
    · rename_i hp
      rw [hp] at hfirst
      exact hfirst

theorem reaches_processBatch (s : Service) (b : Batch) : Reaches s (s.processBatch b).1 :=
  reaches_processRecords ..

theorem reaches_completeNotice (s : Service) (n : LogNotice)
    (found : Except Failure (Option TxRecord)) : Reaches s (s.completeNotice n found).1 := by
  unfold completeNotice
  split
  · exact reaches_processTx ..
  · exact .of_aside (aside_countOutcome ..)
  · exact .of_aside (aside_countOutcome ..)

theorem reaches_processNotice (s : Service) (lookUp : String → Except Failure (Option TxRecord))
    (n : LogNotice) : Reaches s (s.processNotice lookUp n).1 := by
  unfold processNotice
  split
  · exact .of_aside (aside_countOutcome ..)
  · exact reaches_completeNotice ..

/-! ## The queue -/

theorem reaches_of_intake (s : Service) (q : Intake) : Reaches s { s with intake := q } :=
  .of_aside { Aside.refl s with }

variable {lookUp : String → Except Failure (Option TxRecord)} {lookUpMs : String → Nat}

theorem reaches_processJob (s : Service) (j : Job) : Reaches s (s.processJob lookUp j).1 := by
  cases j with
  | batch b => exact reaches_processBatch s b
  | notice n =>
    have hnotice := reaches_processNotice s lookUp n
    unfold processJob
    dsimp only
    split
    · rename_i hp
      rw [hp] at hnotice
      exact hnotice
    · rename_i hp
      rw [hp] at hnotice
      exact hnotice

theorem reaches_processJobs (s : Service) (reports : List JobReport) (jobs : List Job) :
    Reaches s (s.processJobs lookUp reports jobs).1 := by
  induction jobs generalizing s reports with
  | nil => exact .refl s
  | cons j jobs ih =>
    have hjob : Reaches s ({ s with intake := { s.intake with jobs := jobs } }.processJob
        lookUp j).1 :=
      (reaches_of_intake ..).trans (reaches_processJob ..)
    unfold processJobs
    dsimp only
    split
    · rename_i hp
      rw [hp] at hjob
      exact hjob.trans (ih ..)
    · rename_i hp
      rw [hp] at hjob
      exact hjob

theorem reaches_processQueue (s : Service) : Reaches s (s.processQueue lookUp).1 := by
  unfold processQueue
  split
  · exact reaches_processJobs ..
  · exact .refl s

/-! ## The worker -/

theorem reaches_survive {α : Type} {r : Service × Except Breakdown α} (h : Reaches s r.1) :
    Reaches s (survive r) := by
  obtain ⟨s₁, e⟩ := r
  cases e with
  | ok a => exact h
  | error b =>
    refine h.trans (.of_aside ?_)
    exact { Aside.refl s₁ with }

theorem reaches_workOn (s : Service) (j : Job) : Reaches s (s.workOn lookUpMs j) := by
  cases j with
  | batch b => exact reaches_survive (reaches_processBatch s b)
  | notice n => exact .of_aside (aside_beginLookup ..)

theorem reaches_workThrough (s : Service) (jobs : List Job) :
    Reaches s (s.workThrough lookUpMs jobs) := by
  induction jobs generalizing s with
  | nil => exact .refl s
  | cons j jobs ih =>
    unfold workThrough
    split
    · exact (reaches_of_intake ..).trans ((reaches_workOn ..).trans (ih _))
    · exact .refl s

theorem reaches_takeIn (s : Service) (ls : List Lookup) : Reaches s (s.takeIn lookUp ls) := by
  induction ls generalizing s with
  | nil => exact .refl s
  | cons l ls ih =>
    unfold takeIn
    split
    · exact (reaches_survive (reaches_completeNotice ..)).trans (ih _)
    · exact .refl s

/-- Whatever the worker does is a course, also if it breaks down. -/
theorem reaches_work (s : Service) : Reaches s (s.work lookUp lookUpMs) :=
  (reaches_workThrough ..).trans ((reaches_of_intake ..).trans (reaches_takeIn ..))

/-! ## Turns -/

theorem reaches_doChore (s : Service) (c : Chore) : Reaches s (s.doChore c).1 := by
  cases c with
  | reapRooms => exact ⟨[], .reap s.now (.done _)⟩
  | pruneConnections => exact .of_errand (.prune ..)
  | sweepSeen => exact .of_errand .sweep
  | sweepLimiter =>
    refine .of_aside ?_
    exact { Aside.refl s with }
  | retryWatches => exact .of_errand .retry

theorem reaches_doDue (s : Service) (t : Timer) : Reaches s (s.doDue t) := by
  have hchore := reaches_doChore s t.chore
  unfold doDue
  split
  · rename_i s₁ hd
    rw [hd] at hchore
    refine hchore.trans (.of_aside ?_)
    exact { Aside.refl s₁ with }
  · rename_i s₁ _ hd
    rw [hd] at hchore
    refine hchore.trans (.of_aside ?_)
    exact { Aside.refl s₁ with }

theorem reaches_doDueChores (s : Service) : Reaches s s.doDueChores := by
  have key : ∀ (ts : List Timer) (s : Service), Reaches s (ts.foldl doDue s) := by
    intro ts
    induction ts with
    | nil => exact fun s => .refl s
    | cons t ts ih => exact fun s => (reaches_doDue s t).trans (ih _)
  exact key _ s

variable {σ : Type}

/-- The service comes to rest in a course, whatever breaks down on the way. -/
theorem reaches_turn (out : Outside σ) (s : Service) (p : σ) : Reaches s (s.turn out p).1 :=
  ((reaches_doDueChores s).trans (reaches_of_run (run_makeStarted out _ p))).trans
    ((reaches_work _).trans (reaches_of_run (run_flush _)))

end SwapFloor.Service
