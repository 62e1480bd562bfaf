import SwapFloor.Proofs.Service.Moments
import SwapFloor.Proofs.Service.Spacing

/-!
# A shift of the worker

The worker takes one job after the other. The records of a batch it processes by itself; for a
notice it begins a look-up, which ends whenever it does, and what was found waits until the worker
takes it in. In between more jobs are handed in, and other things happen beside. Whatever is done,
each record that was handed in waits in the queue, is in hand, is being looked up, was found, or
has been counted with what became of it.

Main statements: each record is accounted for once, and never are more look-ups under way than are
permitted (`accounted_of_run`); all that the worker does at a time is part of a shift
(`run_work_of_running`).
-/

namespace SwapFloor

/-- The service with a worker that has something in hand. -/
structure Shift where
  service : Service
  /-- The records of a batch that are left, each with the time of the batch. -/
  hand : List (Option Int64 × Json) := []
  /-- What was found for notices and was not taken in yet. -/
  found : List (LogNotice × Except Failure (Option TxRecord)) := []

namespace Shift

/-- What happens in a shift, with the number of records that are handed in. No step breaks down. -/
inductive Step (beside : Service → Service → Prop) (sh : Shift) : Nat → Shift → Prop
  | submit (j : Job) : Step beside sh j.size { sh with service := (sh.service.submit j).1 }
  | start : Step beside sh 0 { sh with service := sh.service.startWorker.1 }
  | takeBatch {b s'} (hrun : sh.service.intake.worker = .running) (hfree : sh.hand = [])
    (h : sh.service.takeJob? = some (.batch b, s')) :
    Step beside sh 0 { sh with service := s', hand := b.records.map fun j => (b.blockTime, j) }
  | takeNotice {n s'} (lookUpMs : Nat) (hrun : sh.service.intake.worker = .running)
    (hfree : sh.hand = []) (h : sh.service.takeJob? = some (.notice n, s')) :
    Step beside sh 0 { sh with service := s'.beginLookup n lookUpMs }
  | record {time j rest s' o} (hhand : sh.hand = (time, j) :: rest)
    (h : sh.service.processRecord time j = (s', .ok o)) :
    Step beside sh 0 { sh with service := s', hand := rest }
  /-- A look-up ends, whichever it is, and makes room for another one. -/
  | answer {earlier l later} (result : Except Failure (Option TxRecord))
    (h : sh.service.intake.lookups = earlier ++ l :: later) :
    Step beside sh 0 { sh with
      service := { sh.service with
        intake := { sh.service.intake with lookups := earlier ++ later } }
      found := sh.found ++ [(l.notice, result)] }
  | takeIn {earlier n result later s' o} (hrun : sh.service.intake.worker = .running)
    (hfree : sh.hand = []) (hfound : sh.found = earlier ++ (n, result) :: later)
    (h : sh.service.completeNotice n result = (s', .ok o)) :
    Step beside sh 0 { sh with service := s', found := earlier ++ later }
  | beside {s'} (h : beside sh.service s') : Step beside sh 0 { sh with service := s' }

/-- Steps one after the other, with the number of records that are handed in altogether. -/
inductive Run (beside : Service → Service → Prop) (sh : Shift) : Nat → Shift → Prop
  | refl : Run beside sh 0 sh
  | tail {n k sh' sh''} (h : Run beside sh n sh') (hs : Step beside sh' k sh'') :
    Run beside sh (n + k) sh''

variable {beside : Service → Service → Prop} {sh sh' sh'' : Shift} {n k : Nat}

theorem Run.single (h : Step beside sh k sh') : Run beside sh k sh' :=
  Nat.zero_add k ▸ Run.refl.tail h

theorem Run.trans (h : Run beside sh n sh') (h' : Run beside sh' k sh'') :
    Run beside sh (n + k) sh'' := by
  induction h' with
  | refl => exact h
  | tail _ hs ih => exact Nat.add_assoc .. ▸ ih.tail hs

theorem Run.head (h : Step beside sh 0 sh') (h' : Run beside sh' k sh'') : Run beside sh k sh'' :=
  Nat.zero_add k ▸ (Run.single h).trans h'

end Shift

namespace Service

/-! ## Outcomes -/

/-- How many records have been counted with an outcome. -/
def outcomeCount (s : Service) (o : Outcome) : Int :=
  s.metrics.value ⟨"ingest_records_total", [("outcome", o.label)]⟩

/-- How many records have been counted. -/
def recorded (s : Service) : Int :=
  s.outcomeCount .broadcast + s.outcomeCount .duplicate + s.outcomeCount .parseError
    + s.outcomeCount .dropped

/-- Neither the intake nor the counts of outcomes have changed. -/
structure Apart (s s' : Service) : Prop where
  intake : s'.intake = s.intake
  outcomes : ∀ o, s'.outcomeCount o = s.outcomeCount o

/-- One more record was counted, and the intake is as it was. -/
structure Settles (s s' : Service) : Prop where
  intake : s'.intake = s.intake
  recorded : s'.recorded = s.recorded + 1

variable {s s' : Service}

theorem Apart.recorded (h : Apart s s') : s'.recorded = s.recorded := by
  unfold Service.recorded
  rw [h.outcomes, h.outcomes, h.outcomes, h.outcomes]

theorem outcomeCount_countOutcome (s : Service) (o o' : Outcome) :
    (s.countOutcome o).outcomeCount o' = s.outcomeCount o' + if o' = o then 1 else 0 := by
  unfold outcomeCount countOutcome count
  rw [Metrics.value_add]
  cases o <;> cases o' <;> simp [Outcome.label]

theorem settles_countOutcome (s : Service) (o : Outcome) : Settles s (s.countOutcome o) where
  intake := rfl
  recorded := by
    unfold recorded
    rw [outcomeCount_countOutcome, outcomeCount_countOutcome, outcomeCount_countOutcome,
      outcomeCount_countOutcome]
    cases o <;> simp <;> omega

theorem countOutcomes_eq (s : Service) (o : Outcome) (n : Nat) :
    (s.countOutcomes o n).intake = s.intake ∧
      (s.countOutcomes o n).recorded = s.recorded + n := by
  induction n generalizing s with
  | zero => exact ⟨rfl, (Int.add_zero _).symm⟩
  | succ n ih =>
    have hone := settles_countOutcome s o
    obtain ⟨hintake, hrecorded⟩ := ih (s.countOutcome o)
    refine ⟨hintake.trans hone.intake, hrecorded.trans ?_⟩
    rw [hone.recorded]
    omega

theorem settles_processTrade {t : Trade} {o : Outcome} (h : s.processTrade t = (s', .ok o)) :
    Settles s s' := by
  cases hseen : s.seen.isSeen t.signature s.elapsedMs with
  | true =>
    obtain ⟨rfl, _⟩ := Prod.mk.inj ((processTrade_seen hseen).symm.trans h)
    exact settles_countOutcome s _
  | false =>
    obtain ⟨_, s₁, hall, rfl⟩ := processTrade_unseen hseen h
    obtain ⟨_, _, heq⟩ := publishAll_eq (s.marked t) t (s.watches.roomsWatchingAny t.routingKeys)
    have hs₁ : s₁ = _ := (congrArg Prod.fst hall).symm.trans heq
    have hcount := settles_countOutcome (s₁.rankTrade t) .broadcast
    refine ⟨hcount.intake.trans ?_, hcount.recorded.trans ?_⟩
    · rw [hs₁]
      rfl
    · rw [hs₁]
      rfl

theorem Became.settles {t? : Option Trade} {o : Outcome} (h : s.Became t? s' o) :
    Settles s s' := by
  cases t? with
  | some t => exact settles_processTrade h
  | none =>
    obtain ⟨_, rfl⟩ := h
    exact settles_countOutcome s _

/-- A notice that is taken in is counted at once, or a look-up for it is begun, and then one more
is permitted. -/
theorem beginLookup_cases (s : Service) (n : LogNotice) (lookUpMs : Nat) :
    Settles s (s.beginLookup n lookUpMs) ∨
      s.intake.lookups.length < s.intake.permits ∧ ∃ l, s.beginLookup n lookUpMs
        = { s with intake := { s.intake with lookups := s.intake.lookups ++ [l] } } := by
  unfold beginLookup
  split
  · exact Or.inl (settles_countOutcome s _)
  · split
    · exact Or.inl (settles_countOutcome s _)
    · rename_i hroom
      exact Or.inr ⟨Nat.lt_of_not_le hroom, _, rfl⟩

theorem takeJob?_eq_some {j : Job} (h : s.takeJob? = some (j, s')) :
    ∃ rest, s.intake.jobs = j :: rest ∧
      s' = { s with intake := { s.intake with jobs := rest } } := by
  unfold takeJob? at h
  split at h
  · cases h
  · rename_i j' rest hjobs
    obtain ⟨rfl, rfl⟩ := Prod.mk.inj (Option.some.inj h)
    exact ⟨rest, hjobs, rfl⟩

end Service

namespace Shift

open Service

/-! ## Every record -/

/-- The records that wait in the queue. -/
def queued (sh : Shift) : Nat := (sh.service.intake.jobs.map Job.size).sum

/-- Of all records that were handed in, each is accounted for once. -/
structure Accounted (limit : Nat) (sh : Shift) (n : Nat) : Prop where
  isOpen : sh.service.intake.isOpen = true
  permits : sh.service.intake.permits = limit
  /-- No more look-ups are under way than are permitted. -/
  within : sh.service.intake.lookups.length ≤ limit
  total : (n : Int) = sh.queued + sh.hand.length
    + (sh.service.intake.lookups.length + sh.found.length) + sh.service.recorded

namespace Accounted

variable {limit : Nat} {beside : Service → Service → Prop} {sh sh' : Shift} {n k : Nat}
  {s' : Service}

theorem submit (h : Accounted limit sh n) (j : Job) :
    Accounted limit { sh with service := (sh.service.submit j).1 } (n + j.size) := by
  have htotal := h.total
  have hclosed : ¬ (!sh.service.intake.isOpen) = true := by
    rw [h.isOpen]
    exact Bool.false_ne_true
  unfold Service.submit Intake.submit
  rw [if_neg hclosed]
  by_cases hroom : sh.service.intake.capacity ≤ sh.service.intake.jobs.length
  · obtain ⟨hintake, hrecorded⟩ := countOutcomes_eq sh.service .dropped j.size
    rw [if_pos hroom]
    refine ⟨hintake ▸ h.isOpen, hintake ▸ h.permits, hintake ▸ h.within, ?_⟩
    unfold queued at htotal ⊢
    dsimp only
    rw [hintake, hrecorded]
    omega
  · rw [if_neg hroom]
    refine ⟨h.isOpen, h.permits, h.within, ?_⟩
    unfold queued at htotal ⊢
    dsimp only
    rw [List.map_append, List.sum_append, List.map_singleton, List.sum_singleton]
    change _ = _ + sh.service.recorded
    omega

theorem start (h : Accounted limit sh n) :
    Accounted limit { sh with service := sh.service.startWorker.1 } n := by
  unfold startWorker
  split
  · exact ⟨rfl, h.permits, h.within, h.total⟩
  · exact h

/-- A record goes from where it was over to those that are counted. -/
theorem settle (h : Accounted limit sh n) (hs : Settles sh.service s')
    (hand : List (Option Int64 × Json))
    (found : List (LogNotice × Except Failure (Option TxRecord)))
    (hone : hand.length + found.length + 1 = sh.hand.length + sh.found.length) :
    Accounted limit ⟨s', hand, found⟩ n := by
  have htotal := h.total
  refine ⟨hs.intake ▸ h.isOpen, hs.intake ▸ h.permits, hs.intake ▸ h.within, ?_⟩
  unfold queued at htotal ⊢
  dsimp only
  rw [hs.intake, hs.recorded]
  omega

theorem takeBatch (h : Accounted limit sh n) {b : Batch} (hfree : sh.hand = [])
    (hj : sh.service.takeJob? = some (.batch b, s')) :
    Accounted limit
      { sh with service := s', hand := b.records.map fun j => (b.blockTime, j) } n := by
  obtain ⟨rest, hjobs, rfl⟩ := takeJob?_eq_some hj
  have htotal := h.total
  refine ⟨h.isOpen, h.permits, h.within, ?_⟩
  unfold queued at htotal ⊢
  dsimp only
  rw [hjobs, hfree, List.map_cons, List.sum_cons, Job.size, List.length_nil] at htotal
  rw [List.length_map]
  change _ = _ + sh.service.recorded
  omega

theorem takeNotice (h : Accounted limit sh n) {m : LogNotice} (lookUpMs : Nat)
    (hj : sh.service.takeJob? = some (.notice m, s')) :
    Accounted limit { sh with service := s'.beginLookup m lookUpMs } n := by
  obtain ⟨rest, hjobs, rfl⟩ := takeJob?_eq_some hj
  have htotal := h.total
  have hpermits := h.permits
  unfold queued at htotal
  rw [hjobs, List.map_cons, List.sum_cons, Job.size] at htotal
  rcases beginLookup_cases { sh.service with intake := { sh.service.intake with jobs := rest } } m
    lookUpMs with hs | ⟨hroom, l, heq⟩
  · refine ⟨hs.intake ▸ h.isOpen, hs.intake ▸ h.permits, hs.intake ▸ h.within, ?_⟩
    unfold queued
    dsimp only
    rw [hs.intake, hs.recorded]
    change _ = _ + (sh.service.recorded + 1)
    dsimp only
    omega
  · rw [heq]
    dsimp only at hroom
    refine ⟨h.isOpen, h.permits, ?_, ?_⟩
    · dsimp only
      rw [List.length_append, List.length_singleton]
      omega
    · unfold queued
      dsimp only
      rw [List.length_append, List.length_singleton]
      change _ = _ + sh.service.recorded
      omega

theorem answer (h : Accounted limit sh n) {earlier later : List Lookup} {l : Lookup}
    (result : Except Failure (Option TxRecord))
    (hl : sh.service.intake.lookups = earlier ++ l :: later) :
    Accounted limit { sh with
      service := { sh.service with
        intake := { sh.service.intake with lookups := earlier ++ later } }
      found := sh.found ++ [(l.notice, result)] } n := by
  have htotal := h.total
  have hwithin := h.within
  rw [hl, List.length_append, List.length_cons] at htotal hwithin
  refine ⟨h.isOpen, h.permits, ?_, ?_⟩
  · dsimp only
    rw [List.length_append]
    omega
  · unfold queued at htotal ⊢
    dsimp only
    rw [List.length_append, List.length_append, List.length_singleton]
    change _ = _ + sh.service.recorded
    omega

theorem step (h : Accounted limit sh n) (hs : Step Apart sh k sh') :
    Accounted limit sh' (n + k) := by
  cases hs with
  | submit j => exact h.submit j
  | start => exact h.start
  | takeBatch hrun hfree hj => exact h.takeBatch hfree hj
  | takeNotice lookUpMs hrun hfree hj => exact h.takeNotice lookUpMs hj
  | @record time j rest s' o hhand hp =>
    refine h.settle (became_of_processRecord hp).settles rest sh.found ?_
    rw [hhand, List.length_cons]
    omega
  | answer result hl => exact h.answer result hl
  | @takeIn earlier m result later s' o hrun hfree hfound hp =>
    refine h.settle (became_of_completeNotice hp).settles sh.hand (earlier ++ later) ?_
    rw [hfound, List.length_append, List.length_append, List.length_cons]
    omega
  | beside ha =>
    have htotal := h.total
    refine ⟨ha.intake ▸ h.isOpen, ha.intake ▸ h.permits, ha.intake ▸ h.within, ?_⟩
    unfold queued at htotal ⊢
    dsimp only
    rw [ha.intake, ha.recorded]
    exact htotal

theorem run (h : Accounted limit sh 0) (hr : Run Apart sh n sh') : Accounted limit sh' n := by
  induction hr with
  | refl => exact h
  | tail _ hs ih => exact ih.step hs

end Accounted

theorem accounted_new (settings : Settings) (draws : Draws) (looksUp : Bool) (startedAt : Instant) :
    Accounted (max settings.ingest.enrichConcurrency 1)
      ⟨.new settings draws looksUp startedAt, [], []⟩ 0 where
  isOpen := rfl
  permits := rfl
  within := Nat.zero_le _
  total := rfl

/-- Whatever is handed in and in whatever order look-ups end, each record that was handed in waits
in the queue, is in hand, has a look-up that is not taken in, or was counted with its outcome; and
no more look-ups are under way at a time than the settings permit. -/
theorem accounted_of_run (settings : Settings) (draws : Draws) (looksUp : Bool)
    (startedAt : Instant) {sh : Shift} {n : Nat}
    (h : Run Apart ⟨.new settings draws looksUp startedAt, [], []⟩ n sh) :
    (n : Int) = (sh.service.intake.jobs.map Job.size).sum + sh.hand.length
        + (sh.service.intake.lookups.length + sh.found.length)
        + (sh.service.outcomeCount .broadcast + sh.service.outcomeCount .duplicate
          + sh.service.outcomeCount .parseError + sh.service.outcomeCount .dropped) ∧
      sh.service.intake.lookups.length ≤ max settings.ingest.enrichConcurrency 1 :=
  have hall := (accounted_new settings draws looksUp startedAt).run h
  ⟨hall.total, hall.within⟩

/-- A queue with room for one job, and one look-up at a time. -/
def narrow : Settings := { ingest := { queueCapacity := 1, enrichConcurrency := 1 } }

def narrowNotice : LogNotice := ⟨7, 100, "sig", [], none⟩

/-- Two unreadable records come in a batch, and a notice for which there is no room; then one notice
is looked up while another one is handed in and finds no permit, and a last one waits. -/
theorem accounted_narrow : ∃ sh,
    Run Apart ⟨.new narrow growingIds true ⟨0, false⟩, [], []⟩ 6 sh ∧
      sh.service.intake.jobs.length = 1 ∧ sh.found.length = 1 ∧
      sh.service.outcomeCount .parseError = 2 ∧ sh.service.outcomeCount .dropped = 2 ∧
      ((6 : Nat) : Int) = (sh.service.intake.jobs.map Job.size).sum + sh.hand.length
        + (sh.service.intake.lookups.length + sh.found.length)
        + (sh.service.outcomeCount .broadcast + sh.service.outcomeCount .duplicate
          + sh.service.outcomeCount .parseError + sh.service.outcomeCount .dropped) ∧
      sh.service.intake.lookups.length ≤ 1 := by
  have hbatch : Step Apart ⟨.new narrow growingIds true ⟨0, false⟩, [], []⟩ 2 ⟨_, [], []⟩ :=
    .submit (.batch ⟨none, [.null, .null]⟩)
  have h₁ := Run.refl.tail hbatch
  have h₂ := h₁.tail (.submit (.notice narrowNotice))
  have h₃ := h₂.tail .start
  have h₄ := h₃.tail (.takeBatch rfl rfl rfl)
  have h₅ := h₄.tail (.record rfl rfl)
  have h₆ := h₅.tail (.submit (.notice narrowNotice))
  have h₇ := h₆.tail (.record rfl rfl)
  have h₈ := h₇.tail (.takeNotice 1000 rfl rfl rfl)
  have h₉ := h₈.tail (.submit (.notice narrowNotice))
  have h₁₀ := h₉.tail (.takeNotice 1000 rfl rfl rfl)
  have h₁₁ := h₁₀.tail (.answer (.ok none) (show _ = [] ++ _ :: [] from rfl))
  have h₁₂ := h₁₁.tail (.submit (.notice narrowNotice))
  obtain ⟨htotal, hwithin⟩ := accounted_of_run narrow growingIds true ⟨0, false⟩ h₁₂
  exact ⟨_, h₁₂, rfl, rfl, by decide +kernel, by decide +kernel, htotal, hwithin⟩

/-! ## What the worker does at a time -/

variable {s s' : Service} {lookUp : String → Except Failure (Option TxRecord)}
  {lookUpMs : String → Nat} {beside : Service → Service → Prop}
  {found : List (LogNotice × Except Failure (Option TxRecord))}

theorem run_processRecords {batchTime : Option Int64} {report report' : JobReport}
    {js : List Json} (h : s.processRecords batchTime report js = (s', .ok report')) :
    Run beside ⟨s, js.map fun j => (batchTime, j), found⟩ 0 ⟨s', [], found⟩ ∧
      s'.intake = s.intake := by
  induction js generalizing s report with
  | nil =>
    cases h
    exact ⟨.refl, rfl⟩
  | cons j js ih =>
    unfold processRecords at h
    split at h
    · rename_i s₁ o hp
      obtain ⟨hrest, hintake⟩ := ih h
      have hone : Step beside ⟨s, (j :: js).map fun j => (batchTime, j), found⟩ 0
          ⟨s₁, js.map fun j => (batchTime, j), found⟩ := .record rfl hp
      exact ⟨hrest.head hone, hintake.trans (became_of_processRecord hp).settles.intake⟩
    · cases h

/-- The worker does one job. -/
theorem run_workOn {j : Job} {jobs : List Job} (hjobs : s.intake.jobs = j :: jobs)
    (hrun : s.intake.worker = .running)
    (h : ({ s with intake := { s.intake with jobs := jobs } }.workOn lookUpMs j).intake.worker
      = .running) :
    Run beside ⟨s, [], found⟩ 0
        ⟨{ s with intake := { s.intake with jobs := jobs } }.workOn lookUpMs j, [], found⟩ ∧
      ({ s with intake := { s.intake with jobs := jobs } }.workOn lookUpMs j).intake.jobs
        = jobs := by
  have htake : s.takeJob? = some (j, { s with intake := { s.intake with jobs := jobs } }) := by
    unfold takeJob?
    rw [hjobs]
  cases j with
  | batch b =>
    obtain ⟨report, hb⟩ := ok_of_survive h
    obtain ⟨hrecords, hintake⟩ : Run beside ⟨_, _, found⟩ 0 ⟨_, _, found⟩ ∧ _ :=
      run_processRecords hb
    refine ⟨hrecords.head (.takeBatch hrun rfl htake), ?_⟩
    exact congrArg Intake.jobs hintake
  | notice n =>
    refine ⟨.single (.takeNotice (lookUpMs n.signature) hrun rfl htake), ?_⟩
    rcases beginLookup_cases { s with intake := { s.intake with jobs := jobs } } n
      (lookUpMs n.signature) with hs | ⟨_, l, heq⟩
    · exact congrArg Intake.jobs hs.intake
    · exact congrArg (fun s => s.intake.jobs) heq

theorem run_workThrough {jobs : List Job} (hjobs : s.intake.jobs = jobs)
    (h : (s.workThrough lookUpMs jobs).intake.worker = .running) :
    Run beside ⟨s, [], found⟩ 0 ⟨s.workThrough lookUpMs jobs, [], found⟩ := by
  induction jobs generalizing s with
  | nil => exact .refl
  | cons j jobs ih =>
    unfold workThrough at h ⊢
    split
    · rename_i hrun
      rw [if_pos hrun] at h
      obtain ⟨hone, hrest⟩ : Run beside ⟨s, [], found⟩ 0 _ ∧ _ :=
        run_workOn hjobs hrun (running_of_workThrough h)
      exact hone.trans (ih hrest h)
    · exact .refl

variable (lookUp beside found) in
/-- Some of the look-ups end, one after the other. -/
theorem run_answers (p : Lookup → Bool) (kept ls : List Lookup)
    (hlookups : s.intake.lookups = kept ++ ls) :
    Run beside ⟨s, [], found⟩ 0
      ⟨{ s with intake := { s.intake with lookups := kept ++ ls.filter fun l => !p l } }, [],
        found ++ (ls.filter p).map fun l => (l.notice, lookUp l.notice.signature)⟩ := by
  induction ls generalizing s kept found with
  | nil =>
    rw [List.filter_nil, List.filter_nil, List.map_nil, List.append_nil found, ← hlookups]
    exact .refl
  | cons l ls ih =>
    cases hp : p l with
    | true =>
      have hone : Step beside ⟨s, [], found⟩ 0
          ⟨{ s with intake := { s.intake with lookups := kept ++ ls } }, [],
            found ++ [(l.notice, lookUp l.notice.signature)]⟩ := .answer _ hlookups
      rw [List.filter_cons_of_pos hp, List.map_cons,
        List.filter_cons_of_neg (p := fun l => !p l) (by rw [hp]; exact Bool.false_ne_true),
        List.append_cons]
      exact (ih _ kept rfl).head hone
    | false =>
      rw [List.filter_cons_of_neg (p := p) (by rw [hp]; exact Bool.false_ne_true),
        List.filter_cons_of_pos (p := fun l => !p l) (by rw [hp]; rfl), List.append_cons]
      exact ih _ (kept ++ [l]) (hlookups.trans (List.append_cons ..))

/-- What was found may be taken in in any order. -/
theorem run_takeIn {ls : List Lookup}
    (hfound : found.Perm (ls.map fun l => (l.notice, lookUp l.notice.signature)))
    (h : (s.takeIn lookUp ls).intake.worker = .running) :
    Run beside ⟨s, [], found⟩ 0 ⟨s.takeIn lookUp ls, [], []⟩ := by
  induction ls generalizing s found with
  | nil =>
    obtain rfl := hfound.eq_nil
    exact .refl
  | cons l ls ih =>
    have hrun := running_of_takeIn h
    unfold takeIn at h ⊢
    rw [if_pos hrun] at h ⊢
    obtain ⟨o, hc⟩ := ok_of_survive (running_of_takeIn h)
    obtain ⟨earlier, later, rfl⟩ := List.append_of_mem (hfound.mem_iff.2 List.mem_cons_self)
    have hrest := (List.perm_middle.symm.trans hfound).cons_inv
    have hone : Step beside
        ⟨s, [], earlier ++ (l.notice, lookUp l.notice.signature) :: later⟩ 0
        ⟨survive (s.completeNotice l.notice (lookUp l.notice.signature)), [], earlier ++ later⟩ :=
      .takeIn hrun rfl rfl hc
    exact (ih hrest h).head hone

/-- All that the worker does at a time without breaking down is part of a shift. -/
theorem run_work_of_running (h : (s.work lookUp lookUpMs).intake.worker = .running) :
    Run beside ⟨s, [], []⟩ 0 ⟨s.work lookUp lookUpMs, [], []⟩ := by
  unfold work at h ⊢
  dsimp only at h ⊢
  have hafter := running_of_takeIn h
  have hthrough : (s.workThrough lookUpMs s.intake.jobs).intake.worker = .running := hafter
  have hdue : ∀ now (l : Lookup), (!decide (l.dueAt ≤ now)) = decide (now < l.dueAt) := by
    intro now l
    rw [← decide_not, decide_eq_decide]
    exact Nat.not_le
  have hanswers := run_answers lookUp beside [] (s := s.workThrough lookUpMs s.intake.jobs)
    (fun l => l.dueAt ≤ (s.workThrough lookUpMs s.intake.jobs).elapsedMs) [] _ rfl
  simp only [hdue, List.nil_append] at hanswers
  refine ((run_workThrough rfl hthrough).trans hanswers).trans (run_takeIn ?_ h)
  exact (List.mergeSort_perm _ _).symm.map _

end Shift

end SwapFloor
