import SwapFloor.Proofs.Service.Sound

/-!
# What happens while the worker runs

The worker processes the records of batches and takes notices in, and look-ups come to an end in
any order and as many for one signature as there may be; in between errands are run, old signatures
are forgotten and time passes. Each of these is a moment, and a work is a list of moments that lead
from one state to another.

Main statements: a moment either processes a trade or is an errand as far as trades are concerned
(`Moment.Happens.cases`), and whatever the worker does without breaking down is a work
(`exists_work_of_work`).
-/

namespace SwapFloor

/-- What is found for a notice is the transaction that it names. -/
def LogNotice.AnsweredBy (n : LogNotice) (found : Except Failure (Option TxRecord)) : Prop :=
  ∀ r, found = .ok (some r) → r.signature = n.signature

/-- A look-up for a notice, whatever replies it meets with, finds nothing else. -/
theorem LogNotice.answeredBy_lookUp (n : LogNotice) (url : String)
    (replies : Nat → TxLookup.Reply) (id : Nat) :
    n.AnsweredBy (TxLookup.lookUp (fun k => TxLookup.ofReply url n.signature (replies k)) id).1 :=
  fun _ h => TxLookup.signature_of_lookUp h

namespace Service

/-! ## Records and notices -/

/-- The trade that a record tells of, none if the record is dropped. -/
def tradeOf? (s : Service) (r : TxRecord) (batchTime : Option Int64) : Option Trade :=
  (SwapReading.read r s.settings.ingest.quoteMint batchTime s.now).toOption

/-- The trade that a record tells of as it was delivered. -/
def tradeOfJson? (s : Service) (batchTime : Option Int64) (j : Json) : Option Trade :=
  (TxRecord.ofJson j).toOption.bind fun r => s.tradeOf? r batchTime

def tradeFound? (s : Service) (n : LogNotice) (found : Except Failure (Option TxRecord)) :
    Option Trade :=
  match found with
  | .ok (some r) => s.tradeOf? (s.enrich n r) none
  | _ => none

/-- What becomes of a notice that is taken in, nothing yet if a look-up was begun. -/
def noticeOutcome? (s : Service) (n : LogNotice) : Option Outcome :=
  match s.refuse? n with
  | some o => some o
  | none => if s.intake.permits ≤ s.intake.lookups.length then some .dropped else none

/-- A trade is processed if there is one; what tells of none is dropped. -/
def Became (s : Service) (t? : Option Trade) (s' : Service) (o : Outcome) : Prop :=
  match t? with
  | some t => s.processTrade t = (s', .ok o)
  | none => o = .parseError ∧ s' = s.countOutcome .parseError

variable {s s' : Service} {o : Outcome}

theorem became_of_processTx {r : TxRecord} {batchTime : Option Int64}
    (h : s.processTx r batchTime = (s', .ok o)) : s.Became (s.tradeOf? r batchTime) s' o := by
  unfold processTx at h
  unfold tradeOf?
  cases hr : SwapReading.read r s.settings.ingest.quoteMint batchTime s.now with
  | ok t =>
    rw [hr] at h
    exact h
  | error e =>
    rw [hr] at h
    cases e with
    | failure f =>
      obtain ⟨rfl, ho⟩ := Prod.mk.inj h
      exact ⟨(Except.ok.inj ho).symm, rfl⟩
    | breakdown b => exact nomatch (Prod.mk.inj h).2

theorem became_of_processRecord {batchTime : Option Int64} {j : Json}
    (h : s.processRecord batchTime j = (s', .ok o)) :
    s.Became (s.tradeOfJson? batchTime j) s' o := by
  unfold processRecord at h
  unfold tradeOfJson?
  cases hr : TxRecord.ofJson j with
  | ok r =>
    rw [hr] at h
    exact became_of_processTx h
  | error m =>
    rw [hr] at h
    obtain ⟨rfl, ho⟩ := Prod.mk.inj h
    exact ⟨(Except.ok.inj ho).symm, rfl⟩

theorem became_of_completeNotice {n : LogNotice} {found : Except Failure (Option TxRecord)}
    (h : s.completeNotice n found = (s', .ok o)) : s.Became (s.tradeFound? n found) s' o := by
  unfold completeNotice at h
  unfold tradeFound?
  split at h
  · exact became_of_processTx h
  · obtain ⟨rfl, ho⟩ := Prod.mk.inj h
    exact ⟨(Except.ok.inj ho).symm, rfl⟩
  · obtain ⟨rfl, ho⟩ := Prod.mk.inj h
    exact ⟨(Except.ok.inj ho).symm, rfl⟩

/-- A notice that is only taken in is not broadcast. -/
theorem noticeOutcome_ne_broadcast (s : Service) (n : LogNotice) :
    s.noticeOutcome? n ≠ some .broadcast := by
  have hrefuse : s.refuse? n ≠ some .broadcast := by
    unfold refuse?
    split
    · decide
    · split
      · decide
      · split
        · decide
        · decide
  unfold noticeOutcome?
  split
  · rename_i o ho
    rw [← ho]
    exact hrefuse
  · split
    · decide
    · decide

theorem aside_beginLookup (s : Service) (n : LogNotice) (lookUpMs : Nat) :
    Aside s (s.beginLookup n lookUpMs) := by
  unfold beginLookup
  split
  · exact aside_countOutcome ..
  · split
    · exact aside_countOutcome ..
    · exact { Aside.refl s with }

theorem signature_of_read {r : TxRecord} {quote : String} {batchTime : Option Int64}
    {now : Instant} {t : Trade} (h : SwapReading.read r quote batchTime now = .ok t) :
    t.signature = r.signature := by
  unfold SwapReading.read at h
  split at h
  · cases h
  · split at h
    · cases h
    · rename_i signer _
      obtain ⟨_, _, h⟩ := bind_eq_ok_iff.1 h
      obtain ⟨_, _, h⟩ := bind_eq_ok_iff.1 h
      dsimp only at h
      split at h
      · cases h
      · cases h
        rfl

theorem signature_of_tradeFound {n : LogNotice} {found : Except Failure (Option TxRecord)}
    {t : Trade} (ha : n.AnsweredBy found) (h : s.tradeFound? n found = some t) :
    t.signature = n.signature := by
  unfold tradeFound? at h
  split at h
  · rename_i r
    unfold tradeOf? at h
    cases hr : SwapReading.read (s.enrich n r) s.settings.ingest.quoteMint none s.now with
    | error e =>
      rw [hr] at h
      exact nomatch h
    | ok t' =>
      rw [hr] at h
      cases h
      exact (signature_of_read hr).trans (ha r rfl)
  · exact nomatch h

/-! ## Moments -/

/-- What happens while the worker runs. -/
inductive Happening where
  /-- A record of a batch is processed. -/
  | record (batchTime : Option Int64) (j : Json)
  /-- A notice is taken in; a look-up that is begun for it takes some time. -/
  | notice (n : LogNotice) (lookUpMs : Nat)
  /-- A look-up comes to an end. -/
  | finish (n : LogNotice) (found : Except Failure (Option TxRecord))
  /-- Something else. -/
  | errand

/-- Something that happens, with the states before and after it. -/
structure Moment where
  before : Service
  what : Happening
  /-- What has become of a record or a notice. -/
  outcome : Option Outcome
  after : Service

namespace Moment

/-- The moment is one that the service goes through, without a breakdown. -/
def Happens (m : Moment) : Prop :=
  match m.what with
  | .record batchTime j => ∃ o, m.before.processRecord batchTime j = (m.after, .ok o) ∧
    m.outcome = some o
  | .notice n lookUpMs => m.after = m.before.beginLookup n lookUpMs ∧
    m.outcome = m.before.noticeOutcome? n
  | .finish n found => ∃ o, m.before.completeNotice n found = (m.after, .ok o) ∧
    m.outcome = some o
  | .errand => Errand m.before m.after ∧ m.outcome = none

/-- The trade that is processed at the moment. -/
def trade? (m : Moment) : Option Trade :=
  match m.what with
  | .record batchTime j => m.before.tradeOfJson? batchTime j
  | .finish n found => m.before.tradeFound? n found
  | .notice _ _ | .errand => none

/-- A trade with the signature is processed. -/
def isOf (m : Moment) (signature : String) : Bool :=
  m.trade?.any fun t => t.signature == signature

variable {m : Moment} {signature : String}

theorem isOf_iff : m.isOf signature = true ↔ ∃ t, m.trade? = some t ∧ t.signature = signature := by
  unfold isOf
  cases m.trade? with
  | none => simp
  | some t => simp

/-- Either a trade is processed, or it is an errand as far as trades are concerned. -/
theorem Happens.cases (h : m.Happens) :
    (∃ t o, m.trade? = some t ∧ m.outcome = some o ∧ m.before.processTrade t = (m.after, .ok o)) ∨
    (m.trade? = none ∧ m.outcome ≠ some .broadcast ∧ Errand m.before m.after) := by
  -- Records and look-ups differ only in how their trade is read.
  have hbecame : ∀ t? o, m.before.Became t? m.after o → m.outcome = some o → m.trade? = t? →
      (∃ t o, m.trade? = some t ∧ m.outcome = some o ∧
        m.before.processTrade t = (m.after, .ok o)) ∨
      (m.trade? = none ∧ m.outcome ≠ some .broadcast ∧ Errand m.before m.after) := by
    intro t? o hb ho ht
    cases t? with
    | some t => exact Or.inl ⟨t, o, ht, ho, hb⟩
    | none =>
      obtain ⟨rfl, ha⟩ := hb
      refine Or.inr ⟨ht, by rw [ho]; decide, .aside ?_⟩
      rw [ha]
      exact aside_countOutcome ..
  obtain ⟨before, what, outcome, after⟩ := m
  cases what with
  | record batchTime j =>
    obtain ⟨o, hp, ho⟩ := h
    exact hbecame _ o (became_of_processRecord hp) ho rfl
  | notice n lookUpMs =>
    obtain ⟨ha, ho⟩ := h
    dsimp only at ha ho
    refine Or.inr ⟨rfl, ?_, .aside (ha ▸ aside_beginLookup before n lookUpMs)⟩
    rw [ho]
    exact noticeOutcome_ne_broadcast before n
  | finish n found =>
    obtain ⟨o, hp, ho⟩ := h
    exact hbecame _ o (became_of_completeNotice hp) ho rfl
  | errand =>
    refine Or.inr ⟨rfl, ?_, h.1⟩
    rw [h.2]
    decide

theorem Happens.sound (h : m.Happens) (hs : m.before.Sound) : m.after.Sound := by
  rcases h.cases with ⟨t, o, _, _, hp⟩ | ⟨_, _, he⟩
  · exact (calm_processTrade hp).sound hs
  · exact sound_errand hs he

end Moment

/-! ## A work -/

/-- The moments lead from one state to another. -/
inductive Work : Service → List Moment → Service → Prop
  | done (s : Service) : Work s [] s
  | next {m : Moment} {ms : List Moment} {s' : Service} (h : m.Happens) (rest : Work m.after ms s') :
    Work m.before (m :: ms) s'

theorem Work.append {ms ms' : List Moment} {s₁ : Service} (h : Work s ms s₁)
    (h' : Work s₁ ms' s') : Work s (ms ++ ms') s' := by
  induction h with
  | done => exact h'
  | next hm _ ih => exact .next hm (ih h')

theorem Work.of_errand (h : Errand s s') : Work s [⟨s, .errand, none, s'⟩] s' :=
  .next (m := ⟨s, .errand, none, s'⟩) ⟨h, rfl⟩ (.done s')

theorem Work.of_intake (s : Service) (q : Intake) :
    Work s [⟨s, .errand, none, { s with intake := q }⟩] { s with intake := q } :=
  .of_errand (.aside { Aside.refl s with })

/-! ## What the worker does -/

/-- The records of a batch are processed one after the other. -/
theorem work_of_processRecords {batchTime : Option Int64} {report report' : JobReport}
    {js : List Json} (h : s.processRecords batchTime report js = (s', .ok report')) :
    ∃ ms, Work s ms s' ∧ ms.map (·.what) = js.map (.record batchTime) := by
  induction js generalizing s report with
  | nil =>
    cases h
    exact ⟨[], .done _, rfl⟩
  | cons j js ih =>
    unfold processRecords at h
    split at h
    · rename_i s₁ o hp
      obtain ⟨ms, hw, hms⟩ := ih h
      refine ⟨⟨s, .record batchTime j, some o, s₁⟩ :: ms,
        .next (m := ⟨s, .record batchTime j, some o, s₁⟩) ⟨o, hp, rfl⟩ hw, ?_⟩
      rw [List.map_cons, hms, List.map_cons]
    · cases h

variable {lookUp : String → Except Failure (Option TxRecord)} {lookUpMs : String → Nat}

/-- A worker that is there afterwards was there before. -/
theorem running_of_workThrough {jobs : List Job}
    (h : (s.workThrough lookUpMs jobs).intake.worker = .running) :
    s.intake.worker = .running := by
  cases jobs with
  | nil => exact h
  | cons j jobs =>
    unfold workThrough at h
    split at h
    · assumption
    · exact h

theorem running_of_takeIn {ls : List Lookup}
    (h : (s.takeIn lookUp ls).intake.worker = .running) : s.intake.worker = .running := by
  cases ls with
  | nil => exact h
  | cons l ls =>
    unfold takeIn at h
    split at h
    · assumption
    · exact h

/-- A worker that goes on after a step has taken it without a breakdown. -/
theorem ok_of_survive {α : Type} {r : Service × Except Breakdown α}
    (h : (survive r).intake.worker = .running) : ∃ a, r = (survive r, .ok a) := by
  obtain ⟨s, e⟩ := r
  cases e with
  | ok a => exact ⟨a, rfl⟩
  | error b => exact nomatch h

theorem work_of_workOn {j : Job} (h : (s.workOn lookUpMs j).intake.worker = .running) :
    ∃ ms, Work s ms (s.workOn lookUpMs j) := by
  cases j with
  | batch b =>
    obtain ⟨report, hb⟩ := ok_of_survive h
    obtain ⟨ms, hw, _⟩ := work_of_processRecords hb
    exact ⟨ms, hw⟩
  | notice n =>
    refine ⟨_, .next (m := ⟨s, .notice n (lookUpMs n.signature), s.noticeOutcome? n,
      s.workOn lookUpMs (.notice n)⟩) ⟨rfl, rfl⟩ (.done _)⟩

theorem work_of_workThrough {jobs : List Job}
    (h : (s.workThrough lookUpMs jobs).intake.worker = .running) :
    ∃ ms, Work s ms (s.workThrough lookUpMs jobs) := by
  induction jobs generalizing s with
  | nil => exact ⟨[], .done s⟩
  | cons j jobs ih =>
    unfold workThrough at h ⊢
    split
    · rename_i hrun
      rw [if_pos hrun] at h
      dsimp only at h ⊢
      have hpop := Work.of_intake s { s.intake with jobs := jobs }
      obtain ⟨ms, hms⟩ := ih h
      obtain ⟨ns, hns⟩ := work_of_workOn (running_of_workThrough h)
      exact ⟨_, (hpop.append hns).append hms⟩
    · exact ⟨[], .done s⟩

theorem work_of_takeIn {ls : List Lookup} (h : (s.takeIn lookUp ls).intake.worker = .running) :
    ∃ ms, Work s ms (s.takeIn lookUp ls) := by
  induction ls generalizing s with
  | nil => exact ⟨[], .done s⟩
  | cons l ls ih =>
    unfold takeIn at h ⊢
    split
    · rename_i hrun
      rw [if_pos hrun] at h
      obtain ⟨ms, hms⟩ := ih h
      obtain ⟨o, hc⟩ := ok_of_survive (running_of_takeIn h)
      exact ⟨_, .next (m := ⟨s, .finish l.notice (lookUp l.notice.signature), some o, _⟩)
        ⟨o, hc, rfl⟩ hms⟩
    · exact ⟨[], .done s⟩

/-- Whatever the worker does at a time without breaking down is a work. -/
theorem exists_work_of_work (h : (s.work lookUp lookUpMs).intake.worker = .running) :
    ∃ ms, Work s ms (s.work lookUp lookUpMs) := by
  unfold work at h ⊢
  dsimp only at h ⊢
  obtain ⟨ms, hms⟩ := work_of_takeIn h
  have hafter := running_of_takeIn h
  have hrun : (s.workThrough lookUpMs s.intake.jobs).intake.worker = .running := hafter
  obtain ⟨ns, hns⟩ := work_of_workThrough hrun
  exact ⟨_, (hns.append (.of_intake _ _)).append hms⟩

end Service

end SwapFloor
