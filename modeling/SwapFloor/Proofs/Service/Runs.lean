import SwapFloor.Proofs.Service.Moments
import SwapFloor.Service.Front
import SwapFloor.Service.Turn

/-!
# What the service does is a run

Nothing happens to the service but operations. A request is answered by them, whatever it asks for
and whatever the answer is; so is a request for a connection, as a socket is only offered to a
client that may open one. On its way to rest the service does its chores, makes its calls, lets the
worker work and sends what waits: all of this is a run as well, unless a chore or the worker breaks
down.

Main statements: requests and connections (`run_answer`, `run_connect`) and turns (`run_turn`).
-/

namespace SwapFloor.Service

variable {s s' s'' : Service}

theorem run_of_errand (h : Errand s s') : Run s s' := .single (.errand h)

theorem run_of_aside (h : Aside s s') : Run s s' := run_of_errand (.aside h)

/-! ## Requests -/

/-- The answer was reached by operations, and a socket is only offered to a client that may open
one. -/
structure Fair (s : Service) (a : Answered) : Prop where
  run : Run s a.1
  admitted : ∀ k password, a.2 = .socket k password →
    ∃ room wallet, a.1.admitSocket room wallet password = .ok k

theorem fair_reply (h : Run s s') (r : Http.Reply) : Fair s (s', .reply r) where
  run := h
  admitted _ _ ha := by cases ha

theorem fair_aside (h : Aside s s') (r : Http.Reply) : Fair s (s', .reply r) :=
  fair_reply (run_of_aside h) r

theorem Fair.after {a : Answered} (h : Run s s') (ha : Fair s' a) : Fair s a :=
  ⟨h.trans ha.run, ha.admitted⟩

theorem fair_conclude {α : Type} {r : Except Failure (Service × α)} (f : α → Json)
    (h : ∀ s' a, r = .ok (s', a) → Run s s') : Fair s (s.conclude r f) := by
  unfold conclude
  split
  · exact fair_reply (h _ _ rfl) _
  · exact fair_reply .refl _

theorem fair_concludeQuestion {α : Type} (s : Service) (r : Except Failure α) (f : α → Json) :
    Fair s (s.concludeQuestion r f) := by
  refine fair_conclude f fun s' a h => ?_
  cases r with
  | ok b =>
    cases h
    exact .refl
  | error e => cases h

theorem fair_withForm {α : Type} {form : Http.Form α} {r : Http.Request} {answer : α → Answered}
    (h : ∀ a, Fair s (answer a)) : Fair s (s.withForm form r answer) := by
  unfold withForm
  split
  · exact h _
  · exact fair_reply .refl _

theorem fair_withQuery {known : List (String × Http.Query.Kind)} {r : Http.Request}
    {answer : List (String × String) → Answered} (h : ∀ pairs, Fair s (answer pairs)) :
    Fair s (s.withQuery known r answer) := by
  unfold withQuery
  split
  · exact h _
  · exact fair_reply .refl _

theorem fair_listRooms (s : Service) (status : Option String) : Fair s (s.listRooms status) := by
  unfold listRooms
  dsimp only
  split
  · exact fair_reply .refl _
  · exact fair_reply .refl _
  · exact fair_reply .refl _

/-- A ranking drops what has passed its horizon, also if it breaks off. -/
theorem fair_rankTokens (s : Service) (pairs : List (String × String)) :
    Fair s (s.rankTokens pairs) := by
  unfold rankTokens
  split
  · exact fair_reply .refl _
  · rename_i timeframe dimension limit _
    have hrank := run_of_errand (Errand.rank (s := s) timeframe dimension limit)
    split
    · rename_i he
      rw [he] at hrank
      exact fair_reply hrank _
    · rename_i he
      rw [he] at hrank
      exact ⟨hrank, fun _ _ ha => by cases ha⟩

theorem fair_untag (s : Service) (wallet : String) : Fair s (s.untag wallet) := by
  unfold untag
  split
  · refine fair_aside ?_ _
    exact { Aside.refl s with }
  · exact fair_reply .refl _

theorem aside_countOutcomes (s : Service) (o : Outcome) (n : Nat) :
    Aside s (s.countOutcomes o n) := by
  induction n generalizing s with
  | zero => exact .refl s
  | succ n ih => exact (aside_countOutcome s o).trans (ih _)

theorem aside_submit (s : Service) (j : Job) : Aside s (s.submit j).1 := by
  unfold submit
  split
  · exact { Aside.refl s with }
  · exact aside_countOutcomes ..
  · exact .refl s

theorem fair_takeDelivery (s : Service) (r : Http.Request) : Fair s (s.takeDelivery r) := by
  unfold takeDelivery
  dsimp only
  split
  · exact fair_reply .refl _
  · split
    · exact fair_reply .refl _
    · split
      · exact fair_reply .refl _
      · exact fair_aside (aside_submit ..) _

theorem fair_offerSocket (s : Service) (room : String) (r : Http.Request)
    (pairs : List (String × String)) : Fair s (s.offerSocket room r pairs) := by
  unfold offerSocket
  dsimp only
  split
  · exact fair_reply .refl _
  · rename_i hk
    split
    · exact fair_reply .refl _
    · refine ⟨.refl, fun _ _ ha => ?_⟩
      cases ha
      exact ⟨_, _, hk⟩

theorem fair_answerPost (s : Service) (e : Endpoint) (r : Http.Request) :
    Fair s (s.answerPost e r) := by
  cases e with
  | rooms =>
    exact fair_withForm fun q => fair_conclude _ fun s' _ h => run_of_errand (.create h)
  | join id =>
    exact fair_withForm fun q => fair_conclude _ fun s' _ h => run_of_errand (.join h)
  | leave id =>
    exact fair_withForm fun w => fair_conclude _ fun s' _ h => run_of_errand (.leave h)
  | close id =>
    exact fair_withForm fun w => fair_conclude _ fun s' _ h => run_of_errand (.close h)
  | shares id =>
    exact fair_withForm fun q => fair_conclude _ fun s' _ h => run_of_errand (.share h)
  | tags =>
    refine fair_withForm fun q => fair_aside ?_ _
    exact { Aside.refl s with }
  | tokens =>
    refine fair_withForm fun t => fair_aside ?_ _
    exact { Aside.refl s with }
  | webhook => exact fair_takeDelivery s r
  | _ => exact fair_reply .refl _

theorem fair_answerGet (s : Service) (e : Endpoint) (r : Http.Request) :
    Fair s (s.answerGet e r) := by
  cases e with
  | rooms => exact fair_withQuery fun q => fair_listRooms ..
  | room id => exact fair_concludeQuestion ..
  | shares id => exact fair_withQuery fun q => fair_concludeQuestion ..
  | ranking => exact fair_withQuery fun q => fair_rankTokens ..
  | resolve => exact fair_withQuery fun q => fair_concludeQuestion ..
  | token mint => exact fair_concludeQuestion ..
  | webhook => exact fair_withQuery fun q => fair_reply .refl _
  | socket id => exact fair_withQuery fun q => fair_offerSocket ..
  | _ => exact fair_reply .refl _

theorem fair_answerPath (s : Service) (r : Http.Request) (e : Option Endpoint) :
    Fair s (s.answerPath r e) := by
  cases e with
  | none => exact fair_reply .refl _
  | some e =>
    unfold answerPath
    dsimp only
    split
    · split
      · unfold answerEndpoint
        split
        · exact fair_untag ..
        · exact fair_answerPost ..
        · exact fair_answerGet ..
      · exact fair_reply .refl _
    · exact fair_reply .refl _

/-- The limiter and its counts are of no concern to the rooms. -/
theorem fair_answerLimited (s : Service) (r : Http.Request) (e : Option Endpoint) :
    Fair s (s.answerLimited r e) := by
  have hcount : ∀ (l : RateLimiter) status, Run s ({ s with limiter := l }.countVerdict status) :=
    fun l status => run_of_aside { Aside.refl s with }
  unfold answerLimited
  split
  · exact fair_answerPath ..
  · split
    · exact (fair_answerPath ..).after (hcount ..)
    · exact fair_reply (hcount ..) _

theorem fair_answer (s : Service) (r : Http.Request) : Fair s (s.answer r) := by
  have hcounted : Run s (s.count "http_requests_total" [("method", r.method),
      ("path", Metrics.pathLabel r.path)] 1) := run_of_aside (aside_count ..)
  have hlimited := (fair_answerLimited _ r (Endpoint.ofPath r.path)).after hcounted
  unfold answer
  dsimp only
  split
  · rename_i he
    rw [he] at hlimited
    exact hlimited
  · rename_i he
    rw [he] at hlimited
    refine ⟨hlimited.run.trans (run_of_aside (aside_count ..)), fun k password ha => ?_⟩
    exact hlimited.admitted k password ha
  · rename_i he
    rw [he] at hlimited
    exact fair_reply (hlimited.run.trans (run_of_aside (aside_count ..))) _

/-- A request is answered by operations, whatever it is and whatever the answer is. -/
theorem run_answer (s : Service) (r : Http.Request) : Run s (s.answer r).1 := (fair_answer s r).run

/-- So is a request for a connection. -/
theorem run_connect (s : Service) (r : Http.Request) : Run s (s.connect r).1 := by
  have hfair := fair_answer s r
  unfold connect
  split
  · rename_i he
    rw [he] at hfair
    exact hfair.run
  · rename_i he
    rw [he] at hfair
    exact hfair.run
  · rename_i k password he
    rw [he] at hfair
    obtain ⟨room, wallet, hk⟩ := hfair.admitted k password rfl
    exact hfair.run.tail (.errand (.connect hk))

/-! ## Chores -/

theorem run_doChore {c : Chore} (h : s.doChore c = (s', .ok ())) : Run s s' := by
  cases c with
  | reapRooms =>
    unfold doChore at h
    dsimp only at h
    obtain ⟨rfl, hn⟩ := Prod.mk.inj h
    cases hr : s.reapRooms.2 with
    | ok n => exact run_of_errand (.reap (Prod.ext rfl hr))
    | error b =>
      rw [hr] at hn
      cases hn
  | pruneConnections =>
    cases h
    exact run_of_errand (.prune ..)
  | sweepSeen =>
    cases h
    exact run_of_errand .sweep
  | sweepLimiter =>
    cases h
    refine run_of_aside ?_
    exact { Aside.refl s with }
  | retryWatches =>
    cases h
    exact run_of_errand .retry

/-- The timers ring one after the other, and no chore breaks down. -/
def Completes (s : Service) : List Timer → Prop
  | [] => True
  | t :: ts => (s.doChore t.chore).2 = .ok () ∧ (s.doDue t).Completes ts

theorem run_doDue {t : Timer} (h : (s.doChore t.chore).2 = .ok ()) : Run s (s.doDue t) := by
  unfold doDue
  split
  · rename_i s₁ hd
    refine (run_doChore hd).trans (run_of_aside ?_)
    exact { Aside.refl s₁ with }
  · rename_i hd
    rw [hd] at h
    cases h

theorem run_doDueChores (h : s.Completes s.dueTimers) : Run s s.doDueChores := by
  have key : ∀ (ts : List Timer) (s : Service), s.Completes ts → Run s (ts.foldl doDue s) := by
    intro ts
    induction ts with
    | nil => exact fun s _ => .refl
    | cons t ts ih => exact fun s h => (run_doDue h.1).trans (ih _ h.2)
  exact key _ s h

/-! ## Calls to the provider -/

variable {σ : Type}

/-- A call that is made is completed, with whatever the provider gives. -/
theorem run_makeCall (out : Outside σ) (s : Service) (p : σ) (c : Watches.Call) :
    Run s (s.makeCall out p c).1 := by
  cases c with
  | unsubscribe id => exact .refl
  | subscribe address epoch => exact run_of_errand (.complete address epoch _ s.elapsedMs)

theorem run_makeCalls (out : Outside σ) (s : Service) (p : σ) (cs : List Watches.Call) :
    Run s (s.makeCalls out p cs).1 := by
  induction cs generalizing s p with
  | nil => exact .refl
  | cons c cs ih => exact (run_makeCall out s p c).trans (ih _ _)

theorem run_makeStarted (out : Outside σ) (s : Service) (p : σ) :
    Run s (s.makeStarted out p).1 := by
  have htaken : Run s { s with calls := [] } := by
    refine run_of_aside ?_
    exact { Aside.refl s with }
  exact htaken.trans (run_makeCalls ..)

/-! ## The worker -/

theorem run_of_happens {m : Moment} (h : m.Happens) : Run m.before m.after := by
  rcases h.cases with ⟨t, o, _, _, hp⟩ | ⟨_, _, he⟩
  · exact .single (.process hp)
  · exact run_of_errand he

theorem run_of_work {ms : List Moment} (h : Work s ms s') : Run s s' := by
  induction h with
  | done => exact .refl
  | next hm _ ih => exact (run_of_happens hm).trans ih

variable {lookUp : String → Except Failure (Option TxRecord)} {lookUpMs : String → Nat}

theorem workThrough_idle (h : s.intake.worker ≠ .running) (jobs : List Job) :
    s.workThrough lookUpMs jobs = s := by
  cases jobs with
  | nil => rfl
  | cons j jobs =>
    unfold workThrough
    rw [if_neg h]

theorem takeIn_idle (h : s.intake.worker ≠ .running) (ls : List Lookup) :
    s.takeIn lookUp ls = s := by
  cases ls with
  | nil => rfl
  | cons l ls =>
    unfold takeIn
    rw [if_neg h]

/-- A worker that is not there does nothing, and what was looked up for it is lost. -/
theorem work_idle (h : s.intake.worker ≠ .running) :
    s.work lookUp lookUpMs = { s with intake := s.intake.dropDue s.elapsedMs } := by
  unfold work
  dsimp only
  rw [workThrough_idle h]
  refine takeIn_idle ?_ _
  exact h

theorem run_work (h : (s.work lookUp lookUpMs).intake.worker = s.intake.worker) :
    Run s (s.work lookUp lookUpMs) := by
  by_cases hr : s.intake.worker = .running
  · obtain ⟨ms, hms⟩ := exists_work_of_work (h.trans hr)
    exact run_of_work hms
  · rw [work_idle hr]
    refine run_of_aside ?_
    exact { Aside.refl s with }

/-! ## Turns -/

theorem run_flush (s : Service) : Run s s.flush.1 := by
  have key : ∀ (ids : List ConnectionId) (s : Service), Run s (s.flushAll ids).1 := by
    intro ids
    induction ids with
    | nil => exact fun s => .refl
    | cons id ids ih => exact fun s => (run_of_errand (.flush id)).trans (ih _)
  exact key _ s

/-- The service comes to rest by operations, unless a chore or the worker breaks down. -/
theorem run_turn (out : Outside σ) (p : σ) (hc : s.Completes s.dueTimers)
    (hw : ((s.doDueChores.makeStarted out p).1.work out.lookUp out.lookUpMs).intake.worker
      = (s.doDueChores.makeStarted out p).1.intake.worker) :
    Run s (s.turn out p).1 :=
  (((run_doDueChores hc).trans (run_makeStarted out _ p)).trans (run_work hw)).trans (run_flush _)

end SwapFloor.Service
