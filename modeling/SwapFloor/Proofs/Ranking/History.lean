import SwapFloor.Ranking.Window

/-!
# Windows and all that ever arrived

A window drops trades from its front whenever one enters it or it is ranked, and a trade that is
too late for it never enters. What is dropped or left out lies before a horizon of then, so it lies
before every horizon that is no earlier: within such a horizon, the window holds all that ever
arrived, in the order of arrival.

Main statement: `filter_window_run`.
-/

namespace SwapFloor

namespace Window

variable {horizon later : Instant}

theorem isRecent_of_le (h : horizon.nanos ≤ later.nanos) {t : TaggedTrade}
    (ht : isRecent later t = true) : isRecent horizon t = true :=
  decide_eq_true (Int.le_trans h (of_decide_eq_true ht))

theorem filter_evict (h : horizon.nanos ≤ later.nanos) (w : Window) :
    (w.evict horizon).filter (isRecent later) = w.filter (isRecent later) := by
  unfold evict
  induction w with
  | nil => rfl
  | cons t w ih =>
    rw [List.dropWhile_cons]
    by_cases ht : isRecent horizon t = true
    · rw [ht]
      rfl
    · have hl : ¬ isRecent later t = true := fun e => ht (isRecent_of_le h e)
      rw [if_pos (by simpa using ht), ih, List.filter_cons_of_neg hl]

theorem filter_ingest (h : horizon.nanos ≤ later.nanos) (w : Window) (t : TaggedTrade) :
    (w.ingest t horizon).filter (isRecent later)
      = w.filter (isRecent later) ++ [t].filter (isRecent later) := by
  unfold ingest
  split
  · rw [List.filter_append, filter_evict h]
  · rename_i ht
    have hl : ¬ isRecent later t = true := fun e => ht (isRecent_of_le h e)
    rw [List.filter_cons_of_neg hl, List.filter_nil, List.append_nil]

end Window

namespace Rankings

/-- What is done with rankings. -/
inductive Act where
  | ingest (t : TaggedTrade) (now : Instant)
  | rank (timeframe : Timeframe) (dimension : Dimension) (limit : Nat) (now : Instant)

/-- The time at which it is done. -/
def Act.now : Act → Instant
  | .ingest _ now | .rank _ _ _ now => now

/-- The trade that arrives. -/
def Act.trade? : Act → Option TaggedTrade
  | .ingest t _ => some t
  | .rank _ _ _ _ => none

def act (r : Rankings) : Act → Rankings
  | .ingest t now => r.ingest t now
  | .rank timeframe dimension limit now => (r.rank timeframe dimension limit now).1

/-- The windows after one act after the other. -/
def run (r : Rankings) (as : List Act) : Rankings := as.foldl act r

/-- The trades that arrived, the first one first. -/
def arrivals (as : List Act) : List TaggedTrade := as.filterMap Act.trade?

theorem quoteMint_act (r : Rankings) (a : Act) : (r.act a).quoteMint = r.quoteMint := by
  cases a with
  | ingest t now => rfl
  | rank timeframe dimension limit now => cases timeframe <;> rfl

theorem quoteMint_run (r : Rankings) (as : List Act) : (r.run as).quoteMint = r.quoteMint := by
  induction as generalizing r with
  | nil => rfl
  | cons a as ih => exact (ih (r.act a)).trans (r.quoteMint_act a)

theorem filter_window_act {f : Timeframe} {horizon : Instant} (r : Rankings) (a : Act)
    (h : (f.horizon a.now).nanos ≤ horizon.nanos) :
    ((r.act a).window f).filter (Window.isRecent horizon)
      = (r.window f ++ a.trade?.toList).filter (Window.isRecent horizon) := by
  cases a with
  | ingest t now =>
    refine ((congrArg _ (r.window_ingest t now f)).trans (Window.filter_ingest h _ t)).trans ?_
    exact (List.filter_append ..).symm
  | rank timeframe dimension limit now =>
    rw [show (Act.rank timeframe dimension limit now).trade?.toList = [] from rfl, List.append_nil]
    refine (congrArg _ (r.window_setWindow _ timeframe f)).trans ?_
    split
    · rename_i hf
      subst hf
      exact Window.filter_evict h _
    · rfl

/-- Within a horizon that no act so far has passed, a window agrees with all that arrived. -/
theorem filter_window_run {f : Timeframe} {horizon : Instant} (as : List Act) (r : Rankings)
    (h : ∀ a ∈ as, (f.horizon a.now).nanos ≤ horizon.nanos) :
    ((r.run as).window f).filter (Window.isRecent horizon)
      = (r.window f ++ arrivals as).filter (Window.isRecent horizon) := by
  induction as generalizing r with
  | nil => rw [arrivals, List.filterMap_nil, List.append_nil]; rfl
  | cons a as ih =>
    obtain ⟨ha, has⟩ := List.forall_mem_cons.1 h
    have hcons : arrivals (a :: as) = a.trade?.toList ++ arrivals as := by
      unfold arrivals
      cases ht : a.trade? with
      | none => rw [List.filterMap_cons_none ht]; rfl
      | some t => rw [List.filterMap_cons_some ht]; rfl
    calc ((r.run (a :: as)).window f).filter (Window.isRecent horizon)
        = ((r.act a).window f ++ arrivals as).filter (Window.isRecent horizon) := ih (r.act a) has
      _ = (r.window f ++ a.trade?.toList ++ arrivals as).filter (Window.isRecent horizon) := by
        rw [List.filter_append, filter_window_act r a ha, ← List.filter_append]
      _ = (r.window f ++ arrivals (a :: as)).filter (Window.isRecent horizon) := by
        rw [hcons, List.append_assoc]

theorem horizon_mono (f : Timeframe) {a b : Instant} (h : a.nanos ≤ b.nanos) :
    (f.horizon a).nanos ≤ (f.horizon b).nanos :=
  Int.sub_le_sub_right h f.span

end Rankings

end SwapFloor
