import SwapFloor.Proofs.Ranking.Standing

/-!
# What stays in a window

A window drops trades from its front, up to the first one that still counts. Trades do not arrive in
the order of their block times, so that a trade which is past the horizon may stand behind one that
is not, and then it stays, for as long as that one stays. Whatever was dropped on the way, a window
is what has entered it so far, cut at the horizon of the last time that it was cleared.

Main statement: a window is free of trades past its horizon, just after it was cleared, exactly if
none of them arrived behind one that still counts (`fresh_iff_of_run`). Trades that arrive in the
order of their block times leave no such trade behind (`Window.unmixed_of_inOrder`).
-/

namespace SwapFloor

namespace Window

variable {horizon later : Instant} {w : Window}

/-- All trades lie within the horizon. -/
def Fresh (w : Window) (horizon : Instant) : Prop := ∀ t ∈ w, isRecent horizon t = true

instance (w : Window) (horizon : Instant) : Decidable (w.Fresh horizon) :=
  inferInstanceAs (Decidable (∀ t ∈ w, isRecent horizon t = true))

/-- No trade past the horizon stands behind one within it. -/
def Unmixed (w : Window) (horizon : Instant) : Prop :=
  w.Pairwise fun t u => isRecent horizon t = true → isRecent horizon u = true

instance (w : Window) (horizon : Instant) : Decidable (w.Unmixed horizon) :=
  inferInstanceAs (Decidable (w.Pairwise _))

theorem evict_cons_of_recent {t : TaggedTrade} (ht : isRecent horizon t = true) (w : Window) :
    evict (t :: w) horizon = t :: w :=
  List.dropWhile_cons_of_neg (by simpa using ht)

theorem evict_cons_of_stale {t : TaggedTrade} (ht : ¬ isRecent horizon t = true) (w : Window) :
    evict (t :: w) horizon = evict w horizon :=
  List.dropWhile_cons_of_pos (by simpa using ht)

/-- What an earlier clearing has dropped, a later one would drop as well. -/
theorem evict_evict_append (h : horizon.nanos ≤ later.nanos) (w new : Window) :
    evict (w.evict horizon ++ new) later = evict (w ++ new) later := by
  induction w with
  | nil => rfl
  | cons t w ih =>
    by_cases ht : isRecent horizon t = true
    · rw [evict_cons_of_recent ht]
    · have hl : ¬ isRecent later t = true := fun e => ht (isRecent_of_le h e)
      rw [evict_cons_of_stale ht, ih, List.cons_append, evict_cons_of_stale hl]

/-- What lies within the horizon stays behind what is dropped. -/
theorem evict_append_of_fresh (w : Window) {new : Window} (h : Fresh new horizon) :
    evict (w ++ new) horizon = w.evict horizon ++ new := by
  induction w with
  | nil =>
    cases new with
    | nil => rfl
    | cons t new => exact evict_cons_of_recent (h t List.mem_cons_self) new
  | cons t w ih =>
    rw [List.cons_append]
    by_cases ht : isRecent horizon t = true
    · rw [evict_cons_of_recent ht, evict_cons_of_recent ht, List.cons_append]
    · rw [evict_cons_of_stale ht, evict_cons_of_stale ht, ih]

/-- Clearing the front clears the whole, unless something stands in the way. -/
theorem fresh_evict_iff : (w.evict horizon).Fresh horizon ↔ w.Unmixed horizon := by
  induction w with
  | nil => exact iff_of_true (fun _ ht => nomatch ht) List.Pairwise.nil
  | cons t w ih =>
    unfold Unmixed
    rw [List.pairwise_cons]
    by_cases ht : isRecent horizon t = true
    · rw [evict_cons_of_recent ht]
      constructor
      · intro h
        have hw := (List.forall_mem_cons.1 h).2
        exact ⟨fun u hu _ => hw u hu, List.pairwise_of_forall_mem_list fun _ _ u hu _ => hw u hu⟩
      · intro h
        exact List.forall_mem_cons.2 ⟨ht, fun u hu => h.1 u hu ht⟩
    · rw [evict_cons_of_stale ht, ih]
      exact ⟨fun h => ⟨fun _ _ e => absurd e ht, h⟩, fun h => h.2⟩

/-- Nothing stands in the way where trades come in the order of their block times. -/
theorem unmixed_of_inOrder
    (h : w.Pairwise fun t u => t.trade.blockTime.nanos ≤ u.trade.blockTime.nanos)
    (horizon : Instant) : w.Unmixed horizon :=
  h.imp fun hle ht => decide_eq_true (Int.le_trans (of_decide_eq_true ht) hle)

end Window

namespace Rankings

variable {f : Timeframe} {horizon : Instant} {as : List Act} {a : Act}

/-- The trade that an act puts into the window of a timeframe. -/
def Act.entering? (f : Timeframe) : Act → Option TaggedTrade
  | .ingest t now => if Window.isRecent (f.horizon now) t then some t else none
  | .rank _ _ _ _ => none

/-- The act clears the front of the window: a trade enters it, or it is ranked. -/
def Act.clears (f : Timeframe) : Act → Bool
  | .ingest t now => Window.isRecent (f.horizon now) t
  | .rank timeframe _ _ _ => timeframe = f

/-- The trades that have entered the window of a timeframe, in the order of arrival. -/
def entered (f : Timeframe) (as : List Act) : Window := as.filterMap (Act.entering? f)

theorem entered_cons (f : Timeframe) (a : Act) (as : List Act) :
    entered f (a :: as) = (a.entering? f).toList ++ entered f as := by
  unfold entered
  rw [List.filterMap_cons]
  cases a.entering? f with
  | none => rfl
  | some t => rfl

theorem entered_append (f : Timeframe) (as bs : List Act) :
    entered f (as ++ bs) = entered f as ++ entered f bs := List.filterMap_append

theorem window_act_of_clears (r : Rankings) (h : a.clears f = true) :
    (r.act a).window f = (r.window f).evict (f.horizon a.now) ++ (a.entering? f).toList := by
  cases a with
  | ingest t now =>
    have ht : Window.isRecent (f.horizon now) t = true := h
    refine (r.window_ingest t now f).trans ?_
    have hnew : (Act.ingest t now).entering? f = some t := if_pos ht
    unfold Window.ingest
    rw [if_pos ht, hnew]
    rfl
  | rank timeframe dimension limit now =>
    obtain rfl : timeframe = f := of_decide_eq_true h
    refine (r.window_setWindow _ timeframe timeframe).trans ?_
    rw [if_pos rfl]
    exact (List.append_nil _).symm

theorem window_act_of_not_clears (r : Rankings) (h : a.clears f = false) :
    (r.act a).window f = r.window f ∧ a.entering? f = none := by
  cases a with
  | ingest t now =>
    have ht : ¬ Window.isRecent (f.horizon now) t = true := Bool.eq_false_iff.1 h
    refine ⟨(r.window_ingest t now f).trans ?_, if_neg ht⟩
    unfold Window.ingest
    rw [if_neg ht]
  | rank timeframe dimension limit now =>
    have hne : ¬ f = timeframe := fun e => of_decide_eq_false h e.symm
    exact ⟨(r.window_setWindow _ timeframe f).trans (if_neg hne), rfl⟩

theorem evict_window_act (r : Rankings) (a : Act) (h : (f.horizon a.now).nanos ≤ horizon.nanos)
    (new : Window) : Window.evict ((r.act a).window f ++ new) horizon
      = Window.evict (r.window f ++ ((a.entering? f).toList ++ new)) horizon := by
  cases hc : a.clears f with
  | true => rw [window_act_of_clears r hc, List.append_assoc, Window.evict_evict_append h]
  | false =>
    obtain ⟨hw, he⟩ := window_act_of_not_clears r hc
    rw [hw, he]
    rfl

/-- Cut at a horizon that no act so far has passed, a window is what has entered it. -/
theorem evict_window_run (r : Rankings)
    (h : ∀ a ∈ as, (f.horizon a.now).nanos ≤ horizon.nanos) :
    Window.evict ((r.run as).window f) horizon
      = Window.evict (r.window f ++ entered f as) horizon := by
  induction as generalizing r with
  | nil => rw [entered, List.filterMap_nil, List.append_nil]; rfl
  | cons a as ih =>
    obtain ⟨ha, has⟩ := List.forall_mem_cons.1 h
    calc Window.evict ((r.run (a :: as)).window f) horizon
        = Window.evict ((r.act a).window f ++ entered f as) horizon := ih (r.act a) has
      _ = Window.evict (r.window f ++ entered f (a :: as)) horizon := by
        rw [evict_window_act r a ha, entered_cons]

theorem fresh_entering (f : Timeframe) (a : Act) :
    Window.Fresh (a.entering? f).toList (f.horizon a.now) := by
  intro t ht
  cases a with
  | ingest u now =>
    obtain ⟨hu, hut⟩ := Option.ite_none_right_eq_some.1 (Option.mem_toList.1 ht)
    obtain rfl : u = t := Option.some.inj hut
    exact hu
  | rank timeframe dimension limit now => exact nomatch ht

/-- After an act that clears it, a window is what has entered it so far, cut at the horizon. -/
theorem window_run_concat (quote : String) (hnow : ∀ b ∈ as, b.now.nanos ≤ a.now.nanos)
    (ha : a.clears f = true) :
    ((empty quote).run (as ++ [a])).window f
      = (entered f (as ++ [a])).evict (f.horizon a.now) := by
  have hempty : (empty quote).window f = [] := by cases f <;> rfl
  have hcut := evict_window_run (empty quote) fun b hb => horizon_mono f (hnow b hb)
  rw [hempty, List.nil_append] at hcut
  calc ((empty quote).run (as ++ [a])).window f
      = (((empty quote).run as).act a).window f := by unfold run; rw [List.foldl_append]; rfl
    _ = (entered f as).evict (f.horizon a.now) ++ (a.entering? f).toList := by
      rw [window_act_of_clears _ ha, hcut]
    _ = (entered f (as ++ [a])).evict (f.horizon a.now) := by
      rw [entered_append, entered_cons, show entered f [] = [] from rfl, List.append_nil,
        Window.evict_append_of_fresh _ (fresh_entering f a)]

/-- Just after its front was cleared, a window is what has entered it so far, cut at the horizon,
and it is free of trades past the horizon exactly if none of them arrived behind one within it. -/
theorem fresh_iff_of_run (quote : String) (f : Timeframe) (as : List Act) (a : Act)
    (hnow : ∀ b ∈ as, b.now.nanos ≤ a.now.nanos) (ha : a.clears f = true) :
    ((empty quote).run (as ++ [a])).window f
        = (entered f (as ++ [a])).evict (f.horizon a.now) ∧
      ((((empty quote).run (as ++ [a])).window f).Fresh (f.horizon a.now) ↔
        (entered f (as ++ [a])).Unmixed (f.horizon a.now)) := by
  have hwindow := window_run_concat quote hnow ha
  refine ⟨hwindow, ?_⟩
  rw [hwindow]
  exact Window.fresh_evict_iff

/-- A trade and a later one, both in the order of their block times. -/
def inTurn : List Act :=
  [.ingest (buyAt 3000 7 "a" "x") (.ofSeconds 4000),
    .ingest (buyAt 4000 20 "b" "y") (.ofSeconds 4300)]

/-- A trade, and one with an earlier block time behind it. -/
def overtaken : List Act :=
  [.ingest (buyAt 4000 20 "b" "y") (.ofSeconds 4000),
    .ingest (buyAt 3000 7 "a" "x") (.ofSeconds 4300)]

/-- A ranking when the earlier of these block times is past the horizon. -/
def hourRanking : Act := .rank .oneHour .count 5 (.ofSeconds 7000)

theorem fresh_inTurn :
    ((∀ b ∈ inTurn, b.now.nanos ≤ hourRanking.now.nanos) ∧ hourRanking.clears .oneHour = true) ∧
    ((empty "q").run (inTurn ++ [hourRanking])).window .oneHour = [buyAt 4000 20 "b" "y"] ∧
    (((empty "q").run (inTurn ++ [hourRanking])).window .oneHour).Fresh
      (Timeframe.oneHour.horizon hourRanking.now) := by
  have hnow : ∀ b ∈ inTurn, b.now.nanos ≤ hourRanking.now.nanos := by decide
  have hclears : hourRanking.clears .oneHour = true := rfl
  have hinOrder : (entered .oneHour (inTurn ++ [hourRanking])).Pairwise
      fun t u => t.trade.blockTime.nanos ≤ u.trade.blockTime.nanos := by decide
  obtain ⟨hwindow, hfresh⟩ := fresh_iff_of_run "q" .oneHour inTurn hourRanking hnow hclears
  exact ⟨⟨hnow, hclears⟩, hwindow.trans (by decide),
    hfresh.2 (Window.unmixed_of_inOrder hinOrder _)⟩

/-- The stale trade stays in the window that was just ranked, behind the one that counts. -/
theorem not_fresh_overtaken :
    ((∀ b ∈ overtaken, b.now.nanos ≤ hourRanking.now.nanos) ∧
      (overtaken ++ [hourRanking]).Pairwise fun a b => a.now.nanos ≤ b.now.nanos) ∧
    ((empty "q").run (overtaken ++ [hourRanking])).window .oneHour
      = [buyAt 4000 20 "b" "y", buyAt 3000 7 "a" "x"] ∧
    ¬ (((empty "q").run (overtaken ++ [hourRanking])).window .oneHour).Fresh
      (Timeframe.oneHour.horizon hourRanking.now) := by decide

end Rankings

end SwapFloor
