import SwapFloor.Proofs.RateLimiter.Admission

/-!
# Whether a sweep can be noticed

A swept client starts again with a full bucket. While a bucket is kept for no less than the refill
interval, the one that it loses was due to be filled anyway, and a run reads the same with its
sweeps left out. The settings do not ask for that: with a shorter idle time an empty bucket is
swept before it is due, and its client is let through too early. Main statement: sweeps go
unnoticed exactly when the idle time is no shorter than the interval
(`verdicts_filter_isCheck_iff`).
-/

namespace SwapFloor.RateLimiter

def Act.isCheck : Act → Bool
  | .check .. => true
  | .sweep _ => false

/-- What the clients are told in a run, in the order of their requests. -/
def verdicts (l : RateLimiter) : List Act → List Verdict
  | [] => []
  | .check key now :: as => (l.check key now).2 :: (l.check key now).1.verdicts as
  | .sweep now :: as => (l.sweep now).verdicts as

variable {l l' : RateLimiter} {key : String} {t now : Nat}

theorem verdicts_append (l : RateLimiter) (as bs : List Act) :
    l.verdicts (as ++ bs) = l.verdicts as ++ (as.foldl act l).verdicts bs := by
  induction as generalizing l with
  | nil => rfl
  | cons a as ih =>
    cases a with
    | check key now => exact congrArg _ (ih (l.check key now).1)
    | sweep now => exact ih (l.sweep now)

theorem rule_foldl_act (l : RateLimiter) (as : List Act) : (as.foldl act l).rule = l.rule := by
  induction as generalizing l with
  | nil => rfl
  | cons a as ih =>
    rw [List.foldl_cons, ih]
    cases a <;> rfl

/-! ## Buckets kept for the interval -/

/-- Sweeps are all that separates the two limiters: every bucket of the second is in the first as
well, unless it is due to be filled. -/
structure Thins (l l' : RateLimiter) (now : Nat) : Prop where
  rule : l'.rule = l.rule
  stands : ∀ key, l.Stands key (l'.buckets.get? key) now

theorem thins_new (rule : Rule) : (new rule).Thins (new rule) 0 :=
  ⟨rfl, fun _ => ⟨fits_none, .inl rfl⟩⟩

theorem Thins.mono (h : l.Thins l' t) (hle : t ≤ now) : l.Thins l' now :=
  ⟨h.rule, fun key => (h.stands key).mono hle⟩

theorem Thins.sweep (hidle : l.rule.refillMs ≤ l.rule.idleMs) (h : l.Thins l' now) :
    (l.sweep now).Thins l' now :=
  ⟨h.rule, fun key => (h.stands key).sweep hidle⟩

theorem Thins.verdict_eq (h : l.Thins l' now) (key : String) :
    (l.check key now).2 = (l'.check key now).2 := by
  rw [check_eq, check_eq, h.rule]
  unfold Rule.answer
  rw [(h.stands key).found_eq.1]

theorem Thins.check (h : l.Thins l' now) (key : String) :
    (l.check key now).1.Thins (l'.check key now).1 now where
  rule := h.rule
  stands key' := by
    by_cases hkey : key' = key
    · subst hkey
      have hget : (l'.check key' now).1.buckets.get? key'
          = some (l.rule.rest (l'.buckets.get? key') now) := by
        rw [check_eq, h.rule]
        exact (Table.get?_insert ..).trans (if_pos rfl)
      rw [hget]
      exact (h.stands key').check_self
    · have hget : (l'.check key now).1.buckets.get? key' = l'.buckets.get? key' := by
        rw [get?_check, if_neg hkey]
      rw [hget]
      exact (h.stands key').check_other (Ne.symm hkey)

theorem Thins.verdicts_eq {as : List Act} (hidle : l.rule.refillMs ≤ l.rule.idleMs)
    (has : (t :: as.map Act.time).Pairwise (· ≤ ·)) (h : l.Thins l' t) :
    l'.verdicts (as.filter Act.isCheck) = l.verdicts as := by
  induction as generalizing l l' t with
  | nil => rfl
  | cons a as ih =>
    obtain ⟨hle, htail⟩ := List.pairwise_cons.1 has
    have h := h.mono (hle a.time List.mem_cons_self)
    cases a with
    | sweep now => exact ih hidle htail (h.sweep hidle)
    | check key now =>
      exact congrArg₂ List.cons (h.verdict_eq key).symm (ih hidle htail (h.check key))

/-! ## Buckets kept for less -/

/-- A client takes all that its bucket holds. -/
def rush (rule : Rule) : List Act := List.replicate rule.capacity (.check "" 0)

theorem ordered_rush (rule : Rule) (now : Nat) :
    Ordered (rush rule ++ [.sweep now, .check "" now]) := by
  unfold Ordered rush
  rw [List.map_append, List.map_replicate, List.pairwise_append]
  refine ⟨List.pairwise_replicate.2 (.inr (Nat.le_refl _)), ?_, ?_⟩
  · exact List.pairwise_pair.2 (Nat.le_refl now)
  · intro s hs
    rw [List.eq_of_mem_replicate hs]
    exact fun s' _ => Nat.zero_le s'

theorem get?_check_zero {n : Nat} (hrefill : 0 < l.rule.refillMs)
    (h : l.buckets.get? key = some ⟨n, 0, 0⟩) :
    (l.check key 0).1.buckets.get? key = some ⟨n - 1, 0, 0⟩ := by
  rw [check_eq]
  have hfound : l.rule.found (some ⟨n, 0, 0⟩) 0 = ⟨n, 0, 0⟩ := Rule.found_of_lt hrefill
  refine (Table.get?_insert ..).trans ((if_pos rfl).trans ?_)
  unfold Rule.rest
  rw [h, hfound]

theorem get?_foldl_check_zero {n : Nat} (hrefill : 0 < l.rule.refillMs)
    (h : l.buckets.get? key = some ⟨n, 0, 0⟩) (m : Nat) :
    ((List.replicate m (.check key 0)).foldl act l).buckets.get? key = some ⟨n - m, 0, 0⟩ := by
  induction m generalizing l n with
  | zero => exact h
  | succ m ih =>
    rw [List.replicate_succ, List.foldl_cons, Nat.add_comm m 1, ← Nat.sub_sub]
    exact ih (l := l.act (.check key 0)) hrefill (get?_check_zero hrefill h)

theorem get?_rush {rule : Rule} (hcapacity : 0 < rule.capacity) (hrefill : 0 < rule.refillMs) :
    ((rush rule).foldl act (new rule)).buckets.get? "" = some ⟨0, 0, 0⟩ := by
  obtain ⟨n, hn⟩ := Nat.exists_eq_add_of_lt hcapacity
  rw [Nat.zero_add] at hn
  have hfirst : ((new rule).check "" 0).1.buckets.get? "" = some ⟨n, 0, 0⟩ := by
    rw [check_eq]
    refine (Table.get?_insert ..).trans ((if_pos rfl).trans ?_)
    have hfound : rule.found none 0 = .full rule 0 := Rule.found_of_fills rfl
    have htokens : (Bucket.full rule 0).tokens - 1 = n := by
      unfold Bucket.full
      rw [hn, Nat.add_sub_cancel]
    have hnone : (new rule).buckets.get? "" = none := rfl
    unfold Rule.rest
    rw [hnone, show (new rule).rule = rule from rfl, hfound, htokens]
    rfl
  have hrest := get?_foldl_check_zero (l := (new rule).act (.check "" 0)) hrefill hfirst n
  unfold rush
  rw [hn, List.replicate_succ, List.foldl_cons, hrest, Nat.sub_self]

/-- An empty bucket that is not due refuses; the full one in its place does not. -/
theorem verdict_ne_of_sweep (hcapacity : 0 < l.rule.capacity)
    (hidle : l.rule.idleMs < l.rule.refillMs) (h : l.buckets.get? key = some ⟨0, 0, 0⟩) :
    (l.check key l.rule.idleMs).2 ≠ ((l.sweep l.rule.idleMs).check key l.rule.idleMs).2 := by
  have hfound : l.rule.found (l.buckets.get? key) l.rule.idleMs = ⟨0, 0, l.rule.idleMs⟩ := by
    rw [h]
    exact Rule.found_of_lt hidle
  have hswept : (l.sweep l.rule.idleMs).buckets.get? key = none := by
    refine (Table.get?_filter ..).trans ?_
    rw [h]
    exact Option.filter_some_neg (by simp)
  have hnew : (l.sweep l.rule.idleMs).rule.found none l.rule.idleMs
      = .full l.rule l.rule.idleMs := Rule.found_of_fills rfl
  have hlimited : (l.check key l.rule.idleMs).2
      = .limited (Bucket.retryAfter ⟨0, 0, l.rule.idleMs⟩ l.rule l.rule.idleMs) := by
    rw [check_eq]
    unfold Rule.answer
    rw [hfound, if_neg (Nat.lt_irrefl 0)]
  have hallowed : ((l.sweep l.rule.idleMs).check key l.rule.idleMs).2 = .allowed := by
    rw [check_eq, hswept]
    unfold Rule.answer
    rw [hnew]
    exact if_pos hcapacity
  rw [hlimited, hallowed]
  exact fun h => nomatch h

/-! ## Accepted settings -/

/-- Under settings that are accepted, sweeps can be left out of every run without a change of what
clients are told if and only if the idle time is no shorter than the refill interval. -/
theorem verdicts_filter_isCheck_iff (s : Settings) (hs : s.check = .ok ()) :
    (∀ as, Ordered as →
      (new (.ofSettings s.rateLimit)).verdicts (as.filter Act.isCheck)
        = (new (.ofSettings s.rateLimit)).verdicts as) ↔
      s.rateLimit.refillSecs ≤ s.rateLimit.idleSecs := by
  have hcapacity : 0 < s.rateLimit.capacity :=
    Settings.pos_of_check hs ("rate_limit.capacity", _) (by simp [Settings.positives])
  have hrefill : 0 < s.rateLimit.refillSecs :=
    Settings.pos_of_check hs ("rate_limit.refill_interval_secs", _) (by simp [Settings.positives])
  generalize hrule : Rule.ofSettings s.rateLimit = rule
  have hrefillMs : rule.refillMs = s.rateLimit.refillSecs * 1000 := hrule ▸ rfl
  have hidleMs : rule.idleMs = s.rateLimit.idleSecs * 1000 := hrule ▸ rfl
  have hcapacity : 0 < rule.capacity := hrule ▸ hcapacity
  constructor
  · intro h
    refine Nat.le_of_not_lt fun hlt => ?_
    have hsame := h _ (ordered_rush rule rule.idleMs)
    have hchecks : (rush rule).filter Act.isCheck = rush rule :=
      List.filter_eq_self.2 fun a ha => by rw [List.eq_of_mem_replicate ha]; rfl
    rw [List.filter_append, hchecks, verdicts_append, verdicts_append] at hsame
    have hlast := List.append_cancel_left hsame
    have hne := @verdict_ne_of_sweep ((rush rule).foldl act (new rule)) ""
    rw [rule_foldl_act] at hne
    refine hne hcapacity ?_ (get?_rush hcapacity ?_) (List.cons.inj hlast).1
    · change rule.idleMs < rule.refillMs
      omega
    · omega
  · intro hle as has
    have hidle : rule.refillMs ≤ rule.idleMs := by omega
    have hts : (0 :: as.map Act.time).Pairwise (· ≤ ·) :=
      List.pairwise_cons.2 ⟨fun _ _ => Nat.zero_le _, has⟩
    exact (thins_new rule).verdicts_eq hidle hts

/-- The usual settings keep a bucket for an hour and fill it after a minute. -/
theorem verdicts_filter_isCheck_default :
    ({} : Settings).check = .ok () ∧ ∀ as, Ordered as →
      (new (.ofSettings {})).verdicts (as.filter Act.isCheck)
        = (new (.ofSettings {})).verdicts as :=
  ⟨Settings.check_default,
    (verdicts_filter_isCheck_iff {} Settings.check_default).2 (by decide)⟩

/-- One request a minute, and buckets kept for a second. -/
def forgetful : Settings := { rateLimit := { capacity := 1, refillSecs := 60, idleSecs := 1 } }

/-- Settings that are accepted, and a sweep that lets a client through 59 seconds too early. -/
theorem verdicts_forgetful :
    forgetful.check = .ok () ∧
      Ordered [.check "ann" 0, .sweep 1000, .check "ann" 1000] ∧
      (new (.ofSettings forgetful.rateLimit)).verdicts
        [.check "ann" 0, .sweep 1000, .check "ann" 1000] = [.allowed, .allowed] ∧
      (new (.ofSettings forgetful.rateLimit)).verdicts
        ([.check "ann" 0, .sweep 1000, .check "ann" 1000].filter Act.isCheck)
          = [.allowed, .limited 59] := by
  have has : Ordered [.check "ann" 0, .sweep 1000, .check "ann" 1000] := by
    unfold Ordered
    decide
  exact ⟨rfl, has, by decide, by decide⟩

end SwapFloor.RateLimiter
