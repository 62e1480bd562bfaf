import SwapFloor.Proofs.RateLimiter.Sweeping

/-!
# How long a refused client has to wait

A request is refused when the bucket of its client is empty and not due to be filled. The answer
names the seconds until it is due, rounded up, so that the client is let through after them and is
refused as long as it comes more than a second earlier. The bucket is hidden behind all that came
before; what counts is that a refusal leaves it empty, with a time at which it is due (`Waits`).

Main statement: the wait is long enough and no second too long, after every run with times that do
not go back (`wait_of_run`).
-/

namespace SwapFloor.RateLimiter

variable {l : RateLimiter} {key : String} {due r t now : Nat}

/-! ## Seconds -/

/-- A wait is the least number of seconds that covers the milliseconds. -/
theorem waitSeconds_near {ms : Nat} (hpos : 0 < ms) (hfew : ms < 2 ^ 42 * 1000) :
    ms ≤ waitSeconds ms * 1000 ∧ waitSeconds ms * 1000 < ms + 1000 := by
  have hwait : waitSeconds ms = (ms + 999) / 1000 := by
    rw [waitSeconds_of_lt hfew]
    omega
  rw [hwait]
  omega

/-! ## Times of buckets -/

/-- No bucket was filled or used later than this. -/
def FitsAt (l : RateLimiter) (now : Nat) : Prop :=
  ∀ key, ∀ b ∈ l.buckets.get? key, b.Fits l.rule now

theorem fitsAt_new (rule : Rule) : (new rule).FitsAt 0 := fun _ => fits_none

theorem FitsAt.act (h : l.FitsAt t) {a : Act} (hle : t ≤ a.time) : (l.act a).FitsAt a.time := by
  intro key b hb
  cases a with
  | check key' now =>
    change b ∈ (l.check key' now).1.buckets.get? key at hb
    rw [check_eq, Table.get?_insert] at hb
    split at hb
    · exact Rule.fits_rest hle (h key') b hb
    · exact (h key b hb).mono hle
  | sweep now =>
    have hget : (l.sweep now).buckets.get? key
        = (l.buckets.get? key).filter fun b => now - b.lastSeen < l.rule.idleMs :=
      Table.get?_filter ..
    change b ∈ (l.sweep now).buckets.get? key at hb
    rw [hget] at hb
    exact (h key b (Option.eq_some_of_filter_eq_some hb)).mono hle

theorem FitsAt.foldl {as : List Act} (h : l.FitsAt t)
    (has : (t :: as.map Act.time ++ [now]).Pairwise (· ≤ ·)) :
    (as.foldl RateLimiter.act l).FitsAt now := by
  induction as generalizing l t with
  | nil =>
    have hle : t ≤ now := List.rel_of_pairwise_cons has List.mem_cons_self
    exact fun key b hb => (h key b hb).mono hle
  | cons a as ih =>
    obtain ⟨hle, htail⟩ := List.pairwise_cons.1 has
    exact ih (h.act (hle a.time List.mem_cons_self)) htail

/-! ## Waiting -/

/-- The bucket of the client is empty, and is filled by the first request that comes when it is
due. -/
def Waits (l : RateLimiter) (key : String) (due : Nat) : Prop :=
  ∃ b, l.buckets.get? key = some b ∧ b.tokens = 0 ∧ b.lastRefill + l.rule.refillMs = due

/-- A refused client waits from then on, and is told how long. -/
theorem waits_of_limited (hcapacity : 0 < l.rule.capacity) (hfits : l.FitsAt t)
    (h : (l.check key t).2 = .limited r) :
    ∃ due, (l.check key t).1.Waits key due ∧ t < due ∧ due ≤ t + l.rule.refillMs ∧
      r = waitSeconds (due - t) := by
  rw [check_eq] at h ⊢
  unfold Rule.answer at h
  dsimp only at h
  split at h
  · cases h
  · rename_i hempty
    have hr := Verdict.limited.inj h
    -- A bucket that is filled has something in it, so this one was there and was not due.
    have hnot : l.rule.fills (l.buckets.get? key) t = false := by
      refine Bool.eq_false_iff.2 fun hfills => hempty ?_
      rw [Rule.found_of_fills hfills]
      exact hcapacity
    obtain ⟨b, hb, hlt⟩ := Rule.lt_of_not_fills hnot
    have hpast := (hfits key b hb).lastRefill_le
    rw [hb, Rule.found_of_lt hlt] at hempty hr
    refine ⟨b.lastRefill + l.rule.refillMs, ⟨l.rule.rest (some b) t, ?_, ?_, ?_⟩, ?_, ?_, ?_⟩
    · rw [hb]
      exact (Table.get?_insert ..).trans (if_pos rfl)
    · unfold Rule.rest
      rw [Rule.found_of_lt hlt]
      dsimp only at hempty ⊢
      omega
    · unfold Rule.rest
      rw [Rule.found_of_lt hlt]
    · omega
    · omega
    · rw [← hr]
      unfold Bucket.retryAfter
      dsimp only
      congr 1
      omega

/-- Requests of others do not shorten the wait. -/
theorem Waits.act (h : l.Waits key due) {a : Act} (hcheck : a.isCheck = true)
    (hother : a.asks key = none) : (l.act a).Waits key due := by
  cases a with
  | sweep now => exact nomatch hcheck
  | check key' now =>
    have hne : key ≠ key' := by
      rintro rfl
      exact nomatch (if_pos rfl).symm.trans hother
    obtain ⟨b, hb, hrest⟩ := h
    refine ⟨b, ?_, hrest⟩
    exact ((get?_check l key' key now).trans (if_neg hne)).trans hb

theorem Waits.foldl {as : List Act} (h : l.Waits key due)
    (has : ∀ a ∈ as, a.isCheck = true ∧ a.asks key = none) :
    (as.foldl RateLimiter.act l).Waits key due := by
  induction as generalizing l with
  | nil => exact h
  | cons a as ih =>
    obtain ⟨⟨hcheck, hother⟩, htail⟩ := List.forall_mem_cons.1 has
    exact ih (h.act hcheck hother) htail

/-- Who waits is let through just if its bucket is due. -/
theorem Waits.allowed_iff (h : l.Waits key due) (hcapacity : 0 < l.rule.capacity)
    (hrefill : 0 < l.rule.refillMs) (now : Nat) :
    (l.check key now).2 = .allowed ↔ due ≤ now := by
  obtain ⟨b, hb, hempty, hdue⟩ := h
  have hbucket : l.bucket key now = b := by
    unfold bucket
    rw [hb, Option.getD_some]
  rw [check_eq_allowed_iff, hbucket]
  unfold Bucket.refill
  split
  · exact iff_of_true hcapacity (by omega)
  · rw [hempty]
    exact iff_of_false (Nat.lt_irrefl 0) (by omega)

theorem exists_limited_of_ne (h : (l.check key now).2 ≠ .allowed) :
    ∃ r, (l.check key now).2 = .limited r := by
  cases hv : (l.check key now).2 with
  | allowed => exact absurd hv h
  | limited r => exact ⟨r, rfl⟩

/-! ## The wait that a client is told -/

/-- After any run, a client that is refused at `t` with `r` seconds to wait, and does not ask again
before `s`, is let through at the end of the wait and is refused again more than a second before. -/
theorem wait_of_run (rule : Rule) (hcapacity : 1 ≤ rule.capacity) (seconds : Nat)
    (hpos : 0 < seconds) (hfew : seconds < 2 ^ 40) (hrefill : rule.refillMs = seconds * 1000)
    (as bs : List Act) (key : String) {t r s : Nat}
    (has : Ordered (as ++ .check key t :: (bs ++ [.check key s])))
    (hrefused : ((as.foldl act (new rule)).check key t).2 = .limited r)
    (hothers : ∀ a ∈ bs, a.isCheck = true ∧ a.asks key = none) :
    1 ≤ r ∧
      (s = t + r * 1000 →
        (((as ++ .check key t :: bs).foldl act (new rule)).check key s).2 = .allowed) ∧
      (s ≤ t + (r - 1) * 1000 →
        ∃ r', (((as ++ .check key t :: bs).foldl act (new rule)).check key s).2 = .limited r') := by
  have hbefore : (as.map Act.time ++ [t]).Pairwise (· ≤ ·) := by
    unfold Ordered at has
    rw [List.map_append, List.map_cons] at has
    exact has.sublist (List.Sublist.append_left (List.singleton_sublist.2 List.mem_cons_self) _)
  have hfits : (as.foldl act (new rule)).FitsAt t :=
    (fitsAt_new rule).foldl (List.pairwise_cons.2 ⟨fun _ _ => Nat.zero_le _, hbefore⟩)
  have hrule : (as.foldl act (new rule)).rule = rule := rule_foldl_act _ _
  obtain ⟨due, hwaits, hlate, hsoon, hr⟩ :=
    waits_of_limited (by rw [hrule]; exact hcapacity) hfits hrefused
  rw [hrule] at hsoon
  -- The bucket is due within the last of the seconds that the client is told.
  have hnear : due - t ≤ r * 1000 ∧ r * 1000 < due - t + 1000 := by
    rw [hr]
    exact waitSeconds_near (by omega) (by omega)
  have hsplit : (as ++ .check key t :: bs).foldl act (new rule)
      = bs.foldl act ((as.foldl act (new rule)).check key t).1 := by
    rw [List.foldl_append, List.foldl_cons]
    rfl
  have hlast := hwaits.foldl hothers
  rw [← hsplit] at hlast
  have hlet := hlast.allowed_iff (by rw [rule_foldl_act]; exact hcapacity)
    (by rw [rule_foldl_act]; show 0 < rule.refillMs; omega) s
  refine ⟨by omega, fun hs => hlet.2 (by omega), fun hs => exists_limited_of_ne fun hallowed => ?_⟩
  have := hlet.1 hallowed
  omega

/-- One request every three seconds: "ann" comes again 1750 milliseconds too early, is told to wait
for two seconds, and is refused after one of them. -/
theorem wait_threeSeconds :
    Ordered ([.check "ann" 0, .check "bo" 500] ++ .check "ann" 1250
        :: ([.check "bo" 1500] ++ [.check "ann" 3250])) ∧
      (([.check "ann" 0, .check "bo" 500].foldl act (new ⟨1, 3000, 9000⟩)).check "ann" 1250).2
        = .limited 2 ∧
      (([.check "ann" 0, .check "bo" 500, .check "ann" 1250, .check "bo" 1500].foldl act
        (new ⟨1, 3000, 9000⟩)).check "ann" 3250).2 = .allowed ∧
      ∃ r', (([.check "ann" 0, .check "bo" 500, .check "ann" 1250, .check "bo" 1500].foldl act
        (new ⟨1, 3000, 9000⟩)).check "ann" 2250).2 = .limited r' := by
  have hend : Ordered ([.check "ann" 0, .check "bo" 500] ++ .check "ann" 1250
      :: ([.check "bo" 1500] ++ [.check "ann" 3250])) := by
    unfold Ordered
    decide
  have hmiddle : Ordered ([.check "ann" 0, .check "bo" 500] ++ .check "ann" 1250
      :: ([.check "bo" 1500] ++ [.check "ann" 2250])) := by
    unfold Ordered
    decide
  have hrefused : (([.check "ann" 0, .check "bo" 500].foldl act (new ⟨1, 3000, 9000⟩)).check
      "ann" 1250).2 = .limited 2 := by decide
  have hothers : ∀ a ∈ [Act.check "bo" 1500], a.isCheck = true ∧ a.asks "ann" = none := by decide
  have hwait := fun s hs => wait_of_run ⟨1, 3000, 9000⟩ (by decide) 3 (by decide)
    (by decide) rfl [.check "ann" 0, .check "bo" 500] [.check "bo" 1500] "ann" (s := s) hs hrefused
    hothers
  exact ⟨hend, hrefused, (hwait 3250 hend).2.1 rfl, (hwait 2250 hmiddle).2.2 (by decide)⟩

end SwapFloor.RateLimiter
