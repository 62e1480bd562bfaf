import Mathlib.Tactic.Common
import SwapFloor.RateLimiter

/-!
# Which requests the limiter lets through

Requests of many clients come in any order, and unused buckets are dropped between them. A bucket
is filled at the first request after the interval, not when the interval ends, so that a span
shorter than the interval can take what is left of one bucket and a full one more. A bucket is
dropped only when it is due to be filled, so that a new one in its place makes no difference: what
a client is told is what it would be told alone (`answers_eq_serve`).

Main statement: the law of admission for every run with times that do not go back
(`lawful_of_run`). Nothing in it depends on the unit of time.
-/

namespace SwapFloor.RateLimiter

/-- What a client is told at a time. -/
structure Answer where
  time : Nat
  verdict : Verdict
  /-- The bucket was filled for the request. A new bucket is a full one. -/
  filled : Bool
  deriving DecidableEq

def Answer.isAllowed (e : Answer) : Bool := e.verdict = .allowed

/-- The times from the first to the last. -/
def between (first last s : Nat) : Bool := first ≤ s ∧ s ≤ last

/-- The times of the interval that ends with `now`, its beginning left out. -/
def Rule.within (rule : Rule) (now s : Nat) : Bool := now < s + rule.refillMs ∧ s ≤ now

/-- How many requests were let through at such times. -/
def admitted (p : Nat → Bool) (es : List Answer) : Nat :=
  es.countP fun e => e.isAllowed && p e.time

theorem admitted_cons_le (p : Nat → Bool) (e : Answer) (es : List Answer) :
    admitted p (e :: es) ≤ admitted p es + e.isAllowed.toNat := by
  unfold admitted
  rw [List.countP_cons]
  cases e.isAllowed <;> cases p e.time <;> simp

theorem le_admitted_cons (p : Nat → Bool) (e : Answer) (es : List Answer) :
    admitted p es ≤ admitted p (e :: es) := by
  unfold admitted
  rw [List.countP_cons]
  exact Nat.le_add_right ..

theorem admitted_cons_of_time {p : Nat → Bool} {e : Answer} (h : p e.time = true)
    (es : List Answer) : admitted p (e :: es) = admitted p es + e.isAllowed.toNat := by
  unfold admitted
  rw [List.countP_cons, h]
  cases e.isAllowed <;> rfl

theorem admitted_cons_of_not_time {p : Nat → Bool} {e : Answer} (h : p e.time = false)
    (es : List Answer) : admitted p (e :: es) = admitted p es := by
  unfold admitted
  rw [List.countP_cons_of_neg (by rw [h, Bool.and_false]; exact Bool.false_ne_true)]

theorem admitted_eq_zero {p : Nat → Bool} {es : List Answer} (h : ∀ e ∈ es, p e.time = false) :
    admitted p es = 0 := by
  unfold admitted
  rw [List.countP_eq_zero]
  intro e he
  rw [h e he, Bool.and_false]
  exact Bool.false_ne_true

theorem countP_isAllowed_cons (e : Answer) (es : List Answer) :
    (e :: es).countP Answer.isAllowed = es.countP Answer.isAllowed + e.isAllowed.toNat := by
  rw [List.countP_cons]
  cases e.isAllowed <;> rfl

/-! ## One bucket -/

/-- What holds of a bucket from a time on. -/
structure Bucket.Fits (b : Bucket) (rule : Rule) (now : Nat) : Prop where
  tokens : b.tokens ≤ rule.capacity
  refilled : b.lastRefill ≤ b.lastSeen
  seen : b.lastSeen ≤ now

theorem fits_none {rule : Rule} {now : Nat} : ∀ b ∈ (none : Option Bucket), b.Fits rule now :=
  fun _ h => nomatch h

theorem Bucket.Fits.mono {b : Bucket} {rule : Rule} {t now : Nat} (hb : b.Fits rule t)
    (h : t ≤ now) : b.Fits rule now :=
  ⟨hb.tokens, hb.refilled, Nat.le_trans hb.seen h⟩

theorem Bucket.Fits.lastRefill_le {b : Bucket} {rule : Rule} {now : Nat} (hb : b.Fits rule now) :
    b.lastRefill ≤ now :=
  Nat.le_trans hb.refilled hb.seen

namespace Rule

/-- A request fills the bucket, or begins a new one. -/
def fills (rule : Rule) : Option Bucket → Nat → Bool
  | none, _ => true
  | some b, now => rule.refillMs ≤ now - b.lastRefill

/-- The bucket that a request takes from. -/
def found (rule : Rule) (b : Option Bucket) (now : Nat) : Bucket :=
  { (b.getD (.full rule now)).refill rule now with lastSeen := now }

/-- What a request leaves of the bucket. -/
def rest (rule : Rule) (b : Option Bucket) (now : Nat) : Bucket :=
  { rule.found b now with tokens := (rule.found b now).tokens - 1 }

def answer (rule : Rule) (b : Option Bucket) (now : Nat) : Answer where
  time := now
  verdict :=
    if 0 < (rule.found b now).tokens then .allowed
    else .limited ((rule.found b now).retryAfter rule now)
  filled := rule.fills b now

/-- What a client is told with requests at these times and no bucket but its own. -/
def serve (rule : Rule) (b : Option Bucket) : List Nat → List Answer
  | [] => []
  | now :: ts => rule.answer b now :: serve rule (some (rule.rest b now)) ts

variable {rule : Rule} {b : Option Bucket} {now s t : Nat} {ts : List Nat}

theorem found_of_fills (h : rule.fills b now = true) : rule.found b now = .full rule now := by
  unfold found Bucket.refill
  cases b with
  | none =>
    rw [Option.getD_none]
    split <;> rfl
  | some b =>
    rw [Option.getD_some, if_pos (of_decide_eq_true h)]
    rfl

theorem found_of_lt {b : Bucket} (h : now - b.lastRefill < rule.refillMs) :
    rule.found (some b) now = { b with lastSeen := now } := by
  unfold found Bucket.refill
  rw [Option.getD_some, if_neg (Nat.not_le_of_lt h)]

theorem lt_of_not_fills (h : rule.fills b now = false) :
    ∃ b', b = some b' ∧ now - b'.lastRefill < rule.refillMs := by
  cases b with
  | none => exact nomatch h
  | some b => exact ⟨b, rfl, Nat.lt_of_not_le (of_decide_eq_false h)⟩

theorem fits_found (h : t ≤ now) (hb : ∀ b' ∈ b, b'.Fits rule t) :
    (rule.found b now).Fits rule now := by
  cases hf : rule.fills b now with
  | true =>
    rw [found_of_fills hf]
    exact ⟨Nat.le_refl _, Nat.le_refl _, Nat.le_refl _⟩
  | false =>
    obtain ⟨b', rfl, hlt⟩ := lt_of_not_fills hf
    have hfits := hb b' rfl
    rw [found_of_lt hlt]
    exact ⟨hfits.tokens, Nat.le_trans hfits.refilled (Nat.le_trans hfits.seen h), Nat.le_refl _⟩

theorem fits_rest (h : t ≤ now) (hb : ∀ b' ∈ b, b'.Fits rule t) :
    ∀ b' ∈ some (rule.rest b now), b'.Fits rule now := by
  intro b' hb'
  obtain rfl := Option.mem_some.1 hb'
  have hfits := fits_found h hb
  exact ⟨Nat.le_trans (Nat.sub_le ..) hfits.tokens, hfits.refilled, hfits.seen⟩

theorem isAllowed_answer :
    (rule.answer b now).isAllowed = decide (0 < (rule.found b now).tokens) := by
  unfold Answer.isAllowed answer
  by_cases h : 0 < (rule.found b now).tokens <;> simp [h]

/-- A request that is let through takes one out of the bucket, a refused one finds it empty. -/
theorem tokens_rest_add : (rule.rest b now).tokens + (rule.answer b now).isAllowed.toNat
    = (rule.found b now).tokens := by
  have hrest : (rule.rest b now).tokens = (rule.found b now).tokens - 1 := rfl
  rw [isAllowed_answer, hrest]
  by_cases h : 0 < (rule.found b now).tokens
  · rw [decide_eq_true h, Bool.toNat_true]
    omega
  · rw [decide_eq_false h, Bool.toNat_false]
    omega

theorem time_mem_of_mem_serve {e : Answer} (h : e ∈ rule.serve b ts) : e.time ∈ ts := by
  induction ts generalizing b with
  | nil => exact nomatch h
  | cons now ts ih =>
    obtain _ | ⟨_, h⟩ := h
    · exact List.mem_cons_self
    · exact List.mem_cons_of_mem _ (ih h)

theorem serve_eq_cons {e : Answer} {es : List Answer} (h : rule.serve b ts = e :: es) :
    ∃ now ts', ts = now :: ts' ∧ rule.answer b now = e ∧
      rule.serve (some (rule.rest b now)) ts' = es := by
  cases ts with
  | nil => exact nomatch h
  | cons now ts =>
    obtain ⟨he, hes⟩ := List.cons.inj h
    exact ⟨now, ts, rfl, he, hes⟩

/-- From any answer on, the rest is served out of the bucket that the answers before have left. -/
theorem serve_eq_append {pre es : List Answer} (hts : (t :: ts).Pairwise (· ≤ ·))
    (hb : ∀ b' ∈ b, b'.Fits rule t) (h : rule.serve b ts = pre ++ es) :
    ∃ t' b' ts', (t' :: ts').Pairwise (· ≤ ·) ∧ (∀ x ∈ b', x.Fits rule t') ∧
      es = rule.serve b' ts' := by
  induction pre generalizing t b ts with
  | nil => exact ⟨t, b, ts, hts, hb, h.symm⟩
  | cons e pre ih =>
    obtain ⟨now, ts, rfl, -, htail⟩ := serve_eq_cons h
    obtain ⟨hle, hts⟩ := List.pairwise_cons.1 hts
    exact ih hts (fits_rest (hle now List.mem_cons_self) hb) htail

/-! ## Refusals -/

/-- Until the bucket is filled again, a request finds no more than an earlier one found. -/
theorem tokens_found_le (hle : now ≤ s) (hb : ∀ b' ∈ b, b'.Fits rule now)
    (hs : s - (rule.found b now).lastRefill < rule.refillMs) :
    (rule.found b s).tokens ≤ (rule.found b now).tokens := by
  cases hf : rule.fills b now with
  | true =>
    rw [found_of_fills hf]
    exact (fits_found hle hb).tokens
  | false =>
    obtain ⟨b', rfl, hlt⟩ := lt_of_not_fills hf
    rw [found_of_lt hlt] at hs
    have hthen : (rule.found (some b') s).tokens = b'.tokens := by rw [found_of_lt (b := b') hs]
    have hnow : (rule.found (some b') now).tokens = b'.tokens := by rw [found_of_lt hlt]
    exact Nat.le_of_eq (hthen.trans hnow.symm)

/-- When a request is refused, all that the bucket had for it was given away within the
interval. -/
theorem tokens_found_le_admitted {pre post : List Answer} {e : Answer}
    (hts : (t :: ts).Pairwise (· ≤ ·)) (hb : ∀ b' ∈ b, b'.Fits rule t)
    (h : rule.serve b ts = pre ++ e :: post) (he : e.isAllowed = false) :
    (rule.found b e.time).tokens ≤ admitted (rule.within e.time) pre := by
  induction pre generalizing t b ts with
  | nil =>
    obtain ⟨now, ts, rfl, rfl, -⟩ := serve_eq_cons h
    rw [isAllowed_answer] at he
    exact Nat.le_of_not_lt (of_decide_eq_false he)
  | cons e' pre ih =>
    obtain ⟨now, ts, rfl, rfl, htail⟩ := serve_eq_cons h
    obtain ⟨hle, hts⟩ := List.pairwise_cons.1 hts
    have hnow : t ≤ now := hle now List.mem_cons_self
    have hmem : e ∈ rule.serve (some (rule.rest b now)) ts := by
      rw [htail]
      exact List.mem_append_right _ List.mem_cons_self
    have hlater : now ≤ e.time := (List.pairwise_cons.1 hts).1 _ (time_mem_of_mem_serve hmem)
    have hspent := ih hts (fits_rest hnow hb) htail
    -- Either the bucket was due again by the time of the refusal, and all of it is spent by the
    -- answers that follow, or this answer is one of those that it was spent on.
    cases hf : rule.fills (some (rule.rest b now)) e.time with
    | true =>
      rw [found_of_fills hf] at hspent
      calc (rule.found b e.time).tokens
          ≤ rule.capacity := (fits_found (Nat.le_trans hnow hlater) hb).tokens
        _ ≤ admitted (rule.within e.time) pre := hspent
        _ ≤ admitted (rule.within e.time) (rule.answer b now :: pre) := le_admitted_cons ..
    | false =>
      have hlt : e.time - (rule.rest b now).lastRefill < rule.refillMs :=
        Nat.lt_of_not_le (of_decide_eq_false hf)
      have hrefill : (rule.rest b now).lastRefill ≤ now := (fits_found hnow hb).lastRefill_le
      have hin : rule.within e.time now = true := decide_eq_true ⟨by omega, hlater⟩
      rw [found_of_lt hlt] at hspent
      calc (rule.found b e.time).tokens
          ≤ (rule.found b now).tokens :=
            tokens_found_le hlater (fun b' hb' => (hb b' hb').mono hnow) hlt
        _ = (rule.rest b now).tokens + (rule.answer b now).isAllowed.toNat :=
          tokens_rest_add.symm
        _ ≤ admitted (rule.within e.time) pre + (rule.answer b now).isAllowed.toNat :=
          Nat.add_le_add_right hspent _
        _ = admitted (rule.within e.time) (rule.answer b now :: pre) :=
          (admitted_cons_of_time hin pre).symm

/-! ## Bursts -/

/-- Until the bucket is filled again, no more is let through than it holds. -/
theorem countP_le_tokens {during post : List Answer} {b : Bucket}
    (h : rule.serve (some b) ts = during ++ post) (hf : ∀ e ∈ during, e.filled = false) :
    during.countP Answer.isAllowed ≤ b.tokens := by
  induction during generalizing b ts with
  | nil => exact Nat.zero_le _
  | cons e during ih =>
    obtain ⟨now, ts, rfl, rfl, htail⟩ := serve_eq_cons h
    have hlt : now - b.lastRefill < rule.refillMs :=
      Nat.lt_of_not_le (of_decide_eq_false (hf _ List.mem_cons_self))
    have hfound : (rule.found (some b) now).tokens = b.tokens := by rw [found_of_lt hlt]
    rw [countP_isAllowed_cons, ← hfound, ← tokens_rest_add]
    exact Nat.add_le_add_right (ih htail fun e he => hf e (List.mem_cons_of_mem _ he)) _

theorem countP_le_capacity {e : Answer} {during post : List Answer}
    (hts : (t :: ts).Pairwise (· ≤ ·)) (hb : ∀ b' ∈ b, b'.Fits rule t)
    (h : rule.serve b ts = e :: during ++ post) (hf : ∀ e' ∈ during, e'.filled = false) :
    (e :: during).countP Answer.isAllowed ≤ rule.capacity := by
  obtain ⟨now, ts, rfl, rfl, htail⟩ := serve_eq_cons h
  have hnow : t ≤ now := (List.pairwise_cons.1 hts).1 now List.mem_cons_self
  rw [countP_isAllowed_cons]
  calc during.countP Answer.isAllowed + (rule.answer b now).isAllowed.toNat
      ≤ (rule.rest b now).tokens + (rule.answer b now).isAllowed.toNat :=
        Nat.add_le_add_right (countP_le_tokens htail hf) _
    _ = (rule.found b now).tokens := tokens_rest_add
    _ ≤ rule.capacity := (fits_found hnow hb).tokens

/-- What a bucket can give in a span: what it holds and, unless it was filled in the span, a full
one once more. -/
def spare (rule : Rule) (first : Nat) : Option Bucket → Nat
  | none => rule.capacity
  | some b => b.tokens + if first ≤ b.lastRefill then 0 else rule.capacity

theorem spare_some (rule : Rule) (first : Nat) (b : Bucket) :
    rule.spare first (some b)
      = b.tokens + if first ≤ b.lastRefill then 0 else rule.capacity := rfl

theorem spare_found_le {first last : Nat} (hspan : last < first + rule.refillMs)
    (hb : ∀ b' ∈ b, b'.Fits rule t) (hnow : t ≤ now) (hfirst : first ≤ now) (hlast : now ≤ last) :
    rule.spare first (some (rule.found b now)) ≤ rule.spare first b := by
  cases hf : rule.fills b now with
  | true =>
    have hfull : rule.spare first (some (rule.found b now)) = rule.capacity := by
      have hlastRefill : (Bucket.full rule now).lastRefill = now := rfl
      rw [found_of_fills hf, spare_some, hlastRefill, if_pos hfirst]
      rfl
    rw [hfull]
    cases b with
    | none => exact Nat.le_refl _
    | some b =>
      have hdue : rule.refillMs ≤ now - b.lastRefill := of_decide_eq_true hf
      have hpast := (hb b rfl).lastRefill_le
      have hout : ¬ first ≤ b.lastRefill := by omega
      rw [spare_some, if_neg hout]
      exact Nat.le_add_left ..
  | false =>
    obtain ⟨b', rfl, hlt⟩ := lt_of_not_fills hf
    rw [found_of_lt hlt]
    exact Nat.le_refl (rule.spare first (some b'))

theorem spare_rest_add {first : Nat} :
    rule.spare first (some (rule.rest b now)) + (rule.answer b now).isAllowed.toNat
      = rule.spare first (some (rule.found b now)) := by
  have hrest : (rule.rest b now).lastRefill = (rule.found b now).lastRefill := rfl
  rw [spare_some, spare_some, ← tokens_rest_add, hrest, Nat.add_right_comm]

theorem admitted_le_spare {first last : Nat} (hspan : last < first + rule.refillMs)
    (hts : (t :: ts).Pairwise (· ≤ ·)) (hb : ∀ b' ∈ b, b'.Fits rule t)
    (hfirst : ∀ s ∈ ts, first ≤ s) :
    admitted (between first last) (rule.serve b ts) ≤ rule.spare first b := by
  induction ts generalizing t b with
  | nil => exact Nat.zero_le _
  | cons now ts ih =>
    obtain ⟨hle, htail⟩ := List.pairwise_cons.1 hts
    have hnow : t ≤ now := hle now List.mem_cons_self
    by_cases hlast : now ≤ last
    · have hlater := ih htail (fits_rest hnow hb) fun s hs => hfirst s (List.mem_cons_of_mem _ hs)
      calc admitted (between first last) (rule.serve b (now :: ts))
          ≤ admitted (between first last) (rule.serve (some (rule.rest b now)) ts)
              + (rule.answer b now).isAllowed.toNat := admitted_cons_le ..
        _ ≤ rule.spare first (some (rule.rest b now))
              + (rule.answer b now).isAllowed.toNat := Nat.add_le_add_right hlater _
        _ = rule.spare first (some (rule.found b now)) := spare_rest_add
        _ ≤ rule.spare first b :=
          spare_found_le hspan hb hnow (hfirst now List.mem_cons_self) hlast
    · refine Nat.le_trans (Nat.le_of_eq (admitted_eq_zero fun e he => ?_)) (Nat.zero_le _)
      have hlater : now ≤ e.time := by
        obtain h | h := List.mem_cons.1 (time_mem_of_mem_serve he)
        · exact Nat.le_of_eq h.symm
        · exact (List.pairwise_cons.1 htail).1 _ h
      exact decide_eq_false (by omega)

theorem spare_le {first : Nat} (hb : ∀ b' ∈ b, b'.Fits rule t) :
    rule.spare first b ≤ 2 * rule.capacity := by
  cases b with
  | none =>
    have : rule.spare first none = rule.capacity := rfl
    omega
  | some b =>
    have htokens := (hb b rfl).tokens
    rw [spare_some]
    split <;> omega

theorem admitted_le_two_mul {first last : Nat} (hspan : last < first + rule.refillMs)
    (hts : (t :: ts).Pairwise (· ≤ ·)) (hb : ∀ b' ∈ b, b'.Fits rule t) :
    admitted (between first last) (rule.serve b ts) ≤ 2 * rule.capacity := by
  induction ts generalizing t b with
  | nil => exact Nat.zero_le _
  | cons now ts ih =>
    obtain ⟨hle, htail⟩ := List.pairwise_cons.1 hts
    by_cases hfirst : first ≤ now
    · have hlater : ∀ s ∈ now :: ts, first ≤ s := by
        intro s hs
        obtain rfl | hs := List.mem_cons.1 hs
        · exact hfirst
        · exact Nat.le_trans hfirst ((List.pairwise_cons.1 htail).1 s hs)
      exact Nat.le_trans (admitted_le_spare hspan hts hb hlater) (spare_le hb)
    · have hout : between first last now = false := decide_eq_false fun h => hfirst h.1
      have hrest := ih htail (fits_rest (hle now List.mem_cons_self) hb)
      exact Nat.le_trans (Nat.le_of_eq (admitted_cons_of_not_time hout _)) hrest

end Rule

/-! ## Many clients -/

inductive Act where
  /-- A request of a client. -/
  | check (key : String) (now : Nat)
  | sweep (now : Nat)

def Act.time : Act → Nat
  | .check _ now => now
  | .sweep now => now

/-- The time of a request, if it is of this client. -/
def Act.asks (key : String) : Act → Option Nat
  | .check key' now => if key' = key then some now else none
  | .sweep _ => none

theorem Act.time_of_asks {a : Act} {key : String} {t : Nat} (h : a.asks key = some t) :
    t = a.time := by
  cases a with
  | sweep now => exact nomatch h
  | check key' now =>
    by_cases hkey : key' = key
    · exact (Option.some.inj ((if_pos hkey).symm.trans h)).symm
    · exact nomatch (if_neg hkey).symm.trans h

/-- The times do not go back. -/
def Ordered (as : List Act) : Prop := (as.map Act.time).Pairwise (· ≤ ·)

def act (l : RateLimiter) : Act → RateLimiter
  | .check key now => (l.check key now).1
  | .sweep now => l.sweep now

def answer (l : RateLimiter) (key : String) (now : Nat) : Answer where
  time := now
  verdict := (l.check key now).2
  filled := l.rule.fills (l.buckets.get? key) now

/-- What a client is told in a run. -/
def answers (l : RateLimiter) (key : String) : List Act → List Answer
  | [] => []
  | a :: as =>
    let es := (l.act a).answers key as
    match a.asks key with
    | some now => l.answer key now :: es
    | none => es

theorem take_eq (rule : Rule) (b : Option Bucket) (now : Nat) :
    (b.getD (.full rule now)).take rule now
      = (rule.rest b now, decide (0 < (rule.found b now).tokens)) := by
  have htake : (b.getD (.full rule now)).take rule now
      = if 0 < (rule.found b now).tokens then (rule.rest b now, true)
        else (rule.found b now, false) := rfl
  rw [htake]
  by_cases h : 0 < (rule.found b now).tokens
  · rw [if_pos h, decide_eq_true h]
  · have hempty : (rule.found b now).tokens - 1 = (rule.found b now).tokens := by omega
    rw [if_neg h, decide_eq_false h]
    unfold Rule.rest
    rw [hempty]

theorem check_eq (l : RateLimiter) (key : String) (now : Nat) :
    l.check key now
      = ({ l with buckets := l.buckets.insert key (l.rule.rest (l.buckets.get? key) now) },
        (l.rule.answer (l.buckets.get? key) now).verdict) := by
  unfold check bucket
  simp only [take_eq, decide_eq_true_eq]
  rfl

/-- The bucket of a client is the one it would have alone, or none when that one is due. -/
structure Stands (l : RateLimiter) (key : String) (b : Option Bucket) (now : Nat) : Prop where
  fits : ∀ b' ∈ b, b'.Fits l.rule now
  stands : l.buckets.get? key = b ∨
    l.buckets.get? key = none ∧ ∀ b' ∈ b, l.rule.refillMs ≤ now - b'.lastRefill

variable {l : RateLimiter} {key : String} {b : Option Bucket} {t now : Nat}

theorem Stands.mono (hs : l.Stands key b t) (h : t ≤ now) : l.Stands key b now where
  fits b' hb' := (hs.fits b' hb').mono h
  stands := hs.stands.imp_right fun ⟨hnone, hdue⟩ =>
    ⟨hnone, fun b' hb' => Nat.le_trans (hdue b' hb') (Nat.sub_le_sub_right h _)⟩

/-- A new bucket in place of one that is due to be filled: the request fares alike. -/
theorem Stands.found_eq (hs : l.Stands key b now) :
    l.rule.found (l.buckets.get? key) now = l.rule.found b now ∧
      l.rule.fills (l.buckets.get? key) now = l.rule.fills b now := by
  obtain h | ⟨h, hdue⟩ := hs.stands
  · rw [h]
    exact ⟨rfl, rfl⟩
  · have hfills : l.rule.fills b now = true := by
      cases b with
      | none => rfl
      | some b => exact decide_eq_true (hdue b rfl)
    rw [h, hfills, Rule.found_of_fills hfills]
    exact ⟨Rule.found_of_fills rfl, rfl⟩

theorem Stands.answer_eq (hs : l.Stands key b now) : l.answer key now = l.rule.answer b now := by
  unfold answer Rule.answer
  rw [check_eq]
  unfold Rule.answer
  rw [hs.found_eq.1, hs.found_eq.2]

theorem Stands.sweep (hidle : l.rule.refillMs ≤ l.rule.idleMs) (hs : l.Stands key b now) :
    (l.sweep now).Stands key b now where
  fits := hs.fits
  stands := by
    have hget : (l.sweep now).buckets.get? key
        = (l.buckets.get? key).filter fun b => now - b.lastSeen < l.rule.idleMs :=
      Table.get?_filter ..
    rw [hget]
    obtain h | ⟨h, hdue⟩ := hs.stands
    · rw [h]
      cases b with
      | none => exact .inl rfl
      | some b =>
        have hfits := hs.fits b rfl
        by_cases hseen : now - b.lastSeen < l.rule.idleMs
        · exact .inl (Option.filter_some_pos (decide_eq_true hseen))
        · refine .inr ⟨Option.filter_some_neg (by simpa using hseen), ?_⟩
          intro b' hb'
          obtain rfl := Option.mem_some.1 hb'
          have hrefilled := hfits.refilled
          have hrule : (l.sweep now).rule = l.rule := rfl
          rw [hrule]
          omega
    · rw [h]
      exact .inr ⟨rfl, hdue⟩

theorem Stands.check_self (hs : l.Stands key b now) :
    (l.check key now).1.Stands key (some (l.rule.rest b now)) now where
  fits := Rule.fits_rest (Nat.le_refl now) hs.fits
  stands := by
    left
    rw [check_eq]
    simp only
    rw [Table.get?_insert, if_pos rfl]
    unfold Rule.rest
    rw [hs.found_eq.1]

theorem Stands.check_other {key' : String} (hne : key' ≠ key) (hs : l.Stands key b now) :
    (l.check key' now).1.Stands key b now where
  fits := hs.fits
  stands := by
    have hget : (l.check key' now).1.buckets.get? key = l.buckets.get? key := by
      rw [get?_check, if_neg (Ne.symm hne)]
    rw [hget]
    exact hs.stands

/-- What a client is told does not depend on the requests of others or on dropped buckets. -/
theorem answers_eq_serve_of_stands {as : List Act} (hidle : l.rule.refillMs ≤ l.rule.idleMs)
    (has : (t :: as.map Act.time).Pairwise (· ≤ ·)) (hs : l.Stands key b t) :
    l.answers key as = l.rule.serve b (as.filterMap (Act.asks key)) := by
  induction as generalizing l b t with
  | nil => rfl
  | cons a as ih =>
    obtain ⟨hle, htail⟩ := List.pairwise_cons.1 has
    have hs := hs.mono (hle a.time List.mem_cons_self)
    cases a with
    | sweep now => exact ih hidle htail (hs.sweep hidle)
    | check key' now =>
      by_cases hkey : key' = key
      · subst hkey
        have hasks : Act.asks key' (.check key' now) = some now := if_pos rfl
        have hlater : (l.check key' now).1.answers key' as
            = l.rule.serve (some (l.rule.rest b now)) (as.filterMap (Act.asks key')) :=
          ih hidle htail hs.check_self
        rw [List.filterMap_cons_some hasks]
        unfold answers
        rw [hasks]
        exact congrArg₂ List.cons hs.answer_eq hlater
      · have hasks : Act.asks key (.check key' now) = none := if_neg hkey
        rw [List.filterMap_cons_none hasks]
        unfold answers
        rw [hasks]
        exact ih hidle htail (hs.check_other hkey)

theorem answers_eq_serve {rule : Rule} (hidle : rule.refillMs ≤ rule.idleMs) {as : List Act}
    (has : Ordered as) (key : String) :
    (new rule).answers key as = rule.serve none (as.filterMap (Act.asks key)) := by
  have hts : (0 :: as.map Act.time).Pairwise (· ≤ ·) :=
    List.pairwise_cons.2 ⟨fun _ _ => Nat.zero_le _, has⟩
  have hs : (new rule).Stands key none 0 := ⟨fits_none, .inl rfl⟩
  exact answers_eq_serve_of_stands hidle hts hs

theorem Ordered.asks {as : List Act} (has : Ordered as) (key : String) :
    (0 :: as.filterMap (Act.asks key)).Pairwise (· ≤ ·) := by
  refine List.pairwise_cons.2 ⟨fun _ _ => Nat.zero_le _, ?_⟩
  refine List.Pairwise.filterMap _ ?_ (List.pairwise_map.1 has)
  intro a a' hle t ht t' ht'
  rw [Act.time_of_asks ht, Act.time_of_asks ht']
  exact hle

/-! ## The law -/

/-- The law of admission for what one client is told. -/
structure Lawful (rule : Rule) (es : List Answer) : Prop where
  /-- A client that is refused was let through before, within the interval, as many times as a full
  bucket holds. -/
  spent : ∀ pre e post, es = pre ++ e :: post → e.isAllowed = false →
    rule.capacity ≤ admitted (rule.within e.time) pre
  /-- No span shorter than the interval lets more than two full buckets through. -/
  burst : ∀ first last, last < first + rule.refillMs →
    admitted (between first last) es ≤ 2 * rule.capacity
  /-- No more than a full bucket is let through until it is filled again. -/
  refill : ∀ pre e during post, es = pre ++ e :: during ++ post →
    (∀ e' ∈ during, e'.filled = false) → (e :: during).countP Answer.isAllowed ≤ rule.capacity

theorem lawful_serve {rule : Rule} {ts : List Nat} (hts : (0 :: ts).Pairwise (· ≤ ·)) :
    Lawful rule (rule.serve none ts) where
  spent pre e post h he := by
    have hfull : (rule.found none e.time).tokens = rule.capacity := by
      rw [Rule.found_of_fills rfl]
      rfl
    rw [← hfull]
    exact Rule.tokens_found_le_admitted hts fits_none h he
  burst first last hspan := Rule.admitted_le_two_mul hspan hts fits_none
  refill pre e during post h hf := by
    have hsplit : rule.serve none ts = pre ++ (e :: during ++ post) :=
      h.trans (List.append_assoc ..)
    obtain ⟨t, b, ts', hts', hb, he⟩ := Rule.serve_eq_append hts fits_none hsplit
    exact Rule.countP_le_capacity hts' hb he.symm hf

/-- What a client is told over a run keeps to the law, and depends on the times of its own requests
only. -/
theorem lawful_of_run (rule : Rule) (hidle : rule.refillMs ≤ rule.idleMs) (as : List Act)
    (has : Ordered as) (key : String) :
    Lawful rule ((new rule).answers key as) ∧
      ∀ bs, Ordered bs → bs.filterMap (Act.asks key) = as.filterMap (Act.asks key) →
        (new rule).answers key bs = (new rule).answers key as := by
  have halone := answers_eq_serve hidle has key
  constructor
  · rw [halone]
    exact lawful_serve (has.asks key)
  · intro bs hbs hsame
    rw [answers_eq_serve hidle hbs key, hsame, halone]

/-- A client that is let through three times within two units of time and twice refused, and whose
bucket is then dropped. -/
def hasty : List Act :=
  [.check "ann" 0, .check "bo" 3, .check "ann" 9, .check "ann" 9, .check "ann" 10, .check "ann" 10,
    .check "bo" 11, .check "ann" 15, .sweep 27, .check "ann" 27]

theorem lawful_hasty :
    Ordered hasty ∧
      (new ⟨2, 10, 12⟩).answers "ann" hasty =
        [⟨0, .allowed, true⟩, ⟨9, .allowed, false⟩, ⟨9, .limited 1, false⟩, ⟨10, .allowed, true⟩,
          ⟨10, .allowed, false⟩, ⟨15, .limited 1, false⟩, ⟨27, .allowed, true⟩] ∧
      Lawful ⟨2, 10, 12⟩ ((new ⟨2, 10, 12⟩).answers "ann" hasty) ∧
      (new ⟨2, 10, 12⟩).answers "ann" (hasty.filter fun a => (a.asks "ann").isSome)
        = (new ⟨2, 10, 12⟩).answers "ann" hasty := by
  have has : Ordered hasty := by
    unfold Ordered
    decide
  have hown : Ordered (hasty.filter fun a => (a.asks "ann").isSome) := by
    unfold Ordered
    decide
  have hlaw := lawful_of_run ⟨2, 10, 12⟩ (by decide) hasty has "ann"
  exact ⟨has, by decide, hlaw.1, hlaw.2 _ hown (by decide)⟩

end SwapFloor.RateLimiter
