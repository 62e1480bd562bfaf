import SwapFloor.Decimal.Basic
import SwapFloor.Settings.Basic
import SwapFloor.Table

/-!
# Rate limits

Every client has a bucket of requests. A request takes one; a bucket is full again when it was
last filled no less than the refill interval ago. Times are milliseconds on a clock of its own,
and a time before an earlier one counts as no time having passed. Main statements: what a check
does to the bucket of its own client and that it leaves all others alone (`get?_check`).
-/

namespace SwapFloor

namespace RateLimiter

/-- How many requests are let through, and how long buckets are kept. -/
structure Rule where
  /-- Requests in a full bucket. -/
  capacity : Nat
  /-- The refill interval. -/
  refillMs : Nat
  /-- How long an unused bucket is kept. -/
  idleMs : Nat
  deriving DecidableEq, Inhabited

/-- A rule with the usual hour for unused buckets. -/
def Rule.of (capacity refillMs : Nat) : Rule := ⟨capacity, refillMs, 3600 * 1000⟩

def Rule.ofSettings (s : Settings.RateLimit) : Rule :=
  ⟨s.capacity, s.refillSecs * 1000, s.idleSecs * 1000⟩

/-- The requests that a client may still make. -/
structure Bucket where
  tokens : Nat
  lastRefill : Nat
  lastSeen : Nat
  deriving DecidableEq, Inhabited

def Bucket.full (rule : Rule) (now : Nat) : Bucket := ⟨rule.capacity, now, now⟩

/-- Fills the bucket when it is due. -/
def Bucket.refill (b : Bucket) (rule : Rule) (now : Nat) : Bucket :=
  if rule.refillMs ≤ now - b.lastRefill then { b with tokens := rule.capacity, lastRefill := now }
  else b

/-- Takes a request out of the bucket, and tells whether there was one. -/
def Bucket.take (b : Bucket) (rule : Rule) (now : Nat) : Bucket × Bool :=
  let b := { b.refill rule now with lastSeen := now }
  if 0 < b.tokens then ({ b with tokens := b.tokens - 1 }, true) else (b, false)

/-- The integer of 53 bits that is nearest to `n`, a tie going to the even one. -/
def nearest53 (n : Nat) : Nat :=
  let unit := Nat.pow 2 (n.log2 - 52)
  Decimal.roundDiv n unit * unit

/-- Milliseconds in whole seconds, rounded up and at least one. They are counted with 53 bits:
below `2 ^ 42` seconds this keeps every millisecond apart, above it the last bits are lost. -/
def waitSeconds (ms : Nat) : Nat :=
  let seconds := ms / 1000
  let rounded :=
    if seconds < 2 ^ 42 then (ms + 999) / 1000
    else if seconds < 2 ^ 53 then
      let places := Nat.pow 2 (52 - seconds.log2)
      (Decimal.roundDiv (ms * places) 1000 + (places - 1)) / places
    else nearest53 seconds
  min (max rounded 1) (2 ^ 64 - 1)

/-- Seconds until an empty bucket is filled. -/
def Bucket.retryAfter (b : Bucket) (rule : Rule) (now : Nat) : Nat :=
  waitSeconds (rule.refillMs - (now - b.lastRefill))

/-- The answer to a request. -/
inductive Verdict where
  | allowed
  /-- Refused; the client should wait this many seconds. -/
  | limited (retryAfter : Nat)
  deriving DecidableEq

end RateLimiter

open RateLimiter in
/-- The buckets of all clients. -/
structure RateLimiter where
  rule : Rule
  buckets : Table String Bucket

namespace RateLimiter

/-- No client yet. -/
def new (rule : Rule) : RateLimiter := ⟨rule, .empty⟩

/-- The bucket of a client; a new client has a full one. -/
def bucket (l : RateLimiter) (key : String) (now : Nat) : Bucket :=
  (l.buckets.get? key).getD (.full l.rule now)

/-- Lets a request of a client through, or refuses it. -/
def check (l : RateLimiter) (key : String) (now : Nat) : RateLimiter × Verdict :=
  let (b, granted) := (l.bucket key now).take l.rule now
  ({ l with buckets := l.buckets.insert key b },
    if granted then .allowed else .limited (b.retryAfter l.rule now))

/-- Drops the buckets that have not been used for the idle time. -/
def sweep (l : RateLimiter) (now : Nat) : RateLimiter :=
  { l with buckets := l.buckets.filter fun _ b => now - b.lastSeen < l.rule.idleMs }

/-- The number of clients with a bucket. -/
def tracked (l : RateLimiter) : Nat := l.buckets.size

/-! ## Small lemmas -/

@[simp] theorem check_rule (l : RateLimiter) (key : String) (now : Nat) :
    (l.check key now).1.rule = l.rule := rfl

@[simp] theorem sweep_rule (l : RateLimiter) (now : Nat) : (l.sweep now).rule = l.rule := rfl

theorem get?_check (l : RateLimiter) (key key' : String) (now : Nat) :
    (l.check key now).1.buckets.get? key'
      = if key' = key then some ((l.bucket key now).take l.rule now).1
        else l.buckets.get? key' := by
  simp only [check]
  exact Table.get?_insert ..

theorem check_eq_allowed_iff (l : RateLimiter) (key : String) (now : Nat) :
    (l.check key now).2 = .allowed ↔ 0 < ((l.bucket key now).refill l.rule now).tokens := by
  simp only [check, Bucket.take]
  split <;> simp_all

theorem waitSeconds_of_lt {ms : Nat} (h : ms < 2 ^ 42 * 1000) :
    waitSeconds ms = max ((ms + 999) / 1000) 1 := by
  unfold waitSeconds
  simp only
  rw [if_pos (by omega)]
  omega

end RateLimiter

end SwapFloor
