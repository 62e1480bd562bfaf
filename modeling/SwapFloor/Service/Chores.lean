import SwapFloor.Service.Rooms

/-!
# Chores

Some things are done again and again: rooms are recycled, idle connections dropped, old signatures
and idle clients forgotten, failed subscriptions tried again. A chore is done a period after its
timer was started and then once in every period in which time passes at all; periods that are
missed are not made up for. A chore that breaks down is not done any more.

Main statement: the next time of a timer lies after the present and on its grid (`next_dueAt`).
-/

namespace SwapFloor

def Chore.name : Chore → String
  | .reapRooms => "room_reaper"
  | .pruneConnections => "connection_pruner"
  | .sweepSeen => "dedup_sweeper"
  | .sweepLimiter => "rate_limit_sweeper"
  | .retryWatches => "subscription_retry"

namespace Timer

/-- A timer that starts at a time. A period is no shorter than a millisecond. -/
def new (chore : Chore) (periodMs now : Nat) : Timer :=
  ⟨chore, max periodMs 1, now + max periodMs 1⟩

/-- The timer after its chore was done at a time. -/
def next (t : Timer) (now : Nat) : Timer :=
  { t with dueAt := t.dueAt + t.periodMs * ((now - t.dueAt) / t.periodMs + 1) }

theorem next_dueAt {t : Timer} {now : Nat} (hp : 0 < t.periodMs) (hd : t.dueAt ≤ now) :
    now < (t.next now).dueAt ∧ (t.next now).dueAt ≤ now + t.periodMs
      ∧ t.periodMs ∣ (t.next now).dueAt - t.dueAt := by
  have h := Nat.div_add_mod (now - t.dueAt) t.periodMs
  have hm := Nat.mod_lt (now - t.dueAt) hp
  simp only [next, Nat.mul_add, Nat.mul_one]
  refine ⟨by omega, by omega, (now - t.dueAt) / t.periodMs + 1, ?_⟩
  rw [Nat.mul_add, Nat.mul_one]
  omega

end Timer

namespace Service

/-- Drops the connections without a ping for a time; gives them. -/
def pruneConnections (s : Service) (maxIdleMs : Nat) : Service × List Connection :=
  let (hub, removed) := s.hub.prune maxIdleMs s.now
  ({ s with hub := hub }, removed)

/-- Forgets old signatures; gives how many. -/
def sweepSeen (s : Service) : Service × Nat :=
  let seen := s.seen.evict s.elapsedMs
  ({ s with seen := seen }, s.seen.size - seen.size)

/-- Forgets idle clients; gives how many. -/
def sweepLimiter (s : Service) : Service × Nat :=
  let limiter := s.limiter.sweep s.elapsedMs
  ({ s with limiter := limiter }, s.limiter.tracked - limiter.tracked)

/-- Tries failed subscriptions again that are due; gives how many. -/
def retryWatches (s : Service) : Service × Nat := s.watchingAll fun w => w.retryDue s.elapsedMs

/-- Subscribes to everything that is watched once more; gives how many subscriptions were begun. -/
def resubscribeAll (s : Service) : Service × Nat :=
  s.watchingAll fun w => w.resubscribeAll s.elapsedMs

def doChore (s : Service) : Chore → Service × Except Breakdown Unit
  | .reapRooms =>
    let (s, r) := s.reapRooms
    (s, r.map fun _ => ())
  | .pruneConnections => ((s.pruneConnections (s.settings.sockets.maxIdleSecs * 1000)).1, .ok ())
  | .sweepSeen => (s.sweepSeen.1, .ok ())
  | .sweepLimiter => (s.sweepLimiter.1, .ok ())
  | .retryWatches => (s.retryWatches.1, .ok ())

/-! ## Timers -/

/-- The chores of the settings with their periods in seconds. -/
def chores (s : Settings) : List (Chore × Nat) :=
  [(.reapRooms, s.rooms.reaperSecs), (.pruneConnections, s.sockets.pruneSecs),
    (.sweepSeen, s.ingest.dedupSweepSecs)]
    ++ (if s.rateLimit.enabled then [(.sweepLimiter, s.rateLimit.sweepSecs)] else [])
    ++ [(.retryWatches, s.provider.retryIntervalSecs)]

/-- Starts the timers of all chores; gives the chores. -/
def startTimers (s : Service) : Service × List Chore :=
  let timers := (chores s.settings).map fun c => Timer.new c.1 (c.2 * 1000) s.elapsedMs
  ({ s with timers := some timers }, timers.map (·.chore))

/-- Stops the timers, and tells whether they were running. -/
def stopTimers (s : Service) : Service × Bool := ({ s with timers := none }, s.timers.isSome)

/-- The timers that are due, in the order in which they became so. -/
def dueTimers (s : Service) : List Timer :=
  ((s.timers.getD []).filter (·.dueAt ≤ s.elapsedMs)).mergeSort fun a b => a.dueAt ≤ b.dueAt

/-- Puts the next timer in the place of one that was due, none if its chore broke down. -/
def replaceTimer (s : Service) (t : Timer) (next : Option Timer) : Service :=
  { s with timers := s.timers.map fun ts =>
      ts.flatMap fun u => if u = t then next.toList else [u] }

def doDue (s : Service) (t : Timer) : Service :=
  match s.doChore t.chore with
  | (s, .ok ()) => s.replaceTimer t (some (t.next s.elapsedMs))
  | (s, .error _) => s.replaceTimer t none

def doDueChores (s : Service) : Service := s.dueTimers.foldl doDue s

end Service

end SwapFloor
