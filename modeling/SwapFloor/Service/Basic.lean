import SwapFloor.Archive
import SwapFloor.Fanout.Broadcast
import SwapFloor.Ingest.Intake
import SwapFloor.Ingest.Seen
import SwapFloor.Metrics
import SwapFloor.Ranking.WalletTags
import SwapFloor.Ranking.Window
import SwapFloor.RateLimiter
import SwapFloor.Watch.Watches

/-!
# The service

Everything the service keeps. It is started with its settings, with what it draws at random and
with the time; from then on it knows only how many milliseconds have passed. Calls to the provider
are not made but noted, in the order in which they were started.
-/

namespace SwapFloor

/-- What the service draws at random, by the number of the draw. -/
structure Draws where
  /-- The ids of rooms and of what is shared. -/
  id : Nat → String
  /-- The salts of passwords. -/
  salt : Nat → List UInt8

/-- A socket that serves a connection. -/
structure Socket where
  room : String
  wallet : String
  deriving DecidableEq

/-- What is done again and again. -/
inductive Chore where
  | reapRooms
  | pruneConnections
  | sweepSeen
  | sweepLimiter
  | retryWatches
  deriving DecidableEq

/-- When a chore is done. -/
structure Timer where
  chore : Chore
  periodMs : Nat
  dueAt : Nat
  deriving DecidableEq

/-- The whole service. -/
structure Service where
  settings : Settings
  draws : Draws
  startedAt : Instant
  /-- Transactions can be looked up. -/
  looksUp : Bool
  elapsedMs : Nat := 0
  /-- How many ids have been given. -/
  drawn : Nat := 0
  lobby : Lobby
  hub : Hub := .empty
  watches : Watches
  /-- The calls to the provider that were started and have not been made. -/
  calls : List Watches.Call := []
  archive : Archive := .empty
  seen : Seen
  rankings : Rankings
  tags : WalletTags
  limiter : RateLimiter
  metrics : Metrics := .empty
  intake : Intake
  /-- The sockets that are open, by the connections that they serve. -/
  sockets : Table ConnectionId Socket := .empty
  /-- The chores, none while they are not done. -/
  timers : Option (List Timer) := none

namespace Service

/-- A service that starts at a time. -/
def new (settings : Settings) (draws : Draws) (looksUp : Bool) (startedAt : Instant) : Service where
  settings := settings
  draws := draws
  startedAt := startedAt
  looksUp := looksUp
  lobby := .new settings.rooms.defaultRecycleHours settings.ingest.quoteMint
  watches := .new (.ofSettings settings.provider)
  seen := .new (settings.ingest.dedupRetentionSecs * 1000)
  rankings := .empty settings.ingest.quoteMint
  tags := .ofSettings settings.smartMoney
  limiter := .new (.ofSettings settings.rateLimit)
  intake := .new settings.ingest.queueCapacity settings.ingest.enrichConcurrency

/-- The present. -/
def now (s : Service) : Instant := s.startedAt.plus (s.elapsedMs * Instant.perMilli)

/-- Lets time pass. -/
def advance (s : Service) (ms : Nat) : Service := { s with elapsedMs := s.elapsedMs + ms }

/-- The id that is given next. -/
def nextId (s : Service) : String := s.draws.id (s.drawn + 1)

def count (s : Service) (name : String) (labels : List (String × String)) (n : Int) : Service :=
  { s with metrics := s.metrics.add ⟨name, labels⟩ n }

/-- Changes what is watched, and notes the call that this starts. -/
def watching (s : Service) (change : Watches → Watches × Option Watches.Call) : Service :=
  let (w, call) := change s.watches
  { s with watches := w, calls := s.calls ++ call.toList }

/-- Changes what is watched, and notes the calls that this starts; gives their number. -/
def watchingAll (s : Service) (change : Watches → Watches × List Watches.Call) : Service × Nat :=
  let (w, calls) := change s.watches
  ({ s with watches := w, calls := s.calls ++ calls }, calls.length)

/-- Tells the connections of an open room something; nothing comes of it if that fails. -/
def announce (s : Service) (room : String) (f : Frame) : Service :=
  { s with hub := (Broadcast.toRoom s.lobby s.hub s.settings.sockets.requireRecipients room f).1 }

/-- Tells one connection something; nothing comes of it if that fails. -/
def tell (s : Service) (id : ConnectionId) (f : Frame) : Service :=
  { s with hub := (s.hub.send id f).1 }

/-! ## Small lemmas -/

@[simp] theorem announce_lobby (s : Service) (room : String) (f : Frame) :
    (s.announce room f).lobby = s.lobby := rfl

@[simp] theorem announce_archive (s : Service) (room : String) (f : Frame) :
    (s.announce room f).archive = s.archive := rfl

@[simp] theorem announce_watches (s : Service) (room : String) (f : Frame) :
    (s.announce room f).watches = s.watches := rfl

@[simp] theorem watching_lobby (s : Service) (c : Watches → Watches × Option Watches.Call) :
    (s.watching c).lobby = s.lobby := rfl

@[simp] theorem watching_hub (s : Service) (c : Watches → Watches × Option Watches.Call) :
    (s.watching c).hub = s.hub := rfl

@[simp] theorem advance_advance (s : Service) (m n : Nat) :
    (s.advance m).advance n = s.advance (m + n) := by
  simp [advance, Nat.add_assoc]

end Service

end SwapFloor
