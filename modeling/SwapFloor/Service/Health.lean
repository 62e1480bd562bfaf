import SwapFloor.Service.Basic

/-!
# Health

How the parts of the service are. The service is worse for wear when subscriptions wait for
another try, or when the queue is full.
-/

namespace SwapFloor.Health

structure Part where
  name : String
  degraded : Bool
  message : String
  deriving DecidableEq

def Part.toJson (p : Part) : Json :=
  .obj [("message", .str p.message), ("status", .str (if p.degraded then "degraded" else "up"))]

def parts (s : Service) : List Part :=
  let n := Text.natText
  let waiting := s.watches.pendingCount
  let queued := s.intake.jobs.length
  let watched := s!"{n s.watches.watchedCount} watched, {n s.watches.activeCount} active, "
  [⟨"rooms", false, s!"{n s.lobby.size} rooms, {n s.lobby.openCount} open"⟩,
    ⟨"connections", false, s!"{n s.hub.total} live connections"⟩,
    ⟨"subscriptions", 0 < waiting, watched ++ s!"{n waiting} pending retry"⟩,
    ⟨"ingest", s.intake.capacity ≤ queued, s!"{n queued}/{n s.intake.capacity} queued"⟩]

def report (s : Service) : Json :=
  let status := if (parts s).any (·.degraded) then "degraded" else "healthy"
  .obj [("components", .obj ((parts s).map fun p => (p.name, p.toJson))),
    ("status", .str status), ("timestamp", .str (Time.offsetText s.now)),
    ("uptime_secs", .nat (s.elapsedMs / 1000)), ("version", .str "0.1.0")]

end SwapFloor.Health
