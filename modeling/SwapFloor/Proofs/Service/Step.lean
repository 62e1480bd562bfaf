import Mathlib.Logic.Relation
import SwapFloor.Service.Answers
import SwapFloor.Service.Chores
import SwapFloor.Service.Processing
import SwapFloor.Service.Sockets

/-!
# Steps of the service

One operation of the service, completed without a breakdown, is a step. Time passes between steps
in any amount, the clock may be set, and the provider answers whenever and whatever it likes. An
errand is a step that brings no trade.

An operation that fails changes nothing and is no step of its own.
-/

namespace SwapFloor.Service

/-- Nothing has changed but what members and trades do not depend on: the archive, tags, metrics,
the limits of clients, the queue of the worker, the timers and the calls that were noted. -/
structure Aside (s s' : Service) : Prop where
  settings : s'.settings = s.settings
  draws : s'.draws = s.draws
  drawn : s'.drawn = s.drawn
  startedAt : s'.startedAt = s.startedAt
  looksUp : s'.looksUp = s.looksUp
  elapsedMs : s'.elapsedMs = s.elapsedMs
  lobby : s'.lobby = s.lobby
  hub : s'.hub = s.hub
  watches : s'.watches = s.watches
  seen : s'.seen = s.seen
  rankings : s'.rankings = s.rankings
  sockets : s'.sockets = s.sockets

/-- An operation that brings no trade. -/
inductive Errand (s : Service) : Service → Prop
  | create {q s' room} (h : s.createRoom q = .ok (s', room)) : Errand s s'
  | join {room wallet password s' j} (h : s.joinRoom room wallet password = .ok (s', j)) :
    Errand s s'
  | leave {room wallet s' left} (h : s.leaveRoom room wallet = .ok (s', left)) : Errand s s'
  | close {room requester s' r} (h : s.closeRoom room requester = .ok (s', r)) : Errand s s'
  | share {room wallet q s' x} (h : s.share room wallet q = .ok (s', x)) : Errand s s'
  | reap {at_ s' n} (h : s.reapRoomsAt at_ = (s', .ok n)) : Errand s s'
  /-- A client that may open a socket opens one. -/
  | connect {room wallet password k} (h : s.admitSocket room wallet password = .ok k) :
    Errand s (s.openSocket k.room k.wallet password).1
  /-- Something comes in over a socket. -/
  | receive (id : ConnectionId) (m : Incoming) : Errand s (s.receive id m)
  /-- A socket sends all that waits for it, and ends if it is told to. -/
  | flush (id : ConnectionId) : Errand s (s.flushSocket id).1
  /-- A socket sends some of what waits for it. -/
  | send (id : ConnectionId) (n : Nat) : Errand s { s with hub := s.hub.onOutbox id (·.take n) }
  /-- Nobody reads from a socket any more. -/
  | abandon (id : ConnectionId) : Errand s { s with hub := s.hub.onOutbox id .abandon }
  | disconnect (id : ConnectionId) : Errand s (s.endSocket id)
  | prune (maxIdleMs : Nat) (at_ : Instant) :
    Errand s { s with hub := (s.hub.prune maxIdleMs at_).1 }
  /-- A call to the provider is completed, whichever it was. -/
  | complete (address : String) (epoch : Nat) (result : Option SubscriptionId) (at_ : Nat) :
    Errand s { s with watches := (s.watches.complete address epoch result at_).1 }
  | retry : Errand s s.retryWatches.1
  | resubscribe : Errand s s.resubscribeAll.1
  | sweep : Errand s s.sweepSeen.1
  | rank (timeframe : Timeframe) (dimension : Dimension) (limit : Nat) :
    Errand s { s with rankings := (s.rankings.rank timeframe dimension limit s.now).1 }
  | advance (ms : Nat) : Errand s (s.advance ms)
  | setClock (at_ : Instant) : Errand s { s with startedAt := at_ }
  | aside {s'} (h : Aside s s') : Errand s s'

/-- An operation, completed without a breakdown. -/
inductive Step (s : Service) : Service → Prop
  | errand {s'} (h : Errand s s') : Step s s'
  /-- A trade is published to one room. -/
  | publish {room t s'} (h : s.publishTrade room t = (s', none)) : Step s s'
  /-- A trade is processed. -/
  | process {t s' o} (h : s.processTrade t = (s', .ok o)) : Step s s'

/-- The service gets from one state to another by operations. -/
abbrev Run : Service → Service → Prop := Relation.ReflTransGen Step

namespace Aside

variable {s s' s'' : Service}

theorem refl (s : Service) : Aside s s :=
  ⟨rfl, rfl, rfl, rfl, rfl, rfl, rfl, rfl, rfl, rfl, rfl, rfl⟩

theorem trans (h : Aside s s') (h' : Aside s' s'') : Aside s s'' where
  settings := h'.settings.trans h.settings
  draws := h'.draws.trans h.draws
  drawn := h'.drawn.trans h.drawn
  startedAt := h'.startedAt.trans h.startedAt
  looksUp := h'.looksUp.trans h.looksUp
  elapsedMs := h'.elapsedMs.trans h.elapsedMs
  lobby := h'.lobby.trans h.lobby
  hub := h'.hub.trans h.hub
  watches := h'.watches.trans h.watches
  seen := h'.seen.trans h.seen
  rankings := h'.rankings.trans h.rankings
  sockets := h'.sockets.trans h.sockets

theorem now (h : Aside s s') : s'.now = s.now := by
  unfold Service.now
  rw [h.startedAt, h.elapsedMs]

end Aside

theorem aside_saveRoom (s : Service) (r : Room) : Aside s (s.saveRoom r) :=
  ⟨rfl, rfl, rfl, rfl, rfl, rfl, rfl, rfl, rfl, rfl, rfl, rfl⟩

theorem aside_saveMember (s : Service) (m : Member) : Aside s (s.saveMember m) :=
  ⟨rfl, rfl, rfl, rfl, rfl, rfl, rfl, rfl, rfl, rfl, rfl, rfl⟩

theorem aside_saveMembers (s : Service) (ms : List Member) : Aside s (ms.foldl saveMember s) := by
  induction ms generalizing s with
  | nil => exact .refl s
  | cons m ms ih => exact (aside_saveMember s m).trans (ih _)

theorem aside_count (s : Service) (name : String) (labels : List (String × String)) (n : Int) :
    Aside s (s.count name labels n) :=
  ⟨rfl, rfl, rfl, rfl, rfl, rfl, rfl, rfl, rfl, rfl, rfl, rfl⟩

theorem aside_countOutcome (s : Service) (o : Outcome) : Aside s (s.countOutcome o) :=
  aside_count s _ _ 1

end SwapFloor.Service
