import SwapFloor.Service.Chores
import SwapFloor.Service.Processing
import SwapFloor.Service.Sockets

/-!
# Turns

After something has happened the service comes to rest: chores that are due are done, calls to the
provider are made in the order in which they were started, the worker does what there is to do, and
the sockets send what waits for them. What the service depends on is given from outside: a provider
with a state of its own, and a way to look transactions up that takes its time.
-/

namespace SwapFloor

/-- What the service depends on. -/
structure Outside (σ : Type) where
  /-- Asks the provider for a subscription. -/
  subscribe : σ → String → σ × Option SubscriptionId
  /-- Gives a subscription back to the provider. -/
  unsubscribe : σ → SubscriptionId → σ
  /-- Looks a transaction up. -/
  lookUp : String → Except Failure (Option TxRecord)
  /-- The time that a look-up takes. -/
  lookUpMs : String → Nat

namespace Service

variable {σ : Type}

/-- Makes a call to the provider, and takes in what comes of it. -/
def makeCall (out : Outside σ) (s : Service) (p : σ) : Watches.Call → Service × σ
  | .unsubscribe id => (s, out.unsubscribe p id)
  | .subscribe address epoch =>
    let (p, result) := out.subscribe p address
    let (w, stale) := s.watches.complete address epoch result s.elapsedMs
    let p := match stale with
      | some (.unsubscribe id) => out.unsubscribe p id
      | _ => p
    ({ s with watches := w }, p)

/-- Makes several calls to the provider. -/
def makeCalls (out : Outside σ) (s : Service) (p : σ) : List Watches.Call → Service × σ
  | [] => (s, p)
  | c :: rest =>
    let (s, p) := s.makeCall out p c
    s.makeCalls out p rest

/-- Makes the calls that were started. -/
def makeStarted (out : Outside σ) (s : Service) (p : σ) : Service × σ :=
  { s with calls := [] }.makeCalls out p s.calls

/-- Comes to rest; gives what the sockets sent. -/
def turn (out : Outside σ) (s : Service) (p : σ) : Service × σ × List Sent :=
  let (s, p) := s.doDueChores.makeStarted out p
  let s := s.work out.lookUp out.lookUpMs
  let (s, sent) := s.flush
  (s, p, sent)

/-! ## All metrics -/

/-- A count that is shown only when it is not zero. -/
def shownCount (name : String) (n : Nat) (m : Metrics) : Metrics :=
  if n = 0 then m else m.set ⟨name, []⟩ n

/-- The metrics with those that the parts of the service keep themselves. -/
def allMetrics (s : Service) : Metrics :=
  let m := shownCount "broadcast_delivery_failures_total" s.hub.failures s.metrics
  let m := shownCount "provider_subscribe_failures_total" s.watches.failures m
  match s.watches.shownActive with
  | some n => m.set ⟨"provider_subscriptions_active", []⟩ n
  | none => m

end Service

end SwapFloor
