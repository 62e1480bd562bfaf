import SwapFloor.Watch.Watches

/-!
# A provider that subscribes to nothing

It stands in where no provider is configured, and hands out numbers from one on.
-/

namespace SwapFloor

/-- The last number that was handed out. -/
structure LocalProvider where
  lastId : SubscriptionId := 0
  deriving DecidableEq

namespace LocalProvider

/-- Hands out the next number. -/
def subscribe (p : LocalProvider) : LocalProvider × SubscriptionId := (⟨p.lastId + 1⟩, p.lastId + 1)

theorem subscribe_fresh (p : LocalProvider) : p.lastId < p.subscribe.2 := Nat.lt_succ_self _

end LocalProvider

end SwapFloor
