import SwapFloor.Failure
import SwapFloor.Table
import SwapFloor.Trade

/-!
# What a room counts

The number of trades routed to a room, the quote spent on buys and received from sales, the
latest block time, and for each member the flow of quote through its own trades. The number of
trades has 64 bits and starts again at zero after its last value. A sum that is out of range breaks
the count of a trade off; what was counted before it stays counted.
-/

namespace SwapFloor

/-- The running counts of a room. -/
structure RoomStats where
  tradeCount : UInt64
  buyVolume : Decimal
  sellVolume : Decimal
  lastTradeTime : Option Instant
  /-- Quote received less quote spent, by member. -/
  memberPnl : Table String Decimal

namespace RoomStats

/-- Nothing counted. -/
def empty : RoomStats := ⟨0, .zero, .zero, none, .empty⟩

instance : Inhabited RoomStats := ⟨empty⟩

/-- Counts the trade itself and its block time. -/
def note (s : RoomStats) (t : Trade) : RoomStats :=
  { s with
    tradeCount := s.tradeCount + 1
    lastTradeTime := some (match s.lastTradeTime with
      | some before => if before.isAfter t.blockTime then before else t.blockTime
      | none => t.blockTime) }

/-- The volumes with a trade's amount of quote added. -/
def addVolume (s : RoomStats) (side : Side) (quote : Decimal) : Option RoomStats :=
  match side with
  | .buy => (s.buyVolume.add quote).map fun v => { s with buyVolume := v }
  | .sell => (s.sellVolume.add quote).map fun v => { s with sellVolume := v }
  | .swap => some s

/-- The quote that a trade brings its signer. -/
def flow (side : Side) (quote : Decimal) : Decimal :=
  match side with
  | .buy => quote.neg
  | .sell => quote
  | .swap => .zero

/-- Counts a trade. A breakdown comes with the counts that it leaves behind. -/
def apply (s : RoomStats) (t : Trade) (quoteMint : String) (signerIsMember : Bool) :
    RoomStats × Option Breakdown :=
  let noted := s.note t
  let quote := t.quoteAmount quoteMint
  match noted.addVolume t.side quote with
  | none => (noted, some .addition)
  | some counted =>
    if signerIsMember then
      let before := (counted.memberPnl.get? t.signer).getD .zero
      match before.add (flow t.side quote) with
      | none => ({ counted with memberPnl := counted.memberPnl.insert t.signer before },
          some .addition)
      | some after => ({ counted with memberPnl := counted.memberPnl.insert t.signer after }, none)
    else (counted, none)

/-- Counts from their parts in the order of their fields. -/
def ofParts (tradeCount : UInt64) (buyVolume sellVolume : Decimal) (lastTradeTime : Option Instant)
    (pnl : List (String × Decimal)) : RoomStats where
  tradeCount := tradeCount
  buyVolume := buyVolume
  sellVolume := sellVolume
  lastTradeTime := lastTradeTime
  memberPnl := pnl.foldl (fun t e => t.insert e.1 e.2) .empty

open Json in
/-- The fields of a room's counts. -/
def fields : Fields RoomStats :=
  ofParts <$> required "tradeCount" uint64 <*> required "buyVolume" decimal
    <*> required "sellVolume" decimal <*> optional "lastTradeTime" instant
    <*> required "memberPnl" (mapOf decimal)

/-- Counts from JSON. -/
def decoder : Json.Decoder RoomStats := Json.record "RoomStats" fields

/-- Counts as JSON. -/
def toJson (s : RoomStats) : Json :=
  .obj [("buyVolume", Json.ofDecimal s.buyVolume),
    ("lastTradeTime", Json.ofOption Json.ofInstant s.lastTradeTime),
    ("memberPnl", Json.object (s.memberPnl.entries.map fun e => (e.1, Json.ofDecimal e.2))),
    ("sellVolume", Json.ofDecimal s.sellVolume), ("tradeCount", .nat s.tradeCount.toNat)]

/-! ## Small lemmas -/

@[simp] theorem note_tradeCount (s : RoomStats) (t : Trade) :
    (s.note t).tradeCount = s.tradeCount + 1 := rfl

/-- Every trade is counted, even one that breaks off. -/
theorem apply_tradeCount (s : RoomStats) (t : Trade) (q : String) (b : Bool) :
    (s.apply t q b).1.tradeCount = s.tradeCount + 1 := by
  have hv : ∀ (x y : RoomStats) side quote, x.addVolume side quote = some y →
      y.tradeCount = x.tradeCount := by
    intro x y side quote h
    cases side <;> simp only [addVolume, Option.map_eq_some_iff, Option.some.injEq] at h
    · obtain ⟨_, _, rfl⟩ := h; rfl
    · obtain ⟨_, _, rfl⟩ := h; rfl
    · rw [h]
  simp only [apply]
  split
  · rfl
  · rename_i counted hc
    have := hv _ _ _ _ hc
    split
    · split <;> simp [this]
    · simp [this]

end RoomStats

end SwapFloor
