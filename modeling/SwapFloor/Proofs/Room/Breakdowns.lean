import SwapFloor.Proofs.Decimal.Range
import SwapFloor.Proofs.Room.Totals

/-!
# Trades that a room cannot count

A room counts a trade in three steps: the trade itself with its time, the volume of its side, and
the flow of its signer. Each of the two sums can be out of range, and what was counted before it
stays counted.

Main statement: a trade is counted as a whole exactly if both sums are in range, and if not, it
leaves counts behind that are neither those before it nor those with it
(`counted_or_leftBehind`).
-/

namespace SwapFloor.RoomStats

variable {s s' : RoomStats} {t : Trade} {side : Side} {quote : Decimal} {mint : String}
  {member : Bool}

/-! ## The steps -/

/-- The volume of the side can take up the quote. -/
def VolumeFits (s : RoomStats) (quote : Decimal) : Side → Prop
  | .buy => ¬ Decimal.Exceeds (s.buyVolume.value + quote.value)
  | .sell => ¬ Decimal.Exceeds (s.sellVolume.value + quote.value)
  | .swap => True

instance (s : RoomStats) (quote : Decimal) (side : Side) : Decidable (s.VolumeFits quote side) :=
  match side with
  | .buy | .sell => inferInstanceAs (Decidable (¬ _))
  | .swap => .isTrue trivial

/-- The volume of the side has taken up the quote, and the other one is as it was. -/
structure VolumeTaken (s s' : RoomStats) (quote : Decimal) (side : Side) : Prop where
  buyVolume : if side = .buy then s.buyVolume.add quote = some s'.buyVolume
    else s'.buyVolume = s.buyVolume
  sellVolume : if side = .sell then s.sellVolume.add quote = some s'.sellVolume
    else s'.sellVolume = s.sellVolume

theorem addVolume_eq_none_iff : s.addVolume side quote = none ↔ ¬ s.VolumeFits quote side := by
  unfold addVolume VolumeFits
  cases side with
  | buy => rw [Option.map_eq_none_iff, Decimal.add_eq_none_iff, not_not]
  | sell => rw [Option.map_eq_none_iff, Decimal.add_eq_none_iff, not_not]
  | swap => exact iff_of_false nofun (not_not_intro trivial)

theorem exists_of_addVolume (h : s.addVolume side quote = some s') :
    ∃ b v, s' = { s with buyVolume := b, sellVolume := v } ∧ s.VolumeTaken s' quote side := by
  unfold addVolume at h
  cases side with
  | buy =>
    obtain ⟨b, hb, rfl⟩ := Option.map_eq_some_iff.1 h
    exact ⟨b, s.sellVolume, rfl, hb, rfl⟩
  | sell =>
    obtain ⟨v, hv, rfl⟩ := Option.map_eq_some_iff.1 h
    exact ⟨s.buyVolume, v, rfl, rfl, hv⟩
  | swap =>
    cases h
    exact ⟨s.buyVolume, s.sellVolume, rfl, rfl, rfl⟩

/-- The flow of the signer can take up what the trade brings. -/
def FlowFits (s : RoomStats) (t : Trade) (quote : Decimal) : Prop :=
  ¬ Decimal.Exceeds ((s.pnl t.signer).value + (flow t.side quote).value)

instance (s : RoomStats) (t : Trade) (quote : Decimal) : Decidable (s.FlowFits t quote) :=
  inferInstanceAs (Decidable (¬ _))

theorem add_flow_eq_none_iff :
    (s.pnl t.signer).add (flow t.side quote) = none ↔ ¬ s.FlowFits t quote := by
  unfold FlowFits
  rw [Decimal.add_eq_none_iff, not_not]

/-! ## All or some of them -/

/-- Both sums that the trade takes part in are in range. -/
structure InRange (s : RoomStats) (t : Trade) (mint : String) (member : Bool) : Prop where
  volume : s.VolumeFits (t.quoteAmount mint) t.side
  flow : member = true → s.FlowFits t (t.quoteAmount mint)

/-- The trade itself is counted, and the latest time is that of all with the trade. -/
structure Noted (s s' : RoomStats) (t : Trade) : Prop where
  tradeCount : s'.tradeCount = s.tradeCount + 1
  lastTradeTime : IsLatest s'.lastTradeTime (s.lastTradeTime.toList ++ [t.blockTime])

/-- All fields have taken up the trade. -/
structure Counted (s s' : RoomStats) (t : Trade) (mint : String) (member : Bool) : Prop where
  noted : s.Noted s' t
  volume : s.VolumeTaken s' (t.quoteAmount mint) t.side
  flow : member = true → ∃ d, (s.pnl t.signer).add (flow t.side (t.quoteAmount mint)) = some d ∧
    s'.memberPnl.get? t.signer = some d
  others : ∀ wallet, ¬ (member = true ∧ wallet = t.signer) →
    s'.memberPnl.get? wallet = s.memberPnl.get? wallet

/-- What a trade that breaks off leaves behind: it is counted, and so is its volume if that fits,
but nobody's flow. -/
structure LeftBehind (s s' : RoomStats) (t : Trade) (mint : String) : Prop where
  noted : s.Noted s' t
  volume : s.VolumeFits (t.quoteAmount mint) t.side ∧
      s.VolumeTaken s' (t.quoteAmount mint) t.side ∨
    ¬ s.VolumeFits (t.quoteAmount mint) t.side ∧
      s'.buyVolume = s.buyVolume ∧ s'.sellVolume = s.sellVolume
  memberPnl : s'.memberPnl = s.memberPnl

theorem noted_note (s : RoomStats) (t : Trade) : s.Noted (s.note t) t where
  tradeCount := rfl
  lastTradeTime := by
    refine isLatest_note ?_ t
    cases s.lastTradeTime with
    | none => rfl
    | some last => exact ⟨List.mem_singleton_self _, fun u hu => (List.mem_singleton.1 hu) ▸ le_rfl⟩

/-- A flow that is out of range is not zero, so its signer already has it. -/
theorem insert_pnl_of_not_flowFits (h : ¬ s.FlowFits t quote) :
    s.memberPnl.insert t.signer (s.pnl t.signer) = s.memberPnl := by
  cases hd : s.memberPnl.get? t.signer with
  | some d =>
    have hpnl : s.pnl t.signer = d := by unfold pnl; rw [hd]; rfl
    rw [hpnl]
    exact Table.insert_of_get? hd
  | none =>
    have hpnl : s.pnl t.signer = .zero := by unfold pnl; rw [hd]; rfl
    have hsum := add_flow_eq_none_iff.2 h
    rw [hpnl, Decimal.zero_add] at hsum
    exact nomatch hsum

theorem apply_of_not_volumeFits (h : ¬ s.VolumeFits (t.quoteAmount mint) t.side) :
    s.apply t mint member = (s.note t, some .addition) := by
  have hadd : (s.note t).addVolume t.side (t.quoteAmount mint) = none :=
    addVolume_eq_none_iff.2 h
  unfold apply
  dsimp only
  rw [hadd]

/-- Where the volume fits, its step is done, and the rest depends on the flow. -/
theorem exists_apply_of_volumeFits (h : s.VolumeFits (t.quoteAmount mint) t.side) :
    ∃ b v, s.VolumeTaken { s.note t with buyVolume := b, sellVolume := v } (t.quoteAmount mint)
        t.side ∧
      s.apply t mint false = ({ s.note t with buyVolume := b, sellVolume := v }, none) ∧
      ((s.pnl t.signer).add (flow t.side (t.quoteAmount mint)) = none →
        s.apply t mint true = ({ s.note t with
          buyVolume := b
          sellVolume := v
          memberPnl := s.memberPnl.insert t.signer (s.pnl t.signer) }, some .addition)) ∧
      ∀ d, (s.pnl t.signer).add (flow t.side (t.quoteAmount mint)) = some d →
        s.apply t mint true = ({ s.note t with
          buyVolume := b
          sellVolume := v
          memberPnl := s.memberPnl.insert t.signer d }, none) := by
  have hsome : ¬ (s.note t).addVolume t.side (t.quoteAmount mint) = none :=
    fun e => addVolume_eq_none_iff.1 e h
  obtain ⟨counted, hadd⟩ := Option.ne_none_iff_exists'.1 hsome
  obtain ⟨b, v, rfl, htaken⟩ := exists_of_addVolume hadd
  have hpnl : ((s.note t).memberPnl.get? t.signer).getD .zero = s.pnl t.signer := rfl
  unfold apply
  dsimp only
  rw [hadd]
  dsimp only
  rw [hpnl]
  refine ⟨b, v, ⟨htaken.buyVolume, htaken.sellVolume⟩, rfl, fun hnone => ?_, fun d hd => ?_⟩
  · rw [hnone]
    rfl
  · rw [hd]
    rfl

theorem counted_of_inRange (h : s.InRange t mint member) :
    (s.apply t mint member).2 = none ∧ s.Counted (s.apply t mint member).1 t mint member := by
  have hnoted := noted_note s t
  obtain ⟨b, v, htaken, hout, -, hin⟩ := exists_apply_of_volumeFits h.volume
  cases member with
  | false =>
    rw [hout]
    exact ⟨rfl, ⟨hnoted.1, hnoted.2⟩, htaken, fun e => absurd e Bool.false_ne_true, fun _ _ => rfl⟩
  | true =>
    have hsome : ¬ (s.pnl t.signer).add (flow t.side (t.quoteAmount mint)) = none :=
      fun hnone => add_flow_eq_none_iff.1 hnone (h.flow rfl)
    obtain ⟨d, hd⟩ := Option.ne_none_iff_exists'.1 hsome
    rw [hin d hd]
    refine ⟨rfl, ⟨hnoted.1, hnoted.2⟩, ⟨htaken.1, htaken.2⟩, fun _ => ⟨d, hd, ?_⟩,
      fun wallet hne => ?_⟩
    · exact (Table.get?_insert ..).trans (if_pos rfl)
    · exact (Table.get?_insert ..).trans (if_neg fun e => hne ⟨rfl, e⟩)

theorem leftBehind_of_not_inRange (h : ¬ s.InRange t mint member) :
    (s.apply t mint member).2 = some .addition ∧
      s.LeftBehind (s.apply t mint member).1 t mint := by
  have hnoted := noted_note s t
  by_cases hvolume : s.VolumeFits (t.quoteAmount mint) t.side
  · -- The volume fits, so it is the flow of a member that does not.
    have hmember : member = true := by
      by_contra hnot
      exact h ⟨hvolume, fun e => absurd e hnot⟩
    have hflow : ¬ s.FlowFits t (t.quoteAmount mint) := fun hfits => h ⟨hvolume, fun _ => hfits⟩
    obtain ⟨b, v, htaken, -, hbroken, -⟩ := exists_apply_of_volumeFits hvolume
    rw [hmember, hbroken (add_flow_eq_none_iff.2 hflow)]
    exact ⟨rfl, ⟨hnoted.1, hnoted.2⟩, Or.inl ⟨hvolume, htaken.1, htaken.2⟩,
      insert_pnl_of_not_flowFits hflow⟩
  · rw [apply_of_not_volumeFits hvolume]
    exact ⟨rfl, hnoted, Or.inr ⟨hvolume, rfl, rfl⟩, rfl⟩

theorem apply_ne_self (s : RoomStats) (t : Trade) (mint : String) (member : Bool) :
    (s.apply t mint member).1 ≠ s := by
  intro e
  have hcount := apply_tradeCount s t mint member
  rw [e] at hcount
  have hnat := congrArg UInt64.toNat hcount
  rw [UInt64.toNat_add, UInt64.toNat_one] at hnat
  omega

/-- A trade is counted as a whole if its sums are in range. If not, it breaks off, and the counts
that it leaves behind are not those before it. -/
theorem counted_or_leftBehind (s : RoomStats) (t : Trade) (mint : String) (member : Bool) :
    (s.InRange t mint member →
      (s.apply t mint member).2 = none ∧ s.Counted (s.apply t mint member).1 t mint member) ∧
    (¬ s.InRange t mint member →
      (s.apply t mint member).2 = some .addition ∧
        s.LeftBehind (s.apply t mint member).1 t mint ∧ (s.apply t mint member).1 ≠ s) := by
  refine ⟨counted_of_inRange, fun h => ?_⟩
  obtain ⟨hbroken, hleft⟩ := leftBehind_of_not_inRange h
  exact ⟨hbroken, hleft, apply_ne_self s t mint member⟩

/-- A whole number of tokens. -/
def wholes (mint : String) (n : Nat) : Leg := ⟨mint, (Decimal.ofInt? n).getD .zero⟩

/-- Ann spends whole sol. -/
def annsBuy (sol : Nat) (time : Int) : Trade where
  signature := "sig"
  slot := 0
  blockTime := ⟨time, false⟩
  platform := "unknown"
  programId := none
  spent := wholes "sol" sol
  received := wholes "mint" 5
  signer := "ann"
  trackedAddress := none
  side := .buy

/-- The counts after Ann has spent as much as a volume can hold. -/
def afterLargest : RoomStats := (empty.apply (annsBuy (2 ^ 96 - 1) 1) "sol" true).1

theorem counted_or_leftBehind_annsBuys :
    (empty.InRange (annsBuy (2 ^ 96 - 1) 1) "sol" true ∧
      empty.Counted afterLargest (annsBuy (2 ^ 96 - 1) 1) "sol" true) ∧
    ¬ afterLargest.InRange (annsBuy 1 2) "sol" true ∧
      afterLargest.LeftBehind (afterLargest.apply (annsBuy 1 2) "sol" true).1 (annsBuy 1 2)
        "sol" := by
  have hfits : empty.InRange (annsBuy (2 ^ 96 - 1) 1) "sol" true :=
    ⟨by decide +kernel, fun _ => by decide +kernel⟩
  have hexceeds : ¬ afterLargest.VolumeFits ((annsBuy 1 2).quoteAmount "sol") .buy := by
    decide +kernel
  have hout : ¬ afterLargest.InRange (annsBuy 1 2) "sol" true := fun h => hexceeds h.volume
  exact ⟨⟨hfits, ((counted_or_leftBehind _ _ _ _).1 hfits).2⟩, hout,
    ((counted_or_leftBehind _ _ _ _).2 hout).2.1⟩

/-- The second buy breaks off, but it has been counted, and its time too. -/
theorem not_atomic_annsBuys :
    (afterLargest.apply (annsBuy 1 2) "sol" true).2 = some .addition ∧
    (afterLargest.tradeCount, afterLargest.lastTradeTime) = (1, some ⟨1, false⟩) ∧
    ((afterLargest.apply (annsBuy 1 2) "sol" true).1.tradeCount,
      (afterLargest.apply (annsBuy 1 2) "sol" true).1.lastTradeTime) = (2, some ⟨2, false⟩) := by
  decide +kernel

end SwapFloor.RoomStats
