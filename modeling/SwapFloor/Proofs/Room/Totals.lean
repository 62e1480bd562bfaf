import Mathlib.Algebra.BigOperators.Group.List.Basic
import SwapFloor.Proofs.Decimal.Value
import SwapFloor.Room.Stats

/-!
# What the counts of a room come to

Trades are counted one after the other, each with the word whether its signer was in the room at
that moment. As long as no sum is rounded, the counts are the sums over all of them, and so they do
not depend on their order. If all signers were in the room, the flows of the members come to what
the sales of the room received less what its buys spent.

Main statements: `exists_apply` (one more trade), `Sums.conserved` and `Sums.sameTotals_of_perm`.
-/

namespace SwapFloor

/-- A trade that a room counts. -/
structure RoomTrade where
  trade : Trade
  /-- Its signer was in the room at that moment. -/
  byMember : Bool
  deriving DecidableEq

namespace RoomTrade

/-- The quote that the trade brings its signer. -/
def quoteFlow (r : RoomTrade) : Decimal :=
  match r.trade.side with
  | .buy => r.trade.spent.amount.neg
  | .sell => r.trade.received.amount
  | .swap => .zero

/-- What the buys spent. -/
def bought (h : List RoomTrade) : List Decimal :=
  (h.filter fun r => r.trade.side = .buy).map (·.trade.spent.amount)

/-- What the sales received. -/
def sold (h : List RoomTrade) : List Decimal :=
  (h.filter fun r => r.trade.side = .sell).map (·.trade.received.amount)

/-- What the sales received less what the buys spent. -/
def net (h : List RoomTrade) : ℚ := Decimal.total (sold h) - Decimal.total (bought h)

/-- The trades that a wallet signed while it was in the room. -/
def ofMember (wallet : String) (h : List RoomTrade) : List RoomTrade :=
  h.filter fun r => r.byMember && r.trade.signer == wallet

variable {r : RoomTrade} {h h' : List RoomTrade} {wallet : String}

theorem bought_cons (r : RoomTrade) (h : List RoomTrade) : bought (r :: h)
    = if r.trade.side = .buy then r.trade.spent.amount :: bought h else bought h := by
  unfold bought
  simp only [List.filter_cons, decide_eq_true_eq]
  split <;> rfl

theorem sold_cons (r : RoomTrade) (h : List RoomTrade) : sold (r :: h)
    = if r.trade.side = .sell then r.trade.received.amount :: sold h else sold h := by
  unfold sold
  simp only [List.filter_cons, decide_eq_true_eq]
  split <;> rfl

theorem bought_append (h h' : List RoomTrade) : bought (h ++ h') = bought h ++ bought h' := by
  unfold bought
  rw [List.filter_append, List.map_append]

theorem sold_append (h h' : List RoomTrade) : sold (h ++ h') = sold h ++ sold h' := by
  unfold sold
  rw [List.filter_append, List.map_append]

theorem net_append (h h' : List RoomTrade) : net (h ++ h') = net h + net h' := by
  unfold net
  rw [bought_append, sold_append, Decimal.total_append, Decimal.total_append]
  ring

theorem net_singleton (r : RoomTrade) : net [r] = r.quoteFlow.value := by
  unfold net quoteFlow bought sold
  cases hside : r.trade.side <;> simp [hside]

theorem ofMember_append (wallet : String) (h h' : List RoomTrade) :
    ofMember wallet (h ++ h') = ofMember wallet h ++ ofMember wallet h' :=
  List.filter_append ..

theorem ofMember_self (hr : r.byMember = true) :
    ofMember r.trade.signer (r :: h) = r :: ofMember r.trade.signer h :=
  List.filter_cons_of_pos (by simp [hr])

theorem ofMember_of_not (hr : ¬ (r.byMember = true ∧ r.trade.signer = wallet)) :
    ofMember wallet (r :: h) = ofMember wallet h :=
  List.filter_cons_of_neg (by simpa using hr)

theorem net_perm (hp : h.Perm h') : net h = net h' := by
  unfold net bought sold
  rw [Decimal.total_perm ((hp.filter _).map _), Decimal.total_perm ((hp.filter _).map _)]

/-- Over wallets that include all signers, the nets of the single wallets come to the whole. -/
theorem sum_net_ofMember {wallets : List String} (hd : wallets.Nodup)
    (hall : ∀ r ∈ h, r.byMember = true ∧ r.trade.signer ∈ wallets) :
    (wallets.map fun w => net (ofMember w h)).sum = net h := by
  induction h with
  | nil => simp [net, ofMember, bought, sold]
  | cons r h ih =>
    obtain ⟨⟨hmember, hin⟩, hrest⟩ := List.forall_mem_cons.1 hall
    have hone : ∀ w, net (ofMember w (r :: h))
        = (if w = r.trade.signer then r.quoteFlow.value else 0) + net (ofMember w h) := by
      intro w
      split
      · rename_i hw
        rw [hw, ofMember_self hmember, ← List.singleton_append, net_append, net_singleton]
      · rename_i hw
        rw [ofMember_of_not fun e => hw e.2.symm, zero_add]
    have hflow : (wallets.map fun w => if w = r.trade.signer then r.quoteFlow.value else 0).sum
        = r.quoteFlow.value := by
      rw [List.sum_map_ite_eq, List.count_eq_one_of_mem hd hin]
      simp
    rw [funext hone, List.sum_map_add, hflow, ih hrest, ← net_singleton, ← net_append,
      List.singleton_append]

end RoomTrade

open RoomTrade

/-- The latest of some times, if there are any. -/
def IsLatest (last : Option Instant) (times : List Instant) : Prop :=
  match last with
  | none => times = []
  | some last => last ∈ times ∧ ∀ t ∈ times, t.nanos ≤ last.nanos

theorem IsLatest.nanos_eq {last last' : Option Instant} {times times' : List Instant}
    (h : IsLatest last times) (h' : IsLatest last' times') (hp : times.Perm times') :
    last'.map (·.nanos) = last.map (·.nanos) := by
  cases last with
  | none =>
    cases last' with
    | none => rfl
    | some t' =>
      obtain rfl : times = [] := h
      exact absurd (hp.mem_iff.2 h'.1) List.not_mem_nil
  | some t =>
    cases last' with
    | none =>
      obtain rfl : times' = [] := h'
      exact absurd (hp.mem_iff.1 h.1) List.not_mem_nil
    | some t' =>
      exact congrArg some (le_antisymm (h.2 t' (hp.mem_iff.2 h'.1)) (h'.2 t (hp.mem_iff.1 h.1)))

namespace RoomStats

/-- What is counted of a wallet, zero if nothing is. -/
def pnl (s : RoomStats) (wallet : String) : Decimal := (s.memberPnl.get? wallet).getD .zero

/-- Each wallet that signed while it was in the room has the net of the trades it signed then. -/
structure HasNets (t : Table String Decimal) (h : List RoomTrade) : Prop where
  members : ∀ wallet, wallet ∈ t.keys ↔ ∃ r ∈ h, r.byMember = true ∧ r.trade.signer = wallet
  net : ∀ wallet d, t.get? wallet = some d → d.value = net (ofMember wallet h)

/-- The counts are those of the trades `h`, whose number is counted in 64 bits. -/
structure Sums (s : RoomStats) (h : List RoomTrade) : Prop where
  tradeCount : s.tradeCount.toNat = h.length % 2 ^ 64
  lastTradeTime : IsLatest s.lastTradeTime (h.map (·.trade.blockTime))
  buyVolume : s.buyVolume.value = Decimal.total (bought h)
  sellVolume : s.sellVolume.value = Decimal.total (sold h)
  memberPnl : HasNets s.memberPnl h

/-- The counts are the same, decimals taken as numbers and times without their marks. -/
structure SameTotals (s s' : RoomStats) : Prop where
  tradeCount : s'.tradeCount = s.tradeCount
  lastTradeTime : s'.lastTradeTime.map (·.nanos) = s.lastTradeTime.map (·.nanos)
  buyVolume : s'.buyVolume.value = s.buyVolume.value
  sellVolume : s'.sellVolume.value = s.sellVolume.value
  memberPnl : ∀ wallet,
    (s'.memberPnl.get? wallet).map Decimal.value = (s.memberPnl.get? wallet).map Decimal.value

/-- Counting the trades never rounds a sum or exceeds its range. -/
structure Exact (s : RoomStats) (h : List RoomTrade) : Prop where
  bought : s.buyVolume.ExactFrom (bought h)
  sold : s.sellVolume.ExactFrom (sold h)
  flows : ∀ wallet, (s.pnl wallet).ExactFrom ((ofMember wallet h).map quoteFlow)

variable {s s' : RoomStats} {h h' : List RoomTrade} {r : RoomTrade} {quote : String}

/-- Only the signers matter. -/
theorem exact_iff : s.Exact h ↔ s.buyVolume.ExactFrom (RoomTrade.bought h) ∧
    s.sellVolume.ExactFrom (RoomTrade.sold h) ∧
    ∀ r ∈ h, (s.pnl r.trade.signer).ExactFrom ((ofMember r.trade.signer h).map quoteFlow) := by
  refine ⟨fun hx => ⟨hx.bought, hx.sold, fun r _ => hx.flows _⟩, fun ⟨hb, hs, hf⟩ =>
    ⟨hb, hs, fun wallet => ?_⟩⟩
  by_cases hw : ∃ r ∈ h, r.trade.signer = wallet
  · obtain ⟨r, hr, rfl⟩ := hw
    exact hf r hr
  · have hnone : ofMember wallet h = [] := List.filter_eq_nil_iff.2 fun r hr he =>
      hw ⟨r, hr, by simpa using (Bool.and_eq_true_iff.1 he).2⟩
    rw [hnone]
    trivial

instance : Decidable (s.Exact h) := decidable_of_iff _ exact_iff.symm

/-! ## One more trade -/

namespace HasNets

variable {t : Table String Decimal} {wallet : String}

theorem value_getD (hn : HasNets t h) (wallet : String) :
    ((t.get? wallet).getD .zero).value = RoomTrade.net (ofMember wallet h) := by
  cases hd : t.get? wallet with
  | some d => exact hn.net wallet d hd
  | none =>
    have hnone : ofMember wallet h = [] := List.filter_eq_nil_iff.2 fun r hr he => by
      have hin : wallet ∈ t.keys := (hn.members wallet).2 ⟨r, hr, by simpa using he⟩
      exact Table.get?_eq_none_iff.1 hd hin
    rw [hnone]
    simp [RoomTrade.net, RoomTrade.bought, RoomTrade.sold]

/-- A trade of someone else changes nothing for a wallet. -/
theorem of_other (hn : HasNets t h) (hne : ¬ (r.byMember = true ∧ r.trade.signer = wallet)) :
    (wallet ∈ t.keys ↔ ∃ r' ∈ h ++ [r], r'.byMember = true ∧ r'.trade.signer = wallet) ∧
    ∀ d, t.get? wallet = some d → d.value = RoomTrade.net (ofMember wallet (h ++ [r])) := by
  constructor
  · rw [hn.members]
    simp [or_and_right, exists_or, hne]
  · intro d hd
    rw [ofMember_append, ofMember_of_not hne, hn.net wallet d hd]
    exact congrArg RoomTrade.net (List.append_nil _).symm

theorem append_of_not (hn : HasNets t h) (hr : r.byMember = false) : HasNets t (h ++ [r]) where
  members wallet := (hn.of_other (by simp [hr])).1
  net wallet := (hn.of_other (by simp [hr])).2

theorem insert (hn : HasNets t h) (hr : r.byMember = true) {d : Decimal}
    (hd : d.value = ((t.get? r.trade.signer).getD .zero).value + r.quoteFlow.value) :
    HasNets (t.insert r.trade.signer d) (h ++ [r]) where
  members wallet := by
    rw [Table.mem_keys_iff, Table.get?_insert]
    split
    · rename_i hw
      exact iff_of_true ⟨d, rfl⟩
        ⟨r, List.mem_append_right _ (List.mem_singleton_self r), hr, hw.symm⟩
    · rename_i hw
      rw [← Table.mem_keys_iff]
      exact (hn.of_other fun e => hw e.2.symm).1
  net wallet d' hd' := by
    rw [Table.get?_insert] at hd'
    split at hd'
    · rename_i hw
      rw [← Option.some.inj hd', hd, hn.value_getD, hw, ofMember_append, net_append,
        ofMember_self hr, ← net_singleton]
      rfl
    · rename_i hw
      exact (hn.of_other fun e => hw e.2.symm).2 d' hd'

end HasNets

theorem sums_empty : empty.Sums [] where
  tradeCount := rfl
  lastTradeTime := rfl
  buyVolume := Decimal.value_zero
  sellVolume := Decimal.value_zero
  memberPnl := ⟨fun wallet => by simp [empty, Table.empty, Table.keys], fun _ _ hd => nomatch hd⟩

/-- Noting a trade adds its block time to those that the latest one is of. -/
theorem isLatest_note {times : List Instant} (h : IsLatest s.lastTradeTime times) (t : Trade) :
    IsLatest (s.note t).lastTradeTime (times ++ [t.blockTime]) := by
  unfold note
  cases hl : s.lastTradeTime with
  | none =>
    rw [hl] at h
    rw [show times = [] from h]
    exact ⟨List.mem_singleton_self _, fun u hu => (List.mem_singleton.1 hu) ▸ le_refl _⟩
  | some last =>
    rw [hl] at h
    obtain ⟨hmem, hle⟩ := h
    dsimp only
    by_cases hafter : last.isAfter t.blockTime = true
    · rw [if_pos hafter]
      refine ⟨List.mem_append_left _ hmem, fun u hu => ?_⟩
      rcases List.mem_append.1 hu with hu | hu
      · exact hle u hu
      · rw [List.mem_singleton.1 hu]
        exact (of_decide_eq_true hafter).le
    · rw [if_neg hafter]
      refine ⟨List.mem_append_right _ (List.mem_singleton_self _), fun u hu => ?_⟩
      have hback : last.nanos ≤ t.blockTime.nanos :=
        not_lt.1 fun hlt => hafter (decide_eq_true hlt)
      rcases List.mem_append.1 hu with hu | hu
      · exact (hle u hu).trans hback
      · rw [List.mem_singleton.1 hu]

/-- The volumes take up a trade that has the direction its mints give it. -/
theorem exists_addVolume (hr : r.trade = r.trade.classified quote) (hx : s.Exact (r :: h)) :
    ∃ b v, s.addVolume r.trade.side (r.trade.quoteAmount quote)
        = some { s with buyVolume := b, sellVolume := v } ∧
      b.value = s.buyVolume.value + Decimal.total (RoomTrade.bought [r]) ∧
      v.value = s.sellVolume.value + Decimal.total (RoomTrade.sold [r]) ∧
      b.ExactFrom (RoomTrade.bought h) ∧ v.ExactFrom (RoomTrade.sold h) := by
  obtain ⟨hb, hv, -⟩ := hx
  rw [bought_cons] at hb ⊢
  rw [sold_cons] at hv ⊢
  cases hside : r.trade.side with
  | buy =>
    rw [hside, if_pos rfl] at hb
    rw [hside, if_neg nofun] at hv
    rw [if_pos rfl, if_neg nofun]
    obtain ⟨b, hadd, hval, hrest⟩ := hb
    refine ⟨b, s.sellVolume, ?_, hval.trans (congrArg _ (add_zero _).symm), (add_zero _).symm,
      hrest, hv⟩
    unfold addVolume
    rw [Trade.quoteAmount_of_buy hr hside, hadd]
    rfl
  | sell =>
    rw [hside, if_neg nofun] at hb
    rw [hside, if_pos rfl] at hv
    rw [if_neg nofun, if_pos rfl]
    obtain ⟨v, hadd, hval, hrest⟩ := hv
    refine ⟨s.buyVolume, v, ?_, (add_zero _).symm, hval.trans (congrArg _ (add_zero _).symm),
      hb, hrest⟩
    unfold addVolume
    rw [Trade.quoteAmount_of_sell hr hside, hadd]
    rfl
  | swap =>
    rw [hside, if_neg nofun] at hb hv
    rw [if_neg nofun, if_neg nofun]
    exact ⟨s.buyVolume, s.sellVolume, rfl, (add_zero _).symm, (add_zero _).symm, hb, hv⟩

theorem flow_eq (hr : r.trade = r.trade.classified quote) :
    flow r.trade.side (r.trade.quoteAmount quote) = r.quoteFlow := by
  unfold flow RoomTrade.quoteFlow
  cases hside : r.trade.side with
  | buy => exact congrArg Decimal.neg (Trade.quoteAmount_of_buy hr hside)
  | sell => exact Trade.quoteAmount_of_sell hr hside
  | swap => rfl

theorem apply_eq {counted : RoomStats} (hr : r.trade = r.trade.classified quote)
    (h : (s.note r.trade).addVolume r.trade.side (r.trade.quoteAmount quote) = some counted) :
    (r.byMember = false → s.apply r.trade quote r.byMember = (counted, none)) ∧
    ∀ d, r.byMember = true → (counted.pnl r.trade.signer).add r.quoteFlow = some d →
      s.apply r.trade quote r.byMember
        = ({ counted with memberPnl := counted.memberPnl.insert r.trade.signer d }, none) := by
  unfold apply
  dsimp only
  rw [h, flow_eq hr]
  refine ⟨fun hm => by rw [hm]; rfl, fun d hm hd => ?_⟩
  unfold pnl at hd
  rw [hm]
  dsimp only
  rw [hd]
  rfl

/-- If the sums are exact, one more trade is counted. -/
theorem exists_apply (hr : r.trade = r.trade.classified quote) (hs : s.Sums h)
    (hx : s.Exact (r :: h')) :
    ∃ s', s.apply r.trade quote r.byMember = (s', none) ∧ s'.Sums (h ++ [r]) ∧ s'.Exact h' := by
  obtain ⟨b, v, hadd, hb, hv, hxb, hxv⟩ := exists_addVolume (s := s.note r.trade)
    (h := h') hr ⟨hx.bought, hx.sold, hx.flows⟩
  obtain ⟨hout, hin⟩ := apply_eq hr hadd
  have hcount : (s.tradeCount + 1).toNat = (h ++ [r]).length % 2 ^ 64 := by
    rw [UInt64.toNat_add, hs.tradeCount, List.length_append, Nat.mod_add_mod]
    rfl
  have hlast : IsLatest (s.note r.trade).lastTradeTime ((h ++ [r]).map (·.trade.blockTime)) := by
    rw [List.map_append]
    exact isLatest_note hs.lastTradeTime r.trade
  have hbuy : b.value = Decimal.total (RoomTrade.bought (h ++ [r])) := by
    rw [hb, bought_append, Decimal.total_append, ← hs.buyVolume]
    rfl
  have hsell : v.value = Decimal.total (RoomTrade.sold (h ++ [r])) := by
    rw [hv, sold_append, Decimal.total_append, ← hs.sellVolume]
    rfl
  have hothers : ∀ wallet, ¬ (r.byMember = true ∧ r.trade.signer = wallet) →
      (s.pnl wallet).ExactFrom ((ofMember wallet h').map quoteFlow) := fun wallet hne =>
    ofMember_of_not (h := h') hne ▸ hx.flows wallet
  by_cases hmember : r.byMember = true
  · have hflows := hx.flows r.trade.signer
    rw [ofMember_self hmember] at hflows
    obtain ⟨d, hd, hval, hrest⟩ := hflows
    refine ⟨_, hin d hmember hd,
      ⟨hcount, hlast, hbuy, hsell, hs.memberPnl.insert hmember hval⟩, hxb, hxv, fun wallet => ?_⟩
    show (((s.memberPnl.insert r.trade.signer d).get? wallet).getD .zero).ExactFrom _
    rw [Table.get?_insert]
    split
    · rename_i hw
      rw [hw]
      exact hrest
    · rename_i hw
      exact hothers wallet fun e => hw e.2.symm
  · have hnot := Bool.eq_false_iff.2 hmember
    exact ⟨_, hout hnot, ⟨hcount, hlast, hbuy, hsell, hs.memberPnl.append_of_not hnot⟩, hxb, hxv,
      fun wallet => hothers wallet fun e => hmember e.1⟩

/-! ## What the sums say -/

/-- If all signers were in the room, their flows come to what the room counts as a whole. -/
theorem Sums.conserved (hs : s.Sums h) (hall : ∀ r ∈ h, r.byMember = true) :
    Decimal.total s.memberPnl.values = s.sellVolume.value - s.buyVolume.value := by
  have hvalues : s.memberPnl.values.map Decimal.value
      = s.memberPnl.keys.map fun wallet => net (ofMember wallet h) := by
    unfold Table.values Table.keys
    rw [List.map_map, List.map_map]
    refine List.map_congr_left fun e he => ?_
    exact hs.memberPnl.net e.1 e.2 (Table.get?_eq_some_iff.2 he)
  have hsigners : ∀ r ∈ h, r.byMember = true ∧ r.trade.signer ∈ s.memberPnl.keys := fun r hr =>
    ⟨hall r hr, (hs.memberPnl.members _).2 ⟨r, hr, hall r hr, rfl⟩⟩
  calc Decimal.total s.memberPnl.values
      = (s.memberPnl.keys.map fun wallet => net (ofMember wallet h)).sum := congrArg _ hvalues
    _ = net h := sum_net_ofMember s.memberPnl.nodup hsigners
    _ = s.sellVolume.value - s.buyVolume.value := by rw [hs.buyVolume, hs.sellVolume]; rfl

theorem Sums.sameTotals_of_perm (hs : s.Sums h) (hs' : s'.Sums h') (hp : h.Perm h') :
    s.SameTotals s' where
  tradeCount := UInt64.toNat_inj.1 (by rw [hs.tradeCount, hs'.tradeCount, hp.length_eq])
  lastTradeTime := hs.lastTradeTime.nanos_eq hs'.lastTradeTime (hp.map _)
  buyVolume := by
    rw [hs.buyVolume, hs'.buyVolume]
    exact (Decimal.total_perm ((hp.filter _).map _)).symm
  sellVolume := by
    rw [hs.sellVolume, hs'.sellVolume]
    exact (Decimal.total_perm ((hp.filter _).map _)).symm
  memberPnl wallet := by
    have hkeys : wallet ∈ s.memberPnl.keys ↔ wallet ∈ s'.memberPnl.keys := by
      rw [hs.memberPnl.members, hs'.memberPnl.members]
      exact exists_congr fun r => and_congr_left' hp.mem_iff
    cases hd : s.memberPnl.get? wallet with
    | none =>
      have hnone := Table.get?_eq_none_iff.2 (mt hkeys.2 (Table.get?_eq_none_iff.1 hd))
      rw [hnone]
    | some d =>
      obtain ⟨d', hd'⟩ := Table.mem_keys_iff.1 (hkeys.1 (Table.mem_keys_iff.2 ⟨d, hd⟩))
      rw [hd', Option.map_some, Option.map_some, hs.memberPnl.net wallet d hd,
        hs'.memberPnl.net wallet d' hd']
      exact congrArg some (net_perm (hp.filter _)).symm

end RoomStats

end SwapFloor
