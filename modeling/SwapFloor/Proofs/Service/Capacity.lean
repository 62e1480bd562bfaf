import Mathlib.Algebra.Order.BigOperators.Group.List
import Mathlib.Algebra.Order.Ring.Nat
import SwapFloor.Proofs.Ingest.Turnover
import SwapFloor.Proofs.Service.Managed
import SwapFloor.Proofs.Service.Spacing

/-!
# What amounts the service can take

Amounts come unbounded and are added up in three places: when a trade is read off a record, in the
statistics of the rooms that it concerns, and when a window is ranked. A sum that is out of range
breaks the whole job down, with the records behind it. As long as all that was ever delivered fits
together, no sum is out of range anywhere.

Main statements: where a batch breaks down (`processRecords_cases`), and that it does not while all
turnovers together fit (`completes_of_fed`).
-/

namespace SwapFloor

/-! ## Where a batch breaks down -/

namespace Service

variable {s s' : Service}

/-- A job either gets through its records and accounts for each of them, or breaks down with one;
those before it were processed, and those behind it are not. -/
theorem processRecords_cases (s : Service) (batchTime : Option Int64) (report : JobReport)
    (js : List Json) :
    (∃ s' report', s.processRecords batchTime report js = (s', .ok report') ∧
      report'.total = report.total + js.length) ∨
    ∃ before j after s₁ report₁ s₂ b, js = before ++ j :: after ∧
      s.processRecords batchTime report before = (s₁, .ok report₁) ∧
      report₁.total = report.total + before.length ∧
      s₁.processRecord batchTime j = (s₂, .error b) ∧
      s.processRecords batchTime report js = (s₂, .error b) := by
  induction js generalizing s report with
  | nil => exact Or.inl ⟨s, report, rfl, rfl⟩
  | cons j js ih =>
    rw [processRecords]
    cases hp : s.processRecord batchTime j with
    | mk s₁ result =>
      cases result with
      | error b =>
        exact Or.inr ⟨[], j, js, s, report, s₁, b, rfl, rfl, rfl, hp, rfl⟩
      | ok o =>
        rcases ih s₁ (report.add o) with ⟨s', report', hrest, htotal⟩ |
          ⟨before, j', after, s₂, report₂, s₃, b, rfl, hbefore, htotal, hbreak, hrest⟩
        · refine Or.inl ⟨s', report', hrest, ?_⟩
          rw [htotal, JobReport.total_add, List.length_cons]
          omega
        · refine Or.inr ⟨j :: before, j', after, s₂, report₂, s₃, b, rfl, ?_, ?_, hbreak, hrest⟩
          · rw [processRecords, hp]
            exact hbefore
          · rw [htotal, JobReport.total_add, List.length_cons]
            omega

end Service

/-! ## Trades -/

theorem Decimal.Within.size_le {d : Decimal} {n : Nat} (h : d.Within n) : d.size ≤ n := by
  have hpos : 0 < 10 ^ d.scale := Nat.pow_pos (by decide)
  unfold Within at h
  unfold size
  rw [← Nat.lt_succ_iff, Nat.div_lt_iff_lt_mul hpos, Nat.succ_mul]
  omega

/-- Both legs of a trade have a bound. -/
def Trade.Within (n : Nat) (t : Trade) : Prop :=
  t.spent.amount.Within n ∧ t.received.amount.Within n

theorem Trade.Within.quoteAmount {t : Trade} {n : Nat} (h : t.Within n) (mint : String) :
    (t.quoteAmount mint).Within n := by
  unfold Trade.quoteAmount Trade.quoteAmount?
  split
  · exact h.1
  · split
    · exact h.2
    · exact .zero

/-! ## Rooms -/

/-- All sums of a room have a bound. -/
structure RoomStats.Within (n : Nat) (s : RoomStats) : Prop where
  buy : s.buyVolume.Within n
  sell : s.sellVolume.Within n
  pnl : s.memberPnl.Within n

namespace RoomStats.Within

variable {s : RoomStats} {m n : Nat}

theorem empty : RoomStats.Within n .empty := ⟨.zero, .zero, .empty⟩

theorem mono (h : s.Within m) (hmn : m ≤ n) : s.Within n :=
  ⟨h.buy.mono hmn, h.sell.mono hmn, h.pnl.mono hmn⟩

theorem addVolume (h : s.Within m) {quote : Decimal} (hq : quote.Within n)
    (hfit : m + n < 2 ^ 96) (side : Side) :
    ∃ s', s.addVolume side quote = some s' ∧ s'.Within (m + n) ∧ s'.memberPnl.Within m := by
  have hle : m ≤ m + n := Nat.le_add_right ..
  obtain ⟨buy, hbuy, hwbuy⟩ := h.buy.add hq hfit
  obtain ⟨sell, hsell, hwsell⟩ := h.sell.add hq hfit
  unfold RoomStats.addVolume
  rw [hbuy, hsell]
  cases side with
  | buy => exact ⟨_, rfl, ⟨hwbuy, h.sell.mono hle, h.pnl.mono hle⟩, h.pnl⟩
  | sell => exact ⟨_, rfl, ⟨h.buy.mono hle, hwsell, h.pnl.mono hle⟩, h.pnl⟩
  | swap => exact ⟨s, rfl, h.mono hle, h.pnl⟩

theorem flow {quote : Decimal} (hq : quote.Within n) (side : Side) :
    (RoomStats.flow side quote).Within n := by
  cases side with
  | buy => exact hq.neg
  | sell => exact hq
  | swap => exact .zero

/-- Counting a trade adds its bound to that of the room. -/
theorem apply (h : s.Within m) {t : Trade} (ht : t.Within n) (hfit : m + n < 2 ^ 96)
    (mint : String) (signerIsMember : Bool) :
    (s.apply t mint signerIsMember).2 = none ∧
      (s.apply t mint signerIsMember).1.Within (m + n) := by
  have hq := ht.quoteAmount mint
  have hnoted : (s.note t).Within m := ⟨h.buy, h.sell, h.pnl⟩
  obtain ⟨counted, hcounted, hw, hpnl⟩ := hnoted.addVolume hq hfit t.side
  obtain ⟨after, hafter, hwafter⟩ := (hpnl.getD t.signer).add (flow hq t.side) hfit
  unfold RoomStats.apply
  dsimp only
  rw [hcounted]
  dsimp only
  split
  · rw [hafter]
    exact ⟨rfl, { hw with pnl := hw.pnl.insert hwafter t.signer }⟩
  · exact ⟨rfl, hw⟩

end RoomStats.Within

/-- The sums of every room have a bound. -/
def Lobby.Within (n : Nat) (l : Lobby) : Prop := ∀ id e, l.get? id = some e → e.stats.Within n

theorem Lobby.Within.mono {l : Lobby} {m n : Nat} (h : l.Within m) (hmn : m ≤ n) : l.Within n :=
  fun id e he => (h id e he).mono hmn

/-! ## Windows -/

namespace Window

/-- All quote of a window, each amount rounded up. -/
def total (mint : String) (w : Window) : Nat :=
  (w.map fun x => (x.trade.quoteAmount mint).size).sum

theorem total_le_of_sublist {mint : String} {w w' : Window} (h : w.Sublist w') :
    w.total mint ≤ w'.total mint :=
  (h.map _).sum_le_sum fun _ _ => Nat.zero_le _

theorem total_ingest_le {mint : String} (w : Window) {x : TaggedTrade} {n : Nat}
    (hx : x.trade.Within n) (horizon : Instant) :
    (w.ingest x horizon).total mint ≤ w.total mint + n := by
  unfold ingest
  split
  · have hevict : (w.evict horizon).total mint ≤ w.total mint :=
      total_le_of_sublist (List.dropWhile_sublist _)
    have hsize := (hx.quoteAmount mint).size_le
    unfold total at hevict ⊢
    rw [List.map_append, List.sum_append, List.map_singleton, List.sum_singleton]
    omega
  · exact Nat.le_add_right ..

end Window

/-- The volumes of a token have a bound. -/
structure TokenCount.Within (n : Nat) (c : TokenCount) : Prop where
  buy : c.buyVolume.Within n
  sell : c.sellVolume.Within n

theorem TokenCount.Within.mono {c : TokenCount} {m n : Nat} (h : c.Within m) (hmn : m ≤ n) :
    c.Within n := ⟨h.buy.mono hmn, h.sell.mono hmn⟩

theorem TokenCount.Within.add {c : TokenCount} {m n : Nat} (h : c.Within m) {quote : Decimal}
    (hq : quote.Within n) (hfit : m + n < 2 ^ 96) (t : Trade) :
    ∃ c', c.add t quote = some c' ∧ c'.Within (m + n) := by
  have hle : m ≤ m + n := Nat.le_add_right ..
  obtain ⟨buy, hbuy, hwbuy⟩ := h.buy.add hq hfit
  obtain ⟨sell, hsell, hwsell⟩ := h.sell.add hq hfit
  unfold TokenCount.add
  rw [hbuy, hsell]
  cases t.side with
  | buy => exact ⟨_, rfl, hwbuy, (h.mono hle).sell⟩
  | swap => exact ⟨_, rfl, hwbuy, (h.mono hle).sell⟩
  | sell => exact ⟨_, rfl, (h.mono hle).buy, hwsell⟩

/-- Trades whose quote fits together are counted without a breakdown. -/
theorem exists_countTrades_of_total {mint : String} {ts : Window}
    (hfit : ts.total mint < 2 ^ 96) : ∃ counts, countTrades mint ts = some counts := by
  have key : ∀ (ts : Window) (counts : Table String TokenCount) (n : Nat),
      (∀ k c, counts.get? k = some c → c.Within n) → n + ts.total mint < 2 ^ 96 →
      ∃ counts', ts.foldlM (countTrade mint) counts = some counts' := by
    intro ts
    induction ts with
    | nil => exact fun counts _ _ _ => ⟨counts, rfl⟩
    | cons x ts ih =>
      intro counts n hcounts hfit
      have htotal : Window.total mint (x :: ts)
          = (x.trade.quoteAmount mint).size + Window.total mint ts := rfl
      rw [htotal] at hfit
      rw [List.foldlM_cons]
      unfold countTrade
      dsimp only
      split
      · exact ih counts n hcounts (by omega)
      · have hold : ((counts.get? (x.trade.tokenMint mint)).getD .empty).Within n := by
          cases hc : counts.get? (x.trade.tokenMint mint) with
          | none => exact ⟨.zero, .zero⟩
          | some c => exact hcounts _ c hc
        obtain ⟨c, hc, hw⟩ := hold.add (x.trade.quoteAmount mint).within_size (by omega) x.trade
        rw [hc]
        refine ih _ (n + (x.trade.quoteAmount mint).size) (fun k c' hk => ?_) (by omega)
        rw [Table.get?_insert] at hk
        split at hk
        · cases hk
          exact hw
        · exact (hcounts k c' hk).mono (Nat.le_add_right ..)
  refine key ts .empty 0 (fun mint c hc => ?_) (by omega)
  cases hc

namespace Service

/-! ## The service -/

/-- All sums that the service keeps or may be asked for have a bound. -/
structure Within (n : Nat) (s : Service) : Prop where
  rooms : s.lobby.Within n
  windows : ∀ f mint, (s.rankings.window f).total mint ≤ n

namespace Within

variable {s s' : Service} {m n : Nat}

theorem mono (h : s.Within m) (hmn : m ≤ n) : s.Within n :=
  ⟨h.rooms.mono hmn, fun f mint => (h.windows f mint).trans hmn⟩

/-- While the bound fits, every ranking completes. -/
theorem rank (h : s.Within n) (hfit : n < 2 ^ 96) (f : Timeframe) (dimension : Dimension)
    (limit : Nat) (now : Instant) :
    ∃ snapshot, (s.rankings.rank f dimension limit now).2 = .ok snapshot := by
  have hsub : (((s.rankings.window f).evict (f.horizon now)).filter
      (Window.isRecent (f.horizon now))).Sublist (s.rankings.window f) :=
    List.filter_sublist.trans (List.dropWhile_sublist _)
  have htotal := (Window.total_le_of_sublist hsub).trans (h.windows f s.rankings.quoteMint)
  obtain ⟨counts, hcounts⟩ := exists_countTrades_of_total (htotal.trans_lt hfit)
  unfold Rankings.rank rankTrades
  dsimp only
  rw [hcounts]
  exact ⟨_, rfl⟩

/-- Without a trade nothing is added. -/
theorem managed (h : s.Within n) (hm : s.lobby.Managed s'.lobby) (hr : Recalls s s') :
    s'.Within n where
  rooms := hm.kept .empty h.rooms
  windows f mint := (Window.total_le_of_sublist (hr.windows f).sublist).trans (h.windows f mint)

theorem publishTrade (h : s.lobby.Within (m + n)) {room : String}
    (hroom : ∀ e, s.lobby.get? room = some e → e.stats.Within m) {t : Trade} (ht : t.Within n)
    (hfit : m + n < 2 ^ 96) :
    (s.publishTrade room t).2 = none ∧ (s.publishTrade room t).1.lobby.Within (m + n) ∧
      ∀ room' ≠ room, (s.publishTrade room t).1.lobby.get? room' = s.lobby.get? room' := by
  unfold Service.publishTrade
  cases hr : s.lobby.recordTrade room t with
  | error f => exact ⟨rfl, h, fun _ _ => rfl⟩
  | ok r =>
    obtain ⟨l, trouble⟩ := r
    obtain ⟨e, he, rfl, rfl⟩ := Lobby.recordTrade_eq hr
    have hcount := (hroom e (Lobby.get?_of_openEntry he)).apply ht hfit s.lobby.quoteMint
      (e.isActive t.signer)
    have hnone : (e.count t s.lobby.quoteMint).2 = none := hcount.1
    rw [hnone]
    refine ⟨rfl, fun id e' he' => ?_, fun room' hne => ?_⟩
    · replace he' : (s.lobby.update room (e.count t s.lobby.quoteMint).1).get? id = some e' := he'
      rw [Lobby.get?_update] at he'
      split at he'
      · cases he'
        exact hcount.2
      · exact h id e' he'
    · show (s.lobby.update room _).get? room' = _
      rw [Lobby.get?_update, if_neg hne]

/-- Each room counts a trade at most once. -/
theorem publishAll {rooms : List String} (hrooms : rooms.Nodup) (h : s.lobby.Within (m + n))
    (hbefore : ∀ room ∈ rooms, ∀ e, s.lobby.get? room = some e → e.stats.Within m) {t : Trade}
    (ht : t.Within n) (hfit : m + n < 2 ^ 96) :
    (s.publishAll t rooms).2 = none ∧ (s.publishAll t rooms).1.lobby.Within (m + n) := by
  induction rooms generalizing s with
  | nil => exact ⟨rfl, h⟩
  | cons room rooms ih =>
    obtain ⟨hroom, hrest⟩ := List.nodup_cons.1 hrooms
    obtain ⟨hnone, hw, hothers⟩ := publishTrade h (hbefore room List.mem_cons_self) ht hfit
    unfold Service.publishAll
    split
    · rename_i s₁ hp
      rw [hp] at hw hothers
      refine ih hrest hw fun room' hm e he => ?_
      rw [hothers room' fun heq => hroom (heq ▸ hm)] at he
      exact hbefore room' (List.mem_cons_of_mem _ hm) e he
    · rename_i hp
      rw [hp] at hnone
      cases hnone

/-- Processing a trade adds its bound. -/
theorem processTrade (h : s.Within m) {t : Trade} (ht : t.Within n) (hfit : m + n < 2 ^ 96) :
    ∃ s' o, s.processTrade t = (s', .ok o) ∧ s'.Within (m + n) := by
  have hold : s.Within (m + n) := h.mono (Nat.le_add_right ..)
  cases hseen : s.seen.isSeen t.signature s.elapsedMs with
  | true => exact ⟨_, _, processTrade_seen hseen, ⟨hold.rooms, hold.windows⟩⟩
  | false =>
    obtain ⟨l, hub, hall⟩ := publishAll_eq (s.marked t) t
      (s.watches.roomsWatchingAny t.routingKeys)
    obtain ⟨hnone, hw⟩ := publishAll (s := s.marked t)
      (Watches.nodup_roomsWatchingAny s.watches t.routingKeys)
      (h.rooms.mono (Nat.le_add_right ..)) (fun room _ e he => h.rooms room e he) ht hfit
    rw [processTrade_marked hseen]
    split
    · rename_i hp
      rw [hp] at hnone
      cases hnone
    · rename_i s₁ hp
      rw [hp] at hall hw
      obtain rfl : s₁ = _ := hall
      refine ⟨_, _, rfl, hw, fun f mint => ?_⟩
      show ((s.rankings.ingest ⟨t, s.tags.get? t.signer⟩ s.now).window f).total mint ≤ m + n
      rw [Rankings.window_ingest]
      exact (Window.total_ingest_le (s.rankings.window f) (x := ⟨t, s.tags.get? t.signer⟩) ht
        (f.horizon s.now)).trans (Nat.add_le_add_right (h.windows f mint) n)

theorem settled (h : s.Within m) (hmn : m ≤ n) (o : Outcome) :
    ∃ s' o', s.settled o = (s', .ok o') ∧ s'.Within n :=
  have hold := h.mono hmn
  ⟨_, _, rfl, hold.rooms, hold.windows⟩

/-- Processing a record adds its turnover. -/
theorem processTx (h : s.Within m) {r : TxRecord} (hfit : m + r.turnover < 2 ^ 96)
    (batchTime : Option Int64) :
    ∃ s' o, s.processTx r batchTime = (s', .ok o) ∧ s'.Within (m + r.turnover) := by
  unfold Service.processTx
  rcases SwapReading.read_of_turnover (r := r) (by omega) s.settings.ingest.quoteMint batchTime
    s.now with ⟨f, hf⟩ | ⟨t, ht, hspent, hreceived⟩
  · rw [hf]
    exact h.settled (Nat.le_add_right ..) .parseError
  · rw [ht]
    exact h.processTrade ⟨hspent, hreceived⟩ hfit

theorem processRecord (h : s.Within m) {j : Json} (hfit : m + TxRecord.turnoverOf j < 2 ^ 96)
    (batchTime : Option Int64) :
    ∃ s' o, s.processRecord batchTime j = (s', .ok o) ∧
      s'.Within (m + TxRecord.turnoverOf j) := by
  unfold Service.processRecord
  unfold TxRecord.turnoverOf at hfit ⊢
  cases hj : TxRecord.ofJson j with
  | ok r =>
    rw [hj] at hfit
    exact h.processTx hfit batchTime
  | error f => exact h.settled (Nat.le_refl m) .parseError

theorem completeNotice (h : s.Within m) {found : Except Failure (Option TxRecord)}
    (hfit : m + TxRecord.turnoverFound found < 2 ^ 96) (notice : LogNotice) :
    ∃ s' o, s.completeNotice notice found = (s', .ok o) ∧
      s'.Within (m + TxRecord.turnoverFound found) := by
  unfold Service.completeNotice
  match found with
  | .ok (some r) => exact h.processTx (r := s.enrich notice r) hfit none
  | .ok none => exact h.settled (Nat.le_refl m) .parseError
  | .error _ => exact h.settled (Nat.le_refl m) .parseError

/-- Processing a batch adds its turnover. -/
theorem processRecords (h : s.Within m) {js : List Json}
    (hfit : m + (js.map TxRecord.turnoverOf).sum < 2 ^ 96) (batchTime : Option Int64)
    (report : JobReport) :
    ∃ s' report', s.processRecords batchTime report js = (s', .ok report') ∧
      s'.Within (m + (js.map TxRecord.turnoverOf).sum) := by
  induction js generalizing s m report with
  | nil => exact ⟨s, report, rfl, h⟩
  | cons j js ih =>
    rw [List.map_cons, List.sum_cons, ← Nat.add_assoc] at hfit ⊢
    obtain ⟨s₁, o, hfirst, hw⟩ := h.processRecord (j := j) (by omega) batchTime
    obtain ⟨s', report', hrest, hw'⟩ := ih hw hfit (report.add o)
    refine ⟨s', report', ?_, hw'⟩
    rw [Service.processRecords, hfirst]
    exact hrest

end Within

/-! ## All that was delivered -/

/-- The service has taken in what comes to so much, and nothing has broken down but recycling. -/
inductive Fed (s₀ : Service) : Nat → Service → Prop
  | start : Fed s₀ 0 s₀
  | errand {s s' : Service} {n : Nat} (h : Fed s₀ n s) (he : Errand s s') : Fed s₀ n s'
  | reap {s : Service} {n : Nat} (h : Fed s₀ n s) (at_ : Instant) : Fed s₀ n (s.reapRoomsAt at_).1
  | record {s : Service} {n : Nat} (h : Fed s₀ n s) (batchTime : Option Int64) (j : Json) :
    Fed s₀ (n + TxRecord.turnoverOf j) (s.processRecord batchTime j).1
  | notice {s : Service} {n : Nat} (h : Fed s₀ n s) (notice : LogNotice)
    (found : Except Failure (Option TxRecord)) :
    Fed s₀ (n + TxRecord.turnoverFound found) (s.completeNotice notice found).1

variable {settings : Settings} {draws : Draws} {looksUp : Bool} {startedAt : Instant}

theorem within_new (settings : Settings) (draws : Draws) (looksUp : Bool) (startedAt : Instant) :
    (new settings draws looksUp startedAt).Within 0 where
  rooms _ _ he := nomatch he
  windows f _ := by cases f <;> exact Nat.le_refl 0

/-- What was delivered bounds every sum. -/
theorem within_of_fed {n : Nat} {s : Service} (h : Fed (new settings draws looksUp startedAt) n s)
    (hfit : n < 2 ^ 96) : s.Within n := by
  induction h with
  | start => exact within_new ..
  | errand _ he ih => exact (ih hfit).managed (managed_errand he) (recalls_errand he)
  | reap _ at_ ih =>
    exact (ih hfit).managed (leads_reapRoomsAt _ at_ rfl) (recalls_reapRoomsAt _ at_)
  | record _ batchTime j ih =>
    obtain ⟨s', o, hs', hw⟩ := (ih (by omega)).processRecord hfit batchTime
    rw [hs']
    exact hw
  | notice _ notice found ih =>
    obtain ⟨s', o, hs', hw⟩ := (ih (by omega)).completeNotice hfit notice
    rw [hs']
    exact hw

/-- While all turnovers together fit, with those of the batch, the batch is processed to its end
with each record accounted for, and every ranking completes afterwards. -/
theorem completes_of_fed {n : Nat} {s : Service}
    (h : Fed (new settings draws looksUp startedAt) n s) (b : Batch)
    (hfit : n + b.turnover < 2 ^ 96) :
    ∃ s' report, s.processBatch b = (s', .ok report) ∧
      report.processed + report.duplicates + report.dropped = b.records.length ∧
      ∀ f dimension limit now,
        ∃ snapshot, (s'.rankings.rank f dimension limit now).2 = .ok snapshot := by
  obtain ⟨s', report, hb, hw⟩ := (within_of_fed h (by omega)).processRecords hfit b.blockTime {}
  refine ⟨s', report, hb, ?_, hw.rank hfit⟩
  rcases processRecords_cases s b.blockTime {} b.records with ⟨s₁, report₁, hr, htotal⟩ |
    ⟨_, _, _, _, _, _, _, _, _, _, _, hbreak⟩
  · rw [hb] at hr
    cases hr
    rw [← Nat.zero_add b.records.length]
    exact htotal
  · rw [hb] at hbreak
    cases hbreak

theorem completes_small :
    (Fed small 0 small ∧ 0 + smallBatch.turnover < 2 ^ 96) ∧
      ∃ s' report, small.processBatch smallBatch = (s', .ok report) ∧
        report.processed + report.duplicates + report.dropped = smallBatch.records.length ∧
        ∀ f dimension limit now,
          ∃ snapshot, (s'.rankings.rank f dimension limit now).2 = .ok snapshot :=
  have hfit : 0 + smallBatch.turnover < 2 ^ 96 := by decide +kernel
  ⟨⟨.start, hfit⟩, completes_of_fed .start smallBatch hfit⟩

/-! ## Amounts that do not fit -/

/-- Bo has got as much of the token as fits, twice. -/
def overflowingRecord : TxRecord where
  signature := "much"
  slot := 1
  blockTime := some 0
  trackedAddress := none
  signer := some "bo"
  accountKeys := []
  instructions := []
  preBalances := [2000000000]
  postBalances := [1000000000]
  preTokenBalances := []
  postTokenBalances :=
    List.replicate 2
      ⟨none, "mint", some "bo", ⟨some "79228162514264337593543950335", some 0, none, none⟩⟩
  logMessages := []

/-- Bo has paid more than half of what fits. -/
def costlyRecord (signature : String) : TxRecord where
  signature := signature
  slot := 1
  blockTime := some 0
  trackedAddress := none
  signer := some "bo"
  accountKeys := []
  instructions := []
  preBalances := []
  postBalances := []
  preTokenBalances :=
    [⟨none, nativeMint, some "bo", ⟨some "50000000000000000000000000000", some 0, none, none⟩⟩]
  postTokenBalances := [⟨none, "mint", some "bo", ⟨some "5", some 0, none, none⟩⟩]
  logMessages := []

/-- A record whose amounts do not fit, and Bo's purchase behind it. -/
def overflowingBatch : Batch := ⟨none, [overflowingRecord.toJson, smallRecord.toJson]⟩

/-- Two records whose amounts do not fit together. -/
def costlyBatch : Batch := ⟨none, [(costlyRecord "a").toJson, (costlyRecord "b").toJson]⟩

/-- The batch breaks down with its first record, and Bo's purchase is lost. -/
theorem processBatch_overflowing :
    (small.processBatch overflowingBatch).2 = .error .addition ∧
      (small.processBatch overflowingBatch).1.seen.acceptedAt.get? "sig" = none := by
  decide +kernel

/-- The batch is processed to its end, and the ranking breaks down afterwards. -/
theorem rank_costly :
    (small.processBatch costlyBatch).2 = .ok ⟨2, 0, 0⟩ ∧
      ((small.processBatch costlyBatch).1.rankings.rank .oneDay .inflow 1 small.now).2
        = .error .addition := by
  decide +kernel

/-- Not every batch is processed to its end, and not every ranking completes after one that is. -/
theorem not_completes_overflowing :
    (¬ ∀ (s : Service) (b : Batch), Reaches small s →
      ∃ s' report, s.processBatch b = (s', .ok report)) ∧
    ¬ ∀ (s s' : Service) (b : Batch) (report : JobReport), Reaches small s →
      s.processBatch b = (s', .ok report) → ∀ f dimension limit now,
        ∃ snapshot, (s'.rankings.rank f dimension limit now).2 = .ok snapshot := by
  constructor
  · intro hcompletes
    obtain ⟨s', report, hb⟩ := hcompletes small overflowingBatch (.refl small)
    have hbreak := processBatch_overflowing.1
    rw [hb] at hbreak
    cases hbreak
  · intro hcompletes
    obtain ⟨snapshot, hrank⟩ := hcompletes small _ costlyBatch _ (.refl small)
      (Prod.ext rfl rank_costly.1) .oneDay .inflow 1 small.now
    rw [rank_costly.2] at hrank
    cases hrank

end Service

end SwapFloor
