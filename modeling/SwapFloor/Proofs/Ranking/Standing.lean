import Mathlib.Algebra.BigOperators.Group.Multiset.Basic
import Mathlib.Data.Finset.Sort
import Mathlib.Data.String.Basic
import SwapFloor.Proofs.Ranking.Counts
import SwapFloor.Proofs.Ranking.History

/-!
# Rankings are those of the whole history

`standing` says how tokens stand by all trades of a collection, without regard to the order in
which these arrived: what there is to say of each token (`figures`), the best token first.

A ranking counts the trades in a window one after the other and sorts the tokens. The windows have
forgotten what was too late for them, in whatever order trades and rankings came, but nothing that
lies within the horizon; so a ranking shows the first tokens of the standing by all trades that
ever arrived and lie within the horizon.

Main statement: `rank_of_run`. Volumes are compared as numbers, whatever their fraction digits.
-/

namespace SwapFloor

/-! ## How tokens stand -/

/-- What a ranking says of a token, with its volumes as numbers. -/
@[ext]
structure Figures where
  mint : String
  transactions : Nat
  purchases : Nat
  sales : Nat
  /-- Quote spent on buys. -/
  paid : ℚ
  /-- Quote received from sales. -/
  received : ℚ
  buyers : Nat
  sellers : Nat

/-- What a dimension ranks by. -/
def Figures.metric (x : Figures) : Dimension → ℚ
  | .count => x.transactions
  | .inflow => x.paid
  | .outflow => x.received

instance (quote : String) : DecidablePred (IsToken quote) := fun _ =>
  inferInstanceAs (Decidable (_ ∧ _))

/-- The tokens of a collection of trades. -/
def tokens (quote : String) (ts : Multiset TaggedTrade) : Finset String :=
  (ts.map (·.trade.tokenMint quote)).toFinset.filter (IsToken quote)

/-- What a collection of trades says of a token. A swap between two tokens counts as a buy of the
one received, and pays nothing. -/
def figures (quote : String) (ts : Multiset TaggedTrade) (mint : String) : Figures :=
  let own := ts.filter (·.trade.tokenMint quote = mint)
  let bought := own.filter fun t => t.trade.side = .buy ∨ t.trade.side = .swap
  let sold := own.filter (·.trade.side = .sell)
  { mint := mint
    transactions := own.card
    purchases := bought.card
    sales := sold.card
    paid := ((own.filter (·.trade.side = .buy)).map (·.trade.spent.amount.value)).sum
    received := (sold.map (·.trade.received.amount.value)).sum
    buyers := (bought.map (·.trade.signer)).toFinset.card
    sellers := (sold.map (·.trade.signer)).toFinset.card }

/-- A mint with the number `x` comes before one with the number `y`: the largest number first, and
of equal numbers the smallest mint. -/
def Ahead (x : ℚ) (a : String) (y : ℚ) (b : String) : Prop := y < x ∨ y = x ∧ a ≤ b

namespace Ahead

variable {x y z : ℚ} {a b c : String}

theorem trans (h : Ahead x a y b) (h' : Ahead y b z c) : Ahead x a z c := by
  rcases h with hxy | ⟨hxy, hle⟩ <;> rcases h' with hyz | ⟨hyz, hle'⟩
  · exact Or.inl (hyz.trans hxy)
  · exact Or.inl (hyz ▸ hxy)
  · exact Or.inl (hxy ▸ hyz)
  · exact Or.inr ⟨hyz.trans hxy, hle.trans hle'⟩

theorem antisymm (h : Ahead x a y b) (h' : Ahead y b x a) : a = b := by
  rcases h with hxy | ⟨heq, hle⟩ <;> rcases h' with hyx | ⟨heq', hle'⟩
  · exact absurd hxy hyx.not_gt
  · exact absurd heq' hxy.ne'
  · exact absurd heq hyx.ne'
  · exact le_antisymm hle hle'

theorem total (x : ℚ) (a : String) (y : ℚ) (b : String) : Ahead x a y b ∨ Ahead y b x a := by
  rcases lt_trichotomy x y with h | h | h
  · exact Or.inr (Or.inl h)
  · exact (le_total a b).imp (fun hle => Or.inr ⟨h.symm, hle⟩) fun hle => Or.inr ⟨h, hle⟩
  · exact Or.inl (Or.inl h)

end Ahead

/-- Mints in the order of their numbers. -/
def Before (key : String → ℚ) (a b : String) : Prop := Ahead (key a) a (key b) b

section

variable (key : String → ℚ)

instance : DecidableRel (Before key) := fun _ _ => inferInstanceAs (Decidable (_ ∨ _))

instance : IsTrans String (Before key) := ⟨fun _ _ _ => Ahead.trans⟩

instance : Std.Antisymm (Before key) := ⟨fun _ _ => Ahead.antisymm⟩

instance : Std.Total (Before key) := ⟨fun _ _ => Ahead.total ..⟩

end

/-- All tokens of a collection of trades, the best one first. -/
def standing (quote : String) (dimension : Dimension) (ts : Multiset TaggedTrade) : List Figures :=
  ((tokens quote ts).sort (Before fun mint => (figures quote ts mint).metric dimension)).map
    (figures quote ts)

/-! ## Places and figures -/

namespace TokenRanking

/-- What a place says of its token. -/
def figures (r : TokenRanking) : Figures :=
  ⟨r.tokenMint, r.transactionCount, r.buyCount, r.sellCount, r.buyVolume.value, r.sellVolume.value,
    r.uniqueBuyers, r.uniqueSellers⟩

theorem value_metric {r : TokenRanking} (h : r.transactionCount < 2 ^ 96) (d : Dimension) :
    (r.metric d).value = r.figures.metric d := by
  cases d with
  | count => exact Decimal.value_ofInt?_getD h
  | inflow => rfl
  | outflow => rfl

theorem rankedBefore_iff (d : Dimension) (a b : TokenRanking) :
    rankedBefore d a b = true ↔
      Ahead (a.metric d).value a.tokenMint (b.metric d).value b.tokenMint := by
  unfold rankedBefore Ahead
  have hlt := Decimal.compare_eq_lt_iff (b.metric d) (a.metric d)
  have heq := Decimal.compare_eq_eq_iff (b.metric d) (a.metric d)
  cases hc : (b.metric d).compare (a.metric d) with
  | lt =>
    rw [hc] at hlt
    exact iff_of_true rfl (Or.inl (hlt.1 rfl))
  | eq =>
    rw [hc] at heq
    simp [heq.1 rfl]
  | gt =>
    rw [hc] at hlt heq
    simp only [reduceCtorEq, false_iff] at hlt heq
    simp [hlt, heq]

theorem pairwise_mergeSort (d : Dimension) (places : List TokenRanking) :
    (places.mergeSort (rankedBefore d)).Pairwise fun a b =>
      Ahead (a.metric d).value a.tokenMint (b.metric d).value b.tokenMint := by
  refine (List.pairwise_mergeSort (fun a b c hab hbc => ?_) (fun a b => ?_) places).imp
    fun h => (rankedBefore_iff ..).1 h
  · rw [rankedBefore_iff] at hab hbc ⊢
    exact hab.trans hbc
  · rw [Bool.or_eq_true, rankedBefore_iff, rankedBefore_iff]
    exact Ahead.total ..

/-- Places of different tokens are sorted in one way, whatever the order they were in. -/
theorem mergeSort_eq_of_perm (d : Dimension) {places places' : List TokenRanking}
    (hp : places'.Perm places) (hd : (places.map (·.tokenMint)).Nodup) :
    places'.mergeSort (rankedBefore d) = places.mergeSort (rankedBefore d) := by
  refine List.Perm.eq_of_pairwise (fun a b ha hb hab hba => ?_) (pairwise_mergeSort d places')
    (pairwise_mergeSort d places)
    ((List.mergeSort_perm ..).trans (hp.trans (List.mergeSort_perm ..).symm))
  have ha' : a ∈ places := hp.mem_iff.1 (List.mem_mergeSort.1 ha)
  exact List.inj_on_of_nodup_map hd ha' (List.mem_mergeSort.1 hb) (hab.antisymm hba)

theorem figures_numberFrom (rank : Nat) (places : List TokenRanking) :
    (numberFrom rank places).map figures = places.map figures := by
  induction places generalizing rank with
  | nil => rfl
  | cons p places ih => exact congrArg (p.figures :: ·) (ih (rank + 1))

theorem rank_numberFrom (rank : Nat) (places : List TokenRanking) :
    (numberFrom rank places).map (·.rank) = List.range' rank places.length := by
  induction places generalizing rank with
  | nil => rfl
  | cons p places ih => exact congrArg (rank :: ·) (ih (rank + 1))

end TokenRanking

/-! ## The figures of one token -/

section

variable {quote mint : String} {ts : List TaggedTrade} {t : TaggedTrade}

/-- A trade has the direction that the quote mint gives it. -/
def TaggedTrade.IsClassified (quote : String) (t : TaggedTrade) : Prop :=
  t.trade = t.trade.classified quote

theorem quoteAmount_of_swap (h : t.IsClassified quote) (hside : t.trade.side = .swap)
    (htoken : IsToken quote (t.trade.tokenMint quote)) : t.trade.quoteAmount quote = .zero := by
  have hc := (Trade.side_of_classified h).symm.trans hside
  have hspent : t.trade.spent.mint ≠ quote := by
    intro he
    unfold Side.classify at hc
    unfold Trade.tokenMint at htoken
    by_cases hr : t.trade.received.mint = quote
    · rw [if_neg (not_not.2 hr)] at htoken
      exact htoken.2 he
    · rw [if_pos ⟨he, hr⟩] at hc
      exact nomatch hc
  have hreceived : t.trade.received.mint ≠ quote := by
    intro hr
    unfold Side.classify at hc
    rw [if_neg fun e => e.2 hr, if_pos ⟨hr, hspent⟩] at hc
    exact nomatch hc
  unfold Trade.quoteAmount Trade.quoteAmount?
  rw [if_neg hspent, if_neg hreceived]
  rfl

/-- A trade that spends the quote. -/
def TaggedTrade.isBuy (t : TaggedTrade) : Bool := t.trade.side = .buy

/-- Only buys pay: a swap between two tokens has no quote. -/
theorem sum_purchaseAmounts (h : ∀ t ∈ ts, t.IsClassified quote ∧
    IsToken quote (t.trade.tokenMint quote)) :
    ((purchaseAmounts quote ts).map Decimal.value).sum
      = ((ts.filter TaggedTrade.isBuy).map (·.trade.spent.amount.value)).sum := by
  unfold purchaseAmounts
  rw [List.map_map]
  induction ts with
  | nil => rfl
  | cons t ts ih =>
    obtain ⟨⟨hclass, htoken⟩, hts⟩ := List.forall_mem_cons.1 h
    have ih := ih hts
    cases hside : t.trade.side with
    | buy =>
      have hp : t.isPurchase = true := decide_eq_true (Or.inl hside)
      have hb : t.isBuy = true := decide_eq_true hside
      rw [List.filter_cons_of_pos hp, List.filter_cons_of_pos hb, List.map_cons, List.map_cons,
        List.sum_cons, List.sum_cons, ih, Function.comp_apply, Trade.quoteAmount_of_buy hclass hside]
    | swap =>
      have hp : t.isPurchase = true := decide_eq_true (Or.inr hside)
      have hb : ¬ t.isBuy = true := by simp [TaggedTrade.isBuy, hside]
      rw [List.filter_cons_of_pos hp, List.filter_cons_of_neg hb, List.map_cons, List.sum_cons, ih,
        Function.comp_apply, quoteAmount_of_swap hclass hside htoken, Decimal.value_zero, zero_add]
    | sell =>
      have hp : ¬ t.isPurchase = true := by simp [TaggedTrade.isPurchase, hside]
      have hb : ¬ t.isBuy = true := by simp [TaggedTrade.isBuy, hside]
      rw [List.filter_cons_of_neg hp, List.filter_cons_of_neg hb, ih]

theorem sum_saleAmounts (h : ∀ t ∈ ts, t.IsClassified quote) :
    ((saleAmounts quote ts).map Decimal.value).sum
      = ((ts.filter TaggedTrade.isSale).map (·.trade.received.amount.value)).sum := by
  unfold saleAmounts
  rw [List.map_map]
  refine congrArg List.sum (List.map_congr_left fun t ht => ?_)
  obtain ⟨hmem, hs⟩ := List.mem_filter.1 ht
  rw [Function.comp_apply, Trade.quoteAmount_of_sell (h t hmem) (of_decide_eq_true hs)]

theorem length_eq_card {names : List String} (hd : names.Nodup) {l : List String}
    (hmem : ∀ s, s ∈ names ↔ s ∈ l) : names.length = (l : Multiset String).toFinset.card := by
  rw [← List.toFinset_card_of_nodup hd, List.toFinset_coe]
  refine congrArg Finset.card (Finset.ext fun s => ?_)
  rw [List.mem_toFinset, List.mem_toFinset, hmem]

/-- What was counted of a token is what its trades say of it. -/
theorem figures_place {c : TokenCount} (hclass : ∀ t ∈ ts, t.IsClassified quote)
    (hmint : IsToken quote mint)
    (h : TokenCount.Counted quote .empty c (tradesOf quote mint ts)) :
    (c.place mint).figures = figures quote ts mint := by
  have hown : ∀ t ∈ tradesOf quote mint ts,
      t.IsClassified quote ∧ IsToken quote (t.trade.tokenMint quote) := by
    intro t ht
    obtain ⟨hmem, hm⟩ := List.mem_filter.1 ht
    exact ⟨hclass t hmem, (of_decide_eq_true hm).symm ▸ hmint⟩
  obtain ⟨hb, hs⟩ := h.distinct ⟨List.nodup_nil, List.nodup_nil⟩
  have hbuyers := length_eq_card hb fun s => (h.buyers s).trans (or_iff_right List.not_mem_nil)
  have hsellers := length_eq_card hs fun s => (h.sellers s).trans (or_iff_right List.not_mem_nil)
  have hpaid := h.buyVolume
  have hreceived := h.sellVolume
  rw [sum_purchaseAmounts hown] at hpaid
  rw [sum_saleAmounts fun t ht => (hown t ht).1] at hreceived
  have htotal := h.transactions
  have hbuys := h.buys
  have hsales := h.sales
  rw [show TokenCount.empty.transactions = 0 from rfl, Nat.zero_add] at htotal
  rw [show TokenCount.empty.buys = 0 from rfl, Nat.zero_add] at hbuys
  rw [show TokenCount.empty.sales = 0 from rfl, Nat.zero_add] at hsales
  rw [show TokenCount.empty.buyVolume = .zero from rfl, Decimal.value_zero, zero_add] at hpaid
  rw [show TokenCount.empty.sellVolume = .zero from rfl, Decimal.value_zero, zero_add] at hreceived
  exact Figures.ext rfl htotal hbuys hsales hpaid hreceived hbuyers hsellers

end

/-! ## The ranking -/

/-- The first places of tokens that come with their counts. -/
def placesOf (dimension : Dimension) (limit : Nat) (entries : List (String × TokenCount)) :
    List TokenRanking :=
  numberFrom 1 (((entries.map fun e => e.2.place e.1).mergeSort (rankedBefore dimension)).take
    (min limit maxRankLimit))

/-- No sum over the trades of a token is rounded or out of range, and neither is their number. -/
structure InRange (quote : String) (ts : List TaggedTrade) : Prop where
  sums : ∀ t ∈ ts, TokenCount.Exact quote .empty (tradesOf quote (t.trade.tokenMint quote) ts)
  count : ts.length < 2 ^ 96

/-- The places of a ranking are the first ones of the standing by the trades `ts`. -/
structure Ranked (quote : String) (dimension : Dimension) (limit : Nat) (ts : List TaggedTrade)
    (places : List TokenRanking) : Prop where
  figures : places.map (·.figures) = (standing quote dimension ts).take (min limit 100)
  ranks : places.map (·.rank) = List.range' 1 places.length
  /-- The tokens that were counted may come in any order. -/
  anyOrder : ∃ counts, countTrades quote ts = some counts ∧
    ∀ entries, entries.Perm counts.entries → placesOf dimension limit entries = places

section

variable {quote : String} {ts : List TaggedTrade} {counts : Table String TokenCount}

theorem InRange.exact (h : InRange quote ts) (mint : String) :
    TokenCount.Exact quote .empty (tradesOf quote mint ts) := by
  by_cases hmint : ∃ t ∈ ts, t.trade.tokenMint quote = mint
  · obtain ⟨t, ht, rfl⟩ := hmint
    exact h.sums t ht
  · have hnone : tradesOf quote mint ts = [] :=
      List.filter_eq_nil_iff.2 fun t ht e => hmint ⟨t, ht, of_decide_eq_true e⟩
    rw [hnone]
    exact ⟨trivial, trivial⟩

theorem mints_places (counts : Table String TokenCount) :
    (counts.entries.map fun e => e.2.place e.1).map (·.tokenMint) = counts.keys := by
  rw [List.map_map]
  rfl

theorem rankTrades_eq (h : countTrades quote ts = some counts) (dimension : Dimension)
    (limit : Nat) :
    rankTrades quote dimension limit ts = .ok (placesOf dimension limit counts.entries) := by
  unfold rankTrades
  rw [h]
  rfl

theorem ranks_placesOf (dimension : Dimension) (limit : Nat)
    (entries : List (String × TokenCount)) :
    (placesOf dimension limit entries).map (·.rank)
      = List.range' 1 (placesOf dimension limit entries).length := by
  have hlen := congrArg List.length (TokenRanking.figures_numberFrom 1
    (((entries.map fun e => e.2.place e.1).mergeSort (rankedBefore dimension)).take
      (min limit maxRankLimit)))
  rw [List.length_map, List.length_map] at hlen
  unfold placesOf
  rw [TokenRanking.rank_numberFrom, hlen]

/-- Sorted, the places of the tokens that were counted are the standing. -/
theorem figures_mergeSort (hclass : ∀ t ∈ ts, t.IsClassified quote) (hrange : InRange quote ts)
    (hcount : countTrades quote ts = some counts) (dimension : Dimension) :
    ((counts.entries.map fun e => e.2.place e.1).mergeSort (rankedBefore dimension)).map (·.figures)
      = standing quote dimension ts := by
  obtain ⟨counts', hfold, hcounted, hkeys⟩ :=
    exists_countTrades ts .empty fun mint _ => hrange.exact mint
  obtain rfl : counts' = counts := Option.some.inj (hfold.symm.trans hcount)
  have hkeys : ∀ mint, mint ∈ counts'.keys ↔
      IsToken quote mint ∧ ∃ t ∈ ts, t.trade.tokenMint quote = mint := fun mint =>
    (hkeys mint).trans (or_iff_right List.not_mem_nil)
  -- Every place says of its token what all trades say of it, and is sorted by that.
  have hplace : ∀ p ∈ (counts'.entries.map fun e => e.2.place e.1).mergeSort
        (rankedBefore dimension),
      p.figures = figures quote ts p.tokenMint ∧
        (p.metric dimension).value = (figures quote ts p.tokenMint).metric dimension := by
    intro p hp
    obtain ⟨⟨mint, c⟩, he, rfl⟩ := List.mem_map.1 (List.mem_mergeSort.1 hp)
    have hget : counts'.get? mint = some c := Table.get?_eq_some_iff.2 he
    have hmint := ((hkeys mint).1 (Table.mem_keys_iff.2 ⟨c, hget⟩)).1
    have hc := hcounted mint hmint
    rw [hget] at hc
    have hfew : (c.place mint).transactionCount < 2 ^ 96 := by
      have hlen : c.transactions = 0 + (tradesOf quote mint ts).length := hc.transactions
      have hle := List.length_filter_le (fun t : TaggedTrade => t.trade.tokenMint quote = mint) ts
      have := hrange.count
      show c.transactions < 2 ^ 96
      unfold tradesOf at hlen
      omega
    have hfigures := figures_place hclass hmint hc
    exact ⟨hfigures,
      (TokenRanking.value_metric hfew dimension).trans (congrArg (·.metric dimension) hfigures)⟩
  generalize hsorted : (counts'.entries.map fun e => e.2.place e.1).mergeSort
    (rankedBefore dimension) = sorted at hplace ⊢
  have hperm : (sorted.map (·.tokenMint)).Perm counts'.keys := by
    rw [← hsorted, ← mints_places counts']
    exact (List.mergeSort_perm ..).map _
  have hset : (sorted.map (·.tokenMint)).toFinset = tokens quote ts := by
    ext mint
    rw [List.mem_toFinset, hperm.mem_iff, hkeys]
    unfold tokens
    rw [Finset.mem_filter, Multiset.mem_toFinset, Multiset.mem_map, and_comm]
    rfl
  have hbefore : (sorted.map (·.tokenMint)).Pairwise
      (Before fun mint => (figures quote ts mint).metric dimension) := by
    rw [List.pairwise_map, ← hsorted]
    refine (TokenRanking.pairwise_mergeSort ..).imp_of_mem fun ha hb h => ?_
    rw [hsorted] at ha hb
    rwa [(hplace _ ha).2, (hplace _ hb).2] at h
  unfold standing
  rw [← hset, (List.toFinset_sort _ (hperm.nodup_iff.2 counts'.nodup)).2 hbefore, List.map_map]
  exact List.map_congr_left fun p hp => (hplace p hp).1

/-- If the sums are in range, there are places, and they are those of the standing. -/
theorem ranked_rankTrades (hclass : ∀ t ∈ ts, t.IsClassified quote) (hrange : InRange quote ts)
    (dimension : Dimension) (limit : Nat) :
    ∃ places, rankTrades quote dimension limit ts = .ok places ∧
      Ranked quote dimension limit ts places := by
  obtain ⟨counts, hcount, _, _⟩ :=
    exists_countTrades ts .empty fun mint _ => hrange.exact mint
  refine ⟨placesOf dimension limit counts.entries, rankTrades_eq hcount dimension limit,
    ?_, ranks_placesOf .., counts, hcount, fun entries hp => ?_⟩
  · unfold placesOf
    rw [TokenRanking.figures_numberFrom, List.map_take,
      figures_mergeSort hclass hrange hcount dimension]
    rfl
  · have hd : ((counts.entries.map fun e => e.2.place e.1).map (·.tokenMint)).Nodup := by
      rw [mints_places]
      exact counts.nodup
    unfold placesOf
    rw [TokenRanking.mergeSort_eq_of_perm dimension (hp.map _) hd]

end

namespace Rankings

/-- The trades that ever arrived and lie within the horizon. -/
def recent (as : List Act) (timeframe : Timeframe) (now : Instant) : List TaggedTrade :=
  (arrivals as).filter (Window.isRecent (timeframe.horizon now))

section

variable {quote : String} {as : List Act} {now : Instant}

theorem ranked_rank (hnow : ∀ a ∈ as, a.now.nanos ≤ now.nanos)
    (hclass : ∀ t ∈ arrivals as, t.IsClassified quote) (timeframe : Timeframe)
    (hrange : InRange quote (recent as timeframe now)) (dimension : Dimension) (limit : Nat) :
    ∃ places,
      (((empty quote).run as).rank timeframe dimension limit now).2
        = .ok ⟨timeframe, dimension, now, places⟩ ∧
      Ranked quote dimension limit (recent as timeframe now) places := by
  have hclass' : ∀ t ∈ recent as timeframe now, t.IsClassified quote := fun t ht =>
    hclass t (List.mem_of_mem_filter ht)
  obtain ⟨places, hplaces, hranked⟩ := ranked_rankTrades hclass' hrange dimension limit
  refine ⟨places, ?_, hranked⟩
  have hwindow : ((((empty quote).run as).window timeframe).evict (timeframe.horizon now)).filter
      (Window.isRecent (timeframe.horizon now)) = recent as timeframe now := by
    rw [Window.filter_evict (Int.le_refl _),
      filter_window_run as (empty quote) fun a ha => horizon_mono timeframe (hnow a ha)]
    cases timeframe <;> rfl
  unfold rank
  dsimp only
  rw [hwindow, quoteMint_run, show (empty quote).quoteMint = quote from rfl, hplaces]
  rfl

end

/-- A ranking shows the first tokens of the standing by all trades that ever arrived and lie within
the horizon, in whatever order they arrived and whatever was ranked before. -/
theorem rank_of_run (quote : String) (as : List Act) (timeframe : Timeframe)
    (dimension : Dimension) (limit : Nat) (now : Instant)
    (hnow : ∀ a ∈ as, a.now.nanos ≤ now.nanos)
    (hclass : ∀ t ∈ arrivals as, t.IsClassified quote)
    (hrange : InRange quote (recent as timeframe now)) :
    ∃ places,
      (((empty quote).run as).rank timeframe dimension limit now).2
        = .ok ⟨timeframe, dimension, now, places⟩ ∧
      Ranked quote dimension limit (recent as timeframe now) places ∧
      ∀ as', (arrivals as').Perm (arrivals as) → (∀ a ∈ as', a.now.nanos ≤ now.nanos) →
        InRange quote (recent as' timeframe now) →
        ∃ places',
          (((empty quote).run as').rank timeframe dimension limit now).2
            = .ok ⟨timeframe, dimension, now, places'⟩ ∧
          places'.map (·.figures) = places.map (·.figures) ∧
          places'.map (·.rank) = places.map (·.rank) := by
  obtain ⟨places, hplaces, hranked⟩ := ranked_rank hnow hclass timeframe hrange dimension limit
  refine ⟨places, hplaces, hranked, fun as' hp hnow' hrange' => ?_⟩
  obtain ⟨places', hplaces', hranked'⟩ := ranked_rank hnow'
    (fun t ht => hclass t (hp.mem_iff.1 ht)) timeframe hrange' dimension limit
  have hsame : (recent as' timeframe now : Multiset TaggedTrade) = recent as timeframe now :=
    Multiset.coe_eq_coe.2 (hp.filter _)
  have hfigures : places'.map (·.figures) = places.map (·.figures) := by
    rw [hranked'.figures, hranked.figures, hsame]
  have hlen := congrArg List.length hfigures
  rw [List.length_map, List.length_map] at hlen
  refine ⟨places', hplaces', hfigures, ?_⟩
  rw [hranked'.ranks, hranked.ranks, hlen]

/-- A buy for some tenths of the quote "q", a number of seconds after the start of 1970. -/
def buyAt (seconds : Int) (tenths : Nat) (mint signer : String) : TaggedTrade where
  trade :=
    { signature := "", slot := 0, blockTime := .ofSeconds seconds, platform := "unknown"
      programId := none, spent := ⟨"q", (Decimal.ofParts? false tenths 1).getD .zero⟩
      received := ⟨mint, .zero⟩, signer := signer, trackedAddress := none
      side := Side.classify "q" mint "q" }
  tag := none

/-- A buy of "a" that is past the horizon in the end, one of "b", and a late one of "a" behind it,
with a ranking in between. -/
def lateArrivals : List Act :=
  [.ingest (buyAt 1000 15 "a" "x") (.ofSeconds 2000),
    .rank .sixHours .count 5 (.ofSeconds 3000),
    .ingest (buyAt 4000 20 "b" "y") (.ofSeconds 4000),
    .ingest (buyAt 3000 7 "a" "x") (.ofSeconds 4300)]

/-- The same trades in another order. -/
def promptArrivals : List Act :=
  [.ingest (buyAt 3000 7 "a" "x") (.ofSeconds 3000),
    .ingest (buyAt 4000 20 "b" "y") (.ofSeconds 4000),
    .ingest (buyAt 1000 15 "a" "x") (.ofSeconds 4900)]

theorem rank_lateArrivals :
    ((∀ a ∈ lateArrivals, a.now.nanos ≤ (Instant.ofSeconds 5000).nanos) ∧
      (∀ t ∈ arrivals lateArrivals, t.IsClassified "q") ∧
      InRange "q" (recent lateArrivals .oneHour (.ofSeconds 5000))) ∧
    (recent lateArrivals .oneHour (.ofSeconds 5000)).map (·.trade.tokenMint "q") = ["b", "a"] ∧
    ∃ places places',
      (((empty "q").run lateArrivals).rank .oneHour .inflow 1 (.ofSeconds 5000)).2
        = .ok ⟨.oneHour, .inflow, .ofSeconds 5000, places⟩ ∧
      Ranked "q" .inflow 1 (recent lateArrivals .oneHour (.ofSeconds 5000)) places ∧
      (((empty "q").run promptArrivals).rank .oneHour .inflow 1 (.ofSeconds 5000)).2
        = .ok ⟨.oneHour, .inflow, .ofSeconds 5000, places'⟩ ∧
      places'.map (·.figures) = places.map (·.figures) := by
  have hnow : ∀ a ∈ lateArrivals, a.now.nanos ≤ (Instant.ofSeconds 5000).nanos := by decide
  have hclass : ∀ t ∈ arrivals lateArrivals, t.IsClassified "q" := by
    unfold TaggedTrade.IsClassified
    decide
  have hrange : InRange "q" (recent lateArrivals .oneHour (.ofSeconds 5000)) :=
    ⟨by decide +kernel, by decide +kernel⟩
  have hperm : (arrivals promptArrivals).Perm (arrivals lateArrivals) := by decide
  have hrange' : InRange "q" (recent promptArrivals .oneHour (.ofSeconds 5000)) :=
    ⟨by decide +kernel, by decide +kernel⟩
  obtain ⟨places, hplaces, hranked, hother⟩ :=
    rank_of_run "q" lateArrivals .oneHour .inflow 1 (.ofSeconds 5000) hnow hclass hrange
  obtain ⟨places', hplaces', hfigures, _⟩ := hother promptArrivals hperm (by decide) hrange'
  exact ⟨⟨hnow, hclass, hrange⟩, by decide, places, places', hplaces, hranked, hplaces', hfigures⟩

end Rankings

end SwapFloor
