import Mathlib.Algebra.BigOperators.Group.List.Basic
import SwapFloor.Proofs.Decimal.Value
import SwapFloor.Ranking.Window

/-!
# What is counted of each token

Trades are counted one after the other into a table by token. Seen from one token only its own
trades matter, so as long as the sums of its volumes are exact, its counts are those of its trades.

`Counted` says what a list of trades of one token adds to its counts. It holds of one trade
(`exists_add_of_exact`) and composes, so it holds of each token in a run over all trades.

Main statement: `exists_countTrades`.
-/

namespace SwapFloor

namespace TaggedTrade

/-- A trade that counts as a buy of its token. -/
def isPurchase (t : TaggedTrade) : Bool := t.trade.side = .buy ∨ t.trade.side = .swap

def isSale (t : TaggedTrade) : Bool := t.trade.side = .sell

theorem isSale_eq_not (t : TaggedTrade) : t.isSale = !t.isPurchase := by
  unfold isSale isPurchase
  cases t.trade.side <;> rfl

end TaggedTrade

open TaggedTrade

/-- The trades of a token. -/
def tradesOf (quote mint : String) (ts : List TaggedTrade) : List TaggedTrade :=
  ts.filter (·.trade.tokenMint quote = mint)

/-- The amounts of quote in the trades that count as buys. -/
def purchaseAmounts (quote : String) (ts : List TaggedTrade) : List Decimal :=
  (ts.filter isPurchase).map (·.trade.quoteAmount quote)

/-- The amounts of quote in the sales. -/
def saleAmounts (quote : String) (ts : List TaggedTrade) : List Decimal :=
  (ts.filter isSale).map (·.trade.quoteAmount quote)

namespace TokenCount

variable {quote : String} {c c' c'' : TokenCount} {t : TaggedTrade} {ts ts' : List TaggedTrade}

/-- Adding the trades of a token to its counts never rounds a volume or exceeds its range. -/
def Exact (quote : String) (c : TokenCount) (ts : List TaggedTrade) : Prop :=
  c.buyVolume.ExactFrom (purchaseAmounts quote ts) ∧ c.sellVolume.ExactFrom (saleAmounts quote ts)

instance : Decidable (Exact quote c ts) := inferInstanceAs (Decidable (_ ∧ _))

/-- From `c` to `c'` the trades `ts` of a token were counted. -/
structure Counted (quote : String) (c c' : TokenCount) (ts : List TaggedTrade) : Prop where
  transactions : c'.transactions = c.transactions + ts.length
  buys : c'.buys = c.buys + (ts.filter isPurchase).length
  sales : c'.sales = c.sales + (ts.filter isSale).length
  buyVolume : c'.buyVolume.value
    = c.buyVolume.value + ((purchaseAmounts quote ts).map Decimal.value).sum
  sellVolume : c'.sellVolume.value
    = c.sellVolume.value + ((saleAmounts quote ts).map Decimal.value).sum
  buyers : ∀ s, s ∈ c'.buyers ↔ s ∈ c.buyers ∨ s ∈ (ts.filter isPurchase).map (·.trade.signer)
  sellers : ∀ s, s ∈ c'.sellers ↔ s ∈ c.sellers ∨ s ∈ (ts.filter isSale).map (·.trade.signer)
  distinct : c.buyers.Nodup ∧ c.sellers.Nodup → c'.buyers.Nodup ∧ c'.sellers.Nodup

theorem Counted.refl (quote : String) (c : TokenCount) : Counted quote c c [] where
  transactions := rfl
  buys := rfl
  sales := rfl
  buyVolume := (add_zero _).symm
  sellVolume := (add_zero _).symm
  buyers _ := by simp
  sellers _ := by simp
  distinct h := h

theorem Counted.trans (h : Counted quote c c' ts) (h' : Counted quote c' c'' ts') :
    Counted quote c c'' (ts ++ ts') where
  transactions := by rw [h'.transactions, h.transactions, List.length_append, Nat.add_assoc]
  buys := by rw [h'.buys, h.buys, List.filter_append, List.length_append, Nat.add_assoc]
  sales := by rw [h'.sales, h.sales, List.filter_append, List.length_append, Nat.add_assoc]
  buyVolume := by
    rw [h'.buyVolume, h.buyVolume, purchaseAmounts, purchaseAmounts, purchaseAmounts,
      List.filter_append, List.map_append, List.map_append, List.sum_append, add_assoc]
  sellVolume := by
    rw [h'.sellVolume, h.sellVolume, saleAmounts, saleAmounts, saleAmounts,
      List.filter_append, List.map_append, List.map_append, List.sum_append, add_assoc]
  buyers s := by
    rw [h'.buyers, h.buyers, List.filter_append, List.map_append, List.mem_append, or_assoc]
  sellers s := by
    rw [h'.sellers, h.sellers, List.filter_append, List.map_append, List.mem_append, or_assoc]
  distinct hd := h'.distinct (h.distinct hd)

theorem mem_noteName {names : List String} {name s : String} :
    s ∈ noteName names name ↔ s ∈ names ∨ s = name := by
  unfold noteName
  split
  · rename_i hin
    exact ⟨Or.inl, fun h => h.elim id fun e => e ▸ hin⟩
  · rw [List.mem_append, List.mem_singleton]

theorem nodup_noteName {names : List String} (h : names.Nodup) (name : String) :
    (noteName names name).Nodup := by
  unfold noteName
  split
  · exact h
  · rename_i hnew
    rw [List.nodup_append]
    refine ⟨h, List.nodup_singleton name, fun s hs s' hs' heq => hnew ?_⟩
    rwa [← List.mem_singleton.1 hs', ← heq]

theorem add_of_isPurchase (h : t.isPurchase = true) (c : TokenCount) (q : Decimal) :
    c.add t.trade q = (c.buyVolume.add q).map fun v =>
      { c with
        transactions := c.transactions + 1, buys := c.buys + 1, buyVolume := v
        buyers := noteName c.buyers t.trade.signer } := by
  unfold add
  rcases of_decide_eq_true h with hs | hs <;> rw [hs]

theorem add_of_isSale (h : t.isSale = true) (c : TokenCount) (q : Decimal) :
    c.add t.trade q = (c.sellVolume.add q).map fun v =>
      { c with
        transactions := c.transactions + 1, sales := c.sales + 1, sellVolume := v
        sellers := noteName c.sellers t.trade.signer } := by
  unfold add
  rw [of_decide_eq_true h]

theorem counted_purchase (hp : t.isPurchase = true) (c : TokenCount) {v : Decimal}
    (hv : v.value = c.buyVolume.value + (t.trade.quoteAmount quote).value) :
    Counted quote c
      { c with
        transactions := c.transactions + 1, buys := c.buys + 1, buyVolume := v
        buyers := noteName c.buyers t.trade.signer } [t] := by
  have hs : t.isSale = false := by rw [isSale_eq_not, hp]; rfl
  refine ⟨rfl, ?_, ?_, ?_, ?_, fun s => ?_, fun s => ?_, fun h => ?_⟩
  · simp [hp]
  · simp [hs]
  · simp [purchaseAmounts, hp, hv]
  · simp [saleAmounts, hs]
  · simp [hp, mem_noteName]
  · simp [hs]
  · exact ⟨nodup_noteName h.1 _, h.2⟩

theorem counted_sale (hs : t.isSale = true) (c : TokenCount) {v : Decimal}
    (hv : v.value = c.sellVolume.value + (t.trade.quoteAmount quote).value) :
    Counted quote c
      { c with
        transactions := c.transactions + 1, sales := c.sales + 1, sellVolume := v
        sellers := noteName c.sellers t.trade.signer } [t] := by
  have hp : t.isPurchase = false := by
    rw [isSale_eq_not] at hs
    simpa using hs
  refine ⟨rfl, ?_, ?_, ?_, ?_, fun s => ?_, fun s => ?_, fun h => ?_⟩
  · simp [hp]
  · simp [hs]
  · simp [purchaseAmounts, hp]
  · simp [saleAmounts, hs, hv]
  · simp [hp]
  · simp [hs, mem_noteName]
  · exact ⟨h.1, nodup_noteName h.2 _⟩

/-- If the sums are exact, the next trade can be counted. -/
theorem exists_add_of_exact (h : Exact quote c (t :: ts)) :
    ∃ c', c.add t.trade (t.trade.quoteAmount quote) = some c' ∧ Counted quote c c' [t] ∧
      Exact quote c' ts := by
  obtain ⟨hbuys, hsales⟩ := h
  cases hp : t.isPurchase with
  | true =>
    have hs : ¬ t.isSale = true := by rw [isSale_eq_not, hp]; exact Bool.false_ne_true
    rw [purchaseAmounts, List.filter_cons_of_pos hp] at hbuys
    rw [saleAmounts, List.filter_cons_of_neg hs] at hsales
    obtain ⟨v, hv, hval, hrest⟩ := hbuys
    exact ⟨_, (add_of_isPurchase hp c _).trans (congrArg _ hv), counted_purchase hp c hval, hrest,
      hsales⟩
  | false =>
    have hs : t.isSale = true := by rw [isSale_eq_not, hp]; rfl
    have hp : ¬ t.isPurchase = true := by rw [hp]; exact Bool.false_ne_true
    rw [purchaseAmounts, List.filter_cons_of_neg hp] at hbuys
    rw [saleAmounts, List.filter_cons_of_pos hs] at hsales
    obtain ⟨v, hv, hval, hrest⟩ := hsales
    exact ⟨_, (add_of_isSale hs c _).trans (congrArg _ hv), counted_sale hs c hval, hbuys, hrest⟩

end TokenCount

open TokenCount

/-- A token that is ranked: it has a mint, which is not the quote. -/
def IsToken (quote mint : String) : Prop := mint ≠ "" ∧ mint ≠ quote

section

variable {quote mint : String} {t : TaggedTrade} {ts : List TaggedTrade}

theorem tradesOf_cons_self (quote : String) (t : TaggedTrade) (ts : List TaggedTrade) :
    tradesOf quote (t.trade.tokenMint quote) (t :: ts)
      = t :: tradesOf quote (t.trade.tokenMint quote) ts :=
  List.filter_cons_of_pos (decide_eq_true rfl)

theorem tradesOf_cons_of_ne (h : t.trade.tokenMint quote ≠ mint) :
    tradesOf quote mint (t :: ts) = tradesOf quote mint ts :=
  List.filter_cons_of_neg (by simpa using h)

theorem countTrade_of_not_isToken (h : ¬ IsToken quote (t.trade.tokenMint quote))
    (counts : Table String TokenCount) : countTrade quote counts t = some counts := by
  refine if_pos ?_
  unfold IsToken at h
  tauto

theorem countTrade_of_isToken (h : IsToken quote (t.trade.tokenMint quote))
    (counts : Table String TokenCount) :
    countTrade quote counts t
      = (((counts.get? (t.trade.tokenMint quote)).getD .empty).add t.trade
          (t.trade.quoteAmount quote)).map fun c => counts.insert (t.trade.tokenMint quote) c :=
  if_neg fun e => e.elim h.2 h.1

end

/-- As long as the sums of every token are exact, all trades can be counted, each with those of its
token, and the tokens that are counted are those that were traded. -/
theorem exists_countTrades {quote : String} (ts : List TaggedTrade)
    (counts : Table String TokenCount)
    (hexact : ∀ mint, IsToken quote mint →
      Exact quote ((counts.get? mint).getD .empty) (tradesOf quote mint ts)) :
    ∃ counts', ts.foldlM (countTrade quote) counts = some counts' ∧
      (∀ mint, IsToken quote mint → Counted quote ((counts.get? mint).getD .empty)
        ((counts'.get? mint).getD .empty) (tradesOf quote mint ts)) ∧
      ∀ mint, mint ∈ counts'.keys ↔
        mint ∈ counts.keys ∨ IsToken quote mint ∧ ∃ t ∈ ts, t.trade.tokenMint quote = mint := by
  induction ts generalizing counts with
  | nil => exact ⟨counts, rfl, fun mint _ => Counted.refl quote _, fun mint => by simp⟩
  | cons t ts ih =>
    by_cases htoken : IsToken quote (t.trade.tokenMint quote)
    · have hhere := hexact _ htoken
      rw [tradesOf_cons_self] at hhere
      obtain ⟨c, hadd, hcounted, hrest⟩ := exists_add_of_exact hhere
      have hstep : countTrade quote counts t
          = some (counts.insert (t.trade.tokenMint quote) c) := by
        rw [countTrade_of_isToken htoken, hadd]
        rfl
      have hget : ∀ mint, t.trade.tokenMint quote ≠ mint →
          (counts.insert (t.trade.tokenMint quote) c).get? mint = counts.get? mint :=
        fun mint hne => (Table.get?_insert ..).trans (if_neg (Ne.symm hne))
      have hself : (counts.insert (t.trade.tokenMint quote) c).get? (t.trade.tokenMint quote)
          = some c := (Table.get?_insert ..).trans (if_pos rfl)
      obtain ⟨counts', hfold, hcount, hkeys⟩ := ih (counts.insert (t.trade.tokenMint quote) c)
        fun mint hmint => by
          by_cases hne : t.trade.tokenMint quote = mint
          · subst hne
            rw [hself]
            exact hrest
          · rw [hget mint hne, ← tradesOf_cons_of_ne hne]
            exact hexact mint hmint
      refine ⟨counts', ?_, fun mint hmint => ?_, fun mint => ?_⟩
      · rw [List.foldlM_cons, hstep]
        exact hfold
      · by_cases hne : t.trade.tokenMint quote = mint
        · subst hne
          have hlater := hcount _ hmint
          rw [hself] at hlater
          rw [tradesOf_cons_self]
          exact hcounted.trans hlater
        · have hlater := hcount mint hmint
          rwa [hget mint hne, ← tradesOf_cons_of_ne hne] at hlater
      · rw [hkeys]
        simp only [List.mem_cons, exists_eq_or_imp]
        by_cases hne : t.trade.tokenMint quote = mint
        · subst hne
          exact iff_of_true (Or.inl (Table.mem_keys_iff.2 ⟨c, hself⟩)) (Or.inr ⟨htoken, Or.inl rfl⟩)
        · rw [Table.mem_keys_iff, hget mint hne, ← Table.mem_keys_iff]
          simp [hne]
    · have hstep := countTrade_of_not_isToken htoken counts
      have hne : ∀ mint, IsToken quote mint → t.trade.tokenMint quote ≠ mint := by
        rintro mint hmint rfl
        exact htoken hmint
      obtain ⟨counts', hfold, hcount, hkeys⟩ := ih counts fun mint hmint => by
        rw [← tradesOf_cons_of_ne (hne mint hmint)]
        exact hexact mint hmint
      refine ⟨counts', ?_, fun mint hmint => ?_, fun mint => ?_⟩
      · rw [List.foldlM_cons, hstep]
        exact hfold
      · rw [tradesOf_cons_of_ne (hne mint hmint)]
        exact hcount mint hmint
      · rw [hkeys]
        simp only [List.mem_cons, exists_eq_or_imp]
        refine or_congr_right (and_congr_right fun hmint => ?_)
        simp [hne mint hmint]

end SwapFloor
