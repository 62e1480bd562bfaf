import SwapFloor.Proofs.Ingest.Changes

/-!
# The swap of a record

What the signer's balances gained and lost decides whether a record tells of a swap, and of which
one. Of several tokens that were gained, or lost, the one with the greatest amount counts, and of
equal ones the one with the smallest mint; nothing depends on the order in which balances are
reported, unless the choice of the signer does.

Main statement: `read_of_exact`.
-/

namespace SwapFloor

/-- The same trade, its amounts taken as numbers. -/
structure Trade.Agrees (t t' : Trade) : Prop where
  same : t' = { t with
    spent := ⟨t.spent.mint, t'.spent.amount⟩, received := ⟨t.received.mint, t'.received.amount⟩ }
  spent : t'.spent.amount.value = t.spent.amount.value
  received : t'.received.amount.value = t.received.amount.value

namespace SwapReading

/-! ## The foremost change -/

/-- A leg of the greatest of some changes, of equal ones the one with the smallest mint. -/
def IsForemost (best : Option Leg) (es : List (String × Decimal)) : Prop :=
  match best with
  | none => es = []
  | some l => ∃ e ∈ es, l = ⟨e.1, e.2.abs⟩ ∧ ∀ e' ∈ es, |e'.2.value| ≤ |e.2.value| ∧
      (|e'.2.value| = |e.2.value| → e.1 ≤ e'.1)

theorem IsForemost.larger {best : Option Leg} {es : List (String × Decimal)}
    {e : String × Decimal} (h : IsForemost best es) (hlast : ∀ e' ∈ es, e'.1 ≤ e.1) :
    IsForemost (larger best ⟨e.1, e.2.abs⟩) (es ++ [e]) := by
  cases best with
  | none =>
    obtain rfl : es = [] := h
    refine ⟨e, List.mem_singleton_self e, rfl, fun e' he' => ?_⟩
    obtain rfl := List.mem_singleton.1 he'
    exact ⟨le_refl _, fun _ => String.le_refl _⟩
  | some l =>
    obtain ⟨b, hb, rfl, hfirst⟩ := h
    have hle : (e.2.abs.le b.2.abs = true) ↔ |e.2.value| ≤ |b.2.value| := by
      rw [Decimal.le_iff, Decimal.value_abs, Decimal.value_abs]
    unfold SwapReading.larger
    dsimp only
    by_cases hc : |e.2.value| ≤ |b.2.value|
    · rw [if_pos (hle.2 hc)]
      refine ⟨b, List.mem_append_left _ hb, rfl, fun e' he' => ?_⟩
      rcases List.mem_append.1 he' with he' | he'
      · exact hfirst e' he'
      · obtain rfl := List.mem_singleton.1 he'
        exact ⟨hc, fun _ => hlast b hb⟩
    · rw [if_neg (mt hle.1 hc)]
      refine ⟨e, List.mem_append_right _ (List.mem_singleton_self e), rfl, fun e' he' => ?_⟩
      rcases List.mem_append.1 he' with he' | he'
      · have hlt : |e'.2.value| < |e.2.value| :=
          lt_of_le_of_lt (hfirst e' he').1 (not_le.1 hc)
        exact ⟨hlt.le, fun heq => absurd heq hlt.ne⟩
      · obtain rfl := List.mem_singleton.1 he'
        exact ⟨le_refl _, fun _ => String.le_refl _⟩

/-- In order of their mints, the changes are gone through once. -/
theorem isForemost_foldl {best : Option Leg} {done es : List (String × Decimal)}
    (h : IsForemost best done) (ho : (done ++ es).Pairwise fun a b => a.1 ≤ b.1) :
    IsForemost (es.foldl (fun best e => larger best ⟨e.1, e.2.abs⟩) best) (done ++ es) := by
  induction es generalizing best done with
  | nil =>
    rw [List.append_nil]
    exact h
  | cons e es ih =>
    have hlast : ∀ e' ∈ done, e'.1 ≤ e.1 := fun e' he' =>
      (List.pairwise_append.1 ho).2.2 e' he' e List.mem_cons_self
    rw [← List.singleton_append, ← List.append_assoc] at ho ⊢
    exact ih (h.larger hlast) ho

/-! ## Gains and losses -/

/-- The leg is the greatest gain of a token other than the quote, of equal ones the one with the
smallest mint. -/
structure Leads (gain : String → ℚ) (quote : String) (l : Leg) : Prop where
  isToken : l.mint ≠ quote
  amount : l.amount.value = gain l.mint
  positive : 0 < gain l.mint
  greatest : ∀ mint, mint ≠ quote → gain mint ≤ gain l.mint
  first : ∀ mint, mint ≠ quote → gain mint = gain l.mint → l.mint ≤ mint

theorem Leads.unique {gain : String → ℚ} {quote : String} {l l' : Leg} (h : Leads gain quote l)
    (h' : Leads gain quote l') : l'.mint = l.mint ∧ l'.amount.value = l.amount.value := by
  have hequal : gain l'.mint = gain l.mint :=
    le_antisymm (h.greatest _ h'.isToken) (h'.greatest _ h.isToken)
  refine ⟨?_, by rw [h.amount, h'.amount, hequal]⟩
  exact String.le_antisymm (h'.first _ h.isToken hequal.symm) (h.first _ h'.isToken hequal)

section

variable {r : TxRecord} {quote : String} {s : Signer} {deltas : List (String × Decimal)}

/-- What a token gained, or what it lost. -/
def gains (negative : Bool) (r : TxRecord) (owner mint : String) : ℚ :=
  if negative then -change r owner mint else change r owner mint

theorem Changes.sign_iff {owner : String} (hc : Changes r quote owner deltas) {negative : Bool}
    {e : String × Decimal} (he : e ∈ deltas) :
    (e.2.negative == negative) = true ↔ 0 < gains negative r owner e.1 := by
  have hzero : e.2.isZero = false := hc.nonzero e he
  have hlt := e.2.value_lt_zero_iff
  have hgt := e.2.zero_lt_value_iff
  rw [hc.value e he] at hlt hgt
  unfold Decimal.isNeg at hlt
  unfold Decimal.isPos at hgt
  rw [hzero] at hlt hgt
  unfold gains
  cases negative with
  | true =>
    rw [if_pos rfl, neg_pos, hlt]
    simp
  | false =>
    rw [if_neg Bool.false_ne_true, hgt]
    simp

theorem Changes.abs_value {owner : String} (hc : Changes r quote owner deltas) {negative : Bool}
    {e : String × Decimal} (he : e ∈ deltas) (hpos : 0 < gains negative r owner e.1) :
    |e.2.value| = gains negative r owner e.1 := by
  unfold gains at hpos ⊢
  rw [hc.value e he]
  cases negative with
  | true =>
    rw [if_pos rfl] at hpos ⊢
    exact abs_of_neg (neg_pos.1 hpos)
  | false =>
    rw [if_neg Bool.false_ne_true] at hpos ⊢
    exact abs_of_pos hpos

/-- Every gain is among the changes with its sign. -/
theorem Changes.exists_gain {owner mint : String} (hc : Changes r quote owner deltas)
    {negative : Bool} (hmint : mint ≠ quote) (hpos : 0 < gains negative r owner mint) :
    ∃ e ∈ deltas.filter (fun e => e.2.negative == negative), e.1 = mint ∧
      |e.2.value| = gains negative r owner mint := by
  have hne : change r owner mint ≠ 0 := by
    intro hzero
    unfold gains at hpos
    rw [hzero, neg_zero, ite_self] at hpos
    exact lt_irrefl _ hpos
  obtain ⟨d, hd⟩ := hc.mem mint hmint hne
  exact ⟨(mint, d), List.mem_filter.2 ⟨hd, (hc.sign_iff hd).2 hpos⟩, rfl, hc.abs_value hd hpos⟩

theorem isForemost_dominant {owner : String} (hc : Changes r quote owner deltas)
    (negative : Bool) :
    IsForemost (dominant negative deltas)
      (deltas.filter fun e => e.2.negative == negative) := by
  have hnone : IsForemost none [] := rfl
  have hordered := hc.ordered.sublist
    (List.filter_sublist : (deltas.filter fun e => e.2.negative == negative).Sublist deltas)
  rw [← List.nil_append (deltas.filter _)] at hordered
  exact isForemost_foldl hnone hordered

/-- The dominant change leads; if there is none, nothing was gained. -/
theorem dominant_of_changes {owner : String} (hc : Changes r quote owner deltas)
    (negative : Bool) :
    (∀ l, dominant negative deltas = some l → Leads (gains negative r owner) quote l) ∧
    (dominant negative deltas = none →
      ∀ mint, mint ≠ quote → gains negative r owner mint ≤ 0) := by
  have hforemost := isForemost_dominant hc negative
  constructor
  · intro l hl
    rw [hl] at hforemost
    obtain ⟨e, he, rfl, hfirst⟩ := hforemost
    obtain ⟨hmem, hsign⟩ := List.mem_filter.1 he
    have hpos := (hc.sign_iff hmem).1 hsign
    have habs := hc.abs_value hmem hpos
    refine ⟨hc.isToken e hmem, (Decimal.value_abs e.2).trans habs, hpos, fun mint hmint => ?_,
      fun mint hmint hequal => ?_⟩
    · rcases le_or_gt (gains negative r owner mint) 0 with hle | hgt
      · exact hle.trans hpos.le
      · obtain ⟨e', he', -, habs'⟩ := hc.exists_gain hmint hgt
        rw [← habs', ← habs]
        exact (hfirst e' he').1
    · obtain ⟨e', he', hmint', habs'⟩ := hc.exists_gain hmint (hequal ▸ hpos)
      rw [← hmint']
      exact (hfirst e' he').2 (by rw [habs', habs, hequal])
  · intro hnone mint hmint
    rw [hnone] at hforemost
    refine not_lt.1 fun hpos => ?_
    obtain ⟨e, he, -⟩ := hc.exists_gain hmint hpos
    rw [show deltas.filter (fun e => e.2.negative == negative) = [] from hforemost] at he
    exact List.not_mem_nil he

end

/-! ## The legs -/

/-- What the signer's balances show in a swap between two tokens, a buy and a sale. -/
def Deals (r : TxRecord) (quote : String) (s : Signer) : Side → Prop
  | .swap => (∃ mint, mint ≠ quote ∧ change r s.address mint < 0) ∧
      ∃ mint, mint ≠ quote ∧ 0 < change r s.address mint
  | .buy => (∃ mint, mint ≠ quote ∧ 0 < change r s.address mint) ∧
      (∀ mint, mint ≠ quote → 0 ≤ change r s.address mint) ∧ quoteChange r quote s < 0
  | .sell => (∃ mint, mint ≠ quote ∧ change r s.address mint < 0) ∧
      (∀ mint, mint ≠ quote → change r s.address mint ≤ 0) ∧ 0 < quoteChange r quote s

/-- The legs of a deal: a token by the greatest change, the quote by all of its change. -/
def Dealt (r : TxRecord) (quote : String) (s : Signer) : Side → Leg → Leg → Prop
  | .swap, spent, received => Leads (fun mint => -change r s.address mint) quote spent ∧
      Leads (change r s.address) quote received
  | .buy, spent, received => spent.mint = quote ∧ spent.amount.value = |quoteChange r quote s| ∧
      Leads (change r s.address) quote received
  | .sell, spent, received => Leads (fun mint => -change r s.address mint) quote spent ∧
      received.mint = quote ∧ received.amount.value = |quoteChange r quote s|

section

variable {r : TxRecord} {quote : String} {s : Signer} {deltas : List (String × Decimal)}
  {delta : Decimal} {side : Side} {spent received : Leg}

/-- A record shows one deal at most. -/
theorem Deals.side_unique {side' : Side} (h : Deals r quote s side) (h' : Deals r quote s side') :
    side' = side := by
  -- a token that was gained and one that was lost make a swap, and nothing else
  have hlost : ∀ mint, mint ≠ quote → change r s.address mint < 0 →
      ∀ side, Deals r quote s side → side ≠ .buy := by
    rintro mint hmint hneg _ hdeal rfl
    exact absurd hneg (not_lt.2 (hdeal.2.1 mint hmint))
  have hgained : ∀ mint, mint ≠ quote → 0 < change r s.address mint →
      ∀ side, Deals r quote s side → side ≠ .sell := by
    rintro mint hmint hpos _ hdeal rfl
    exact absurd hpos (not_lt.2 (hdeal.2.1 mint hmint))
  cases side with
  | swap =>
    obtain ⟨⟨m, hm, hneg⟩, ⟨m', hm', hpos⟩⟩ := h
    cases side' with
    | swap => rfl
    | buy => exact absurd rfl (hlost m hm hneg _ h')
    | sell => exact absurd rfl (hgained m' hm' hpos _ h')
  | buy =>
    obtain ⟨⟨m, hm, hpos⟩, hnone, -⟩ := h
    cases side' with
    | buy => rfl
    | sell => exact absurd rfl (hgained m hm hpos _ h')
    | swap =>
      obtain ⟨⟨m', hm', hneg⟩, -⟩ := h'
      exact absurd hneg (not_lt.2 (hnone m' hm'))
  | sell =>
    obtain ⟨⟨m, hm, hneg⟩, hnone, -⟩ := h
    cases side' with
    | sell => rfl
    | buy => exact absurd rfl (hlost m hm hneg _ h')
    | swap =>
      obtain ⟨-, ⟨m', hm', hpos⟩⟩ := h'
      exact absurd hpos (not_lt.2 (hnone m' hm'))

/-- The legs that are read are those of a deal. -/
theorem dealt_of_legs? (hc : Changes r quote s.address deltas)
    (hd : delta.value = quoteChange r quote s)
    (h : legs? quote deltas delta = some (spent, received)) :
    Deals r quote s (Side.classify spent.mint received.mint quote) ∧
    Dealt r quote s (Side.classify spent.mint received.mint quote) spent received := by
  obtain ⟨hspent, hnoneSpent⟩ := dominant_of_changes hc true
  obtain ⟨hreceived, hnoneReceived⟩ := dominant_of_changes hc false
  unfold legs? at h
  split at h
  · rename_i l l' hl hl'
    obtain ⟨rfl, rfl⟩ := Prod.mk.inj (Option.some.inj h)
    have hs := hspent l hl
    have hr := hreceived l' hl'
    rw [Side.classify_of_ne hs.isToken hr.isToken]
    exact ⟨⟨⟨l.mint, hs.isToken, neg_pos.1 hs.positive⟩, ⟨l'.mint, hr.isToken, hr.positive⟩⟩, hs, hr⟩
  · rename_i l' hl hl'
    split at h
    · rename_i hneg
      obtain ⟨rfl, rfl⟩ := Prod.mk.inj (Option.some.inj h)
      have hr := hreceived l' hl'
      rw [Side.classify_eq_buy_iff.2 ⟨rfl, hr.isToken⟩]
      refine ⟨⟨⟨l'.mint, hr.isToken, hr.positive⟩, fun mint hmint => ?_, ?_⟩, rfl, ?_, hr⟩
      · exact neg_nonpos.1 (hnoneSpent hl mint hmint)
      · exact hd ▸ (Decimal.value_lt_zero_iff delta).2 hneg
      · rw [Decimal.value_abs, hd]
    · cases h
  · rename_i l hl hl'
    split at h
    · rename_i hpos
      obtain ⟨rfl, rfl⟩ := Prod.mk.inj (Option.some.inj h)
      have hs := hspent l hl
      have hq : 0 < quoteChange r quote s := hd ▸ (Decimal.zero_lt_value_iff delta).2 hpos
      rw [Side.classify_eq_sell_iff.2 ⟨rfl, hs.isToken⟩]
      refine ⟨⟨⟨l.mint, hs.isToken, neg_pos.1 hs.positive⟩, hnoneReceived hl', hq⟩, hs, rfl, ?_⟩
      rw [hd, abs_of_pos hq]
    · cases h
  · cases h

/-- If no legs are read, there is no deal. -/
theorem not_deals_of_legs? (hc : Changes r quote s.address deltas)
    (hd : delta.value = quoteChange r quote s) (h : legs? quote deltas delta = none)
    (side : Side) : ¬ Deals r quote s side := by
  obtain ⟨hspent, hnoneSpent⟩ := dominant_of_changes hc true
  obtain ⟨hreceived, hnoneReceived⟩ := dominant_of_changes hc false
  have hlost : dominant true deltas = none →
      ¬ ∃ mint, mint ≠ quote ∧ change r s.address mint < 0 := by
    rintro hnone ⟨mint, hmint, hneg⟩
    exact absurd (neg_pos.2 hneg) (not_lt.2 (hnoneSpent hnone mint hmint))
  have hgained : dominant false deltas = none →
      ¬ ∃ mint, mint ≠ quote ∧ 0 < change r s.address mint := by
    rintro hnone ⟨mint, hmint, hpos⟩
    exact absurd hpos (not_lt.2 (hnoneReceived hnone mint hmint))
  unfold legs? at h
  split at h
  · cases h
  · rename_i l' hl hl'
    split at h
    · cases h
    · rename_i hneg
      have hr := hreceived l' hl'
      cases side with
      | swap => exact fun hdeal => hlost hl hdeal.1
      | sell => exact fun hdeal => hlost hl hdeal.1
      | buy => exact fun hdeal => hneg ((Decimal.value_lt_zero_iff delta).1 (hd ▸ hdeal.2.2))
  · rename_i l hl hl'
    split at h
    · cases h
    · rename_i hpos
      cases side with
      | swap => exact fun hdeal => hgained hl' hdeal.2
      | buy => exact fun hdeal => hgained hl' hdeal.1
      | sell => exact fun hdeal => hpos ((Decimal.zero_lt_value_iff delta).1 (hd ▸ hdeal.2.2))
  · rename_i hl hl'
    cases side with
    | swap => exact fun hdeal => hlost hl hdeal.1
    | sell => exact fun hdeal => hlost hl hdeal.1
    | buy => exact fun hdeal => hgained hl' hdeal.1

/-- In a deal something is spent for something else. -/
theorem Dealt.positive (hs : Deals r quote s side) (h : Dealt r quote s side spent received) :
    0 < spent.amount.value ∧ 0 < received.amount.value ∧ spent.mint ≠ received.mint := by
  cases side with
  | swap =>
    obtain ⟨hl, hg⟩ := h
    refine ⟨hl.amount ▸ hl.positive, hg.amount ▸ hg.positive, fun heq => ?_⟩
    have hneg := neg_pos.1 hl.positive
    rw [heq] at hneg
    exact lt_asymm hneg hg.positive
  | buy =>
    obtain ⟨hmint, hamount, hg⟩ := h
    refine ⟨?_, hg.amount ▸ hg.positive, fun heq => hg.isToken (heq.symm.trans hmint)⟩
    rw [hamount]
    exact abs_pos.2 hs.2.2.ne
  | sell =>
    obtain ⟨hl, hmint, hamount⟩ := h
    refine ⟨hl.amount ▸ hl.positive, ?_, fun heq => hl.isToken (heq.trans hmint)⟩
    rw [hamount]
    exact abs_pos.2 hs.2.2.ne'

/-- The legs of a deal are determined, but for the scales of their amounts. -/
theorem Dealt.unique {spent' received' : Leg} (h : Dealt r quote s side spent received)
    (h' : Dealt r quote s side spent' received') :
    (spent'.mint = spent.mint ∧ spent'.amount.value = spent.amount.value) ∧
    received'.mint = received.mint ∧ received'.amount.value = received.amount.value := by
  cases side with
  | swap => exact ⟨h.1.unique h'.1, h.2.unique h'.2⟩
  | buy => exact ⟨⟨h'.1.trans h.1.symm, h'.2.1.trans h.2.1.symm⟩, h.2.2.unique h'.2.2⟩
  | sell => exact ⟨h.1.unique h'.1, h'.2.1.trans h.2.1.symm, h'.2.2.trans h.2.2.symm⟩

end

/-! ## The trade -/

section

variable {r : TxRecord} {quote : String} {s : Signer}

/-- The trade of a signer with given legs. -/
def tradeOf (r : TxRecord) (quote : String) (batchTime : Option Int64) (now : Instant) (s : Signer)
    (spent received : Leg) : Trade where
  signature := r.signature
  slot := r.slot
  blockTime := blockTime r batchTime now
  platform := (platform r).1
  programId := (platform r).2
  spent := spent
  received := received
  signer := s.address
  trackedAddress := r.trackedAddress.filter (· ≠ "")
  side := Side.classify spent.mint received.mint quote

/-- What is read of a record with a signature and a signer. -/
theorem read_eq (hblank : Text.isAllBlank r.signature = false) (hs : signer? r = some s)
    (quote : String) (batchTime : Option Int64) (now : Instant) :
    read r quote batchTime now = (do
      let deltas ← tokenDeltas r quote s.address
      let delta ← quoteDelta r quote s
      match legs? quote deltas delta with
      | none => .error (.failure (noSwap r.signature))
      | some (spent, received) => .ok (tradeOf r quote batchTime now s spent received)) := by
  unfold read
  rw [if_neg (Bool.eq_false_iff.1 hblank), hs]
  rfl

/-- With a signature and a signer, the record is read as a deal just if there is one. -/
theorem read_of_signer (hblank : Text.isAllBlank r.signature = false) (hs : signer? r = some s)
    (hx : Exact r quote s) (batchTime : Option Int64) (now : Instant) :
    (∃ spent received, read r quote batchTime now
        = .ok (tradeOf r quote batchTime now s spent received) ∧
      Deals r quote s (Side.classify spent.mint received.mint quote) ∧
      Dealt r quote s (Side.classify spent.mint received.mint quote) spent received) ∨
    read r quote batchTime now = .error (.failure (noSwap r.signature)) ∧
      ∀ side, ¬ Deals r quote s side := by
  obtain ⟨deltas, hdeltas, hc⟩ := exists_tokenDeltas hx
  obtain ⟨delta, hdelta, hd⟩ := exists_quoteDelta hx
  have hread : read r quote batchTime now = match legs? quote deltas delta with
      | none => .error (.failure (noSwap r.signature))
      | some (spent, received) => .ok (tradeOf r quote batchTime now s spent received) := by
    rw [read_eq hblank hs, hdeltas, hdelta]
    rfl
  rw [hread]
  cases hl : legs? quote deltas delta with
  | none => exact Or.inr ⟨rfl, not_deals_of_legs? hc hd hl⟩
  | some legs =>
    obtain ⟨spent, received⟩ := legs
    obtain ⟨hdeals, hdealt⟩ := dealt_of_legs? hc hd hl
    exact Or.inl ⟨spent, received, rfl, hdeals, hdealt⟩

/-- The record with its balances reported in another order, or others altogether. -/
def withBalances (r : TxRecord) (pre post : List TokenBalance) : TxRecord :=
  { r with preTokenBalances := pre, postTokenBalances := post }

theorem holdings_perm {bs bs' : List TokenBalance} (h : bs.Perm bs') (owner mint : String) :
    (holdings owner mint bs).Perm (holdings owner mint bs') := h.filterMap _

theorem change_withBalances {pre post : List TokenBalance} (hpre : pre.Perm r.preTokenBalances)
    (hpost : post.Perm r.postTokenBalances) (owner : String) :
    change (withBalances r pre post) owner = change r owner := by
  funext mint
  unfold change
  exact congrArg₂ (· - ·) (Decimal.total_perm (holdings_perm hpost owner mint))
    (Decimal.total_perm (holdings_perm hpre owner mint))

theorem quoteChange_withBalances {pre post : List TokenBalance}
    (hpre : pre.Perm r.preTokenBalances) (hpost : post.Perm r.postTokenBalances) (quote : String)
    (s : Signer) : quoteChange (withBalances r pre post) quote s = quoteChange r quote s := by
  unfold quoteChange
  rw [change_withBalances hpre hpost]
  rfl

/-- A deal is the same whatever the order in which balances are reported. -/
theorem deals_withBalances {pre post : List TokenBalance} (hpre : pre.Perm r.preTokenBalances)
    (hpost : post.Perm r.postTokenBalances) (quote : String) (s : Signer) :
    Deals (withBalances r pre post) quote s = Deals r quote s ∧
      Dealt (withBalances r pre post) quote s = Dealt r quote s := by
  have hchange := change_withBalances hpre hpost s.address
  have hquote := quoteChange_withBalances hpre hpost quote s
  constructor
  · funext side
    cases side with
    | swap => simp only [Deals, hchange]
    | buy => simp only [Deals, hchange, hquote]
    | sell => simp only [Deals, hchange, hquote]
  · funext side spent received
    cases side with
    | swap => simp only [Dealt, hchange]
    | buy => simp only [Dealt, hchange, hquote]
    | sell => simp only [Dealt, hchange, hquote]

theorem agrees_tradeOf {pre post : List TokenBalance} {batchTime : Option Int64} {now : Instant}
    {spent received spent' received' : Leg}
    (hspent : spent'.mint = spent.mint ∧ spent'.amount.value = spent.amount.value)
    (hreceived : received'.mint = received.mint ∧
      received'.amount.value = received.amount.value) :
    (tradeOf r quote batchTime now s spent received).Agrees
      (tradeOf (withBalances r pre post) quote batchTime now s spent' received') where
  same := by
    obtain ⟨mint, amount⟩ := spent'
    obtain ⟨mint', amount'⟩ := received'
    obtain rfl : mint = spent.mint := hspent.1
    obtain rfl : mint' = received.mint := hreceived.1
    rfl
  spent := hspent.2
  received := hreceived.2

/-- With the same signer, the record is read the same. -/
theorem read_withBalances {pre post : List TokenBalance} (hpre : pre.Perm r.preTokenBalances)
    (hpost : post.Perm r.postTokenBalances) (hblank : Text.isAllBlank r.signature = false)
    (hs : signer? r = some s) (hs' : signer? (withBalances r pre post) = some s)
    (hx : Exact r quote s) (hx' : Exact (withBalances r pre post) quote s)
    (batchTime : Option Int64) (now : Instant) :
    (∃ t t', read r quote batchTime now = .ok t ∧
      read (withBalances r pre post) quote batchTime now = .ok t' ∧ t.Agrees t') ∨
    ∃ e, read r quote batchTime now = .error e ∧
      read (withBalances r pre post) quote batchTime now = .error e := by
  obtain ⟨hdeals, hdealt⟩ := deals_withBalances hpre hpost quote s
  have hread' := read_of_signer (r := withBalances r pre post) hblank hs' hx' batchTime now
  rw [hdeals, hdealt] at hread'
  rcases read_of_signer hblank hs hx batchTime now with
    ⟨spent, received, hok, hdeal, hlegs⟩ | ⟨herror, hnone⟩
  · rcases hread' with ⟨spent', received', hok', hdeal', hlegs'⟩ | ⟨-, hnone'⟩
    · rw [hdeal.side_unique hdeal'] at hlegs'
      obtain ⟨hspent, hreceived⟩ := hlegs.unique hlegs'
      exact Or.inl ⟨_, _, hok, hok', agrees_tradeOf hspent hreceived⟩
    · exact absurd hdeal (hnone' _)
  · rcases hread' with ⟨_, _, _, hdeal', _⟩ | ⟨herror', -⟩
    · exact absurd hdeal' (hnone _)
    · exact Or.inr ⟨_, herror, herror'⟩

/-- Without a signature or a signer there is nothing to read. -/
theorem read_refused (h : ¬ (Text.isAllBlank r.signature = false ∧ ∃ s, signer? r = some s))
    (quote : String) (batchTime : Option Int64) (now : Instant) :
    read r quote batchTime now = .error (.failure
      (if Text.isAllBlank r.signature then noSignature else noSigner r.signature)) := by
  unfold read
  cases hblank : Text.isAllBlank r.signature with
  | true => rfl
  | false =>
    have hnone : signer? r = none := by
      cases hs : signer? r with
      | none => rfl
      | some s => exact absurd ⟨hblank, s, hs⟩ h
    rw [hnone]
    rfl

/-- Take a record of which no sum over the balances of its signer is rounded. It is read as a trade
just if its signature is not blank, it has a signer, and that signer's balances show a deal;
otherwise reading it fails for its form. The trade is the signer's, its direction is that of the
deal, and its legs are the greatest changes. In whatever order balances are reported, the trade is
the same, as long as its signer is. -/
theorem read_of_exact (r : TxRecord) (quote : String) (batchTime : Option Int64) (now : Instant)
    (hx : ∀ s, signer? r = some s → Exact r quote s) :
    ((∃ t, read r quote batchTime now = .ok t) ↔ Text.isAllBlank r.signature = false ∧
      ∃ s, signer? r = some s ∧ ∃ side, Deals r quote s side) ∧
    (∀ e, read r quote batchTime now = .error e → ∃ f, e = .failure f ∧ f.kind = .parse) ∧
    (∀ t, read r quote batchTime now = .ok t → ∃ s, signer? r = some s ∧ t.signer = s.address ∧
      Deals r quote s t.side ∧ Dealt r quote s t.side t.spent t.received ∧
      0 < t.spent.amount.value ∧ 0 < t.received.amount.value ∧
      t.spent.mint ≠ t.received.mint) ∧
    ∀ pre post, pre.Perm r.preTokenBalances → post.Perm r.postTokenBalances →
      signer? (withBalances r pre post) = signer? r →
      (∀ s, signer? r = some s → Exact (withBalances r pre post) quote s) →
      (∃ t t', read r quote batchTime now = .ok t ∧
        read (withBalances r pre post) quote batchTime now = .ok t' ∧ t.Agrees t') ∨
      ∃ e, read r quote batchTime now = .error e ∧
        read (withBalances r pre post) quote batchTime now = .error e := by
  by_cases hsigned : Text.isAllBlank r.signature = false ∧ ∃ s, signer? r = some s
  · obtain ⟨hblank, s, hs⟩ := hsigned
    have hsame : ∀ s', signer? r = some s' → s' = s := fun s' hs' =>
      Option.some.inj (hs'.symm.trans hs)
    have horder : ∀ pre post, pre.Perm r.preTokenBalances → post.Perm r.postTokenBalances →
        signer? (withBalances r pre post) = signer? r →
        (∀ s, signer? r = some s → Exact (withBalances r pre post) quote s) → _ :=
      fun pre post hpre hpost hsigner hx' => read_withBalances hpre hpost hblank hs
        (hsigner.trans hs) (hx s hs) (hx' s hs) batchTime now
    rcases read_of_signer hblank hs (hx s hs) batchTime now with
      ⟨spent, received, hok, hdeal, hlegs⟩ | ⟨herror, hnone⟩
    · refine ⟨iff_of_true ⟨_, hok⟩ ⟨hblank, s, hs, _, hdeal⟩, fun e he => ?_, fun t ht => ?_, horder⟩
      · exact nomatch hok.symm.trans he
      · obtain rfl := Except.ok.inj (hok.symm.trans ht)
        exact ⟨s, hs, rfl, hdeal, hlegs, hlegs.positive hdeal⟩
    · refine ⟨iff_of_false ?_ ?_, fun e he => ?_, fun t ht => ?_, horder⟩
      · rintro ⟨t, ht⟩
        exact nomatch herror.symm.trans ht
      · rintro ⟨-, s', hs', side, hdeal⟩
        exact hnone side (hsame s' hs' ▸ hdeal)
      · exact ⟨_, (Except.error.inj (herror.symm.trans he)).symm, rfl⟩
      · exact nomatch herror.symm.trans ht
  · have herror := read_refused hsigned quote batchTime now
    refine ⟨iff_of_false ?_ ?_, fun e he => ?_, fun t ht => ?_, fun pre post _ _ hsigner _ => ?_⟩
    · rintro ⟨t, ht⟩
      exact nomatch herror.symm.trans ht
    · rintro ⟨hblank, s, hs, -⟩
      exact hsigned ⟨hblank, s, hs⟩
    · refine ⟨_, (Except.error.inj (herror.symm.trans he)).symm, ?_⟩
      split
      · rfl
      · rfl
    · exact nomatch herror.symm.trans ht
    · have herror' := read_refused (r := withBalances r pre post) (hsigner ▸ hsigned) quote
        batchTime now
      exact Or.inr ⟨_, herror, herror'⟩

end

/-- A balance whose amount is told as a text. -/
def held (owner mint amount : String) : TokenBalance where
  accountIndex := none
  mint := mint
  owner := some owner
  amount := { TokenAmount.none with uiAmountString := some amount }

/-- Ann loses as much of one token as of another and gains a third one; Bo's balance and one that
cannot be told do not count. -/
def annSwaps : TxRecord where
  signature := "sig"
  slot := 7
  blockTime := some 0
  trackedAddress := none
  signer := none
  accountKeys := [.plain "payer", .parsed "ann" true]
  instructions := []
  preBalances := [9, 5000000000]
  postBalances := [9, 4999995000]
  preTokenBalances := [held "ann" "tin" "3", held "ann" "lead" "2", held "ann" "lead" "1.0",
    held "bo" "zinc" "8", held "ann" "zinc" "much"]
  postTokenBalances := [held "ann" "zinc" "5", held "ann" "sol" "0.25"]
  logMessages := []

theorem read_annSwaps :
    (∀ s, signer? annSwaps = some s → Exact annSwaps "sol" s) ∧
    ∃ t t', read annSwaps "sol" none ⟨0, false⟩ = .ok t ∧ t.signer = "ann" ∧ t.side = .swap ∧
      Leads (fun mint => -change annSwaps "ann" mint) "sol" t.spent ∧
      Leads (change annSwaps "ann") "sol" t.received ∧
      read (withBalances annSwaps annSwaps.preTokenBalances.reverse
        annSwaps.postTokenBalances.reverse) "sol" none ⟨0, false⟩ = .ok t' ∧ t.Agrees t' := by
  have hsigner : signer? annSwaps = some ⟨"ann", 1⟩ := by decide
  have hx : ∀ s, signer? annSwaps = some s → Exact annSwaps "sol" s := by
    intro s hs
    obtain rfl := Option.some.inj (hsigner.symm.trans hs)
    decide +kernel
  have hx' : ∀ s, signer? annSwaps = some s → Exact (withBalances annSwaps
      annSwaps.preTokenBalances.reverse annSwaps.postTokenBalances.reverse) "sol" s := by
    intro s hs
    obtain rfl := Option.some.inj (hsigner.symm.trans hs)
    decide +kernel
  have hswap : Deals annSwaps "sol" ⟨"ann", 1⟩ .swap :=
    ⟨⟨"tin", by decide, by decide +kernel⟩, ⟨"zinc", by decide, by decide +kernel⟩⟩
  obtain ⟨hiff, -, hok, horder⟩ := read_of_exact annSwaps "sol" none ⟨0, false⟩ hx
  obtain ⟨t, ht⟩ := hiff.2 ⟨by decide, _, hsigner, _, hswap⟩
  obtain ⟨s, hs, hown, hdeal, hlegs, -⟩ := hok t ht
  obtain rfl := Option.some.inj (hsigner.symm.trans hs)
  have hside : t.side = .swap := hswap.side_unique hdeal
  rw [hside] at hlegs
  rcases horder _ _ (List.reverse_perm _) (List.reverse_perm _) (by decide) hx' with
    ⟨t₁, t', ht₁, ht', hagrees⟩ | ⟨e, he, -⟩
  · obtain rfl := Except.ok.inj (ht.symm.trans ht₁)
    exact ⟨hx, t, t', ht, hown, hside, hlegs.1, hlegs.2, ht', hagrees⟩
  · exact nomatch ht.symm.trans he

end SwapReading

end SwapFloor
