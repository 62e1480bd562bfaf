import SwapFloor.Proofs.Decimal.Value
import SwapFloor.Proofs.Ingest.Turnover

/-!
# The changes of a signer's balances

Amounts are taken up into a table by their mints, those before a transaction subtracted, those
after it added. Seen from one mint only its own amounts matter, so as long as its sums are exact,
what comes out is the difference of the two totals. The quote comes apart from the tokens, with the
lamports of one account.

Main statements: `exists_tokenDeltas` and `exists_quoteDelta`.
-/

namespace SwapFloor.SwapReading

/-! ## Balances as numbers -/

/-- What an owner holds of a token, as far as the amounts can be told. -/
def holdings (owner mint : String) (bs : List TokenBalance) : List Decimal :=
  bs.filterMap fun b => if b.owner = some owner ∧ b.mint = mint then b.amount.toDecimal? else none

/-- The change of an owner's balance of a token. -/
def change (r : TxRecord) (owner mint : String) : ℚ :=
  Decimal.total (holdings owner mint r.postTokenBalances)
    - Decimal.total (holdings owner mint r.preTokenBalances)

/-- The change in lamports of the account at an index, in whole units; none if its lamports are not
told before and after. -/
def lamports (r : TxRecord) (index : Nat) : ℚ :=
  match r.preBalances[index]?, r.postBalances[index]? with
  | some pre, some post => ((post.toNat : ℚ) - pre.toNat) / 10 ^ 9
  | _, _ => 0

/-- The change of the signer's quote. -/
def quoteChange (r : TxRecord) (quote : String) (s : Signer) : ℚ :=
  lamports r s.index + change r s.address quote

/-- The sums that make the change of a token are neither rounded nor out of range. -/
structure ExactToken (r : TxRecord) (owner mint : String) : Prop where
  less : Decimal.zero.ExactLess (holdings owner mint r.preTokenBalances)
  plus : ∀ d ∈ (holdings owner mint r.preTokenBalances).foldlM Decimal.sub .zero,
    d.ExactFrom (holdings owner mint r.postTokenBalances)

/-- Neither are those that make the change of the quote. -/
structure ExactQuote (r : TxRecord) (quote : String) (s : Signer) : Prop where
  post : Decimal.zero.ExactFrom (holdings s.address quote r.postTokenBalances)
  pre : Decimal.zero.ExactFrom (holdings s.address quote r.preTokenBalances)
  plus : ∀ post ∈ Decimal.sum (holdings s.address quote r.postTokenBalances),
    (lamportDelta r s.index).ExactFrom [post]
  less : ∀ post ∈ Decimal.sum (holdings s.address quote r.postTokenBalances),
    ∀ pre ∈ Decimal.sum (holdings s.address quote r.preTokenBalances),
    ∀ d ∈ (lamportDelta r s.index).add post, d.ExactLess [pre]

/-- No sum over the signer's balances is rounded or out of range. -/
structure Exact (r : TxRecord) (quote : String) (s : Signer) : Prop where
  tokens : ∀ mint, mint ≠ quote → ExactToken r s.address mint
  quote : ExactQuote r quote s

section

variable {r : TxRecord} {owner mint quote : String} {s : Signer}

theorem exactToken_iff : ExactToken r owner mint ↔
    Decimal.zero.ExactLess (holdings owner mint r.preTokenBalances) ∧
    ∀ d ∈ (holdings owner mint r.preTokenBalances).foldlM Decimal.sub .zero,
      d.ExactFrom (holdings owner mint r.postTokenBalances) :=
  ⟨fun h => ⟨h.less, h.plus⟩, fun h => ⟨h.1, h.2⟩⟩

instance : Decidable (ExactToken r owner mint) := decidable_of_iff _ exactToken_iff.symm

instance : Decidable (ExactQuote r quote s) :=
  decidable_of_iff
    (Decimal.zero.ExactFrom (holdings s.address quote r.postTokenBalances) ∧
      Decimal.zero.ExactFrom (holdings s.address quote r.preTokenBalances) ∧
      (∀ post ∈ Decimal.sum (holdings s.address quote r.postTokenBalances),
        (lamportDelta r s.index).ExactFrom [post]) ∧
      ∀ post ∈ Decimal.sum (holdings s.address quote r.postTokenBalances),
        ∀ pre ∈ Decimal.sum (holdings s.address quote r.preTokenBalances),
        ∀ d ∈ (lamportDelta r s.index).add post, d.ExactLess [pre])
    ⟨fun h => ⟨h.1, h.2.1, h.2.2.1, h.2.2.2⟩, fun h => ⟨h.post, h.pre, h.plus, h.less⟩⟩

theorem holdings_eq_nil {bs : List TokenBalance} (h : mint ∉ bs.map (·.mint)) :
    holdings owner mint bs = [] :=
  List.filterMap_eq_nil_iff.2 fun b hb => if_neg fun e => h (List.mem_map.2 ⟨b, hb, e.2⟩)

/-- A token that is not reported has not changed. -/
theorem change_eq_zero
    (h : mint ∉ (r.preTokenBalances ++ r.postTokenBalances).map (·.mint)) :
    change r owner mint = 0 := by
  rw [List.map_append, List.mem_append, not_or] at h
  unfold change
  rw [holdings_eq_nil h.1, holdings_eq_nil h.2]
  exact sub_self _

/-- Only the mints that are reported matter. -/
theorem exact_iff : Exact r quote s ↔
    (∀ mint ∈ (r.preTokenBalances ++ r.postTokenBalances).map (·.mint), mint ≠ quote →
      ExactToken r s.address mint) ∧ ExactQuote r quote s := by
  refine ⟨fun h => ⟨fun mint _ => h.tokens mint, h.quote⟩, fun ⟨ht, hq⟩ => ⟨fun mint hm => ?_, hq⟩⟩
  by_cases hin : mint ∈ (r.preTokenBalances ++ r.postTokenBalances).map (·.mint)
  · exact ht mint hin hm
  · rw [List.map_append, List.mem_append, not_or] at hin
    refine ⟨?_, fun d _ => ?_⟩
    · rw [holdings_eq_nil hin.1]
      trivial
    · rw [holdings_eq_nil hin.2]
      trivial

instance : Decidable (Exact r quote s) := decidable_of_iff _ exact_iff.symm

end

/-! ## Amounts by mint -/

/-- The amounts of a mint. -/
def amountsIn (mint : String) (es : List (String × Decimal)) : List Decimal :=
  es.filterMap fun e => if e.1 = mint then some e.2 else none

section

variable {mint owner quote : String} {e : String × Decimal} {es : List (String × Decimal)}

theorem amountsIn_cons_self (e : String × Decimal) (es : List (String × Decimal)) :
    amountsIn e.1 (e :: es) = e.2 :: amountsIn e.1 es :=
  List.filterMap_cons_some (if_pos rfl)

theorem amountsIn_cons_of_ne (h : e.1 ≠ mint) : amountsIn mint (e :: es) = amountsIn mint es :=
  List.filterMap_cons_none (if_neg h)

theorem amountsIn_amountsOf {p : String → Bool} (hp : p mint = true) (owner : String)
    (bs : List TokenBalance) : amountsIn mint (amountsOf owner p bs) = holdings owner mint bs := by
  unfold amountsIn amountsOf holdings
  rw [List.filterMap_filterMap]
  refine List.filterMap_congr fun b _ => ?_
  by_cases hm : b.mint = mint
  · subst hm
    by_cases ho : b.owner = some owner
    · rw [if_pos ⟨ho, hp⟩, if_pos ⟨ho, rfl⟩]
      cases b.amount.toDecimal? with
      | none => rfl
      | some d => exact if_pos rfl
    · rw [if_neg fun e => ho e.1, if_neg fun e => ho e.1]
      rfl
  · rw [if_neg (c := b.owner = some owner ∧ b.mint = mint) fun e => hm e.2]
    split
    · cases b.amount.toDecimal? with
      | none => rfl
      | some d => exact if_neg hm
    · rfl

theorem amountsIn_amountsOf_of_not {p : String → Bool} (hp : p mint = false) (owner : String)
    (bs : List TokenBalance) : amountsIn mint (amountsOf owner p bs) = [] := by
  refine List.filterMap_eq_nil_iff.2 fun e he => if_neg ?_
  rintro rfl
  obtain ⟨b, _, hb⟩ := List.mem_filterMap.1 he
  split at hb
  · rename_i h
    obtain ⟨d, _, rfl⟩ := Option.map_eq_some_iff.1 hb
    exact nomatch h.2.symm.trans hp
  · cases hb

/-- The quote is no token of its own. -/
theorem amountsIn_tokens (mint owner quote : String) (bs : List TokenBalance) :
    amountsIn mint (amountsOf owner (fun m => m != quote) bs)
      = if mint = quote then [] else holdings owner mint bs := by
  split
  · rename_i h
    exact amountsIn_amountsOf_of_not (by simp [h]) owner bs
  · rename_i h
    exact amountsIn_amountsOf (by simp [h]) owner bs

/-- With one mint only, nothing is left out. -/
theorem map_snd_amountsOf (owner quote : String) (bs : List TokenBalance) :
    (amountsOf owner (· == quote) bs).map Prod.snd = holdings owner quote bs := by
  rw [← amountsIn_amountsOf (p := (· == quote)) (beq_self_eq_true quote), amountsIn,
    ← List.filterMap_eq_map]
  refine List.filterMap_congr fun e he => ?_
  obtain ⟨b, _, hb⟩ := List.mem_filterMap.1 he
  split at hb
  · rename_i h
    obtain ⟨d, _, rfl⟩ := Option.map_eq_some_iff.1 hb
    exact (if_pos (beq_iff_eq.1 h.2)).symm
  · cases hb

end

/-! ## Taking amounts up into a table -/

/-- One after the other, amounts are taken up into a table, each one for its mint. -/
theorem exists_foldlM_exact (b : Breakdown) (op : Decimal → Decimal → Option Decimal)
    (f : ℚ → ℚ → ℚ) (es : List (String × Decimal)) (t : Table String Decimal)
    (hx : ∀ mint, ((t.get? mint).getD .zero).ExactBy op f (amountsIn mint es)) :
    ∃ t', es.foldlM (fun t e => (orBreak b (op ((t.get? e.1).getD .zero) e.2)).map
        fun d => t.insert e.1 d) t = .ok t' ∧
      ∀ mint, (amountsIn mint es).foldlM op ((t.get? mint).getD .zero)
        = some ((t'.get? mint).getD .zero) := by
  induction es generalizing t with
  | nil => exact ⟨t, rfl, fun mint => rfl⟩
  | cons e es ih =>
    have hhere := hx e.1
    rw [amountsIn_cons_self] at hhere
    obtain ⟨c, hc, -, hrest⟩ := hhere
    have hget : ∀ mint, ((t.insert e.1 c).get? mint).getD .zero
        = if e.1 = mint then c else (t.get? mint).getD .zero := by
      intro mint
      rw [Table.get?_insert]
      by_cases hm : mint = e.1
      · rw [if_pos hm, if_pos hm.symm]
        rfl
      · rw [if_neg hm, if_neg (Ne.symm hm)]
    obtain ⟨t', ht', hfold⟩ := ih (t.insert e.1 c) fun mint => by
      rw [hget]
      by_cases hm : e.1 = mint
      · rw [if_pos hm, ← hm]
        exact hrest
      · rw [if_neg hm, ← amountsIn_cons_of_ne hm]
        exact hx mint
    refine ⟨t', ?_, fun mint => ?_⟩
    · rw [List.foldlM_cons, orBreak_eq_ok hc]
      exact ht'
    · rw [← hfold, hget]
      by_cases hm : e.1 = mint
      · rw [if_pos hm, ← hm, amountsIn_cons_self, List.foldlM_cons, hc]
        rfl
      · rw [if_neg hm, amountsIn_cons_of_ne hm]

/-! ## The changes that are read -/

/-- The tokens other than the quote whose balances changed, in order of their mints, each one with
its change. -/
structure Changes (r : TxRecord) (quote owner : String) (deltas : List (String × Decimal)) :
    Prop where
  mem : ∀ mint, mint ≠ quote → change r owner mint ≠ 0 → ∃ d, (mint, d) ∈ deltas
  isToken : ∀ e ∈ deltas, e.1 ≠ quote
  value : ∀ e ∈ deltas, e.2.value = change r owner e.1
  nonzero : ∀ e ∈ deltas, e.2.isZero = false
  ordered : deltas.Pairwise fun a b => a.1 ≤ b.1

section

variable {r : TxRecord} {quote : String} {s : Signer}

/-- The table of changes holds the difference of the totals for every token, and nothing for the
quote. -/
theorem exists_table (hx : Exact r quote s) :
    ∃ t₁ t₂, (amountsOf s.address (fun m => m != quote) r.preTokenBalances).foldlM spend .empty
        = .ok t₁ ∧
      (amountsOf s.address (fun m => m != quote) r.postTokenBalances).foldlM gain t₁ = .ok t₂ ∧
      (∀ mint, mint ≠ quote →
        ((t₂.get? mint).getD .zero).value = change r s.address mint) ∧
      (t₂.get? quote).getD .zero = .zero := by
  obtain ⟨t₁, h₁, hpre⟩ := exists_foldlM_exact .subtraction Decimal.sub (· - ·)
    (amountsOf s.address (fun m => m != quote) r.preTokenBalances) .empty fun mint => by
      rw [amountsIn_tokens]
      split
      · trivial
      · rename_i h
        exact (hx.tokens mint h).less
  obtain ⟨t₂, h₂, hpost⟩ := exists_foldlM_exact .addition Decimal.add (· + ·)
    (amountsOf s.address (fun m => m != quote) r.postTokenBalances) t₁ fun mint => by
      have hmint := hpre mint
      rw [amountsIn_tokens] at hmint ⊢
      split
      · trivial
      · rename_i h
        rw [if_neg h] at hmint
        exact Decimal.exactFrom_iff.1 ((hx.tokens mint h).plus _ hmint)
  refine ⟨t₁, t₂, h₁, h₂, fun mint hmint => ?_, ?_⟩
  · have hless := hpre mint
    have hplus := hpost mint
    rw [amountsIn_tokens, if_neg hmint] at hless hplus
    obtain ⟨c, hc, hcval⟩ := (hx.tokens mint hmint).less.exists_foldlM
    obtain ⟨d, hd, hdval⟩ :=
      (Decimal.exactFrom_iff.1 ((hx.tokens mint hmint).plus _ hless)).exists_foldlM
    obtain rfl := Option.some.inj (hless.symm.trans hc)
    obtain rfl := Option.some.inj (hplus.symm.trans hd)
    rw [hdval, Decimal.foldl_add, hcval, Decimal.foldl_sub, Decimal.value_zero]
    unfold change
    ring
  · have hless := hpre quote
    have hplus := hpost quote
    rw [amountsIn_tokens, if_pos rfl] at hless hplus
    exact (Option.some.inj hplus).symm.trans (Option.some.inj hless).symm

theorem changes_of_table {owner : String} {t : Table String Decimal}
    (hvalue : ∀ mint, mint ≠ quote → ((t.get? mint).getD .zero).value = change r owner mint)
    (hquote : (t.get? quote).getD .zero = .zero) :
    Changes r quote owner
      ((t.entries.filter fun e => !e.2.isZero).mergeSort fun a b => a.1 ≤ b.1) := by
  have hkept : ∀ e : String × Decimal,
      e ∈ (t.entries.filter fun e => !e.2.isZero).mergeSort (fun a b => a.1 ≤ b.1) ↔
        t.get? e.1 = some e.2 ∧ e.2.isZero = false := by
    intro e
    rw [List.mem_mergeSort, List.mem_filter, Table.get?_eq_some_iff, Bool.not_eq_true']
  have hother : ∀ e : String × Decimal, t.get? e.1 = some e.2 → e.2.isZero = false →
      e.1 ≠ quote := by
    rintro ⟨mint, d⟩ hget hzero rfl
    rw [hget] at hquote
    obtain rfl : d = .zero := hquote
    exact nomatch hzero
  refine ⟨fun mint hmint hne => ?_, fun e he => ?_, fun e he => ?_, fun e he => ?_, ?_⟩
  · rw [← hvalue mint hmint] at hne
    cases hget : t.get? mint with
    | none =>
      rw [hget] at hne
      exact absurd Decimal.value_zero hne
    | some d =>
      rw [hget] at hne
      exact ⟨d, (hkept (mint, d)).2
        ⟨hget, Bool.eq_false_iff.2 fun hz => hne ((Decimal.value_eq_zero_iff d).2 hz)⟩⟩
  · obtain ⟨hget, hzero⟩ := (hkept e).1 he
    exact hother e hget hzero
  · obtain ⟨hget, hzero⟩ := (hkept e).1 he
    have hval := hvalue e.1 (hother e hget hzero)
    rwa [hget] at hval
  · exact ((hkept e).1 he).2
  · refine (List.pairwise_mergeSort (fun a b c hab hbc => ?_) (fun a b => ?_) _).imp
      fun hab => of_decide_eq_true hab
    · exact decide_eq_true (String.le_trans (of_decide_eq_true hab) (of_decide_eq_true hbc))
    · rw [Bool.or_eq_true, decide_eq_true_eq, decide_eq_true_eq]
      exact String.le_total a.1 b.1

theorem exists_tokenDeltas (hx : Exact r quote s) :
    ∃ deltas, tokenDeltas r quote s.address = .ok deltas ∧ Changes r quote s.address deltas := by
  obtain ⟨t₁, t₂, h₁, h₂, hvalue, hquote⟩ := exists_table hx
  exact ⟨_, bind_eq_ok_iff.2 ⟨t₁, h₁, bind_eq_ok_iff.2 ⟨t₂, h₂, rfl⟩⟩,
    changes_of_table hvalue hquote⟩

theorem value_lamportDelta (r : TxRecord) (index : Nat) :
    (lamportDelta r index).value = lamports r index := by
  unfold lamportDelta lamports
  cases r.preBalances[index]? with
  | none => exact Decimal.value_zero
  | some pre =>
    cases r.postBalances[index]? with
    | none => exact Decimal.value_zero
    | some post =>
      have hpre := pre.toNat_lt
      have hpost := post.toNat_lt
      refine (Decimal.value_ofIntScaled?_getD (by omega) (by decide)).trans ?_
      push_cast
      rfl

theorem exists_wrapped {owner : String} {bs : List TokenBalance}
    (hx : Decimal.zero.ExactFrom (holdings owner quote bs)) :
    ∃ d, wrapped quote owner bs = .ok d ∧ Decimal.sum (holdings owner quote bs) = some d ∧
      d.value = Decimal.total (holdings owner quote bs) := by
  obtain ⟨d, hd, hval⟩ := (Decimal.exactFrom_iff.1 hx).exists_foldlM
  rw [Decimal.foldl_add, Decimal.value_zero, zero_add] at hval
  refine ⟨d, orBreak_eq_ok ?_, hd, hval⟩
  rw [map_snd_amountsOf]
  exact hd

theorem exists_quoteDelta (hx : Exact r quote s) :
    ∃ d, quoteDelta r quote s = .ok d ∧ d.value = quoteChange r quote s := by
  obtain ⟨post, hpost, hpostSum, hpostVal⟩ := exists_wrapped hx.quote.post
  obtain ⟨pre, hpre, hpreSum, hpreVal⟩ := exists_wrapped hx.quote.pre
  obtain ⟨c, hc, hcval, -⟩ := hx.quote.plus post hpostSum
  obtain ⟨d, hd, hdval, -⟩ := hx.quote.less post hpostSum pre hpreSum c hc
  refine ⟨d, bind_eq_ok_iff.2 ⟨post, hpost, bind_eq_ok_iff.2 ⟨c, orBreak_eq_ok hc,
    bind_eq_ok_iff.2 ⟨pre, hpre, orBreak_eq_ok hd⟩⟩⟩, ?_⟩
  rw [hdval, hcval, hpostVal, hpreVal, value_lamportDelta]
  unfold quoteChange change
  ring

end

end SwapFloor.SwapReading
