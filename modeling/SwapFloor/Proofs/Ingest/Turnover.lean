import SwapFloor.Ingest.SwapReading
import SwapFloor.Proofs.Decimal.Fitting

/-!
# The turnover of a record

All amounts of a record together, each rounded up. Whatever is added up while a trade is read off
the record are some of these amounts, and lamports. If they fit together, reading does not break
down, and no leg of the trade is larger.

Main statement: `read_of_turnover`.
-/

namespace SwapFloor

/-- More whole units of the quote than the lamports that an account can hold. -/
def maxLamportUnits : Nat := 18446744074

/-- An amount rounded up; one that cannot be told counts for nothing. -/
def TokenBalance.size (b : TokenBalance) : Nat := (b.amount.toDecimal?.map Decimal.size).getD 0

/-- All that balances come to. -/
def TokenBalance.total (bs : List TokenBalance) : Nat := (bs.map size).sum

/-- All that a record could make of its signer's balances. -/
def TxRecord.turnover (r : TxRecord) : Nat :=
  TokenBalance.total r.preTokenBalances + TokenBalance.total r.postTokenBalances + maxLamportUnits

/-- The turnover of a record as it is delivered; one that cannot be read has none. -/
def TxRecord.turnoverOf (j : Json) : Nat :=
  match ofJson j with
  | .ok r => r.turnover
  | .error _ => 0

/-- The turnover of what was looked up. -/
def TxRecord.turnoverFound : Except Failure (Option TxRecord) → Nat
  | .ok (some r) => r.turnover
  | .ok none | .error _ => 0

def Batch.turnover (b : Batch) : Nat := (b.records.map TxRecord.turnoverOf).sum

namespace SwapReading

/-! ## Changes of balances -/

theorem sum_amountsOf_le (owner : String) (p : String → Bool) (bs : List TokenBalance) :
    ((amountsOf owner p bs).map (·.2.size)).sum ≤ TokenBalance.total bs := by
  unfold TokenBalance.total
  induction bs with
  | nil => exact Nat.le_refl _
  | cons b bs ih =>
    unfold amountsOf at ih ⊢
    rw [List.map_cons, List.sum_cons, List.filterMap_cons]
    unfold TokenBalance.size at ih ⊢
    split
    · exact Nat.le_trans ih (Nat.le_add_left ..)
    · rename_i e he
      split at he
      · obtain ⟨d, hd, rfl⟩ := Option.map_eq_some_iff.1 he
        rw [List.map_cons, List.sum_cons, hd]
        exact Nat.add_le_add_left ih _
      · cases he

/-- One after the other, amounts are taken up into a table as long as they fit. -/
theorem foldlM_within {f : Table String Decimal → String × Decimal →
      Except Trouble (Table String Decimal)}
    (hf : ∀ t n e, Table.Within n t → n + e.2.size < 2 ^ 96 →
      ∃ t', f t e = .ok t' ∧ t'.Within (n + e.2.size))
    (es : List (String × Decimal)) {t : Table String Decimal} {n : Nat} (ht : t.Within n)
    (hfit : n + (es.map (·.2.size)).sum < 2 ^ 96) :
    ∃ t', es.foldlM f t = .ok t' ∧ t'.Within (n + (es.map (·.2.size)).sum) := by
  induction es generalizing t n with
  | nil => exact ⟨t, rfl, ht⟩
  | cons e es ih =>
    rw [List.map_cons, List.sum_cons, ← Nat.add_assoc] at hfit ⊢
    obtain ⟨t₁, h₁, hw₁⟩ := hf t n e ht (by omega)
    obtain ⟨t₂, h₂, hw₂⟩ := ih hw₁ hfit
    refine ⟨t₂, ?_, hw₂⟩
    rw [List.foldlM_cons, h₁]
    exact h₂

theorem orBreak_eq_ok {α : Type} {b : Breakdown} {x : Option α} {a : α} (h : x = some a) :
    orBreak b x = .ok a := by
  rw [h]
  rfl

/-- Subtracting and adding differ only in what they do with the two amounts. -/
theorem change_within {b : Breakdown} {op : Decimal → Decimal → Option Decimal}
    (hop : ∀ {x y m n}, Decimal.Within m x → Decimal.Within n y → m + n < 2 ^ 96 →
      ∃ c, op x y = some c ∧ c.Within (m + n))
    {t : Table String Decimal} {n : Nat} {e : String × Decimal} (ht : t.Within n)
    (hfit : n + e.2.size < 2 ^ 96) :
    ∃ t', (orBreak b (op ((t.get? e.1).getD .zero) e.2)).map (fun d => t.insert e.1 d) = .ok t' ∧
      t'.Within (n + e.2.size) := by
  obtain ⟨c, hc, hw⟩ := hop (ht.getD e.1) e.2.within_size hfit
  refine ⟨t.insert e.1 c, ?_, (ht.mono (Nat.le_add_right ..)).insert hw e.1⟩
  rw [orBreak_eq_ok hc]
  rfl

variable {r : TxRecord}

theorem tokenDeltas_of_turnover (h : r.turnover < 2 ^ 96) (quote owner : String) :
    ∃ deltas, tokenDeltas r quote owner = .ok deltas ∧
      ∀ e ∈ deltas, e.2.Within r.turnover := by
  have hpre := sum_amountsOf_le owner (fun m => m != quote) r.preTokenBalances
  have hpost := sum_amountsOf_le owner (fun m => m != quote) r.postTokenBalances
  unfold TxRecord.turnover at h ⊢
  obtain ⟨t₁, h₁, hw₁⟩ := foldlM_within (f := spend)
    (fun _ _ _ => change_within Decimal.Within.sub)
    (amountsOf owner (fun m => m != quote) r.preTokenBalances)
    (Table.Within.empty (n := 0)) (by omega)
  obtain ⟨t₂, h₂, hw₂⟩ := foldlM_within (f := gain)
    (fun _ _ _ => change_within Decimal.Within.add)
    (amountsOf owner (fun m => m != quote) r.postTokenBalances) hw₁ (by omega)
  have hdeltas : tokenDeltas r quote owner = .ok
      ((t₂.entries.filter fun e => !e.2.isZero).mergeSort fun a b => a.1 ≤ b.1) :=
    bind_eq_ok_iff.2 ⟨t₁, h₁, bind_eq_ok_iff.2 ⟨t₂, h₂, rfl⟩⟩
  refine ⟨_, hdeltas, fun e he => ?_⟩
  have hm := (List.mem_filter.1 (List.mem_mergeSort.1 he)).1
  exact (hw₂ e.1 e.2 (Table.get?_eq_some_iff.2 hm)).mono (by omega)

theorem lamportDelta_within (r : TxRecord) (index : Nat) :
    (lamportDelta r index).Within maxLamportUnits := by
  unfold lamportDelta
  split
  · rename_i pre post _ _
    have hpre := pre.toNat_lt
    have hpost := post.toNat_lt
    unfold Decimal.ofIntScaled?
    cases hp : Decimal.ofParts? _ ((post.toNat : Int) - pre.toNat).natAbs 9 with
    | none => exact .zero
    | some d =>
      obtain ⟨hcoeff, hscale⟩ := Decimal.coeff_of_ofParts? hp
      show d.coeff ≤ maxLamportUnits * 10 ^ d.scale
      rw [hcoeff, hscale, show maxLamportUnits * 10 ^ 9 = 18446744074000000000 from rfl]
      omega
  · exact .zero

theorem wrapped_of_total {bs : List TokenBalance} (h : TokenBalance.total bs < 2 ^ 96)
    (quote owner : String) :
    ∃ d, wrapped quote owner bs = .ok d ∧ d.Within (TokenBalance.total bs) := by
  have hsum := sum_amountsOf_le owner (· == quote) bs
  have hmap : (((amountsOf owner (· == quote) bs).map Prod.snd).map Decimal.size).sum
      = ((amountsOf owner (· == quote) bs).map (·.2.size)).sum := by
    rw [List.map_map]
    rfl
  obtain ⟨d, hd, hw⟩ := Decimal.Within.sum ((amountsOf owner (· == quote) bs).map Prod.snd)
    (Decimal.Within.zero (n := 0)) (by rw [hmap]; omega)
  exact ⟨d, orBreak_eq_ok hd, hw.mono (by rw [hmap]; omega)⟩

theorem quoteDelta_of_turnover (h : r.turnover < 2 ^ 96) (quote : String) (s : Signer) :
    ∃ d, quoteDelta r quote s = .ok d ∧ d.Within r.turnover := by
  unfold TxRecord.turnover at h ⊢
  have hpostFits : TokenBalance.total r.postTokenBalances < 2 ^ 96 := by omega
  have hpreFits : TokenBalance.total r.preTokenBalances < 2 ^ 96 := by omega
  obtain ⟨post, hpost, hwpost⟩ := wrapped_of_total hpostFits quote s.address
  obtain ⟨pre, hpre, hwpre⟩ := wrapped_of_total hpreFits quote s.address
  obtain ⟨sum, hsum, hwsum⟩ := (lamportDelta_within r s.index).add hwpost (by omega)
  obtain ⟨d, hd, hwd⟩ := hwsum.sub hwpre (by omega)
  refine ⟨d, bind_eq_ok_iff.2 ⟨post, hpost, bind_eq_ok_iff.2 ⟨sum, orBreak_eq_ok hsum,
    bind_eq_ok_iff.2 ⟨pre, hpre, orBreak_eq_ok hd⟩⟩⟩, hwd.mono (by omega)⟩

/-! ## The legs -/

/-- A dominant leg is one of the changes. -/
theorem mem_of_dominant {negative : Bool} {deltas : List (String × Decimal)} {l : Leg}
    (h : dominant negative deltas = some l) : ∃ e ∈ deltas, l = ⟨e.1, e.2.abs⟩ := by
  have key : ∀ (es : List (String × Decimal)) (best : Option Leg),
      es.foldl (fun best e => larger best ⟨e.1, e.2.abs⟩) best = some l →
        best = some l ∨ ∃ e ∈ es, l = ⟨e.1, e.2.abs⟩ := by
    intro es
    induction es with
    | nil => exact fun best h => Or.inl h
    | cons e es ih =>
      intro best h
      rcases ih _ h with hb | ⟨e', he', hl⟩
      · dsimp only [larger] at hb
        split at hb
        · exact Or.inr ⟨e, List.mem_cons_self, (Option.some.inj hb).symm⟩
        · split at hb
          · exact Or.inl hb
          · exact Or.inr ⟨e, List.mem_cons_self, (Option.some.inj hb).symm⟩
      · exact Or.inr ⟨e', List.mem_cons_of_mem _ he', hl⟩
  rcases key _ none h with hn | ⟨e, he, hl⟩
  · cases hn
  · exact ⟨e, (List.mem_filter.1 he).1, hl⟩

theorem legs_within {quote : String} {n : Nat} {deltas : List (String × Decimal)} {delta : Decimal}
    (hdeltas : ∀ e ∈ deltas, e.2.Within n) (hdelta : delta.Within n) {spent received : Leg}
    (h : legs? quote deltas delta = some (spent, received)) :
    spent.amount.Within n ∧ received.amount.Within n := by
  have hdominant : ∀ {negative l}, dominant negative deltas = some l → l.amount.Within n := by
    intro negative l hl
    obtain ⟨e, he, rfl⟩ := mem_of_dominant hl
    exact (hdeltas e he).abs
  unfold legs? at h
  split at h
  · rename_i hs hr
    obtain ⟨rfl, rfl⟩ := Prod.mk.inj (Option.some.inj h)
    exact ⟨hdominant hs, hdominant hr⟩
  · rename_i hs hr
    split at h
    · obtain ⟨rfl, rfl⟩ := Prod.mk.inj (Option.some.inj h)
      exact ⟨hdelta.abs, hdominant hr⟩
    · cases h
  · rename_i hs hr
    split at h
    · obtain ⟨rfl, rfl⟩ := Prod.mk.inj (Option.some.inj h)
      exact ⟨hdominant hs, hdelta⟩
    · cases h
  · cases h

/-- If all amounts of a record fit together, reading it does not break down, and they bound what
was spent and what was received. -/
theorem read_of_turnover (h : r.turnover < 2 ^ 96) (quote : String) (batchTime : Option Int64)
    (now : Instant) :
    (∃ f, read r quote batchTime now = .error (.failure f)) ∨
    ∃ t, read r quote batchTime now = .ok t ∧ t.spent.amount.Within r.turnover ∧
      t.received.amount.Within r.turnover := by
  unfold read
  split
  · exact Or.inl ⟨_, rfl⟩
  · split
    · exact Or.inl ⟨_, rfl⟩
    · rename_i s _
      obtain ⟨deltas, hdeltas, hwdeltas⟩ := tokenDeltas_of_turnover h quote s.address
      obtain ⟨delta, hdelta, hwdelta⟩ := quoteDelta_of_turnover h quote s
      rw [hdeltas]
      dsimp only [bind, Except.bind]
      rw [hdelta]
      dsimp only
      split
      · exact Or.inl ⟨_, rfl⟩
      · rename_i spent received hlegs
        exact Or.inr ⟨_, rfl, legs_within hwdeltas hwdelta hlegs⟩

end SwapReading

end SwapFloor
