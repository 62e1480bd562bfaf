import SwapFloor.Proofs.Ingest.Swaps

/-!
# Whose lamports enter a trade

The change in lamports is that of a single account. If the signer is among the listed accounts,
this is the signer's own. A signer that is given without being listed has no account; then the
first one stands in, whoever owns it. A listed account may also have no key, and if it is taken for
the signer's, the trade has no signer's name.

Main statement: `ownLamports_iff_of_read`.
-/

namespace SwapFloor.SwapReading

/-- The keys of the listed accounts. -/
def keysOf (r : TxRecord) : List String := r.accountKeys.map (·.pubkey)

/-- The account that is taken for that of a signer who is not given: the first one marked as having
signed, else the first one. -/
def leadAccount? (r : TxRecord) : Option AccountKey :=
  r.accountKeys[(r.accountKeys.findIdx? (·.isSigner)).getD 0]?

/-- The lamports of the account at an index entered the trade, and those of no other account. -/
structure UsesLamportsOf (r : TxRecord) (quote : String) (batchTime : Option Int64) (now : Instant)
    (t : Trade) (index : Nat) : Prop where
  quoteLeg : ∃ delta, quoteDelta r quote ⟨t.signer, index⟩ = .ok delta ∧
    (t.side = .buy → t.spent = ⟨quote, delta.abs⟩) ∧
    (t.side = .sell → t.received = ⟨quote, delta⟩)
  others : ∀ pre post, pre[index]? = r.preBalances[index]? → post[index]? = r.postBalances[index]? →
    read { r with preBalances := pre, postBalances := post } quote batchTime now = .ok t

/-- The trade has a signer, and if accounts are listed, the lamports that entered it are those of
the signer's account. -/
def OwnLamports (r : TxRecord) (quote : String) (batchTime : Option Int64) (now : Instant)
    (t : Trade) : Prop :=
  t.signer ≠ "" ∧ (r.accountKeys ≠ [] → ∃ index k, r.accountKeys[index]? = some k ∧
    k.pubkey = t.signer ∧ UsesLamportsOf r quote batchTime now t index)

/-! ## Where the signer is found -/

/-- How the signer stands to the listed accounts. -/
structure Placed (r : TxRecord) (s : Signer) : Prop where
  listed : s.address ∈ keysOf r → ∃ k, r.accountKeys[s.index]? = some k ∧ k.pubkey = s.address
  unlisted : s.address ∉ keysOf r → s.index = 0 ∧ (r.accountKeys ≠ [] → r.signer = some s.address)
  unnamed : s.address = "" ↔
    r.signer.filter (· ≠ "") = none ∧ (leadAccount? r).map (·.pubkey) = some ""

section

variable {r : TxRecord} {s : Signer}

theorem placed_of_given {a : String} (ha : r.signer.filter (· ≠ "") = some a) :
    Placed r ⟨a, (r.accountKeys.findIdx? fun k => k.pubkey == a).getD 0⟩ := by
  obtain ⟨hgiven, hne⟩ := Option.filter_eq_some_iff.1 ha
  refine ⟨fun hin => ?_, fun hout => ?_, ?_⟩
  · obtain ⟨k, hk, hkey⟩ := List.mem_map.1 hin
    cases hi : r.accountKeys.findIdx? fun k => k.pubkey == a with
    | none =>
      have hnot := List.findIdx?_eq_none_iff.1 hi k hk
      exact absurd hkey (beq_eq_false_iff_ne.1 hnot)
    | some i =>
      obtain ⟨hlt, hfound, -⟩ := List.findIdx?_eq_some_iff_getElem.1 hi
      exact ⟨r.accountKeys[i], List.getElem?_eq_getElem hlt, beq_iff_eq.1 hfound⟩
  · have hnone : (r.accountKeys.findIdx? fun k => k.pubkey == a) = none :=
      List.findIdx?_eq_none_iff.2 fun k hk => beq_eq_false_iff_ne.2 fun hkey =>
        hout (List.mem_map.2 ⟨k, hk, hkey⟩)
    rw [hnone]
    exact ⟨rfl, fun _ => hgiven⟩
  · rw [ha]
    exact iff_of_false (of_decide_eq_true hne) fun h => nomatch h.1

theorem placed_of_account {k : AccountKey} {i : Nat} (hnone : r.signer.filter (· ≠ "") = none)
    (hlead : (r.accountKeys.findIdx? (·.isSigner)).getD 0 = i) (hk : r.accountKeys[i]? = some k) :
    Placed r ⟨k.pubkey, i⟩ := by
  have hin : k.pubkey ∈ keysOf r := List.mem_map.2 ⟨k, List.mem_of_getElem? hk, rfl⟩
  refine ⟨fun _ => ⟨k, hk, rfl⟩, fun hout => absurd hin hout, ?_⟩
  have htaken : leadAccount? r = some k := by
    unfold leadAccount?
    rw [hlead, hk]
  rw [htaken, Option.map_some, Option.some.injEq]
  exact (and_iff_right hnone).symm

theorem ne_empty_of_mem_owners {a : String} (h : a ∈ owners r) : a ≠ "" := by
  obtain ⟨b, _, hb⟩ := List.mem_filterMap.1 h
  exact of_decide_eq_true (Option.filter_eq_some_iff.1 hb).2

theorem placed_of_owner {a : String} (hempty : r.accountKeys = []) (ha : a ∈ owners r) :
    Placed r ⟨a, 0⟩ := by
  refine ⟨fun hin => ?_, fun _ => ⟨rfl, fun hne => absurd hempty hne⟩, ?_⟩
  · rw [keysOf, hempty] at hin
    exact absurd hin List.not_mem_nil
  · refine iff_of_false (ne_empty_of_mem_owners ha) fun h => ?_
    have hlead := h.2
    unfold leadAccount? at hlead
    rw [hempty] at hlead
    cases hlead

theorem placed_of_signer? (h : signer? r = some s) : Placed r s := by
  unfold signer? at h
  split at h
  · rename_i a ha
    obtain rfl := Option.some.inj h
    exact placed_of_given ha
  · rename_i hnone
    split at h
    · rename_i i keys hi
      obtain ⟨k, hk, rfl⟩ := Option.map_eq_some_iff.1 h
      exact placed_of_account hnone (by rw [hi]; rfl) hk
    · rename_i k keys hi hkeys
      obtain rfl := Option.some.inj h
      exact placed_of_account hnone (by rw [hi]; rfl) (by rw [hkeys]; rfl)
    · rename_i hi hkeys
      split at h
      · rename_i a ha
        obtain rfl := Option.some.inj h
        refine placed_of_owner hkeys ?_
        exact List.contains_iff_mem.1 (Option.filter_eq_some_iff.1 ha).2
      · obtain ⟨a, ha, rfl⟩ := Option.map_eq_some_iff.1 h
        exact placed_of_owner hkeys (List.mem_of_head? ha)

end

/-! ## What enters the trade -/

section

variable {r : TxRecord} {quote : String} {batchTime : Option Int64} {now : Instant} {t : Trade}

theorem mem_keys_foldlM (b : Breakdown) (op : Decimal → Decimal → Option Decimal)
    {es : List (String × Decimal)} {t t' : Table String Decimal}
    (h : es.foldlM (fun t e => (orBreak b (op ((t.get? e.1).getD .zero) e.2)).map
      fun d => t.insert e.1 d) t = .ok t') {mint : String} (hm : mint ∈ t'.keys) :
    mint ∈ t.keys ∨ ∃ e ∈ es, e.1 = mint := by
  induction es generalizing t with
  | nil =>
    obtain rfl : t = t' := Except.ok.inj h
    exact Or.inl hm
  | cons e es ih =>
    obtain ⟨t₁, h₁, hrest⟩ := bind_eq_ok_iff.1 ((List.foldlM_cons ..).symm.trans h)
    rcases ih hrest with hin | ⟨e', he', rfl⟩
    · cases hop : op ((t.get? e.1).getD .zero) e.2 with
      | none =>
        rw [hop] at h₁
        cases h₁
      | some d =>
        rw [orBreak_eq_ok hop] at h₁
        obtain rfl := Except.ok.inj h₁
        rcases Table.mem_keys_put.1 hin with rfl | hold
        · exact Or.inr ⟨e, List.mem_cons_self, rfl⟩
        · exact Or.inl hold
    · exact Or.inr ⟨e', List.mem_cons_of_mem e he', rfl⟩

/-- Whether its sums are exact or not, the quote is not among the tokens. -/
theorem isToken_of_tokenDeltas {owner : String} {deltas : List (String × Decimal)}
    (h : tokenDeltas r quote owner = .ok deltas) : ∀ e ∈ deltas, e.1 ≠ quote := by
  obtain ⟨t₁, h₁, h⟩ := bind_eq_ok_iff.1 h
  obtain ⟨t₂, h₂, h⟩ := bind_eq_ok_iff.1 h
  obtain rfl := Except.ok.inj h
  have hof : ∀ {bs : List TokenBalance} {mint : String},
      (∃ e ∈ amountsOf owner (fun m => m != quote) bs, e.1 = mint) → mint ≠ quote := by
    rintro bs _ ⟨e, he, rfl⟩
    obtain ⟨b, _, hb⟩ := List.mem_filterMap.1 he
    split at hb
    · rename_i hp
      obtain ⟨d, _, rfl⟩ := Option.map_eq_some_iff.1 hb
      exact bne_iff_ne.1 hp.2
    · cases hb
  intro e he
  have hkey : e.1 ∈ t₂.keys :=
    List.mem_map_of_mem (List.mem_filter.1 (List.mem_mergeSort.1 he)).1
  rcases mem_keys_foldlM .addition Decimal.add h₂ hkey with hin | hpost
  · rcases mem_keys_foldlM .subtraction Decimal.sub h₁ hin with hnone | hpre
    · exact absurd hnone List.not_mem_nil
    · exact hof hpre
  · exact hof hpost

theorem legs?_quote {deltas : List (String × Decimal)} {delta : Decimal} {spent received : Leg}
    (htokens : ∀ e ∈ deltas, e.1 ≠ quote)
    (h : legs? quote deltas delta = some (spent, received)) :
    (Side.classify spent.mint received.mint quote = .buy → spent = ⟨quote, delta.abs⟩) ∧
    (Side.classify spent.mint received.mint quote = .sell → received = ⟨quote, delta⟩) := by
  have hdominant : ∀ {negative l}, dominant negative deltas = some l → l.mint ≠ quote := by
    intro negative l hl
    obtain ⟨e, he, rfl⟩ := mem_of_dominant hl
    exact htokens e he
  rw [Side.classify_eq_buy_iff, Side.classify_eq_sell_iff]
  unfold legs? at h
  split at h
  · rename_i hs hr
    obtain ⟨rfl, rfl⟩ := Prod.mk.inj (Option.some.inj h)
    exact ⟨fun hb => absurd hb.1 (hdominant hs), fun hb => absurd hb.1 (hdominant hr)⟩
  · rename_i hs hr
    split at h
    · obtain ⟨rfl, rfl⟩ := Prod.mk.inj (Option.some.inj h)
      exact ⟨fun _ => rfl, fun hb => absurd hb.1 (hdominant hr)⟩
    · cases h
  · rename_i hs hr
    split at h
    · obtain ⟨rfl, rfl⟩ := Prod.mk.inj (Option.some.inj h)
      exact ⟨fun hb => absurd hb.1 (hdominant hs), fun _ => rfl⟩
    · cases h
  · cases h

theorem quoteDelta_congr {s : Signer} {pre post : List UInt64}
    (hpre : pre[s.index]? = r.preBalances[s.index]?)
    (hpost : post[s.index]? = r.postBalances[s.index]?) :
    quoteDelta { r with preBalances := pre, postBalances := post } quote s
      = quoteDelta r quote s := by
  have hlamports : lamportDelta { r with preBalances := pre, postBalances := post } s.index
      = lamportDelta r s.index := by
    unfold lamportDelta
    rw [hpre, hpost]
  unfold quoteDelta
  rw [hlamports]

theorem usesLamports_of_read (h : read r quote batchTime now = .ok t) :
    ∃ s, signer? r = some s ∧ t.signer = s.address ∧
      UsesLamportsOf r quote batchTime now t s.index := by
  have hsigned : Text.isAllBlank r.signature = false ∧ ∃ s, signer? r = some s := by
    by_contra hnot
    exact nomatch (read_refused hnot quote batchTime now).symm.trans h
  obtain ⟨hblank, s, hs⟩ := hsigned
  have hsteps := (read_eq hblank hs quote batchTime now).symm.trans h
  obtain ⟨deltas, hdeltas, hsteps⟩ := bind_eq_ok_iff.1 hsteps
  obtain ⟨delta, hdelta, hsteps⟩ := bind_eq_ok_iff.1 hsteps
  split at hsteps
  · cases hsteps
  · rename_i spent received hlegs
    obtain rfl := Except.ok.inj hsteps
    refine ⟨s, hs, rfl, ⟨delta, hdelta, legs?_quote (isToken_of_tokenDeltas hdeltas) hlegs⟩,
      fun pre post hpre hpost => ?_⟩
    -- only the change of the quote asks for lamports
    rw [read_eq (r := { r with preBalances := pre, postBalances := post }) hblank hs]
    refine bind_eq_ok_iff.2 ⟨deltas, hdeltas, bind_eq_ok_iff.2
      ⟨delta, (quoteDelta_congr hpre hpost).trans hdelta, ?_⟩⟩
    rw [hlegs]
    rfl

/-- Of any record that is read as a trade: the lamports of one account enter it. They are the
signer's own, and the signer has a name, unless accounts are listed without the signer's or the key
of the account that is taken for the signer's is empty; in the first case a signer was given, and
the lamports are those of the first account. -/
theorem ownLamports_iff_of_read (h : read r quote batchTime now = .ok t) :
    (∃ index, UsesLamportsOf r quote batchTime now t index ∧
      (t.signer ∈ keysOf r → ∃ k, r.accountKeys[index]? = some k ∧ k.pubkey = t.signer) ∧
      (t.signer ∉ keysOf r →
        index = 0 ∧ (r.accountKeys ≠ [] → r.signer = some t.signer))) ∧
    (OwnLamports r quote batchTime now t ↔
      t.signer ≠ "" ∧ (r.accountKeys ≠ [] → t.signer ∈ keysOf r)) ∧
    (t.signer = "" ↔
      r.signer.filter (· ≠ "") = none ∧ (leadAccount? r).map (·.pubkey) = some "") := by
  obtain ⟨s, hs, hown, huses⟩ := usesLamports_of_read h
  obtain ⟨hlisted, hunlisted, hunnamed⟩ := placed_of_signer? hs
  rw [← hown] at hlisted hunlisted hunnamed
  refine ⟨⟨s.index, huses, hlisted, hunlisted⟩, and_congr_right fun _ =>
    imp_congr_right fun _ => ⟨?_, fun hin => ?_⟩, hunnamed⟩
  · rintro ⟨index, k, hk, hkey, -⟩
    exact List.mem_map.2 ⟨k, List.mem_of_getElem? hk, hkey⟩
  · obtain ⟨k, hk, hkey⟩ := hlisted hin
    exact ⟨s.index, k, hk, hkey, huses⟩

end

/-- A wallet buys with wrapped sol, and the only account that is listed pays a sol. -/
def soleAccount (signer : Option String) (wallet key : String) : TxRecord where
  signature := "sig"
  slot := 100
  blockTime := some 1700000000
  trackedAddress := none
  signer := signer
  accountKeys := [.plain key]
  instructions := []
  preBalances := [5000000000]
  postBalances := [4000000000]
  preTokenBalances := [held wallet "MintX" "0", held wallet nativeMint "3"]
  postTokenBalances := [held wallet "MintX" "42", held wallet nativeMint "1"]
  logMessages := []

theorem exists_read_soleAccount (signer : Option String) (wallet key : String)
    (hs : signer? (soleAccount signer wallet key) = some ⟨wallet, 0⟩)
    (hx : Exact (soleAccount signer wallet key) nativeMint ⟨wallet, 0⟩)
    (hgain : 0 < change (soleAccount signer wallet key) wallet "MintX")
    (hpaid : quoteChange (soleAccount signer wallet key) nativeMint ⟨wallet, 0⟩ = -3) :
    ∃ t, read (soleAccount signer wallet key) nativeMint none ⟨0, false⟩ = .ok t ∧
      t.signer = wallet ∧ t.spent.amount.value = 3 := by
  have hother : ∀ mint, mint ≠ nativeMint →
      0 ≤ change (soleAccount signer wallet key) wallet mint := by
    intro mint hmint
    by_cases hm : mint = "MintX"
    · rw [hm]
      exact hgain.le
    · refine (change_eq_zero fun hin => ?_).ge
      simp [soleAccount, held, hm, hmint] at hin
  have hneg : quoteChange (soleAccount signer wallet key) nativeMint ⟨wallet, 0⟩ < 0 := by
    rw [hpaid]
    decide
  have hdeals : Deals (soleAccount signer wallet key) nativeMint ⟨wallet, 0⟩ .buy :=
    ⟨⟨"MintX", by decide, hgain⟩, hother, hneg⟩
  have hsigned : Text.isAllBlank (soleAccount signer wallet key).signature = false :=
    (by decide : Text.isAllBlank "sig" = false)
  rcases read_of_signer hsigned hs hx none ⟨0, false⟩ with
    ⟨spent, received, hok, hdeal, hlegs⟩ | ⟨-, hnone⟩
  · rw [hdeals.side_unique hdeal] at hlegs
    refine ⟨_, hok, rfl, hlegs.2.1.trans ?_⟩
    rw [hpaid]
    decide
  · exact absurd hdeals (hnone .buy)

/-- The trader's own account pays. -/
theorem ownLamports_soleAccount :
    ∃ t, read (soleAccount none "trader" "trader") nativeMint none ⟨0, false⟩ = .ok t ∧
      t.signer = "trader" ∧ t.spent.amount.value = 3 ∧
      OwnLamports (soleAccount none "trader" "trader") nativeMint none ⟨0, false⟩ t := by
  obtain ⟨t, ht, hsigner, hspent⟩ := exists_read_soleAccount none "trader" "trader"
    (by decide) (by decide +kernel) (by decide +kernel) (by decide +kernel)
  refine ⟨t, ht, hsigner, hspent, (ownLamports_iff_of_read ht).2.1.2 ?_⟩
  rw [hsigner]
  exact ⟨by decide, fun _ => by decide⟩

/-- A payer whom the record lists pays for the trader whom it does not list; and the key of the
only account may be empty. -/
theorem not_ownLamports_soleAccount :
    (∃ t, read (soleAccount (some "trader") "trader" "payer") nativeMint none ⟨0, false⟩ = .ok t ∧
      t.signer = "trader" ∧ t.spent.amount.value = 3 ∧
      ¬ OwnLamports (soleAccount (some "trader") "trader" "payer") nativeMint none ⟨0, false⟩ t) ∧
    ∃ t, read (soleAccount none "" "") nativeMint none ⟨0, false⟩ = .ok t ∧ t.signer = "" ∧
      ¬ OwnLamports (soleAccount none "" "") nativeMint none ⟨0, false⟩ t := by
  constructor
  · obtain ⟨t, ht, hsigner, hspent⟩ := exists_read_soleAccount (some "trader") "trader" "payer"
      (by decide) (by decide +kernel) (by decide +kernel) (by decide +kernel)
    refine ⟨t, ht, hsigner, hspent, fun ⟨_, hown⟩ => ?_⟩
    obtain ⟨index, k, hk, hkey, -⟩ := hown (List.cons_ne_nil _ _)
    obtain rfl : k = .plain "payer" := List.mem_singleton.1 (List.mem_of_getElem? hk)
    rw [hsigner] at hkey
    exact absurd hkey (by decide)
  · obtain ⟨t, ht, hsigner, -⟩ := exists_read_soleAccount none "" ""
      (by decide) (by decide +kernel) (by decide +kernel) (by decide +kernel)
    exact ⟨t, ht, hsigner, fun ⟨hname, _⟩ => hname hsigner⟩

end SwapFloor.SwapReading
