import Mathlib.Data.Prod.Lex
import Mathlib.Data.String.Basic
import SwapFloor.Proofs.Decimal.Value
import SwapFloor.Service.Answers

/-!
# Which token a symbol stands for

Several tokens may have one symbol. One of them beats another by a larger market cap, by a cap that
is known while the other one is not, or by a smaller mint where the caps are level (`Beats`). Tokens
are kept by mint, each as it was saved last (`LastSaved`), so that no two of them are level.

Main statement: the comparison is a total preorder in which different mints are never level, and a
symbol stands for the one token of that symbol that no other one beats, in whatever order the tokens
were saved and are gone through (`resolution_of_saved`).
-/

namespace SwapFloor

namespace Token

/-- The first is meant rather than the second. -/
def Beats (a b : Token) : Prop :=
  match a.marketCap, b.marketCap with
  | some x, some y => y.value < x.value ∨ x.value = y.value ∧ a.mint < b.mint
  | some _, none => True
  | none, some _ => False
  | none, none => a.mint < b.mint

/-- A comparison is a total preorder in which different mints are never level. -/
structure Preference (cmp : Token → Token → Ordering) : Prop where
  swap : ∀ a b, cmp b a = (cmp a b).swap
  total : ∀ a b, cmp a b ≠ .gt ∨ cmp b a ≠ .gt
  trans : ∀ a b c, cmp a b ≠ .gt → cmp b c ≠ .gt → cmp a c ≠ .gt
  antisymm : ∀ a b, a.mint ≠ b.mint → ¬ (cmp a b ≠ .gt ∧ cmp b a ≠ .gt)

/-! ## One key for caps and mints -/

/-- Caps from large to small, unknown ones last. -/
def capKey (t : Token) : WithTop ℚᵒᵈ :=
  match t.marketCap with
  | some d => WithTop.some (OrderDual.toDual d.value)
  | none => ⊤

def key (t : Token) : WithTop ℚᵒᵈ ×ₗ String := toLex (t.capKey, t.mint)

variable {a b t : Token} {ts : List Token}

theorem key_lt_iff : a.key < b.key ↔ a.capKey < b.capKey ∨ a.capKey = b.capKey ∧ a.mint < b.mint :=
  Prod.Lex.toLex_lt_toLex

theorem beats_iff : Beats a b ↔ a.key < b.key := by
  rw [key_lt_iff]
  unfold Beats capKey
  cases a.marketCap <;> cases b.marketCap <;> simp [-String.lt_iff_ltb]

theorem compareByCap_eq_lt_iff : compareByCap a b = .lt ↔ Beats a b := by
  unfold compareByCap Beats
  cases a.marketCap <;> cases b.marketCap
  case some.some x y =>
    dsimp only
    rw [Ordering.then_eq_lt, Decimal.compare_eq_lt_iff, Decimal.compare_eq_eq_iff,
      compare_lt_iff_lt, eq_comm]
  all_goals simp [-String.lt_iff_ltb, compare_lt_iff_lt]

theorem compareByCap_eq_gt_iff : compareByCap a b = .gt ↔ Beats b a := by
  unfold compareByCap Beats
  cases a.marketCap <;> cases b.marketCap
  case some.some x y =>
    dsimp only
    rw [Ordering.then_eq_gt, Decimal.compare_eq_gt_iff, Decimal.compare_eq_eq_iff,
      compare_gt_iff_gt]
  all_goals simp [-String.lt_iff_ltb, compare_gt_iff_gt]

theorem compareByCap_ne_gt_iff : compareByCap a b ≠ .gt ↔ a.key ≤ b.key := by
  rw [ne_eq, compareByCap_eq_gt_iff, beats_iff, not_lt]

theorem preference_compareByCap : Preference compareByCap where
  swap a b := by
    have hlt := compareByCap_eq_lt_iff (a := a) (b := b)
    have hgt := compareByCap_eq_gt_iff (a := a) (b := b)
    rw [← compareByCap_eq_gt_iff (a := b) (b := a)] at hlt
    rw [← compareByCap_eq_lt_iff (a := b) (b := a)] at hgt
    cases hc : compareByCap a b <;> cases hd : compareByCap b a <;> simp_all
  total a b := by
    simp only [compareByCap_ne_gt_iff]
    exact le_total a.key b.key
  trans a b c hab hbc := by
    rw [compareByCap_ne_gt_iff] at hab hbc ⊢
    exact hab.trans hbc
  antisymm a b hne h := by
    rw [compareByCap_ne_gt_iff, compareByCap_ne_gt_iff] at h
    exact hne (Prod.ext_iff.1 (toLex.injective (le_antisymm h.1 h.2))).2

/-! ## The best of several tokens -/

theorem isPreferred_iff : isPreferred a b = true ↔ a.key ≤ b.key := by
  unfold isPreferred
  rw [bne_iff_ne, compareByCap_ne_gt_iff]

/-- The better of two tokens, the first where they are level. -/
theorem key_le_of_preferred (a b : Token) :
    (if isPreferred a b then a else b).key ≤ a.key ∧
      (if isPreferred a b then a else b).key ≤ b.key := by
  split
  · rename_i h
    exact ⟨le_refl _, isPreferred_iff.1 h⟩
  · rename_i h
    exact ⟨(not_le.1 (mt isPreferred_iff.2 h)).le, le_refl _⟩

theorem foldl_preferred (a : Token) (ts : List Token) :
    let best := ts.foldl (fun best u => if isPreferred best u then best else u) a
    best ∈ a :: ts ∧ ∀ u ∈ a :: ts, best.key ≤ u.key := by
  intro best
  induction ts generalizing a with
  | nil => exact ⟨List.mem_singleton.2 rfl, fun u hu => List.mem_singleton.1 hu ▸ le_refl _⟩
  | cons b ts ih =>
    obtain ⟨hmem, hle⟩ := ih (if isPreferred a b then a else b)
    obtain ⟨ha, hb⟩ := key_le_of_preferred a b
    have hfirst := hle _ List.mem_cons_self
    refine ⟨?_, fun u hu => ?_⟩
    · rcases List.mem_cons.1 hmem with he | hmem
      · show ts.foldl _ _ ∈ _
        rw [he]
        split
        · exact List.mem_cons_self
        · exact List.mem_cons_of_mem _ List.mem_cons_self
      · exact List.mem_cons_of_mem _ (List.mem_cons_of_mem _ hmem)
    · rcases List.mem_cons.1 hu with rfl | hu
      · exact hfirst.trans ha
      · rcases List.mem_cons.1 hu with rfl | hu
        · exact hfirst.trans hb
        · exact hle u (List.mem_cons_of_mem _ hu)

theorem preferred?_eq_none_iff : preferred? ts = none ↔ ts = [] := by
  cases ts with
  | nil => exact iff_of_true rfl rfl
  | cons a ts => exact iff_of_false nofun nofun

/-- Of tokens with different mints the best is the one that no other beats. -/
theorem preferred?_eq_some_iff (hts : (ts.map mint).Nodup) :
    preferred? ts = some t ↔ t ∈ ts ∧ ∀ u ∈ ts, ¬ Beats u t := by
  have hspec : ∀ {r}, preferred? ts = some r → r ∈ ts ∧ ∀ u ∈ ts, r.key ≤ u.key := by
    intro r hr
    cases ts with
    | nil => exact nomatch hr
    | cons a ts =>
      obtain rfl := Option.some.inj hr
      exact foldl_preferred a ts
  constructor
  · intro h
    obtain ⟨hmem, hle⟩ := hspec h
    exact ⟨hmem, fun u hu hbeats => (beats_iff.1 hbeats).not_ge (hle u hu)⟩
  · rintro ⟨hmem, hunbeaten⟩
    cases hr : preferred? ts with
    | none =>
      rw [preferred?_eq_none_iff.1 hr] at hmem
      exact nomatch hmem
    | some r =>
      obtain ⟨hr, hle⟩ := hspec hr
      have hkey : r.key = t.key :=
        (hle t hmem).antisymm (not_lt.1 fun h => hunbeaten r hr (beats_iff.2 h))
      have hmint : r.mint = t.mint := (Prod.ext_iff.1 (toLex.injective hkey)).2
      exact congrArg some (List.inj_on_of_nodup_map hts hr hmem hmint)

/-- The best does not depend on the order in which the tokens are gone through. -/
theorem preferred?_perm {l : List Token} (h : l.Perm ts) (hts : (ts.map mint).Nodup) :
    preferred? l = preferred? ts := by
  have hl : (l.map mint).Nodup := (h.map mint).nodup_iff.2 hts
  refine Option.ext fun t => ?_
  rw [preferred?_eq_some_iff hl, preferred?_eq_some_iff hts]
  simp only [h.mem_iff]

end Token

namespace Archive

/-- The archive after tokens have been saved, one after the other. -/
def saved (ts : List Token) : Archive := ts.foldl saveToken .empty

/-- A token is the last of its mint that was saved. -/
def LastSaved (ts : List Token) (t : Token) : Prop :=
  ts.reverse.find? (·.mint == t.mint) = some t

variable {t : Token} {ts : List Token}

theorem tokenOfMint?_saved (ts : List Token) (m : String) :
    (saved ts).tokenOfMint? m = ts.reverse.find? (·.mint == m) := by
  induction ts using List.reverseRecOn with
  | nil => rfl
  | append_singleton ts u ih =>
    unfold saved at ih ⊢
    rw [List.foldl_append, List.reverse_append, List.reverse_singleton, List.singleton_append,
      List.find?_cons, ← ih]
    refine (Table.get?_insert ..).trans ?_
    by_cases hm : m = u.mint
    · rw [if_pos hm, beq_iff_eq.2 hm.symm]
    · rw [if_neg hm, beq_eq_false_iff_ne.2 (Ne.symm hm)]
      rfl

theorem mem_values_saved : t ∈ (saved ts).tokens.values ↔ LastSaved ts t := by
  rw [Table.mem_values_iff]
  constructor
  · rintro ⟨m, hm⟩
    have hfound := (tokenOfMint?_saved ts m).symm.trans hm
    obtain rfl : t.mint = m := by simpa using List.find?_some hfound
    exact hfound
  · intro h
    exact ⟨t.mint, (tokenOfMint?_saved ts t.mint).trans h⟩

/-- Tokens are kept by mint. -/
theorem nodup_mints_saved (ts : List Token) : ((saved ts).tokens.values.map Token.mint).Nodup := by
  have hmints : (saved ts).tokens.values.map Token.mint = (saved ts).tokens.keys := by
    unfold Table.values Table.keys
    rw [List.map_map]
    refine List.map_congr_left fun x hx => ?_
    have hfound := (tokenOfMint?_saved ts x.1).symm.trans (Table.get?_eq_some_iff.2 hx)
    simpa using List.find?_some hfound
  rw [hmints]
  exact (saved ts).tokens.nodup

end Archive

namespace Service

open Archive (saved LastSaved)

/-- A token has a symbol, whatever the case of the letters `a` to `z`. -/
def Bears (t : Token) (symbol : String) : Prop :=
  t.symbol.toList.map Char.toLower = symbol.toList.map Char.toLower

/-- What a symbol stands for after tokens have been saved, one after the other. -/
structure Resolution (ts : List Token) (symbol : String) : Prop where
  notFound : resolveToken (saved ts) symbol = .error (unknownSymbol symbol) ↔
    ∀ t, LastSaved ts t → ¬ Bears t symbol
  found : ∀ t, resolveToken (saved ts) symbol = .ok t ↔
    LastSaved ts t ∧ Bears t symbol ∧ ∀ u, LastSaved ts u → Bears u symbol → ¬ u.Beats t
  answered : (∃ t, resolveToken (saved ts) symbol = .ok t) ∨
    resolveToken (saved ts) symbol = .error (unknownSymbol symbol)
  /-- The tokens may be gone through in any order. -/
  iteration : ∀ l : List Token, l.Perm (saved ts).tokens.values →
    Token.preferred? (l.filter fun t => Text.eqIgnoreAsciiCase t.symbol symbol)
      = (resolveToken (saved ts) symbol).toOption
  /-- The tokens may have been saved in any order, and with other ones before them. -/
  history : ∀ ts', (∀ t, LastSaved ts' t ↔ LastSaved ts t) →
    resolveToken (saved ts') symbol = resolveToken (saved ts) symbol

variable {ts : List Token} {symbol : String}

theorem eqIgnoreAsciiCase_eq (s t : String) : Text.eqIgnoreAsciiCase s t
    = (s.toList.map Char.toLower == t.toList.map Char.toLower) := by
  unfold Text.eqIgnoreAsciiCase
  rw [Bool.eq_iff_iff, beq_iff_eq, beq_iff_eq, ← String.toList_inj, String.toList_map,
    String.toList_map]

theorem tokensOfSymbol_eq (a : Archive) (symbol : String) : a.tokensOfSymbol symbol
    = a.tokens.values.filter fun t =>
        t.symbol.toList.map Char.toLower == symbol.toList.map Char.toLower := by
  unfold Archive.tokensOfSymbol
  simp only [eqIgnoreAsciiCase_eq]

theorem mem_tokensOfSymbol {t : Token} :
    t ∈ (saved ts).tokensOfSymbol symbol ↔ LastSaved ts t ∧ Bears t symbol := by
  rw [tokensOfSymbol_eq, List.mem_filter, Archive.mem_values_saved, beq_iff_eq]
  rfl

theorem nodup_tokensOfSymbol (ts : List Token) (symbol : String) :
    (((saved ts).tokensOfSymbol symbol).map Token.mint).Nodup :=
  (Archive.nodup_mints_saved ts).sublist (List.filter_sublist.map _)

theorem resolveToken_eq (hsymbol : symbol ≠ "") (a : Archive) :
    resolveToken a symbol = match Token.preferred? (a.tokensOfSymbol symbol) with
      | some t => .ok t
      | none => .error (unknownSymbol symbol) :=
  if_neg hsymbol

theorem resolveToken_eq_ok_iff (hsymbol : symbol ≠ "") {a : Archive} {t : Token} :
    resolveToken a symbol = .ok t ↔ Token.preferred? (a.tokensOfSymbol symbol) = some t := by
  rw [resolveToken_eq hsymbol]
  cases Token.preferred? (a.tokensOfSymbol symbol) <;> simp

theorem found_iff (hsymbol : symbol ≠ "") {t : Token} :
    resolveToken (saved ts) symbol = .ok t ↔
      LastSaved ts t ∧ Bears t symbol ∧ ∀ u, LastSaved ts u → Bears u symbol → ¬ u.Beats t := by
  rw [resolveToken_eq_ok_iff hsymbol, Token.preferred?_eq_some_iff (nodup_tokensOfSymbol ts symbol)]
  simp only [mem_tokensOfSymbol, and_imp, and_assoc]

theorem notFound_iff (hsymbol : symbol ≠ "") :
    resolveToken (saved ts) symbol = .error (unknownSymbol symbol) ↔
      ∀ t, LastSaved ts t → ¬ Bears t symbol := by
  have hnone : resolveToken (saved ts) symbol = .error (unknownSymbol symbol) ↔
      Token.preferred? ((saved ts).tokensOfSymbol symbol) = none := by
    rw [resolveToken_eq hsymbol]
    cases Token.preferred? ((saved ts).tokensOfSymbol symbol) <;> simp
  rw [hnone, Token.preferred?_eq_none_iff, List.eq_nil_iff_forall_not_mem]
  simp only [mem_tokensOfSymbol, not_and]

theorem answered (hsymbol : symbol ≠ "") (a : Archive) :
    (∃ t, resolveToken a symbol = .ok t) ∨
      resolveToken a symbol = .error (unknownSymbol symbol) := by
  rw [resolveToken_eq hsymbol]
  cases Token.preferred? (a.tokensOfSymbol symbol) with
  | some t => exact Or.inl ⟨t, rfl⟩
  | none => exact Or.inr rfl

/-- Tokens are compared by a total preorder, and a symbol stands for the one token of that symbol
that no other one beats, or for none just if there is none. -/
theorem resolution_of_saved : Token.Preference Token.compareByCap ∧
    ∀ ts symbol, symbol ≠ "" → Resolution ts symbol := by
  refine ⟨Token.preference_compareByCap, fun ts symbol hsymbol => ?_⟩
  refine ⟨notFound_iff hsymbol, fun t => found_iff hsymbol, answered hsymbol _, fun l hl => ?_,
    fun ts' hsame => ?_⟩
  · have hbest := Token.preferred?_perm (hl.filter _) (nodup_tokensOfSymbol ts symbol)
    refine hbest.trans ?_
    rw [resolveToken_eq hsymbol]
    show Token.preferred? ((saved ts).tokensOfSymbol symbol) = _
    cases Token.preferred? ((saved ts).tokensOfSymbol symbol) <;> rfl
  · rcases answered hsymbol (saved ts) with ⟨t, ht⟩ | hnone
    · rw [ht, found_iff hsymbol]
      simp only [hsame]
      exact (found_iff hsymbol).1 ht
    · rw [hnone, notFound_iff hsymbol]
      simp only [hsame]
      exact (notFound_iff hsymbol).1 hnone

/-- Tokens that change their symbols and caps; in the end two of one symbol are level. -/
def relisted : List Token :=
  [⟨"D", "Moon", "", none, Decimal.ofInt? 900⟩, ⟨"B", "MOON", "", none, Decimal.ofInt? 5⟩,
    ⟨"C", "moon", "", none, none⟩, ⟨"A", "mooN", "", none, Decimal.ofIntScaled? 1000 1⟩,
    ⟨"D", "SUN", "", none, Decimal.ofInt? 900⟩, ⟨"B", "Moon", "", none, Decimal.ofInt? 100⟩]

theorem resolution_relisted : Resolution relisted "MOON" ∧
    resolveToken (saved relisted) "MOON"
      = .ok ⟨"A", "mooN", "", none, Decimal.ofIntScaled? 1000 1⟩ := by
  refine ⟨resolution_of_saved.2 relisted "MOON" (by decide), ?_⟩
  rw [resolveToken_eq_ok_iff (by decide), tokensOfSymbol_eq]
  decide +kernel

end Service

end SwapFloor
