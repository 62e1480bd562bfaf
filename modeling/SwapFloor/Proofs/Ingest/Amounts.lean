import SwapFloor.Ingest.Record
import SwapFloor.Proofs.Decimal.Range
import SwapFloor.Proofs.Decimal.Reading

/-!
# Which representation of an amount counts

An amount of a token is given as a text, as whole units with a number of decimals, or as a double,
and of those that are there some may be of no use. `Reads` says what each of them stands for on its
own, and `First` is the first of them that stands for anything.

That one counts, but for one case: whole units that are a number of 128 bits, while their magnitude
does not fit a decimal, keep the double from being looked at (`Masked`). Main statement: an amount
is what its first representation of use says, unless it is masked, and then it is nothing
(`first_counts`).
-/

namespace SwapFloor

namespace Decimal

theorem signed_of_ofIntScaled? {n : Int} {scale : Nat} {d : Decimal}
    (h : ofIntScaled? n scale = some d) : d.signed = n ∧ d.scale = scale ∧ d.plain = d := by
  unfold ofIntScaled? ofParts? at h
  split at h
  · obtain rfl := Option.some.inj h
    refine ⟨signed_natAbs n, rfl, ?_⟩
    unfold plain
    simp only [Bool.and_assoc, Bool.and_self]
  · contradiction

/-- The integer over a power of ten is the decimal with that scale that has no sign of a zero. -/
theorem ofIntScaled?_eq_some_iff {n : Int} {scale : Nat} {d : Decimal} :
    ofIntScaled? n scale = some d ↔ d.signed = n ∧ d.scale = scale ∧ d.plain = d := by
  refine ⟨signed_of_ofIntScaled?, ?_⟩
  rintro ⟨rfl, rfl, hplain⟩
  have hsign : (decide (d.signed < 0) && d.coeff != 0) = d.negative := by
    have hnegative : (d.negative && d.coeff != 0) = d.negative := congrArg negative hplain
    unfold signed
    cases hd : d.negative with
    | false => simp
    | true =>
      rw [hd, Bool.true_and] at hnegative
      have hcoeff : d.coeff ≠ 0 := by simpa using hnegative
      simp only [if_true, hnegative, Bool.and_true, decide_eq_true_eq]
      omega
  have hfits : d.signed.natAbs < 2 ^ 96 ∧ d.scale ≤ 28 :=
    ⟨d.natAbs_signed ▸ d.coeff_lt, d.scale_le⟩
  unfold ofIntScaled? ofParts?
  rw [dif_pos hfits]
  simp only [natAbs_signed, hsign]

theorem ofIntScaled?_eq_none_iff {n : Int} {scale : Nat} (hs : scale ≤ 28) :
    ofIntScaled? n scale = none ↔ 2 ^ 96 ≤ n.natAbs :=
  ofParts?_eq_none_iff hs

end Decimal

namespace TokenAmount

/-- The representations of an amount, in the order in which they count. -/
inductive Source where
  | text
  | units
  | double
  deriving DecidableEq

def Source.rank : Source → Nat
  | .text => 0
  | .units => 1
  | .double => 2

/-- The whole units are a number of 128 bits, with decimals within the scale of a decimal. -/
def Counts (a : TokenAmount) (n : Int) (scale : Nat) : Prop :=
  ∃ text decimals, a.amount = some text ∧ a.decimals = some decimals ∧ int128? text = some n ∧
    decimals.toNat = scale ∧ scale ≤ 28

/-- What a representation stands for on its own. -/
inductive Reads (a : TokenAmount) : Source → Decimal → Prop
  | text {t : String} {d : Decimal} (ht : a.uiAmountString = some t)
    (hd : Decimal.ofText? t = some d) : Reads a .text d
  /-- As many units of the last decimal; a zero is not negative. -/
  | units {d : Decimal} (hd : a.Counts d.signed d.scale) (hplain : d.plain = d) : Reads a .units d
  | double {x : Float} {d : Decimal} (hx : a.uiAmount = some x)
    (hd : Decimal.ofFloat? x = some d) : Reads a .double d

/-- What the first representation of use stands for. -/
def First (a : TokenAmount) (d : Decimal) : Prop :=
  ∃ s, a.Reads s d ∧ ∀ s', s'.rank < s.rank → ∀ d', ¬ a.Reads s' d'

/-- The double is the only representation of use, and whole units that do not fit a decimal come
before it. -/
structure Masked (a : TokenAmount) : Prop where
  text : ∀ d, ¬ a.Reads .text d
  units : ∃ n scale, a.Counts n scale ∧ 2 ^ 96 ≤ n.natAbs
  double : ∃ d, a.Reads .double d

variable {a : TokenAmount} {d : Decimal}

theorem Counts.scale_le {n : Int} {scale : Nat} (h : a.Counts n scale) : scale ≤ 28 := by
  obtain ⟨_, _, _, _, _, _, hscale⟩ := h
  exact hscale

theorem units?_eq_some_iff {n : Int} {scale : Nat} :
    a.units? = some (n, scale) ↔ a.Counts n scale := by
  unfold units? Counts
  constructor
  · intro h
    obtain ⟨text, ht, h⟩ := Option.bind_eq_some_iff.1 h
    obtain ⟨decimals, hd, h⟩ := Option.bind_eq_some_iff.1 h
    split at h
    · rename_i hscale
      obtain ⟨m, hm, h⟩ := Option.bind_eq_some_iff.1 h
      obtain ⟨rfl, rfl⟩ := Prod.mk.inj (Option.some.inj h)
      exact ⟨text, decimals, ht, hd, hm, rfl, hscale⟩
    · contradiction
  · rintro ⟨text, decimals, ht, hd, hn, rfl, hscale⟩
    simp only [ht, hd, hn, Option.bind_eq_bind, Option.bind_some, if_pos hscale]
    rfl

/-- The value of a representation on its own. -/
def reading? (a : TokenAmount) : Source → Option Decimal
  | .text => a.uiAmountString.bind Decimal.ofText?
  | .units => a.units?.bind fun u => Decimal.ofIntScaled? u.1 u.2
  | .double => a.uiAmount.bind Decimal.ofFloat?

theorem reads_iff {s : Source} : a.Reads s d ↔ a.reading? s = some d := by
  constructor
  · rintro (⟨ht, hd⟩ | ⟨hd, hplain⟩ | ⟨hx, hd⟩)
    · exact Option.bind_eq_some_iff.2 ⟨_, ht, hd⟩
    · exact Option.bind_eq_some_iff.2 ⟨_, units?_eq_some_iff.2 hd,
        Decimal.ofIntScaled?_eq_some_iff.2 ⟨rfl, rfl, hplain⟩⟩
    · exact Option.bind_eq_some_iff.2 ⟨_, hx, hd⟩
  · intro h
    cases s with
    | text =>
      obtain ⟨t, ht, hd⟩ := Option.bind_eq_some_iff.1 h
      exact .text ht hd
    | units =>
      obtain ⟨⟨n, scale⟩, hu, hd⟩ := Option.bind_eq_some_iff.1 h
      obtain ⟨rfl, rfl, hplain⟩ := Decimal.ofIntScaled?_eq_some_iff.1 hd
      exact .units (units?_eq_some_iff.1 hu) hplain
    | double =>
      obtain ⟨x, hx, hd⟩ := Option.bind_eq_some_iff.1 h
      exact .double hx hd

theorem not_reads_iff {s : Source} : (∀ d, ¬ a.Reads s d) ↔ a.reading? s = .none := by
  rw [Option.eq_none_iff_forall_ne_some]
  exact forall_congr' fun d => not_congr reads_iff

theorem first_iff : a.First d ↔
    (a.reading? .text).or ((a.reading? .units).or (a.reading? .double)) = some d := by
  have hfirst : a.First d ↔ ∃ s, a.reading? s = some d ∧
      ∀ s', s'.rank < s.rank → a.reading? s' = .none :=
    exists_congr fun _ => and_congr reads_iff (forall₂_congr fun _ _ => not_reads_iff)
  rw [hfirst]
  constructor
  · rintro ⟨s, hd, hbefore⟩
    cases s with
    | text => rw [hd, Option.some_or]
    | units => rw [hbefore .text (by decide), hd, Option.none_or, Option.some_or]
    | double =>
      rw [hbefore .text (by decide), hbefore .units (by decide), hd, Option.none_or, Option.none_or]
  · intro h
    cases ht : a.reading? .text with
    | some d' =>
      rw [ht, Option.some_or] at h
      exact ⟨.text, ht.trans h, fun s hs => absurd hs (Nat.not_lt_zero _)⟩
    | none =>
      rw [ht, Option.none_or] at h
      cases hu : a.reading? .units with
      | some d' =>
        rw [hu, Option.some_or] at h
        refine ⟨.units, hu.trans h, fun s hs => ?_⟩
        cases s with
        | text => exact ht
        | _ => exact absurd hs (by decide)
      | none =>
        rw [hu, Option.none_or] at h
        refine ⟨.double, h, fun s hs => ?_⟩
        cases s with
        | text => exact ht
        | units => exact hu
        | double => exact absurd hs (by decide)

/-- A representation of use has a first one before it, if it is not the first itself. -/
theorem exists_first {s : Source} (h : a.Reads s d) : ∃ d', a.First d' := by
  rw [reads_iff] at h
  simp only [first_iff]
  rw [← Option.isSome_iff_exists, Option.isSome_or, Option.isSome_or]
  cases s <;> rw [h] <;> simp

theorem masked_iff : a.Masked ↔ a.reading? .text = .none ∧
    (∃ u, a.units? = some u ∧ Decimal.ofIntScaled? u.1 u.2 = .none) ∧
      ∃ d, a.reading? .double = some d := by
  have hunits : (∃ n scale, a.Counts n scale ∧ 2 ^ 96 ≤ n.natAbs) ↔
      ∃ u, a.units? = some u ∧ Decimal.ofIntScaled? u.1 u.2 = .none := by
    constructor
    · rintro ⟨n, scale, hcounts, hlarge⟩
      exact ⟨(n, scale), units?_eq_some_iff.2 hcounts,
        (Decimal.ofIntScaled?_eq_none_iff hcounts.scale_le).2 hlarge⟩
    · rintro ⟨⟨n, scale⟩, hu, hlarge⟩
      have hcounts := units?_eq_some_iff.1 hu
      exact ⟨n, scale, hcounts, (Decimal.ofIntScaled?_eq_none_iff hcounts.scale_le).1 hlarge⟩
  rw [← hunits, ← not_reads_iff]
  simp only [← reads_iff]
  exact ⟨fun h => ⟨h.text, h.units, h.double⟩, fun h => ⟨h.1, h.2.1, h.2.2⟩⟩

theorem toDecimal?_of_masked (h : a.Masked) : a.toDecimal? = .none := by
  obtain ⟨ht, ⟨u, hu, hd⟩, _⟩ := masked_iff.1 h
  unfold toDecimal?
  rw [show a.uiAmountString.bind Decimal.ofText? = .none from ht, hu]
  exact hd

/-- An amount whose double is not masked looks at one representation after the other. -/
theorem toDecimal?_of_not_masked (h : ¬ a.Masked) :
    a.toDecimal? = (a.reading? .text).or ((a.reading? .units).or (a.reading? .double)) := by
  rw [masked_iff] at h
  unfold toDecimal? reading?
  dsimp only
  cases ht : a.uiAmountString.bind Decimal.ofText? with
  | some d => rfl
  | none =>
    cases hu : a.units? with
    | none => rfl
    | some u =>
      rw [Option.none_or, Option.bind_some]
      cases hd : Decimal.ofIntScaled? u.1 u.2 with
      | some d => exact hd
      | none =>
        have hdouble : a.uiAmount.bind Decimal.ofFloat? = .none := by
          rw [Option.eq_none_iff_forall_ne_some]
          exact fun d hd' => h ⟨ht, ⟨u, hu, hd⟩, d, hd'⟩
        rw [hdouble]
        exact hd

theorem toDecimal?_eq_some_iff : a.toDecimal? = some d ↔ a.First d ∧ ¬ a.Masked := by
  by_cases hm : a.Masked
  · rw [toDecimal?_of_masked hm]
    exact iff_of_false (Option.some_ne_none d).symm fun h => h.2 hm
  · rw [toDecimal?_of_not_masked hm, ← first_iff]
    exact (and_iff_left hm).symm

/-- Unless whole units that do not fit a decimal mask the double, the first representation of use
counts, and there is an amount if there is one. -/
theorem first_counts (a : TokenAmount) :
    (∀ d, a.toDecimal? = some d ↔ a.First d ∧ ¬ a.Masked) ∧
      (a.toDecimal? = .none ↔ a.Masked ∨ ∀ s d, ¬ a.Reads s d) := by
  refine ⟨fun d => toDecimal?_eq_some_iff, ?_⟩
  rw [Option.eq_none_iff_forall_ne_some]
  simp only [ne_eq, toDecimal?_eq_some_iff, not_and_not_right]
  constructor
  · intro h
    by_cases hm : a.Masked
    · exact Or.inl hm
    · refine Or.inr fun s d hd => ?_
      obtain ⟨d', hfirst⟩ := exists_first hd
      exact hm (h d' hfirst)
  · rintro (hm | hnone) d ⟨s, hd, _⟩
    · exact hm
    · exact absurd hd (hnone s d)

/-- The units are one more than a decimal holds, and the double is at hand. -/
def oversized : TokenAmount :=
  ⟨some "79228162514264337593543950336", some 0, some 2.5, .none⟩

theorem first_oversized :
    oversized.First ⟨false, 25, 1, by decide, by decide⟩ ∧ oversized.toDecimal? = .none := by
  rw [first_iff]
  decide +kernel

end TokenAmount

end SwapFloor
