import Mathlib.Algebra.Order.Ring.Nat
import SwapFloor.Decimal.Text

/-!
# Decimals read back

A decimal is written with all its fraction digits, so that its text says its scale. Reading takes
one digit after the other; no number on the way is larger than the last, and none has more than 28
places. The sign of a zero is written and not read.

Main statement: what is read is what was written, but for the sign of a zero (`ofText?_text`).
-/

namespace SwapFloor

namespace Text

theorem le_of_ofDigitsFrom {acc v : Nat} {cs : List Char} (h : ofDigitsFrom acc cs = some v) :
    acc ≤ v := by
  induction cs generalizing acc with
  | nil => exact Nat.le_of_eq (Option.some.inj h)
  | cons c cs ih =>
    obtain ⟨d, -, hrest⟩ := Option.bind_eq_some_iff.1 h
    have := ih hrest
    omega

theorem ofDigitsFrom_replicate (acc k : Nat) (ds : List Char) :
    ofDigitsFrom acc (List.replicate k '0' ++ ds) = ofDigitsFrom (acc * 10 ^ k) ds := by
  induction k generalizing acc with
  | zero => simp
  | succ k ih =>
    have hzero : digitVal? '0' = some 0 := by decide
    rw [List.replicate_succ, List.cons_append, ofDigitsFrom, hzero, Option.bind_some, ih,
      Nat.add_zero, Nat.mul_assoc, ← Nat.pow_succ']

end Text

namespace Decimal

open SwapFloor.Text

/-- The same decimal; a zero loses its sign. -/
def plain (d : Decimal) : Decimal := { d with negative := d.negative && d.coeff != 0 }

@[simp] theorem plain_scale (d : Decimal) : d.plain.scale = d.scale := rfl

@[simp] theorem plain_signed (d : Decimal) : d.plain.signed = d.signed := by
  unfold plain signed
  cases d.negative with
  | false => rfl
  | true =>
    by_cases h : d.coeff = 0
    · simp [h]
    · simp [h]

/-- Reads digits that denote a coefficient in range, with all their places. -/
theorem readFrom_digits {negative point started : Bool} {acc v scale : Nat} {cs : List Char}
    (h : ofDigitsFrom acc cs = some v) (hv : v < 2 ^ 96)
    (hscale : if point then scale + cs.length ≤ 28 else scale = 0) (rest : List Char) :
    readFrom negative point started acc scale (cs ++ rest)
      = readFrom negative point (started || !cs.isEmpty) v
          (if point then scale + cs.length else 0) rest := by
  induction cs generalizing acc scale started with
  | nil =>
    obtain rfl : acc = v := Option.some.inj h
    cases point <;> simp_all
  | cons c cs ih =>
    obtain ⟨d, hd, hrest⟩ := Option.bind_eq_some_iff.1 h
    have hle := le_of_ofDigitsFrom hrest
    have hroom : (point && scale == 28) = false := by
      cases point with
      | false => rfl
      | true =>
        simp only [if_true, List.length_cons] at hscale
        simp only [Bool.true_and, beq_eq_false_iff_ne]
        omega
    have hnext : if point then (if point then scale + 1 else 0) + cs.length ≤ 28
        else (if point then scale + 1 else 0) = 0 := by
      cases point with
      | false => simp
      | true =>
        simp only [if_true, List.length_cons] at hscale ⊢
        omega
    rw [List.cons_append, readFrom, hd]
    simp only [hroom, Bool.false_eq_true, if_false]
    rw [if_pos (Nat.lt_of_le_of_lt hle hv), ih hrest hnext]
    cases point with
    | false => simp
    | true =>
      simp only [if_true, List.length_cons, List.isEmpty_cons, Bool.not_false, Bool.or_true,
        Bool.true_or]
      rw [Nat.add_assoc, Nat.add_comm 1]

/-- The digits of a decimal, before the point goes between them. -/
def places (d : Decimal) : List Char :=
  List.replicate (d.scale + 1 - (digits d.coeff).length) '0' ++ digits d.coeff

theorem ofDigitsFrom_places (d : Decimal) : ofDigitsFrom 0 d.places = some d.coeff := by
  unfold places
  rw [ofDigitsFrom_replicate, Nat.zero_mul, ofDigitsFrom_digits]

theorem scale_lt_length_places (d : Decimal) : d.scale < d.places.length := by
  unfold places
  rw [List.length_append, List.length_replicate]
  omega

theorem chars_eq (d : Decimal) : d.chars = (if d.negative then ['-'] else []) ++
    (d.places.take (d.places.length - d.scale) ++
      (if d.scale = 0 then [] else '.' :: d.places.drop (d.places.length - d.scale))) := by
  unfold chars places
  rw [List.append_assoc]

/-- Reads the whole part, the point and the fraction. -/
theorem readFrom_places (d : Decimal) (negative : Bool) :
    readFrom negative false false 0 0 (d.places.take (d.places.length - d.scale) ++
      (if d.scale = 0 then [] else '.' :: d.places.drop (d.places.length - d.scale)))
      = ofParts? negative d.coeff d.scale := by
  have hlength := d.scale_lt_length_places
  generalize hw : d.places.take (d.places.length - d.scale) = whole
  generalize hf : d.places.drop (d.places.length - d.scale) = fraction
  have hvalue : ofDigitsFrom 0 (whole ++ fraction) = some d.coeff := by
    rw [← hw, ← hf, List.take_append_drop, ofDigitsFrom_places]
  rw [ofDigitsFrom_append] at hvalue
  obtain ⟨a, hwhole, hfraction⟩ := Option.bind_eq_some_iff.1 hvalue
  have ha : a < 2 ^ 96 := Nat.lt_of_le_of_lt (le_of_ofDigitsFrom hfraction) d.coeff_lt
  have hnonempty : (!whole.isEmpty) = true := by
    rw [Bool.not_eq_true', List.isEmpty_eq_false_iff, ← List.length_pos_iff, ← hw,
      List.length_take]
    omega
  have hdrop : fraction.length = d.scale := by
    rw [← hf, List.length_drop]
    omega
  rw [readFrom_digits hwhole ha (by simp), hnonempty]
  by_cases hscale : d.scale = 0
  · have hnil : fraction = [] := List.eq_nil_of_length_eq_zero (hdrop.trans hscale)
    rw [hnil] at hfraction
    obtain rfl : a = d.coeff := Option.some.inj hfraction
    simp [readFrom, hscale]
  · have hpoint : digitVal? '.' = none := by decide
    rw [if_neg hscale, readFrom, hpoint]
    simp only [Bool.false_eq_true, if_false, Bool.false_and, Bool.not_false, Bool.and_true,
      decide_true, if_true, Bool.or_true]
    have hroom : if true = true then 0 + fraction.length ≤ 28 else (0 : Nat) = 0 := by
      rw [if_pos rfl, Nat.zero_add, hdrop]
      exact d.scale_le
    have hread := @readFrom_digits negative true true _ _ _ _ hfraction d.coeff_lt hroom []
    rw [List.append_nil] at hread
    rw [hread]
    simp [readFrom, hdrop]

theorem exists_head_places (d : Decimal) :
    ∃ c rest, d.places = c :: rest ∧ c ≠ '-' ∧ c ≠ '+' := by
  have hlength := d.scale_lt_length_places
  have hvalue := d.ofDigitsFrom_places
  cases hp : d.places with
  | nil => simp [hp] at hlength
  | cons c rest =>
    rw [hp] at hvalue
    obtain ⟨v, hv, -⟩ := Option.bind_eq_some_iff.1 hvalue
    have hminus : digitVal? '-' = none := by decide
    have hplus : digitVal? '+' = none := by decide
    refine ⟨c, rest, rfl, ?_, ?_⟩
    · rintro rfl
      exact nomatch hminus.symm.trans hv
    · rintro rfl
      exact nomatch hplus.symm.trans hv

theorem ofPlainChars?_of_head {c : Char} (hminus : c ≠ '-') (hplus : c ≠ '+') (rest : List Char) :
    ofPlainChars? (c :: rest) = readFrom false false false 0 0 (c :: rest) := by
  unfold ofPlainChars?
  split
  · rename_i h
    exact absurd (List.cons.inj h).1 hminus
  · rename_i h
    exact absurd (List.cons.inj h).1 hplus
  · rfl

/-- A decimal is read as it was written, but for the sign of a zero. -/
theorem ofText?_text (d : Decimal) : ofText? d.text = some d.plain := by
  have hparts : ofParts? d.negative d.coeff d.scale = some d.plain :=
    dif_pos ⟨d.coeff_lt, d.scale_le⟩
  have hplain : ofPlainChars? d.chars = some d.plain := by
    rw [chars_eq, ← hparts]
    cases hn : d.negative with
    | true => exact readFrom_places d true
    | false =>
      obtain ⟨c, rest, hp, hminus, hplus⟩ := exists_head_places d
      have htake : ∃ more, d.places.take (d.places.length - d.scale) = c :: more := by
        have hlength := d.scale_lt_length_places
        obtain ⟨k, hk⟩ := Nat.exists_eq_add_of_lt hlength
        rw [hk, Nat.add_assoc, Nat.add_sub_cancel_left, hp]
        exact ⟨_, List.take_succ_cons⟩
      obtain ⟨more, hmore⟩ := htake
      have := readFrom_places d false
      rw [hmore] at this ⊢
      simp only [Bool.false_eq_true, if_false, List.nil_append]
      rw [List.cons_append, ofPlainChars?_of_head hminus hplus]
      exact this
  unfold ofText? text
  rw [String.toList_ofList, ofChars?, hplain]

end Decimal

end SwapFloor
