import Mathlib.Algebra.Order.Ring.Nat
import SwapFloor.Proofs.Time.Dates
import SwapFloor.Time.Rfc3339

/-!
# Timestamps read back

A timestamp is written field by field, each number with digits enough, and no field is followed by
a character that could belong to it. It is read in the same order. An instant that is marked as a
leap second has to lie in the last second of a minute, or else its text is that of the second
after it.

Main statement: an instant that a timestamp can show is read as it was written (`read_text`).
-/

namespace SwapFloor

namespace Text

theorem isDigit_digitChar {n : Nat} (h : n < 10) : isDigit (digitChar n) = true := by
  have : n = 0 ∨ n = 1 ∨ n = 2 ∨ n = 3 ∨ n = 4 ∨ n = 5 ∨ n = 6 ∨ n = 7 ∨ n = 8 ∨ n = 9 := by
    omega
  rcases this with rfl | rfl | rfl | rfl | rfl | rfl | rfl | rfl | rfl | rfl <;> decide

theorem toNat_digitChar {n : Nat} (h : n < 10) : (digitChar n).toNat - 48 = n := by
  have : n = 0 ∨ n = 1 ∨ n = 2 ∨ n = 3 ∨ n = 4 ∨ n = 5 ∨ n = 6 ∨ n = 7 ∨ n = 8 ∨ n = 9 := by
    omega
  rcases this with rfl | rfl | rfl | rfl | rfl | rfl | rfl | rfl | rfl | rfl <;> decide

theorem isDigit_of_mem_digits {n : Nat} {c : Char} (h : c ∈ digits n) : isDigit c = true := by
  induction n using digits.induct with
  | case1 n hn =>
    rw [digits, if_pos hn, List.mem_singleton] at h
    rw [h]
    exact isDigit_digitChar hn
  | case2 n hn ih =>
    rw [digits, if_neg hn, List.mem_append, List.mem_singleton] at h
    rcases h with h | rfl
    · exact ih h
    · exact isDigit_digitChar (Nat.mod_lt n (by decide))

theorem foldl_digits (n : Nat) :
    (digits n).foldl (fun n c => n * 10 + (c.toNat - 48)) 0 = n := by
  induction n using digits.induct with
  | case1 n h =>
    rw [digits, if_pos h]
    simp [toNat_digitChar h]
  | case2 n h ih =>
    rw [digits, if_neg h, List.foldl_append, ih]
    simp only [List.foldl_cons, List.foldl_nil, toNat_digitChar (Nat.mod_lt n (by decide))]
    omega

theorem foldl_padded (width n : Nat) :
    (padded width n).foldl (fun n c => n * 10 + (c.toNat - 48)) 0 = n := by
  have hzeros : ∀ k, (List.replicate k '0').foldl (fun n c => n * 10 + (c.toNat - 48)) 0 = 0 := by
    intro k
    induction k with
    | zero => rfl
    | succ k ih => simpa [List.replicate_succ] using ih
  unfold padded
  rw [List.foldl_append, hzeros, foldl_digits]

theorem isDigit_of_mem_padded {width n : Nat} {c : Char} (h : c ∈ padded width n) :
    isDigit c = true := by
  unfold padded at h
  rcases List.mem_append.1 h with h | h
  · rw [List.eq_of_mem_replicate h]
    decide
  · exact isDigit_of_mem_digits h

theorem length_digits_le {n k : Nat} (h : n < 10 ^ (k + 1)) : (digits n).length ≤ k + 1 := by
  induction k generalizing n with
  | zero =>
    rw [digits, if_pos (by simpa using h)]
    exact Nat.le_refl 1
  | succ k ih =>
    rw [digits]
    split
    · exact Nat.le_add_left ..
    · have hdiv : n / 10 < 10 ^ (k + 1) := by
        rw [Nat.div_lt_iff_lt_mul (by decide), ← Nat.pow_succ]
        exact h
      have := ih hdiv
      rw [List.length_append, List.length_singleton]
      omega

theorem length_padded {width n : Nat} (h : n < 10 ^ (width + 1)) :
    (padded (width + 1) n).length = width + 1 := by
  have := length_digits_le h
  unfold padded
  rw [List.length_append, List.length_replicate]
  omega

theorem padded_ne_nil (width n : Nat) : padded width n ≠ [] := by
  unfold padded
  exact List.append_ne_nil_of_right_ne_nil _ (digits_ne_nil n)

theorem isBlank_of_isDigit {c : Char} (h : isDigit c = true) : isBlank c = false := by
  unfold isDigit at h
  simp only [Bool.and_eq_true, decide_eq_true_eq, Char.le_def, UInt32.le_iff_toNat_le] at h
  obtain ⟨hlow, hhigh⟩ := h
  change 48 ≤ c.toNat at hlow
  change c.toNat ≤ 57 at hhigh
  unfold isBlank
  simp only [Bool.or_eq_false_iff, Bool.and_eq_false_iff, decide_eq_false_iff_not,
    beq_eq_false_iff_ne]
  omega

end Text

namespace Time

open SwapFloor.Text SwapFloor.Calendar

/-! ## Fields -/

theorem skip_cons {c : Char} (h : isBlank c = false) (cs : List Char) :
    skip (c :: cs) = c :: cs := by
  unfold skip
  rw [List.dropWhile_cons_of_neg (by simp [h])]

theorem skip_padded (width n : Nat) (rest : List Char) :
    skip (padded width n ++ rest) = padded width n ++ rest := by
  cases hp : padded width n with
  | nil => exact absurd hp (padded_ne_nil width n)
  | cons c cs =>
    have hdigit : isDigit c = true := isDigit_of_mem_padded (hp ▸ List.mem_cons_self)
    exact skip_cons (isBlank_of_isDigit hdigit) _

/-- Digits are read up to the width, or to a character that is none. -/
theorem readDigits_padded {width n room : Nat} {rest : List Char} (hn : n < 2 ^ 63)
    (hroom : (padded width n).length ≤ room)
    (hrest : (padded width n).length = room ∨ ∃ c more, rest = c :: more ∧ isDigit c = false) :
    readDigits room (padded width n ++ rest) = .ok (n, rest) := by
  have htake : ((padded width n ++ rest).take room).takeWhile isDigit = padded width n := by
    rw [List.take_append, List.take_of_length_le hroom,
      List.takeWhile_append_of_pos fun c hc => isDigit_of_mem_padded hc]
    rcases hrest with hrest | ⟨c, more, rfl, hc⟩
    · rw [hrest, Nat.sub_self, List.take_zero, List.takeWhile_nil, List.append_nil]
    · cases room - (padded width n).length with
      | zero => rw [List.take_zero, List.takeWhile_nil, List.append_nil]
      | succ k => rw [List.take_succ_cons, List.takeWhile_cons_of_neg (by simp [hc]),
          List.append_nil]
  cases hp : padded width n ++ rest with
  | nil => exact absurd (List.append_eq_nil_iff.1 hp).1 (padded_ne_nil width n)
  | cons c cs =>
    have hdigit : isDigit c = true := by
      cases hq : padded width n with
      | nil => exact absurd hq (padded_ne_nil width n)
      | cons d ds =>
        rw [hq, List.cons_append] at hp
        rw [← (List.cons.inj hp).1]
        exact isDigit_of_mem_padded (hq ▸ List.mem_cons_self)
    unfold readDigits
    dsimp only
    rw [if_pos hdigit, ← hp, htake, foldl_padded, if_pos hn, List.drop_left]

theorem readField_padded {low high n : Nat} (hlow : low ≤ n) (hhigh : n ≤ high) (h : n < 100)
    (rest : List Char) : readField low high (padded 2 n ++ rest) = .ok (n, rest) := by
  have hlength : (padded 2 n).length = 2 := length_padded (by omega)
  unfold readField
  rw [skip_padded, readDigits_padded (by omega) (Nat.le_of_eq hlength) (Or.inl hlength)]
  exact if_pos ⟨hlow, hhigh⟩

theorem readMark_self {mark : Char} (h : isBlank mark = false) (rest : List Char) :
    readMark mark (mark :: rest) = .ok rest := by
  unfold readMark
  rw [skip_cons h]
  exact if_pos rfl

theorem exists_head_padded (width n : Nat) (rest : List Char) :
    ∃ c cs, padded width n ++ rest = c :: cs ∧ c ≠ '-' ∧ c ≠ '+' := by
  cases hp : padded width n with
  | nil => exact absurd hp (padded_ne_nil width n)
  | cons c cs =>
    have hdigit : isDigit c = true := isDigit_of_mem_padded (hp ▸ List.mem_cons_self)
    refine ⟨c, cs ++ rest, rfl, ?_, ?_⟩
    · rintro rfl
      exact absurd hdigit (by decide)
    · rintro rfl
      exact absurd hdigit (by decide)

/-- A year is followed by something that is no digit. -/
theorem readYear_yearChars {y : Int} (hy : firstYear ≤ y ∧ y ≤ lastYear) {c : Char}
    (hc : isDigit c = false) (rest : List Char) :
    readYear (yearChars y ++ c :: rest) = .ok (y, c :: rest) := by
  obtain ⟨hfirst, hlast⟩ := hy
  change -262143 ≤ y at hfirst
  change y ≤ 262142 at hlast
  have hwide : (padded 4 y.natAbs).length ≤ 6 := by
    have hlength := length_digits_le (n := y.natAbs) (k := 5) (by omega)
    unfold padded
    rw [List.length_append, List.length_replicate]
    omega
  have hsigned : ∀ cs : List Char, cs = padded 4 y.natAbs ++ c :: rest →
      readDigits cs.length cs = .ok (y.natAbs, c :: rest) := by
    rintro cs rfl
    refine readDigits_padded (by omega) ?_ (Or.inr ⟨c, rest, rfl, hc⟩)
    rw [List.length_append]
    exact Nat.le_add_right ..
  have hrange : -2 ^ 31 ≤ y ∧ y < 2 ^ 31 := by omega
  -- Behind a name the bound is no number that the kernel could count up to.
  obtain ⟨bound, hbound⟩ : ∃ bound, (2 : Int) ^ 31 = bound := ⟨_, rfl⟩
  rw [hbound] at hrange
  unfold yearChars
  split
  · rename_i hfour
    have hlength : (padded 4 y.toNat).length = 4 := length_padded (by omega)
    have hread : readDigits 4 (padded 4 y.toNat ++ c :: rest) = .ok (y.toNat, c :: rest) :=
      readDigits_padded (by omega) (Nat.le_of_eq hlength) (Or.inl hlength)
    obtain ⟨d, ds, hcons, hminus, hplus⟩ := exists_head_padded 4 y.toNat (c :: rest)
    have hcast : (y.toNat : Int) = y := by omega
    unfold readYear
    rw [skip_padded, hbound]
    rw [hcons] at hread ⊢
    split
    · rename_i heq
      exact absurd (List.cons.inj heq).1 hminus
    · rename_i heq
      exact absurd (List.cons.inj heq).1 hplus
    · rw [hread]
      simp only [bind, Except.bind, pure, Except.pure]
      rw [hcast, if_pos hrange]
  · by_cases hneg : y < 0
    · have hcast : -(y.natAbs : Int) = y := by omega
      rw [if_pos hneg, List.cons_append]
      unfold readYear
      rw [skip_cons (by decide), hbound]
      simp only [hsigned _ rfl, bind, Except.bind, pure, Except.pure]
      rw [hcast, if_pos hrange]
    · have hcast : (y.natAbs : Int) = y := by omega
      rw [if_neg hneg, List.cons_append]
      unfold readYear
      rw [skip_cons (by decide), hbound]
      simp only [hsigned _ rfl, bind, Except.bind, pure, Except.pure]
      rw [hcast, if_pos hrange]

/-- The digits behind the point stand for a multiple of their last place. -/
theorem readFraction_point {places n : Nat} (hplaces : places + 1 ≤ 9)
    (hn : n < 10 ^ (places + 1)) :
    readFraction ('.' :: (padded (places + 1) n ++ ['Z']))
      = .ok (n * 10 ^ (9 - (places + 1)), ['Z']) := by
  have hlength := length_padded hn
  have hsmall : n < 2 ^ 63 := by
    have : 10 ^ (places + 1) ≤ 10 ^ 9 := Nat.pow_le_pow_right (by decide) hplaces
    omega
  have hread : readDigits 9 (padded (places + 1) n ++ ['Z']) = .ok (n, ['Z']) :=
    readDigits_padded hsmall (hlength.symm ▸ hplaces) (Or.inr ⟨'Z', [], rfl, by decide⟩)
  have hdrop : (['Z'] : List Char).dropWhile isDigit = ['Z'] := by decide
  have hcount : (padded (places + 1) n ++ ['Z']).length - ['Z'].length = places + 1 := by
    rw [List.length_append, hlength, Nat.add_sub_cancel]
  show (do
    let read ← readDigits 9 (padded (places + 1) n ++ ['Z'])
    let places' := (padded (places + 1) n ++ ['Z']).length - read.2.length
    pure (read.1 * Nat.pow 10 (9 - places'), read.2.dropWhile isDigit)) = _
  rw [hread]
  show Except.ok (n * 10 ^ (9 - ((padded (places + 1) n ++ ['Z']).length - ['Z'].length)),
    (['Z'] : List Char).dropWhile isDigit) = _
  rw [hcount, hdrop]

theorem readFraction_fractionChars {nanos : Nat} (h : nanos < 10 ^ 9) :
    readFraction (fractionChars nanos ++ ['Z']) = .ok (nanos, ['Z']) := by
  unfold fractionChars
  split
  · rename_i hzero
    rw [hzero]
    rfl
  · split
    · have hexact : nanos / 1000000 * 10 ^ (9 - 3) = nanos := by omega
      rw [List.cons_append, readFraction_point (by decide) (by omega), hexact]
    · split
      · have hexact : nanos / 1000 * 10 ^ (9 - 6) = nanos := by omega
        rw [List.cons_append, readFraction_point (by decide) (by omega), hexact]
      · have hexact : nanos * 10 ^ (9 - 9) = nanos := by omega
        rw [List.cons_append, readFraction_point (by decide) (by omega), hexact]

/-! ## Timestamps -/

/-- An instant that a timestamp can show: one in the years covered, and a leap second only as the
last second of a minute. -/
structure IsShown (t : Instant) : Prop where
  covered : coversSecond t.seconds = true
  leap : t.leap = true → t.seconds.fmod 60 = 59

theorem bounds_of_isValid {date : Date} (h : date.isValid = true) :
    (firstYear ≤ date.year ∧ date.year ≤ lastYear) ∧ (1 ≤ date.month ∧ date.month ≤ 12) ∧
      (1 ≤ date.day ∧ date.day ≤ 31) := by
  unfold Date.isValid at h
  simp only [Bool.and_eq_true, decide_eq_true_eq] at h
  obtain ⟨⟨⟨⟨⟨hfirst, hlast⟩, hmonth1⟩, hmonth12⟩, hday1⟩, hday⟩ := h
  have hlength : monthLength date.year date.month ≤ 31 := by
    unfold monthLength
    split
    · split <;> decide
    · split <;> decide
  exact ⟨⟨hfirst, hlast⟩, ⟨hmonth1, hmonth12⟩, hday1, Nat.le_trans hday hlength⟩

theorem ok_bind {α β : Type} (a : α) (f : α → Except Fault β) : (Except.ok a >>= f) = f a := rfl

/-- The fields of a timestamp in UTC are read one after the other. -/
theorem readChars_fields {date : Date} {hour minute second nanos : Nat} {s : Int}
    (hdate : date.isValid = true) (hhour : hour ≤ 23) (hminute : minute ≤ 59)
    (hsecond : second ≤ 60) (hnanos : nanos < 10 ^ 9)
    (hs : s = date.dayNumber * 86400 +
      ((hour * 3600 + minute * 60 + if second == 60 then 59 else second : Nat) : Int))
    (hcovered : coversSecond s = true) :
    readChars (yearChars date.year ++ '-' :: (padded 2 date.month ++ '-' :: (padded 2 date.day ++
        'T' :: (padded 2 hour ++ ':' :: (padded 2 minute ++ ':' :: (padded 2 second ++
          (fractionChars nanos ++ ['Z'])))))))
      = .ok ⟨s * Instant.perSecond + nanos, second == 60⟩ := by
  obtain ⟨hyear, ⟨hmonth1, hmonth12⟩, hday1, hday31⟩ := bounds_of_isValid hdate
  have hT : 'T' = 'T' ∨ 'T' = 't' ∨ 'T' = ' ' := .inl rfl
  have hZ : skip ['Z'] = ['Z'] := by decide
  have hmark : readOffset ['Z'] = .ok (0, []) := rfl
  unfold readChars
  rw [readYear_yearChars hyear (by decide), ok_bind]
  dsimp only
  rw [readMark_self (by decide), ok_bind,
    readField_padded hmonth1 hmonth12 (by omega), ok_bind]
  dsimp only
  rw [readMark_self (by decide), ok_bind,
    readField_padded hday1 hday31 (by omega), ok_bind]
  dsimp only
  rw [if_pos hT]
  change (readField 0 23 _ >>= _) = _
  rw [readField_padded (Nat.zero_le _) hhour (by omega), ok_bind]
  dsimp only
  rw [readMark_self (by decide), ok_bind,
    readField_padded (Nat.zero_le _) hminute (by omega), ok_bind]
  dsimp only
  rw [readMark_self (by decide), ok_bind,
    readField_padded (Nat.zero_le _) hsecond (by omega), ok_bind]
  dsimp only
  rw [readFraction_fractionChars hnanos, ok_bind]
  dsimp only
  rw [hZ, hmark, ok_bind]
  dsimp only
  rw [if_neg (by decide), if_neg (by simp [hdate]), if_neg (by decide), Int.sub_zero, ← hs,
    if_pos hcovered]
  rfl

/-- An instant as its day, the second of the day and the nanoseconds within the second. -/
theorem eq_of_parts (t : Instant) :
    ∃ ofDay nanos : Nat, (t.seconds.fmod 86400).toNat = ofDay ∧ t.subsec = nanos ∧
      ofDay < 86400 ∧ nanos < 10 ^ 9 ∧ t.seconds = t.seconds.fdiv 86400 * 86400 + ofDay ∧
      t.nanos = t.seconds * Instant.perSecond + nanos := by
  refine ⟨_, _, rfl, rfl, ?_⟩
  have hday := Int.mul_fdiv_add_fmod t.seconds 86400
  have hday0 := Int.fmod_nonneg_of_pos t.seconds (b := 86400) (by decide)
  have hday1 := Int.fmod_lt_of_pos t.seconds (b := 86400) (by decide)
  have hsecond := Int.mul_fdiv_add_fmod t.nanos Instant.perSecond
  have hsecond0 := Int.fmod_nonneg_of_pos t.nanos (b := Instant.perSecond) (by decide)
  have hsecond1 := Int.fmod_lt_of_pos t.nanos (b := Instant.perSecond) (by decide)
  change _ * t.seconds + _ = _ at hsecond
  unfold Instant.subsec
  change _ < 1000000000 at hsecond1
  change 1000000000 * _ + _ = _ at hsecond
  refine ⟨by omega, by omega, by omega, ?_⟩
  change _ = t.seconds * 1000000000 + _
  omega

theorem isValid_day {s : Int} (h : coversSecond s = true) :
    (Date.ofDayNumber (s.fdiv 86400)).isValid = true := by
  unfold coversSecond at h
  simp only [Bool.and_eq_true, decide_eq_true_eq] at h
  obtain ⟨hfirst, hlast⟩ := h
  change -8334601228800 ≤ s at hfirst
  change s ≤ 8210266876799 at hlast
  have hday := Int.mul_fdiv_add_fmod s 86400
  have hday0 := Int.fmod_nonneg_of_pos s (b := 86400) (by decide)
  have hday1 := Int.fmod_lt_of_pos s (b := 86400) (by decide)
  exact isValid_ofDayNumber (by omega) (by omega)

/-- A timestamp is read as the instant that it was written for. -/
theorem read_text {t : Instant} (h : IsShown t) : read (text t) = .ok t := by
  obtain ⟨ofDay, nanos, hofDay, hnanos, hday, hsubsec, hseconds, hwhole⟩ := eq_of_parts t
  have hvalid := isValid_day h.covered
  have hlast : t.leap = true → ofDay % 60 = 59 := by
    intro hleap
    have hmod := h.leap hleap
    rw [Int.fmod_eq_emod_of_nonneg _ (by decide)] at hmod
    omega
  obtain ⟨second, hsecond⟩ : ∃ second, ofDay % 60 + (if t.leap then 1 else 0) = second := ⟨_, rfl⟩
  have hfields : second ≤ 60 ∧ (second == 60) = t.leap ∧
      (if second == 60 then 59 else second) = ofDay % 60 := by
    cases hmark : t.leap with
    | false =>
      obtain rfl : ofDay % 60 = second := by simpa [hmark] using hsecond
      have hne : ofDay % 60 ≠ 60 := by omega
      exact ⟨by omega, by simpa using hne, by simp [hne]⟩
    | true =>
      obtain rfl : second = 60 := by simpa [hmark, hlast hmark] using hsecond.symm
      exact ⟨by omega, rfl, (hlast hmark).symm⟩
  obtain ⟨hsixty, hleap, hshown⟩ := hfields
  have hread := @readChars_fields _ (ofDay / 3600) (ofDay / 60 % 60) second nanos t.seconds
    hvalid (by omega) (by omega) hsixty hsubsec
    (by rw [hshown, dayNumber_ofDayNumber]; omega) h.covered
  unfold read text dateTimeChars
  rw [String.toList_ofList]
  dsimp only
  rw [hofDay, hnanos, hsecond]
  simp only [List.append_assoc, List.cons_append]
  rw [hread, hleap, ← hwhole]

end Time

end SwapFloor
