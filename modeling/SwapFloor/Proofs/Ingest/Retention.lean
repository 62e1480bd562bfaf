import Mathlib.Data.List.Basic
import SwapFloor.Ingest.Seen

/-!
# What is still remembered

Signatures are marked, looked up and forgotten in any order, at times that do not go back. The
table need not hold all that was ever accepted: an acceptance counts for the retention only, and
what a sweep forgets would not have counted any more. So whatever is answered depends on the
acceptances of the past alone (`Recalls`), and not on the sweeps in between.

Main statement: the rule of repetitions, for every retention and every run (`exact_of_ordered`).
Nothing in it depends on the unit of time.
-/

namespace SwapFloor.Seen

/-- What is done with the signatures, and when. -/
inductive Act where
  | mark (signature : String) (now : Nat)
  | look (signature : String) (now : Nat)
  | sweep (now : Nat)
  deriving DecidableEq

def Act.time : Act → Nat
  | mark _ now | look _ now | sweep now => now

def Act.isSweep : Act → Bool
  | sweep _ => true
  | _ => false

/-- The times of a run do not go back. -/
def Ordered (as : List Act) : Prop := (as.map Act.time).Pairwise (· ≤ ·)

/-- What is remembered after an act. -/
def act (s : Seen) : Act → Seen
  | .mark signature now => (s.mark signature now).1
  | .look _ _ => s
  | .sweep now => s.evict now

/-- What is answered; a sweep has no answer. -/
def answer? (s : Seen) : Act → Option Bool
  | .mark signature now => some (s.mark signature now).2
  | .look signature now => some (s.isSeen signature now)
  | .sweep _ => none

/-- The signature and the time of a mark that is accepted. -/
def acceptance? (s : Seen) : Act → Option (String × Nat)
  | .mark signature now => if (s.mark signature now).2 then some (signature, now) else none
  | _ => none

/-- What is remembered after a run that starts with nothing. -/
def run (retentionMs : Nat) (as : List Act) : Seen := as.foldl act (new retentionMs)

/-- What is answered in a run, in the order of the marks and looks. -/
def answers (s : Seen) : List Act → List Bool
  | [] => []
  | a :: as => (s.answer? a).toList ++ (s.act a).answers as

/-- The acceptances of a run, first one first. -/
def acceptances (s : Seen) : List Act → List (String × Nat)
  | [] => []
  | a :: as => (s.acceptance? a).toList ++ (s.act a).acceptances as

variable {s s' : Seen} {log : List (String × Nat)} {signature : String} {t now : Nat}

theorem act_retentionMs (s : Seen) (a : Act) : (s.act a).retentionMs = s.retentionMs := by
  cases a with
  | mark signature now => exact mark_retentionMs ..
  | look _ _ => rfl
  | sweep _ => rfl

theorem foldl_act_retentionMs (s : Seen) (as : List Act) :
    (as.foldl act s).retentionMs = s.retentionMs := by
  induction as generalizing s with
  | nil => rfl
  | cons a as ih => rw [List.foldl_cons, ih, act_retentionMs]

/-! ## The acceptances that count -/

/-- Every entry is an acceptance, and those that lie less than the retention back are all there. -/
structure Recalls (s : Seen) (log : List (String × Nat)) (now : Nat) : Prop where
  past : ∀ e ∈ log, e.2 ≤ now
  entry : ∀ signature at_, s.acceptedAt.get? signature = some at_ → (signature, at_) ∈ log
  recent : ∀ signature at_, (signature, at_) ∈ log → now < at_ + s.retentionMs →
    s.acceptedAt.get? signature = some at_

theorem recalls_new (retentionMs : Nat) : (new retentionMs).Recalls [] 0 where
  past _ he := nomatch he
  entry _ _ h := nomatch h
  recent _ _ h := nomatch h

theorem Recalls.mono (h : s.Recalls log t) (hle : t ≤ now) : s.Recalls log now where
  past e he := Nat.le_trans (h.past e he) hle
  entry := h.entry
  recent signature at_ hm hlt := h.recent signature at_ hm (Nat.lt_of_le_of_lt hle hlt)

/-- A signature is a repetition if it was accepted less than the retention ago. -/
theorem Recalls.isSeen_iff (h : s.Recalls log now) :
    s.isSeen signature now = true ↔
      ∃ at_, (signature, at_) ∈ log ∧ now < at_ + s.retentionMs := by
  unfold isSeen
  constructor
  · intro hseen
    cases hget : s.acceptedAt.get? signature with
    | none => simp [hget] at hseen
    | some at_ =>
      have hin := h.entry _ _ hget
      have hle := h.past _ hin
      simp only [hget, decide_eq_true_eq] at hseen
      exact ⟨at_, hin, by omega⟩
  · rintro ⟨at_, hin, hlt⟩
    have hle := h.past _ hin
    simp only [h.recent _ _ hin hlt, decide_eq_true_eq]
    omega

theorem Recalls.mark_iff (h : s.Recalls log now) :
    (s.mark signature now).2 = true ↔
      ∀ at_, (signature, at_) ∈ log → at_ + s.retentionMs ≤ now := by
  rw [mark_accepted, Bool.not_eq_true', Bool.eq_false_iff, ne_eq, h.isSeen_iff]
  simp only [not_exists, not_and, Nat.not_lt]

/-- Whatever both remember of the same acceptances, they answer alike. -/
theorem Recalls.isSeen_eq (h : s.Recalls log now) (h' : s'.Recalls log now)
    (hr : s'.retentionMs = s.retentionMs) : s'.isSeen signature now = s.isSeen signature now := by
  rw [Bool.eq_iff_iff, h.isSeen_iff, h'.isSeen_iff, hr]

/-! ## Runs -/

theorem Recalls.mark (h : s.Recalls log now) (signature : String) :
    (s.mark signature now).1.Recalls
      (log ++ (s.acceptance? (.mark signature now)).toList) now := by
  cases hseen : s.isSeen signature now with
  | true =>
    have hmark : s.mark signature now = (s, false) := by simp [Seen.mark, hseen]
    simp only [acceptance?, hmark, Bool.false_eq_true, if_false, Option.toList_none,
      List.append_nil]
    exact h
  | false =>
    have haccepted : (s.mark signature now).2 = true := by rw [mark_accepted, hseen]; rfl
    have hget : ∀ other, (s.mark signature now).1.acceptedAt.get? other
        = if other = signature then some now else s.acceptedAt.get? other := by
      intro other
      rw [get?_mark]
      simp [hseen]
    simp only [acceptance?, haccepted, if_true, Option.toList_some]
    refine ⟨?_, ?_, ?_⟩
    · intro e he
      rcases List.mem_append.1 he with he | he
      · exact h.past e he
      · obtain rfl := List.mem_singleton.1 he
        exact Nat.le_refl now
    · intro other at_ hother
      rw [hget] at hother
      split at hother
      · rename_i heq
        obtain rfl := Option.some.inj hother
        simp [heq]
      · exact List.mem_append_left _ (h.entry _ _ hother)
    · intro other at_ hin hlt
      rw [mark_retentionMs] at hlt
      rw [hget]
      rcases List.mem_append.1 hin with hold | hnew
      · -- an acceptance that counts would have made the mark a repetition
        have hne : other ≠ signature := by
          rintro rfl
          have hrepeated : s.isSeen other now = true := h.isSeen_iff.2 ⟨at_, hold, hlt⟩
          exact absurd (hseen.symm.trans hrepeated) Bool.false_ne_true
        rw [if_neg hne]
        exact h.recent _ _ hold hlt
      · obtain ⟨rfl, rfl⟩ := Prod.mk.inj (List.mem_singleton.1 hnew)
        exact if_pos rfl

/-- What a sweep leaves are the entries that count. -/
theorem Recalls.get?_evict (h : s.Recalls log now) {at_ : Nat} :
    (s.evict now).acceptedAt.get? signature = some at_ ↔
      (signature, at_) ∈ log ∧ now < at_ + s.retentionMs := by
  have hget : (s.evict now).acceptedAt.get? signature
      = (s.acceptedAt.get? signature).filter fun at_ => now - at_ < s.retentionMs :=
    Table.get?_filter ..
  rw [hget, Option.filter_eq_some_iff, decide_eq_true_eq]
  constructor
  · rintro ⟨hentry, hlt⟩
    have hin := h.entry _ _ hentry
    have hle := h.past _ hin
    exact ⟨hin, by omega⟩
  · rintro ⟨hin, hlt⟩
    have hle := h.past _ hin
    exact ⟨h.recent _ _ hin hlt, by omega⟩

theorem Recalls.evict (h : s.Recalls log now) : (s.evict now).Recalls log now where
  past := h.past
  entry _ _ hget := (h.get?_evict.1 hget).1
  recent _ _ hin hlt := h.get?_evict.2 ⟨hin, hlt⟩

theorem Recalls.act {a : Act} (h : s.Recalls log a.time) :
    (s.act a).Recalls (log ++ (s.acceptance? a).toList) a.time := by
  cases a with
  | mark signature now => exact h.mark signature
  | look _ _ =>
    show s.Recalls (log ++ []) _
    rwa [List.append_nil]
  | sweep now =>
    show (s.evict now).Recalls (log ++ []) now
    rw [List.append_nil]
    exact h.evict

theorem Recalls.foldl_act {as : List Act} (h : s.Recalls log t)
    (has : (t :: as.map Act.time).Pairwise (· ≤ ·)) (hnow : ∀ a ∈ as, a.time ≤ now)
    (hle : t ≤ now) : (as.foldl Seen.act s).Recalls (log ++ s.acceptances as) now := by
  induction as generalizing s log t with
  | nil => simpa [acceptances] using h.mono hle
  | cons a as ih =>
    obtain ⟨hfirst, hrest⟩ := List.pairwise_cons.1 has
    have hnext := (h.mono (hfirst a.time List.mem_cons_self)).act
    have := ih hnext hrest (fun b hb => hnow b (List.mem_cons_of_mem _ hb))
      (hnow a List.mem_cons_self)
    rwa [List.append_assoc] at this

/-- What is remembered before an act of an ordered run. -/
theorem recalls_run {as : List Act} {a : Act} (has : Ordered (as ++ [a])) (r : Nat) :
    (run r as).Recalls ((new r).acceptances as) a.time := by
  rw [Ordered, List.map_append, List.pairwise_append] at has
  obtain ⟨hordered, -, hbefore⟩ := has
  have hnow : ∀ b ∈ as, b.time ≤ a.time := fun b hb =>
    hbefore b.time (List.mem_map_of_mem hb) a.time (List.mem_singleton.2 rfl)
  have hzero : (0 :: as.map Act.time).Pairwise (· ≤ ·) :=
    List.pairwise_cons.2 ⟨fun _ _ => Nat.zero_le _, hordered⟩
  exact (recalls_new r).foldl_act hzero hnow (Nat.zero_le _)

/-! ## Sweeps go unnoticed -/

theorem Recalls.answers_eq {as : List Act} (h : s.Recalls log t) (h' : s'.Recalls log t)
    (hr : s'.retentionMs = s.retentionMs) (has : (t :: as.map Act.time).Pairwise (· ≤ ·)) :
    s'.answers (as.filter fun a => !a.isSweep) = s.answers as := by
  induction as generalizing s s' log t with
  | nil => rfl
  | cons a as ih =>
    obtain ⟨hfirst, hrest⟩ := List.pairwise_cons.1 has
    have hle := hfirst a.time List.mem_cons_self
    cases a with
    | sweep now => exact ih (h.mono hle).evict (h'.mono hle) hr hrest
    | look signature now =>
      replace h : s.Recalls log now := h.mono hle
      replace h' : s'.Recalls log now := h'.mono hle
      show s'.isSeen signature now :: _ = s.isSeen signature now :: _
      rw [h.isSeen_eq h' hr]
      exact congrArg _ (ih h h' hr hrest)
    | mark signature now =>
      replace h : s.Recalls log now := h.mono hle
      replace h' : s'.Recalls log now := h'.mono hle
      have hsame : (s'.mark signature now).2 = (s.mark signature now).2 := by
        rw [mark_accepted, mark_accepted]
        exact congrArg _ (h.isSeen_eq h' hr)
      have hlog : s'.acceptance? (.mark signature now) = s.acceptance? (.mark signature now) := by
        simp only [acceptance?, hsame]
      have hmark' := h'.mark signature
      rw [hlog] at hmark'
      have hretention : (s'.mark signature now).1.retentionMs
          = (s.mark signature now).1.retentionMs := by
        rw [mark_retentionMs, mark_retentionMs, hr]
      show (s'.mark signature now).2 :: _ = (s.mark signature now).2 :: _
      rw [hsame]
      exact congrArg _ (ih (h.mark signature) hmark' hretention hrest)

/-! ## The rule -/

/-- The rule of repetitions in a run: which marks are accepted, what a look tells of the mark in
its place, that sweeps make no difference to the answers, and what a sweep leaves. -/
structure Exact (retentionMs : Nat) (as : List Act) : Prop where
  mark : ∀ before signature now after, as = before ++ .mark signature now :: after →
    (((run retentionMs before).mark signature now).2 = true ↔
      ∀ at_, (signature, at_) ∈ (new retentionMs).acceptances before → at_ + retentionMs ≤ now)
  look : ∀ before signature now after, as = before ++ .look signature now :: after →
    ((run retentionMs before).isSeen signature now = true ↔
      ((run retentionMs before).mark signature now).2 = false)
  unswept : (new retentionMs).answers (as.filter fun a => !a.isSweep)
    = (new retentionMs).answers as
  swept : ∀ before now after, as = before ++ .sweep now :: after → ∀ signature,
    (signature ∈ ((run retentionMs before).evict now).acceptedAt.keys ↔
      ∃ at_, (signature, at_) ∈ (new retentionMs).acceptances before ∧
        now < at_ + retentionMs)

theorem Ordered.of_append_cons {before after : List Act} {a : Act}
    (h : Ordered (before ++ a :: after)) : Ordered (before ++ [a]) :=
  List.Pairwise.sublist (((List.singleton_sublist.2 List.mem_cons_self).append_left before).map _) h

/-- Every ordered run keeps to the rule, whatever the retention is. -/
theorem exact_of_ordered (retentionMs : Nat) (as : List Act) (h : Ordered as) :
    Exact retentionMs as where
  mark before signature now after heq := by
    subst heq
    have hrecalls := recalls_run h.of_append_cons retentionMs
    have hr : (run retentionMs before).retentionMs = retentionMs := foldl_act_retentionMs ..
    have hmark := @Recalls.mark_iff _ _ signature _ hrecalls
    rwa [hr] at hmark
  look before signature now after _ := by
    rw [mark_accepted, Bool.not_eq_false']
  unswept := by
    have hzero : (0 :: as.map Act.time).Pairwise (· ≤ ·) :=
      List.pairwise_cons.2 ⟨fun _ _ => Nat.zero_le _, h⟩
    exact (recalls_new retentionMs).answers_eq (recalls_new retentionMs) rfl hzero
  swept before now after heq signature := by
    subst heq
    have hrecalls := recalls_run h.of_append_cons retentionMs
    have hr : (run retentionMs before).retentionMs = retentionMs := foldl_act_retentionMs ..
    rw [Table.mem_keys_iff]
    refine exists_congr fun at_ => ?_
    have hget := @Recalls.get?_evict _ _ signature _ hrecalls at_
    rwa [hr] at hget

/-- Two signatures, one of which comes again at the end of the retention, and sweeps before and
after it. -/
def returning : List Act :=
  [.mark "s" 0, .mark "u" 5, .look "s" 9, .sweep 9, .mark "s" 9, .sweep 10, .look "s" 10,
    .mark "s" 10, .sweep 12]

theorem exact_returning : Ordered returning ∧ Exact 10 returning ∧
    (new 10).answers returning = [true, true, true, false, false, true] ∧
    (new 10).acceptances returning = [("s", 0), ("u", 5), ("s", 10)] := by
  have hordered : Ordered returning := by
    unfold Ordered
    decide
  exact ⟨hordered, exact_of_ordered 10 returning hordered, by decide, by decide⟩

end SwapFloor.Seen
