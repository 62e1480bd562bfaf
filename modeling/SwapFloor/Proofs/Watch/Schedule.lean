import Mathlib.Algebra.Order.Ring.Nat
import SwapFloor.Proofs.Watch.Keeping

/-!
# When a refused subscription is asked for again

An address whose subscription is refused waits, the longer the more refusals there have been in a
row. They are counted from when the address came to be watched, from its last grant or from the last
start over; an answer to a call that its entry has not started last does not count. What happens to
an address is written down as `marks`, and how often it has been refused is read off their end
(`refusals`).

The provider answers calls that are out, each once (`Genuine`), with whatever it likes and at
whatever time. Main statement: every wait is that of the refusals in a row, counted in 32 bits, and a
round of further tries calls once for each address whose wait is over and for no other
(`punctual_of_run`). The waits are the doubled ones of the settings as long as the count goes; an
address that is refused once more waits as if it had never been refused (`not_doubled_tireless`).
-/

namespace SwapFloor.Watches

/-! ## Calls that are out -/

/-- The calls that an act starts. -/
def calls (w : Watches) : Act → List Call
  | .use (.acquire a room) now => (w.acquire a room now).2.toList
  | .use (.release a room) _ => (w.release a room).2.toList
  | .retry now => (w.retryDue now).2
  | .resubscribe now => (w.resubscribeAll now).2
  | .complete a epoch result now => (w.complete a epoch result now).2.toList

/-- The call that an act completes, with its address and epoch. -/
def Act.completed? : Act → Option (String × Nat)
  | .complete a epoch _ _ => some (a, epoch)
  | _ => none

/-- The calls that are out after an act, if `out` are before it. -/
def outAfter (w : Watches) (out : List (String × Nat)) (x : Act) : List (String × Nat) :=
  x.completed?.elim out out.erase ++ asked (w.calls x)

/-- The calls that are out after acts, if `out` are before them. -/
def outAt (w : Watches) (out : List (String × Nat)) : List Act → List (String × Nat)
  | [] => out
  | x :: acts => (w.act x).outAt (w.outAfter out x) acts

/-- Only calls that are out are completed. -/
def Genuine (w : Watches) (out : List (String × Nat)) : List Act → Prop
  | [] => True
  | x :: acts => (∀ c ∈ x.completed?, c ∈ out) ∧ (w.act x).Genuine (w.outAfter out x) acts

instance decidableGenuine (w : Watches) (out : List (String × Nat)) :
    (acts : List Act) → Decidable (w.Genuine out acts)
  | [] => .isTrue trivial
  | x :: acts =>
    have := decidableGenuine (w.act x) (w.outAfter out x) acts
    inferInstanceAs (Decidable (_ ∧ _))

variable {w w' : Watches} {out : List (String × Nat)} {a : String} {x : Act}

/-- A completion starts no call for a subscription. -/
theorem asked_complete (w : Watches) (a : String) (epoch : Nat) (result : Option SubscriptionId)
    (now : Nat) : asked (w.calls (.complete a epoch result now)) = [] := by
  have hcompleted := completed_complete w a epoch result now
  show asked (w.complete a epoch result now).2.toList = []
  generalize w.complete a epoch result now = x at hcompleted
  cases hcompleted with
  | granted => rfl
  | refused => rfl
  | outdated => cases result <;> rfl

theorem Flights.act (h : w.Flights out) (x : Act) : (w.act x).Flights (w.outAfter out x) := by
  cases x with
  | use u now =>
    cases u with
    | acquire a room => exact h.acquire a room now
    | release a room => exact h.release a room
  | retry now => exact h.retryDue now
  | resubscribe now => exact h.resubscribeAll now
  | complete a epoch result now =>
    unfold outAfter
    rw [asked_complete, List.append_nil]
    exact h.complete a epoch result now

/-! ## How waits are set -/

theorem backoff_startEach (w : Watches) (l : List (String × Watch)) :
    (w.startEach l).1.backoff = w.backoff := by
  induction l generalizing w with
  | nil => rfl
  | cons x l ih => exact ih _

theorem backoff_retryDue (w : Watches) (now : Nat) : (w.retryDue now).1.backoff = w.backoff := by
  rw [retryDue_eq]
  exact backoff_startEach w _

theorem backoff_restart (w : Watches) (a : String) (now : Nat) :
    (w.restart a now).backoff = w.backoff := by
  unfold restart
  cases w.get? a <;> rfl

theorem backoff_restartAll (w : Watches) (now : Nat) : (w.restartAll now).backoff = w.backoff :=
  List.foldlRecOn (motive := fun s : Watches => s.backoff = w.backoff) w.entries.keys _ rfl
    fun s hs a _ => (backoff_restart s a now).trans hs

theorem backoff_acquire (w : Watches) (a : String) (room : Option String) (now : Nat) :
    (w.acquire a room now).1.backoff = w.backoff := by
  rcases w.acquire_eq_or a room now with he | ⟨e, rooms, _, he⟩ <;> rw [he]
  split <;> rfl

theorem backoff_dropUnused (w : Watches) (a : String) :
    (w.dropUnused a).1.backoff = w.backoff := by
  unfold dropUnused
  repeat' split
  all_goals rfl

theorem backoff_release (w : Watches) (a : String) (room : Option String) :
    (w.release a room).1.backoff = w.backoff := by
  unfold release
  rcases w.decrement_eq_or a room with hd | ⟨e, rooms, _, hd⟩
  · rw [hd]
  · rw [hd]
    cases e.refs - 1 == 0 with
    | true => exact backoff_dropUnused ..
    | false => rfl

theorem backoff_complete (w : Watches) (a : String) (epoch : Nat)
    (result : Option SubscriptionId) (now : Nat) :
    (w.complete a epoch result now).1.backoff = w.backoff := by
  have hcompleted := completed_complete w a epoch result now
  generalize w.complete a epoch result now = x at hcompleted
  cases hcompleted <;> rfl

/-- How long to wait is settled when nothing is watched yet. -/
theorem backoff_act (w : Watches) (x : Act) : (w.act x).backoff = w.backoff := by
  cases x with
  | use u now =>
    cases u with
    | acquire a room => exact backoff_acquire w a room now
    | release a room => exact backoff_release w a room
  | retry now => exact backoff_retryDue w now
  | resubscribe now => exact (backoff_retryDue _ now).trans (backoff_restartAll w now)
  | complete a epoch result now => exact backoff_complete w a epoch result now

/-! ## What happens to an address -/

/-- An address comes to be watched, its last call is granted or refused, or all start over. -/
inductive Mark where
  | watched
  | granted
  | refused (now : Nat)
  | startedOver
  deriving DecidableEq

def Mark.isRefusal : Mark → Bool
  | .refused _ => true
  | _ => false

/-- What an act means to an address. -/
def mark? (w : Watches) (a : String) : Act → Option Mark
  | .use (.acquire b _) _ => if b = a ∧ w.get? a = none then some .watched else none
  | .use (.release _ _) _ => none
  | .retry _ => none
  | .resubscribe _ => some .startedOver
  | .complete b epoch result now =>
    if b = a ∧ (w.get? a).map (·.epoch) = some epoch then
      some (result.elim (.refused now) fun _ => .granted)
    else none

/-- What acts mean to an address, one after the other. -/
def marks (w : Watches) (a : String) : List Act → List Mark
  | [] => []
  | x :: acts => (w.mark? a x).toList ++ (w.act x).marks a acts

/-- How many refusals there are in a row at the end. -/
def refusals (ms : List Mark) : Nat := (ms.reverse.takeWhile Mark.isRefusal).length

theorem refusals_append_refused (ms : List Mark) (now : Nat) :
    refusals (ms ++ [.refused now]) = refusals ms + 1 := by
  unfold refusals
  rw [List.reverse_append]
  rfl

theorem refusals_append_other {m : Mark} (hm : m.isRefusal = false) (ms : List Mark) :
    refusals (ms ++ [m]) = 0 := by
  unfold refusals
  rw [List.reverse_append, List.reverse_singleton, List.singleton_append,
    List.takeWhile_cons_of_neg (Bool.eq_false_iff.1 hm)]
  rfl

theorem marks_append (w : Watches) (a : String) (acts acts' : List Act) :
    w.marks a (acts ++ acts') = w.marks a acts ++ (w.run acts).marks a acts' := by
  induction acts generalizing w with
  | nil => rfl
  | cons x acts ih =>
    show _ ++ (w.act x).marks a (acts ++ acts') = _
    rw [ih, ← List.append_assoc]
    rfl

/-- What a mark says about the entry of the address after the act. -/
inductive Leaves (w w' : Watches) (a : String) : Option Mark → Prop
  /-- It has failed as often, and if it waits it did so before. -/
  | same (h : ∀ e', w'.get? a = some e' → ∃ e, w.get? a = some e ∧ e'.attempts = e.attempts ∧
      ∀ n dueAt, e'.stage = .pending n dueAt → e.stage = .pending n dueAt) : Leaves w w' a none
  /-- It has not failed, and does not wait. -/
  | anew {m : Mark} (hm : m.isRefusal = false) (h : ∀ e', w'.get? a = some e' →
      e'.attempts = 0 ∧ ∀ n dueAt, e'.stage ≠ .pending n dueAt) : Leaves w w' a (some m)
  /-- It has failed once more. -/
  | failed {e : Watch} {now : Nat} (hg : w.get? a = some e)
      (h : w'.get? a = some (e.failed w.backoff now)) : Leaves w w' a (some (.refused now))

theorem Leaves.of_get? (h : w'.get? a = w.get? a) : Leaves w w' a none :=
  .same fun e' he' => ⟨e', h ▸ he', rfl, fun _ _ hs => hs⟩

theorem leaves_acquire (hr : w.Referred) (b : String) (room : Option String) (now : Nat) :
    Leaves w (w.acquire b room now).1 a (w.mark? a (.use (.acquire b room) now)) := by
  unfold mark?
  dsimp only
  by_cases hnew : b = a ∧ w.get? a = none
  · obtain ⟨rfl, hnone⟩ := hnew
    rw [if_pos ⟨rfl, hnone⟩]
    refine .anew rfl fun e' he' => ?_
    rcases w.acquire_eq_or b room now with he | ⟨e, rooms, hg, he⟩
    · rw [he, hnone] at he'
      exact nomatch he'
    · have hfirst : (Watch.fresh now).refs + 1 = 1 := rfl
      rw [hnone] at hg
      obtain rfl : Watch.fresh now = e := hg
      rw [he, if_pos hfirst] at he'
      rcases of_get?_put he' with ⟨_, hne⟩ | ⟨_, rfl⟩
      · exact absurd rfl hne
      · exact ⟨rfl, nofun⟩
  · rw [if_neg hnew]
    refine .same fun e' he' => ?_
    rcases acquire_cases hr b room now with he | ⟨e, rooms, hg, he⟩ | ⟨hg, e, _, he⟩ <;>
      rw [he] at he'
    · exact ⟨e', he', rfl, fun _ _ hs => hs⟩
    · rcases of_get?_put he' with ⟨he', _⟩ | ⟨rfl, rfl⟩
      · exact ⟨e', he', rfl, fun _ _ hs => hs⟩
      · exact ⟨e, hg, rfl, fun _ _ hs => hs⟩
    · rcases of_get?_put he' with ⟨he', _⟩ | ⟨rfl, _⟩
      · exact ⟨e', he', rfl, fun _ _ hs => hs⟩
      · exact absurd ⟨rfl, hg⟩ hnew

theorem leaves_release (hr : w.Referred) (b : String) (room : Option String) :
    Leaves w (w.release b room).1 a none := by
  refine .same fun e' he' => ?_
  obtain ⟨e, hg, hs, hattempts⟩ := entry_release hr b room he'
  exact ⟨e, hg, hattempts, fun _ _ h => hs.symm.trans h⟩

theorem leaves_retryDue (w : Watches) (a : String) (now : Nat) :
    Leaves w (w.retryDue now).1 a none := by
  by_cases hdue : ∃ e, w.get? a = some e ∧ e.isDue now = true
  · obtain ⟨e, hg, hdue⟩ := hdue
    obtain ⟨epoch, _, hget⟩ := get?_retryDue_of_due hg hdue
    refine .same fun e' he' => ⟨e, hg, ?_⟩
    obtain rfl := Option.some.inj (hget.symm.trans he')
    exact ⟨rfl, nofun⟩
  · refine .of_get? (get?_retryDue_of_not_due fun e hg => Bool.eq_false_iff.2 fun h => ?_)
    exact hdue ⟨e, hg, h⟩

/-- When all start over, every entry is called for at once. -/
theorem leaves_resubscribeAll (hr : w.Referred) (a : String) (now : Nat) :
    Leaves w (w.resubscribeAll now).1 a (some .startedOver) := by
  refine .anew rfl fun e' he' => ?_
  rw [resubscribeAll_eq] at he'
  have hclaims : (w.resubscribeAll now).1.Referred := hr.of_claims (claims_resubscribeAll w now)
  cases hg : (w.restartAll now).get? a with
  | none =>
    rw [get?_retryDue_of_not_due (fun e he => nomatch hg.symm.trans he), hg] at he'
    exact nomatch he'
  | some e =>
    obtain ⟨hs, hattempts⟩ := entry_restartAll hg
    by_cases hdue : e.isDue now = true
    · obtain ⟨epoch, _, hget⟩ := get?_retryDue_of_due hg hdue
      obtain rfl := Option.some.inj (hget.symm.trans he')
      exact ⟨hattempts, nofun⟩
    · -- Whoever is not referred to would not be called for.
      have hkept : (w.restartAll now).retryDue now |>.1.get? a = some e :=
        (get?_retryDue_of_not_due fun e₁ he₁ => by
          obtain rfl := Option.some.inj (hg.symm.trans he₁)
          exact Bool.eq_false_iff.2 hdue).trans hg
      exact absurd (isDue_iff.2 ⟨0, now, hs, Nat.le_refl _, hclaims a e hkept⟩) hdue

theorem leaves_complete (hf : w.Flights out) {b : String} {epoch : Nat} (hc : (b, epoch) ∈ out)
    (result : Option SubscriptionId) (now : Nat) :
    Leaves w (w.complete b epoch result now).1 a (w.mark? a (.complete b epoch result now)) := by
  have hcompleted := completed_complete w b epoch result now
  generalize w.complete b epoch result now = y at hcompleted
  unfold mark?
  dsimp only
  by_cases hlast : b = a ∧ (w.get? a).map (·.epoch) = some epoch
  · rw [if_pos hlast]
    obtain ⟨rfl, hlast⟩ := hlast
    obtain ⟨e, hg, he⟩ := Option.map_eq_some_iff.1 hlast
    have hawaits : w.Awaits b epoch e := ⟨hg, he, (hf.current b e _ hg hc he.symm).2⟩
    cases hcompleted with
    | granted =>
      refine .anew rfl fun e' he' => ?_
      rcases of_get?_put (w := w) he' with ⟨_, hne⟩ | ⟨_, rfl⟩
      · exact absurd rfl hne
      · exact ⟨rfl, nofun⟩
    | refused h => exact .failed h.1 ((get?_put ..).trans (if_pos rfl))
    | outdated hnot => exact absurd hawaits (hnot e)
  · -- Who waits for the call has started it last.
    have hother : ∀ e, w.Awaits b epoch e → a ≠ b := by
      rintro e ⟨hg, he, _⟩ rfl
      exact hlast ⟨rfl, hg.symm ▸ congrArg some he⟩
    rw [if_neg hlast]
    refine .of_get? ?_
    cases hcompleted with
    | granted h => exact (get?_put ..).trans (if_neg (hother _ h))
    | refused h => exact (get?_put ..).trans (if_neg (hother _ h))
    | outdated => rfl

theorem leaves_act (hf : w.Flights out) (hx : ∀ c ∈ x.completed?, c ∈ out) :
    Leaves w (w.act x) a (w.mark? a x) := by
  cases x with
  | use u now =>
    cases u with
    | acquire b room => exact leaves_acquire hf.referred b room now
    | release b room => exact leaves_release hf.referred b room
  | retry now => exact leaves_retryDue w a now
  | resubscribe now => exact leaves_resubscribeAll hf.referred a now
  | complete b epoch result now => exact leaves_complete hf (hx _ rfl) result now

/-! ## Waits and refusals -/

/-- An entry has failed as often as it was refused in a row, and waits from the last refusal on. -/
structure Tried (w : Watches) (a : String) (ms : List Mark) : Prop where
  attempts : ∀ e, w.get? a = some e → e.attempts = .ofNat (refusals ms)
  waits : ∀ e n dueAt, w.get? a = some e → e.stage = .pending n dueAt →
    n = .ofNat (refusals ms) ∧
      ∃ f, ms.getLast? = some (.refused f) ∧ dueAt = f + w.backoff.wait n

theorem tried_new (b : Backoff) (a : String) : (new b).Tried a [] where
  attempts _ hg := nomatch hg
  waits _ _ _ hg := nomatch hg

theorem Tried.leaves {ms : List Mark} {m : Option Mark} (h : w.Tried a ms)
    (hb : w'.backoff = w.backoff) (hm : Leaves w w' a m) : w'.Tried a (ms ++ m.toList) := by
  cases hm with
  | same hsame =>
    rw [Option.toList_none, List.append_nil]
    refine ⟨fun e' he' => ?_, fun e' n dueAt he' hs => ?_⟩
    · obtain ⟨e, hg, hattempts, _⟩ := hsame e' he'
      exact hattempts.trans (h.attempts e hg)
    · obtain ⟨e, hg, _, hstage⟩ := hsame e' he'
      rw [hb]
      exact h.waits e n dueAt hg (hstage n dueAt hs)
  | anew hm hanew =>
    refine ⟨fun e' he' => ?_, fun e' n dueAt he' hs => ?_⟩
    · rw [Option.toList_some, refusals_append_other hm]
      exact (hanew e' he').1
    · exact absurd hs ((hanew e' he').2 n dueAt)
  | @failed e now hg hfailed =>
    have hcount : .ofNat (refusals (ms ++ [.refused now])) = e.attempts + 1 := by
      rw [refusals_append_refused, h.attempts e hg, UInt32.ofNat_add]
      rfl
    refine ⟨fun e' he' => ?_, fun e' n dueAt he' hs => ?_⟩ <;>
      obtain rfl := Option.some.inj (hfailed.symm.trans he')
    · exact hcount.symm
    · obtain ⟨rfl, rfl⟩ := Stage.pending.inj hs
      refine ⟨hcount.symm, now, List.getLast?_append, ?_⟩
      rw [hb]

theorem flights_run (hf : w.Flights out) (acts : List Act) :
    (w.run acts).Flights (w.outAt out acts) := by
  induction acts generalizing w out with
  | nil => exact hf
  | cons x acts ih => exact ih (hf.act x)

theorem tried_run {ms : List Mark} {acts : List Act} (hf : w.Flights out)
    (h : w.Genuine out acts) (ht : w.Tried a ms) :
    (w.run acts).Tried a (ms ++ w.marks a acts) := by
  induction acts generalizing w out ms with
  | nil => exact (List.append_nil ms).symm ▸ ht
  | cons x acts ih =>
    obtain ⟨hx, hacts⟩ := h
    have hrest := ih (hf.act x) hacts (ht.leaves (backoff_act w x) (leaves_act hf hx))
    rwa [List.append_assoc] at hrest

/-! ## The schedule -/

/-- The address waits for another try that is due by a time. -/
def WaitsUntil (w : Watches) (a : String) (t : Nat) : Prop :=
  ∃ e n dueAt, w.get? a = some e ∧ e.stage = .pending n dueAt ∧ dueAt ≤ t

/-- Which addresses wait after acts, until when, and what a round of further tries does then. -/
structure Punctual (b : Backoff) (acts : List Act) : Prop where
  /-- Who is refused the call that it has started last waits as long as there have been refusals
  in a row, this one included. -/
  refused : ∀ a epoch f e, (a, epoch) ∈ (new b).outAt [] acts →
    ((new b).run acts).get? a = some e → e.epoch = epoch →
      ∃ k, 1 ≤ k ∧ k = refusals ((new b).marks a (acts ++ [.complete a epoch none f])) ∧
        (((new b).run (acts ++ [.complete a epoch none f])).get? a).map (·.stage)
          = some (.pending (.ofNat k) (f + b.wait (.ofNat k)))
  /-- Who waits does so since its last refusal. -/
  waiting : ∀ a e n dueAt, ((new b).run acts).get? a = some e → e.stage = .pending n dueAt →
    n = .ofNat (refusals ((new b).marks a acts)) ∧
      ∃ f, ((new b).marks a acts).getLast? = some (.refused f) ∧ dueAt = f + b.wait n
  /-- Whose wait is over is called for once, and waits for that call. -/
  retried : ∀ a t, ((new b).run acts).WaitsUntil a t →
    ∃ epoch e, (((new b).run acts).retryDue t).2.filter (·.isFor a) = [.subscribe a epoch] ∧
      (((new b).run acts).retryDue t).1.get? a = some e ∧ e.epoch = epoch ∧ e.stage = .inFlight
  /-- There are no other calls, and nothing happens to other addresses. -/
  alone : ∀ t, (∀ c ∈ (((new b).run acts).retryDue t).2,
      ∃ a, ((new b).run acts).WaitsUntil a t ∧ c.isFor a) ∧
    ∀ a, ¬ ((new b).run acts).WaitsUntil a t →
      (((new b).run acts).retryDue t).1.get? a = ((new b).run acts).get? a

theorem run_append (w : Watches) (acts acts' : List Act) :
    w.run (acts ++ acts') = (w.run acts).run acts' :=
  List.foldl_append

theorem backoff_run (w : Watches) (acts : List Act) : (w.run acts).backoff = w.backoff :=
  List.foldlRecOn (motive := fun s : Watches => s.backoff = w.backoff) acts act rfl
    fun s hs x _ => (backoff_act s x).trans hs

theorem waitsUntil_iff (hr : w.Referred) (t : Nat) :
    w.WaitsUntil a t ↔ ∃ e, w.get? a = some e ∧ e.isDue t = true := by
  constructor
  · rintro ⟨e, n, dueAt, hg, hs, ht⟩
    exact ⟨e, hg, isDue_iff.2 ⟨n, dueAt, hs, ht, hr a e hg⟩⟩
  · rintro ⟨e, hg, hdue⟩
    obtain ⟨n, dueAt, hs, ht, _⟩ := isDue_iff.1 hdue
    exact ⟨e, n, dueAt, hg, hs, ht⟩

theorem marks_refused {e : Watch} (hg : w.get? a = some e) (f : Nat) :
    w.marks a [.complete a e.epoch none f] = [.refused f] := by
  have hlast : a = a ∧ (w.get? a).map (·.epoch) = some e.epoch := ⟨rfl, hg.symm ▸ rfl⟩
  unfold marks mark?
  dsimp only
  rw [if_pos hlast]
  rfl

theorem refused_run {b : Backoff} {acts : List Act} {epoch f : Nat} {e : Watch}
    (hf : ((new b).run acts).Flights ((new b).outAt [] acts))
    (ht : ((new b).run acts).Tried a ((new b).marks a acts))
    (hout : (a, epoch) ∈ (new b).outAt [] acts) (hg : ((new b).run acts).get? a = some e)
    (he : e.epoch = epoch) :
    ∃ k, 1 ≤ k ∧ k = refusals ((new b).marks a (acts ++ [.complete a epoch none f])) ∧
      (((new b).run (acts ++ [.complete a epoch none f])).get? a).map (·.stage)
        = some (.pending (.ofNat k) (f + b.wait (.ofNat k))) := by
  subst he
  have hawaits : ((new b).run acts).Awaits a e.epoch e :=
    ⟨hg, rfl, (hf.current a e _ hg hout rfl).2⟩
  have hcount : e.attempts + 1 = .ofNat (refusals ((new b).marks a acts) + 1) := by
    rw [ht.attempts e hg, UInt32.ofNat_add]
    rfl
  refine ⟨refusals ((new b).marks a acts) + 1, Nat.le_add_left .., ?_, ?_⟩
  · rw [marks_append, marks_refused hg, refusals_append_refused]
  · rw [run_append, ← hcount]
    show ((((new b).run acts).complete a e.epoch none f).1.get? a).map (·.stage) = _
    rw [complete_failed hawaits f]
    show ((((new b).run acts).put a _).get? a).map (·.stage) = _
    rw [get?_put, if_pos rfl, backoff_run]
    rfl

/-- The wait that the settings call for after refusals in a row: the first one, doubled with every
further refusal, at most sixteen times and up to the limit. -/
def doubledWait (s : Settings.Provider) (k : Nat) : Nat :=
  min (max s.retryBaseMs s.retryMaxMs) (s.retryBaseMs * 2 ^ min (k - 1) 16)

variable {s : Settings.Provider}

theorem wait_ofNat (hbase : s.retryBaseMs < 2 ^ 64) (hmax : s.retryMaxMs < 2 ^ 64) (k : Nat) :
    (Backoff.ofSettings s).wait (.ofNat k) = doubledWait s (k % 2 ^ 32) := by
  have hspan : (Backoff.ofSettings s).maxMs < Backoff.spanBound := by
    show max s.retryBaseMs s.retryMaxMs < 2 ^ 64 * 1000
    omega
  rw [Backoff.wait_eq hspan, UInt32.toNat_ofNat']
  rfl

/-- Within its 32 bits the count never makes a wait shorter. -/
theorem wait_ofNat_mono (b : Backoff) {j k : Nat} (hk : k < 2 ^ 32) (hj : j ≤ k) :
    b.wait (.ofNat j) ≤ b.wait (.ofNat k) := by
  refine b.wait_mono ?_
  rw [UInt32.le_iff_toNat_le, UInt32.toNat_ofNat', UInt32.toNat_ofNat']
  omega

/-- However the provider answers its calls and whenever, who is refused is asked for again when the
wait is over, and not before. The wait is that of the refusals in a row as they are counted in 32
bits, and so the one that the settings call for after any smaller number of them. -/
theorem punctual_of_run (s : Settings.Provider) (hbase : s.retryBaseMs < 2 ^ 64)
    (hmax : s.retryMaxMs < 2 ^ 64) (acts : List Act)
    (h : (new (.ofSettings s)).Genuine [] acts) :
    Punctual (.ofSettings s) acts ∧
      (∀ k, (Backoff.ofSettings s).wait (.ofNat k) = doubledWait s (k % 2 ^ 32) ∧
        s.retryBaseMs ≤ (Backoff.ofSettings s).wait (.ofNat k) ∧
        (Backoff.ofSettings s).wait (.ofNat k) ≤ max s.retryBaseMs s.retryMaxMs) ∧
      ∀ k < 2 ^ 32, (Backoff.ofSettings s).wait (.ofNat k) = doubledWait s k ∧
        ∀ j ≤ k,
          (Backoff.ofSettings s).wait (.ofNat j) ≤ (Backoff.ofSettings s).wait (.ofNat k) := by
  have hnew := flights_new (.ofSettings s)
  have hflights := flights_run hnew acts
  have htried := fun a => tried_run hnew h (tried_new (.ofSettings s) a)
  have hdue := fun a t => waitsUntil_iff (a := a) hflights.referred t
  have hwait := wait_ofNat hbase hmax
  refine ⟨⟨fun a epoch f e => refused_run hflights (htried a), fun a e n dueAt hg hs => ?_,
    fun a t ha => ?_, fun t => ⟨fun c hc => ?_, fun a ha => ?_⟩⟩,
    fun k => ⟨hwait k, ?_, ?_⟩, fun k hk => ⟨?_, ?_⟩⟩
  · have hwaits := (htried a).waits e n dueAt hg hs
    rwa [backoff_run] at hwaits
  · obtain ⟨e, hg, hdue⟩ := (hdue a t).1 ha
    obtain ⟨epoch, hcalls, hget⟩ := get?_retryDue_of_due hg hdue
    exact ⟨epoch, _, hcalls, hget, rfl, rfl⟩
  · rw [retryDue_eq] at hc
    obtain ⟨x, hx, epoch, rfl⟩ := mem_startEach hc
    exact ⟨x.1, (hdue x.1 t).2 ⟨x.2, mem_due.1 hx⟩, beq_self_eq_true x.1⟩
  · refine get?_retryDue_of_not_due fun e hg => Bool.eq_false_iff.2 fun he => ha ?_
    exact (hdue a t).2 ⟨e, hg, he⟩
  · exact Backoff.base_le_wait s _
  · exact Backoff.wait_le_max _ _
  · rw [hwait k, Nat.mod_eq_of_lt hk]
  · exact fun j hj => wait_ofNat_mono _ hk hj

/-- An address that is refused, starts over with another one, and is refused twice in a row; the
answer to a call from before does not count. -/
def hardToGet : List Act :=
  [.use (.acquire "A" none) 0, .use (.acquire "B" (some "r")) 0, .complete "A" 1 none 100,
    .retry 500, .resubscribe 600, .complete "B" 2 none 650, .complete "A" 5 none 700, .retry 1700,
    .complete "A" 7 none 2000]

theorem punctual_hardToGet :
    (new (.ofSettings {})).Genuine [] hardToGet ∧ Punctual (.ofSettings {}) hardToGet ∧
      ((new (.ofSettings {})).marks "A" hardToGet)
        = [.watched, .refused 100, .startedOver, .refused 700, .refused 2000] ∧
      (((new (.ofSettings {})).run hardToGet).get? "A").map (·.stage) = some (.pending 2 4000) ∧
      (((new (.ofSettings {})).run hardToGet).retryDue 3999).2 = [] ∧
      (((new (.ofSettings {})).run hardToGet).retryDue 4000).2 = [.subscribe "A" 8] ∧
      (((new (.ofSettings {})).run (hardToGet ++ [.complete "B" 6 none 2100])).get? "B").map
        (·.stage) = some (.pending 1 3100) := by
  have hgenuine : (new (.ofSettings {})).Genuine [] hardToGet := by decide
  have hpunctual := (punctual_of_run {} (by decide) (by decide) hardToGet hgenuine).1
  exact ⟨hgenuine, hpunctual, by decide, by decide, by decide, by decide, by decide⟩

/-! ## More refusals than are counted -/

theorem outAt_append (w : Watches) (out : List (String × Nat)) (acts acts' : List Act) :
    w.outAt out (acts ++ acts') = (w.run acts).outAt (w.outAt out acts) acts' := by
  induction acts generalizing w out with
  | nil => rfl
  | cons x acts ih => exact ih ..

theorem genuine_append {acts acts' : List Act} : w.Genuine out (acts ++ acts') ↔
    w.Genuine out acts ∧ (w.run acts).Genuine (w.outAt out acts) acts' := by
  induction acts generalizing w out with
  | nil => exact (iff_of_eq (true_and _)).symm
  | cons x acts ih => exact (and_congr_right' ih).trans and_assoc.symm

/-- The address `A` is the only one that is watched, and it has started the last call. -/
structure Alone (w : Watches) (e : Watch) : Prop where
  entries : w.entries.entries = [("A", e)]
  lastEpoch : w.lastEpoch = e.epoch
  backoff : w.backoff = .ofSettings {}

variable {e : Watch} {now : Nat}

theorem Alone.get? (h : w.Alone e) : w.get? "A" = some e := by
  unfold Watches.get? Table.get?
  rw [h.entries]
  rfl

theorem Alone.refused (h : w.Alone e) (hs : e.stage = .inFlight) (now : Nat) :
    (w.act (.complete "A" e.epoch none now)).Alone (e.failed (.ofSettings {}) now) := by
  have hcompleted := complete_failed ⟨h.get?, rfl, hs⟩ now
  have hentries : Table.put "A" (e.failed w.backoff now) w.entries.entries
      = [("A", e.failed (.ofSettings {}) now)] := by
    rw [h.entries, h.backoff]
    rfl
  show (w.complete "A" e.epoch none now).1.Alone _
  rw [hcompleted]
  exact ⟨hentries, h.lastEpoch, h.backoff⟩

theorem Alone.retryDue (h : w.Alone e) (hdue : e.isDue now = true) :
    w.retryDue now = ((w.start "A" e).1, [.subscribe "A" (e.epoch + 1)]) := by
  have honly : w.due now = [("A", e)] := by
    unfold due
    rw [h.entries, List.filter_eq_self]
    intro x hx
    obtain rfl := List.mem_singleton.1 hx
    exact hdue
  rw [retryDue_eq, honly, ← h.lastEpoch]
  rfl

theorem Alone.retried (h : w.Alone e) (hdue : e.isDue now = true) :
    (w.act (.retry now)).Alone { e with stage := .inFlight, epoch := e.epoch + 1 } := by
  show (w.retryDue now).1.Alone _
  rw [h.retryDue hdue]
  refine ⟨?_, congrArg (· + 1) h.lastEpoch, h.backoff⟩
  show Table.put "A" { e with stage := .inFlight, epoch := w.lastEpoch + 1 } w.entries.entries = _
  rw [h.entries, h.lastEpoch]
  rfl

/-- After acts only the address `A` is watched, with such an entry, such calls are out, and there have
been so many refusals in a row. -/
structure Worn (acts : List Act) (e : Watch) (out : List (String × Nat)) (k : Nat) : Prop where
  alone : ((new (.ofSettings {})).run acts).Alone e
  genuine : (new (.ofSettings {})).Genuine [] acts
  out : (new (.ofSettings {})).outAt [] acts = out
  count : refusals ((new (.ofSettings {})).marks "A" acts) = k

variable {acts : List Act} {k : Nat}

theorem Worn.refused (h : Worn acts e [("A", e.epoch)] k) (hs : e.stage = .inFlight) (f : Nat) :
    Worn (acts ++ [.complete "A" e.epoch none f]) (e.failed (.ofSettings {}) f) [] (k + 1) where
  alone := by
    rw [run_append]
    exact h.alone.refused hs f
  genuine := by
    rw [genuine_append, h.out]
    refine ⟨h.genuine, fun c hc => ?_, trivial⟩
    obtain rfl := Option.mem_some.1 hc
    exact List.mem_singleton_self _
  out := by
    have herase : [("A", e.epoch)].erase ("A", e.epoch) = [] := List.erase_cons_head ..
    rw [outAt_append, h.out]
    show [("A", e.epoch)].erase ("A", e.epoch) ++ asked (calls _ _) = []
    rw [herase, asked_complete]
    rfl
  count := by rw [marks_append, marks_refused h.alone.get?, refusals_append_refused, h.count]

theorem Worn.retried (h : Worn acts e [] k) (hdue : e.isDue now = true) :
    Worn (acts ++ [.retry now]) { e with stage := .inFlight, epoch := e.epoch + 1 }
      [("A", e.epoch + 1)] k where
  alone := by
    rw [run_append]
    exact h.alone.retried hdue
  genuine := by
    rw [genuine_append]
    exact ⟨h.genuine, fun _ hc => (nomatch hc), trivial⟩
  out := by
    rw [outAt_append, h.out]
    show asked (((new (.ofSettings {})).run acts).retryDue now).2 = _
    rw [h.alone.retryDue hdue]
    rfl
  count := by
    rw [marks_append]
    exact (congrArg refusals (List.append_nil _)).trans h.count

/-- The entry of an address that has been refused `n` times and is called for once more. -/
def worn (n : Nat) : Watch := ⟨1, [], .inFlight, n + 1, .ofNat n⟩

/-- The address is refused at the beginning of every minute and called for again at its end. -/
def tireless : Nat → List Act
  | 0 => [.use (.acquire "A" none) 0]
  | n + 1 => tireless n ++ [.complete "A" (n + 1) none (60000 * n)] ++ [.retry (60000 * (n + 1))]

theorem worn_tireless (n : Nat) : Worn (tireless n) (worn n) [("A", n + 1)] n := by
  induction n with
  | zero => exact ⟨⟨rfl, rfl, rfl⟩, by decide, by decide, by decide⟩
  | succ n ih =>
    have hwait := (Backoff.ofSettings {}).wait_le_max ((worn n).attempts + 1)
    have hdue : ((worn n).failed (.ofSettings {}) (60000 * n)).isDue (60000 * (n + 1)) = true :=
      isDue_iff.2 ⟨_, _, rfl, Nat.add_le_add_left hwait (60000 * n), Nat.le_refl 1⟩
    have hnext : { (worn n).failed (.ofSettings {}) (60000 * n) with
        stage := .inFlight, epoch := n + 2 } = worn (n + 1) := by
      unfold worn Watch.failed
      rw [UInt32.ofNat_add]
      rfl
    unfold tireless
    rw [← hnext]
    exact (ih.refused rfl (60000 * n)).retried hdue

-- So many acts are not to be computed.
attribute [local irreducible] tireless

/-- The address is refused more often than is counted. -/
def exhausting : List Act :=
  tireless (2 ^ 32 - 1) ++ [.complete "A" (2 ^ 32) none 257698037700000]

/-- After so many refusals the wait is as short as after the first one. -/
theorem not_doubled_tireless :
    (new (.ofSettings {})).Genuine [] exhausting ∧
      refusals ((new (.ofSettings {})).marks "A" exhausting) = 2 ^ 32 ∧
      doubledWait {} (2 ^ 32) = 60000 ∧
      (((new (.ofSettings {})).run exhausting).get? "A").map (·.stage)
        = some (.pending 0 (257698037700000 + 1000)) := by
  obtain ⟨halone, hgenuine, _, hcount⟩ :=
    (worn_tireless (2 ^ 32 - 1)).refused rfl 257698037700000
  unfold exhausting
  refine ⟨hgenuine, hcount, by decide, ?_⟩
  refine (congrArg (Option.map (·.stage)) halone.get?).trans ?_
  decide

end SwapFloor.Watches
