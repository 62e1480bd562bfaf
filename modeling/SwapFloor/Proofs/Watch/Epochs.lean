import SwapFloor.Proofs.Watch.Moves

/-!
# Calls that are not completed yet

A call for a subscription is told from earlier ones for the same address by its epoch. `Flights`
says how the calls that are not completed yet belong to the entries: whoever waits for a call has
one of its own epoch out, and a call of an entry's epoch is for that entry, which waits for it. A
call whose entry has gone or started over belongs to nobody.

Main statements: every operation and every completion keeps this up, with the calls that it adds
or takes away.
-/

namespace SwapFloor.Watches

/-- The calls for a subscription among calls to the provider, each with its address and epoch. -/
def asked (calls : List Call) : List (String × Nat) :=
  calls.filterMap fun
    | .subscribe a epoch => some (a, epoch)
    | .unsubscribe _ => none

/-- The subscriptions that calls to the provider give back. -/
def returned (calls : List Call) : List SubscriptionId :=
  calls.filterMap fun
    | .subscribe _ _ => none
    | .unsubscribe id => some id

/-- A round of tries gives no subscription back. -/
theorem returned_retryDue (w : Watches) (now : Nat) : returned (w.retryDue now).2 = [] := by
  rw [retryDue_eq, returned, List.filterMap_eq_nil_iff]
  intro c hc
  obtain ⟨_, _, _, rfl⟩ := mem_startEach hc
  rfl

/-- How the calls `out`, which are not completed, belong to the entries. -/
structure Flights (w : Watches) (out : List (String × Nat)) : Prop where
  referred : w.Referred
  epoch_le : ∀ a e, w.get? a = some e → e.epoch ≤ w.lastEpoch
  call_le : ∀ c ∈ out, c.2 ≤ w.lastEpoch
  distinct : (out.map Prod.snd).Nodup
  /-- The call that an entry waits for is out. -/
  awaited : ∀ a e, w.get? a = some e → e.stage = .inFlight → (a, e.epoch) ∈ out
  /-- A call of an entry's epoch is the one that the entry waits for. -/
  current : ∀ a e c, w.get? a = some e → c ∈ out → c.2 = e.epoch → c.1 = a ∧ e.stage = .inFlight

theorem flights_new (b : Backoff) : Flights (new b) [] where
  referred _ _ hg := nomatch hg
  epoch_le _ _ hg := nomatch hg
  call_le _ hc := nomatch hc
  distinct := List.nodup_nil
  awaited _ _ hg := nomatch hg
  current _ _ _ hg := nomatch hg

namespace Flights

variable {w w' : Watches} {out : List (String × Nat)} {a : String} {e e' : Watch}

theorem of_same (h : w.Flights out) (hget : ∀ a, w'.get? a = w.get? a)
    (hlast : w'.lastEpoch = w.lastEpoch) : w'.Flights out where
  referred a e hg := h.referred a e (hget a ▸ hg)
  epoch_le a e hg := hlast ▸ h.epoch_le a e (hget a ▸ hg)
  call_le c hc := hlast ▸ h.call_le c hc
  distinct := h.distinct
  awaited a e hg := h.awaited a e (hget a ▸ hg)
  current a e c hg := h.current a e c (hget a ▸ hg)

/-- An entry may change as long as it waits for the same call. -/
theorem put_same (h : w.Flights out) (hg : w.get? a = some e) (hrefs : 1 ≤ e'.refs)
    (hstage : e'.stage = e.stage) (hepoch : e'.epoch = e.epoch) : (w.put a e').Flights out := by
  have hold : ∀ b d, (w.put a e').get? b = some d → ∃ d', w.get? b = some d' ∧
      (1 ≤ d'.refs → 1 ≤ d.refs) ∧ d.stage = d'.stage ∧ d.epoch = d'.epoch := by
    intro b d hd
    rcases of_get?_put hd with ⟨hd, _⟩ | ⟨rfl, rfl⟩
    · exact ⟨d, hd, fun hr => hr, rfl, rfl⟩
    · exact ⟨e, hg, fun _ => hrefs, hstage, hepoch⟩
  refine ⟨fun b d hd => ?_, fun b d hd => ?_, h.call_le, h.distinct, fun b d hd => ?_,
    fun b d c hd => ?_⟩ <;> obtain ⟨d', hg', hr, hs, hep⟩ := hold b d hd
  · exact hr (h.referred b d' hg')
  · rw [hep]
    exact h.epoch_le b d' hg'
  · rw [hs, hep]
    exact h.awaited b d' hg'
  · rw [hs, hep]
    exact h.current b d' c hg'

/-- A new call has an epoch that no other call and no other entry has. -/
theorem start (h : w.Flights out) (a : String) (hrefs : 1 ≤ e.refs) :
    (w.start a e).1.Flights (out ++ [(a, w.lastEpoch + 1)]) := by
  have hlast : (w.start a e).1.lastEpoch = w.lastEpoch + 1 := rfl
  have hcall : ∀ c ∈ out ++ [(a, w.lastEpoch + 1)],
      c ∈ out ∧ c.2 ≤ w.lastEpoch ∨ c = (a, w.lastEpoch + 1) := fun c hc =>
    (List.mem_append.1 hc).imp (fun hc => ⟨hc, h.call_le c hc⟩) List.mem_singleton.1
  have hentry : ∀ b d, (w.start a e).1.get? b = some d →
      w.get? b = some d ∧ b ≠ a ∨
        b = a ∧ d = { e with stage := .inFlight, epoch := w.lastEpoch + 1 } :=
    fun _ _ hd => of_get?_put hd
  refine ⟨fun b d hd => ?_, fun b d hd => ?_, fun c hc => ?_, ?_, fun b d hd hs => ?_,
    fun b d c hd hc he => ?_⟩
  · rcases hentry b d hd with ⟨hg, _⟩ | ⟨_, rfl⟩
    · exact h.referred b d hg
    · exact hrefs
  · rcases hentry b d hd with ⟨hg, _⟩ | ⟨_, rfl⟩
    · exact Nat.le_succ_of_le (h.epoch_le b d hg)
    · exact Nat.le_refl _
  · rcases hcall c hc with ⟨_, hle⟩ | rfl
    · exact Nat.le_succ_of_le hle
    · exact Nat.le_refl _
  · rw [List.map_append, List.nodup_append]
    refine ⟨h.distinct, List.nodup_singleton _, fun x hx y hy => ?_⟩
    obtain ⟨c, hc, rfl⟩ := List.mem_map.1 hx
    have := h.call_le c hc
    have : y = w.lastEpoch + 1 := List.mem_singleton.1 hy
    omega
  · rcases hentry b d hd with ⟨hg, _⟩ | ⟨rfl, rfl⟩
    · exact List.mem_append_left _ (h.awaited b d hg hs)
    · exact List.mem_append_right _ (List.mem_singleton.2 rfl)
  · rcases hentry b d hd with ⟨hg, _⟩ | ⟨rfl, rfl⟩
    · have := h.epoch_le b d hg
      rcases hcall c hc with ⟨hc, _⟩ | rfl
      · exact h.current b d c hg hc he
      · dsimp only at he
        omega
    · rcases hcall c hc with ⟨_, hle⟩ | rfl
      · dsimp only at he
        omega
      · exact ⟨rfl, rfl⟩

theorem gone (h : w.Flights out) (hgone : Gone w w' a e) : w'.Flights out := by
  have hold : ∀ b d, w'.get? b = some d → w.get? b = some d := by
    intro b d hd
    rw [hgone.get?] at hd
    split at hd
    · exact nomatch hd
    · exact hd
  have hlast := hgone.lastEpoch
  exact ⟨fun b d hd => h.referred b d (hold b d hd),
    fun b d hd => hlast ▸ h.epoch_le b d (hold b d hd), fun c hc => hlast ▸ h.call_le c hc,
    h.distinct, fun b d hd => h.awaited b d (hold b d hd),
    fun b d c hd => h.current b d c (hold b d hd)⟩

/-- A call that is completed and awaited by nobody may be forgotten. -/
theorem forget {epoch : Nat} (h : w.Flights out) (hnot : ∀ e, ¬ w.Awaits a epoch e) :
    w.Flights (out.erase (a, epoch)) where
  referred := h.referred
  epoch_le := h.epoch_le
  call_le c hc := h.call_le c (List.mem_of_mem_erase hc)
  distinct := h.distinct.sublist (List.erase_sublist.map _)
  awaited b d hd hs := by
    refine (List.mem_erase_of_ne fun heq => ?_).2 (h.awaited b d hd hs)
    obtain ⟨rfl, rfl⟩ := Prod.mk.inj heq
    exact hnot d ⟨hd, rfl, hs⟩
  current b d c hd hc := h.current b d c hd (List.mem_of_mem_erase hc)

/-- An entry whose call is completed waits no longer. -/
theorem settle {epoch : Nat} (h : w.Flights out) (hw : w.Awaits a epoch e)
    (hrefs : e'.refs = e.refs) (hepoch : e'.epoch = e.epoch) (hstage : e'.stage ≠ .inFlight) :
    (w.put a e').Flights (out.erase (a, epoch)) := by
  obtain ⟨hg, rfl, hs⟩ := hw
  have hmem := h.awaited a e hg hs
  refine ⟨fun b d hd => ?_, fun b d hd => ?_, fun c hc => h.call_le c (List.mem_of_mem_erase hc),
    h.distinct.sublist (List.erase_sublist.map _), fun b d hd hsd => ?_, fun b d c hd hc he => ?_⟩
  · rcases of_get?_put hd with ⟨hg', _⟩ | ⟨rfl, rfl⟩
    · exact h.referred b d hg'
    · rw [hrefs]
      exact h.referred b e hg
  · rcases of_get?_put hd with ⟨hg', _⟩ | ⟨rfl, rfl⟩
    · exact h.epoch_le b d hg'
    · rw [hepoch]
      exact h.epoch_le b e hg
  · rcases of_get?_put hd with ⟨hg', hb⟩ | ⟨_, rfl⟩
    · exact (List.mem_erase_of_ne fun heq => hb (Prod.mk.inj heq).1).2 (h.awaited b d hg' hsd)
    · exact absurd hsd hstage
  · have hc' := List.mem_of_mem_erase hc
    rcases of_get?_put hd with ⟨hg', _⟩ | ⟨rfl, rfl⟩
    · exact h.current b d c hg' hc' he
    · -- The only call of this epoch was the one that is completed.
      have hsame : c = (b, e.epoch) :=
        List.inj_on_of_nodup_map h.distinct hc' hmem (he.trans hepoch)
      have hnd : out.Nodup := h.distinct.of_map
      exact absurd (hsame ▸ hc) hnd.not_mem_erase

theorem restart (h : w.Flights out) (a : String) (now : Nat) : (w.restart a now).Flights out := by
  cases hg : w.get? a with
  | none =>
    refine h.of_same (fun b => ?_) ?_
    · rw [get?_restart, hg]
      split
      · rename_i hb
        rw [hb, hg]
        rfl
      · rfl
    · unfold Watches.restart
      rw [hg]
  | some e =>
    have hlast : (w.restart a now).lastEpoch = w.lastEpoch + 1 := by
      unfold Watches.restart
      rw [hg]
    have hentry : ∀ b d, (w.restart a now).get? b = some d → w.get? b = some d ∨
        b = a ∧
          d = { e with attempts := 0, epoch := w.lastEpoch + 1, stage := .pending 0 now } := by
      intro b d hd
      rw [get?_restart, hg] at hd
      split at hd
      · rename_i hb
        exact Or.inr ⟨hb, (Option.some.inj hd).symm⟩
      · exact Or.inl hd
    refine ⟨fun b d hd => ?_, fun b d hd => ?_, fun c hc => ?_, h.distinct, fun b d hd hs => ?_,
      fun b d c hd hc he => ?_⟩
    · rcases hentry b d hd with hg' | ⟨_, rfl⟩
      · exact h.referred b d hg'
      · exact h.referred a e hg
    · rw [hlast]
      rcases hentry b d hd with hg' | ⟨_, rfl⟩
      · exact Nat.le_succ_of_le (h.epoch_le b d hg')
      · exact Nat.le_refl _
    · rw [hlast]
      exact Nat.le_succ_of_le (h.call_le c hc)
    · rcases hentry b d hd with hg' | ⟨_, rfl⟩
      · exact h.awaited b d hg' hs
      · exact nomatch hs
    · rcases hentry b d hd with hg' | ⟨_, rfl⟩
      · exact h.current b d c hg' hc he
      · have := h.call_le c hc
        dsimp only at he
        omega

theorem restartAll (h : w.Flights out) (now : Nat) : (w.restartAll now).Flights out := by
  have hrun : ∀ (l : List String) (s : Watches), s.Flights out →
      (l.foldl (fun w a => w.restart a now) s).Flights out := by
    intro l
    induction l with
    | nil => exact fun s hs => hs
    | cons a l ih => exact fun s hs => ih _ (hs.restart a now)
  exact (hrun w.entries.keys w.forgetIds (h.of_same (fun _ => rfl) rfl)).of_same (fun _ => rfl) rfl

theorem startEach (h : w.Flights out) {l : List (String × Watch)} (hl : ∀ x ∈ l, 1 ≤ x.2.refs) :
    (w.startEach l).1.Flights (out ++ asked (w.startEach l).2) := by
  induction l generalizing w out with
  | nil =>
    show w.Flights (out ++ [])
    rwa [List.append_nil]
  | cons x l ih =>
    obtain ⟨hx, hl⟩ := List.forall_mem_cons.1 hl
    have hrest := ih (h.start x.1 hx) hl
    rwa [List.append_assoc] at hrest

theorem retryDue (h : w.Flights out) (now : Nat) :
    (w.retryDue now).1.Flights (out ++ asked (w.retryDue now).2) := by
  rw [retryDue_eq]
  refine h.startEach fun x hx => ?_
  obtain ⟨_, _, _, _, hrefs⟩ := isDue_iff.1 (mem_due.1 hx).2
  exact hrefs

theorem resubscribeAll (h : w.Flights out) (now : Nat) :
    (w.resubscribeAll now).1.Flights (out ++ asked (w.resubscribeAll now).2) :=
  (h.restartAll now).retryDue now

theorem acquire (h : w.Flights out) (a : String) (room : Option String) (now : Nat) :
    (w.acquire a room now).1.Flights (out ++ asked (w.acquire a room now).2.toList) := by
  have hnil : out ++ asked [] = out := List.append_nil out
  rcases acquire_cases h.referred a room now with he | ⟨e, rooms, hg, he⟩ | ⟨_, e, hone, he⟩
  · rw [he, Option.toList_none, hnil]
    exact h
  · rw [he, Option.toList_none, hnil]
    exact h.put_same hg (Nat.le_add_left ..) rfl rfl
  · rw [he]
    exact h.start a (Nat.le_of_eq hone.symm)

theorem release (h : w.Flights out) (a : String) (room : Option String) :
    (w.release a room).1.Flights (out ++ asked (w.release a room).2.toList) := by
  have hnil : out ++ asked [] = out := List.append_nil out
  rcases release_cases h.referred a room with he | ⟨e, rooms, hg, hmore, he⟩ | hgo
  · rw [he, Option.toList_none, hnil]
    exact h
  · rw [he, Option.toList_none, hnil]
    exact h.put_same hg (Nat.le_sub_one_of_lt hmore) rfl rfl
  · generalize w.release a room = x at hgo
    cases hgo with
    | idle hgone =>
      rw [Option.toList_none, hnil]
      exact h.gone hgone
    | active hgone =>
      exact (List.append_nil out).symm ▸ h.gone hgone

/-- Whatever becomes of a call, it is not out any more. -/
theorem complete (h : w.Flights out) (a : String) (epoch : Nat) (result : Option SubscriptionId)
    (now : Nat) : (w.complete a epoch result now).1.Flights (out.erase (a, epoch)) := by
  have hcompleted := completed_complete w a epoch result now
  generalize w.complete a epoch result now = x at hcompleted
  cases hcompleted with
  | @granted e hawaits id =>
    have hput : (w.put a { e with stage := .active id, attempts := 0 }).Flights
        (out.erase (a, epoch)) := h.settle hawaits rfl rfl nofun
    exact hput.of_same (fun _ => rfl) rfl
  | @refused e hawaits =>
    have hput : (w.put a (e.failed w.backoff now)).Flights (out.erase (a, epoch)) :=
      h.settle hawaits rfl rfl nofun
    exact hput.of_same (fun _ => rfl) rfl
  | outdated hnot => exact (h.forget hnot).of_same (fun _ => rfl) rfl

end Flights

end SwapFloor.Watches
