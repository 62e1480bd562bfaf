import SwapFloor.Proofs.Watch.Holdings
import SwapFloor.Proofs.Watch.Tally

/-!
# What an address keeps

An address goes on to hold its subscription for as long as it is watched. Others may be watched or
let go, calls may be completed or tried again in the meantime. Only a start over with all addresses
takes it away.

For this the provider must not grant a subscription that another address holds (`Undisputed`). Main
statements: then entries and subscriptions go on to agree (`Turn.matched`), and an address that is
watched afterwards still holds what it held, or all have started over (`Turn.holds`).
-/

namespace SwapFloor.Watches

/-! ## Turns -/

/-- Rooms turn away, each from an address. -/
def letGo (w : Watches) (gone : List (String × String)) : Watches :=
  gone.foldl (fun w x => (w.release x.1 (some x.2)).1) w

/-- What is done at a time: one act, or several rooms turn away. -/
inductive Turn (w : Watches) : Watches → Prop
  | act (x : Act) : Turn w (w.act x)
  | letGo (gone : List (String × String)) : Turn w (w.letGo gone)

theorem Turn.refl (w : Watches) : Turn w w := .letGo []

theorem Turn.of_eq {w w' : Watches} (h : w' = w) : Turn w w' := h.symm ▸ .refl w

/-- No address comes to hold a subscription that another one has held. -/
def Undisputed (w w' : Watches) : Prop := ∀ a b id, w.Holds a id → w'.Holds b id → a = b

/-- Everything that is watched is referred to, and the addresses of subscriptions are those that
hold them. -/
structure Matched (w : Watches) : Prop where
  referred : w.Referred
  mapped : w.Mapped

theorem matched_new (b : Backoff) : (new b).Matched where
  referred _ _ hg := nomatch hg
  mapped _ _ := ⟨fun hn => (nomatch hn), fun ⟨_, hg, _⟩ => (nomatch hg)⟩

variable {w w' : Watches} {a b : String} {e e' : Watch} {id : SubscriptionId}

theorem Referred.of_claims (h : w.Referred) (hclaims : ∀ a, w'.claims a = w.claims a) :
    w'.Referred := by
  intro a e' hg'
  have hsame := (hclaims a).symm.trans (claims_of_get? hg')
  unfold claims at hsame
  obtain ⟨e, hg, heq⟩ := Option.map_eq_some_iff.1 hsame
  rw [← (Prod.mk.inj heq).1]
  exact h a e hg

theorem Referred.put (h : w.Referred) (he : 1 ≤ e.refs) : (w.put a e).Referred := by
  intro b d hd
  rcases of_get?_put hd with ⟨hd, _⟩ | ⟨_, rfl⟩
  · exact h b d hd
  · exact he

/-! ## Holding on -/

theorem Holds.of_get? (h : w.Holds a id) (hg : w'.get? a = w.get? a) : w'.Holds a id := by
  unfold Holds
  rw [hg]
  exact h

/-- An address holds on to its subscription while an entry is put in a place, unless it is the
place of the address and the entry is at another stage. -/
theorem Holds.put (h : w.Holds a id) (hs : a = b → e.stage = .active id) :
    (w.put b e).Holds a id := by
  by_cases ha : a = b
  · exact ⟨e, (get?_put ..).trans (if_pos ha), hs ha⟩
  · exact h.of_get? ((get?_put ..).trans (if_neg ha))

theorem Holds.ne_of_stage (h : w.Holds a id) (hg : w.get? b = some e)
    (hs : e.stage ≠ .active id) : a ≠ b := by
  rintro rfl
  exact hs ((holds_iff_of_get? hg id).1 h)

theorem Undisputed.of_nil (h : w.activeIds = [] ∨ w'.activeIds = []) : w.Undisputed w' := by
  intro a b id ha hb
  rcases h with h | h
  · exact absurd (mem_activeIds.2 ⟨a, ha⟩) (h ▸ List.not_mem_nil)
  · exact absurd (mem_activeIds.2 ⟨b, hb⟩) (h ▸ List.not_mem_nil)

theorem Undisputed.of_eq (hm : w.Matched) (h : w' = w) : w.Undisputed w' := by
  subst h
  exact fun _ _ _ => hm.mapped.unique

/-! ### Rooms that come -/

theorem Referred.acquire (h : w.Referred) (a : String) (room : Option String) (now : Nat) :
    (w.acquire a room now).1.Referred := by
  rcases acquire_cases h a room now with he | ⟨e, rooms, _, he⟩ | ⟨_, e, hone, he⟩
  · rw [he]
    exact h
  · rw [he]
    exact h.put (Nat.le_add_left ..)
  · rw [he]
    exact h.put (Nat.le_of_eq hone.symm)

theorem matched_acquire (hm : w.Matched) (a : String) (room : Option String) (now : Nat) :
    (w.acquire a room now).1.Matched := by
  refine ⟨hm.referred.acquire a room now, ?_⟩
  rcases acquire_cases hm.referred a room now with he | ⟨e, rooms, hg, he⟩ | ⟨hg, e, _, he⟩
  · rw [he]
    exact hm.mapped
  · have hsame := holds_iff_of_get? hg
    rw [he]
    exact hm.mapped.put hsame
  · rw [he]
    have hnone : ∀ id, ¬ w.Holds a id := fun id ⟨_, hg', _⟩ => nomatch hg.symm.trans hg'
    refine Mapped.of_same (w := w.put a { e with stage := .inFlight, epoch := w.lastEpoch + 1 })
      (hm.mapped.put fun id => ?_) (fun _ => rfl) rfl
    exact ⟨fun hh => absurd hh (hnone id), fun hn => (nomatch hn)⟩

theorem Holds.acquire (h : w.Holds a id) (hr : w.Referred) (b : String) (room : Option String)
    (now : Nat) : (w.acquire b room now).1.Holds a id := by
  rcases acquire_cases hr b room now with he | ⟨e, rooms, hg, he⟩ | ⟨hg, e, _, he⟩
  · rw [he]
    exact h
  · rw [he]
    refine h.put ?_
    rintro rfl
    exact (holds_iff_of_get? hg id).1 h
  · rw [he]
    -- An address that nobody watches holds nothing.
    refine Holds.of_get? h ((get?_start ..).trans (if_neg ?_))
    rintro rfl
    obtain ⟨_, hg', _⟩ := h
    exact nomatch hg.symm.trans hg'

/-! ### Rooms that go -/

theorem Referred.release (h : w.Referred) (a : String) (room : Option String) :
    (w.release a room).1.Referred := by
  have hrefers : ∀ {w' e}, Gone w w' a e → w'.Referred := by
    intro w' e hgone b d hd
    rw [hgone.get?] at hd
    split at hd
    · exact nomatch hd
    · exact h b d hd
  rcases release_cases h a room with he | ⟨e, rooms, _, hmore, he⟩ | hgo
  · rw [he]
    exact h
  · rw [he]
    exact h.put (Nat.le_sub_one_of_lt hmore)
  · generalize w.release a room = x at hgo
    cases hgo with
    | idle hgone => exact hrefers hgone
    | active hgone => exact hrefers hgone

theorem matched_release (hm : w.Matched) (a : String) (room : Option String) :
    (w.release a room).1.Matched := by
  refine ⟨hm.referred.release a room, ?_⟩
  rcases release_cases hm.referred a room with he | ⟨e, rooms, hg, _, he⟩ | hgo
  · rw [he]
    exact hm.mapped
  · have hsame := holds_iff_of_get? hg
    rw [he]
    exact hm.mapped.put hsame
  · exact hm.mapped.letGo hgo

/-- An address that is let go gives its subscription back. -/
theorem Holds.release (h : w.Holds a id) (hr : w.Referred) (b : String) (room : Option String) :
    (w.release b room).1.Holds a id ∨ (w.release b room).2 = some (.unsubscribe id) := by
  rcases release_cases hr b room with he | ⟨e, rooms, hg, _, he⟩ | hgo
  · rw [he]
    exact Or.inl h
  · rw [he]
    refine Or.inl (h.put ?_)
    rintro rfl
    exact (holds_iff_of_get? hg id).1 h
  · generalize w.release b room = x at hgo
    cases hgo with
    | idle hgone hidle =>
      have hne : a ≠ b := by
        rintro rfl
        exact hidle id ((holds_iff_of_get? hgone.there id).1 h)
      exact Or.inl (h.of_get? ((hgone.get? a).trans (if_neg hne)))
    | active hgone hactive =>
      by_cases ha : a = b
      · subst ha
        obtain rfl := Stage.active.inj (((holds_iff_of_get? hgone.there id).1 h).symm.trans hactive)
        exact Or.inr rfl
      · exact Or.inl (h.of_get? ((hgone.get? a).trans (if_neg ha)))

/-- What is still watched when a room has turned away is at the stage at which it was, and has
failed as often. -/
theorem entry_release (hr : w.Referred) (b : String) (room : Option String)
    (hg' : (w.release b room).1.get? a = some e') :
    ∃ e, w.get? a = some e ∧ e'.stage = e.stage ∧ e'.attempts = e.attempts := by
  have hstays : ∀ {w' e}, Gone w w' b e → w'.get? a = some e' →
      ∃ e, w.get? a = some e ∧ e'.stage = e.stage ∧ e'.attempts = e.attempts := by
    intro w' e hgone hg'
    rw [hgone.get?] at hg'
    split at hg'
    · exact nomatch hg'
    · exact ⟨e', hg', rfl, rfl⟩
  rcases release_cases hr b room with he | ⟨e, rooms, hg, _, he⟩ | hgo
  · rw [he] at hg'
    exact ⟨e', hg', rfl, rfl⟩
  · rw [he] at hg'
    rcases of_get?_put hg' with ⟨hg', _⟩ | ⟨rfl, rfl⟩
    · exact ⟨e', hg', rfl, rfl⟩
    · exact ⟨e, hg, rfl, rfl⟩
  · generalize w.release b room = x at hgo hg'
    cases hgo with
    | idle hgone => exact hstays hgone hg'
    | active hgone => exact hstays hgone hg'

theorem stage_release (hr : w.Referred) (b : String) (room : Option String)
    (hg' : (w.release b room).1.get? a = some e') :
    ∃ e, w.get? a = some e ∧ e'.stage = e.stage := by
  obtain ⟨e, hg, hs, _⟩ := entry_release hr b room hg'
  exact ⟨e, hg, hs⟩

theorem matched_letGo (hm : w.Matched) (gone : List (String × String)) :
    (w.letGo gone).Matched := by
  induction gone generalizing w with
  | nil => exact hm
  | cons x gone ih => exact ih (matched_release hm x.1 (some x.2))

theorem stage_letGo (hm : w.Matched) {gone : List (String × String)}
    (hg' : (w.letGo gone).get? a = some e') : ∃ e, w.get? a = some e ∧ e'.stage = e.stage := by
  induction gone generalizing w with
  | nil => exact ⟨e', hg', rfl⟩
  | cons x gone ih =>
    obtain ⟨e₁, hg₁, hs₁⟩ := ih (matched_release hm x.1 (some x.2)) hg'
    obtain ⟨e, hg, hs⟩ := stage_release hm.referred x.1 (some x.2) hg₁
    exact ⟨e, hg, hs₁.trans hs⟩

/-! ### Calls -/

theorem matched_retryDue (hm : w.Matched) (now : Nat) : (w.retryDue now).1.Matched :=
  ⟨hm.referred.of_claims (claims_retryDue w now), hm.mapped.retryDue now⟩

theorem Holds.retryDue (h : w.Holds a id) (now : Nat) : (w.retryDue now).1.Holds a id := by
  rcases w.get?_retryDue now a with hg | ⟨e, _, hg, hdue, _⟩
  · exact h.of_get? hg
  · obtain ⟨_, _, hs, _⟩ := isDue_iff.1 hdue
    exact absurd ((holds_iff_of_get? hg id).1 h) (by rw [hs]; exact nofun)

theorem matched_resubscribeAll (hm : w.Matched) (now : Nat) :
    (w.resubscribeAll now).1.Matched :=
  ⟨hm.referred.of_claims (claims_resubscribeAll w now),
    (Mapped.restartAll w now).retryDue now⟩

/-- What becomes of a call is nothing, or the entry that waits for it goes on to another stage. -/
theorem complete_cases (w : Watches) (a : String) (epoch : Nat) (result : Option SubscriptionId)
    (now : Nat) :
    (w.complete a epoch result now).1 = w.show_ ∨
      ∃ e, w.get? a = some e ∧ e.stage = .inFlight ∧ ∃ e',
        (∀ id, e'.stage = .active id ↔ result = some id) ∧
        (∀ b, (w.complete a epoch result now).1.get? b = (w.put a e').get? b) ∧
        (w.complete a epoch result now).1.addresses
          = result.elim w.addresses fun id => w.addresses.insert id a := by
  by_cases hawaits : ∃ e, w.Awaits a epoch e
  · obtain ⟨e, hawaits⟩ := hawaits
    have ⟨hg, _, hs⟩ := hawaits
    refine Or.inr ⟨e, hg, hs, ?_⟩
    cases result with
    | some id =>
      rw [complete_granted hawaits id now]
      refine ⟨{ e with stage := .active id, attempts := 0 }, fun id' => ?_, fun _ => rfl, rfl⟩
      rw [Stage.active.injEq, Option.some.injEq]
    | none =>
      obtain ⟨attempts, dueAt, heq⟩ := complete_refused hawaits now
      rw [heq]
      exact ⟨{ e with stage := .pending attempts dueAt, attempts := attempts },
        fun _ => ⟨nofun, nofun⟩, fun _ => rfl, rfl⟩
  · rw [complete_outdated (fun e he => hawaits ⟨e, he⟩) result now]
    exact Or.inl rfl

theorem matched_complete (hm : w.Matched) (a : String) (epoch : Nat)
    (result : Option SubscriptionId) (now : Nat)
    (hu : w.Undisputed (w.complete a epoch result now).1) :
    (w.complete a epoch result now).1.Matched := by
  refine ⟨hm.referred.of_claims (claims_complete w a epoch result now), ?_⟩
  rcases complete_cases w a epoch result now with he | ⟨e, hg, hs, e', hs', hget, haddresses⟩
  · rw [he]
    exact hm.mapped.of_same (fun _ => rfl) rfl
  · have hnone : ∀ id, ¬ w.Holds a id := fun id hh =>
      nomatch hs.symm.trans ((holds_iff_of_get? hg id).1 hh)
    cases result with
    | some id =>
      have hnow := (hs' id).2 rfl
      have hheld : (w.complete a epoch (some id) now).1.Holds a id :=
        ⟨e', (hget a).trans ((get?_put ..).trans (if_pos rfl)), hnow⟩
      -- Whoever holds it would be the address itself, which waits for its call.
      have hnew : w.addressOf? id = none := by
        cases hb : w.addressOf? id with
        | none => rfl
        | some b =>
          have hh := (hm.mapped id b).1 hb
          exact absurd (hu b a id hh hheld ▸ hh) (hnone id)
      exact hm.mapped.grant hnone hnew hget hnow haddresses
    | none =>
      refine (hm.mapped.put fun id => ?_).of_same hget haddresses
      exact iff_of_false (hnone id) fun hh => nomatch (hs' id).1 hh

theorem Holds.complete (h : w.Holds a id) (b : String) (epoch : Nat)
    (result : Option SubscriptionId) (now : Nat) :
    (w.complete b epoch result now).1.Holds a id := by
  rcases complete_cases w b epoch result now with he | ⟨e, hg, hs, e', _, hget, _⟩
  · rw [he]
    exact h
  · have hne : a ≠ b := h.ne_of_stage hg (by rw [hs]; exact nofun)
    exact h.of_get? ((hget a).trans ((get?_put ..).trans (if_neg hne)))

/-! ## After a turn -/

theorem Turn.matched (ht : w.Turn w') (hu : w.Undisputed w') (hm : w.Matched) : w'.Matched := by
  cases ht with
  | letGo gone => exact matched_letGo hm gone
  | act x =>
    cases x with
    | use u now =>
      cases u with
      | acquire a room => exact matched_acquire hm a room now
      | release a room => exact matched_release hm a room
    | retry now => exact matched_retryDue hm now
    | resubscribe now => exact matched_resubscribeAll hm now
    | complete a epoch result now => exact matched_complete hm a epoch result now hu

/-- An address that is watched after a turn holds what it held before, unless all have started
over. -/
theorem Turn.holds (ht : w.Turn w') (hm : w.Matched) (h : w.Holds a id)
    (hg' : w'.get? a = some e') : w'.Holds a id ∨ ∃ now, w' = (w.resubscribeAll now).1 := by
  have hsame : (∃ e, w.get? a = some e ∧ e'.stage = e.stage) → w'.Holds a id := by
    rintro ⟨e, hg, hs⟩
    exact ⟨e', hg', hs.trans ((holds_iff_of_get? hg id).1 h)⟩
  cases ht with
  | letGo gone => exact Or.inl (hsame (stage_letGo hm hg'))
  | act x =>
    cases x with
    | use u now =>
      cases u with
      | acquire b room => exact Or.inl (h.acquire hm.referred b room now)
      | release b room => exact Or.inl (hsame (stage_release hm.referred b room hg'))
    | retry now => exact Or.inl (h.retryDue now)
    | resubscribe now => exact Or.inr ⟨now, rfl⟩
    | complete b epoch result now => exact Or.inl (h.complete b epoch result now)

end SwapFloor.Watches
