import Mathlib.Data.List.Nodup
import Mathlib.Tactic.Common
import SwapFloor.Watch.Watches

/-!
# Who refers to an address

As long as rooms are the only ones who refer to addresses, an address is referred to as often as
there are rooms that watch it. `Refers P` says that these are the rooms `r` with `P r a`. What the
provider does with its subscriptions is a matter of stages and epochs and touches neither the
rooms nor the references of an address (`claims_complete`, `claims_retryDue`,
`claims_resubscribeAll`).

Main statements: watching an address for a room and no longer doing so change `P` in that one
place.
-/

namespace SwapFloor.Watches

/-- How often an address is referred to and by which rooms, if it is watched. -/
def claims (w : Watches) (a : String) : Option (Nat × List String) :=
  (w.get? a).map fun e => (e.refs, e.rooms)

theorem roomsWatching_eq (w : Watches) (a : String) :
    w.roomsWatching a = ((w.claims a).map Prod.snd).getD [] := by
  unfold roomsWatching claims
  cases w.get? a <;> rfl

theorem refCount_eq (w : Watches) (a : String) :
    w.refCount a = ((w.claims a).map Prod.fst).getD 0 := by
  unfold refCount claims
  cases w.get? a <;> rfl

/-- Exactly the rooms `r` with `P r a` refer to an address `a`, and nobody else does. -/
structure Refers (w : Watches) (P : String → String → Prop) : Prop where
  mem : ∀ a r, r ∈ w.roomsWatching a ↔ P r a
  nodup : ∀ a, (w.roomsWatching a).Nodup
  count : ∀ a, w.refCount a = (w.roomsWatching a).length

theorem refers_new (b : Backoff) : (new b).Refers fun _ _ => False where
  mem _ _ := ⟨List.not_mem_nil, False.elim⟩
  nodup _ := List.nodup_nil
  count _ := rfl

theorem Refers.congr {w : Watches} {P Q : String → String → Prop} (h : w.Refers P)
    (hPQ : ∀ r a, P r a ↔ Q r a) : w.Refers Q where
  mem a r := (h.mem a r).trans (hPQ r a)
  nodup := h.nodup
  count := h.count

theorem Refers.of_same {w w' : Watches} {P : String → String → Prop} (h : w.Refers P)
    (hr : ∀ a, w'.roomsWatching a = w.roomsWatching a) (hc : ∀ a, w'.refCount a = w.refCount a) :
    w'.Refers P := by
  refine ⟨fun a r => ?_, fun a => ?_, fun a => ?_⟩
  · rw [hr]
    exact h.mem a r
  · rw [hr]
    exact h.nodup a
  · rw [hc, hr]
    exact h.count a

theorem Refers.of_claims {w w' : Watches} {P : String → String → Prop} (h : w.Refers P)
    (hw : ∀ a, w'.claims a = w.claims a) : w'.Refers P :=
  h.of_same (fun a => by rw [roomsWatching_eq, hw, ← roomsWatching_eq])
    fun a => by rw [refCount_eq, hw, ← refCount_eq]

/-! ## Rooms that come and go -/

theorem claims_put (w : Watches) (a a' : String) (e : Watch) :
    (w.put a e).claims a' = if a' = a then some (e.refs, e.rooms) else w.claims a' := by
  unfold claims
  rw [get?_put]
  split <;> rfl

theorem claims_of_get? {w : Watches} {a : String} {e : Watch} (h : w.get? a = some e) :
    w.claims a = some (e.refs, e.rooms) := by
  unfold claims
  rw [h]
  rfl

/-- An entry that claims what the one in its place claimed changes nothing. -/
theorem claims_put_self {w : Watches} {a : String} {e : Watch}
    (h : w.claims a = some (e.refs, e.rooms)) (a' : String) :
    (w.put a e).claims a' = w.claims a' := by
  rw [claims_put]
  split
  · rename_i ha
    rw [ha, h]
  · rfl

theorem claims_start (w : Watches) (a a' : String) (e : Watch) :
    (w.start a e).1.claims a' = if a' = a then some (e.refs, e.rooms) else w.claims a' :=
  claims_put w a a' _

/-- A room that does not watch the address yet comes last among those that do. -/
theorem claims_acquire (w : Watches) (a r : String) (now : Nat) (a' : String) :
    (w.acquire a (some r) now).1.claims a'
      = if a' = a ∧ r ∉ w.roomsWatching a then
          some (w.refCount a + 1, w.roomsWatching a ++ [r])
        else w.claims a' := by
  have hrooms : ((w.get? a).getD (.fresh now)).rooms = w.roomsWatching a := by
    unfold roomsWatching
    cases w.get? a <;> rfl
  have hrefs : ((w.get? a).getD (.fresh now)).refs = w.refCount a := by
    unfold refCount
    cases w.get? a <;> rfl
  unfold acquire
  dsimp only
  rw [hrooms, hrefs]
  by_cases hr : r ∈ w.roomsWatching a
  · simp [hr]
  · have hnew : ¬ (w.roomsWatching a).contains r = true := by simpa using hr
    rw [if_neg hnew]
    by_cases ha : a' = a
    · have hhere : a' = a ∧ r ∉ w.roomsWatching a := ⟨ha, hr⟩
      rw [if_pos hhere]
      split
      · rw [claims_start, if_pos ha]
        rfl
      · rw [claims_put, if_pos ha]
        rfl
    · have haway : ¬ (a' = a ∧ r ∉ w.roomsWatching a) := fun e => ha e.1
      rw [if_neg haway]
      split
      · rw [claims_start, if_neg ha]
      · rw [claims_put, if_neg ha]

theorem roomsWatching_acquire (w : Watches) (a r : String) (now : Nat) (a' : String) :
    (w.acquire a (some r) now).1.roomsWatching a'
      = if a' = a ∧ r ∉ w.roomsWatching a then w.roomsWatching a ++ [r]
        else w.roomsWatching a' := by
  rw [roomsWatching_eq, claims_acquire]
  split
  · rfl
  · rw [← roomsWatching_eq]

theorem Refers.acquire {w : Watches} {P : String → String → Prop} (h : w.Refers P) (a r : String)
    (now : Nat) :
    (w.acquire a (some r) now).1.Refers fun r' a' => P r' a' ∨ (r' = r ∧ a' = a) := by
  refine ⟨fun a' r' => ?_, fun a' => ?_, fun a' => ?_⟩
  · rw [roomsWatching_acquire]
    split
    · rename_i hnew
      obtain ⟨rfl, _⟩ := hnew
      rw [List.mem_append, List.mem_singleton, h.mem]
      simp
    · rename_i hold
      rw [h.mem]
      refine ⟨Or.inl, fun hor => hor.elim (fun hp => hp) ?_⟩
      rintro ⟨rfl, rfl⟩
      by_contra hp
      exact hold ⟨rfl, fun hm => hp ((h.mem a' r').1 hm)⟩
  · rw [roomsWatching_acquire]
    split
    · rename_i hnew
      rw [List.nodup_append]
      refine ⟨h.nodup a, List.nodup_singleton r, fun x hx y hy e => ?_⟩
      exact hnew.2 ((List.mem_singleton.1 hy) ▸ e ▸ hx)
    · exact h.nodup a'
  · rw [roomsWatching_acquire, refCount_eq, claims_acquire]
    split
    · rw [List.length_append, ← h.count a]
      rfl
    · rw [← refCount_eq]
      exact h.count a'

/-! ## Releasing -/

theorem claims_dropUnused (w : Watches) (a a' : String) :
    (w.dropUnused a).1.claims a'
      = if a' = a ∧ w.refCount a = 0 then none else w.claims a' := by
  unfold dropUnused
  cases he : w.get? a with
  | none =>
    by_cases ha : a' = a
    · subst ha
      simp [claims, he]
    · simp [ha]
  | some e =>
    have hrefs : w.refCount a = e.refs := by unfold refCount; rw [he]
    dsimp only
    rw [hrefs]
    by_cases hz : e.refs = 0
    · rw [if_pos hz]
      have hdrop : (({ w with entries := w.entries.erase a } : Watches)).claims a'
          = if a' = a ∧ e.refs = 0 then none else w.claims a' := by
        unfold claims get?
        rw [Table.get?_erase]
        by_cases ha : a' = a <;> simp [ha, hz]
      split
      · exact hdrop
      · exact hdrop
    · rw [if_neg hz, if_neg fun e => hz e.2]

theorem claims_decrement (w : Watches) (a r a' : String) :
    (w.decrement a (some r)).1.claims a'
      = if a' = a ∧ r ∈ w.roomsWatching a then
          some (w.refCount a - 1, (w.roomsWatching a).erase r)
        else w.claims a' := by
  unfold decrement roomsWatching refCount
  cases he : w.get? a with
  | none => simp
  | some e =>
    dsimp only
    by_cases hr : r ∈ e.rooms
    · rw [if_neg (by simpa using hr), claims_put]
      by_cases ha : a' = a
      · rw [if_pos ha, if_pos ⟨ha, hr⟩]
      · rw [if_neg ha, if_neg fun e => ha e.1]
    · rw [if_pos (by simpa using hr), if_neg fun e => hr e.2]

theorem roomsWatching_decrement (w : Watches) (a r a' : String) :
    (w.decrement a (some r)).1.roomsWatching a'
      = if a' = a ∧ r ∈ w.roomsWatching a then (w.roomsWatching a).erase r
        else w.roomsWatching a' := by
  rw [roomsWatching_eq, claims_decrement]
  split
  · rfl
  · rw [← roomsWatching_eq]

theorem Refers.decrement {w : Watches} {P : String → String → Prop} (h : w.Refers P)
    (a r : String) :
    (w.decrement a (some r)).1.Refers fun r' a' => P r' a' ∧ ¬ (r' = r ∧ a' = a) := by
  refine ⟨fun a' r' => ?_, fun a' => ?_, fun a' => ?_⟩
  · rw [roomsWatching_decrement]
    split
    · rename_i hold
      obtain ⟨rfl, _⟩ := hold
      rw [(h.nodup a').mem_erase_iff, h.mem]
      simp [and_comm]
    · rename_i hnew
      rw [h.mem]
      refine ⟨fun hp => ⟨hp, ?_⟩, fun hp => hp.1⟩
      rintro ⟨rfl, rfl⟩
      exact hnew ⟨rfl, (h.mem a' r').2 hp⟩
  · rw [roomsWatching_decrement]
    split
    · exact (h.nodup a).erase r
    · exact h.nodup a'
  · rw [roomsWatching_decrement, refCount_eq, claims_decrement]
    split
    · rename_i hold
      rw [List.length_erase_of_mem hold.2, ← h.count a]
      rfl
    · rw [← refCount_eq]
      exact h.count a'

/-- An entry that is dropped because nothing refers to it has no rooms left. -/
theorem Refers.dropUnused {w : Watches} {P : String → String → Prop} (h : w.Refers P)
    (a : String) : (w.dropUnused a).1.Refers P := by
  have hnone : w.refCount a = 0 → w.roomsWatching a = [] := by
    intro hzero
    rw [← List.length_eq_zero_iff, ← h.count, hzero]
  refine h.of_same (fun a' => ?_) fun a' => ?_
  · rw [roomsWatching_eq, claims_dropUnused]
    split
    · rename_i hdrop
      rw [hdrop.1, hnone hdrop.2]
      rfl
    · rw [← roomsWatching_eq]
  · rw [refCount_eq, claims_dropUnused]
    split
    · rename_i hdrop
      rw [hdrop.1, hdrop.2]
      rfl
    · rw [← refCount_eq]

theorem Refers.release {w : Watches} {P : String → String → Prop} (h : w.Refers P) (a r : String) :
    (w.release a (some r)).1.Refers fun r' a' => P r' a' ∧ ¬ (r' = r ∧ a' = a) := by
  have hdec := h.decrement a r
  unfold Watches.release
  split
  · rename_i he
    rw [he] at hdec
    exact hdec.dropUnused a
  · rename_i he
    rw [he] at hdec
    exact hdec

/-! ## Calls and their completions -/

theorem claims_complete (w : Watches) (a : String) (epoch : Nat) (result : Option SubscriptionId)
    (now : Nat) (a' : String) : (w.complete a epoch result now).1.claims a' = w.claims a' := by
  unfold complete
  cases hg : w.get? a with
  | none => cases result <;> rfl
  | some e =>
    have hclaims := claims_of_get? hg
    dsimp only
    split
    · rename_i hcur
      split at hcur
      · cases hcur
        refine claims_put_self ?_ a'
        exact hclaims
      · cases hcur
    · rename_i hcur
      split at hcur
      · cases hcur
        refine claims_put_self ?_ a'
        exact hclaims
      · cases hcur
    · rfl
    · rfl

/-- Further tries change the stages of their addresses only. -/
theorem claims_retryDue (w : Watches) (now : Nat) (a : String) :
    (w.retryDue now).1.claims a = w.claims a := by
  -- The entries are those of the first state, and no start has changed what they claim.
  refine List.foldlRecOn (motive := fun s : Watches × List Call => ∀ a, s.1.claims a = w.claims a)
    _ _ (fun _ => rfl) (fun s hs x hx a' => ?_) a
  have hg : w.get? x.1 = some x.2 := Table.get?_eq_some_iff.2 (List.mem_of_mem_filter hx)
  have hx : s.1.claims x.1 = some (x.2.refs, x.2.rooms) := (hs x.1).trans (claims_of_get? hg)
  refine Eq.trans ?_ (hs a')
  refine claims_put_self ?_ a'
  exact hx

theorem claims_restart (w : Watches) (a : String) (now : Nat) (a' : String) :
    (w.restart a now).claims a' = w.claims a' := by
  unfold restart
  cases hg : w.get? a with
  | none => rfl
  | some e =>
    have hclaims := claims_of_get? hg
    refine claims_put_self ?_ a'
    exact hclaims

theorem claims_resubscribeAll (w : Watches) (now : Nat) (a : String) :
    (w.resubscribeAll now).1.claims a = w.claims a := by
  unfold resubscribeAll
  refine (claims_retryDue _ now a).trans ?_
  refine List.foldlRecOn (motive := fun s : Watches => s.claims a = w.claims a) _ _ rfl
    fun s hs a' _ => ?_
  exact (claims_restart s a' now a).trans hs

/-! ## Rooms that watch any of several addresses -/

theorem nodup_eraseDups (l : List String) : l.eraseDups.Nodup := by
  induction h : l.length using Nat.strongRecOn generalizing l with
  | ind n ih =>
    cases l with
    | nil => exact List.nodup_nil
    | cons x xs =>
      have hlen := List.length_filter_le (fun y => !y == x) xs
      rw [List.length_cons] at h
      rw [List.eraseDups_cons, List.nodup_cons]
      refine ⟨fun hm => ?_, ih _ (by omega) _ rfl⟩
      have hx := (List.mem_filter.1 (List.mem_eraseDups.1 hm)).2
      simp at hx

theorem nodup_roomsWatchingAny (w : Watches) (as : List String) :
    (w.roomsWatchingAny as).Nodup :=
  (List.mergeSort_perm _ _).nodup_iff.2 (nodup_eraseDups _)

end SwapFloor.Watches
