import Mathlib.Data.List.Basic
import Mathlib.Data.List.TakeWhile
import Mathlib.Tactic.Common
import SwapFloor.Room.Lobby

/-!
# What becomes of the entries of the lobby

An operation on one room looks its entry up, changes it and puts it back. Recycling changes every
entry by itself: an open one whose hours are over is shut, and one that was closed long enough ago
goes.

Main statements: every operation that succeeds as such an update (`create_eq`, `join_eq`,
`leave_eq`, `close_eq`, `touch_eq`, `recordTrade_eq`), and recycling entry by entry (`reap_eq`).
-/

namespace SwapFloor.Lobby

theorem openEntry_eq_ok_iff {l : Lobby} {id : String} {e : Entry} :
    l.openEntry id = .ok e ↔ l.get? id = some e ∧ e.room.status ≠ .closed := by
  have hclosed : ∀ e : Entry, e.room.isClosed = true ↔ e.room.status = .closed := fun e =>
    beq_iff_eq
  constructor
  · intro h
    obtain ⟨e', he, h⟩ := bind_eq_ok_iff.1 h
    split at h
    · cases h
    · rename_i hc
      cases h
      exact ⟨entry_eq_ok_iff.1 he, fun hs => hc ((hclosed e).2 hs)⟩
  · rintro ⟨he, hs⟩
    refine bind_eq_ok_iff.2 ⟨e, entry_eq_ok_iff.2 he, ?_⟩
    rw [if_neg fun hc => hs ((hclosed e).1 hc)]

theorem openEntry_of_closed {l : Lobby} {id : String} {e : Entry} (he : l.get? id = some e)
    (hc : e.room.status = .closed) : l.openEntry id = .error (Failure.roomClosed id) := by
  unfold openEntry
  rw [entry_eq_ok_iff.2 he]
  exact if_pos (beq_iff_eq.2 hc)

theorem entry_of_get?_eq_none {l : Lobby} {id : String} (h : l.get? id = none) :
    l.entry id = .error (Failure.roomNotFound id) := by
  unfold entry
  rw [h]

theorem openEntry_of_get?_eq_none {l : Lobby} {id : String} (h : l.get? id = none) :
    l.openEntry id = .error (Failure.roomNotFound id) := by
  unfold openEntry
  rw [entry_of_get?_eq_none h]
  rfl

/-! ## Operations on one room -/

theorem create_eq {l l' : Lobby} {id : String} {plan : Plan} {now : Instant} {room : Room}
    (h : l.create id plan now = .ok (l', room)) :
    Text.trim plan.creator ≠ "" ∧ 0 < plan.recycleHours.getD l.defaultHours ∧
    room = {
      id := id
      creator := Text.trim plan.creator
      token := tokenOf plan.token
      passwordHash := plan.passwordHash
      hasPassword := plan.passwordHash.isSome
      recycleHours := plan.recycleHours.getD l.defaultHours
      status := .open
      createdAt := now
      lastActive := now
      closedAt := none
      wallets := [Text.trim plan.creator] } ∧
    l' = l.update id ⟨room, Table.empty.insert (Text.trim plan.creator)
      (Member.new id (Text.trim plan.creator) now), .empty⟩ := by
  unfold create at h
  by_cases hb : Text.trim plan.creator = ""
  · simp [hb] at h
  · rw [if_neg hb] at h
    obtain ⟨r, hnew, h⟩ := bind_eq_ok_iff.1 h
    obtain ⟨r', hopen, h⟩ := bind_eq_ok_iff.1 h
    obtain ⟨hl, hr⟩ := Prod.mk.inj (Except.ok.inj h)
    unfold Room.new at hnew
    split at hnew
    · cases hnew
    · rename_i hh
      cases hnew
      cases hopen
      exact ⟨hb, Int64.not_le.1 hh, hr.symm, by rw [← hl, ← hr]⟩

theorem join_eq {l l' : Lobby} {id wallet : String} {now : Instant} {j : Joined}
    (h : l.join id wallet now = .ok (l', j)) :
    Text.trim wallet ≠ "" ∧ ∃ e, l.openEntry id = .ok e ∧
      l' = l.update id (e.join (Text.trim wallet) now).1 ∧
      j = ⟨(e.join (Text.trim wallet) now).1.room, (e.join (Text.trim wallet) now).2.1,
        (e.join (Text.trim wallet) now).2.2⟩ := by
  unfold join at h
  by_cases hb : Text.trim wallet = ""
  · simp [hb] at h
  · rw [if_neg hb] at h
    obtain ⟨e, he, h⟩ := bind_eq_ok_iff.1 h
    obtain ⟨hl, hj⟩ := Prod.mk.inj (Except.ok.inj h)
    exact ⟨hb, e, he, hl.symm, hj.symm⟩

theorem leave_eq {l l' : Lobby} {id wallet : String} {now : Instant} {left : Option Member}
    (h : l.leave id wallet now = .ok (l', left)) :
    ∃ e, l.get? id = some e ∧ l' = l.update id (e.leave wallet now).1 ∧
      left = (e.leave wallet now).2 := by
  unfold leave at h
  obtain ⟨e, he, h⟩ := bind_eq_ok_iff.1 h
  obtain ⟨hl, hleft⟩ := Prod.mk.inj (Except.ok.inj h)
  exact ⟨e, entry_eq_ok_iff.1 he, hl.symm, hleft.symm⟩

theorem touch_eq {l l' : Lobby} {id wallet : String} {now : Instant}
    (h : l.touch id wallet now = .ok l') :
    ∃ e, l.openEntry id = .ok e ∧ l' = l.update id (e.touch wallet now) := by
  unfold touch at h
  obtain ⟨e, he, h⟩ := bind_eq_ok_iff.1 h
  exact ⟨e, he, (Except.ok.inj h).symm⟩

theorem touch_of_openEntry {l : Lobby} {id : String} {e : Entry} (he : l.openEntry id = .ok e)
    (wallet : String) (now : Instant) :
    l.touch id wallet now = .ok (l.update id (e.touch wallet now)) := by
  unfold touch
  rw [he]
  rfl

theorem recordTrade_eq {l l' : Lobby} {id : String} {t : Trade} {trouble : Option Breakdown}
    (h : l.recordTrade id t = .ok (l', trouble)) :
    ∃ e, l.openEntry id = .ok e ∧ l' = l.update id (e.count t l.quoteMint).1 ∧
      trouble = (e.count t l.quoteMint).2 := by
  unfold recordTrade at h
  obtain ⟨e, he, h⟩ := bind_eq_ok_iff.1 h
  obtain ⟨hl, htrouble⟩ := Prod.mk.inj (Except.ok.inj h)
  exact ⟨e, he, hl.symm, htrouble.symm⟩

/-! ## Closing -/

/-- The entry with its room closed and everyone gone. -/
def Entry.shut (e : Entry) (now : Instant) : Entry :=
  { e with
    room := { e.room with status := .closed, closedAt := some now }
    members := e.members.map fun _ m => (m.deactivate now).1 }

theorem Entry.close_eq_ok_iff {e e' : Entry} {now : Instant} :
    e.close now = .ok e' ↔ e.room.status = .open ∧ e' = e.shut now := by
  unfold Entry.close
  constructor
  · intro h
    cases hr : e.room.close now with
    | error f => simp [hr, Except.map] at h
    | ok r =>
      obtain ⟨ho, rfl⟩ := Room.close_eq hr
      simp only [hr, Except.map, Except.ok.injEq] at h
      exact ⟨ho, h.symm⟩
  · rintro ⟨ho, rfl⟩
    simp [Room.close, Room.advance, ho, Status.leadsTo, Except.map, Entry.shut]

theorem close_eq {l l' : Lobby} {id requester : String} {now : Instant} {room : Room}
    (h : l.close id requester now = .ok (l', room)) :
    ∃ e, l.get? id = some e ∧ e.room.creator = requester ∧ e.room.status = .open ∧
      l' = l.update id (e.shut now) ∧ room = (e.shut now).room := by
  unfold close at h
  obtain ⟨e, he, h⟩ := bind_eq_ok_iff.1 h
  split at h
  · cases h
  · rename_i hr
    obtain ⟨e', hs, h⟩ := bind_eq_ok_iff.1 h
    obtain ⟨ho, rfl⟩ := Entry.close_eq_ok_iff.1 hs
    obtain ⟨hl, hroom⟩ := Prod.mk.inj (Except.ok.inj h)
    exact ⟨e, entry_eq_ok_iff.1 he, Decidable.not_not.1 hr, ho, hl.symm, hroom.symm⟩

/-! ## Recycling -/

theorem Entry.isDue_open {e : Entry} {now : Instant} (h : e.isDue now = true) :
    e.room.status = .open := by
  unfold Entry.isDue at h
  exact beq_iff_eq.1 (Bool.and_eq_true_iff.1 h).1

/-- If no room has hours that span no time, all are reached. -/
theorem reached_eq {l : Lobby} {stop : Entry → Bool} (h : l.hasBroken stop = false) :
    l.reached stop = l.entries.entries := by
  unfold reached
  rw [List.takeWhile_eq_self_iff]
  intro e he
  unfold hasBroken at h
  rw [List.any_eq_false] at h
  rw [Bool.eq_false_iff.2 (h e he)]
  rfl

/-- The rooms that recycling closes at a time, as they are then. -/
def dueClosed (l : Lobby) (now : Instant) : List (String × Entry) :=
  (l.entries.entries.filter fun e => e.2.isDue now).map fun e => (e.1, e.2.shut now)

theorem closeDue_eq {l : Lobby} (h : l.hasBroken (·.room.status == .open) = false) (now : Instant) :
    l.closeDue now = (
      { l with entries := l.entries.map fun id e => ((l.dueClosed now).lookup id).getD e },
      (l.dueClosed now).map fun e => e.2.room) := by
  have hclosed : ((l.entries.entries.filter fun e => e.2.isDue now).filterMap fun e =>
      (e.2.close now).toOption.map fun c => (e.1, c)) = l.dueClosed now := by
    unfold dueClosed
    rw [List.filterMap_eq_map_iff_forall_eq_some]
    intro e he
    have ho := Entry.isDue_open (List.mem_filter.1 he).2
    rw [Entry.close_eq_ok_iff.2 ⟨ho, rfl⟩]
    rfl
  unfold closeDue
  rw [reached_eq h]
  dsimp only
  rw [hclosed]

theorem lookup_dueClosed {l : Lobby} {id : String} {e : Entry} (h : l.get? id = some e)
    (now : Instant) :
    (l.dueClosed now).lookup id = if e.isDue now then some (e.shut now) else none := by
  have key : ∀ es : List (String × Entry),
      ((es.filter fun e => e.2.isDue now).map fun e => (e.1, e.2.shut now)).lookup id
        = ((Table.find id (es.filter fun e => e.2.isDue now)).map fun e => e.shut now) := by
    intro es
    generalize es.filter (fun e => e.2.isDue now) = ds
    induction ds with
    | nil => rfl
    | cons d ds ih =>
      by_cases hd : d.1 = id
      · simp [Table.find, hd]
      · have hb : (id == d.1) = false := beq_eq_false_iff_ne.2 (Ne.symm hd)
        simp only [List.map_cons, List.lookup_cons, hb, Table.find, hd, if_false, ih]
  unfold dueClosed
  rw [key, Table.find_filter l.entries.nodup (fun _ e => e.isDue now) id]
  show ((l.get? id).filter _).map _ = _
  rw [h]
  by_cases hd : e.isDue now = true
  · simp [Option.filter, hd]
  · simp [Option.filter, hd]

theorem get?_closeDue {l : Lobby} (h : l.hasBroken (·.room.status == .open) = false)
    (now : Instant) (id : String) :
    (l.closeDue now).1.get? id
      = (l.get? id).map fun e => if e.isDue now then e.shut now else e := by
  rw [closeDue_eq h]
  refine (Table.get?_map ..).trans ?_
  show (l.get? id).map _ = _
  cases he : l.get? id with
  | none => rfl
  | some e =>
    rw [Option.map_some, Option.map_some, lookup_dueClosed he]
    split <;> rfl

theorem get?_removeOld {l : Lobby} (h : l.hasBroken (·.room.closedAt.isSome) = false)
    (now : Instant) (id : String) :
    (l.removeOld now).get? id = (l.get? id).filter fun e => e.isKept now := by
  unfold removeOld
  rw [reached_eq h]
  refine (Table.get?_filter ..).trans ?_
  show (l.get? id).filter _ = _
  cases he : l.get? id with
  | none => rfl
  | some e =>
    have hmem : ∀ e', (id, e') ∈ l.entries.entries → e' = e := fun e' hm =>
      Option.some.inj ((Table.get?_eq_some_iff.2 hm).symm.trans he)
    have hold : (((l.entries.entries.filter fun e => !e.2.isKept now).map Prod.fst).contains id)
        = !e.isKept now := by
      rw [Bool.eq_iff_iff, List.contains_iff_mem, List.mem_map]
      constructor
      · rintro ⟨⟨_, e'⟩, hm, rfl⟩
        obtain ⟨hm, hk⟩ := List.mem_filter.1 hm
        rw [← hmem e' hm]
        exact hk
      · intro hk
        exact ⟨(id, e), List.mem_filter.2 ⟨Table.get?_eq_some_iff.1 he, hk⟩, rfl⟩
    simp only [Option.filter_some, hold, Bool.not_not]

/-- Recycling that does not break down shuts the entries that are due, then drops those that are
not kept. -/
theorem reap_eq {l l' : Lobby} {now : Instant} {closed : List Room}
    (h : l.reap now = (l', .ok closed)) :
    (∀ id, l'.get? id
      = ((l.get? id).map fun e => if e.isDue now then e.shut now else e).filter (·.isKept now)) ∧
    (∀ room, room ∈ closed ↔
      ∃ id e, l.get? id = some e ∧ e.isDue now = true ∧ room = (e.shut now).room) ∧
    l'.quoteMint = l.quoteMint := by
  unfold reap at h
  dsimp only at h
  split at h
  · cases h
  · rename_i hopen
    rw [Bool.not_eq_true] at hopen
    split at h
    · cases h
    · rename_i hclosed
      rw [Bool.not_eq_true] at hclosed
      cases h
      refine ⟨fun id => ?_, fun room => ?_, rfl⟩
      · rw [get?_removeOld hclosed, get?_closeDue hopen]
      · rw [closeDue_eq hopen]
        simp only [dueClosed, List.map_map, List.mem_map, List.mem_filter, Function.comp_def]
        constructor
        · rintro ⟨⟨id, e⟩, ⟨hm, hd⟩, rfl⟩
          exact ⟨id, e, Table.get?_eq_some_iff.2 hm, hd, rfl⟩
        · rintro ⟨id, e, he, hd, rfl⟩
          exact ⟨(id, e), ⟨Table.get?_eq_some_iff.1 he, hd⟩, rfl⟩

end SwapFloor.Lobby
