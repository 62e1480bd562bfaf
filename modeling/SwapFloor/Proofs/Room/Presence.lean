import SwapFloor.Proofs.Room.WellFormed

/-!
# Who is in a room

Creating a room, joining, leaving, closing and recycling change who is in a room, and nothing else
does. A join tells whether the wallet was away, and a leave gives the member just if it was there,
so that each of them reports whether it has changed anything.

Main statements: who is active in which room, and which rooms are open, after every operation, and
that a view lists exactly the active wallets (`mem_activeWallets`, `nodup_activeWallets`).
-/

namespace SwapFloor.Lobby

/-- There is such a room, and it is open. -/
def IsOpen (l : Lobby) (room : String) : Prop :=
  ∃ e, l.get? room = some e ∧ e.room.status = .open

variable {l l' : Lobby} {id wallet r v : String} {now : Instant} {e : Entry}

theorem isActive_of_get? (he : l.get? id = some e) : l.isActive id v = e.isActive v := by
  unfold isActive
  rw [he]

theorem isActive_of_get?_eq_none (he : l.get? id = none) : l.isActive id v = false := by
  unfold isActive
  rw [he]

theorem exists_of_isActive (h : l.isActive r v = true) :
    ∃ e, l.get? r = some e ∧ e.isActive v = true := by
  cases he : l.get? r with
  | none => exact nomatch (isActive_of_get?_eq_none he).symm.trans h
  | some e => exact ⟨e, rfl, (isActive_of_get? he).symm.trans h⟩

theorem isActive_update (l : Lobby) (id r v : String) (e : Entry) :
    (l.update id e).isActive r v = if r = id then e.isActive v else l.isActive r v := by
  unfold isActive
  rw [get?_update]
  by_cases hr : r = id
  · rw [if_pos hr, if_pos hr]
  · rw [if_neg hr, if_neg hr]

/-- An entry with the same people in it. -/
theorem isActive_update_same {e' : Entry} (he : l.get? id = some e)
    (hsame : ∀ v, e'.isActive v = e.isActive v) (r v : String) :
    (l.update id e').isActive r v = l.isActive r v := by
  rw [isActive_update]
  split
  · rename_i hr
    rw [hsame, hr, isActive_of_get? he]
  · rfl

theorem seats_iff : l.Seats r v ↔ l.IsOpen r ∧ l.isActive r v = true := by
  constructor
  · rintro ⟨e, he, hopen, hv⟩
    exact ⟨⟨e, he, hopen⟩, (isActive_of_get? he).trans hv⟩
  · rintro ⟨⟨e, he, hopen⟩, hv⟩
    exact ⟨e, he, hopen, (isActive_of_get? he).symm.trans hv⟩

theorem Steady.isOpen_iff (h : Steady l l') (r : String) : l'.IsOpen r ↔ l.IsOpen r := by
  have onward : ∀ {l l' : Lobby}, Steady l l' → l.IsOpen r → l'.IsOpen r := by
    rintro l l' h ⟨e, he, hopen⟩
    obtain ⟨e', he', hs⟩ := h.exists_entry he
    exact ⟨e', he', (congrArg Standing.status hs).trans hopen⟩
  exact ⟨onward h.symm, onward h⟩

/-- Nobody is in a room that is not open. -/
theorem WellFormed.isOpen_of_isActive (hw : l.WellFormed) (h : l.isActive r v = true) :
    l.IsOpen r := by
  obtain ⟨e, he, hv⟩ := exists_of_isActive h
  refine ⟨e, he, (hw r e he).room.stage.resolve_right fun hclosed => ?_⟩
  rw [Entry.isActive_eq] at hv
  cases hm : e.members.get? v with
  | none =>
    rw [hm] at hv
    exact nomatch hv
  | some m =>
    rw [hm, Option.map_some, (hw r e he).deserted hclosed v m hm] at hv
    exact nomatch hv

/-! ## Creating -/

section

variable {plan : Plan} {room : Room}

theorem isActive_create (h : l.create id plan now = .ok (l', room)) :
    l'.isActive r v = if r = id then decide (v = room.creator) else l.isActive r v := by
  obtain ⟨_, _, hroom, rfl⟩ := create_eq h
  rw [isActive_update]
  split
  · rw [Entry.isActive_eq, hroom]
    dsimp only
    rw [Table.get?_insert]
    by_cases hv : v = Text.trim plan.creator
    · rw [if_pos hv, decide_eq_true hv]
      rfl
    · rw [if_neg hv, decide_eq_false hv]
      rfl
  · rfl

theorem create_id (h : l.create id plan now = .ok (l', room)) : room.id = id := by
  obtain ⟨_, _, hroom, _⟩ := create_eq h
  rw [hroom]

theorem isOpen_create (h : l.create id plan now = .ok (l', room)) :
    l'.IsOpen r ↔ r = id ∨ l.IsOpen r := by
  obtain ⟨_, _, hroom, rfl⟩ := create_eq h
  unfold IsOpen
  rw [get?_update]
  by_cases hr : r = id
  · rw [if_pos hr]
    exact ⟨fun _ => Or.inl hr, fun _ => ⟨_, rfl, by rw [hroom]⟩⟩
  · rw [if_neg hr, or_iff_right hr]

/-- A new room is open, and its creator is the only one in it. -/
theorem exists_create (h : l.create id plan now = .ok (l', room)) :
    ∃ e, l'.get? id = some e ∧ e.room = room ∧ e.room.status = .open ∧
      e.activeMembers = [Member.new id room.creator now] ∧
      ∀ w, e.isActive w = decide (w = room.creator) := by
  have hactive := fun w => isActive_create (r := id) (v := w) h
  obtain ⟨_, _, hroom, rfl⟩ := create_eq h
  have hget := fun e => (get?_update l id id e).trans (if_pos rfl)
  refine ⟨_, hget _, rfl, by rw [hroom], ?_, fun w => ?_⟩
  · rw [hroom]
    exact List.mergeSort_singleton _
  · rw [← isActive_of_get? (hget _), hactive, if_pos rfl]

end

/-! ## Joining and leaving -/

/-- A join tells whether the wallet was away. -/
theorem Entry.newly_join (e : Entry) (w : String) (now : Instant) :
    (e.join w now).2.2 = !e.isActive w := by
  rw [Entry.isActive_eq]
  unfold Entry.join
  cases e.members.get? w with
  | none => rfl
  | some m =>
    dsimp only [Member.reactivate, Option.map_some, Option.getD_some]
    cases m.active <;> rfl

theorem Entry.get?_join (e : Entry) (w : String) (now : Instant) :
    (e.join w now).1.members.get? w = some (e.join w now).2.1 :=
  (Table.get?_insert ..).trans (if_pos rfl)

/-- A leave gives the member just if it was there. -/
theorem Entry.isSome_leave (e : Entry) (w : String) (now : Instant) :
    (e.leave w now).2.isSome = e.isActive w := by
  rw [Entry.isActive_eq]
  unfold Entry.leave
  cases e.members.get? w with
  | none => rfl
  | some m =>
    dsimp only [Member.deactivate, Option.map_some, Option.getD_some]
    cases m.active <;> rfl

theorem Entry.get?_leave {e : Entry} {w : String} {now : Instant} {m : Member}
    (h : (e.leave w now).2 = some m) : (e.leave w now).1.members.get? w = some m := by
  unfold Entry.leave at h ⊢
  cases hm : e.members.get? w with
  | none =>
    rw [hm] at h
    cases h
  | some m₀ =>
    rw [hm] at h
    dsimp only at h ⊢
    split at h
    · obtain rfl := Option.some.inj h
      exact (Table.get?_insert ..).trans (if_pos rfl)
    · cases h

theorem isActive_of_join {j : Joined} (h : l.join id wallet now = .ok (l', j)) :
    l'.isActive r v = true ↔ r = id ∧ v = Text.trim wallet ∨ l.isActive r v = true := by
  obtain ⟨_, e, he, rfl, _⟩ := join_eq h
  rw [isActive_update]
  by_cases hr : r = id
  · rw [if_pos hr, Entry.isActive_join, Bool.or_eq_true, beq_iff_eq, hr,
      isActive_of_get? (get?_of_openEntry he)]
    exact or_congr_left ⟨fun hv => ⟨rfl, hv⟩, fun hv => hv.2⟩
  · rw [if_neg hr, or_iff_right fun hc => hr hc.1]

/-- A join reports its room and wallet, and whether the wallet was away. -/
theorem join_reports (hw : l.WellFormed) {j : Joined} (h : l.join id wallet now = .ok (l', j)) :
    j.room.id = id ∧ j.member.room = id ∧ j.member.wallet = Text.trim wallet ∧
      j.newly = !l.isActive id (Text.trim wallet) := by
  obtain ⟨_, e, he, _, rfl⟩ := join_eq h
  obtain ⟨he, hopen⟩ := openEntry_eq_ok_iff.1 he
  have hjoined := (hw id e he).join (Text.trim wallet) now hopen
  have hm := hjoined.members _ _ (e.get?_join (Text.trim wallet) now)
  refine ⟨hjoined.own, hm.room_eq, hm.wallet_eq, ?_⟩
  rw [isActive_of_get? he]
  exact e.newly_join _ now

theorem isActive_of_leave {left : Option Member} (h : l.leave id wallet now = .ok (l', left)) :
    l'.isActive r v = true ↔ l.isActive r v = true ∧ ¬ (r = id ∧ v = wallet) := by
  obtain ⟨e, he, rfl, _⟩ := leave_eq h
  rw [isActive_update]
  by_cases hr : r = id
  · rw [if_pos hr, Entry.isActive_leave, Bool.and_eq_true, bne_iff_ne, hr, isActive_of_get? he,
      and_comm]
    exact and_congr_right fun _ => not_congr ⟨fun hv => ⟨rfl, hv⟩, fun hv => hv.2⟩
  · rw [if_neg hr]
    exact (and_iff_left fun hc => hr hc.1).symm

/-- A leave reports the member just if the wallet was there. -/
theorem leave_reports (hw : l.WellFormed) {left : Option Member}
    (h : l.leave id wallet now = .ok (l', left)) :
    left.isSome = l.isActive id wallet ∧ ∀ m ∈ left, m.room = id ∧ m.wallet = wallet := by
  obtain ⟨e, he, _, rfl⟩ := leave_eq h
  refine ⟨?_, fun m hm => ?_⟩
  · rw [isActive_of_get? he]
    exact e.isSome_leave wallet now
  · have hwell := ((hw id e he).leave wallet now).members _ _ (Entry.get?_leave hm)
    exact ⟨hwell.room_eq, hwell.wallet_eq⟩

/-! ## Activity -/

theorem isActive_of_touch (h : l.touch id wallet now = .ok l') (r v : String) :
    l'.isActive r v = l.isActive r v := by
  obtain ⟨e, he, rfl⟩ := touch_eq h
  exact isActive_update_same (get?_of_openEntry he) (e.isActive_touch wallet now) r v

theorem isActive_of_recordTrade {t : Trade} {trouble : Option Breakdown}
    (h : l.recordTrade id t = .ok (l', trouble)) (r v : String) :
    l'.isActive r v = l.isActive r v := by
  obtain ⟨e, he, rfl, _⟩ := recordTrade_eq h
  have hsame : ∀ v, (e.count t l.quoteMint).1.isActive v = e.isActive v := fun _ => rfl
  exact isActive_update_same (get?_of_openEntry he) hsame r v

/-! ## Closing and recycling -/

section

variable {requester : String} {room : Room} {closed : List Room}

theorem isActive_of_close (h : l.close id requester now = .ok (l', room)) :
    l'.isActive r v = true ↔ l.isActive r v = true ∧ r ≠ id := by
  obtain ⟨e, he, _, _, rfl, _⟩ := close_eq h
  rw [isActive_update]
  by_cases hr : r = id
  · rw [if_pos hr, Entry.isActive_shut]
    exact ⟨fun hn => (nomatch hn), fun hc => absurd hr hc.2⟩
  · rw [if_neg hr]
    exact (and_iff_left hr).symm

theorem isOpen_close (h : l.close id requester now = .ok (l', room)) :
    l'.IsOpen r ↔ l.IsOpen r ∧ r ≠ id := by
  obtain ⟨e, he, _, _, rfl, _⟩ := close_eq h
  unfold IsOpen
  rw [get?_update]
  by_cases hr : r = id
  · rw [if_pos hr]
    constructor
    · rintro ⟨e', he', hopen⟩
      obtain rfl := Option.some.inj he'
      exact nomatch hopen
    · exact fun hc => absurd hr hc.2
  · rw [if_neg hr]
    exact (and_iff_left hr).symm

/-- A room that stays open in recycling is as it was. -/
theorem get?_of_reap_open (h : l.reap now = (l', .ok closed)) {e' : Entry}
    (he' : l'.get? r = some e') (hopen : e'.room.status = .open) :
    l.get? r = some e' ∧ e'.isDue now = false := by
  obtain ⟨e, he, rfl⟩ := get?_reap h he'
  by_cases hdue : e.isDue now = true
  · rw [if_pos hdue] at hopen
    exact nomatch hopen
  · rw [if_neg hdue]
    exact ⟨he, Bool.not_eq_true _ ▸ hdue⟩

theorem isOpen_reap (hl : l.Sound) (h : l.reap now = (l', .ok closed)) :
    l'.IsOpen r ↔ l.IsOpen r ∧ ∀ c ∈ closed, c.id ≠ r := by
  constructor
  · rintro ⟨e', he', hopen⟩
    obtain ⟨he, hdue⟩ := get?_of_reap_open h he' hopen
    refine ⟨⟨e', he, hopen⟩, fun c hm hid => ?_⟩
    obtain ⟨id', e₁, he₁, hdue₁, rfl⟩ := ((reap_eq h).2.1 c).1 hm
    have hid' : id' = r := (hl id' e₁ he₁).own.symm.trans hid
    rw [hid', he, Option.some.injEq] at he₁
    rw [← he₁, hdue] at hdue₁
    exact nomatch hdue₁
  · rintro ⟨⟨e, he, hopen⟩, hnot⟩
    refine ⟨e, get?_reap_of_open hl h he hopen fun hdue => ?_, hopen⟩
    obtain ⟨c, hm, hid, _⟩ := (mem_closed_iff hl h he).2 hdue
    exact hnot c hm hid

/-- Recycling lets nobody in, also if it breaks down. -/
theorem isActive_of_isActive_reap (h : (l.reap now).1.isActive r v = true) :
    l.isActive r v = true := by
  obtain ⟨e', he', hv⟩ := exists_of_isActive h
  obtain ⟨e, he, rfl | ⟨_, rfl⟩⟩ := exists_of_get?_reap he'
  · rw [isActive_of_get? he]
    exact hv
  · rw [Entry.isActive_shut] at hv
    exact nomatch hv

/-- Recycling lets go of those in the rooms that it closes and of nobody else. -/
theorem isActive_of_reap (hl : l.Sound) (hw : l.WellFormed)
    (h : l.reap now = (l', .ok closed)) :
    l'.isActive r v = true ↔ l.isActive r v = true ∧ ∀ c ∈ closed, c.id ≠ r := by
  have hafter : l.act (.reap now) = l' := congrArg Prod.fst h
  have hw' : l'.WellFormed := hafter ▸ hw.act (.reap now)
  constructor
  · intro hv
    have hopen' := hw'.isOpen_of_isActive hv
    obtain ⟨e', he', hopen⟩ := hopen'
    have he := (get?_of_reap_open h he' hopen).1
    refine ⟨?_, ((isOpen_reap hl h).1 ⟨e', he', hopen⟩).2⟩
    rw [isActive_of_get? he, ← isActive_of_get? he', hv]
  · rintro ⟨hv, hnot⟩
    obtain ⟨e', he', hopen⟩ := (isOpen_reap hl h).2 ⟨hw.isOpen_of_isActive hv, hnot⟩
    have he := (get?_of_reap_open h he' hopen).1
    rw [isActive_of_get? he', ← isActive_of_get? he, hv]

end

/-! ## Views -/

/-- A view lists the wallets that are there. -/
theorem Entry.WellFormed.mem_activeWallets (hw : e.WellFormed id) :
    v ∈ e.activeMembers.map (·.wallet) ↔ e.isActive v = true := by
  rw [List.mem_map, Entry.isActive_eq]
  constructor
  · rintro ⟨m, hm, rfl⟩
    obtain ⟨hactive, hm⟩ := mem_activeMembers.1 hm
    obtain ⟨w, hget⟩ := Table.mem_values_iff.1 hm
    rw [(hw.members w m hget).wallet_eq, hget]
    exact hactive
  · intro hv
    cases hget : e.members.get? v with
    | none =>
      rw [hget] at hv
      exact nomatch hv
    | some m =>
      rw [hget] at hv
      exact ⟨m, mem_activeMembers.2 ⟨hv, Table.mem_values_iff.2 ⟨v, hget⟩⟩,
        (hw.members v m hget).wallet_eq⟩

/-- A view lists a wallet once. -/
theorem Entry.WellFormed.nodup_activeWallets (hw : e.WellFormed id) :
    (e.activeMembers.map (·.wallet)).Nodup := by
  have hkeys : e.members.values.map (·.wallet) = e.members.keys := by
    unfold Table.values Table.keys
    rw [List.map_map]
    refine List.map_congr_left fun p hp => ?_
    exact (hw.members p.1 p.2 (Table.get?_eq_some_iff.2 hp)).wallet_eq
  have hvalues : (e.members.values.map (·.wallet)).Nodup := hkeys ▸ e.members.nodup
  have hperm := (List.mergeSort_perm (e.members.values.filter (·.active)) joinedFirst).map
    (·.wallet)
  exact hperm.nodup_iff.2 (hvalues.sublist (List.filter_sublist.map _))

end SwapFloor.Lobby
