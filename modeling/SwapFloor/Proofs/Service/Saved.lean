import SwapFloor.Proofs.Service.Agreement
import SwapFloor.Proofs.Service.Comings

/-!
# What is saved of a room

Every operation of the rooms saves the room that it changes, and the member that comes or goes. So
what the archive has of an open room is what the lobby has: its stage, its wallets and who is there.
A room that is closed lets everyone go at once, but only the room itself is saved then. The archive
goes on to list those who were there at that moment, however long the room stays.

Main statement: `saved_of_run`.
-/

namespace SwapFloor

/-! ## The archive by itself -/

namespace Archive

variable {a : Archive} {room wallet : String} {m : Member}

/-- The wallet was saved as an active member of the room. -/
def isActive (a : Archive) (room wallet : String) : Bool :=
  ((a.members.get? (room, wallet)).map (·.active)).getD false

theorem isActive_saveMember (a : Archive) (m : Member) (room wallet : String) :
    (a.saveMember m).isActive room wallet
      = if room = m.room ∧ wallet = m.wallet then m.active else a.isActive room wallet := by
  unfold isActive saveMember
  dsimp only
  rw [Table.get?_insert]
  by_cases h : room = m.room ∧ wallet = m.wallet
  · rw [if_pos h, if_pos (Prod.ext h.1 h.2)]
    rfl
  · rw [if_neg h, if_neg fun he => h (Prod.mk.inj he)]

@[simp] theorem isActive_saveRoom (a : Archive) (r : Room) (room wallet : String) :
    (a.saveRoom r).isActive room wallet = a.isActive room wallet := rfl

@[simp] theorem room?_saveMember (a : Archive) (m : Member) (id : String) :
    (a.saveMember m).room? id = a.room? id := rfl

/-- Every member is filed under its room and wallet. -/
def Filed (a : Archive) : Prop :=
  ∀ room wallet m, a.members.get? (room, wallet) = some m → m.room = room ∧ m.wallet = wallet

theorem filed_empty : empty.Filed := fun _ _ _ h => nomatch h

theorem Filed.saveMember (h : a.Filed) (m : Member) : (a.saveMember m).Filed := by
  intro room wallet m' hm
  rcases Table.of_get?_insert hm with ⟨hk, rfl⟩ | ⟨_, hm⟩
  · obtain ⟨hroom, hwallet⟩ := Prod.mk.inj hk
    exact ⟨hroom.symm, hwallet.symm⟩
  · exact h room wallet m' hm

theorem Filed.mem_activeWallets (h : a.Filed) :
    wallet ∈ (a.activeMembers room).map (·.wallet) ↔ a.isActive room wallet = true := by
  unfold isActive
  rw [List.mem_map]
  constructor
  · rintro ⟨m, hm, rfl⟩
    obtain ⟨hactive, w, hget⟩ := mem_activeMembers.1 hm
    rw [(h room w m hget).2, hget]
    exact hactive
  · intro hv
    cases hget : a.members.get? (room, wallet) with
    | none =>
      rw [hget] at hv
      exact nomatch hv
    | some m =>
      rw [hget] at hv
      exact ⟨m, mem_activeMembers.2 ⟨hv, wallet, hget⟩, (h room wallet m hget).2⟩

theorem Filed.nodup_activeWallets (h : a.Filed) (room : String) :
    ((a.activeMembers room).map (·.wallet)).Nodup := by
  unfold activeMembers
  refine ((List.mergeSort_perm _ _).map _).nodup_iff.2 ?_
  rw [List.map_map]
  refine List.Nodup.map_on ?_ ((List.Nodup.of_map Prod.fst a.members.nodup).filter _)
  -- two entries of one room whose members have one wallet have one key
  rintro ⟨⟨r, w⟩, m⟩ hp ⟨⟨r', w'⟩, m'⟩ hp' hw
  obtain ⟨hm, hroom⟩ := List.mem_filter.1 hp
  obtain ⟨hm', hroom'⟩ := List.mem_filter.1 hp'
  simp only [Bool.and_eq_true, beq_iff_eq] at hroom hroom'
  have hget := Table.get?_eq_some_iff.2 hm
  have hget' := Table.get?_eq_some_iff.2 hm'
  obtain rfl : r = r' := hroom.1.trans hroom'.1.symm
  obtain rfl : w = w' := (h r w m hget).2.symm.trans (hw.trans (h r w' m' hget').2)
  rw [Option.some.inj (hget.symm.trans hget')]

theorem room?_saveRooms_of_not_mem {rs : List Room} {id : String} (h : ∀ r ∈ rs, r.id ≠ id)
    (a : Archive) : (rs.foldl saveRoom a).room? id = a.room? id := by
  induction rs generalizing a with
  | nil => rfl
  | cons r rs ih =>
    obtain ⟨hr, hrs⟩ := List.forall_mem_cons.1 h
    rw [List.foldl_cons, ih hrs, room?_saveRoom, if_neg hr.symm]

theorem room?_saveRooms_of_mem {rs : List Room} {r : Room} (hr : r ∈ rs)
    (hone : ∀ r' ∈ rs, r'.id = r.id → r' = r) (a : Archive) :
    (rs.foldl saveRoom a).room? r.id = some r := by
  induction rs generalizing a with
  | nil => exact nomatch hr
  | cons x rs ih =>
    obtain ⟨hx, hrs⟩ := List.forall_mem_cons.1 hone
    rw [List.foldl_cons]
    by_cases hlater : r ∈ rs
    · exact ih hlater hrs _
    · obtain rfl := (List.mem_cons.1 hr).resolve_right hlater
      rw [room?_saveRooms_of_not_mem fun r' hr' hid => hlater (hrs r' hr' hid ▸ hr'),
        room?_saveRoom, if_pos rfl]

/-- Saving rooms leaves all else as it was. -/
theorem saveRooms_eq (rs : List Room) (a : Archive) :
    rs.foldl saveRoom a = { a with rooms := (rs.foldl saveRoom a).rooms } := by
  induction rs generalizing a with
  | nil => rfl
  | cons r rs ih => exact ih _

theorem members_saveRooms (rs : List Room) (a : Archive) :
    (rs.foldl saveRoom a).members = a.members := by
  rw [saveRooms_eq]

theorem isActive_congr {a' : Archive} (h : a'.members = a.members) (room wallet : String) :
    a'.isActive room wallet = a.isActive room wallet := by
  unfold isActive
  rw [h]

/-! ## The archive and an entry of the lobby -/

/-- The room was saved at the stage and with the wallets of the entry. -/
def Shows (a : Archive) (id : String) (e : Lobby.Entry) : Prop :=
  ∃ r, a.room? id = some r ∧ r.status = e.room.status ∧ r.wallets = e.room.wallets

/-- Just those who are there were saved as active members. -/
def Knows (a : Archive) (id : String) (e : Lobby.Entry) : Prop :=
  ∀ wallet, a.isActive id wallet = e.isActive wallet

/-- The active members that the archive finds are those of the entry. -/
def Lists (a : Archive) (id : String) (e : Lobby.Entry) : Prop :=
  ((a.activeMembers id).map (·.wallet)).Perm (e.activeMembers.map (·.wallet))

theorem Filed.lists_iff (h : a.Filed) {id : String} {e : Lobby.Entry} (he : e.WellFormed id) :
    a.Lists id e ↔ a.Knows id e := by
  unfold Lists
  rw [List.perm_ext_iff_of_nodup (h.nodup_activeWallets id) he.nodup_activeWallets]
  refine forall_congr' fun wallet => ?_
  rw [h.mem_activeWallets, he.mem_activeWallets]
  exact Bool.eq_iff_iff.symm

theorem Shows.of_room? {a' : Archive} {id : String} {e e' : Lobby.Entry} (h : a.Shows id e)
    (ha : a'.room? id = a.room? id) (hstatus : e'.room.status = e.room.status)
    (hwallets : e'.room.wallets = e.room.wallets) : a'.Shows id e' := by
  obtain ⟨r, hr, hs, hw⟩ := h
  exact ⟨r, ha.trans hr, hs.trans hstatus.symm, hw.trans hwallets.symm⟩

/-- When one wallet has come or gone, it is enough to save its member. -/
theorem Knows.saveMember {id : String} {e e' : Lobby.Entry} (h : a.Knows id e)
    (hroom : m.room = id) (hmember : e'.members.get? m.wallet = some m)
    (hothers : ∀ wallet, wallet ≠ m.wallet → e'.isActive wallet = e.isActive wallet) :
    (a.saveMember m).Knows id e' := by
  intro wallet
  rw [isActive_saveMember]
  by_cases hw : wallet = m.wallet
  · rw [if_pos ⟨hroom.symm, hw⟩, Lobby.Entry.isActive_eq, hw, hmember]
    rfl
  · rw [if_neg fun hc => hw hc.2, hothers wallet hw]
    exact h wallet

end Archive

namespace Lobby

/-- Letting a wallet go keeps the stage and the wallets of the room. -/
theorem Entry.leave_room (e : Entry) (w : String) (now : Instant) :
    (e.leave w now).1.room.status = e.room.status ∧
      (e.leave w now).1.room.wallets = e.room.wallets := by
  obtain ⟨t, ht⟩ := e.room.touch_eq now
  unfold Entry.leave
  split
  · exact ⟨rfl, rfl⟩
  · split
    · dsimp only
      rw [ht]
      exact ⟨rfl, rfl⟩
    · exact ⟨rfl, rfl⟩

/-- So does noting activity. -/
theorem Entry.touch_room (e : Entry) (w : String) (now : Instant) :
    (e.touch w now).room.status = e.room.status ∧
      (e.touch w now).room.wallets = e.room.wallets := by
  obtain ⟨t, ht⟩ := e.room.touch_eq now
  unfold Entry.touch
  dsimp only
  rw [ht]
  exact ⟨rfl, rfl⟩

end Lobby

namespace Service

variable {s s' s'' : Service} {id room wallet : String} {e e' : Lobby.Entry}

/-! ## What the operations save -/

/-- An operation of the rooms, or time that passes before the next one; the clock may also be
set. -/
inductive RoomStep (s : Service) : Service → Prop
  | create {q s' r} (h : s.createRoom q = .ok (s', r)) : RoomStep s s'
  | join {room wallet password s' j} (h : s.joinRoom room wallet password = .ok (s', j)) :
    RoomStep s s'
  | leave {room wallet s' left} (h : s.leaveRoom room wallet = .ok (s', left)) : RoomStep s s'
  | close {room requester s' r} (h : s.closeRoom room requester = .ok (s', r)) : RoomStep s s'
  | share {room wallet q s' x} (h : s.share room wallet q = .ok (s', x)) : RoomStep s s'
  | reap {at_ s' n} (h : s.reapRoomsAt at_ = (s', .ok n)) : RoomStep s s'
  | advance (ms : Nat) : RoomStep s (s.advance ms)
  | setClock (at_ : Instant) : RoomStep s { s with startedAt := at_ }

/-- Operations of the rooms one after the other. -/
abbrev RoomRun : Service → Service → Prop := Relation.ReflTransGen RoomStep

theorem RoomStep.exists_operation (h : RoomStep s s') : ∃ es, Operation s es s' := by
  cases h with
  | create h => exact ⟨_, .create h⟩
  | join h => exact ⟨_, .join h⟩
  | leave h => exact ⟨_, .leave h⟩
  | close h => exact ⟨_, .close h⟩
  | share h => exact ⟨_, .share h⟩
  | reap h => exact ⟨_, .reap h⟩
  | advance ms => exact ⟨_, .other rfl rfl rfl (Nat.le_refl _)⟩
  | setClock at_ => exact ⟨_, .other rfl rfl rfl (Nat.le_refl _)⟩

theorem announceUpdate_archive (s : Service) (room : String) :
    (s.announceUpdate room).archive = s.archive := by
  unfold announceUpdate
  split <;> rfl

theorem watchToken_archive (s : Service) (r : Room) : (s.watchToken r).archive = s.archive := by
  unfold watchToken
  split <;> rfl

theorem finishRoom_archive (s : Service) (r : Room) :
    (s.finishRoom r).archive = s.archive.saveRoom r := by
  unfold finishRoom unwatchToken
  split <;> rfl

theorem finishRooms_archive (closed : List Room) (s : Service) :
    (closed.foldl finishRoom s).archive = closed.foldl Archive.saveRoom s.archive := by
  induction closed generalizing s with
  | nil => rfl
  | cons r closed ih => exact (ih _).trans (by rw [finishRoom_archive, List.foldl_cons])

theorem createRoom_archive {q : RoomRequest} {r : Room} (h : s.createRoom q = .ok (s', r)) :
    s'.archive
      = (s.archive.saveRoom r).saveMember (Member.new s.nextId r.creator s.now) := by
  unfold createRoom at h
  obtain ⟨hash, _, h⟩ := bind_eq_ok_iff.1 h
  obtain ⟨⟨l, r'⟩, hl, h⟩ := bind_eq_ok_iff.1 h
  obtain ⟨rfl, rfl⟩ := Prod.mk.inj (Except.ok.inj h)
  obtain ⟨e, he, _, _, hmembers, _⟩ := Lobby.exists_create hl
  have hview : ({ s with lobby := l, drawn := s.drawn + 1 }.saveRoom r').lobby.view r'.id
      = .ok ⟨e.room, e.activeMembers, e.stats⟩ := by
    show l.view r'.id = _
    unfold Lobby.view
    rw [Lobby.create_id hl, Lobby.entry_eq_ok_iff.2 he]
    rfl
  rw [watchToken_archive, hview, hmembers]
  rfl

theorem joinRoom_archive {password : Option String} {j : Lobby.Joined}
    (h : s.joinRoom room wallet password = .ok (s', j)) :
    s'.archive = (s.archive.saveRoom j.room).saveMember j.member := by
  unfold joinRoom at h
  obtain ⟨e, _, h⟩ := bind_eq_ok_iff.1 h
  obtain ⟨_, _, h⟩ := bind_eq_ok_iff.1 h
  obtain ⟨⟨l, j'⟩, hj, h⟩ := bind_eq_ok_iff.1 h
  obtain ⟨rfl, rfl⟩ := Prod.mk.inj (Except.ok.inj h)
  rw [announceUpdate_archive]
  split <;> rfl

theorem leaveRoom_archive {left : Option Member} (h : s.leaveRoom room wallet = .ok (s', left)) :
    s'.archive = left.elim s.archive s.archive.saveMember := by
  obtain ⟨l, _, heq⟩ := leaveRoom_eq h
  cases left with
  | none =>
    dsimp only at heq
    rw [heq]
    rfl
  | some m =>
    dsimp only at heq
    rw [heq, announceUpdate_archive]
    rfl

/-- What becomes of a room that is in the lobby afterwards, and of what is saved of it. -/
inductive Saves (s s' : Service) (id : String) (e' : Lobby.Entry) : Prop where
  /-- The room is new. -/
  | made (hnew : id = s.nextId) (hopen : e'.room.status = .open) (shows : s'.archive.Shows id e')
      (knows : (∀ w, s.archive.isActive id w = false) → s'.archive.Knows id e') : Saves s s' id e'
  /-- The room stays at its stage; someone may come or go as long as it is open. -/
  | kept {e : Lobby.Entry} (he : s.lobby.get? id = some e)
      (hstage : e'.room.status = e.room.status)
      (shows : s.archive.Shows id e → s'.archive.Shows id e')
      (knows : s.archive.Knows id e → s'.archive.Knows id e')
      (quiet : e.room.status = .closed → ∀ w, s'.archive.isActive id w = s.archive.isActive id w) :
      Saves s s' id e'
  /-- The room is closed, and everyone goes; their members are not saved. -/
  | shut {e : Lobby.Entry} (he : s.lobby.get? id = some e) (hopen : e.room.status = .open)
      (hclosed : e'.room.status = .closed) (shows : s'.archive.Shows id e')
      (quiet : ∀ w, s'.archive.isActive id w = s.archive.isActive id w) : Saves s s' id e'

theorem Saves.same (he : s.lobby.get? id = some e) (hstatus : e'.room.status = e.room.status)
    (hwallets : e'.room.wallets = e.room.wallets) (hactive : ∀ w, e'.isActive w = e.isActive w)
    (hroom : s'.archive.room? id = s.archive.room? id)
    (hmembers : ∀ w, s'.archive.isActive id w = s.archive.isActive id w) : Saves s s' id e' :=
  .kept he hstatus (fun h => h.of_room? hroom hstatus hwallets)
    (fun h w => (hmembers w).trans ((h w).trans (hactive w).symm)) fun _ => hmembers

/-- An operation on one room has nothing to do with the others. -/
theorem Saves.update {e₁ : Lobby.Entry} (hl : s'.lobby = s.lobby.update room e₁)
    (hown : Saves s s' room e₁)
    (hroom : ∀ id, id ≠ room → s'.archive.room? id = s.archive.room? id)
    (hmembers : ∀ id w, id ≠ room → s'.archive.isActive id w = s.archive.isActive id w)
    (he' : s'.lobby.get? id = some e') : Saves s s' id e' := by
  rw [hl, Lobby.get?_update] at he'
  by_cases hid : id = room
  · rw [if_pos hid] at he'
    obtain rfl := Option.some.inj he'
    exact hid ▸ hown
  · rw [if_neg hid] at he'
    exact .same he' rfl rfl (fun _ => rfl) (hroom id hid) fun w => hmembers id w hid

theorem saves_createRoom {q : RoomRequest} {r : Room} (h : s.createRoom q = .ok (s', r))
    (he' : s'.lobby.get? id = some e') : Saves s s' id e' := by
  obtain ⟨plan, hc, _⟩ := create_of_createRoom h
  have harchive := createRoom_archive h
  have hid := Lobby.create_id hc
  by_cases hnew : id = s.nextId
  · obtain ⟨e, he, hroom, hopen, _, hactive⟩ := Lobby.exists_create hc
    obtain rfl := Option.some.inj (he'.symm.trans (hnew ▸ he))
    refine .made hnew hopen ⟨r, ?_, congrArg _ hroom.symm, congrArg _ hroom.symm⟩ fun hfresh w => ?_
    · rw [harchive, Archive.room?_saveMember, Archive.room?_saveRoom, if_pos (hnew.trans hid.symm)]
    · rw [harchive, Archive.isActive_saveMember, hactive, Archive.isActive_saveRoom, hfresh]
      by_cases hw : w = r.creator
      · rw [if_pos ⟨hnew, hw⟩, decide_eq_true hw]
        rfl
      · rw [if_neg fun hc => hw hc.2, decide_eq_false hw]
  · have he := (Lobby.get?_create hc id hnew).symm.trans he'
    refine .same he rfl rfl (fun _ => rfl) ?_ fun w => ?_
    · rw [harchive, Archive.room?_saveMember, Archive.room?_saveRoom, if_neg (hid ▸ hnew)]
    · rw [harchive, Archive.isActive_saveMember, if_neg fun hc => hnew hc.1,
        Archive.isActive_saveRoom]

theorem saves_joinRoom (ht : s.Tidy) {password : Option String} {j : Lobby.Joined}
    (h : s.joinRoom room wallet password = .ok (s', j)) (he' : s'.lobby.get? id = some e') :
    Saves s s' id e' := by
  have hj := (calm_joinRoom h).1
  have harchive := joinRoom_archive h
  obtain ⟨hroom, hmroom, hmwallet, _⟩ := Lobby.join_reports ht.well hj
  obtain ⟨_, e, he, hl, hjoined⟩ := Lobby.join_eq hj
  obtain ⟨he, hopen⟩ := Lobby.openEntry_eq_ok_iff.1 he
  have hstage : (e.join (Text.trim wallet) s.now).1.room.status = e.room.status :=
    congrArg Lobby.Standing.status (e.standing_join _ _)
  refine .update hl (.kept he hstage (fun _ => ⟨j.room, ?_, ?_, ?_⟩) (fun hknows => ?_)
    fun hclosed => absurd hclosed hopen) (fun id hid => ?_) (fun id w hid => ?_) he'
  · rw [harchive, Archive.room?_saveMember, Archive.room?_saveRoom, if_pos hroom.symm]
  · rw [hjoined]
  · rw [hjoined]
  · rw [harchive]
    refine Archive.Knows.saveMember (a := s.archive.saveRoom j.room) hknows hmroom ?_ ?_
    · rw [hmwallet, e.get?_join, hjoined]
    · intro w hw
      rw [Lobby.Entry.isActive_join, beq_eq_false_iff_ne.2 (hmwallet ▸ hw), Bool.false_or]
  · rw [harchive, Archive.room?_saveMember, Archive.room?_saveRoom, if_neg (hroom ▸ hid)]
  · rw [harchive, Archive.isActive_saveMember, if_neg fun hc => hid (hc.1.trans hmroom),
      Archive.isActive_saveRoom]

theorem saves_leaveRoom (ht : s.Tidy) {left : Option Member}
    (h : s.leaveRoom room wallet = .ok (s', left)) (he' : s'.lobby.get? id = some e') :
    Saves s s' id e' := by
  have hl := leave_of_leaveRoom h
  have harchive := leaveRoom_archive h
  obtain ⟨hthere, hreport⟩ := Lobby.leave_reports ht.well hl
  obtain ⟨e, he, hupdate, hleft⟩ := Lobby.leave_eq hl
  obtain ⟨hstage, hwallets⟩ := e.leave_room wallet s.now
  cases left with
  | none =>
    have hsame : s'.archive = s.archive := harchive
    have hactive : ∀ w, (e.leave wallet s.now).1.isActive w = e.isActive w := fun _ => by
      rw [Lobby.Entry.leave_eq_of_none hleft.symm]
    exact .update hupdate (.same he hstage hwallets hactive (hsame ▸ rfl) fun _ => hsame ▸ rfl)
      (fun _ _ => hsame ▸ rfl) (fun _ _ _ => hsame ▸ rfl) he'
  | some m =>
    obtain ⟨hmroom, hmwallet⟩ := hreport m rfl
    refine .update hupdate (.kept he hstage (fun hs => hs.of_room? ?_ hstage hwallets)
      (fun hknows => ?_) fun hclosed => ?_) (fun id hid => ?_) (fun id w hid => ?_) he'
    · rw [harchive]
      rfl
    · rw [harchive]
      refine hknows.saveMember hmroom ?_ fun w hw => ?_
      · rw [hmwallet, Lobby.Entry.get?_leave hleft.symm]
      · rw [Lobby.Entry.isActive_leave, bne_iff_ne.2 (hmwallet ▸ hw), Bool.true_and]
    · -- nobody is in a closed room who could leave it
      obtain ⟨e₁, he₁, hopen⟩ := ht.well.isOpen_of_isActive hthere.symm
      cases he.symm.trans he₁
      exact nomatch hopen.symm.trans hclosed
    · rw [harchive]
      rfl
    · rw [harchive]
      exact (Archive.isActive_saveMember ..).trans (if_neg fun hc => hid (hc.1.trans hmroom))

theorem saves_closeRoom (ht : s.Tidy) {requester : String} {r : Room}
    (h : s.closeRoom room requester = .ok (s', r)) (he' : s'.lobby.get? id = some e') :
    Saves s s' id e' := by
  have hc := (emptied_closeRoom h).1
  have hid := Lobby.close_id ht.lobby hc
  obtain ⟨e, he, _, hopen, hupdate, rfl⟩ := Lobby.close_eq hc
  obtain ⟨l, _, rfl⟩ := closeRoom_eq h
  have harchive := finishRoom_archive { s with lobby := l } (e.shut s.now).room
  refine .update hupdate (.shut he hopen rfl ⟨_, ?_, rfl, rfl⟩ fun w => ?_) (fun id hne => ?_)
    (fun id w _ => ?_) he'
  · rw [harchive, Archive.room?_saveRoom, if_pos hid.symm]
  · rw [harchive]
    rfl
  · rw [harchive, Archive.room?_saveRoom, if_neg (hid ▸ hne)]
  · rw [harchive]
    rfl

theorem saves_share {q : ShareRequest} {x : Share} (h : s.share room wallet q = .ok (s', x))
    (he' : s'.lobby.get? id = some e') : Saves s s' id e' := by
  obtain ⟨l, ht, rfl⟩ := share_eq h
  obtain ⟨e, he, hupdate⟩ := Lobby.touch_eq ht
  obtain ⟨hstage, hwallets⟩ := e.touch_room wallet s.now
  exact .update hupdate (.same (Lobby.get?_of_openEntry he) hstage hwallets
    (e.isActive_touch wallet s.now) rfl fun _ => rfl) (fun _ _ => rfl) (fun _ _ _ => rfl) he'

theorem saves_reapRoomsAt (ht : s.Tidy) {at_ : Instant} {n : Nat}
    (h : s.reapRoomsAt at_ = (s', .ok n)) (he' : s'.lobby.get? id = some e') :
    Saves s s' id e' := by
  unfold reapRoomsAt at h
  split at h
  · cases h
  · rename_i l closed hr
    cases h
    have hmem := (Lobby.reap_eq hr).2.1
    have hlobby : (closed.foldl finishRoom { s with lobby := l }).lobby = l :=
      finishRooms_lobby closed { s with lobby := l }
    have harchive : (closed.foldl finishRoom { s with lobby := l }).archive
        = closed.foldl Archive.saveRoom s.archive := finishRooms_archive closed _
    have hown : ∀ r ∈ closed, r.id = id →
        ∃ e, s.lobby.get? id = some e ∧ e.isDue at_ = true ∧ r = (e.shut at_).room := by
      intro r hr hid
      obtain ⟨id', e, he, hdue, rfl⟩ := (hmem r).1 hr
      obtain rfl : id' = id := (ht.lobby id' e he).own.symm.trans hid
      exact ⟨e, he, hdue, rfl⟩
    obtain ⟨e, he, heq⟩ := Lobby.get?_reap hr ((congrArg (·.get? id) hlobby).symm.trans he')
    by_cases hdue : e.isDue at_ = true
    · rw [if_pos hdue] at heq
      have hin : e'.room ∈ closed := (hmem _).2 ⟨id, e, he, hdue, congrArg _ heq⟩
      have hid : e'.room.id = id := by
        rw [heq]
        exact (ht.lobby id e he).own
      refine .shut he (Lobby.Entry.isDue_open hdue) (by rw [heq]; rfl) ⟨e'.room, ?_, rfl, rfl⟩
        fun w => ?_
      · show Archive.room? (closed.foldl finishRoom { s with lobby := l }).archive id = _
        rw [harchive, ← hid]
        refine Archive.room?_saveRooms_of_mem hin (fun r hr hrid => ?_) _
        obtain ⟨e₁, he₁, _, rfl⟩ := hown r hr (hrid.trans hid)
        rw [heq, Option.some.inj (he₁.symm.trans he)]
      · show Archive.isActive (closed.foldl finishRoom { s with lobby := l }).archive id w = _
        rw [harchive]
        exact Archive.isActive_congr (Archive.members_saveRooms ..) id w
    · rw [if_neg hdue] at heq
      refine .same (heq ▸ he) rfl rfl (fun _ => rfl) ?_ fun w => ?_
      · show Archive.room? (closed.foldl finishRoom { s with lobby := l }).archive id = _
        rw [harchive]
        refine Archive.room?_saveRooms_of_not_mem (fun r hr hid => hdue ?_) _
        obtain ⟨e₁, he₁, hdue₁, _⟩ := hown r hr hid
        rwa [Option.some.inj (he₁.symm.trans he)] at hdue₁
      · show Archive.isActive (closed.foldl finishRoom { s with lobby := l }).archive id w = _
        rw [harchive]
        exact Archive.isActive_congr (Archive.members_saveRooms ..) id w

/-- A room that an operation leaves in the lobby is new, stays at its stage, or is closed. -/
theorem saves_step (ht : s.Tidy) (h : RoomStep s s') (he' : s'.lobby.get? id = some e') :
    Saves s s' id e' := by
  cases h with
  | create h => exact saves_createRoom h he'
  | join h => exact saves_joinRoom ht h he'
  | leave h => exact saves_leaveRoom ht h he'
  | close h => exact saves_closeRoom ht h he'
  | share h => exact saves_share h he'
  | reap h => exact saves_reapRoomsAt ht h he'
  | advance ms => exact .same he' rfl rfl (fun _ => rfl) rfl fun _ => rfl
  | setClock at_ => exact .same he' rfl rfl (fun _ => rfl) rfl fun _ => rfl

/-- An operation saves one member at most, and that of a room that is in the lobby. -/
theorem members_step (ht : s.Tidy) (h : RoomStep s s') :
    s'.archive.members = s.archive.members ∨
      ∃ m e', s'.lobby.get? m.room = some e' ∧
        s'.archive.members = (s.archive.saveMember m).members := by
  cases h with
  | @create q s' r h =>
    obtain ⟨plan, hc, _⟩ := create_of_createRoom h
    obtain ⟨e, he, _⟩ := Lobby.exists_create hc
    exact Or.inr ⟨Member.new s.nextId r.creator s.now, e, he, by rw [createRoom_archive h]; rfl⟩
  | @join room wallet password s' j h =>
    have hj := (calm_joinRoom h).1
    obtain ⟨_, e, _, hl, _⟩ := Lobby.join_eq hj
    refine Or.inr ⟨j.member, (e.join (Text.trim wallet) s.now).1, ?_,
      by rw [joinRoom_archive h]; rfl⟩
    rw [(Lobby.join_reports ht.well hj).2.1, hl, Lobby.get?_update, if_pos rfl]
  | @leave room wallet s' left h =>
    have hl := leave_of_leaveRoom h
    rw [leaveRoom_archive h]
    cases left with
    | none => exact Or.inl rfl
    | some m =>
      obtain ⟨e, _, hupdate, _⟩ := Lobby.leave_eq hl
      refine Or.inr ⟨m, (e.leave wallet s.now).1, ?_, rfl⟩
      rw [((Lobby.leave_reports ht.well hl).2 m rfl).1, hupdate, Lobby.get?_update, if_pos rfl]
  | close h =>
    obtain ⟨l, _, rfl⟩ := closeRoom_eq h
    rw [finishRoom_archive]
    exact Or.inl rfl
  | share h =>
    obtain ⟨l, _, rfl⟩ := share_eq h
    exact Or.inl rfl
  | reap h =>
    unfold reapRoomsAt at h
    split at h
    · cases h
    · rename_i l closed _
      cases h
      refine Or.inl (Eq.trans ?_ (Archive.members_saveRooms closed s.archive))
      exact congrArg _ (finishRooms_archive closed { s with lobby := l })
  | advance ms => exact Or.inl rfl
  | setClock at_ => exact Or.inl rfl

/-! ## Along every run -/

/-- The archive agrees with the lobby, except about those who were in a room that is closed. -/
structure Archived (s : Service) : Prop where
  tidy : s.Tidy
  filed : s.archive.Filed
  /-- Members were saved of rooms whose ids were drawn. -/
  drawn : ∀ room w, s.archive.isActive room w = true → ∃ k ≤ s.drawn, room = s.draws.id k
  shows : ∀ id e, s.lobby.get? id = some e → s.archive.Shows id e
  knows : ∀ id e, s.lobby.get? id = some e → e.room.status = .open → s.archive.Knows id e

theorem archived_new (settings : Settings) {draws : Draws} (hd : Function.Injective draws.id)
    (looksUp : Bool) (startedAt : Instant) : (new settings draws looksUp startedAt).Archived where
  tidy := tidy_new settings hd looksUp startedAt
  filed := Archive.filed_empty
  drawn _ _ h := nomatch h
  shows _ _ h := nomatch h
  knows _ _ h := nomatch h

namespace Archived

/-- Nobody was saved of the room that is created next. -/
theorem fresh (hs : s.Archived) (w : String) : s.archive.isActive s.nextId w = false := by
  refine Bool.eq_false_iff.2 fun hv => ?_
  obtain ⟨k, hk, hid⟩ := hs.drawn _ w hv
  have := hs.tidy.fresh hid
  omega

theorem step (hs : s.Archived) (h : RoomStep s s') : s'.Archived := by
  obtain ⟨es, hop⟩ := h.exists_operation
  have ht' := tidy_operation hs.tidy hop
  obtain ⟨hdraws, hdrawn⟩ := draws_operation hop
  have hdrawn' : ∀ room w, s.archive.isActive room w = true →
      ∃ k ≤ s'.drawn, room = s'.draws.id k := by
    intro room w hv
    obtain ⟨k, hk, hid⟩ := hs.drawn room w hv
    exact ⟨k, hk.trans hdrawn, hdraws ▸ hid⟩
  refine ⟨ht', ?_, fun room w hv => ?_, fun id e' he' => ?_, fun id e' he' hopen' => ?_⟩
  · rcases members_step hs.tidy h with hsame | ⟨m, _, _, hsaved⟩
    · unfold Archive.Filed
      rw [hsame]
      exact hs.filed
    · unfold Archive.Filed
      rw [hsaved]
      exact hs.filed.saveMember m
  · rcases members_step hs.tidy h with hsame | ⟨m, e', he', hsaved⟩
    · exact hdrawn' room w (Archive.isActive_congr hsame room w ▸ hv)
    · rw [Archive.isActive_congr hsaved, Archive.isActive_saveMember] at hv
      split at hv
      · rename_i hm
        exact ht'.drawn room e' (hm.1 ▸ he')
      · exact hdrawn' room w hv
  · cases saves_step hs.tidy h he' with
    | made _ _ shows _ => exact shows
    | kept he _ shows _ _ => exact shows (hs.shows id _ he)
    | shut _ _ _ shows _ => exact shows
  · cases saves_step hs.tidy h he' with
    | made hnew _ _ knows => exact knows (hnew ▸ hs.fresh)
    | kept he hstage _ knows _ => exact knows (hs.knows id _ he (hstage.symm.trans hopen'))
    | shut _ _ hclosed _ _ => exact nomatch hclosed.symm.trans hopen'

theorem run (hs : s.Archived) (h : RoomRun s s') : s'.Archived := by
  induction h with
  | refl => exact hs
  | tail _ hstep ih => exact ih.step hstep

end Archived

/-- In this step the room was closed; the entry is what it was before. -/
structure Closing (s s' : Service) (id : String) (e : Lobby.Entry) : Prop where
  step : RoomStep s s'
  before : s.lobby.get? id = some e
  wasOpen : e.room.status = .open
  after : ∃ e', s'.lobby.get? id = some e' ∧ e'.room.status = .closed

/-- A room that is closed now was closed in some step, and what was known of its members then was
not touched again. -/
theorem exists_closing (hs : s.Archived) (hnone : ∀ id, s.lobby.get? id = none)
    (h : RoomRun s s') (he' : s'.lobby.get? id = some e') (hclosed : e'.room.status = .closed) :
    ∃ s₁ s₂ e₁, RoomRun s s₁ ∧ Closing s₁ s₂ id e₁ ∧ RoomRun s₂ s' ∧ s'.archive.Knows id e₁ := by
  induction h generalizing e' with
  | refl => exact nomatch (hnone id).symm.trans he'
  | @tail s₁ s₂ hrun hstep ih =>
    have hs₁ := hs.run hrun
    cases saves_step hs₁.tidy hstep he' with
    | made _ hopen _ _ => exact nomatch hopen.symm.trans hclosed
    | kept he hstage _ _ quiet =>
      obtain ⟨s₃, s₄, e₃, hbefore, hc, hafter, hknows⟩ := ih he (hstage.symm.trans hclosed)
      exact ⟨s₃, s₄, e₃, hbefore, hc, hafter.tail hstep, fun w =>
        (quiet (hstage.symm.trans hclosed) w).trans (hknows w)⟩
    | shut he hopen _ _ quiet =>
      exact ⟨s₁, s₂, _, hrun, ⟨hstep, he, hopen, e', he', hclosed⟩, .refl, fun w =>
        (quiet w).trans (hs₁.knows id _ he hopen w)⟩

/-- Whatever is done with the rooms, the archive has every room of the lobby at its stage and with
its wallets. Of an open room it lists just those who are there. Of a closed one, where nobody is, it
lists those who were there before the step in which it was closed. -/
theorem saved_of_run (settings : Settings) {draws : Draws} (hd : Function.Injective draws.id)
    (looksUp : Bool) (startedAt : Instant)
    (h : RoomRun (new settings draws looksUp startedAt) s) (he : s.lobby.get? id = some e) :
    s.archive.Shows id e ∧
      (e.room.status = .open ∧ s.archive.Lists id e ∨
        e.room.status = .closed ∧ e.activeMembers = [] ∧
          ∃ s₁ s₂ e₁, RoomRun (new settings draws looksUp startedAt) s₁ ∧ Closing s₁ s₂ id e₁ ∧
            RoomRun s₂ s ∧ s.archive.Lists id e₁) := by
  have hnew := archived_new settings hd looksUp startedAt
  have hs := hnew.run h
  have hwell := hs.tidy.well id e he
  refine ⟨hs.shows id e he, ?_⟩
  rcases hwell.room.stage with hopen | hclosed
  · exact Or.inl ⟨hopen, (hs.filed.lists_iff hwell).2 (hs.knows id e he hopen)⟩
  · obtain ⟨s₁, s₂, e₁, hbefore, hc, hafter, hknows⟩ :=
      exists_closing hnew (fun _ => rfl) h he hclosed
    have hwell₁ := (hnew.run hbefore).tidy.well id e₁ hc.before
    refine Or.inr ⟨hclosed, ?_, s₁, s₂, e₁, hbefore, hc, hafter,
      (hs.filed.lists_iff hwell₁).2 hknows⟩
    refine List.eq_nil_iff_forall_not_mem.2 fun m hm => ?_
    obtain ⟨hactive, hmem⟩ := Lobby.mem_activeMembers.1 hm
    obtain ⟨w, hget⟩ := Table.mem_values_iff.1 hmem
    exact nomatch (hwell.deserted hclosed w m hget).symm.trans hactive

/-- Bo has joined Ada's room. -/
def smallWithMember : Service := smallWithRoom.after (smallWithRoom.joinRoom "r" "bo" none)

/-- Ada has closed it. -/
def smallClosed : Service := smallWithMember.after (smallWithMember.closeRoom "r" "ada")

theorem roomRun_smallWithMember : RoomRun small smallWithMember := by
  obtain ⟨_, hjoin, _⟩ : ∃ j, smallWithRoom.joinRoom "r" "bo" none = .ok (smallWithMember, j) ∧
      j.newly = true := eq_ok_after (by decide +kernel)
  refine .tail (.single (.create (show small.createRoom { creator := "ada", token := some "mint" }
    = .ok (smallWithRoom, _) from rfl))) (.join hjoin)

theorem roomRun_smallClosed : RoomRun small smallClosed := by
  obtain ⟨_, hclose, _⟩ : ∃ r, smallWithMember.closeRoom "r" "ada" = .ok (smallClosed, r) ∧
      r.status = .closed := eq_ok_after (by decide +kernel)
  exact roomRun_smallWithMember.tail (.close hclose)

theorem saved_small :
    (Function.Injective growingIds.id ∧ RoomRun small smallClosed) ∧
      ∃ e, smallClosed.lobby.get? "r" = some e ∧ e.room.status = .closed ∧
        smallClosed.archive.Shows "r" e ∧ e.activeMembers = [] ∧
        ∃ s₁ s₂ e₁, RoomRun small s₁ ∧ Closing s₁ s₂ "r" e₁ ∧ RoomRun s₂ smallClosed ∧
          smallClosed.archive.Lists "r" e₁ := by
  have hstatus : (smallClosed.lobby.get? "r").map (·.room.status) = some .closed := by
    decide +kernel
  obtain ⟨e, he, hclosed⟩ := Option.map_eq_some_iff.1 hstatus
  obtain ⟨hshows, hpeople⟩ :=
    saved_of_run {} growingIds_injective true ⟨0, false⟩ roomRun_smallClosed he
  rcases hpeople with ⟨hopen, _⟩ | ⟨_, hnobody, hbefore⟩
  · exact nomatch hclosed.symm.trans hopen
  · exact ⟨⟨growingIds_injective, roomRun_smallClosed⟩, e, he, hclosed, hshows, hnobody, hbefore⟩

/-- The archive still lists Ada when nobody is in the room any more. -/
theorem not_lists_closed :
    ¬ ∀ s id e, RoomRun small s → s.lobby.get? id = some e →
      s.archive.Shows id e ∧ s.archive.Lists id e := by
  intro hclaim
  have hfiled := ((archived_new {} growingIds_injective true ⟨0, false⟩).run
    roomRun_smallClosed).filed
  have hada : "ada" ∈ (smallClosed.archive.activeMembers "r").map (·.wallet) :=
    hfiled.mem_activeWallets.2 (by decide +kernel)
  have hthere : (smallClosed.lobby.get? "r").map (·.activeMembers) = some [] := by decide +kernel
  obtain ⟨e, he, hnobody⟩ := Option.map_eq_some_iff.1 hthere
  have hlists : List.Perm _ _ := (hclaim smallClosed "r" e roomRun_smallClosed he).2
  rw [hnobody] at hlists
  exact nomatch hlists.mem_iff.1 hada

end Service

end SwapFloor
