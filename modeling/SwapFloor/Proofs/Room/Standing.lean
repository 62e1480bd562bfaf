import SwapFloor.Proofs.Room.Operations

/-!
# Where rooms stand

The standing of a room is what decides whether it is open and which token it watches. Most
operations leave the standings of all rooms as they were (`Steady`); only creating, closing and
recycling change some.

Main statements: standings stay sound (`Sound`), which rooms are open on a token after every
operation (`openOn_create`, `openOn_close`, `openOn_reap`), and who has a seat, as an active
member of an open room, after every operation.
-/

namespace SwapFloor.Lobby

/-- What decides whether a room is open and which token it watches. -/
structure Standing where
  id : String
  token : Option String
  status : Status
  closedAt : Option Instant

/-- The standing of a room under its key. -/
structure Standing.Sound (s : Standing) (id : String) : Prop where
  own : s.id = id
  stage : s.status = .open ∨ s.status = .closed
  undated : s.status = .open → s.closedAt = none
  named : s.token ≠ some ""

def Entry.standing (e : Entry) : Standing :=
  ⟨e.room.id, e.room.token, e.room.status, e.room.closedAt⟩

def Sound (l : Lobby) : Prop := ∀ id e, l.get? id = some e → e.standing.Sound id

/-- The room is open and watches the token. -/
def OpenOn (l : Lobby) (room token : String) : Prop :=
  ∃ e, l.get? room = some e ∧ e.room.status = .open ∧ e.room.token = some token

/-- The room is open and the wallet is an active member. -/
def Seats (l : Lobby) (room wallet : String) : Prop :=
  ∃ e, l.get? room = some e ∧ e.room.status = .open ∧ e.isActive wallet = true

theorem sound_new (hours : Int64) (mint : String) : (new hours mint).Sound :=
  fun _ _ h => nomatch h

theorem Sound.openEntry_iff {l : Lobby} (hl : l.Sound) {id : String} {e : Entry} :
    l.openEntry id = .ok e ↔ l.get? id = some e ∧ e.room.status = .open := by
  rw [openEntry_eq_ok_iff]
  refine and_congr_right fun he => ⟨fun hne => ?_, fun ho hc => ?_⟩
  · exact (hl id e he).stage.resolve_right hne
  · rw [ho] at hc
    exact nomatch hc

/-! ## Single entries -/

namespace Entry

theorem isActive_eq (e : Entry) (w : String) :
    e.isActive w = ((e.members.get? w).map (·.active)).getD false := by
  unfold isActive
  cases e.members.get? w <;> rfl

theorem standing_join (e : Entry) (w : String) (now : Instant) :
    (e.join w now).1.standing = e.standing := by
  show standing { e with room := (e.room.addWallet w).touch now, members := _ } = e.standing
  unfold standing Room.touch Room.addWallet
  split <;> split <;> rfl

theorem standing_leave (e : Entry) (w : String) (now : Instant) :
    (e.leave w now).1.standing = e.standing := by
  unfold leave standing Room.touch
  split
  · rfl
  · split
    · dsimp only
      split <;> rfl
    · rfl

theorem standing_touch (e : Entry) (w : String) (now : Instant) :
    (e.touch w now).standing = e.standing := by
  unfold touch standing Room.touch
  dsimp only
  split <;> rfl

theorem standing_count (e : Entry) (t : Trade) (mint : String) :
    (e.count t mint).1.standing = e.standing := rfl

theorem isActive_join (e : Entry) (w : String) (now : Instant) (v : String) :
    (e.join w now).1.isActive v = (v == w || e.isActive v) := by
  have hin : ∀ m : Member, m.active = true →
      (((e.members.insert w m).get? v).map (·.active)).getD false = (v == w || e.isActive v) := by
    intro m hm
    rw [Table.get?_insert, isActive_eq]
    by_cases hv : v = w
    · simp [hv, hm]
    · simp [hv]
  rw [isActive_eq]
  unfold join
  cases e.members.get? w with
  | none => exact hin _ rfl
  | some m => exact hin _ (m.reactivate_active now)

/-- After a wallet was let go it is not active, and the others are as they were. -/
theorem isActive_leave (e : Entry) (w : String) (now : Instant) (v : String) :
    (e.leave w now).1.isActive v = (v != w && e.isActive v) := by
  have hsame : e.isActive w = false → e.isActive v = (v != w && e.isActive v) := by
    intro hw
    by_cases hv : v = w
    · simp [hv, hw]
    · simp [hv]
  unfold leave
  cases hm : e.members.get? w with
  | none => exact hsame (by rw [isActive_eq, hm]; rfl)
  | some m =>
    unfold Member.deactivate
    by_cases ha : m.active = true
    · simp only [ha, if_true]
      rw [isActive_eq, Table.get?_insert, isActive_eq]
      by_cases hv : v = w
      · simp [hv]
      · simp [hv]
    · simp only [ha]
      refine hsame ?_
      rw [isActive_eq, hm]
      exact Bool.not_eq_true _ ▸ ha

/-- If nobody was let go nothing has changed. -/
theorem leave_eq_of_none {e : Entry} {w : String} {now : Instant} (h : (e.leave w now).2 = none) :
    (e.leave w now).1 = e := by
  unfold leave at h ⊢
  split
  · rfl
  · rename_i m hm
    rw [hm] at h
    dsimp only at h
    split
    · rename_i hd
      rw [hd] at h
      exact nomatch h
    · rfl

theorem isActive_touch (e : Entry) (w : String) (now : Instant) (v : String) :
    (e.touch w now).isActive v = e.isActive v := by
  rw [isActive_eq, isActive_eq]
  unfold touch
  dsimp only
  rw [Table.get?_modify]
  split
  · cases e.members.get? v with
    | none => rfl
    | some m =>
      dsimp only [Option.map_some, Option.getD_some]
      split <;> rfl
  · rfl

theorem isActive_shut (e : Entry) (now : Instant) (v : String) :
    (e.shut now).isActive v = false := by
  rw [isActive_eq]
  unfold shut
  dsimp only
  rw [Table.get?_map]
  cases e.members.get? v with
  | none => rfl
  | some m => exact m.deactivate_active now

end Entry

/-! ## Operations that leave the standings alone -/

/-- The same rooms have the same standings in both lobbies. -/
structure Steady (l l' : Lobby) : Prop where
  standing : ∀ id, (l'.get? id).map Entry.standing = (l.get? id).map Entry.standing
  quoteMint : l'.quoteMint = l.quoteMint

namespace Steady

variable {l l' : Lobby}

theorem refl (l : Lobby) : Steady l l := ⟨fun _ => rfl, rfl⟩

theorem update {id : String} {e e' : Entry} (he : l.get? id = some e)
    (hs : e'.standing = e.standing) : Steady l (l.update id e') where
  standing id' := by
    rw [get?_update]
    split
    · rename_i h
      rw [h, he, Option.map_some, Option.map_some, hs]
    · rfl
  quoteMint := rfl

theorem symm (h : Steady l l') : Steady l' l := ⟨fun id => (h.standing id).symm, h.quoteMint.symm⟩

theorem trans {l'' : Lobby} (h : Steady l l') (h' : Steady l' l'') : Steady l l'' :=
  ⟨fun id => (h'.standing id).trans (h.standing id), h'.quoteMint.trans h.quoteMint⟩

theorem exists_entry (h : Steady l l') {id : String} {e : Entry} (he : l.get? id = some e) :
    ∃ e', l'.get? id = some e' ∧ e'.standing = e.standing := by
  have hs := h.standing id
  rw [he, Option.map_some, Option.map_eq_some_iff] at hs
  exact hs

theorem sound (h : Steady l l') (hl : l.Sound) : l'.Sound := by
  intro id e' he'
  obtain ⟨e, he, hs⟩ := h.symm.exists_entry he'
  rw [← hs]
  exact hl id e he

theorem openOn (h : Steady l l') {room token : String} (ho : l.OpenOn room token) :
    l'.OpenOn room token := by
  obtain ⟨e, he, hopen, htoken⟩ := ho
  obtain ⟨e', he', hs⟩ := h.exists_entry he
  exact ⟨e', he', (congrArg Standing.status hs).trans hopen,
    (congrArg Standing.token hs).trans htoken⟩

theorem openOn_iff (h : Steady l l') (room token : String) :
    l'.OpenOn room token ↔ l.OpenOn room token :=
  ⟨h.symm.openOn, h.openOn⟩

end Steady

variable {l l' : Lobby} {id wallet : String} {now : Instant}

theorem get?_of_openEntry {e : Entry} (h : l.openEntry id = .ok e) : l.get? id = some e :=
  (openEntry_eq_ok_iff.1 h).1

theorem steady_join {j : Joined} (h : l.join id wallet now = .ok (l', j)) : Steady l l' := by
  obtain ⟨_, e, he, rfl, _⟩ := join_eq h
  exact Steady.update (get?_of_openEntry he) (e.standing_join _ now)

theorem steady_leave {left : Option Member} (h : l.leave id wallet now = .ok (l', left)) :
    Steady l l' := by
  obtain ⟨e, he, rfl, _⟩ := leave_eq h
  exact Steady.update he (e.standing_leave wallet now)

theorem steady_touch (h : l.touch id wallet now = .ok l') : Steady l l' := by
  obtain ⟨e, he, rfl⟩ := touch_eq h
  exact Steady.update (get?_of_openEntry he) (e.standing_touch wallet now)

theorem steady_recordTrade {t : Trade} {trouble : Option Breakdown}
    (h : l.recordTrade id t = .ok (l', trouble)) : Steady l l' := by
  obtain ⟨e, he, rfl, _⟩ := recordTrade_eq h
  exact Steady.update (get?_of_openEntry he) (e.standing_count t _)

/-! ## Seats -/

/-- A seat is kept if the entry of its room stays open with its wallet. -/
theorem Seats.update {e e' : Entry} {room v : String} (hs : l.Seats room v)
    (he : l.get? id = some e) (hst : e'.standing = e.standing)
    (hact : room = id → e.isActive v = true → e'.isActive v = true) :
    (l.update id e').Seats room v := by
  obtain ⟨e₀, he₀, hopen, hv⟩ := hs
  by_cases hr : room = id
  · have hee : e₀ = e := Option.some.inj (he₀.symm.trans (hr ▸ he))
    rw [hee] at hopen hv
    refine ⟨e', ?_, (congrArg Standing.status hst).trans hopen, hact hr hv⟩
    rw [get?_update, if_pos hr]
  · refine ⟨e₀, ?_, hopen, hv⟩
    rw [get?_update, if_neg hr]
    exact he₀

theorem Seats.join {j : Joined} {room v : String} (hs : l.Seats room v)
    (h : l.join id wallet now = .ok (l', j)) : l'.Seats room v := by
  obtain ⟨_, e, he, rfl, _⟩ := join_eq h
  refine hs.update (get?_of_openEntry he) (e.standing_join _ now) fun _ hv => ?_
  rw [Entry.isActive_join, hv, Bool.or_true]

/-- Who joined has a seat. -/
theorem seats_join (hl : l.Sound) {j : Joined} (h : l.join id wallet now = .ok (l', j)) :
    l'.Seats id (Text.trim wallet) := by
  obtain ⟨_, e, he, rfl, _⟩ := join_eq h
  refine ⟨_, by rw [get?_update, if_pos rfl], ?_, ?_⟩
  · exact (congrArg Standing.status (e.standing_join _ now)).trans (hl.openEntry_iff.1 he).2
  · rw [Entry.isActive_join, beq_self_eq_true, Bool.true_or]

theorem Seats.leave {left : Option Member} {room v : String} (hs : l.Seats room v)
    (h : l.leave id wallet now = .ok (l', left)) (hne : ¬ (room = id ∧ v = wallet)) :
    l'.Seats room v := by
  obtain ⟨e, he, rfl, _⟩ := leave_eq h
  refine hs.update he (e.standing_leave wallet now) fun hr hv => ?_
  have hvw : v ≠ wallet := fun hv' => hne ⟨hr, hv'⟩
  rw [Entry.isActive_leave, hv, Bool.and_true]
  exact bne_iff_ne.2 hvw

/-- If nobody was let go all seats are kept. -/
theorem Seats.leave_none {room v : String} (hs : l.Seats room v)
    (h : l.leave id wallet now = .ok (l', none)) : l'.Seats room v := by
  obtain ⟨e, he, rfl, hleft⟩ := leave_eq h
  rw [Entry.leave_eq_of_none hleft.symm]
  exact hs.update he rfl fun _ hv => hv

theorem Seats.touch {room v : String} (hs : l.Seats room v) (h : l.touch id wallet now = .ok l') :
    l'.Seats room v := by
  obtain ⟨e, he, rfl⟩ := touch_eq h
  refine hs.update (get?_of_openEntry he) (e.standing_touch wallet now) fun _ hv => ?_
  rw [Entry.isActive_touch, hv]

theorem Seats.recordTrade {t : Trade} {trouble : Option Breakdown} {room v : String}
    (hs : l.Seats room v) (h : l.recordTrade id t = .ok (l', trouble)) : l'.Seats room v := by
  obtain ⟨e, he, rfl, _⟩ := recordTrade_eq h
  exact hs.update (get?_of_openEntry he) (e.standing_count t _) fun _ hv => hv

/-! ## Creating -/

theorem tokenOf_ne_blank (token : Option String) : tokenOf token ≠ some "" := by
  unfold tokenOf
  intro h
  have hb := (Option.filter_eq_some_iff.1 h).2
  simp at hb

section Create

variable {plan : Plan} {room : Room}

theorem sound_create (hl : l.Sound) (h : l.create id plan now = .ok (l', room)) : l'.Sound := by
  obtain ⟨_, _, hroom, rfl⟩ := create_eq h
  intro id' e he
  rw [get?_update] at he
  split at he
  · rename_i hid
    cases he
    rw [hid, hroom]
    exact ⟨rfl, Or.inl rfl, fun _ => rfl, tokenOf_ne_blank plan.token⟩
  · exact hl id' e he

theorem get?_create (h : l.create id plan now = .ok (l', room)) (id' : String) :
    id' ≠ id → l'.get? id' = l.get? id' := by
  obtain ⟨_, _, _, rfl⟩ := create_eq h
  intro hne
  rw [get?_update, if_neg hne]

theorem openOn_create (hnew : l.get? id = none) (h : l.create id plan now = .ok (l', room))
    (r a : String) :
    l'.OpenOn r a ↔ l.OpenOn r a ∨ (r = room.id ∧ room.token = some a) := by
  obtain ⟨_, _, hroom, rfl⟩ := create_eq h
  have hid : room.id = id := by rw [hroom]
  have hopen : room.status = .open := by rw [hroom]
  unfold OpenOn
  rw [hid, get?_update]
  by_cases hr : r = id
  · rw [if_pos hr, hr, hnew]
    constructor
    · rintro ⟨e, he, _, ht⟩
      cases he
      exact Or.inr ⟨rfl, ht⟩
    · rintro (⟨e, he, _⟩ | ⟨_, ht⟩)
      · exact nomatch he
      · exact ⟨_, rfl, hopen, ht⟩
  · rw [if_neg hr]
    exact ⟨Or.inl, fun hor => hor.resolve_right fun hc => hr hc.1⟩

theorem Seats.create (hnew : l.get? id = none) (h : l.create id plan now = .ok (l', room))
    {r v : String} (hs : l.Seats r v) : l'.Seats r v := by
  obtain ⟨e, he, hopen, hv⟩ := hs
  have hne : r ≠ id := by
    rintro rfl
    exact nomatch hnew.symm.trans he
  exact ⟨e, (get?_create h r hne).trans he, hopen, hv⟩

end Create

/-! ## Closing -/

section Close

variable {requester : String} {room : Room}

theorem Entry.sound_shut {e : Entry} (he : e.standing.Sound id) (now : Instant) :
    (e.shut now).standing.Sound id where
  own := he.own
  stage := Or.inr rfl
  undated h := nomatch h
  named := he.named

theorem sound_close (hl : l.Sound) (h : l.close id requester now = .ok (l', room)) :
    l'.Sound := by
  obtain ⟨e, he, _, _, rfl, _⟩ := close_eq h
  intro id' e' he'
  rw [get?_update] at he'
  split at he'
  · rename_i hid
    cases he'
    rw [hid]
    exact Entry.sound_shut (hl id e he) now
  · exact hl id' e' he'

theorem close_id (hl : l.Sound) (h : l.close id requester now = .ok (l', room)) :
    room.id = id := by
  obtain ⟨e, he, _, _, _, rfl⟩ := close_eq h
  exact (hl id e he).own

theorem openOn_close (hl : l.Sound) (h : l.close id requester now = .ok (l', room))
    (r a : String) :
    l'.OpenOn r a ↔ l.OpenOn r a ∧ ¬ (r = room.id ∧ room.token = some a) := by
  rw [close_id hl h]
  obtain ⟨e, he, _, _, rfl, rfl⟩ := close_eq h
  unfold OpenOn
  rw [get?_update]
  by_cases hr : r = id
  · rw [if_pos hr, hr, he]
    constructor
    · rintro ⟨e', he', hopen, _⟩
      cases he'
      exact nomatch hopen
    · rintro ⟨⟨e', he', _, ht⟩, hne⟩
      cases he'
      exact absurd ⟨rfl, ht⟩ hne
  · rw [if_neg hr]
    exact ⟨fun ho => ⟨ho, fun hc => hr hc.1⟩, fun ho => ho.1⟩

theorem Seats.close (h : l.close id requester now = .ok (l', room)) {r v : String}
    (hs : l.Seats r v) (hne : r ≠ id) : l'.Seats r v := by
  obtain ⟨e₀, he₀, hopen, hv⟩ := hs
  obtain ⟨e, _, _, _, rfl, _⟩ := close_eq h
  exact ⟨e₀, by rw [get?_update, if_neg hne]; exact he₀, hopen, hv⟩

end Close

/-! ## Recycling -/

section Reap

variable {closed : List Room}

/-- What recycling leaves was there, as it is now or before it was shut. -/
theorem get?_reap (h : l.reap now = (l', .ok closed)) {e' : Entry} (he' : l'.get? id = some e') :
    ∃ e, l.get? id = some e ∧ e' = if e.isDue now then e.shut now else e := by
  rw [(reap_eq h).1 id, Option.filter_eq_some_iff, Option.map_eq_some_iff] at he'
  obtain ⟨⟨e, he, rfl⟩, _⟩ := he'
  exact ⟨e, he, rfl⟩

/-- An open room that is not due is as it was. -/
theorem get?_reap_of_open (hl : l.Sound) (h : l.reap now = (l', .ok closed)) {e : Entry}
    (he : l.get? id = some e) (hopen : e.room.status = .open) (hdue : ¬ e.isDue now = true) :
    l'.get? id = some e := by
  have hkept : e.isKept now = true := by
    have hundated : e.room.closedAt = none := (hl id e he).undated hopen
    unfold Entry.isKept
    rw [hundated]
  rw [(reap_eq h).1 id, he, Option.map_some, if_neg hdue, Option.filter_some, if_pos hkept]

theorem sound_reap (hl : l.Sound) (h : l.reap now = (l', .ok closed)) : l'.Sound := by
  intro id e' he'
  obtain ⟨e, he, rfl⟩ := get?_reap h he'
  split
  · exact Entry.sound_shut (hl id e he) now
  · exact hl id e he

/-- The room of the entry is among those that were closed exactly if it was due. -/
theorem mem_closed_iff (hl : l.Sound) (h : l.reap now = (l', .ok closed)) {e : Entry}
    (he : l.get? id = some e) :
    (∃ room ∈ closed, room.id = id ∧ room.token = e.room.token) ↔ e.isDue now = true := by
  constructor
  · rintro ⟨room, hm, hid, _⟩
    obtain ⟨id', e', he', hdue, rfl⟩ := ((reap_eq h).2.1 room).1 hm
    have hid' : id' = id := (hl id' e' he').own.symm.trans hid
    rw [hid', he, Option.some.injEq] at he'
    rwa [he']
  · intro hdue
    refine ⟨_, ((reap_eq h).2.1 _).2 ⟨id, e, he, hdue, rfl⟩, ?_, rfl⟩
    exact (hl id e he).own

theorem openOn_reap (hl : l.Sound) (h : l.reap now = (l', .ok closed)) (r a : String) :
    l'.OpenOn r a ↔ l.OpenOn r a ∧ ¬ ∃ room ∈ closed, r = room.id ∧ room.token = some a := by
  constructor
  · rintro ⟨e', he', hopen, ht⟩
    obtain ⟨e, he, rfl⟩ := get?_reap h he'
    by_cases hdue : e.isDue now = true
    · rw [if_pos hdue] at hopen
      exact nomatch hopen
    · rw [if_neg hdue] at hopen ht
      refine ⟨⟨e, he, hopen, ht⟩, ?_⟩
      rintro ⟨room, hm, hr, hrt⟩
      exact hdue ((mem_closed_iff hl h he).1 ⟨room, hm, hr.symm, hrt.trans ht.symm⟩)
  · rintro ⟨⟨e, he, hopen, ht⟩, hnot⟩
    by_cases hdue : e.isDue now = true
    · obtain ⟨room, hm, hr, hrt⟩ := (mem_closed_iff hl h he).2 hdue
      exact absurd ⟨room, hm, hr.symm, hrt.trans ht⟩ hnot
    · exact ⟨e, get?_reap_of_open hl h he hopen hdue, hopen, ht⟩

theorem Seats.reap (hl : l.Sound) (h : l.reap now = (l', .ok closed)) {r v : String}
    (hs : l.Seats r v) (hne : ∀ room ∈ closed, r ≠ room.id) : l'.Seats r v := by
  obtain ⟨e, he, hopen, hv⟩ := hs
  refine ⟨e, get?_reap_of_open hl h he hopen fun hdue => ?_, hopen, hv⟩
  obtain ⟨room, hm, hr, _⟩ := (mem_closed_iff hl h he).2 hdue
  exact hne room hm hr.symm

end Reap

end SwapFloor.Lobby
