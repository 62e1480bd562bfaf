import SwapFloor.Proofs.Fanout.Onward
import SwapFloor.Proofs.Room.Standing
import SwapFloor.Proofs.Service.Step
import SwapFloor.Proofs.Watch.References

/-!
# What holds between operations

The parts of the service refer to each other: connections to rooms and members, references of
addresses to open rooms. `Sound` says how they agree. Most operations are calm: standings, seats
and references stay, and no connection is added; they keep `Sound` at once (`Calm.sound`). Those
that open, close or leave a room or open a socket are taken one by one.

Main statements: every step keeps the service sound (`sound_step`), and so does every run from its
start (`sound_run`).
-/

namespace SwapFloor.Service

/-- The parts of the service agree with each other. -/
structure Sound (s : Service) : Prop where
  /-- No id is drawn twice. -/
  fresh : Function.Injective s.draws.id
  hub : s.hub.Coherent
  lobby : s.lobby.Sound
  /-- The id of every room was drawn. -/
  drawn : ∀ id e, s.lobby.get? id = some e → ∃ k ≤ s.drawn, id = s.draws.id k
  quoteMint : s.lobby.quoteMint = s.settings.ingest.quoteMint
  /-- Exactly the open rooms watch their tokens. -/
  watched : s.watches.Refers s.lobby.OpenOn
  /-- Whoever is connected has a seat. -/
  seated : ∀ id c, s.hub.get? id = some c → s.lobby.Seats c.room c.wallet

theorem sound_new (settings : Settings) {draws : Draws} (hd : Function.Injective draws.id)
    (looksUp : Bool) (startedAt : Instant) : (new settings draws looksUp startedAt).Sound where
  fresh := hd
  hub := Hub.coherent_empty
  lobby := Lobby.sound_new _ _
  drawn _ _ h := nomatch h
  quoteMint := rfl
  watched := (Watches.refers_new _).congr fun _ _ => ⟨False.elim, fun ⟨_, h, _⟩ => nomatch h⟩
  seated _ _ h := nomatch h

/-- The id that is given next is the id of no room. -/
theorem Sound.get?_nextId {s : Service} (hs : s.Sound) : s.lobby.get? s.nextId = none := by
  cases he : s.lobby.get? s.nextId with
  | none => rfl
  | some e =>
    obtain ⟨k, hk, hid⟩ := hs.drawn _ e he
    have := hs.fresh hid
    omega

/-- Where standings and references stay, it is enough to look at the connections. -/
theorem Sound.of_steady {s s' : Service} (hs : s.Sound) (hsettings : s'.settings = s.settings)
    (hdraws : s'.draws = s.draws) (hdrawn : s.drawn ≤ s'.drawn) (hl : s.lobby.Steady s'.lobby)
    (hclaims : ∀ a, s'.watches.claims a = s.watches.claims a) (hub : s'.hub.Coherent)
    (seated : ∀ id c, s'.hub.get? id = some c → s'.lobby.Seats c.room c.wallet) : s'.Sound where
  fresh := by
    rw [hdraws]
    exact hs.fresh
  hub := hub
  lobby := hl.sound hs.lobby
  drawn id e' he' := by
    obtain ⟨e, he, _⟩ := hl.symm.exists_entry he'
    obtain ⟨k, hk, hid⟩ := hs.drawn id e he
    rw [hdraws]
    exact ⟨k, hk.trans hdrawn, hid⟩
  quoteMint := by
    rw [hl.quoteMint, hsettings]
    exact hs.quoteMint
  watched := (hs.watched.of_claims hclaims).congr fun room token => (hl.openOn_iff room token).symm
  seated := seated

/-! ## Calm operations -/

/-- Standings, seats and references stay, and no connection is added. -/
structure Calm (s s' : Service) : Prop where
  settings : s'.settings = s.settings
  draws : s'.draws = s.draws
  drawn : s.drawn ≤ s'.drawn
  lobby : s.lobby.Steady s'.lobby
  seats : ∀ room wallet, s.lobby.Seats room wallet → s'.lobby.Seats room wallet
  hub : s.hub.Thinned s'.hub
  claims : ∀ a, s'.watches.claims a = s.watches.claims a

namespace Calm

variable {s s' s'' : Service}

theorem refl (s : Service) : Calm s s where
  settings := rfl
  draws := rfl
  drawn := Nat.le_refl _
  lobby := .refl _
  seats _ _ h := h
  hub := .refl _
  claims _ := rfl

theorem trans (h : Calm s s') (h' : Calm s' s'') : Calm s s'' where
  settings := h'.settings.trans h.settings
  draws := h'.draws.trans h.draws
  drawn := h.drawn.trans h'.drawn
  lobby := h.lobby.trans h'.lobby
  seats room wallet hs := h'.seats room wallet (h.seats room wallet hs)
  hub := h.hub.trans h'.hub
  claims a := (h'.claims a).trans (h.claims a)

theorem of_aside (h : Aside s s') : Calm s s' where
  settings := h.settings
  draws := h.draws
  drawn := Nat.le_of_eq h.drawn.symm
  lobby := h.lobby ▸ .refl _
  seats _ _ hs := h.lobby ▸ hs
  hub := h.hub ▸ .refl _
  claims _ := by rw [h.watches]

theorem of_hub {hub : Hub} (h : s.hub.Thinned hub) : Calm s { s with hub := hub } :=
  { refl s with hub := h }

theorem of_watches {w : Watches} (h : ∀ a, w.claims a = s.watches.claims a) :
    Calm s { s with watches := w } :=
  { refl s with claims := h }

theorem of_lobby {l : Lobby} (h : s.lobby.Steady l)
    (hseats : ∀ room wallet, s.lobby.Seats room wallet → l.Seats room wallet) :
    Calm s { s with lobby := l } :=
  { refl s with lobby := h, seats := hseats }

theorem sound (h : Calm s s') (hs : s.Sound) : s'.Sound := by
  refine hs.of_steady h.settings h.draws h.drawn h.lobby h.claims (h.hub.coherent hs.hub)
    fun id c' hg => ?_
  obtain ⟨c, hg, hr, hw⟩ := h.hub.live id c' hs.hub hg
  rw [← hr, ← hw]
  exact h.seats _ _ (hs.seated id c hg)

end Calm

theorem calm_announce (s : Service) (room : String) (f : Frame) : Calm s (s.announce room f) :=
  .of_hub (Hub.onward_toRoom (p := fun _ => True) s.lobby s.hub _ room trivial).toThinned

theorem calm_announceUpdate (s : Service) (room : String) : Calm s (s.announceUpdate room) := by
  unfold announceUpdate
  split
  · exact calm_announce s room _
  · exact .refl s

theorem announceUpdate_lobby (s : Service) (room : String) :
    (s.announceUpdate room).lobby = s.lobby := by
  unfold announceUpdate
  split <;> rfl

theorem calm_tell (s : Service) (id : ConnectionId) (f : Frame) : Calm s (s.tell id f) :=
  .of_hub (Hub.onward_send (p := fun _ => True) s.hub id trivial).toThinned

variable {s s' : Service} {room wallet : String}

/-- What joining does: the lobby lets the wallet in, and the room is told. -/
theorem joinRoom_eq {password : Option String} {j : Lobby.Joined}
    (h : s.joinRoom room wallet password = .ok (s', j)) :
    ∃ l s₁, s.lobby.join room wallet s.now = .ok (l, j) ∧ Aside { s with lobby := l } s₁ ∧
      s' = (if j.newly then s₁.announce room (.memberJoined (.of j.member))
        else s₁).announceUpdate room := by
  unfold joinRoom at h
  obtain ⟨e, _, h⟩ := bind_eq_ok_iff.1 h
  obtain ⟨_, _, h⟩ := bind_eq_ok_iff.1 h
  obtain ⟨⟨l, j'⟩, hj, h⟩ := bind_eq_ok_iff.1 h
  obtain ⟨hs', rfl⟩ := Prod.mk.inj (Except.ok.inj h)
  exact ⟨l, _, hj, (aside_saveRoom _ _).trans (aside_saveMember _ _), hs'.symm⟩

theorem calm_joinRoom {password : Option String} {j : Lobby.Joined}
    (h : s.joinRoom room wallet password = .ok (s', j)) :
    s.lobby.join room wallet s.now = .ok (s'.lobby, j) ∧ Calm s s' := by
  obtain ⟨l, s₁, hj, hside, rfl⟩ := joinRoom_eq h
  have hcalm : Calm s s₁ :=
    (Calm.of_lobby (Lobby.steady_join hj) fun _ _ hs => hs.join hj).trans (.of_aside hside)
  split
  · refine ⟨?_, (hcalm.trans (calm_announce ..)).trans (calm_announceUpdate ..)⟩
    rw [announceUpdate_lobby, announce_lobby, hside.lobby]
    exact hj
  · refine ⟨?_, hcalm.trans (calm_announceUpdate ..)⟩
    rw [announceUpdate_lobby, hside.lobby]
    exact hj

/-- What sharing does: it is recorded, the wallet is seen to be active, and the room is told. -/
theorem share_eq {q : ShareRequest} {x : Share} (h : s.share room wallet q = .ok (s', x)) :
    ∃ l, s.lobby.touch room wallet s.now = .ok l ∧
      s' = { s.recordShare x with lobby := l }.announce room (.shared x) := by
  unfold share at h
  obtain ⟨y, _, h⟩ := bind_eq_ok_iff.1 h
  obtain ⟨l, ht, h⟩ := bind_eq_ok_iff.1 h
  obtain ⟨rfl, rfl⟩ := Prod.mk.inj (Except.ok.inj h)
  exact ⟨l, ht, rfl⟩

theorem calm_share {q : ShareRequest} {x : Share} (h : s.share room wallet q = .ok (s', x)) :
    Calm s s' := by
  obtain ⟨l, ht, rfl⟩ := share_eq h
  have hrecord : Calm s (s.recordShare x) := { Calm.refl s with drawn := Nat.le_succ _ }
  have htouch : Calm (s.recordShare x) { s.recordShare x with lobby := l } :=
    .of_lobby (Lobby.steady_touch ht) fun _ _ hs => hs.touch ht
  exact (hrecord.trans htouch).trans (calm_announce ..)

theorem calm_answerPing (s : Service) (id : ConnectionId) (k : Socket) :
    Calm s (s.answerPing id k) := by
  unfold answerPing
  have hping : Calm s { s with hub := s.hub.touch id s.now } :=
    .of_hub (Hub.onward_touch (fun _ => True) s.hub id s.now).toThinned
  dsimp only
  split
  · rename_i l _ ht
    have htouch : Calm s { s with hub := s.hub.touch id s.now, lobby := l } :=
      hping.trans (.of_lobby (Lobby.steady_touch ht) fun _ _ hs => hs.touch ht)
    exact htouch.trans (calm_tell ..)
  · exact hping.trans (calm_tell ..)

/-! ## Trades -/

theorem calm_publishTrade {t : Trade} {trouble : Option Breakdown}
    (h : s.publishTrade room t = (s', trouble)) : Calm s s' := by
  unfold publishTrade at h
  split at h
  · cases h
    exact .refl s
  · rename_i l b hr
    cases h
    exact .of_lobby (Lobby.steady_recordTrade hr) fun _ _ hs => hs.recordTrade hr
  · rename_i l hr
    cases h
    have hcount : Calm s { s with lobby := l } :=
      .of_lobby (Lobby.steady_recordTrade hr) fun _ _ hs => hs.recordTrade hr
    exact hcount.trans (calm_announce ..)

theorem calm_publishAll {t : Trade} {rooms : List String} {trouble : Option Breakdown}
    (h : s.publishAll t rooms = (s', trouble)) : Calm s s' := by
  induction rooms generalizing s with
  | nil =>
    cases h
    exact .refl _
  | cons room rooms ih =>
    unfold publishAll at h
    split at h
    · rename_i s₁ hp
      exact (calm_publishTrade hp).trans (ih h)
    · rename_i s₁ b hp
      cases h
      exact calm_publishTrade hp

theorem calm_processTrade {t : Trade} {r : Except Breakdown Outcome}
    (h : s.processTrade t = (s', r)) : Calm s s' := by
  unfold processTrade at h
  split at h
  · cases h
    exact .of_aside (aside_countOutcome s _)
  · rename_i seen _
    have hseen : Calm s { s with seen := seen } := { Calm.refl s with }
    dsimp only at h
    split at h
    · rename_i s₁ b hp
      cases h
      exact hseen.trans (calm_publishAll hp)
    · rename_i s₁ hp
      cases h
      have hrank : Calm s₁ (s₁.rankTrade t) := { Calm.refl s₁ with }
      exact (hseen.trans (calm_publishAll hp)).trans
        (hrank.trans (.of_aside (aside_countOutcome _ _)))

/-! ## Opening a room -/

theorem refers_watchToken {P : String → String → Prop} (h : s.watches.Refers P) (r : Room) :
    (s.watchToken r).watches.Refers fun r' a => P r' a ∨ (r' = r.id ∧ r.token = some a) := by
  unfold watchToken
  cases ht : r.token with
  | none =>
    refine h.congr fun r' a => ⟨Or.inl, fun hor => hor.resolve_right ?_⟩
    rintro ⟨_, h'⟩
    exact nomatch h'
  | some token =>
    refine (h.acquire token r.id s.elapsedMs).congr fun r' a => or_congr_right ?_
    rw [Option.some.injEq, eq_comm (a := a)]

theorem watchToken_eq (s : Service) (r : Room) :
    ∃ w calls, s.watchToken r = { s with watches := w, calls := calls } := by
  unfold watchToken
  split
  · exact ⟨_, _, rfl⟩
  · exact ⟨s.watches, s.calls, rfl⟩

theorem createRoom_eq {q : RoomRequest} {r : Room} (h : s.createRoom q = .ok (s', r)) :
    ∃ hash l s₁, s.lobby.create s.nextId ⟨q.creator, q.token, q.recycleHours, hash⟩ s.now
        = .ok (l, r) ∧
      Aside { s with lobby := l, drawn := s.drawn + 1 } s₁ ∧ s' = s₁.watchToken r := by
  unfold createRoom at h
  obtain ⟨hash, _, h⟩ := bind_eq_ok_iff.1 h
  obtain ⟨⟨l, r'⟩, hl, h⟩ := bind_eq_ok_iff.1 h
  obtain ⟨hs', rfl⟩ := Prod.mk.inj (Except.ok.inj h)
  refine ⟨hash, l, _, hl, ?_, hs'.symm⟩
  have hsave := aside_saveRoom { s with lobby := l, drawn := s.drawn + 1 } r'
  split
  · exact hsave.trans (aside_saveMembers _ _)
  · exact hsave

theorem sound_createRoom (hs : s.Sound) {q : RoomRequest} {r : Room}
    (h : s.createRoom q = .ok (s', r)) : s'.Sound := by
  obtain ⟨hash, l, s₁, hl, hside, rfl⟩ := createRoom_eq h
  have hnew := hs.get?_nextId
  have hwatched := refers_watchToken (hside.watches ▸ hs.watched) r
  obtain ⟨w, calls, hw⟩ := watchToken_eq s₁ r
  rw [hw] at hwatched ⊢
  constructor
  · show Function.Injective s₁.draws.id
    rw [hside.draws]
    exact hs.fresh
  · show s₁.hub.Coherent
    rw [hside.hub]
    exact hs.hub
  · show s₁.lobby.Sound
    rw [hside.lobby]
    exact Lobby.sound_create hs.lobby hl
  · show ∀ id e, s₁.lobby.get? id = some e → ∃ k ≤ s₁.drawn, id = s₁.draws.id k
    rw [hside.lobby, hside.drawn, hside.draws]
    intro id e he
    by_cases hid : id = s.nextId
    · exact ⟨s.drawn + 1, Nat.le_refl _, hid⟩
    · obtain ⟨k, hk, hid⟩ := hs.drawn id e ((Lobby.get?_create hl id hid).symm.trans he)
      exact ⟨k, Nat.le_succ_of_le hk, hid⟩
  · show s₁.lobby.quoteMint = s₁.settings.ingest.quoteMint
    rw [hside.lobby, hside.settings]
    obtain ⟨_, _, _, rfl⟩ := Lobby.create_eq hl
    exact hs.quoteMint
  · show w.Refers s₁.lobby.OpenOn
    rw [hside.lobby]
    exact hwatched.congr fun r' a => (Lobby.openOn_create hnew hl r' a).symm
  · show ∀ id c, s₁.hub.get? id = some c → s₁.lobby.Seats c.room c.wallet
    rw [hside.hub, hside.lobby]
    exact fun id c hg => Lobby.Seats.create hnew hl (hs.seated id c hg)

/-! ## Closing rooms -/

theorem refers_unwatchToken {P : String → String → Prop} (h : s.watches.Refers P) (r : Room) :
    (s.unwatchToken r).watches.Refers fun r' a => P r' a ∧ ¬ (r' = r.id ∧ r.token = some a) := by
  unfold unwatchToken
  cases ht : r.token with
  | none =>
    refine h.congr fun r' a => ⟨fun hp => ⟨hp, ?_⟩, fun hp => hp.1⟩
    rintro ⟨_, h'⟩
    exact nomatch h'
  | some token =>
    refine (h.release token r.id).congr fun r' a => and_congr_right fun _ => not_congr ?_
    rw [Option.some.injEq, eq_comm (a := a)]

/-- What the end of a room does: it empties the room and gives its reference back. -/
theorem finishRoom_eq (s : Service) (r : Room) :
    ∃ w calls archive, s.finishRoom r = { s with
      hub := (s.hub.closeRoomWith r.id (.roomUpdate (.of r []))).1
      watches := w, calls := calls, archive := archive } ∧
      ∀ P, s.watches.Refers P → w.Refers fun r' a => P r' a ∧ ¬ (r' = r.id ∧ r.token = some a) := by
  have hrefers : ∀ P, s.watches.Refers P → (s.finishRoom r).watches.Refers fun r' a =>
      P r' a ∧ ¬ (r' = r.id ∧ r.token = some a) := fun P h => by
    unfold finishRoom
    exact refers_unwatchToken (s := { s.saveRoom r with
      hub := (s.hub.closeRoomWith r.id (.roomUpdate (.of r []))).1 }) h r
  refine ⟨(s.finishRoom r).watches, (s.finishRoom r).calls, (s.finishRoom r).archive, ?_, hrefers⟩
  unfold finishRoom unwatchToken
  split <;> rfl

/-- What the end of several rooms does. -/
structure Finished (s s' : Service) (closed : List Room) : Prop where
  settings : s'.settings = s.settings
  draws : s'.draws = s.draws
  drawn : s'.drawn = s.drawn
  lobby : s'.lobby = s.lobby
  hub : s.hub.Thinned s'.hub
  /-- Nobody is left in the rooms. -/
  gone : ∀ id c, s.hub.Coherent → s'.hub.get? id = some c → ∀ r ∈ closed, c.room ≠ r.id
  watches : ∀ P, s.watches.Refers P → s'.watches.Refers fun r' a =>
    P r' a ∧ ¬ ∃ r ∈ closed, r' = r.id ∧ r.token = some a

theorem finished_foldl (closed : List Room) (s : Service) :
    Finished s (closed.foldl finishRoom s) closed := by
  induction closed generalizing s with
  | nil =>
    exact {
      settings := rfl, draws := rfl, drawn := rfl, lobby := rfl
      hub := .refl _
      gone := fun _ _ _ _ _ hm => nomatch hm
      watches := fun P h => h.congr fun _ _ => ⟨fun hp => ⟨hp, fun ⟨_, hm, _⟩ => nomatch hm⟩,
        fun hp => hp.1⟩ }
  | cons r closed ih =>
    have hrest := ih (s.finishRoom r)
    obtain ⟨w, calls, archive, hr, hw⟩ := finishRoom_eq s r
    have hthin : s.hub.Thinned (s.hub.closeRoomWith r.id (.roomUpdate (.of r []))).1 :=
      (Hub.onward_closeRoomWith (p := fun _ => True) s.hub r.id trivial).toThinned
    -- A connection that is left at the end was left after the first room was ended.
    rw [List.foldl_cons]
    rw [hr] at hrest ⊢
    constructor
    · exact hrest.settings
    · exact hrest.draws
    · exact hrest.drawn
    · exact hrest.lobby
    · exact hthin.trans hrest.hub
    · intro id c' hc hg r' hm
      rcases List.mem_cons.1 hm with rfl | hm
      · obtain ⟨c, hg', hroom, _⟩ := hrest.hub.live id c' (hthin.coherent hc) hg
        rw [← hroom]
        exact Hub.room_ne_of_closeRoomWith hc hg'
      · exact hrest.gone id c' (hthin.coherent hc) hg r' hm
    · intro P hP
      refine (hrest.watches _ (hw P hP)).congr fun r' a => ?_
      simp only [List.mem_cons, exists_eq_or_imp, not_or]
      exact and_assoc

/-- Rooms are closed in the lobby and then brought to their end. -/
theorem sound_finish (hs : s.Sound) {l : Lobby} {closed : List Room}
    (hf : Finished { s with lobby := l } s' closed) (hl : l.Sound)
    (hkeys : ∀ id e', l.get? id = some e' → ∃ e, s.lobby.get? id = some e)
    (hmint : l.quoteMint = s.lobby.quoteMint)
    (hopen : ∀ r a, l.OpenOn r a ↔
      s.lobby.OpenOn r a ∧ ¬ ∃ room ∈ closed, r = room.id ∧ room.token = some a)
    (hseats : ∀ r v, s.lobby.Seats r v → (∀ room ∈ closed, r ≠ room.id) → l.Seats r v) :
    s'.Sound where
  fresh := by rw [hf.draws]; exact hs.fresh
  hub := hf.hub.coherent hs.hub
  lobby := by rw [hf.lobby]; exact hl
  drawn id e' he' := by
    rw [hf.lobby] at he'
    obtain ⟨e, he⟩ := hkeys id e' he'
    rw [hf.drawn, hf.draws]
    exact hs.drawn id e he
  quoteMint := by rw [hf.lobby, hf.settings]; exact hmint.trans hs.quoteMint
  watched := by
    rw [hf.lobby]
    exact (hf.watches _ hs.watched).congr fun r a => (hopen r a).symm
  seated id c' hg := by
    obtain ⟨c, hg', hr, hw⟩ := hf.hub.live id c' hs.hub hg
    have hseat := hs.seated id c hg'
    rw [hr, hw] at hseat
    rw [hf.lobby]
    exact hseats _ _ hseat (hf.gone id c' hs.hub hg)

theorem closeRoom_eq {requester : String} {r : Room}
    (h : s.closeRoom room requester = .ok (s', r)) :
    ∃ l, s.lobby.close room requester s.now = .ok (l, r) ∧
      s' = { s with lobby := l }.finishRoom r := by
  unfold closeRoom at h
  obtain ⟨⟨l, r'⟩, hc, h⟩ := bind_eq_ok_iff.1 h
  obtain ⟨rfl, rfl⟩ := Prod.mk.inj (Except.ok.inj h)
  exact ⟨l, hc, rfl⟩

theorem sound_closeRoom (hs : s.Sound) {requester : String} {r : Room}
    (h : s.closeRoom room requester = .ok (s', r)) : s'.Sound := by
  obtain ⟨l, hc, rfl⟩ := closeRoom_eq h
  refine sound_finish hs (finished_foldl [r] { s with lobby := l })
    (Lobby.sound_close hs.lobby hc) ?_ ?_ (fun r' a => ?_) fun r' v hseat hne => ?_
  · obtain ⟨e, he, _, _, rfl, _⟩ := Lobby.close_eq hc
    intro id e' he'
    rw [Lobby.get?_update] at he'
    split at he'
    · rename_i hid
      exact ⟨e, hid ▸ he⟩
    · exact ⟨e', he'⟩
  · obtain ⟨_, _, _, _, rfl, _⟩ := Lobby.close_eq hc
    rfl
  · rw [Lobby.openOn_close hs.lobby hc]
    simp
  · refine hseat.close hc ?_
    rw [← Lobby.close_id hs.lobby hc]
    exact hne r List.mem_cons_self

theorem sound_reapRoomsAt (hs : s.Sound) {at_ : Instant} {n : Nat}
    (h : s.reapRoomsAt at_ = (s', .ok n)) : s'.Sound := by
  unfold reapRoomsAt at h
  split at h
  · cases h
  · rename_i l closed hr
    cases h
    have hfinished := finished_foldl closed { s with lobby := l }
    refine (Calm.of_aside (aside_count _ _ _ _)).sound (sound_finish hs hfinished
      (Lobby.sound_reap hs.lobby hr) ?_ (Lobby.reap_eq hr).2.2 (Lobby.openOn_reap hs.lobby hr)
      fun r v hseat hne => hseat.reap hs.lobby hr hne)
    intro id e' he'
    obtain ⟨e, he, _⟩ := Lobby.get?_reap hr he'
    exact ⟨e, he⟩

/-! ## Leaving -/

/-- What leaving does: nothing but in the lobby if nobody was let go; else the connections of the
wallet are ended first, and the room is told. -/
theorem leaveRoom_eq {left : Option Member} (h : s.leaveRoom room wallet = .ok (s', left)) :
    ∃ l, s.lobby.leave room wallet s.now = .ok (l, left) ∧
      match left with
      | none => s' = { s with lobby := l }
      | some m => s' = (({ s.saveMember m with
          lobby := l, hub := (s.hub.closeWallet room wallet).1 }.announce room
            (.memberLeft (.of m))).announceUpdate room) := by
  unfold leaveRoom at h
  obtain ⟨⟨l, left'⟩, hl, h⟩ := bind_eq_ok_iff.1 h
  cases left' with
  | none =>
    obtain ⟨rfl, rfl⟩ := Prod.mk.inj (Except.ok.inj h)
    exact ⟨l, hl, rfl⟩
  | some m =>
    obtain ⟨rfl, rfl⟩ := Prod.mk.inj (Except.ok.inj h)
    exact ⟨l, hl, rfl⟩

theorem sound_leaveRoom (hs : s.Sound) {left : Option Member}
    (h : s.leaveRoom room wallet = .ok (s', left)) : s'.Sound := by
  obtain ⟨l, hl, heq⟩ := leaveRoom_eq h
  have hsteady := Lobby.steady_leave hl
  cases left with
  | none =>
    dsimp only at heq
    rw [heq]
    exact (Calm.of_lobby hsteady fun _ _ hseat => hseat.leave_none hl).sound hs
  | some m =>
    dsimp only at heq
    rw [heq]
    have hthin := (Hub.onward_closeWallet (fun _ => True) s.hub room wallet).toThinned
    refine ((calm_announce ..).trans (calm_announceUpdate ..)).sound ?_
    -- Only seats of the wallet itself are lost, and none of its connections is left.
    refine hs.of_steady rfl rfl (Nat.le_refl _) hsteady (fun _ => rfl) (hthin.coherent hs.hub)
      fun id c' hg => ?_
    obtain ⟨c, hg', hr, hw⟩ := hthin.live id c' hs.hub hg
    have hseat := hs.seated id c hg'
    rw [hr, hw] at hseat
    exact hseat.leave hl (Hub.not_seated_of_closeWallet hs.hub hg)

/-! ## Opening a socket -/

/-- A wallet that is let into a room comes without surrounding blanks. -/
theorem admitSocket_eq {password : Option String} {k : Socket}
    (h : s.admitSocket room wallet password = .ok k) : k = ⟨room, Text.trim wallet⟩ := by
  unfold admitSocket at h
  dsimp only at h
  split at h
  · cases h
  · obtain ⟨e, _, h⟩ := bind_eq_ok_iff.1 h
    obtain ⟨_, _, h⟩ := bind_eq_ok_iff.1 h
    exact (Except.ok.inj h).symm

/-- The service with a new connection that has not joined its room yet. -/
def withConnection (s : Service) (room wallet : String) : Service :=
  { s with
    hub := (s.hub.register room wallet s.settings.sockets.outboundBuffer s.now).1
    sockets := s.sockets.insert (s.hub.lastId + 1) ⟨room, wallet⟩
    metrics := s.metrics.add ⟨socketGauge, []⟩ 1 }

theorem openSocket_of_error {password : Option String} {f : Failure}
    (h : (s.withConnection room wallet).joinRoom room wallet password = .error f) :
    (s.openSocket room wallet password).1 =
      let told := (s.withConnection room wallet).tell (s.hub.lastId + 1) (.ofFailure f)
      { told with hub := (told.hub.closeConnection (s.hub.lastId + 1)).1 } := by
  unfold openSocket
  dsimp only
  split
  · rename_i hj
    exact nomatch hj.symm.trans h
  · rename_i hj
    cases hj.symm.trans h
    rfl

theorem openSocket_of_ok {password : Option String} {j : Lobby.Joined}
    (h : (s.withConnection room wallet).joinRoom room wallet password = .ok (s', j)) :
    s.openSocket room wallet password = (s', s.hub.lastId + 1) := by
  unfold openSocket
  dsimp only
  split
  · rename_i hj
    cases hj.symm.trans h
    rfl
  · rename_i hj
    exact nomatch hj.symm.trans h

theorem openSocket_eq (s : Service) (room wallet : String) (password : Option String) :
    (∃ j, (s.withConnection room wallet).joinRoom room wallet password
      = .ok ((s.openSocket room wallet password).1, j)) ∨
    ∃ f, (s.openSocket room wallet password).1 =
      let told := (s.withConnection room wallet).tell (s.hub.lastId + 1) (.ofFailure f)
      { told with hub := (told.hub.closeConnection (s.hub.lastId + 1)).1 } := by
  cases hj : (s.withConnection room wallet).joinRoom room wallet password with
  | ok r => exact Or.inl ⟨r.2, by rw [openSocket_of_ok hj]⟩
  | error f => exact Or.inr ⟨f, openSocket_of_error hj⟩

/-- Who is connected after the registration was so before, or is the new connection. -/
theorem get?_withConnection {id : ConnectionId} {c : Connection}
    (hg : (s.withConnection room wallet).hub.get? id = some c) :
    s.hub.get? id = some c ∨ (id = s.hub.lastId + 1 ∧ c.room = room ∧ c.wallet = wallet) := by
  unfold withConnection at hg
  rw [Hub.get?_register] at hg
  split at hg
  · rename_i hid
    cases hg
    exact Or.inr ⟨hid, rfl, rfl⟩
  · exact Or.inl hg

/-- A calm operation after a registration must find a seat for the new connection, or end it. -/
theorem Sound.of_withConnection (hs : s.Sound) (h : Calm (s.withConnection room wallet) s')
    (hnew : ∀ c, s'.hub.get? (s.hub.lastId + 1) = some c → s'.lobby.Seats room wallet) :
    s'.Sound := by
  have hreg : (s.withConnection room wallet).hub.Coherent := hs.hub.register ..
  refine hs.of_steady h.settings h.draws h.drawn h.lobby h.claims (h.hub.coherent hreg)
    fun id c' hg => ?_
  obtain ⟨c, hg', hr, hw⟩ := h.hub.live id c' hreg hg
  rw [← hr, ← hw]
  rcases get?_withConnection hg' with hold | ⟨rfl, hroom, hwallet⟩
  · exact h.seats _ _ (hs.seated id c hold)
  · rw [hroom, hwallet]
    exact hnew c' hg

theorem sound_openSocket (hs : s.Sound) (hw : Text.trim wallet = wallet)
    (password : Option String) : (s.openSocket room wallet password).1.Sound := by
  rcases openSocket_eq s room wallet password with ⟨j, hj⟩ | ⟨f, hf⟩
  · obtain ⟨hl, hcalm⟩ := calm_joinRoom hj
    refine hs.of_withConnection hcalm fun _ _ => ?_
    have hseat := Lobby.seats_join hs.lobby hl
    rwa [hw] at hseat
  · rw [hf]
    have htell := calm_tell (s.withConnection room wallet) (s.hub.lastId + 1) (.ofFailure f)
    refine hs.of_withConnection (htell.trans (.of_hub
      (Hub.onward_closeConnection (fun _ => True) _ _).toThinned)) fun c hg => ?_
    -- A connection that was not let in is gone.
    dsimp only at hg
    rw [Hub.get?_closeConnection, if_pos rfl] at hg
    cases hg

/-! ## Steps -/

theorem exists_of_map_fst {α : Type} {r : Except Failure (Service × α)}
    (h : r.map Prod.fst = .ok s') : ∃ a, r = .ok (s', a) := by
  cases r with
  | error f => exact nomatch h
  | ok p =>
    cases h
    exact ⟨p.2, rfl⟩

theorem sound_fulfil (hs : s.Sound) {id : ConnectionId} {k : Socket} {q : Request}
    (h : s.fulfil id k q = .ok s') : s'.Sound := by
  cases q with
  | join password =>
    obtain ⟨j, hj⟩ := exists_of_map_fst h
    exact (calm_joinRoom hj).2.sound hs
  | leave =>
    obtain ⟨left, hl⟩ := exists_of_map_fst h
    exact sound_leaveRoom hs hl
  | share url infoType metadata =>
    obtain ⟨x, hx⟩ := exists_of_map_fst h
    exact (calm_share hx).sound hs
  | ping =>
    cases h
    exact (calm_answerPing s id k).sound hs

theorem sound_receive (hs : s.Sound) (id : ConnectionId) (m : Incoming) :
    (s.receive id m).Sound := by
  unfold receive
  split
  · exact hs
  · rename_i k _
    cases m with
    | text t =>
      show (s.receiveText id k t).Sound
      unfold receiveText
      split
      · exact (calm_tell ..).sound hs
      · split
        · rename_i hf
          exact sound_fulfil hs hf
        · exact (calm_tell ..).sound hs
    | binary => exact (calm_tell ..).sound hs
    | ping => exact (Calm.of_hub (Hub.onward_touch (fun _ => True) _ _ _).toThinned).sound hs
    | close => exact (Calm.of_hub (Hub.onward_unregister (fun _ => True) _ _).toThinned).sound hs

theorem calm_endSocket (s : Service) (id : ConnectionId) : Calm s (s.endSocket id) :=
  { Calm.refl s with hub := (Hub.onward_unregister (fun _ => True) s.hub id).toThinned }

theorem calm_flushSocket (s : Service) (id : ConnectionId) : Calm s (s.flushSocket id).1 := by
  unfold flushSocket
  split
  · exact .refl s
  · have hdrain : Calm s { s with hub := s.hub.onOutbox id .drain } :=
      .of_hub (Hub.thinned_onOutbox ..)
    dsimp only
    split
    · exact hdrain.trans (calm_endSocket ..)
    · exact hdrain

theorem flushSocket_lobby (s : Service) (id : ConnectionId) :
    (s.flushSocket id).1.lobby = s.lobby := by
  unfold flushSocket
  split
  · rfl
  · dsimp only
    split <;> rfl

theorem sound_errand (hs : s.Sound) (h : Errand s s') : s'.Sound := by
  cases h with
  | create h => exact sound_createRoom hs h
  | join h => exact (calm_joinRoom h).2.sound hs
  | leave h => exact sound_leaveRoom hs h
  | close h => exact sound_closeRoom hs h
  | share h => exact (calm_share h).sound hs
  | reap h => exact sound_reapRoomsAt hs h
  | connect h =>
    refine sound_openSocket hs ?_ _
    rw [admitSocket_eq h]
    exact Text.trim_trim _
  | receive id m => exact sound_receive hs id m
  | flush id => exact (calm_flushSocket s id).sound hs
  | send id n => exact (Calm.of_hub (Hub.thinned_onOutbox ..)).sound hs
  | abandon id => exact (Calm.of_hub (Hub.thinned_onOutbox ..)).sound hs
  | disconnect id => exact (calm_endSocket s id).sound hs
  | prune maxIdleMs at_ =>
    exact (Calm.of_hub (Hub.onward_prune (fun _ => True) ..).toThinned).sound hs
  | complete address epoch result at_ =>
    exact (Calm.of_watches fun _ => Watches.claims_complete ..).sound hs
  | retry =>
    exact Calm.sound { Calm.refl s with claims := Watches.claims_retryDue s.watches _ } hs
  | resubscribe =>
    exact Calm.sound { Calm.refl s with claims := Watches.claims_resubscribeAll s.watches _ } hs
  | sweep => exact Calm.sound { Calm.refl s with } hs
  | rank => exact Calm.sound { Calm.refl s with } hs
  | advance => exact Calm.sound { Calm.refl s with } hs
  | setClock => exact Calm.sound { Calm.refl s with } hs
  | aside h => exact (Calm.of_aside h).sound hs

theorem sound_step (hs : s.Sound) (h : Step s s') : s'.Sound := by
  cases h with
  | errand h => exact sound_errand hs h
  | publish h => exact (calm_publishTrade h).sound hs
  | process h => exact (calm_processTrade h).sound hs

theorem sound_run (hs : s.Sound) (h : Run s s') : s'.Sound := by
  induction h with
  | refl => exact hs
  | tail _ hstep ih => exact sound_step ih hstep

end SwapFloor.Service
