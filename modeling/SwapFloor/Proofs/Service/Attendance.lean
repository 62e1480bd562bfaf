import SwapFloor.Proofs.Fanout.Hearing
import SwapFloor.Proofs.Room.Presence
import SwapFloor.Proofs.Service.Managed

/-!
# Who is told who is there

Whoever is connected to a room hears of every change of its attendance: that a member has come or
left, and then who is there. The update is made after the change, so that it shows the room as it
stands (`Shows`). All other operations are `Uneventful`: they leave attendance as it is, and nobody
hears of any.

Main statements: what joining, leaving and the end of rooms tell, and which operations are
uneventful.
-/

namespace SwapFloor

/-- The update shows an open room with exactly those who are there. -/
structure Frame.RoomUpdate.Shows (u : RoomUpdate) (l : Lobby) (room : String) : Prop where
  own : u.room = room
  isOpen : u.status = .open
  distinct : u.active.Nodup
  active : ∀ wallet, wallet ∈ u.active ↔ l.isActive room wallet = true

theorem Lobby.WellFormed.leads {p : Lobby.Act → Prop} {l l' : Lobby} (hw : l.WellFormed)
    (h : l.Leads p l') : l'.WellFormed := by
  obtain ⟨as, rfl, _⟩ := h
  exact hw.run as

namespace Service

variable {s s' s'' : Service} {room wallet : String}

/-! ## Carrying on -/

/-- Ids are drawn one after the other from the same draws, and connections stay in order. -/
structure Carries (s s' : Service) : Prop where
  draws : s'.draws = s.draws
  drawn : s.drawn ≤ s'.drawn
  hub : s.hub.Coherent → s'.hub.Coherent

namespace Carries

theorem refl (s : Service) : Carries s s := ⟨rfl, Nat.le_refl _, id⟩

theorem trans (h : Carries s s') (h' : Carries s' s'') : Carries s s'' :=
  ⟨h'.draws.trans h.draws, h.drawn.trans h'.drawn, fun hc => h'.hub (h.hub hc)⟩

theorem of_calm (h : Calm s s') : Carries s s' := ⟨h.draws, h.drawn, h.hub.coherent⟩

theorem of_lobby (s : Service) (l : Lobby) : Carries s { s with lobby := l } :=
  ⟨rfl, Nat.le_refl _, id⟩

end Carries

theorem carries_leaveRoom {left : Option Member}
    (h : s.leaveRoom room wallet = .ok (s', left)) : Carries s s' := by
  obtain ⟨l, _, heq⟩ := leaveRoom_eq h
  cases left with
  | none =>
    dsimp only at heq
    rw [heq]
    exact .of_lobby s l
  | some m =>
    dsimp only at heq
    rw [heq]
    have hclosed : Carries s { s.saveMember m with
        lobby := l, hub := (s.hub.closeWallet room wallet).1 } :=
      ⟨rfl, Nat.le_refl _, (Hub.onward_closeWallet (fun _ => True) s.hub room wallet).coherent⟩
    exact hclosed.trans (.of_calm ((calm_announce ..).trans (calm_announceUpdate ..)))

theorem carries_finishRooms (closed : List Room) (s : Service) :
    Carries s (closed.foldl finishRoom s) :=
  ⟨(finished_foldl closed s).draws, (finished_foldl closed s).drawn.ge,
    (finished_foldl closed s).hub.coherent⟩

theorem carries_closeRoom {requester : String} {r : Room}
    (h : s.closeRoom room requester = .ok (s', r)) : Carries s s' := by
  obtain ⟨l, _, rfl⟩ := closeRoom_eq h
  exact (Carries.of_lobby s l).trans (carries_finishRooms [r] _)

/-- Recycling carries on, also if it breaks down. -/
theorem carries_reapRoomsAt (s : Service) (at_ : Instant) :
    Carries s (s.reapRoomsAt at_).1 := by
  unfold reapRoomsAt
  split
  · exact .of_lobby s _
  · rename_i l closed _
    exact (Carries.of_lobby s l).trans
      ((carries_finishRooms closed _).trans (.of_calm (.of_aside (aside_count ..))))

/-! ## Uneventful operations -/

/-- Attendance is as it was, and nobody hears of any. -/
structure Uneventful (s s' : Service) : Prop extends Calm s s' where
  silent : s.hub.Silent s'.hub
  active : ∀ r v, s'.lobby.isActive r v = s.lobby.isActive r v
  tended : s.lobby.Tended s'.lobby

namespace Uneventful

theorem refl (s : Service) : Uneventful s s := ⟨.refl s, Hub.silent_refl _, fun _ _ => rfl, .refl _⟩

theorem trans (h : Uneventful s s') (h' : Uneventful s' s'') : Uneventful s s'' where
  toCalm := h.toCalm.trans h'.toCalm
  silent := h.silent.trans_silent h'.silent
  active r v := (h'.active r v).trans (h.active r v)
  tended := h.tended.trans h'.tended

theorem well (h : Uneventful s s') (hw : s.lobby.WellFormed) : s'.lobby.WellFormed :=
  hw.leads h.tended

theorem of_aside (h : Aside s s') : Uneventful s s' where
  toCalm := .of_aside h
  silent := h.hub ▸ Hub.silent_refl _
  active _ _ := by rw [h.lobby]
  tended := .of_eq h.lobby

/-- An operation that changes neither the lobby nor the hub. -/
theorem of_calm (h : Calm s s') (hl : s'.lobby = s.lobby) (hhub : s'.hub = s.hub) :
    Uneventful s s' :=
  ⟨h, hhub ▸ Hub.silent_refl _, fun _ _ => by rw [hl], .of_eq hl⟩

theorem of_hub {hub : Hub} (ht : s.hub.Thinned hub) (h : s.hub.Silent hub) :
    Uneventful s { s with hub := hub } :=
  ⟨.of_hub ht, h, fun _ _ => rfl, .refl _⟩

theorem touch {l : Lobby} {now : Instant} (h : s.lobby.touch room wallet now = .ok l) :
    Uneventful s { s with lobby := l } :=
  ⟨.of_lobby (Lobby.steady_touch h) fun _ _ hs => hs.touch h, Hub.silent_refl _,
    Lobby.isActive_of_touch h, .of_touch rfl h⟩

theorem recordTrade {l : Lobby} {t : Trade} {trouble : Option Breakdown}
    (h : s.lobby.recordTrade room t = .ok (l, trouble)) : Uneventful s { s with lobby := l } :=
  ⟨.of_lobby (Lobby.steady_recordTrade h) fun _ _ hs => hs.recordTrade h, Hub.silent_refl _,
    Lobby.isActive_of_recordTrade h, .of_ok (a := .recordTrade room t) rfl rfl h⟩

end Uneventful

theorem uneventful_announce (s : Service) (room : String) {f : Frame} (hf : f.isRoll = false) :
    Uneventful s (s.announce room f) :=
  ⟨calm_announce s room f, Hub.silent_toRoom s.lobby s.hub _ room hf, fun _ _ => rfl, .refl _⟩

theorem uneventful_tell (s : Service) (id : ConnectionId) {f : Frame} (hf : f.isRoll = false) :
    Uneventful s (s.tell id f) :=
  ⟨calm_tell s id f, Hub.silent_send s.hub id hf, fun _ _ => rfl, .refl _⟩

theorem uneventful_share {q : ShareRequest} {x : Share} (h : s.share room wallet q = .ok (s', x)) :
    Uneventful s s' := by
  obtain ⟨l, ht, rfl⟩ := share_eq h
  have hrecord : Uneventful s (s.recordShare x) :=
    .of_calm { Calm.refl s with drawn := Nat.le_succ _ } rfl rfl
  exact (hrecord.trans (.touch (s := s.recordShare x) ht)).trans (uneventful_announce _ room rfl)

theorem uneventful_answerPing (s : Service) (id : ConnectionId) (k : Socket) :
    Uneventful s (s.answerPing id k) := by
  unfold answerPing
  have hping : Uneventful s { s with hub := s.hub.touch id s.now } :=
    .of_hub (Hub.onward_touch (fun _ => True) s.hub id s.now).toThinned
      (Hub.silent_touch s.hub id s.now)
  dsimp only
  split
  · rename_i l _ ht
    have htouch : Uneventful s { s with hub := s.hub.touch id s.now, lobby := l } :=
      hping.trans (.touch (s := { s with hub := s.hub.touch id s.now }) ht)
    exact htouch.trans (uneventful_tell _ id rfl)
  · exact hping.trans (uneventful_tell _ id rfl)

theorem uneventful_publishTrade {t : Trade} {trouble : Option Breakdown}
    (h : s.publishTrade room t = (s', trouble)) : Uneventful s s' := by
  unfold publishTrade at h
  split at h
  · cases h
    exact .refl s
  · rename_i l b hr
    cases h
    exact .recordTrade hr
  · rename_i l hr
    cases h
    exact (Uneventful.recordTrade hr).trans (uneventful_announce _ room rfl)

theorem uneventful_publishAll {t : Trade} {rooms : List String} {trouble : Option Breakdown}
    (h : s.publishAll t rooms = (s', trouble)) : Uneventful s s' := by
  induction rooms generalizing s with
  | nil =>
    cases h
    exact .refl _
  | cons room rooms ih =>
    unfold publishAll at h
    split at h
    · rename_i s₁ hp
      exact (uneventful_publishTrade hp).trans (ih h)
    · rename_i s₁ b hp
      cases h
      exact uneventful_publishTrade hp

theorem uneventful_processTrade {t : Trade} {r : Except Breakdown Outcome}
    (h : s.processTrade t = (s', r)) : Uneventful s s' := by
  unfold processTrade at h
  split at h
  · cases h
    exact .of_aside (aside_countOutcome s _)
  · rename_i seen _
    have hseen : Uneventful s { s with seen := seen } := .of_calm { Calm.refl s with } rfl rfl
    dsimp only at h
    split at h
    · rename_i s₁ b hp
      cases h
      exact hseen.trans (uneventful_publishAll hp)
    · rename_i s₁ hp
      cases h
      have hrank : Uneventful s₁ (s₁.rankTrade t) := .of_calm { Calm.refl s₁ with } rfl rfl
      exact (hseen.trans (uneventful_publishAll hp)).trans
        (hrank.trans (.of_aside (aside_countOutcome _ _)))

theorem uneventful_endSocket (s : Service) (id : ConnectionId) :
    Uneventful s (s.endSocket id) :=
  ⟨calm_endSocket s id, Hub.silent_unregister s.hub id, fun _ _ => rfl, .refl _⟩

theorem wellFormed_step (hw : s.lobby.WellFormed) (h : Step s s') : s'.lobby.WellFormed := by
  cases h with
  | errand h => exact hw.leads (managed_errand h)
  | publish h => exact (uneventful_publishTrade h).well hw
  | process h => exact (uneventful_processTrade h).well hw

/-! ## Joining -/

theorem tells_announceUpdate (hw : s.lobby.WellFormed) (ho : s.lobby.IsOpen room) :
    ∃ u : Frame.RoomUpdate, u.Shows s.lobby room ∧
      s.hub.Tells (s.announceUpdate room).hub (Hub.only room [.roomUpdate u]) := by
  obtain ⟨e, he, hopen⟩ := ho
  have hwell := hw room e he
  have hview : s.lobby.view room = .ok ⟨e.room, e.activeMembers, e.stats⟩ := by
    unfold Lobby.view
    rw [Lobby.entry_eq_ok_iff.2 he]
    rfl
  have hentry : s.lobby.openEntry room = .ok e :=
    Lobby.openEntry_eq_ok_iff.2 ⟨he, fun hc => nomatch hc.symm.trans hopen⟩
  have hshows : (Frame.RoomUpdate.of e.room (e.activeMembers.map (·.wallet))).active
      = e.activeMembers.map (·.wallet) := rfl
  refine ⟨.of e.room (e.activeMembers.map (·.wallet)), ⟨hwell.own, hopen,
    hshows ▸ hwell.nodup_activeWallets, fun v => ?_⟩, ?_⟩
  · rw [Lobby.isActive_of_get? he]
    exact hwell.mem_activeWallets
  · unfold announceUpdate
    rw [hview]
    exact Hub.tells_toRoom hentry s.hub _ _

/-- A join is told to the room if the wallet was away, and then who is there. -/
theorem tells_joinRoom (hw : s.lobby.WellFormed) {password : Option String} {j : Lobby.Joined}
    (h : s.joinRoom room wallet password = .ok (s', j)) :
    ∃ u : Frame.RoomUpdate, u.Shows s'.lobby room ∧ s.hub.Tells s'.hub
      (Hub.only room ((if j.newly then [.memberJoined (.of j.member)] else []) ++
        [.roomUpdate u])) := by
  have htended : s.lobby.Tended s'.lobby := leads_joinRoom rfl h
  have hw' := hw.leads htended
  obtain ⟨l, s₁, hj, hside, rfl⟩ := joinRoom_eq h
  obtain ⟨_, e, he, rfl, _⟩ := Lobby.join_eq hj
  obtain ⟨he, hopen⟩ := Lobby.openEntry_eq_ok_iff.1 he
  -- The room is open, with the lobby as it is after the join.
  have hstill : s₁.lobby.IsOpen room := by
    rw [hside.lobby]
    exact ((Lobby.steady_join hj).isOpen_iff room).2
      ⟨e, he, (hw room e he).room.stage.resolve_right hopen⟩
  have hhub : s₁.hub = s.hub := hside.hub
  rw [← hhub]
  split
  · rename_i hnewly
    rw [if_pos hnewly] at hw'
    rw [announceUpdate_lobby, announce_lobby] at hw' ⊢
    obtain ⟨u, hu, htells⟩ :=
      tells_announceUpdate (s := s₁.announce room (.memberJoined (.of j.member))) hw' hstill
    obtain ⟨e₁, he₁, hopen₁⟩ := hstill
    have hentry : s₁.lobby.openEntry room = .ok e₁ :=
      Lobby.openEntry_eq_ok_iff.2 ⟨he₁, fun hc => nomatch hc.symm.trans hopen₁⟩
    exact ⟨u, hu, (Hub.tells_toRoom hentry s₁.hub _ _).only_trans htells⟩
  · rename_i hnewly
    rw [if_neg hnewly] at hw'
    rw [announceUpdate_lobby] at hw' ⊢
    exact tells_announceUpdate hw' hstill

/-! ## Leaving -/

theorem leave_of_leaveRoom {left : Option Member} (h : s.leaveRoom room wallet = .ok (s', left)) :
    s.lobby.leave room wallet s.now = .ok (s'.lobby, left) := by
  obtain ⟨l, hl, heq⟩ := leaveRoom_eq h
  cases left with
  | none =>
    dsimp only at heq
    rw [heq]
    exact hl
  | some m =>
    dsimp only at heq
    rw [heq, announceUpdate_lobby, announce_lobby]
    exact hl

/-- A leave by a wallet that was not there changes nothing. -/
theorem uneventful_leaveRoom (h : s.leaveRoom room wallet = .ok (s', none)) :
    Uneventful s s' := by
  have htended : s.lobby.Tended s'.lobby := leads_leaveRoom rfl h
  obtain ⟨l, hl, heq⟩ := leaveRoom_eq h
  dsimp only at heq
  rw [heq] at htended ⊢
  refine ⟨.of_lobby (Lobby.steady_leave hl) fun _ _ hseat => hseat.leave_none hl,
    Hub.silent_refl _, ?_, htended⟩
  obtain ⟨e, he, rfl, hleft⟩ := Lobby.leave_eq hl
  exact Lobby.isActive_update_same he fun v => by rw [Lobby.Entry.leave_eq_of_none hleft.symm]

/-- A leave is told to the room, and then who is there. -/
theorem tells_leaveRoom (hw : s.lobby.WellFormed) {m : Member}
    (h : s.leaveRoom room wallet = .ok (s', some m)) :
    ∃ u : Frame.RoomUpdate, u.Shows s'.lobby room ∧
      s.hub.Tells s'.hub (Hub.only room [.memberLeft (.of m), .roomUpdate u]) := by
  have hl' := leave_of_leaveRoom h
  have htended : s.lobby.Tended s'.lobby := leads_leaveRoom rfl h
  have hw' := hw.leads htended
  obtain ⟨l, hl, heq⟩ := leaveRoom_eq h
  dsimp only at heq
  -- Only who was there could be let go, and nobody is in a room that is not open.
  have hstill : l.IsOpen room := by
    refine ((Lobby.steady_leave hl).isOpen_iff room).2 (hw.isOpen_of_isActive (v := wallet) ?_)
    exact (Lobby.leave_reports hw hl).1.symm
  generalize hs₁ : ({ s.saveMember m with
    lobby := l, hub := (s.hub.closeWallet room wallet).1 } : Service) = s₁ at heq
  have hlobby : s₁.lobby = l := by rw [← hs₁]
  have hhub : s₁.hub = (s.hub.closeWallet room wallet).1 := by rw [← hs₁]
  rw [heq, announceUpdate_lobby, announce_lobby, hlobby] at hw'
  rw [← hlobby] at hstill hw'
  obtain ⟨u, hu, htells⟩ :=
    tells_announceUpdate (s := s₁.announce room (.memberLeft (.of m))) hw' hstill
  obtain ⟨e₁, he₁, hopen₁⟩ := hstill
  have hentry : s₁.lobby.openEntry room = .ok e₁ :=
    Lobby.openEntry_eq_ok_iff.2 ⟨he₁, fun hc => nomatch hc.symm.trans hopen₁⟩
  have hclosed : s.hub.Silent s₁.hub := by
    rw [hhub]
    exact Hub.silent_closeWallet s.hub room wallet
  refine ⟨u, ?_, ?_⟩
  · rw [heq, announceUpdate_lobby]
    exact hu
  · rw [heq]
    exact hclosed.silent_trans ((Hub.tells_toRoom hentry s₁.hub _ _).only_trans htells)

/-! ## What comes in over a socket -/

/-- What comes in over a socket changes attendance only by a join or by a leave that lets a member
go. -/
theorem receive_cases (s : Service) (id : ConnectionId) (m : Incoming) :
    Uneventful s (s.receive id m) ∨
    (∃ k : Socket, ∃ text password j, s.sockets.get? id = some k ∧ m = .text text ∧
      Request.ofText text = .ok (.join password) ∧
      s.joinRoom k.room k.wallet password = .ok (s.receive id m, j)) ∨
    ∃ k : Socket, ∃ left, s.leaveRoom k.room k.wallet = .ok (s.receive id m, some left) := by
  unfold receive
  split
  · exact Or.inl (.refl s)
  · rename_i k hk
    cases m with
    | text t =>
      dsimp only
      unfold receiveText
      split
      · rename_i f _
        exact Or.inl (uneventful_tell s id (f := f.frame) rfl)
      · rename_i q hq
        split
        · rename_i s' hf
          cases q with
          | join password =>
            obtain ⟨j, hj⟩ := exists_of_map_fst hf
            exact Or.inr (Or.inl ⟨k, t, password, j, hk, rfl, hq, hj⟩)
          | leave =>
            obtain ⟨left, hl⟩ := exists_of_map_fst hf
            cases left with
            | none => exact Or.inl (uneventful_leaveRoom hl)
            | some m => exact Or.inr (Or.inr ⟨k, m, hl⟩)
          | share url infoType metadata =>
            obtain ⟨x, hx⟩ := exists_of_map_fst hf
            exact Or.inl (uneventful_share hx)
          | ping =>
            cases hf
            exact Or.inl (uneventful_answerPing s id k)
        · exact Or.inl (uneventful_tell s id rfl)
    | binary => exact Or.inl (uneventful_tell s id rfl)
    | ping =>
      exact Or.inl (.of_hub (Hub.onward_touch (fun _ => True) s.hub id s.now).toThinned
        (Hub.silent_touch s.hub id s.now))
    | close =>
      exact Or.inl (.of_hub (Hub.onward_unregister (fun _ => True) s.hub id).toThinned
        (Hub.silent_unregister s.hub id))

/-! ## The end of rooms -/

/-- The last update that the connections of a room get when rooms are closed. -/
def lastUpdates (closed : List Room) (room : String) : List Frame :=
  (closed.filter fun r => r.id = room).map fun r => .roomUpdate (.of r [])

theorem tells_finishRoom (s : Service) (r : Room) :
    s.hub.Tells (s.finishRoom r).hub (Hub.only r.id [.roomUpdate (.of r [])]) := by
  obtain ⟨w, calls, archive, hr, _⟩ := finishRoom_eq s r
  rw [hr]
  exact Hub.tells_closeRoomWith s.hub r.id (.roomUpdate (.of r []))

/-- The end of a room is told to those who are connected to it. -/
theorem tells_finishRooms (closed : List Room) (s : Service) :
    s.hub.Tells (closed.foldl finishRoom s).hub (lastUpdates closed) := by
  induction closed generalizing s with
  | nil => exact Hub.silent_refl _
  | cons r closed ih =>
    refine ((tells_finishRoom s r).trans (ih (s.finishRoom r))).congr fun room => ?_
    unfold lastUpdates Hub.only
    rw [List.filter_cons]
    by_cases hr : r.id = room
    · rw [if_pos (decide_eq_true hr), if_pos hr.symm]
      rfl
    · rw [if_neg (by simpa using hr), if_neg (Ne.symm hr)]
      rfl

/-- What the end of rooms means to those who are connected. -/
structure Emptied (s s' : Service) (closed : List Room) : Prop where
  draws : s'.draws = s.draws
  drawn : s'.drawn = s.drawn
  tells : s.hub.Tells s'.hub (lastUpdates closed)
  /-- Nobody is left in the rooms. -/
  gone : ∀ id c, s.hub.Coherent → s'.hub.get? id = some c → ∀ r ∈ closed, c.room ≠ r.id

theorem emptied_closeRoom {requester : String} {r : Room}
    (h : s.closeRoom room requester = .ok (s', r)) :
    s.lobby.close room requester s.now = .ok (s'.lobby, r) ∧ Emptied s s' [r] := by
  obtain ⟨l, hl, rfl⟩ := closeRoom_eq h
  have hf := finished_foldl [r] { s with lobby := l }
  have hlobby : ({ s with lobby := l }.finishRoom r).lobby = l := hf.lobby
  rw [hlobby]
  exact ⟨hl, hf.draws, hf.drawn, tells_finishRooms [r] { s with lobby := l }, hf.gone⟩

theorem emptied_reapRoomsAt {at_ : Instant} {n : Nat} (h : s.reapRoomsAt at_ = (s', .ok n)) :
    ∃ closed, s.lobby.reap at_ = (s'.lobby, .ok closed) ∧ Emptied s s' closed := by
  unfold reapRoomsAt at h
  split at h
  · cases h
  · rename_i l closed hr
    cases h
    have hf := finished_foldl closed { s with lobby := l }
    have hlobby : (closed.foldl finishRoom { s with lobby := l }).lobby = l := hf.lobby
    refine ⟨closed, hr.trans (congrArg (·, Except.ok closed) hlobby.symm), hf.draws, hf.drawn,
      tells_finishRooms closed { s with lobby := l }, hf.gone⟩

end Service

end SwapFloor
