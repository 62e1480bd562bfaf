import SwapFloor.Proofs.Service.Comings

/-!
# Ways into a room

There are three ways into a room: a request to join, a connection, and a frame that comes in over
an open one. All of them ask the room whether it is open to the password that is presented. But for
the creator of a room, nobody comes in by any other operation.

Main statements: what an entrance asks for and does (`Entrance.admission`, `Entrance.isActive_iff`),
and what an operation does to those who are in a room (`passage_attempt`).
-/

namespace SwapFloor

namespace Lobby

/-- Whether a room is open to a password. -/
def admission (l : Lobby) (room : String) (password : Option String) : Except Failure Unit := do
  let e ← l.openEntry room
  Password.check e.room.passwordHash password

end Lobby

namespace Service

variable {s s' : Service} {room wallet : String} {password : Option String}

/-! ## Whoever is let in -/

theorem admission_of_joinRoom {j : Lobby.Joined}
    (h : s.joinRoom room wallet password = .ok (s', j)) :
    s.lobby.admission room password = .ok () := by
  unfold joinRoom at h
  obtain ⟨e, he, h⟩ := bind_eq_ok_iff.1 h
  obtain ⟨_, hc, _⟩ := bind_eq_ok_iff.1 h
  exact bind_eq_ok_iff.2 ⟨e, he, hc⟩

/-- Only blank wallets are not let into a room that is open to their password. -/
theorem exists_joinRoom (ha : s.lobby.admission room password = .ok ())
    (hw : Text.trim wallet ≠ "") : ∃ s' j, s.joinRoom room wallet password = .ok (s', j) := by
  obtain ⟨e, he, hc⟩ := bind_eq_ok_iff.1 ha
  have hjoin : ∃ r, s.lobby.join room wallet s.now = .ok r := by
    unfold Lobby.join
    dsimp only
    rw [if_neg hw, he]
    exact ⟨_, rfl⟩
  obtain ⟨r, hj⟩ := hjoin
  cases hr : s.joinRoom room wallet password with
  | ok r => exact ⟨r.1, r.2, rfl⟩
  | error f =>
    unfold joinRoom at hr
    obtain he' | ⟨e', he', hr⟩ := bind_eq_error_iff.1 hr
    · exact nomatch he.symm.trans he'
    · cases he.symm.trans he'
      obtain hc' | ⟨_, _, hr⟩ := bind_eq_error_iff.1 hr
      · exact nomatch hc.symm.trans hc'
      · obtain hj' | ⟨_, _, hr⟩ := bind_eq_error_iff.1 hr
        · exact nomatch hj.symm.trans hj'
        · exact nomatch hr

/-- A client that may open a socket is let in when it does. -/
theorem joinRoom_of_admitSocket {k : Socket} (h : s.admitSocket room wallet password = .ok k) :
    ∃ j, (s.withConnection k.room k.wallet).joinRoom room (Text.trim wallet) password
      = .ok ((s.openSocket k.room k.wallet password).1, j) := by
  obtain rfl := admitSocket_eq h
  unfold admitSocket at h
  dsimp only at h
  split at h
  · cases h
  · rename_i hw
    obtain ⟨e, he, h⟩ := bind_eq_ok_iff.1 h
    obtain ⟨_, hc, _⟩ := bind_eq_ok_iff.1 h
    have htrim : Text.trim (Text.trim wallet) ≠ "" := by rwa [Text.trim_trim]
    obtain ⟨s', j, hj⟩ := exists_joinRoom (s := s.withConnection room (Text.trim wallet))
      (bind_eq_ok_iff.2 ⟨e, he, hc⟩) htrim
    exact ⟨j, by rw [openSocket_of_ok hj]; exact hj⟩

/-- The ways into a room, with the wallet that comes in and the password that it presents. -/
inductive Entrance (s : Service) : String → String → Option String → Service → Prop where
  /-- A request to join. -/
  | request {room wallet password s' j} (h : s.joinRoom room wallet password = .ok (s', j)) :
    Entrance s room wallet password s'
  /-- A connection, which joins its wallet. -/
  | connection {room wallet password k} (h : s.admitSocket room wallet password = .ok k) :
    Entrance s room wallet password (s.openSocket k.room k.wallet password).1
  /-- A frame that comes in over an open socket. -/
  | frame {id k text password j} (hk : s.sockets.get? id = some k)
    (hq : Request.ofText text = .ok (.join password))
    (h : s.joinRoom k.room k.wallet password = .ok (s.receive id (.text text), j)) :
    Entrance s k.room k.wallet password (s.receive id (.text text))

/-- Every way in is a join, perhaps behind a registration. -/
theorem Entrance.exists_join (h : Entrance s room wallet password s') :
    ∃ (s₁ : Service) (wallet₁ : String) (j : Lobby.Joined), s₁.lobby = s.lobby ∧ Carries s s₁ ∧
      Text.trim wallet₁ = Text.trim wallet ∧ s₁.joinRoom room wallet₁ password = .ok (s', j) := by
  cases h with
  | request h => exact ⟨s, wallet, _, rfl, .refl s, rfl, h⟩
  | @connection room wallet password k h =>
    obtain ⟨j, hj⟩ := joinRoom_of_admitSocket h
    have hregister : Carries s (s.withConnection k.room k.wallet) :=
      ⟨rfl, Nat.le_refl _, fun hc => hc.register ..⟩
    exact ⟨s.withConnection k.room k.wallet, Text.trim wallet, j, rfl, hregister,
      Text.trim_trim wallet, hj⟩
  | @frame id k text password j hk hq h => exact ⟨s, k.wallet, j, rfl, .refl s, rfl, h⟩

theorem Entrance.admission (h : Entrance s room wallet password s') :
    s.lobby.admission room password = .ok () := by
  obtain ⟨s₁, _, j, hlobby, _, _, hj⟩ := h.exists_join
  rw [← hlobby]
  exact admission_of_joinRoom hj

theorem Entrance.isActive_iff (h : Entrance s room wallet password s') {r v : String} :
    s'.lobby.isActive r v = true ↔
      r = room ∧ v = Text.trim wallet ∨ s.lobby.isActive r v = true := by
  obtain ⟨s₁, _, j, hlobby, _, htrim, hj⟩ := h.exists_join
  rw [← hlobby, ← htrim]
  exact Lobby.isActive_of_join (calm_joinRoom hj).1

theorem Entrance.carries (h : Entrance s room wallet password s') : Carries s s' := by
  obtain ⟨s₁, _, j, _, hcarry, _, hj⟩ := h.exists_join
  exact hcarry.trans (.of_calm (calm_joinRoom hj).2)

theorem Entrance.tended (h : Entrance s room wallet password s') :
    s.lobby.Tended s'.lobby := by
  obtain ⟨s₁, _, j, hlobby, _, _, hj⟩ := h.exists_join
  rw [← hlobby]
  exact leads_joinRoom rfl hj

/-! ## All operations -/

/-- An operation, completed or broken off. -/
inductive Attempt (s : Service) : Service → Prop where
  | errand {s' : Service} (h : Errand s s') : Attempt s s'
  | reap (at_ : Instant) : Attempt s (s.reapRoomsAt at_).1
  | publish (room : String) (t : Trade) : Attempt s (s.publishTrade room t).1
  | process (t : Trade) : Attempt s (s.processTrade t).1

/-- What an operation does to those who are in a room. -/
inductive Passage (s s' : Service) : Prop where
  /-- A room is made, with its creator in it. -/
  | created {q : RoomRequest} {r : Room} (h : s.createRoom q = .ok (s', r))
  | entered {room wallet : String} {password : Option String}
    (h : Entrance s room wallet password s')
  /-- Nobody comes in. -/
  | idle (carries : Carries s s') (tended : s.lobby.Tended s'.lobby)
    (nobody : ∀ r v, s'.lobby.isActive r v = true → s.lobby.isActive r v = true)

namespace Passage

theorem carries (h : Passage s s') : Carries s s' := by
  cases h with
  | created h =>
    obtain ⟨_, _, hhub, hdraws, hdrawn⟩ := create_of_createRoom h
    exact ⟨hdraws, by omega, fun hc => hhub ▸ hc⟩
  | entered h => exact h.carries
  | idle hcarry _ _ => exact hcarry

theorem of_uneventful (h : Uneventful s s') : Passage s s' :=
  .idle (.of_calm h.toCalm) h.tended fun r v hv => (h.active r v).symm.trans hv

theorem of_calm (h : Calm s s') (hl : s'.lobby = s.lobby) : Passage s s' :=
  .idle (.of_calm h) (.of_eq hl) fun _ _ hv => hl ▸ hv

end Passage

theorem passage_leaveRoom {left : Option Member} (h : s.leaveRoom room wallet = .ok (s', left)) :
    Passage s s' :=
  .idle (carries_leaveRoom h) (leads_leaveRoom rfl h) fun _ _ hv =>
    ((Lobby.isActive_of_leave (leave_of_leaveRoom h)).1 hv).1

theorem passage_closeRoom {requester : String} {r : Room}
    (h : s.closeRoom room requester = .ok (s', r)) : Passage s s' :=
  .idle (carries_closeRoom h) (leads_closeRoom rfl h) fun _ _ hv =>
    ((Lobby.isActive_of_close (emptied_closeRoom h).1).1 hv).1

theorem passage_reapRoomsAt (s : Service) (at_ : Instant) : Passage s (s.reapRoomsAt at_).1 := by
  refine .idle (carries_reapRoomsAt s at_) (leads_reapRoomsAt s at_ rfl) fun r v hv => ?_
  exact Lobby.isActive_of_isActive_reap (reapRoomsAt_lobby s at_ ▸ hv)

theorem passage_receive (s : Service) (id : ConnectionId) (m : Incoming) :
    Passage s (s.receive id m) := by
  obtain hu | ⟨k, text, password, j, hk, rfl, hq, hj⟩ | ⟨k, left, hl⟩ := receive_cases s id m
  · exact .of_uneventful hu
  · exact .entered (.frame hk hq hj)
  · exact passage_leaveRoom hl

theorem passage_errand (h : Errand s s') : Passage s s' := by
  cases h with
  | create h => exact .created h
  | join h => exact .entered (.request h)
  | leave h => exact passage_leaveRoom h
  | close h => exact passage_closeRoom h
  | share h => exact .of_uneventful (uneventful_share h)
  | @reap at_ _ _ h =>
    have hreap := passage_reapRoomsAt s at_
    rw [h] at hreap
    exact hreap
  | connect h => exact .entered (.connection h)
  | receive id m => exact passage_receive s id m
  | flush id => exact .of_calm (calm_flushSocket s id) (flushSocket_lobby s id)
  | send id n => exact .of_calm (.of_hub (Hub.thinned_onOutbox ..)) rfl
  | abandon id => exact .of_calm (.of_hub (Hub.thinned_onOutbox ..)) rfl
  | disconnect id => exact .of_calm (calm_endSocket s id) rfl
  | prune maxIdleMs at_ =>
    exact .of_calm (.of_hub (Hub.onward_prune (fun _ => True) ..).toThinned) rfl
  | aside h => exact .of_calm (.of_aside h) h.lobby
  | _ => exact .idle ⟨rfl, Nat.le_refl _, id⟩ (.refl _) fun _ _ hv => hv

/-- Nobody comes into a room but its creator, or by an entrance. -/
theorem passage_attempt (h : Attempt s s') : Passage s s' := by
  cases h with
  | errand h => exact passage_errand h
  | reap at_ => exact passage_reapRoomsAt s at_
  | publish room t => exact .of_uneventful (uneventful_publishTrade rfl)
  | process t => exact .of_uneventful (uneventful_processTrade rfl)

end Service

end SwapFloor
