import SwapFloor.Proofs.Room.Lifecycle
import SwapFloor.Proofs.Service.Sound

/-!
# What the service does with the lobby

Whatever the service does, all that it does with the lobby are operations of the lobby: a trade is
counted only when one is published, and every errand does nothing else but create, join, leave,
close, touch and recycle rooms. What rooms have counted stays as it is in an errand.

Main statements: an errand is operations that count no trade (`managed_errand`), and what was
counted is kept by them (`Managed.kept`).
-/

namespace SwapFloor

namespace Lobby

/-- The trade that an operation counts. -/
def Act.trade? : Act → Option Trade
  | .recordTrade _ t => some t
  | _ => none

/-- Operations of a kind lead from one lobby to the other. -/
def Leads (p : Act → Prop) (l l' : Lobby) : Prop := ∃ as : List Act, l' = l.run as ∧ ∀ a ∈ as, p a

/-- Operations that count no trade do. -/
abbrev Managed : Lobby → Lobby → Prop := Leads fun a => a.trade? = none

/-- Operations that create no room do. -/
abbrev Tended : Lobby → Lobby → Prop := Leads fun a => a.created? = none

namespace Leads

variable {p : Act → Prop} {l l' l'' : Lobby}

theorem refl (l : Lobby) : Leads p l l := ⟨[], rfl, fun _ ha => nomatch ha⟩

theorem trans (h : Leads p l l') (h' : Leads p l' l'') : Leads p l l'' := by
  obtain ⟨as, rfl, has⟩ := h
  obtain ⟨bs, rfl, hbs⟩ := h'
  exact ⟨as ++ bs, (run_append ..).symm, List.forall_mem_append.2 ⟨has, hbs⟩⟩

theorem of_eq (h : l' = l) : Leads p l l' := h.symm ▸ refl l

theorem of_act {a : Act} (ha : p a) : Leads p l (l.act a) :=
  ⟨[a], rfl, List.forall_mem_singleton.2 ha⟩

/-- An operation that was not refused. -/
theorem of_ok {α : Type} {a : Act} {x : Except Failure (Lobby × α)} {r : α}
    (ha : p a) (hact : l.act a = l.afterwards x) (hx : x = .ok (l', r)) : Leads p l l' := by
  have h := of_act (l := l) ha
  rw [hact, hx] at h
  exact h

theorem of_touch {id wallet : String} {now : Instant} (hp : p (.touch id wallet now))
    (h : l.touch id wallet now = .ok l') : Leads p l l' :=
  of_ok (a := .touch id wallet now) (r := ()) hp rfl (by rw [h]; rfl)

theorem of_reap {now : Instant} {r : Except Breakdown (List Room)} (hp : p (.reap now))
    (h : l.reap now = (l', r)) : Leads p l l' := by
  have hact := of_act (l := l) hp
  rwa [show l.act (.reap now) = l' from congrArg Prod.fst h] at hact

end Leads

/-- Without a new one, rooms are what they were made of. -/
theorem Tended.exists_entry {l l' : Lobby} (h : l.Tended l') {id : String} {e' : Entry}
    (he' : l'.get? id = some e') : ∃ e, l.get? id = some e ∧ e'.room.origin = e.room.origin := by
  obtain ⟨as, rfl, has⟩ := h
  induction as generalizing l with
  | nil => exact ⟨e', he', rfl⟩
  | cons a as ih =>
    obtain ⟨ha, has⟩ := List.forall_mem_cons.1 has
    have hne : a.created? ≠ some id := ha ▸ Option.some_ne_none id |>.symm
    obtain ⟨e₁, he₁, ho₁⟩ := ih has he'
    cases he : l.get? id with
    | none => exact nomatch (absent_act hne he).symm.trans he₁
    | some e => exact ⟨e, rfl, ho₁.trans (changed_of_act hne he he₁).room.origin⟩

/-! ## What was counted -/

/-- An operation that counts no trade leaves the counts of a room as they are, or they are those of
a new room. -/
theorem stats_act {l : Lobby} {a : Act} (ha : a.trade? = none) {id : String} {e' : Entry}
    (he' : (l.act a).get? id = some e') :
    e'.stats = .empty ∨ ∃ e, l.get? id = some e ∧ e'.stats = e.stats := by
  have hupdate : ∀ {id' : String} {e₁ e₂ : Entry}, (l.update id' e₂).get? id = some e' →
      l.get? id' = some e₁ → e₂.stats = e₁.stats →
      e'.stats = .empty ∨ ∃ e, l.get? id = some e ∧ e'.stats = e.stats := by
    intro id' e₁ e₂ h h₁ hs
    rw [get?_update] at h
    split at h
    · rename_i hid
      cases h
      exact Or.inr ⟨e₁, hid ▸ h₁, hs⟩
    · exact Or.inr ⟨e', h, rfl⟩
  have hafter : ∀ {α : Type} {x : Except Failure (Lobby × α)}, (l.afterwards x).get? id = some e' →
      (∀ l' r, x = .ok (l', r) → l'.get? id = some e' →
        e'.stats = .empty ∨ ∃ e, l.get? id = some e ∧ e'.stats = e.stats) →
      e'.stats = .empty ∨ ∃ e, l.get? id = some e ∧ e'.stats = e.stats := by
    intro α x h hok
    cases x with
    | error f => exact Or.inr ⟨e', h, rfl⟩
    | ok r => exact hok r.1 r.2 rfl h
  cases a with
  | create id' plan now =>
    refine hafter he' fun l' room hc h => ?_
    obtain ⟨_, _, _, rfl⟩ := create_eq hc
    rw [get?_update] at h
    split at h
    · cases h
      exact Or.inl rfl
    · exact Or.inr ⟨e', h, rfl⟩
  | join id' wallet now =>
    refine hafter he' fun l' j hj h => ?_
    obtain ⟨_, e, he, rfl, _⟩ := join_eq hj
    exact hupdate h (get?_of_openEntry he) rfl
  | leave id' wallet now =>
    refine hafter he' fun l' left hl h => ?_
    obtain ⟨e, he, rfl, _⟩ := leave_eq hl
    refine hupdate h he ?_
    unfold Entry.leave
    split
    · rfl
    · split <;> rfl
  | close id' requester now =>
    refine hafter he' fun l' room hc h => ?_
    obtain ⟨e, he, _, _, rfl, _⟩ := close_eq hc
    exact hupdate h he rfl
  | touch id' wallet now =>
    refine hafter he' fun l' u ht h => ?_
    cases hl : l.touch id' wallet now with
    | error f => rw [hl] at ht; cases ht
    | ok lt =>
      rw [hl] at ht
      cases ht
      obtain ⟨e, he, rfl⟩ := touch_eq hl
      exact hupdate h (get?_of_openEntry he) rfl
  | recordTrade id' t => cases ha
  | reap now =>
    obtain ⟨e, he, rfl | ⟨_, rfl⟩⟩ := exists_of_get?_reap he'
    · exact Or.inr ⟨e', he, rfl⟩
    · exact Or.inr ⟨e, he, rfl⟩

/-- What holds of the counts of every room, and of those of a new one, goes on to hold. -/
theorem Managed.kept {P : RoomStats → Prop} (hnew : P .empty) {l l' : Lobby} (h : Managed l l')
    (hl : ∀ id e, l.get? id = some e → P e.stats) :
    ∀ id e, l'.get? id = some e → P e.stats := by
  obtain ⟨as, rfl, has⟩ := h
  induction as generalizing l with
  | nil => exact hl
  | cons a as ih =>
    obtain ⟨ha, has⟩ := List.forall_mem_cons.1 has
    refine ih (fun id e' he' => ?_) has
    rcases stats_act ha he' with hs | ⟨e, he, hs⟩
    · rw [hs]
      exact hnew
    · rw [hs]
      exact hl id e he

end Lobby

namespace Service

variable {s s' : Service} {room wallet : String}

theorem managed_createRoom {q : RoomRequest} {r : Room} (h : s.createRoom q = .ok (s', r)) :
    s.lobby.Managed s'.lobby := by
  obtain ⟨hash, l, s₁, hl, hside, rfl⟩ := createRoom_eq h
  obtain ⟨w, calls, hw⟩ := watchToken_eq s₁ r
  rw [hw, show s₁.lobby = l from hside.lobby]
  exact .of_ok (a := .create s.nextId ⟨q.creator, q.token, q.recycleHours, hash⟩ s.now) rfl rfl hl

section

variable {p : Lobby.Act → Prop}

theorem leads_joinRoom (hp : p (.join room wallet s.now)) {password : Option String}
    {j : Lobby.Joined} (h : s.joinRoom room wallet password = .ok (s', j)) :
    s.lobby.Leads p s'.lobby :=
  .of_ok (a := .join room wallet s.now) hp rfl (calm_joinRoom h).1

theorem leads_leaveRoom (hp : p (.leave room wallet s.now)) {left : Option Member}
    (h : s.leaveRoom room wallet = .ok (s', left)) : s.lobby.Leads p s'.lobby := by
  obtain ⟨l, hl, heq⟩ := leaveRoom_eq h
  have hlobby : s'.lobby = l := by
    cases left with
    | none =>
      dsimp only at heq
      rw [heq]
    | some m =>
      dsimp only at heq
      rw [heq, announceUpdate_lobby, announce_lobby]
  rw [hlobby]
  exact .of_ok (a := .leave room wallet s.now) hp rfl hl

theorem finishRooms_lobby (rooms : List Room) (s : Service) :
    (rooms.foldl finishRoom s).lobby = s.lobby := (finished_foldl rooms s).lobby

theorem leads_closeRoom {requester : String} (hp : p (.close room requester s.now)) {r : Room}
    (h : s.closeRoom room requester = .ok (s', r)) : s.lobby.Leads p s'.lobby := by
  obtain ⟨l, hl, rfl⟩ := closeRoom_eq h
  have hfinish : ({ s with lobby := l }.finishRoom r).lobby = l :=
    finishRooms_lobby [r] { s with lobby := l }
  rw [hfinish]
  exact .of_ok (a := .close room requester s.now) hp rfl hl

theorem leads_share (hp : p (.touch room wallet s.now)) {q : ShareRequest} {x : Share}
    (h : s.share room wallet q = .ok (s', x)) : s.lobby.Leads p s'.lobby := by
  obtain ⟨l, ht, rfl⟩ := share_eq h
  exact .of_touch hp ht

theorem reapRoomsAt_lobby (s : Service) (at_ : Instant) :
    (s.reapRoomsAt at_).1.lobby = (s.lobby.reap at_).1 := by
  unfold reapRoomsAt
  split
  · rename_i hr
    rw [hr]
  · rename_i l closed hr
    rw [hr]
    exact finishRooms_lobby closed { s with lobby := l }

/-- Recycling is one operation, also if it breaks down. -/
theorem leads_reapRoomsAt (s : Service) (at_ : Instant) (hp : p (.reap at_)) :
    s.lobby.Leads p (s.reapRoomsAt at_).1.lobby :=
  reapRoomsAt_lobby s at_ ▸ .of_act (a := .reap at_) hp

end

theorem managed_openSocket (s : Service) (room wallet : String) (password : Option String) :
    s.lobby.Managed (s.openSocket room wallet password).1.lobby := by
  rcases openSocket_eq s room wallet password with ⟨j, hj⟩ | ⟨f, hf⟩
  · have hjoin := leads_joinRoom (p := fun a => a.trade? = none) rfl hj
    exact hjoin
  · exact .of_eq (by rw [hf]; rfl)

theorem managed_answerPing (s : Service) (id : ConnectionId) (k : Socket) :
    s.lobby.Managed (s.answerPing id k).lobby := by
  unfold answerPing
  dsimp only
  split
  · rename_i ht
    exact .of_touch rfl ht
  · exact .refl _

theorem managed_fulfil {id : ConnectionId} {k : Socket} {q : Request}
    (h : s.fulfil id k q = .ok s') : s.lobby.Managed s'.lobby := by
  cases q with
  | join password =>
    obtain ⟨j, hj⟩ := exists_of_map_fst h
    exact leads_joinRoom rfl hj
  | leave =>
    obtain ⟨left, hl⟩ := exists_of_map_fst h
    exact leads_leaveRoom rfl hl
  | share url infoType metadata =>
    obtain ⟨x, hx⟩ := exists_of_map_fst h
    exact leads_share rfl hx
  | ping =>
    cases h
    exact managed_answerPing s id k

theorem managed_receive (s : Service) (id : ConnectionId) (m : Incoming) :
    s.lobby.Managed (s.receive id m).lobby := by
  unfold receive
  split
  · exact .refl _
  · rename_i k _
    cases m with
    | text t =>
      show s.lobby.Managed (s.receiveText id k t).lobby
      unfold receiveText
      split
      · exact .refl _
      · split
        · rename_i hf
          exact managed_fulfil hf
        · exact .refl _
    | _ => exact .refl _

/-- All that an errand does with the lobby are operations that count no trade. -/
theorem managed_errand (h : Errand s s') : s.lobby.Managed s'.lobby := by
  cases h with
  | create h => exact managed_createRoom h
  | join h => exact leads_joinRoom rfl h
  | leave h => exact leads_leaveRoom rfl h
  | close h => exact leads_closeRoom rfl h
  | share h => exact leads_share rfl h
  | @reap at_ _ _ h =>
    have hreap : s.lobby.Managed (s.reapRoomsAt at_).1.lobby := leads_reapRoomsAt s at_ rfl
    rw [h] at hreap
    exact hreap
  | connect => exact managed_openSocket ..
  | receive id m => exact managed_receive s id m
  | flush id => exact .of_eq (flushSocket_lobby s id)
  | aside h => exact .of_eq h.lobby
  | _ => exact .refl _

end Service

end SwapFloor
