import SwapFloor.Proofs.Service.Sound

/-!
# Operations that bring no trade

What members do never puts a trade into an outbox, never raises the number of trades of a room and
never touches the signatures that were seen or the rankings (`Still`). An errand may besides take
something out of an outbox, forget old signatures, drop old trades from the rankings or let time
pass (`Quiet`).

Main statement: every errand is quiet (`quiet_errand`).
-/

namespace SwapFloor

/-- The number of trades that a room has counted, none if there is no such room. -/
def Lobby.trades (l : Lobby) (room : String) : Nat :=
  ((l.get? room).map (·.stats.tradeCount.toNat)).getD 0

def Frame.TellsNoTrade (f : Frame) : Prop := ∀ t, f ≠ .trade t

/-- What was put into an outbox between two states of the hub in which it only grew. -/
def Hub.arrivals (h h' : Hub) (id : ConnectionId) : List Outgoing :=
  (h'.waiting id).drop (h.waiting id).length

namespace Lobby

variable {l l' : Lobby} {id wallet : String} {now : Instant}

theorem trades_update (l : Lobby) (id room : String) (e : Entry) :
    (l.update id e).trades room = if room = id then e.stats.tradeCount.toNat else l.trades room := by
  unfold trades
  rw [get?_update]
  split <;> rfl

/-- An entry may be replaced by one with the same counts. -/
theorem trades_update_same {e e' : Entry} (he : l.get? id = some e) (hs : e'.stats = e.stats)
    (room : String) : (l.update id e').trades room = l.trades room := by
  rw [trades_update]
  split
  · rename_i h
    unfold trades
    rw [h, he, hs]
    rfl
  · rfl

theorem trades_create {plan : Plan} {room : Room} (h : l.create id plan now = .ok (l', room))
    (r : String) : l'.trades r ≤ l.trades r := by
  obtain ⟨_, _, _, rfl⟩ := create_eq h
  rw [trades_update]
  split
  · exact Nat.zero_le _
  · exact Nat.le_refl _

theorem trades_join {j : Joined} (h : l.join id wallet now = .ok (l', j)) (r : String) :
    l'.trades r = l.trades r := by
  obtain ⟨_, e, he, rfl, _⟩ := join_eq h
  refine trades_update_same (get?_of_openEntry he) ?_ r
  rfl

theorem trades_leave {left : Option Member} (h : l.leave id wallet now = .ok (l', left))
    (r : String) : l'.trades r = l.trades r := by
  obtain ⟨e, he, rfl, _⟩ := leave_eq h
  refine trades_update_same he ?_ r
  unfold Entry.leave
  split
  · rfl
  · split <;> rfl

theorem trades_touch (h : l.touch id wallet now = .ok l') (r : String) :
    l'.trades r = l.trades r := by
  obtain ⟨e, he, rfl⟩ := touch_eq h
  refine trades_update_same (get?_of_openEntry he) ?_ r
  rfl

theorem trades_close {requester : String} {room : Room}
    (h : l.close id requester now = .ok (l', room)) (r : String) : l'.trades r = l.trades r := by
  obtain ⟨e, he, _, _, rfl, _⟩ := close_eq h
  refine trades_update_same he ?_ r
  rfl

theorem trades_reap {closed : List Room} (h : l.reap now = (l', .ok closed)) (r : String) :
    l'.trades r ≤ l.trades r := by
  unfold trades
  cases he' : l'.get? r with
  | none => exact Nat.zero_le _
  | some e' =>
    obtain ⟨e, he, rfl⟩ := get?_reap h he'
    rw [he]
    split <;> exact Nat.le_refl _

end Lobby

namespace Service

/-! ## What members do -/

/-- No trade is put into an outbox, counted for a room, marked as seen or ranked, and no time
passes. -/
structure Still (s s' : Service) : Prop where
  elapsedMs : s'.elapsedMs = s.elapsedMs
  seen : s'.seen = s.seen
  rankings : s'.rankings = s.rankings
  trades : ∀ room, s'.lobby.trades room ≤ s.lobby.trades room
  hub : s.hub.Appends Frame.TellsNoTrade s'.hub

namespace Still

variable {s s' s'' : Service}

theorem refl (s : Service) : Still s s := ⟨rfl, rfl, rfl, fun _ => Nat.le_refl _, .refl _ _⟩

theorem trans (h : Still s s') (h' : Still s' s'') : Still s s'' where
  elapsedMs := h'.elapsedMs.trans h.elapsedMs
  seen := h'.seen.trans h.seen
  rankings := h'.rankings.trans h.rankings
  trades room := (h'.trades room).trans (h.trades room)
  hub := h.hub.trans h'.hub

theorem of_aside (h : Aside s s') : Still s s' where
  elapsedMs := h.elapsedMs
  seen := h.seen
  rankings := h.rankings
  trades _ := by rw [h.lobby]
  hub := h.hub ▸ .refl _ _

theorem of_hub {hub : Hub} (h : s.hub.Appends Frame.TellsNoTrade hub) :
    Still s { s with hub := hub } :=
  { refl s with hub := h }

theorem of_lobby {l : Lobby} (h : ∀ room, l.trades room ≤ s.lobby.trades room) :
    Still s { s with lobby := l } :=
  { refl s with trades := h }

end Still

variable {s s' : Service} {room wallet : String}

theorem still_announce (s : Service) (room : String) {f : Frame} (hf : f.TellsNoTrade) :
    Still s (s.announce room f) :=
  .of_hub (Hub.onward_toRoom s.lobby s.hub _ room hf).waiting

theorem still_announceUpdate (s : Service) (room : String) : Still s (s.announceUpdate room) := by
  unfold announceUpdate
  split
  · exact still_announce s room fun _ h => nomatch h
  · exact .refl s

theorem still_tell (s : Service) (id : ConnectionId) {f : Frame} (hf : f.TellsNoTrade) :
    Still s (s.tell id f) :=
  .of_hub (Hub.onward_send s.hub id hf).waiting

theorem still_createRoom {q : RoomRequest} {r : Room} (h : s.createRoom q = .ok (s', r)) :
    Still s s' := by
  obtain ⟨hash, l, s₁, hl, hside, rfl⟩ := createRoom_eq h
  obtain ⟨w, calls, hw⟩ := watchToken_eq s₁ r
  have hcreate : Still s { s with lobby := l, drawn := s.drawn + 1 } :=
    { Still.refl s with trades := Lobby.trades_create hl }
  rw [hw]
  exact hcreate.trans ((Still.of_aside hside).trans { Still.refl s₁ with })

theorem still_joinRoom {password : Option String} {j : Lobby.Joined}
    (h : s.joinRoom room wallet password = .ok (s', j)) : Still s s' := by
  obtain ⟨l, s₁, hj, hside, rfl⟩ := joinRoom_eq h
  have hjoin : Still s s₁ :=
    (Still.of_lobby fun r => Nat.le_of_eq (Lobby.trades_join hj r)).trans (.of_aside hside)
  split
  · have hjoined : (Frame.memberJoined (.of j.member)).TellsNoTrade := fun _ h => nomatch h
    exact (hjoin.trans (still_announce s₁ room hjoined)).trans (still_announceUpdate ..)
  · exact hjoin.trans (still_announceUpdate ..)

theorem still_leaveRoom {left : Option Member} (h : s.leaveRoom room wallet = .ok (s', left)) :
    Still s s' := by
  obtain ⟨l, hl, heq⟩ := leaveRoom_eq h
  have hleave : ∀ r, l.trades r ≤ s.lobby.trades r := fun r =>
    Nat.le_of_eq (Lobby.trades_leave hl r)
  cases left with
  | none =>
    dsimp only at heq
    rw [heq]
    exact .of_lobby hleave
  | some m =>
    dsimp only at heq
    rw [heq]
    have hend : Still s { s.saveMember m with
        lobby := l, hub := (s.hub.closeWallet room wallet).1 } :=
      { Still.refl s with trades := hleave, hub := (Hub.onward_closeWallet _ _ _ _).waiting }
    have hleft : (Frame.memberLeft (.of m)).TellsNoTrade := fun _ h => nomatch h
    exact (hend.trans (still_announce _ room hleft)).trans (still_announceUpdate ..)

theorem still_finishRoom (s : Service) (r : Room) : Still s (s.finishRoom r) := by
  obtain ⟨w, calls, archive, hr, _⟩ := finishRoom_eq s r
  rw [hr]
  have hupdate : (Frame.roomUpdate (.of r [])).TellsNoTrade := fun _ h => nomatch h
  exact { Still.refl s with hub := (Hub.onward_closeRoomWith s.hub r.id hupdate).waiting }

theorem still_finishRooms (rooms : List Room) (s : Service) :
    Still s (rooms.foldl finishRoom s) := by
  induction rooms generalizing s with
  | nil => exact .refl s
  | cons r rooms ih => exact (still_finishRoom s r).trans (ih _)

theorem still_closeRoom {requester : String} {r : Room}
    (h : s.closeRoom room requester = .ok (s', r)) : Still s s' := by
  obtain ⟨l, hl, rfl⟩ := closeRoom_eq h
  exact (Still.of_lobby fun r => Nat.le_of_eq (Lobby.trades_close hl r)).trans
    (still_finishRoom _ r)

theorem still_reapRoomsAt {at_ : Instant} {n : Nat} (h : s.reapRoomsAt at_ = (s', .ok n)) :
    Still s s' := by
  unfold reapRoomsAt at h
  split at h
  · cases h
  · rename_i l closed hr
    cases h
    exact ((Still.of_lobby (Lobby.trades_reap hr)).trans (still_finishRooms closed _)).trans
      (.of_aside (aside_count ..))

theorem still_share {q : ShareRequest} {x : Share} (h : s.share room wallet q = .ok (s', x)) :
    Still s s' := by
  obtain ⟨l, ht, rfl⟩ := share_eq h
  have hrecord : Still s { s.recordShare x with lobby := l } :=
    { Still.refl s with trades := fun r => Nat.le_of_eq (Lobby.trades_touch ht r) }
  exact hrecord.trans (still_announce _ room fun _ h => nomatch h)

theorem still_answerPing (s : Service) (id : ConnectionId) (k : Socket) :
    Still s (s.answerPing id k) := by
  unfold answerPing
  have hping : Still s { s with hub := s.hub.touch id s.now } :=
    .of_hub (Hub.onward_touch _ s.hub id s.now).waiting
  dsimp only
  split
  · rename_i l _ ht
    have htouch : Still s { s with hub := s.hub.touch id s.now, lobby := l } :=
      hping.trans (.of_lobby fun r => Nat.le_of_eq (Lobby.trades_touch ht r))
    exact htouch.trans (still_tell _ id fun _ h => nomatch h)
  · exact hping.trans (still_tell _ id fun _ h => nomatch h)

theorem still_fulfil {id : ConnectionId} {k : Socket} {q : Request}
    (h : s.fulfil id k q = .ok s') : Still s s' := by
  cases q with
  | join password =>
    obtain ⟨j, hj⟩ := exists_of_map_fst h
    exact still_joinRoom hj
  | leave =>
    obtain ⟨left, hl⟩ := exists_of_map_fst h
    exact still_leaveRoom hl
  | share url infoType metadata =>
    obtain ⟨x, hx⟩ := exists_of_map_fst h
    exact still_share hx
  | ping =>
    cases h
    exact still_answerPing s id k

theorem still_receive (s : Service) (id : ConnectionId) (m : Incoming) :
    Still s (s.receive id m) := by
  unfold receive
  split
  · exact .refl s
  · rename_i k _
    cases m with
    | text t =>
      show Still s (s.receiveText id k t)
      unfold receiveText
      split
      · exact still_tell s id fun _ h => nomatch h
      · split
        · rename_i hf
          exact still_fulfil hf
        · exact still_tell s id fun _ h => nomatch h
    | binary => exact still_tell s id fun _ h => nomatch h
    | ping => exact .of_hub (Hub.onward_touch _ _ _ _).waiting
    | close => exact .of_hub (Hub.onward_unregister _ _ _).waiting

/-- A registration puts nothing into an outbox. -/
theorem appends_register (p : Frame → Prop) {h : Hub} (hc : h.Coherent) (room wallet : String)
    (capacity : Nat) (now : Instant) : h.Appends p (h.register room wallet capacity now).1 := by
  intro id
  refine ⟨[], ?_, fun _ hm => nomatch hm⟩
  unfold Hub.waiting
  rw [Hub.outbox?_register, List.append_nil]
  split
  · rename_i hid
    rw [hid, hc.outbox?_next]
    rfl
  · rfl

theorem still_openSocket (hs : s.Sound) (room wallet : String) (password : Option String) :
    Still s (s.openSocket room wallet password).1 := by
  have hreg : Still s (s.withConnection room wallet) :=
    { Still.refl s with hub := appends_register _ hs.hub room wallet _ _ }
  rcases openSocket_eq s room wallet password with ⟨j, hj⟩ | ⟨f, hf⟩
  · exact hreg.trans (still_joinRoom hj)
  · have hfailed : (Frame.ofFailure f).TellsNoTrade := fun _ h => nomatch h
    rw [hf]
    exact (hreg.trans (still_tell _ _ hfailed)).trans
      (.of_hub (Hub.onward_closeConnection _ _ _).waiting)

theorem still_endSocket (s : Service) (id : ConnectionId) : Still s (s.endSocket id) :=
  { Still.refl s with hub := (Hub.onward_unregister _ s.hub id).waiting }

/-! ## Errands -/

theorem tellsNoTrade_of_arrivals {p : Frame → Prop} {h h' : Hub} (ha : h.Appends p h')
    {id : ConnectionId} {f : Frame} (hf : Outgoing.frame f ∈ h.arrivals h' id) : p f := by
  obtain ⟨new, hn, hp⟩ := ha id
  unfold Hub.arrivals at hf
  rw [hn, List.drop_left] at hf
  exact hp f hf

/-- Nothing arrives while something is taken out. -/
theorem arrivals_of_length_le {h h' : Hub} {id : ConnectionId}
    (hl : (h'.waiting id).length ≤ (h.waiting id).length) : h.arrivals h' id = [] :=
  List.drop_eq_nil_of_le hl

/-- No trade is put into an outbox, counted for a room, accepted or ranked. Signatures are
forgotten only when they no longer count as seen. -/
structure Quiet (s s' : Service) : Prop where
  elapsedMs : s.elapsedMs ≤ s'.elapsedMs
  retentionMs : s'.seen.retentionMs = s.seen.retentionMs
  accepted : ∀ signature at_, s'.seen.acceptedAt.get? signature = some at_ →
    s.seen.acceptedAt.get? signature = some at_
  remembered : ∀ signature at_, s.seen.acceptedAt.get? signature = some at_ →
    s'.elapsedMs - at_ < s.seen.retentionMs → s'.seen.acceptedAt.get? signature = some at_
  trades : ∀ room, s'.lobby.trades room ≤ s.lobby.trades room
  arrivals : ∀ id f, Outgoing.frame f ∈ s.hub.arrivals s'.hub id → f.TellsNoTrade
  windows : ∀ f, s'.rankings.window f <:+ s.rankings.window f

namespace Quiet

variable {s s' : Service}

theorem of_still (h : Still s s') : Quiet s s' where
  elapsedMs := Nat.le_of_eq h.elapsedMs.symm
  retentionMs := by rw [h.seen]
  accepted _ _ ha := h.seen ▸ ha
  remembered _ _ ha _ := h.seen ▸ ha
  trades := h.trades
  arrivals _ _ hf := tellsNoTrade_of_arrivals h.hub hf
  windows f := h.rankings ▸ List.suffix_refl _

theorem refl (s : Service) : Quiet s s := of_still (.refl s)

/-- The readers of outboxes may take things out. -/
theorem of_drained {hub : Hub}
    (h : ∀ id, (hub.waiting id).length ≤ (s.hub.waiting id).length) :
    Quiet s { s with hub := hub } := by
  refine { refl s with arrivals := fun id f hf => ?_ }
  dsimp only at hf
  rw [arrivals_of_length_le (h id)] at hf
  exact nomatch hf

end Quiet

theorem waiting_onOutbox_length_le (h : Hub) (id : ConnectionId) {g : Outbox → Outbox}
    (hg : ∀ o, (g o).waiting.length ≤ o.waiting.length) (id' : ConnectionId) :
    ((h.onOutbox id g).waiting id').length ≤ (h.waiting id').length := by
  unfold Hub.waiting
  rw [Hub.outbox?_onOutbox]
  split
  · cases h.outbox? id' with
    | none => exact Nat.le_refl _
    | some o => exact hg o
  · exact Nat.le_refl _

/-- A socket that sends puts nothing into an outbox, not even if it ends. -/
theorem waiting_flushSocket_length_le (s : Service) (id id' : ConnectionId) :
    ((s.flushSocket id).1.hub.waiting id').length ≤ (s.hub.waiting id').length := by
  have hdrain : ((s.hub.onOutbox id .drain).waiting id').length ≤ (s.hub.waiting id').length :=
    waiting_onOutbox_length_le s.hub id (fun _ => Nat.zero_le _) id'
  unfold flushSocket
  split
  · exact Nat.le_refl _
  · dsimp only
    split
    · refine Nat.le_trans (Nat.le_of_eq (congrArg List.length ?_)) hdrain
      show ((s.hub.onOutbox id .drain).unregister id).1.waiting id' = _
      unfold Hub.waiting
      rw [Hub.outbox?_unregister]
      split
      · cases (s.hub.onOutbox id .drain).outbox? id' <;> rfl
      · rfl
    · exact hdrain

theorem quiet_flushSocket (s : Service) (id : ConnectionId) : Quiet s (s.flushSocket id).1 := by
  have hle := waiting_flushSocket_length_le s id
  revert hle
  unfold flushSocket
  split
  · exact fun _ => .refl s
  · dsimp only
    split
    · intro hle
      exact { Quiet.of_drained hle with }
    · exact fun hle => .of_drained hle

theorem remembered_evict (seen : Seen) (now : Nat) {signature : String} {at_ : Nat}
    (h : seen.acceptedAt.get? signature = some at_) (hr : now - at_ < seen.retentionMs) :
    (seen.evict now).acceptedAt.get? signature = some at_ := by
  unfold Seen.evict
  rw [Table.get?_filter, h, Option.filter_some, if_pos (decide_eq_true hr)]

theorem accepted_of_evict {seen : Seen} {now : Nat} {signature : String} {at_ : Nat}
    (h : (seen.evict now).acceptedAt.get? signature = some at_) :
    seen.acceptedAt.get? signature = some at_ := by
  unfold Seen.evict at h
  rw [Table.get?_filter, Option.filter_eq_some_iff] at h
  exact h.1

/-- Every errand is quiet, provided that opening a socket is. -/
theorem quiet_of_quiet_connect (h : Errand s s')
    (hconnect : ∀ room wallet password, s' = (s.openSocket room wallet password).1 → Quiet s s') :
    Quiet s s' := by
  cases h with
  | create h => exact .of_still (still_createRoom h)
  | join h => exact .of_still (still_joinRoom h)
  | leave h => exact .of_still (still_leaveRoom h)
  | close h => exact .of_still (still_closeRoom h)
  | share h => exact .of_still (still_share h)
  | reap h => exact .of_still (still_reapRoomsAt h)
  | connect h => exact hconnect _ _ _ rfl
  | receive id m => exact .of_still (still_receive s id m)
  | flush id => exact quiet_flushSocket s id
  | send id n =>
    refine .of_drained (waiting_onOutbox_length_le s.hub id fun o => ?_)
    exact Nat.le_trans (Nat.le_of_eq List.length_drop) (Nat.sub_le _ _)
  | abandon id => exact .of_drained (waiting_onOutbox_length_le s.hub id fun _ => Nat.zero_le _)
  | disconnect id => exact .of_still (still_endSocket s id)
  | prune maxIdleMs at_ => exact .of_still (.of_hub (Hub.onward_prune _ _ _ _).waiting)
  | complete => exact .of_still { Still.refl s with }
  | retry => exact .of_still { Still.refl s with }
  | resubscribe => exact .of_still { Still.refl s with }
  | sweep =>
    exact { Quiet.refl s with
      accepted := fun _ _ ha => accepted_of_evict ha
      remembered := fun _ _ ha hr => remembered_evict s.seen s.elapsedMs ha hr }
  | rank timeframe dimension limit =>
    refine { Quiet.refl s with windows := fun f => ?_ }
    dsimp only [Rankings.rank]
    rw [Rankings.window_setWindow]
    split
    · rename_i hf
      rw [hf]
      exact List.dropWhile_suffix _
    · exact List.suffix_refl _
  | advance ms =>
    exact { Quiet.refl s with
      elapsedMs := Nat.le_add_right _ _
      remembered := fun _ _ ha _ => ha }
  | setClock => exact { Quiet.refl s with }
  | aside h => exact .of_still (.of_aside h)

theorem quiet_errand (hs : s.Sound) (h : Errand s s') : Quiet s s' :=
  quiet_of_quiet_connect h fun _ _ _ he => he ▸ .of_still (still_openSocket hs ..)

end Service

end SwapFloor
