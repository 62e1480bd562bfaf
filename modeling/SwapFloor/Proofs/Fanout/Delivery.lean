import SwapFloor.Proofs.Fanout.Onward

/-!
# Who gets a broadcast

A frame that is offered to a connection ends up at the end of its outbox, or the connection is
removed and cancelled. Main statements: a broadcast to an open room offers its frame to every
connection of the room exactly once (`offered_toRoom`) and leaves all other connections and
outboxes as they were (`toRoom_elsewhere`).
-/

namespace SwapFloor

/-- An outbox to which a frame was offered: it takes the frame, or its connection is cancelled. -/
def Outbox.offer (o : Outbox) (f : Frame) : Outbox :=
  match o.refusal? with
  | none => o.push (.frame f)
  | some _ => o.cancel

namespace Hub

/-- Between `h` and `h'` the frame was offered to the connection exactly once. -/
def Offered (h h' : Hub) (f : Frame) (c : Connection) : Prop :=
  ∃ o, h.outbox? c.id = some o ∧ h'.outbox? c.id = some (o.offer f) ∧
    h'.get? c.id = if o.refusal? = none then some c else none

/-- The number has the same connection and the same outbox in both hubs. -/
def Untouched (h h' : Hub) (id : ConnectionId) : Prop :=
  h'.get? id = h.get? id ∧ h'.outbox? id = h.outbox? id

theorem Untouched.refl (h : Hub) (id : ConnectionId) : Untouched h h id := ⟨rfl, rfl⟩

theorem Untouched.trans {h h' h'' : Hub} {id : ConnectionId} (h₁ : Untouched h h' id)
    (h₂ : Untouched h' h'' id) : Untouched h h'' id :=
  ⟨h₂.1.trans h₁.1, h₂.2.trans h₁.2⟩

theorem Offered.of_untouched {h h' h'' : Hub} {f : Frame} {c : Connection}
    (hu : Untouched h h' c.id) (ho : Offered h' h'' f c) : Offered h h'' f c := by
  obtain ⟨o, h1, h2, h3⟩ := ho
  exact ⟨o, hu.2.symm.trans h1, h2, h3⟩

theorem Offered.then_untouched {h h' h'' : Hub} {f : Frame} {c : Connection}
    (ho : Offered h h' f c) (hu : Untouched h' h'' c.id) : Offered h h'' f c := by
  obtain ⟨o, h1, h2, h3⟩ := ho
  exact ⟨o, h1, hu.2.trans h2, hu.1.trans h3⟩

/-! ## One delivery -/

theorem deliver_elsewhere (h : Hub) {id id' : ConnectionId} (f : Frame) (hid : id' ≠ id) :
    Untouched h (h.deliver id f).1 id' := by
  unfold deliver Untouched
  split
  · exact ⟨rfl, by rw [outbox?_onOutbox, if_neg hid]⟩
  · rw [get?_unregister, outbox?_unregister, if_neg hid, if_neg fun e => hid e.1]
    exact ⟨rfl, rfl⟩

theorem offered_deliver {h : Hub} (hc : h.Coherent) {c : Connection} (f : Frame)
    (hg : h.get? c.id = some c) : Offered h (h.deliver c.id f).1 f c := by
  obtain ⟨o, ho⟩ := hc.exists_outbox hg
  refine ⟨o, ho, ?_⟩
  unfold deliver Outbox.offer
  rw [ho, Option.bind_some]
  cases hr : o.refusal? with
  | none =>
    dsimp only
    rw [outbox?_onOutbox, if_pos rfl, ho, get?_onOutbox, if_pos rfl]
    exact ⟨rfl, hg⟩
  | some r =>
    dsimp only
    have hg' : (({ h with failures := h.failures + 1 } : Hub).get? c.id).isSome = true := by
      show (h.get? c.id).isSome = true
      rw [hg]; rfl
    have ho' : ({ h with failures := h.failures + 1 } : Hub).outbox? c.id = some o := ho
    rw [outbox?_unregister, get?_unregister, if_pos ⟨rfl, hg'⟩, ho', if_pos rfl,
      if_neg (by simp)]
    exact ⟨rfl, rfl⟩

/-- What is sent to a live connection is delivered to it. -/
theorem offered_send {h : Hub} (hc : h.Coherent) {c : Connection} (f : Frame)
    (hg : h.get? c.id = some c) : Offered h (h.send c.id f).1 f c := by
  unfold send
  rw [hg]
  exact offered_deliver hc f hg

theorem send_elsewhere {h : Hub} (hc : h.Coherent) {id id' : ConnectionId} (f : Frame)
    (hid : id' ≠ id) : Untouched h (h.send id f).1 id' := by
  unfold send
  split
  · exact .refl _ _
  · rename_i c hg
    obtain ⟨_, rfl⟩ := hc.get?_rooms hg
    exact deliver_elsewhere h f hid

/-! ## Many deliveries -/

theorem fanOut_fst (h : Hub) (ids : List ConnectionId) (f : Frame) :
    (h.fanOut ids f).1 = ids.foldl (fun h id => (h.deliver id f).1) h := by
  unfold fanOut
  refine (List.foldl_hom Prod.fst fun x id => ?_).symm
  dsimp only
  split
  · rename_i hd
    rw [hd]
  · rename_i hd
    rw [hd]

theorem fanOut_cons (h : Hub) (id : ConnectionId) (ids : List ConnectionId) (f : Frame) :
    (h.fanOut (id :: ids) f).1 = ((h.deliver id f).1.fanOut ids f).1 := by
  rw [fanOut_fst, fanOut_fst, List.foldl_cons]

theorem fanOut_elsewhere (h : Hub) {ids : List ConnectionId} {id : ConnectionId} (f : Frame)
    (hid : id ∉ ids) : Untouched h (h.fanOut ids f).1 id := by
  induction ids generalizing h with
  | nil => exact Untouched.refl h id
  | cons id' ids ih =>
    rw [List.mem_cons, not_or] at hid
    rw [fanOut_cons]
    exact (deliver_elsewhere h f hid.1).trans (ih _ hid.2)

theorem offered_fanOut {h : Hub} (hc : h.Coherent) {ids : List ConnectionId} (f : Frame)
    (hn : ids.Nodup) {c : Connection} (hm : c.id ∈ ids) (hg : h.get? c.id = some c) :
    Offered h (h.fanOut ids f).1 f c := by
  induction ids generalizing h with
  | nil => exact nomatch hm
  | cons id ids ih =>
    rw [List.nodup_cons] at hn
    rw [fanOut_cons]
    by_cases hid : c.id = id
    · subst hid
      exact (offered_deliver hc f hg).then_untouched (fanOut_elsewhere _ f hn.1)
    · have hu := deliver_elsewhere h f hid
      have hc' : (h.deliver id f).1.Coherent :=
        (onward_deliver (p := fun _ => True) h id trivial).coherent hc
      exact Offered.of_untouched hu
        (ih hc' hn.2 ((List.mem_cons.1 hm).resolve_left hid) (hu.1.trans hg))

/-! ## Broadcasts -/

/-- A broadcast to an open room is a delivery to its connections, also if there are none. -/
theorem toRoom_fst {l : Lobby} {room : String} {e : Lobby.Entry} (he : l.openEntry room = .ok e)
    (h : Hub) (requireRecipients : Bool) (f : Frame) :
    (Broadcast.toRoom l h requireRecipients room f).1
      = (h.fanOut ((h.connections room).map (·.id)) f).1 := by
  unfold Broadcast.toRoom
  rw [he]
  dsimp only
  split
  · rename_i hempty
    rw [List.isEmpty_iff.1 hempty.1]
    rfl
  · rfl

theorem offered_toRoom {h : Hub} (hc : h.Coherent) {l : Lobby} {room : String} {e : Lobby.Entry}
    (he : l.openEntry room = .ok e) (requireRecipients : Bool) (f : Frame) {c : Connection}
    (hg : h.get? c.id = some c) (hroom : c.room = room) :
    Offered h (Broadcast.toRoom l h requireRecipients room f).1 f c := by
  rw [toRoom_fst he]
  exact offered_fanOut hc f (hc.nodup_connections room) (hc.mem_connections_ids.2 ⟨c, hg, hroom⟩) hg

theorem toRoom_elsewhere {h : Hub} (hc : h.Coherent) (l : Lobby) (requireRecipients : Bool)
    {room : String} (f : Frame) {id : ConnectionId}
    (hout : ∀ c, h.get? id = some c → c.room ≠ room) :
    Untouched h (Broadcast.toRoom l h requireRecipients room f).1 id := by
  cases he : l.openEntry room with
  | error e =>
    unfold Broadcast.toRoom
    rw [he]
    exact Untouched.refl h id
  | ok e =>
    rw [toRoom_fst he]
    refine fanOut_elsewhere h f fun hm => ?_
    obtain ⟨c, hg, hroom⟩ := hc.mem_connections_ids.1 hm
    exact hout c hg hroom

end Hub

end SwapFloor
