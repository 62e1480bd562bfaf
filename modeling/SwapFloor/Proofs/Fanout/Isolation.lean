import SwapFloor.Proofs.Fanout.Filing
import SwapFloor.Proofs.Room.Runs

/-!
# A broadcast concerns one room

The connections of a room are listed before the first of them is offered the frame, and those that
cannot take it are removed while the list is gone through. None is skipped or served twice for
that: what becomes of a connection depends on its own outbox, as it was before the broadcast.

Main statement: whatever was done with the lobby and the hub before, a broadcast to an open room
reaches those of its connections that can take a frame, drops its others, and leaves everything
else as it is; to any other room, it does nothing (`isolating_of_run`).
-/

namespace SwapFloor

/-- Somebody reads from the outbox, and there is room in it. -/
def Outbox.isFree (o : Outbox) : Bool := !o.abandoned && decide (o.waiting.length < o.capacity)

theorem Outbox.isFree_eq (o : Outbox) : o.isFree = o.refusal?.isNone := by
  unfold isFree refusal?
  cases o.abandoned with
  | true => rfl
  | false =>
    by_cases hfull : o.capacity ≤ o.waiting.length
    · simp [hfull]
    · simp [hfull, Nat.lt_of_not_le hfull]

theorem Outbox.offer_eq (o : Outbox) (f : Frame) :
    o.offer f = if o.isFree then o.push (.frame f) else o.cancel := by
  unfold offer
  rw [isFree_eq]
  cases o.refusal? with
  | none => rfl
  | some r => rfl

namespace Hub

/-- The outbox of the connection can take a frame. -/
def isReady (h : Hub) (id : ConnectionId) : Bool := (h.outbox? id).any (·.isFree)

variable {h h' : Hub} {room : String} {id : ConnectionId} {ids : List ConnectionId}

theorem isReady_of_untouched (hu : Untouched h h' id) : h'.isReady id = h.isReady id := by
  unfold isReady
  rw [hu.2]

/-! ## The report -/

theorem isNone_deliver {o : Outbox} (ho : h.outbox? id = some o) (f : Frame) :
    (h.deliver id f).2.isNone = h.isReady id := by
  unfold deliver isReady
  rw [ho, Option.bind_some, Option.any_some, Outbox.isFree_eq]
  cases o.refusal? with
  | none => rfl
  | some r => rfl

theorem fanOut_concat (h : Hub) (ids : List ConnectionId) (id : ConnectionId) (f : Frame) :
    (h.fanOut (ids ++ [id]) f).2
      = if ((h.fanOut ids f).1.deliver id f).2.isNone then
          { (h.fanOut ids f).2 with delivered := (h.fanOut ids f).2.delivered + 1 }
        else { (h.fanOut ids f).2 with failed := (h.fanOut ids f).2.failed + 1 } := by
  unfold fanOut
  rw [List.foldl_append, List.foldl_cons, List.foldl_nil]
  generalize List.foldl _ _ ids = before
  dsimp only
  split
  · rename_i hd
    rw [hd]
    rfl
  · rename_i hd
    rw [hd]
    rfl

/-- Each connection counts by what its outbox was at the beginning, whatever happened to those
before it. -/
theorem fanOut_snd (h : Hub) (f : Frame) (hn : ids.Nodup)
    (hbox : ∀ id ∈ ids, ∃ o, h.outbox? id = some o) :
    (h.fanOut ids f).2 = ⟨ids.countP h.isReady, ids.countP fun id => ¬ h.isReady id⟩ := by
  induction ids using List.reverseRecOn with
  | nil => rfl
  | append_singleton ids id ih =>
    obtain ⟨hid, hn⟩ := (List.nodup_concat ids id).1 (List.concat_eq_append ▸ hn)
    obtain ⟨o, ho⟩ := hbox id (List.mem_append_right _ (List.mem_singleton_self id))
    have hu := fanOut_elsewhere h f hid
    have hlast : ((h.fanOut ids f).1.deliver id f).2.isNone = h.isReady id :=
      (isNone_deliver (hu.2.trans ho) f).trans (isReady_of_untouched hu)
    rw [fanOut_concat, hlast, ih hn fun i hi => hbox i (List.mem_append_left _ hi),
      List.countP_append, List.countP_append, List.countP_singleton, List.countP_singleton]
    cases h.isReady id with
    | true => rfl
    | false => rfl

/-! ## The connections of a room -/

theorem pairwise_connections (h : Hub) (room : String) :
    (h.connections room).Pairwise fun a b => byId a b = true := by
  refine List.pairwise_mergeSort (fun a b c hab hbc => ?_) (fun a b => ?_) _
  · exact decide_eq_true (Nat.le_trans (of_decide_eq_true hab) (of_decide_eq_true hbc))
  · rw [Bool.or_eq_true]
    exact (Nat.le_total a.id b.id).imp decide_eq_true decide_eq_true

theorem Coherent.nodup (hc : h.Coherent) (room : String) : (h.connections room).Nodup :=
  (hc.nodup_connections room).of_map _

/-- The list of a room is sorted by number, so it is known from who is on it. -/
theorem Coherent.connections_eq (hc : h.Coherent) {l : List Connection}
    (hsorted : l.Pairwise fun a b => byId a b = true) (hn : l.Nodup)
    (hmem : ∀ c, c ∈ h.connections room ↔ c ∈ l) : h.connections room = l := by
  have hperm := (List.perm_ext_iff_of_nodup (hc.nodup room) hn).2 hmem
  refine List.Perm.eq_of_pairwise (fun a b ha hb hab hba => ?_) (h.pairwise_connections room)
    hsorted hperm
  have hid : a.id = b.id := Nat.le_antisymm (of_decide_eq_true hab) (of_decide_eq_true hba)
  exact List.inj_on_of_nodup_map (hc.nodup_connections room) ha ((hmem b).2 hb) hid

/-! ## One broadcast -/

/-- Between `h` and `h'` the frame went to the room, with this report, and nowhere else. -/
structure Isolated (h h' : Hub) (room : String) (f : Frame) (r : Report) : Prop where
  /-- Every connection of the room is reported, under one of the two. -/
  total : r.delivered + r.failed = (h.connections room).length
  delivered : r.delivered = (h.connections room).countP (h.isReady ·.id)
  reached : ∀ c ∈ h.connections room, h.isReady c.id = true → h'.get? c.id = some c ∧
    ∃ o, h.outbox? c.id = some o ∧ h'.outbox? c.id = some (o.push (.frame f))
  dropped : ∀ c ∈ h.connections room, h.isReady c.id = false → h'.get? c.id = none ∧
    ∃ o, h.outbox? c.id = some o ∧ h'.outbox? c.id = some o.cancel
  remaining : h'.connections room = (h.connections room).filter (h.isReady ·.id)
  otherRooms : ∀ room', room' ≠ room → h'.connections room' = h.connections room'
  /-- Connections elsewhere, and the outboxes of those that are gone. -/
  elsewhere : ∀ id, (∀ c ∈ h.connections room, c.id ≠ id) → Untouched h h' id

/-- Between `h` and `h'` the frame was offered to those in the room, each by itself. -/
structure OfferedIn (h h' : Hub) (room : String) (f : Frame) : Prop where
  coherent : h'.Coherent
  offered : ∀ c ∈ h.connections room, Offered h h' f c
  elsewhere : ∀ id, (∀ c ∈ h.connections room, c.id ≠ id) → Untouched h h' id

section

variable {f : Frame}

theorem offeredIn_fanOut (hc : h.Coherent) (room : String) (f : Frame) :
    h.OfferedIn (h.fanOut ((h.connections room).map (·.id)) f).1 room f where
  coherent := (onward_fanOut (p := fun _ => True) h _ trivial).coherent hc
  offered c hmem := offered_fanOut hc f (hc.nodup_connections room) (List.mem_map_of_mem hmem)
    (hc.mem_connections.1 hmem).1
  elsewhere id hid := by
    refine fanOut_elsewhere h f fun hm => ?_
    obtain ⟨c, hmem, he⟩ := List.mem_map.1 hm
    exact hid c hmem he

/-- What becomes of a connection to which the frame was offered. -/
theorem Offered.outcome {c : Connection} (ho : Offered h h' f c) :
    ∃ o, h.outbox? c.id = some o ∧
      h'.get? c.id = (if h.isReady c.id then some c else none) ∧
      h'.outbox? c.id = some (if h.isReady c.id then o.push (.frame f) else o.cancel) := by
  obtain ⟨o, hbox, hbox', hget⟩ := ho
  have hfree : h.isReady c.id = o.isFree := by
    unfold isReady
    rw [hbox, Option.any_some]
  rw [Outbox.offer_eq] at hbox'
  rw [hfree]
  refine ⟨o, hbox, ?_, hbox'⟩
  rw [hget, Outbox.isFree_eq]
  exact if_congr Option.isNone_iff_eq_none.symm rfl rfl

namespace OfferedIn

/-- Whoever is live afterwards was so before, and its outbox could take the frame if it is in the
room. -/
theorem get?_iff (ho : h.OfferedIn h' room f) (hc : h.Coherent) (c : Connection) :
    h'.get? c.id = some c ↔ h.get? c.id = some c ∧ (c.room = room → h.isReady c.id = true) := by
  by_cases hin : ∃ d ∈ h.connections room, d.id = c.id
  · obtain ⟨d, hmem, hid⟩ := hin
    obtain ⟨o, _, hget, _⟩ := (ho.offered d hmem).outcome
    obtain ⟨hg, hroom⟩ := hc.mem_connections.1 hmem
    rw [← hid, hget, hg]
    by_cases hready : h.isReady d.id = true
    · rw [if_pos hready]
      exact (and_iff_left fun _ => hready).symm
    · rw [if_neg hready]
      refine iff_of_false (Option.some_ne_none c).symm fun he => hready (he.2 ?_)
      rw [← Option.some.inj he.1]
      exact hroom
  · have hout : ∀ d ∈ h.connections room, d.id ≠ c.id := fun d hd he => hin ⟨d, hd, he⟩
    rw [(ho.elsewhere c.id hout).1]
    refine (and_iff_left_of_imp fun hg hroom => ?_).symm
    exact absurd rfl (hout c (hc.mem_connections.2 ⟨hg, hroom⟩))

theorem connections_room (ho : h.OfferedIn h' room f) (hc : h.Coherent) :
    h'.connections room = (h.connections room).filter (h.isReady ·.id) := by
  refine ho.coherent.connections_eq ((h.pairwise_connections room).filter _)
    ((hc.nodup room).filter _) fun c => ?_
  rw [ho.coherent.mem_connections, ho.get?_iff hc, List.mem_filter, hc.mem_connections, and_assoc,
    and_assoc]
  refine and_congr_right fun _ => ?_
  rw [and_comm]
  exact and_congr_right fun hroom => forall_prop_of_true hroom

theorem connections_of_ne (ho : h.OfferedIn h' room f) (hc : h.Coherent) {room' : String}
    (hne : room' ≠ room) : h'.connections room' = h.connections room' := by
  refine ho.coherent.connections_eq (h.pairwise_connections room') (hc.nodup room') fun c => ?_
  rw [ho.coherent.mem_connections, ho.get?_iff hc, hc.mem_connections]
  refine and_congr_left fun hroom => and_iff_left fun he => ?_
  exact absurd (hroom.symm.trans he) hne

end OfferedIn

theorem isolated_fanOut (hc : h.Coherent) (room : String) (f : Frame) :
    h.Isolated (h.fanOut ((h.connections room).map (·.id)) f).1 room f
      (h.fanOut ((h.connections room).map (·.id)) f).2 := by
  have ho := offeredIn_fanOut hc room f
  have hbox : ∀ id ∈ (h.connections room).map (·.id), ∃ o, h.outbox? id = some o := by
    intro id hid
    obtain ⟨c, hg, _⟩ := hc.mem_connections_ids.1 hid
    exact hc.exists_outbox hg
  have hreport := fanOut_snd h f (hc.nodup_connections room) hbox
  refine ⟨?_, ?_, fun c hmem hready => ?_, fun c hmem hready => ?_, ho.connections_room hc,
    fun room' hne => ho.connections_of_ne hc hne, ho.elsewhere⟩
  · rw [hreport, ← List.length_eq_countP_add_countP, List.length_map]
  · rw [hreport]
    exact List.countP_map
  · obtain ⟨o, hbefore, hget, hafter⟩ := (ho.offered c hmem).outcome
    rw [if_pos hready] at hget hafter
    exact ⟨hget, o, hbefore, hafter⟩
  · obtain ⟨o, hbefore, hget, hafter⟩ := (ho.offered c hmem).outcome
    rw [hready] at hget hafter
    exact ⟨hget, o, hbefore, hafter⟩

end

end Hub

/-! ## After any run -/

/-- The lobby and the hub, which a broadcast brings together. -/
structure Floor where
  lobby : Lobby
  hub : Hub

namespace Floor

/-- No rooms and no connections. -/
def new (hours : Int64) (mint : String) : Floor := ⟨.new hours mint, .empty⟩

/-- Sends a frame to the connections of a room. -/
def broadcast (s : Floor) (requireRecipients : Bool) (room : String) (f : Frame) :
    Floor × Except Failure Hub.Report :=
  let (hub, answer) := Broadcast.toRoom s.lobby s.hub requireRecipients room f
  ({ s with hub := hub }, answer)

/-- What is done with rooms and with connections. -/
inductive Act where
  | lobby (a : Lobby.Act)
  | hub (c : Hub.Change)
  | broadcast (requireRecipients : Bool) (room : String) (f : Frame)

def act (s : Floor) : Act → Floor
  | .lobby a => { s with lobby := s.lobby.act a }
  | .hub c => { s with hub := s.hub.change c }
  | .broadcast requireRecipients room f => (s.broadcast requireRecipients room f).1

/-- The state after one act after the other. -/
def run (s : Floor) (as : List Act) : Floor := as.foldl act s

/-- What a broadcast does, by what the room is. -/
structure Isolating (s : Floor) (requireRecipients : Bool) (room : String) (f : Frame) :
    Prop where
  attended : ∀ e, s.lobby.get? room = some e → e.room.status ≠ .closed →
    s.hub.connections room ≠ [] →
    ∃ s' r, s.broadcast requireRecipients room f = (s', .ok r) ∧ s'.lobby = s.lobby ∧
      s.hub.Isolated s'.hub room f r
  deserted : ∀ e, s.lobby.get? room = some e → e.room.status ≠ .closed →
    s.hub.connections room = [] →
    s.broadcast requireRecipients room f
      = (s, if requireRecipients then .error (Broadcast.nobody room) else .ok ⟨0, 0⟩)
  isClosed : ∀ e, s.lobby.get? room = some e → e.room.status = .closed →
    s.broadcast requireRecipients room f = (s, .error (Failure.roomClosed room))
  unknown : s.lobby.get? room = none →
    s.broadcast requireRecipients room f = (s, .error (Failure.roomNotFound room))

variable {s : Floor} {room : String}

theorem coherent_act (hc : s.hub.Coherent) (a : Act) : (s.act a).hub.Coherent := by
  cases a with
  | lobby a => exact hc
  | hub c => exact hc.change c
  | broadcast requireRecipients room f =>
    exact (Hub.onward_toRoom (p := fun _ => True) s.lobby s.hub requireRecipients room
      trivial).coherent hc

theorem coherent_run (hc : s.hub.Coherent) (as : List Act) : (s.run as).hub.Coherent := by
  induction as generalizing s with
  | nil => exact hc
  | cons a as ih => exact ih (coherent_act hc a)

theorem broadcast_of_error {e : Failure} (he : s.lobby.openEntry room = .error e)
    (requireRecipients : Bool) (f : Frame) :
    s.broadcast requireRecipients room f = (s, .error e) := by
  unfold broadcast Broadcast.toRoom
  rw [he]

theorem broadcast_of_ok {e : Lobby.Entry} (he : s.lobby.openEntry room = .ok e)
    (hne : s.hub.connections room ≠ []) (requireRecipients : Bool) (f : Frame) :
    s.broadcast requireRecipients room f
      = ({ s with hub := (s.hub.fanOut ((s.hub.connections room).map (·.id)) f).1 },
        .ok (s.hub.fanOut ((s.hub.connections room).map (·.id)) f).2) := by
  have hsome : ¬ (((s.hub.connections room).map (·.id)).isEmpty = true ∧
      requireRecipients = true) :=
    fun hempty => hne (List.map_eq_nil_iff.1 (List.isEmpty_iff.1 hempty.1))
  unfold broadcast Broadcast.toRoom
  rw [he]
  dsimp only
  rw [if_neg hsome]

theorem isolating_of_coherent (hc : s.hub.Coherent) (requireRecipients : Bool) (room : String)
    (f : Frame) : s.Isolating requireRecipients room f where
  attended e he hstatus hne :=
    ⟨_, _, broadcast_of_ok (Lobby.openEntry_eq_ok_iff.2 ⟨he, hstatus⟩) hne requireRecipients f, rfl,
      Hub.isolated_fanOut hc room f⟩
  deserted e he hstatus hempty := by
    unfold broadcast Broadcast.toRoom
    rw [Lobby.openEntry_eq_ok_iff.2 ⟨he, hstatus⟩, hempty]
    cases requireRecipients <;> rfl
  isClosed _ he hclosed :=
    broadcast_of_error (Lobby.openEntry_of_closed he hclosed) requireRecipients f
  unknown hnone :=
    broadcast_of_error (Lobby.openEntry_of_get?_eq_none hnone) requireRecipients f

/-- Whatever is done with rooms and connections, a broadcast concerns one room. -/
theorem isolating_of_run (hours : Int64) (mint : String) (as : List Act)
    (requireRecipients : Bool) (room : String) (f : Frame) :
    ((new hours mint).run as).Isolating requireRecipients room f :=
  isolating_of_coherent (coherent_run Hub.coherent_empty as) requireRecipients room f

/-- In Ann's room nobody reads for Bo any more, and Cy's outbox is full; Dee is elsewhere. -/
def crowdedRoom : List Act :=
  [.lobby (.create "r" { creator := "ann" } (.ofSeconds 1)),
    .hub (.register "r" "ann" 8 (.ofSeconds 2)), .hub (.register "r" "bo" 8 (.ofSeconds 2)),
    .hub (.register "r" "cy" 1 (.ofSeconds 3)), .hub (.register "s" "dee" 8 (.ofSeconds 3)),
    .hub (.outbox 2 .abandon), .hub (.deliver 3 (.pong 3000))]

theorem isolating_crowdedRoom :
    ∃ s', ((new 24 "sol").run crowdedRoom).broadcast true "r" (.pong 4000) = (s', .ok ⟨1, 2⟩) ∧
      ((new 24 "sol").run crowdedRoom).hub.Isolated s'.hub "r" (.pong 4000) ⟨1, 2⟩ ∧
      (s'.hub.connections "r").map (·.wallet) = ["ann"] ∧
      (s'.hub.connections "s").map (·.wallet) = ["dee"] := by
  have hopen : (((new 24 "sol").run crowdedRoom).lobby.get? "r").map (·.room.status)
      = some .open := by decide +kernel
  have hr : ((new 24 "sol").run crowdedRoom).hub.connections "r"
      = (((new 24 "sol").run crowdedRoom).hub.bucket "r").values :=
    List.mergeSort_of_pairwise (by decide +kernel)
  have hs : ((new 24 "sol").run crowdedRoom).hub.connections "s"
      = (((new 24 "sol").run crowdedRoom).hub.bucket "s").values :=
    List.mergeSort_of_pairwise (by decide +kernel)
  obtain ⟨e, he, hstatus⟩ := Option.map_eq_some_iff.1 hopen
  have hclosed : e.room.status ≠ .closed := fun hclosed => nomatch hstatus.symm.trans hclosed
  have hne : ((new 24 "sol").run crowdedRoom).hub.connections "r" ≠ [] := by
    rw [hr]
    decide +kernel
  obtain ⟨s', ⟨delivered, failed⟩, hs', -, hisolated⟩ :=
    (isolating_of_run 24 "sol" crowdedRoom true "r" (.pong 4000)).attended e he hclosed hne
  have hdelivered := hisolated.delivered
  have htotal := hisolated.total
  rw [hr] at hdelivered htotal
  obtain rfl : delivered = 1 := hdelivered.trans (by decide +kernel)
  have hthree : 1 + failed = 1 + 2 := htotal.trans (by decide +kernel)
  obtain rfl : failed = 2 := Nat.add_left_cancel hthree
  refine ⟨s', hs', hisolated, ?_, ?_⟩
  · rw [hisolated.remaining, hr]
    decide +kernel
  · rw [hisolated.otherRooms "s" (by decide), hs]
    decide +kernel

end Floor

end SwapFloor
