import SwapFloor.Proofs.Fanout.InOrder

/-!
# Who hears of comings and goings

Some frames tell who is in a room: a member has come, one has left, or the list of those who are
there. Between two states of the hub a connection `Hears` some of them: all, as long as it is live,
or only the first ones, if it was removed on the way. `Tells` says it of all connections at once,
by their rooms, and composes.

Main statements: whom a broadcast and the end of a room tell, and that all else is silent.
-/

namespace SwapFloor

/-- The frame tells who is in a room. -/
def Frame.isRoll : Frame → Bool
  | .memberJoined _ | .memberLeft _ | .roomUpdate _ => true
  | _ => false

/-- The frames among items that tell who is in a room. -/
def rolls (items : List Outgoing) : List Frame :=
  (items.filterMap Outgoing.frame?).filter Frame.isRoll

theorem rolls_append (items items' : List Outgoing) :
    rolls (items ++ items') = rolls items ++ rolls items' := by
  unfold rolls
  rw [List.filterMap_append, List.filter_append]

namespace Hub

/-! ## One connection -/

/-- From `h` to `h'` the outbox of a connection grew by the frames `fs`, of those that tell who is
in a room. If the connection is gone it may have missed the last ones. -/
structure Hears (h h' : Hub) (id : ConnectionId) (fs : List Frame) : Prop where
  boxed : (h.outbox? id).isSome → (h'.outbox? id).isSome
  live : ∀ c', h'.get? id = some c' → ∃ c, h.get? id = some c ∧ c.room = c'.room
  waiting : ∃ new, h'.waiting id = h.waiting id ++ new ∧ rolls new <+: fs ∧
    (h'.get? id ≠ none → rolls new = fs) ∧ (h.get? id = none → rolls new = [])

variable {h h' h'' : Hub} {id : ConnectionId} {fs gs : List Frame}

theorem Hears.get?_eq_none (hh : Hears h h' id fs) (hg : h.get? id = none) :
    h'.get? id = none := by
  refine Option.eq_none_iff_forall_ne_some.2 fun c' hg' => ?_
  obtain ⟨c, hg₀, _⟩ := hh.live c' hg'
  exact nomatch hg.symm.trans hg₀

theorem Hears.trans (h₁ : Hears h h' id fs) (h₂ : Hears h' h'' id gs) :
    Hears h h'' id (fs ++ gs) where
  boxed hb := h₂.boxed (h₁.boxed hb)
  live c'' hg := by
    obtain ⟨c', hg', hr'⟩ := h₂.live c'' hg
    obtain ⟨c, hg, hr⟩ := h₁.live c' hg'
    exact ⟨c, hg, hr.trans hr'⟩
  waiting := by
    obtain ⟨new, hw, hpre, hall, hdead⟩ := h₁.waiting
    obtain ⟨new', hw', hpre', hall', hdead'⟩ := h₂.waiting
    refine ⟨new ++ new', by rw [hw', hw, List.append_assoc], ?_, fun hg => ?_, fun hg => ?_⟩
    · rw [rolls_append]
      -- A connection that is gone halfway hears nothing of the second half.
      by_cases hg : h'.get? id = none
      · rw [hdead' hg, List.append_nil]
        exact hpre.trans (List.prefix_append ..)
      · rw [hall hg]
        exact (List.prefix_append_right_inj fs).2 hpre'
    · rw [rolls_append, hall fun hn => hg (h₂.get?_eq_none hn), hall' hg]
    · rw [rolls_append, hdead hg, hdead' (h₁.get?_eq_none hg)]
      rfl

theorem hears_of_untouched (hu : Untouched h h' id) : Hears h h' id [] where
  boxed hb := by rwa [hu.2]
  live c' hg := ⟨c', hu.1.symm.trans hg, rfl⟩
  waiting := by
    refine ⟨[], ?_, List.prefix_rfl, fun _ => rfl, fun _ => rfl⟩
    unfold Hub.waiting
    rw [hu.2, List.append_nil]

theorem hears_of_offered {f : Frame} {c : Connection} (hg : h.get? c.id = some c)
    (ho : Offered h h' f c) : Hears h h' c.id ([f].filter Frame.isRoll) := by
  obtain ⟨o, hbox, hbox', hlive⟩ := ho
  refine ⟨fun _ => by rw [hbox']; rfl, fun c' hg' => ?_, ?_⟩
  · rw [hlive] at hg'
    split at hg'
    · exact ⟨c, hg, congrArg _ (Option.some.inj hg')⟩
    · exact nomatch hg'
  · have hnot : h.get? c.id ≠ none := fun hn => nomatch hg.symm.trans hn
    unfold Hub.waiting
    rw [hbox, hbox', hlive]
    unfold Outbox.offer
    cases hr : o.refusal? with
    | none =>
      exact ⟨[.frame f], rfl, List.prefix_rfl, fun _ => rfl, fun hn => absurd hn hnot⟩
    | some r =>
      refine ⟨[], (List.append_nil _).symm, List.nil_prefix, fun hn => ?_, fun _ => rfl⟩
      rw [if_neg (Option.some_ne_none r)] at hn
      exact absurd rfl hn

theorem hears_of_ended {how : Outbox → Outbox} {ids : List ConnectionId}
    (hhow : ∀ o, (how o).waiting = o.waiting ∨ (how o).waiting = o.waiting ++ [.close])
    (he : Ended how ids h h') (id : ConnectionId) : Hears h h' id [] := by
  obtain ⟨hg, ho⟩ := he id
  refine ⟨fun hb => ?_, fun c' hg' => ?_, ?_⟩
  · rw [ho]
    split
    · rwa [Option.isSome_map]
    · exact hb
  · rw [hg] at hg'
    split at hg'
    · exact nomatch hg'
    · exact ⟨c', hg', rfl⟩
  · have hgrown : ∃ new, h'.waiting id = h.waiting id ++ new ∧ rolls new = [] := by
      unfold Hub.waiting
      rw [ho]
      split
      · cases h.outbox? id with
        | none => exact ⟨[], rfl, rfl⟩
        | some o =>
          rcases hhow o with hw | hw
          · exact ⟨[], hw.trans (List.append_nil _).symm, rfl⟩
          · exact ⟨[.close], hw, rfl⟩
      · exact ⟨[], (List.append_nil _).symm, rfl⟩
    obtain ⟨new, hw, hn⟩ := hgrown
    exact ⟨new, hw, hn ▸ List.prefix_rfl, fun _ => hn, fun _ => hn⟩

/-! ## All connections -/

/-- From `h` to `h'` every connection hears of what is told to its room. -/
structure Tells (h h' : Hub) (fs : String → List Frame) : Prop where
  coherent : h.Coherent → h'.Coherent
  hears : h.Coherent → ∀ id room, (∀ c, h.get? id = some c → c.room = room) →
    Hears h h' id (fs room)

/-- From `h` to `h'` nobody hears of a coming or going. -/
abbrev Silent (h h' : Hub) : Prop := Tells h h' fun _ => []

/-- These frames for one room, and none for any other. -/
def only (room : String) (fs : List Frame) (room' : String) : List Frame :=
  if room' = room then fs else []

theorem only_self (room : String) (fs : List Frame) : only room fs room = fs := if_pos rfl

theorem only_of_ne {room room' : String} (fs : List Frame) (hne : room' ≠ room) :
    only room fs room' = [] := if_neg hne

theorem only_nil (room : String) : only room [] = fun _ => [] := by
  funext room'
  exact ite_self _

theorem only_append (room : String) (fs gs : List Frame) (room' : String) :
    only room (fs ++ gs) room' = only room fs room' ++ only room gs room' := by
  unfold only
  split <;> rfl

namespace Tells

variable {fs gs : String → List Frame} {room : String}

theorem trans (h₁ : Tells h h' fs) (h₂ : Tells h' h'' gs) :
    Tells h h'' fun room => fs room ++ gs room where
  coherent hc := h₂.coherent (h₁.coherent hc)
  hears hc id room hroom := by
    have hfirst := h₁.hears hc id room hroom
    refine hfirst.trans (h₂.hears (h₁.coherent hc) id room fun c' hg' => ?_)
    obtain ⟨c, hg, hr⟩ := hfirst.live c' hg'
    rw [← hr, hroom c hg]

/-- Outboxes stay. -/
theorem boxed (h₁ : Tells h h' fs) (hc : h.Coherent) (id : ConnectionId)
    (hb : (h.outbox? id).isSome) : (h'.outbox? id).isSome := by
  refine (h₁.hears hc id ((h.get? id).elim "" (·.room)) fun c hg => ?_).boxed hb
  rw [hg]
  rfl

theorem congr (h₁ : Tells h h' fs) (he : ∀ room, gs room = fs room) : Tells h h' gs := by
  rwa [show gs = fs from funext he]

/-- What is told to one room in two parts. -/
theorem only_trans {fs gs : List Frame} (h₁ : Tells h h' (only room fs))
    (h₂ : Tells h' h'' (only room gs)) : Tells h h'' (only room (fs ++ gs)) :=
  (h₁.trans h₂).congr (only_append room fs gs)

theorem trans_silent (h₁ : Tells h h' fs) (h₂ : Silent h' h'') : Tells h h'' fs :=
  (h₁.trans h₂).congr fun _ => (List.append_nil _).symm

theorem silent_trans (h₁ : Silent h h') (h₂ : Tells h' h'' gs) : Tells h h'' gs :=
  h₁.trans h₂

end Tells

theorem silent_of_untouched (hc : h.Coherent → h'.Coherent) (hu : ∀ id, Untouched h h' id) :
    Silent h h' :=
  ⟨hc, fun _ id _ _ => hears_of_untouched (hu id)⟩

theorem silent_refl (h : Hub) : Silent h h := silent_of_untouched id (.refl h)

/-! ## Broadcasts -/

theorem tells_fanOut (h : Hub) (room : String) (f : Frame) :
    Tells h (h.fanOut ((h.connections room).map (·.id)) f).1
      (only room ([f].filter Frame.isRoll)) where
  coherent := (onward_fanOut (p := fun _ => True) h _ trivial).coherent
  hears hc id room' hroom := by
    by_cases hin : id ∈ (h.connections room).map (·.id)
    · obtain ⟨c, hg, hr⟩ := hc.mem_connections_ids.1 hin
      obtain ⟨_, rfl⟩ := hc.get?_rooms hg
      rw [← hroom c hg, hr, only_self]
      exact hears_of_offered hg (offered_fanOut hc f (hc.nodup_connections room) hin hg)
    · have hears := hears_of_untouched (fanOut_elsewhere h f hin)
      by_cases hr : room' = room
      · -- Who is not among the connections of its own room is not live.
        have hnone : h.get? id = none := by
          refine Option.eq_none_iff_forall_ne_some.2 fun c hg => hin ?_
          exact hc.mem_connections_ids.2 ⟨c, hg, (hroom c hg).trans hr⟩
        obtain ⟨new, hw, hpre, hall, hdead⟩ := hears.waiting
        refine ⟨hears.boxed, hears.live, new, hw, ?_, fun hg => ?_, hdead⟩
        · rw [hdead hnone]
          exact List.nil_prefix
        · exact absurd (hears.get?_eq_none hnone) hg
      · rwa [only_of_ne _ hr]

/-- A broadcast to an open room is heard by its connections. -/
theorem tells_toRoom {l : Lobby} {room : String} {e : Lobby.Entry} (he : l.openEntry room = .ok e)
    (h : Hub) (requireRecipients : Bool) (f : Frame) :
    Tells h (Broadcast.toRoom l h requireRecipients room f).1
      (only room ([f].filter Frame.isRoll)) := by
  rw [toRoom_fst he]
  exact tells_fanOut h room f

theorem silent_toRoom (l : Lobby) (h : Hub) (requireRecipients : Bool) (room : String) {f : Frame}
    (hf : f.isRoll = false) : Silent h (Broadcast.toRoom l h requireRecipients room f).1 := by
  cases he : l.openEntry room with
  | error e =>
    unfold Broadcast.toRoom
    rw [he]
    exact silent_refl h
  | ok e =>
    refine (tells_toRoom he h requireRecipients f).congr fun room' => ?_
    rw [List.filter_cons_of_neg (by rw [hf]; exact Bool.false_ne_true), List.filter_nil, only_nil]

/-! ## Ends of connections -/

theorem silent_unregister (h : Hub) (id : ConnectionId) : Silent h (h.unregister id).1 :=
  ⟨(onward_unregister (fun _ => True) h id).coherent,
    fun _ id' _ _ => hears_of_ended (fun o => o.cancel_cases.2) (ended_unregister h id) id'⟩

theorem silent_closeConnection (h : Hub) (id : ConnectionId) :
    Silent h (h.closeConnection id).1 :=
  ⟨(onward_closeConnection (fun _ => True) h id).coherent,
    fun _ id' _ _ => hears_of_ended (fun o => o.close_cases.2) (ended_closeConnection h id) id'⟩

theorem silent_closeWallet (h : Hub) (room wallet : String) :
    Silent h (h.closeWallet room wallet).1 :=
  ⟨(onward_closeWallet (fun _ => True) h room wallet).coherent,
    fun _ id _ _ =>
      hears_of_ended (fun o => o.close_cases.2) (ended_closeWallet h room wallet) id⟩

theorem silent_prune (h : Hub) (maxIdleMs : Nat) (now : Instant) :
    Silent h (h.prune maxIdleMs now).1 :=
  ⟨(onward_prune (fun _ => True) h maxIdleMs now).coherent,
    fun _ id _ _ => hears_of_ended (fun o => o.cancel_cases.2) (ended_prune h maxIdleMs now) id⟩

theorem silent_closeRoom (h : Hub) (room : String) : Silent h (h.closeRoom room).1 :=
  ⟨fun hc => hc.closeRoom room,
    fun hc id _ _ => hears_of_ended (fun o => o.close_cases.2) (ended_closeRoom hc room) id⟩

/-- The last frame for a room is heard by its connections before they end. -/
theorem tells_closeRoomWith (h : Hub) (room : String) (f : Frame) :
    Tells h (h.closeRoomWith room f).1 (only room ([f].filter Frame.isRoll)) :=
  (tells_fanOut h room f).trans_silent (silent_closeRoom _ room)

/-! ## Single connections -/

theorem silent_deliver (h : Hub) {c : Connection} {f : Frame} (hf : f.isRoll = false)
    (hg : h.get? c.id = some c) : Silent h (h.deliver c.id f).1 where
  coherent := (onward_deliver (p := fun _ => True) h c.id trivial).coherent
  hears hc id _ _ := by
    by_cases hid : id = c.id
    · have hears := hears_of_offered hg (offered_deliver hc f hg)
      rw [List.filter_cons_of_neg (by rw [hf]; exact Bool.false_ne_true), List.filter_nil] at hears
      rwa [hid]
    · exact hears_of_untouched (deliver_elsewhere h f hid)

theorem silent_send (h : Hub) (id : ConnectionId) {f : Frame} (hf : f.isRoll = false) :
    Silent h (h.send id f).1 := by
  refine ⟨(onward_send (p := fun _ => True) h id trivial).coherent, fun hc => ?_⟩
  unfold send
  split
  · exact (silent_refl h).hears hc
  · rename_i c hg
    obtain ⟨_, rfl⟩ := hc.get?_rooms hg
    exact (silent_deliver h hf hg).hears hc

theorem silent_touch (h : Hub) (id : ConnectionId) (now : Instant) : Silent h (h.touch id now) where
  coherent hc := hc.touch id now
  hears hc id' _ _ := by
    refine ⟨fun hb => by rwa [outbox?_touch], fun c' hg => ?_, [], ?_, List.prefix_rfl,
      fun _ => rfl, fun _ => rfl⟩
    · obtain ⟨c, hg, hr, _⟩ := (onward_touch (fun _ => True) h id now).live id' c' hc hg
      exact ⟨c, hg, hr⟩
    · unfold Hub.waiting
      rw [outbox?_touch, List.append_nil]

end Hub

end SwapFloor
