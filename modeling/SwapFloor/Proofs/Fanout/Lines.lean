import SwapFloor.Proofs.Fanout.Delivery

/-!
# One connection by itself

Whatever is done to the hub, each connection feels it by itself: what becomes of it depends on the
act, on the connection as the hub knows it and on its own outbox, and on no other connection. A
`Line` is a connection with its outbox, and `Line.act` says what an act does to it.

Main statements: which connections are gone and what was done to their outboxes after an act that
ends several (`Ended`), and that the line of a connection after an act on the hub is its line
before, acted on by itself (`line?_act`).
-/

namespace SwapFloor.Hub

/-! ## Acts -/

/-- What is done to the hub, or by those who read from its outboxes. -/
inductive Act where
  | register (room wallet : String) (capacity : Nat) (now : Instant)
  | unregister (id : ConnectionId)
  | broadcast (lobby : Lobby) (requireRecipients : Bool) (room : String) (f : Frame)
  | send (id : ConnectionId) (f : Frame)
  /-- A last frame goes to the connections of a room, which end with it. -/
  | closeRoom (room : String) (f : Frame)
  | closeConnection (id : ConnectionId)
  | closeWallet (room wallet : String)
  | prune (maxIdleMs : Nat) (now : Instant)
  | ping (id : ConnectionId) (now : Instant)
  /-- Some items are read from an outbox. -/
  | take (id : ConnectionId) (n : Nat)
  /-- Nobody reads from an outbox any more. -/
  | abandon (id : ConnectionId)

def act (h : Hub) : Act → Hub
  | .register room wallet capacity now => (h.register room wallet capacity now).1
  | .unregister id => (h.unregister id).1
  | .broadcast lobby requireRecipients room f =>
    (Broadcast.toRoom lobby h requireRecipients room f).1
  | .send id f => (h.send id f).1
  | .closeRoom room f => (h.closeRoomWith room f).1
  | .closeConnection id => (h.closeConnection id).1
  | .closeWallet room wallet => (h.closeWallet room wallet).1
  | .prune maxIdleMs now => (h.prune maxIdleMs now).1
  | .ping id now => h.touch id now
  | .take id n => h.onOutbox id (·.take n)
  | .abandon id => h.onOutbox id .abandon

/-- The hub after one act after the other. -/
def run (h : Hub) (as : List Act) : Hub := as.foldl act h

theorem Coherent.act {h : Hub} (hc : h.Coherent) (a : Act) : (h.act a).Coherent := by
  cases a with
  | register room wallet capacity now => exact hc.register room wallet capacity now
  | unregister id => exact hc.unregister id
  | broadcast lobby requireRecipients room f =>
    exact (onward_toRoom (p := fun _ => True) lobby h requireRecipients room trivial).coherent hc
  | send id f => exact (onward_send (p := fun _ => True) h id trivial).coherent hc
  | closeRoom room f => exact (onward_closeRoomWith (p := fun _ => True) h room trivial).coherent hc
  | closeConnection id => exact hc.closeConnection id
  | closeWallet room wallet =>
    exact (onward_closeWallet (fun _ => True) h room wallet).coherent hc
  | prune maxIdleMs now => exact (onward_prune (fun _ => True) h maxIdleMs now).coherent hc
  | ping id now => exact hc.touch id now
  | take id n => exact hc.onOutbox id _
  | abandon id => exact hc.onOutbox id _

/-! ## Acts that end connections -/

/-- From `h` to `h'` the connections with these numbers were removed, and `how` was done to the
outboxes of those that there were. -/
def Ended (how : Outbox → Outbox) (ids : List ConnectionId) (h h' : Hub) : Prop :=
  ∀ id, h'.get? id = (if id ∈ ids then none else h.get? id) ∧
    h'.outbox? id
      = if id ∈ ids ∧ (h.get? id).isSome then (h.outbox? id).map how else h.outbox? id

theorem Ended.nil (how : Outbox → Outbox) (h : Hub) : Ended how [] h h :=
  fun _ => ⟨(if_neg List.not_mem_nil).symm, (if_neg fun e => List.not_mem_nil e.1).symm⟩

theorem Ended.cons {how : Outbox → Outbox} {id : ConnectionId} {ids : List ConnectionId}
    {h h' h'' : Hub} (h₁ : Ended how [id] h h') (h₂ : Ended how ids h' h'') :
    Ended how (id :: ids) h h'' := by
  intro i
  obtain ⟨hg₁, ho₁⟩ := h₁ i
  obtain ⟨hg₂, ho₂⟩ := h₂ i
  rw [hg₂, ho₂, hg₁, ho₁]
  by_cases hi : i = id
  · simp [hi]
  · simp [hi]

/-- What ends one connection ends all of a list, one after the other. -/
theorem ended_foldl {β : Type} {how : Outbox → Outbox} {step : Hub × β → Connection → Hub × β}
    (hstep : ∀ s c, Ended how [c.id] s.1 (step s c).1) (cs : List Connection) (s : Hub × β) :
    Ended how (cs.map (·.id)) s.1 (cs.foldl step s).1 := by
  induction cs generalizing s with
  | nil => exact .nil how s.1
  | cons c cs ih => exact (hstep s c).cons (ih (step s c))

theorem ended_unregister (h : Hub) (id : ConnectionId) :
    Ended .cancel [id] h (h.unregister id).1 := by
  intro id'
  rw [get?_unregister, outbox?_unregister]
  by_cases hid : id' = id
  · simp [hid]
  · simp [hid]

theorem outbox?_closeConnection (h : Hub) (id id' : ConnectionId) :
    (h.closeConnection id).1.outbox? id'
      = if id' = id ∧ (h.get? id).isSome then (h.outbox? id').map .close else h.outbox? id' := by
  rw [← detach_snd, ← outbox?_detach h id id']
  unfold closeConnection
  split
  · rename_i he
    rw [outbox?_onOutbox, he]
    simp
  · rename_i he
    rw [he]
    simp

theorem ended_closeConnection (h : Hub) (id : ConnectionId) :
    Ended .close [id] h (h.closeConnection id).1 := by
  intro id'
  rw [get?_closeConnection, outbox?_closeConnection]
  by_cases hid : id' = id
  · simp [hid]
  · simp [hid]

theorem ended_closeWallet (h : Hub) (room wallet : String) :
    Ended .close (((h.bucket room).values.filter (·.wallet == wallet)).map (·.id)) h
      (h.closeWallet room wallet).1 := by
  refine ended_foldl (fun s c => ?_) _ (h, 0)
  exact ended_closeConnection s.1 c.id

theorem ended_prune (h : Hub) (maxIdleMs : Nat) (now : Instant) :
    Ended .cancel ((h.all.filter fun c => c.lastPing < pingLimit maxIdleMs now).map (·.id)) h
      (h.prune maxIdleMs now).1 := by
  refine ended_foldl (fun s c => ?_) _ (h, [])
  have hu := ended_unregister s.1 c.id
  dsimp only
  split <;> rename_i he <;> rw [he] at hu <;> exact hu

theorem ended_closeRoom {h : Hub} (hc : h.Coherent) (room : String) :
    Ended .close ((h.bucket room).keys) h (h.closeRoom room).1 := by
  intro id
  have hmem : id ∈ (h.bucket room).keys ↔ ∃ c, h.get? id = some c ∧ c.room = room := by
    rw [Table.mem_keys_iff]
    exact exists_congr fun c => hc.bucket_get?_iff
  constructor
  · refine Option.ext fun c => ?_
    rw [get?_closeRoom hc]
    by_cases hin : id ∈ (h.bucket room).keys
    · obtain ⟨c', hg, hroom⟩ := hmem.1 hin
      rw [if_pos hin]
      refine ⟨fun e => ?_, fun e => nomatch e⟩
      rw [hg, Option.some.injEq] at e
      exact absurd (e.1 ▸ hroom) e.2
    · rw [if_neg hin]
      exact ⟨fun e => e.1, fun hg => ⟨hg, fun hroom => hin (hmem.2 ⟨c, hg, hroom⟩)⟩⟩
  · rw [outbox?_closeRoom]
    by_cases hin : id ∈ (h.bucket room).keys
    · obtain ⟨c, hg, _⟩ := hmem.1 hin
      simp [hin, hg]
    · simp [hin]

/-! ## Lines -/

/-- A connection by itself: what the hub knows of it, as long as it is live, and its outbox. -/
structure Line where
  id : ConnectionId
  live : Option Connection
  box : Outbox

namespace Line

/-- Offers a frame; a line that cannot take it ends. -/
def offer (l : Line) (f : Frame) : Line :=
  match l.box.refusal? with
  | none => { l with box := l.box.push (.frame f) }
  | some _ => { l with live := none, box := l.box.cancel }

/-- Offers a frame if the line is live with a connection that satisfies `p`. -/
def offerIf (l : Line) (p : Connection → Bool) (f : Frame) : Line :=
  if l.live.any p then l.offer f else l

/-- Ends the line if it is live with a connection that satisfies `p`. -/
def endIf (l : Line) (p : Connection → Bool) (how : Outbox → Outbox) : Line :=
  if l.live.any p then { l with live := none, box := how l.box } else l

/-- Changes the outbox of the line with this number. -/
def onBox (l : Line) (id : ConnectionId) (f : Outbox → Outbox) : Line :=
  if l.id = id then { l with box := f l.box } else l

end Line

/-- For whom a frame is that an act submits. A broadcast is for nobody if its room is not open. -/
def Act.isFor : Act → Connection → Bool
  | .broadcast lobby _ room _ => fun c => (lobby.openEntry room).toBool && c.room == room
  | .send id _ => fun c => c.id == id
  | .closeRoom room _ => fun c => c.room == room
  | _ => fun _ => false

/-- The frame that an act submits. -/
def Act.frame? : Act → Option Frame
  | .broadcast _ _ _ f | .send _ f | .closeRoom _ f => some f
  | _ => none

/-- What an act does to a line. -/
def Line.act (l : Line) : Act → Line
  | .register _ _ _ _ => l
  | .unregister id => l.endIf (·.id == id) .cancel
  | .broadcast lobby requireRecipients room f =>
    l.offerIf (Act.broadcast lobby requireRecipients room f).isFor f
  | .send id f => l.offerIf (Act.send id f).isFor f
  | .closeRoom room f => (l.offerIf (Act.closeRoom room f).isFor f).endIf (·.room == room) .close
  | .closeConnection id => l.endIf (·.id == id) .close
  | .closeWallet room wallet => l.endIf (fun c => c.room == room && c.wallet == wallet) .close
  | .prune maxIdleMs now => l.endIf (fun c => c.lastPing < pingLimit maxIdleMs now) .cancel
  | .ping id now => { l with live := l.live.map fun c => if l.id = id then pinged now c else c }
  | .take id n => l.onBox id (·.take n)
  | .abandon id => l.onBox id .abandon

/-- The line of a connection, live or removed. -/
def line? (h : Hub) (id : ConnectionId) : Option Line :=
  (h.outbox? id).map fun o => ⟨id, h.get? id, o⟩

theorem line?_eq_some_iff {h : Hub} {id : ConnectionId} {l : Line} :
    h.line? id = some l ↔ h.outbox? id = some l.box ∧ h.get? id = l.live ∧ l.id = id := by
  unfold line?
  rw [Option.map_eq_some_iff]
  constructor
  · rintro ⟨o, ho, rfl⟩
    exact ⟨ho, rfl, rfl⟩
  · rintro ⟨ho, hg, rfl⟩
    exact ⟨l.box, ho, by rw [hg]⟩

section

variable {h h' : Hub} {id : ConnectionId} {l : Line}

theorem line?_of_untouched (hl : h.line? id = some l) (hu : Untouched h h' id) :
    h'.line? id = some l := by
  unfold line?
  rw [hu.1, hu.2]
  exact hl

theorem line?_of_offered {f : Frame} {c : Connection} (hl : h.line? c.id = some l)
    (hlive : l.live = some c) (ho : Offered h h' f c) : h'.line? c.id = some (l.offer f) := by
  obtain ⟨hbox, _, hid⟩ := line?_eq_some_iff.1 hl
  obtain ⟨o, h1, h2, h3⟩ := ho
  obtain rfl := Option.some.inj (h1.symm.trans hbox)
  rw [line?_eq_some_iff, h2, h3]
  unfold Line.offer Outbox.offer
  cases l.box.refusal? with
  | none => exact ⟨rfl, hlive.symm, hid⟩
  | some r => exact ⟨rfl, rfl, hid⟩

/-- An act ends those lines whose connections it removes. -/
theorem line?_of_ended {how : Outbox → Outbox} {ids : List ConnectionId} {p : Connection → Bool}
    (hl : h.line? id = some l) (he : Ended how ids h h')
    (hp : ∀ c, h.get? id = some c → (id ∈ ids ↔ p c = true)) :
    h'.line? id = some (l.endIf p how) := by
  obtain ⟨hbox, hlive, hid⟩ := line?_eq_some_iff.1 hl
  obtain ⟨hg, ho⟩ := he id
  rw [line?_eq_some_iff, hg, ho, hbox]
  unfold Line.endIf
  rw [← hlive]
  cases hc : h.get? id with
  | none => simp [hid, ← hlive, hc]
  | some c =>
    have hiff := hp c hc
    by_cases hin : id ∈ ids
    · simp [hin, hiff.1 hin, hid]
    · have hnot : ¬ p c = true := fun e => hin (hiff.2 e)
      simp [hin, hnot, hid, ← hlive, hc]

theorem line?_onOutbox (hl : h.line? id = some l) (id' : ConnectionId) (f : Outbox → Outbox) :
    (h.onOutbox id' f).line? id = some (l.onBox id' f) := by
  obtain ⟨hbox, hlive, hid⟩ := line?_eq_some_iff.1 hl
  rw [line?_eq_some_iff, outbox?_onOutbox, get?_onOutbox, hbox]
  unfold Line.onBox
  rw [hid, hlive]
  by_cases hi : id = id'
  · simp [hi]
  · simp [hi, hid]

/-! ## What an act does to a line -/

variable (hc : h.Coherent)

include hc

theorem line?_broadcast (hl : h.line? id = some l) (lobby : Lobby) (requireRecipients : Bool)
    (room : String) (f : Frame) :
    (Broadcast.toRoom lobby h requireRecipients room f).1.line? id
      = some (l.offerIf (Act.broadcast lobby requireRecipients room f).isFor f) := by
  obtain ⟨_, hlive, hid⟩ := line?_eq_some_iff.1 hl
  have haway : (∀ c, h.get? id = some c → c.room ≠ room) →
      l.live.any (Act.broadcast lobby requireRecipients room f).isFor = false := by
    intro hne
    rw [← hlive]
    cases hg : h.get? id with
    | none => rfl
    | some c => simp [Act.isFor, hne c hg]
  unfold Line.offerIf
  by_cases hin : ∃ c, h.get? id = some c ∧ c.room = room
  · obtain ⟨c, hg, hroom⟩ := hin
    obtain ⟨_, rfl⟩ := hc.get?_rooms hg
    rw [← hlive, hg, Option.any_some]
    cases he : lobby.openEntry room with
    | ok e =>
      have hfor : (Act.broadcast lobby requireRecipients room f).isFor c = true := by
        simp [Act.isFor, he, hroom, Except.toBool]
      rw [if_pos hfor]
      exact line?_of_offered hl (hlive.symm.trans hg)
        (offered_toRoom hc he requireRecipients f hg hroom)
    | error e =>
      have hnot : ¬ (Act.broadcast lobby requireRecipients room f).isFor c = true := by
        simp [Act.isFor, he, Except.toBool]
      rw [if_neg hnot]
      unfold Broadcast.toRoom
      rw [he]
      exact hl
  · have hne : ∀ c, h.get? id = some c → c.room ≠ room := fun c hg hr => hin ⟨c, hg, hr⟩
    rw [haway hne]
    exact line?_of_untouched hl (toRoom_elsewhere hc lobby requireRecipients f hne)

theorem line?_send (hl : h.line? id = some l) (id' : ConnectionId) (f : Frame) :
    (h.send id' f).1.line? id = some (l.offerIf (Act.send id' f).isFor f) := by
  obtain ⟨_, hlive, hid⟩ := line?_eq_some_iff.1 hl
  unfold Hub.send Line.offerIf
  rw [← hlive]
  cases hg' : h.get? id' with
  | none =>
    have hnot : ¬ (h.get? id).any (Act.send id' f).isFor = true := by
      cases hg : h.get? id with
      | none => simp
      | some c =>
        have hne : c.id ≠ id' := by
          rintro rfl
          rw [(hc.get?_rooms hg).2, hg] at hg'
          exact nomatch hg'
        simp [Act.isFor, hne]
    rw [if_neg hnot]
    exact hl
  | some c =>
    obtain ⟨_, rfl⟩ := hc.get?_rooms hg'
    by_cases hi : id = c.id
    · rw [hi] at hl hlive ⊢
      rw [hg', Option.any_some, if_pos (by simp [Act.isFor])]
      exact line?_of_offered hl (hlive.symm.trans hg') (offered_deliver hc f hg')
    · have hnot : ¬ (h.get? id).any (Act.send c.id f).isFor = true := by
        cases hg : h.get? id with
        | none => simp
        | some d => simp [Act.isFor, (hc.get?_rooms hg).2, hi]
      rw [if_neg hnot]
      exact line?_of_untouched hl (deliver_elsewhere h f hi)

theorem line?_shutRoom (hl : h.line? id = some l) (room : String) :
    (h.closeRoom room).1.line? id = some (l.endIf (·.room == room) .close) := by
  refine line?_of_ended hl (ended_closeRoom hc room) fun c hg => ?_
  rw [Table.mem_keys_iff, beq_iff_eq]
  constructor
  · rintro ⟨d, hd⟩
    obtain ⟨hd, hroom⟩ := hc.bucket_get?_iff.1 hd
    rwa [← Option.some.inj (hd.symm.trans hg)]
  · exact fun hroom => ⟨c, hc.bucket_get?_iff.2 ⟨hg, hroom⟩⟩

theorem line?_closeRoom (hl : h.line? id = some l) (room : String) (f : Frame) :
    (h.closeRoomWith room f).1.line? id
      = some ((l.offerIf (Act.closeRoom room f).isFor f).endIf (·.room == room) .close) := by
  obtain ⟨_, hlive, hid⟩ := line?_eq_some_iff.1 hl
  have hoffer : (h.fanOut ((h.connections room).map (·.id)) f).1.line? id
      = some (l.offerIf (Act.closeRoom room f).isFor f) := by
    unfold Line.offerIf
    rw [← hlive]
    by_cases hin : ∃ c, h.get? id = some c ∧ c.room = room
    · obtain ⟨c, hg, hroom⟩ := hin
      obtain ⟨_, rfl⟩ := hc.get?_rooms hg
      rw [hg, Option.any_some, if_pos (by simp [Act.isFor, hroom])]
      exact line?_of_offered hl (hlive.symm.trans hg)
        (offered_fanOut hc f (hc.nodup_connections room)
        (hc.mem_connections_ids.2 ⟨c, hg, hroom⟩) hg)
    · have hnot : ¬ (h.get? id).any (Act.closeRoom room f).isFor = true := by
        cases hg : h.get? id with
        | none => simp
        | some c => simpa [Act.isFor] using fun hr => hin ⟨c, hg, hr⟩
      rw [if_neg hnot]
      exact line?_of_untouched hl (fanOut_elsewhere h f fun hm => hin (hc.mem_connections_ids.1 hm))
  have hc' : (h.fanOut ((h.connections room).map (·.id)) f).1.Coherent :=
    (onward_fanOut (p := fun _ => True) h _ trivial).coherent hc
  exact line?_shutRoom hc' hoffer room

/-- An act on the hub does to a connection what it does to its line. -/
theorem line?_act (hl : h.line? id = some l) (a : Act) : (h.act a).line? id = some (l.act a) := by
  have hone : ∀ id' c, h.get? id = some c → (id ∈ [id'] ↔ (c.id == id') = true) := by
    intro id' c hg
    rw [List.mem_singleton, beq_iff_eq, (hc.get?_rooms hg).2]
  cases a with
  | register room wallet capacity now =>
    obtain ⟨hbox, _, _⟩ := line?_eq_some_iff.1 hl
    have hid : id ≠ h.lastId + 1 := by
      rintro rfl
      exact nomatch hbox.symm.trans hc.outbox?_next
    refine line?_of_untouched hl ⟨?_, ?_⟩
    · exact (get?_register h room wallet capacity now id).trans (if_neg hid)
    · exact (outbox?_register h room wallet capacity now id).trans (if_neg hid)
  | unregister id' => exact line?_of_ended hl (ended_unregister h id') (hone id')
  | broadcast lobby requireRecipients room f =>
    exact line?_broadcast hc hl lobby requireRecipients room f
  | send id' f => exact line?_send hc hl id' f
  | closeRoom room f => exact line?_closeRoom hc hl room f
  | closeConnection id' => exact line?_of_ended hl (ended_closeConnection h id') (hone id')
  | closeWallet room wallet =>
    refine line?_of_ended hl (ended_closeWallet h room wallet) fun c hg => ?_
    rw [List.mem_map, Bool.and_eq_true, beq_iff_eq, beq_iff_eq]
    constructor
    · rintro ⟨d, hd, rfl⟩
      obtain ⟨hm, hw⟩ := List.mem_filter.1 hd
      obtain ⟨i, hb⟩ := Table.mem_values_iff.1 hm
      obtain ⟨hgd, hr⟩ := hc.bucket_get?_iff.1 hb
      obtain ⟨_, rfl⟩ := hc.get?_rooms hgd
      rw [← Option.some.inj (hgd.symm.trans hg)]
      exact ⟨hr, beq_iff_eq.1 hw⟩
    · rintro ⟨hr, hw⟩
      obtain ⟨_, rfl⟩ := hc.get?_rooms hg
      refine ⟨c, List.mem_filter.2 ⟨?_, beq_iff_eq.2 hw⟩, rfl⟩
      exact Table.mem_values_iff.2 ⟨c.id, hc.bucket_get?_iff.2 ⟨hg, hr⟩⟩
  | prune maxIdleMs now =>
    refine line?_of_ended hl (ended_prune h maxIdleMs now) fun c hg => ?_
    rw [List.mem_map]
    constructor
    · rintro ⟨d, hd, rfl⟩
      obtain ⟨hm, hlate⟩ := List.mem_filter.1 hd
      rwa [← Option.some.inj ((hc.mem_all.1 hm).symm.trans hg)]
    · intro hlate
      obtain ⟨_, rfl⟩ := hc.get?_rooms hg
      exact ⟨c, List.mem_filter.2 ⟨hc.mem_all.2 hg, hlate⟩, rfl⟩
  | ping id' now =>
    obtain ⟨hbox, hlive, hid⟩ := line?_eq_some_iff.1 hl
    refine line?_eq_some_iff.2 ⟨(outbox?_touch h id' id now).trans hbox, ?_, hid⟩
    refine (get?_touch hc id' id now).trans ?_
    rw [hlive, ← hid]
    rfl
  | take id' n => exact line?_onOutbox hl id' _
  | abandon id' => exact line?_onOutbox hl id' _

end

/-! ## Where lines begin -/

theorem line?_eq_none_iff {h : Hub} {id : ConnectionId} : h.line? id = none ↔ h.outbox? id = none :=
  Option.map_eq_none_iff

theorem line?_none_of_ended {how : Outbox → Outbox} {ids : List ConnectionId} {h h' : Hub}
    {id : ConnectionId} (he : Ended how ids h h') (hl : h.line? id = none) :
    h'.line? id = none := by
  rw [line?_eq_none_iff] at hl ⊢
  rw [(he id).2, hl]
  exact ite_self _

theorem line?_none_of_untouched {h h' : Hub} {id : ConnectionId} (hu : Untouched h h' id)
    (hl : h.line? id = none) : h'.line? id = none := by
  rw [line?_eq_none_iff] at hl ⊢
  exact hu.2.trans hl

theorem line?_none_onOutbox {h : Hub} {id : ConnectionId} (hl : h.line? id = none)
    (id' : ConnectionId) (f : Outbox → Outbox) : (h.onOutbox id' f).line? id = none := by
  rw [line?_eq_none_iff] at hl ⊢
  rw [outbox?_onOutbox, hl]
  exact ite_self _

/-- A line begins with a registration: live, and with nothing in its outbox. -/
theorem line?_act_of_none {h : Hub} (hc : h.Coherent) {id : ConnectionId} (hl : h.line? id = none)
    (a : Act) :
    (h.act a).line? id = none ∨
      ∃ c capacity, (h.act a).line? id = some ⟨id, some c, .new capacity⟩ := by
  have hdead : ∀ c, h.get? id ≠ some c := fun c hg => by
    obtain ⟨o, ho⟩ := hc.exists_outbox hg
    exact nomatch ho.symm.trans (line?_eq_none_iff.1 hl)
  cases a with
  | register room wallet capacity now =>
    have ho := outbox?_register h room wallet capacity now id
    have hg := get?_register h room wallet capacity now id
    by_cases hid : id = h.lastId + 1
    · rw [if_pos hid] at ho hg
      exact Or.inr ⟨_, capacity, line?_eq_some_iff.2 ⟨ho, hg, rfl⟩⟩
    · rw [if_neg hid] at ho hg
      exact Or.inl (line?_none_of_untouched ⟨hg, ho⟩ hl)
  | unregister id' => exact Or.inl (line?_none_of_ended (ended_unregister h id') hl)
  | broadcast lobby requireRecipients room f =>
    refine Or.inl (line?_none_of_untouched (toRoom_elsewhere hc lobby requireRecipients f ?_) hl)
    exact fun c hg => absurd hg (hdead c)
  | send id' f =>
    left
    show (h.send id' f).1.line? id = none
    unfold Hub.send
    cases hg : h.get? id' with
    | none => exact hl
    | some c =>
      refine line?_none_of_untouched (deliver_elsewhere h f ?_) hl
      rintro rfl
      obtain ⟨_, rfl⟩ := hc.get?_rooms hg
      exact hdead c hg
  | closeRoom room f =>
    have hc' : (h.fanOut ((h.connections room).map (·.id)) f).1.Coherent :=
      (onward_fanOut (p := fun _ => True) h _ trivial).coherent hc
    refine Or.inl (line?_none_of_ended (ended_closeRoom hc' room) ?_)
    refine line?_none_of_untouched (fanOut_elsewhere h f fun hm => ?_) hl
    obtain ⟨c, hg, _⟩ := hc.mem_connections_ids.1 hm
    exact hdead c hg
  | closeConnection id' => exact Or.inl (line?_none_of_ended (ended_closeConnection h id') hl)
  | closeWallet room wallet =>
    exact Or.inl (line?_none_of_ended (ended_closeWallet h room wallet) hl)
  | prune maxIdleMs now => exact Or.inl (line?_none_of_ended (ended_prune h maxIdleMs now) hl)
  | ping id' now =>
    refine Or.inl (line?_eq_none_iff.2 ?_)
    exact (outbox?_touch h id' id now).trans (line?_eq_none_iff.1 hl)
  | take id' n => exact Or.inl (line?_none_onOutbox hl id' _)
  | abandon id' => exact Or.inl (line?_none_onOutbox hl id' _)

end SwapFloor.Hub
