import SwapFloor.Proofs.Fanout.InOrder

/-!
# A removed connection is told to stop, and told once

A connection is told to stop by a close at the end of its outbox, after which it gets nothing, or
at once by being cancelled. Six operations remove connections, and so does a frame that does not
fit; some of them close, some cancel, and what would close cancels if there is no room for a close.

`Line.Told` says of a connection by itself what it was told so far. Every deed keeps it
(`told_deed`), so it holds after a run. Main statement: for every run and every connection that
ever was (`toldOnce_of_run`).
-/

namespace SwapFloor

theorem Outbox.close_eq_or (o : Outbox) : o.close = o.push .close ∨ o.close = o.cancel := by
  unfold close
  split
  · exact Or.inl rfl
  · exact Or.inr rfl

namespace Hub

/-! ## Deeds -/

/-- What is done to the hub: an act, or ending the connections of a room without a last frame. -/
inductive Deed where
  | act (a : Act)
  | shutRoom (room : String)

namespace Deed

/-- The deed is one of those who read from outboxes. -/
def isReading : Deed → Bool
  | .act (.take _ _) | .act (.abandon _) => true
  | _ => false

/-- The deed is there to remove connections. -/
def removes : Deed → Bool
  | .act (.unregister _) | .act (.closeRoom _ _) | .act (.closeConnection _)
  | .act (.closeWallet _ _) | .act (.prune _ _) | .shutRoom _ => true
  | _ => false

end Deed

def deed (h : Hub) : Deed → Hub
  | .act a => h.act a
  | .shutRoom room => (h.closeRoom room).1

/-- The hub after one deed after the other. -/
def deeds (h : Hub) (ds : List Deed) : Hub := ds.foldl deed h

/-- The number of the connection that a deed registers. -/
def enters (h : Hub) : Deed → List ConnectionId
  | .act (.register room wallet capacity now) => [(h.register room wallet capacity now).2.id]
  | _ => []

/-- The numbers of all connections that deeds register, one after the other. -/
def entered (h : Hub) : List Deed → List ConnectionId
  | [] => []
  | d :: ds => h.enters d ++ (h.deed d).entered ds

/-- What a deed puts into an outbox. Only its reader takes anything out of it, so all else that is
done to it makes it grow at its end. -/
def placed (h : Hub) (id : ConnectionId) (d : Deed) : List Outgoing :=
  if d.isReading then [] else ((h.deed d).waiting id).drop (h.waiting id).length

/-- All that deeds put into an outbox, one after the other. -/
def history (h : Hub) (id : ConnectionId) : List Deed → List Outgoing
  | [] => []
  | d :: ds => h.placed id d ++ (h.deed d).history id ds

theorem Coherent.deed {h : Hub} (hc : h.Coherent) (d : Deed) : (h.deed d).Coherent := by
  cases d with
  | act a => exact hc.act a
  | shutRoom room => exact hc.closeRoom room

theorem Coherent.deeds {h : Hub} (hc : h.Coherent) (ds : List Deed) : (h.deeds ds).Coherent := by
  induction ds generalizing h with
  | nil => exact hc
  | cons d ds ih => exact ih (hc.deed d)

/-! ## Lines -/

namespace Line

/-- What a deed does to a line. -/
def deed (l : Line) : Deed → Line
  | .act a => l.act a
  | .shutRoom room => l.endIf (·.room == room) .close

/-- The line was told to stop just if it has ended, and in one way only, where `log` is all that
was ever put into its outbox. -/
structure Told (l : Line) (log : List Outgoing) : Prop where
  live : l.live ≠ none → .close ∉ log ∧ l.box.cancelled = false
  gone : l.live = none →
    (∃ before, log = before ++ [.close] ∧ .close ∉ before ∧ l.box.cancelled = false) ∨
      .close ∉ log ∧ l.box.cancelled = true

/-- Whatever the line `l` was told, so was `l'` with what was put into its outbox since. -/
def Keeps (l l' : Line) : Prop :=
  ∃ new, l'.box.waiting = l.box.waiting ++ new ∧ ∀ log, l.Told log → l'.Told (log ++ new)

theorem Keeps.refl (l : Line) : l.Keeps l :=
  ⟨[], (List.append_nil _).symm, fun log h => by rwa [List.append_nil]⟩

theorem Keeps.trans {l l' l'' : Line} (h : l.Keeps l') (h' : l'.Keeps l'') : l.Keeps l'' := by
  obtain ⟨new, hw, ht⟩ := h
  obtain ⟨new', hw', ht'⟩ := h'
  refine ⟨new ++ new', by rw [hw', hw, List.append_assoc], fun log hlog => ?_⟩
  rw [← List.append_assoc]
  exact ht' _ (ht log hlog)

theorem told_new (id : ConnectionId) (c : Connection) (capacity : Nat) :
    Told ⟨id, some c, .new capacity⟩ [] :=
  ⟨fun _ => ⟨List.not_mem_nil, rfl⟩, fun hn => nomatch hn⟩

/-- A frame that is refused cancels the line, which was told nothing before. -/
theorem keeps_offerIf (l : Line) (p : Connection → Bool) (f : Frame) : l.Keeps (l.offerIf p f) := by
  unfold offerIf
  by_cases hp : l.live.any p = true
  · have hlive : l.live ≠ none := live_ne_none hp
    rw [if_pos hp]
    unfold offer
    split
    · refine ⟨[.frame f], rfl, fun log hlog => ⟨fun _ => ?_, fun hn => absurd hn hlive⟩⟩
      obtain ⟨hnot, hcancel⟩ := hlog.live hlive
      exact ⟨by simpa using hnot, hcancel⟩
    · refine ⟨[], (List.append_nil _).symm, fun log hlog => ⟨fun hn => absurd rfl hn, fun _ => ?_⟩⟩
      rw [List.append_nil]
      exact Or.inr ⟨(hlog.live hlive).1, rfl⟩
  · rw [if_neg hp]
    exact .refl l

theorem keeps_endIf (l : Line) (p : Connection → Bool) {how : Outbox → Outbox}
    (hhow : ∀ o, how o = o.push .close ∨ how o = o.cancel) : l.Keeps (l.endIf p how) := by
  unfold endIf
  by_cases hp : l.live.any p = true
  · have hlive : l.live ≠ none := live_ne_none hp
    rw [if_pos hp]
    rcases hhow l.box with he | he
    · rw [he]
      refine ⟨[.close], rfl, fun log hlog => ⟨fun hn => absurd rfl hn, fun _ => ?_⟩⟩
      obtain ⟨hnot, hcancel⟩ := hlog.live hlive
      exact Or.inl ⟨log, rfl, hnot, hcancel⟩
    · rw [he]
      refine ⟨[], (List.append_nil _).symm, fun log hlog => ⟨fun hn => absurd rfl hn, fun _ => ?_⟩⟩
      rw [List.append_nil]
      exact Or.inr ⟨(hlog.live hlive).1, rfl⟩
  · rw [if_neg hp]
    exact .refl l

/-- What is told to a line depends on no more than whether it is live and cancelled. -/
theorem Told.congr {l l' : Line} {log : List Outgoing} (h : l.Told log)
    (hlive : l'.live = none ↔ l.live = none) (hc : l'.box.cancelled = l.box.cancelled) :
    l'.Told log := by
  refine ⟨fun hn => ?_, fun hn => ?_⟩
  · rw [hc]
    exact h.live fun hl => hn (hlive.2 hl)
  · rw [hc]
    exact h.gone (hlive.1 hn)

theorem keeps_deed (l : Line) {d : Deed} (hd : d.isReading = false) : l.Keeps (l.deed d) := by
  have hcancel : ∀ o : Outbox, o.cancel = o.push .close ∨ o.cancel = o.cancel :=
    fun _ => Or.inr rfl
  cases d with
  | shutRoom room => exact l.keeps_endIf _ Outbox.close_eq_or
  | act a =>
    cases a with
    | register room wallet capacity now => exact .refl l
    | unregister id => exact l.keeps_endIf _ hcancel
    | broadcast lobby requireRecipients room f => exact l.keeps_offerIf _ f
    | send id f => exact l.keeps_offerIf _ f
    | closeRoom room f =>
      exact (l.keeps_offerIf _ f).trans (keeps_endIf _ _ Outbox.close_eq_or)
    | closeConnection id => exact l.keeps_endIf _ Outbox.close_eq_or
    | closeWallet room wallet => exact l.keeps_endIf _ Outbox.close_eq_or
    | prune maxIdleMs now => exact l.keeps_endIf _ hcancel
    | ping id now =>
      refine ⟨[], (List.append_nil _).symm, fun log hlog => ?_⟩
      rw [List.append_nil]
      exact hlog.congr Option.map_eq_none_iff rfl
    | take id n => exact nomatch hd
    | abandon id => exact nomatch hd

theorem told_reading {l : Line} {log : List Outgoing} (h : l.Told log) {d : Deed}
    (hd : d.isReading = true) : (l.deed d).Told log := by
  have hread : ∀ id (f : Outbox → Outbox), (∀ o, (f o).cancelled = o.cancelled) →
      (l.onBox id f).Told log := by
    intro id f hf
    unfold onBox
    split
    · exact h.congr Iff.rfl (hf l.box)
    · exact h
  cases d with
  | shutRoom room => exact nomatch hd
  | act a =>
    cases a with
    | take id n => exact hread id (·.take n) fun _ => rfl
    | abandon id => exact hread id .abandon fun _ => rfl
    | _ => exact nomatch hd

/-- What has ended is left alone. -/
theorem deed_of_ended {l : Line} (hl : l.live = none) {d : Deed} (hd : d.isReading = false) :
    l.deed d = l := by
  have hend : ∀ p how, l.endIf p how = l := fun p how => by
    unfold endIf
    rw [hl]
    rfl
  have hoffer : ∀ p f, l.offerIf p f = l := fun p f => by
    unfold offerIf
    rw [hl]
    rfl
  cases d with
  | shutRoom room => exact hend _ _
  | act a =>
    cases a with
    | register room wallet capacity now => rfl
    | broadcast lobby requireRecipients room f => exact hoffer _ f
    | send id f => exact hoffer _ f
    | closeRoom room f =>
      show (l.offerIf _ f).endIf _ _ = l
      rw [hoffer]
      exact hend _ _
    | ping id now =>
      show { l with live := l.live.map _ } = l
      rw [hl, Option.map_none, ← hl]
    | take id n => exact nomatch hd
    | abandon id => exact nomatch hd
    | _ => exact hend _ _

end Line

section

variable {h : Hub} {id : ConnectionId} {l : Line}

/-- A deed on the hub does to a connection what it does to its line. -/
theorem line?_deed (hc : h.Coherent) (hl : h.line? id = some l) (d : Deed) :
    (h.deed d).line? id = some (l.deed d) := by
  cases d with
  | act a => exact line?_act hc hl a
  | shutRoom room => exact line?_shutRoom hc hl room

theorem line?_deed_of_none (hc : h.Coherent) (hl : h.line? id = none) (d : Deed) :
    (h.deed d).line? id = none ∨
      ∃ c capacity, (h.deed d).line? id = some ⟨id, some c, .new capacity⟩ := by
  cases d with
  | act a => exact line?_act_of_none hc hl a
  | shutRoom room => exact Or.inl (line?_none_of_ended (ended_closeRoom hc room) hl)

theorem line?_of_enters {d : Deed} (hm : id ∈ h.enters d) :
    ∃ c capacity, (h.deed d).line? id = some ⟨id, some c, .new capacity⟩ := by
  cases d with
  | shutRoom room => exact nomatch hm
  | act a =>
    cases a with
    | register room wallet capacity now =>
      have hid : id = h.lastId + 1 := List.mem_singleton.1 hm
      have ho := outbox?_register h room wallet capacity now id
      have hg := get?_register h room wallet capacity now id
      rw [if_pos hid] at ho hg
      exact ⟨_, capacity, line?_eq_some_iff.2 ⟨ho, hg, rfl⟩⟩
    | _ => exact nomatch hm

theorem waiting_eq_of_line? (hl : h.line? id = some l) : h.waiting id = l.box.waiting := by
  unfold waiting
  rw [(line?_eq_some_iff.1 hl).1]
  rfl

theorem waiting_eq_nil (hl : h.line? id = none) : h.waiting id = [] := by
  unfold waiting
  rw [line?_eq_none_iff.1 hl]
  rfl

theorem told_deed (hc : h.Coherent) (hl : h.line? id = some l) {log : List Outgoing}
    (ht : l.Told log) (d : Deed) : (l.deed d).Told (log ++ h.placed id d) := by
  unfold placed
  cases hd : d.isReading with
  | true =>
    rw [if_pos rfl, List.append_nil]
    exact Line.told_reading ht hd
  | false =>
    obtain ⟨new, hw, hk⟩ := l.keeps_deed hd
    rw [if_neg Bool.false_ne_true, waiting_eq_of_line? (line?_deed hc hl d),
      waiting_eq_of_line? hl, hw, List.drop_left]
    exact hk log ht

theorem told_deeds (hc : h.Coherent) (hl : h.line? id = some l) {log : List Outgoing}
    (ht : l.Told log) (ds : List Deed) :
    ∃ l', (h.deeds ds).line? id = some l' ∧ l'.Told (log ++ h.history id ds) := by
  induction ds generalizing h l log with
  | nil => exact ⟨l, hl, by rwa [history, List.append_nil]⟩
  | cons d ds ih =>
    obtain ⟨l', hl', ht'⟩ := ih (hc.deed d) (line?_deed hc hl d) (told_deed hc hl ht d)
    exact ⟨l', hl', by rwa [history, ← List.append_assoc]⟩

/-- The outbox of a connection stays when the connection is gone. -/
theorem exists_line_of_entered (hc : h.Coherent) {ds : List Deed} (hm : id ∈ h.entered ds) :
    ∃ l, (h.deeds ds).line? id = some l := by
  induction ds generalizing h with
  | nil => exact nomatch hm
  | cons d ds ih =>
    rcases List.mem_append.1 hm with hm | hm
    · obtain ⟨c, capacity, hl⟩ := line?_of_enters hm
      obtain ⟨l, hl, _⟩ := told_deeds (hc.deed d) hl (Line.told_new id c capacity) ds
      exact ⟨l, hl⟩
    · exact ih (hc.deed d) hm

/-- A connection that registers during the deeds was told nothing before them. -/
theorem told_deeds_of_none (hc : h.Coherent) (hl : h.line? id = none) {ds : List Deed}
    (hl' : (h.deeds ds).line? id = some l) : l.Told (h.history id ds) := by
  induction ds generalizing h with
  | nil => exact nomatch hl.symm.trans hl'
  | cons d ds ih =>
    have hnone : h.placed id d = [] := by
      have hwaiting : (h.deed d).waiting id = [] := by
        rcases line?_deed_of_none hc hl d with hn | ⟨c, capacity, hs⟩
        · exact waiting_eq_nil hn
        · exact waiting_eq_of_line? hs
      unfold placed
      rw [hwaiting, List.drop_nil, ite_self]
    rw [history, hnone, List.nil_append]
    rcases line?_deed_of_none hc hl d with hn | ⟨c, capacity, hs⟩
    · exact ih (hc.deed d) hn hl'
    · obtain ⟨l₁, hl₁, ht⟩ := told_deeds (hc.deed d) hs (Line.told_new id c capacity) ds
      obtain rfl := Option.some.inj (hl₁.symm.trans hl')
      exact ht

end

/-! ## Removing what is removed -/

section

variable {h : Hub} {id : ConnectionId}

theorem Coherent.detach_of_get?_eq_none (hc : h.Coherent) (hg : h.get? id = none) :
    h.detach id = (h, none) := by
  have hr : h.rooms.get? id = none := by
    cases hr : h.rooms.get? id with
    | none => rfl
    | some room =>
      obtain ⟨c, hb⟩ := hc.found id room hr
      exact nomatch hg.symm.trans (hc.bucket_get?_iff.1 hb).1
  unfold Hub.detach
  rw [hr]

theorem Coherent.unregister_of_get?_eq_none (hc : h.Coherent) (hg : h.get? id = none) :
    h.unregister id = (h, none) := by
  unfold Hub.unregister
  rw [hc.detach_of_get?_eq_none hg]

theorem Coherent.closeConnection_of_get?_eq_none (hc : h.Coherent) (hg : h.get? id = none) :
    h.closeConnection id = (h, false) := by
  unfold Hub.closeConnection
  rw [hc.detach_of_get?_eq_none hg]

theorem send_of_get?_eq_none (hg : h.get? id = none) (f : Frame) :
    h.send id f = (h, some (notConnected id)) := by
  unfold send
  rw [hg]

/-- A room without connections has no bucket. -/
theorem Coherent.buckets_get?_eq_none (hc : h.Coherent) {room : String}
    (hnone : ∀ id c, h.get? id = some c → c.room ≠ room) : h.buckets.get? room = none := by
  cases hb : h.buckets.get? room with
  | none => rfl
  | some b =>
    obtain ⟨id, c, hin⟩ := hc.inhabited room b hb
    have hbucket : (h.bucket room).get? id = some c := by
      unfold bucket
      rw [hb]
      exact hin
    obtain ⟨hg, hroom⟩ := hc.bucket_get?_iff.1 hbucket
    exact absurd hroom (hnone id c hg)

theorem Coherent.closeRoom_of_none (hc : h.Coherent) {room : String}
    (hnone : ∀ id c, h.get? id = some c → c.room ≠ room) : h.closeRoom room = (h, 0) := by
  have hb : h.buckets.get? room = none := hc.buckets_get?_eq_none hnone
  have hkeys : (h.bucket room).keys = [] := by
    unfold bucket
    rw [hb]
    rfl
  have hrooms : h.rooms.filter (fun id _ => !([] : List ConnectionId).contains id) = h.rooms :=
    Table.filter_eq_self fun _ _ _ => rfl
  have houtboxes : h.outboxes.map (fun id o =>
      if ([] : List ConnectionId).contains id then o.close else o) = h.outboxes :=
    Table.map_eq_self fun _ _ => rfl
  unfold Hub.closeRoom
  dsimp only
  rw [hkeys, Table.erase_of_get?_eq_none hb, hrooms, houtboxes]
  rfl

theorem Coherent.closeRoomWith_of_none (hc : h.Coherent) {room : String}
    (hnone : ∀ id c, h.get? id = some c → c.room ≠ room) (f : Frame) :
    h.closeRoomWith room f = (h, 0) := by
  have hnobody : (h.connections room).map (·.id) = [] := by
    refine List.eq_nil_iff_forall_not_mem.2 fun id hm => ?_
    obtain ⟨c, hg, hroom⟩ := hc.mem_connections_ids.1 hm
    exact hnone id c hg hroom
  unfold closeRoomWith
  rw [hnobody]
  exact hc.closeRoom_of_none hnone

theorem Coherent.closeWallet_of_none (hc : h.Coherent) {room wallet : String}
    (hnone : ∀ id c, h.get? id = some c → ¬ (c.room = room ∧ c.wallet = wallet)) :
    h.closeWallet room wallet = (h, 0) := by
  have hnobody : (h.bucket room).values.filter (·.wallet == wallet) = [] := by
    refine List.filter_eq_nil_iff.2 fun c hm hw => ?_
    obtain ⟨id, hb⟩ := Table.mem_values_iff.1 hm
    obtain ⟨hg, hroom⟩ := hc.bucket_get?_iff.1 hb
    exact hnone id c hg ⟨hroom, beq_iff_eq.1 hw⟩
  unfold Hub.closeWallet
  rw [hnobody]
  rfl

theorem Coherent.prune_of_none (hc : h.Coherent) {maxIdleMs : Nat} {now : Instant}
    (hnone : ∀ id c, h.get? id = some c → ¬ c.lastPing < pingLimit maxIdleMs now) :
    h.prune maxIdleMs now = (h, []) := by
  have hnobody : (h.all.filter fun c => c.lastPing < pingLimit maxIdleMs now) = [] := by
    refine List.filter_eq_nil_iff.2 fun c hm hlate => ?_
    exact hnone c.id c (hc.mem_all.1 hm) (of_decide_eq_true hlate)
  unfold Hub.prune
  rw [hnobody]
  rfl

/-- What is late when connections are pruned is gone afterwards. -/
theorem not_late_of_prune (hc : h.Coherent) {maxIdleMs : Nat} {now : Instant} {c : Connection}
    (hg : (h.prune maxIdleMs now).1.get? id = some c) : ¬ c.lastPing < pingLimit maxIdleMs now := by
  intro hlate
  have hended := (ended_prune h maxIdleMs now id).1
  split at hended
  · exact nomatch hended.symm.trans hg
  · rename_i hnot
    have hlive : h.get? id = some c := hended.symm.trans hg
    obtain ⟨_, rfl⟩ := hc.get?_rooms hlive
    exact hnot (List.mem_map.2
      ⟨c, List.mem_filter.2 ⟨hc.mem_all.2 hlive, decide_eq_true hlate⟩, rfl⟩)

/-- To remove the same once more changes nothing at all. -/
theorem deed_again (hc : h.Coherent) {d : Deed} (hd : d.removes = true) :
    (h.deed d).deed d = h.deed d := by
  have hc' : (h.deed d).Coherent := hc.deed d
  cases d with
  | shutRoom room =>
    have hnone : ∀ id c, (h.closeRoom room).1.get? id = some c → c.room ≠ room :=
      fun id c hg => ((get?_closeRoom hc).1 hg).2
    exact (Prod.ext_iff.1 (Coherent.closeRoom_of_none hc' hnone)).1
  | act a =>
    cases a with
    | unregister id =>
      have hnone : (h.unregister id).1.get? id = none := by rw [get?_unregister, if_pos rfl]
      exact (Prod.ext_iff.1 (Coherent.unregister_of_get?_eq_none hc' hnone)).1
    | closeConnection id =>
      have hnone : (h.closeConnection id).1.get? id = none := by
        rw [get?_closeConnection, if_pos rfl]
      exact (Prod.ext_iff.1 (Coherent.closeConnection_of_get?_eq_none hc' hnone)).1
    | closeRoom room f =>
      have hnone : ∀ id c, (h.closeRoomWith room f).1.get? id = some c → c.room ≠ room :=
        fun id c hg => room_ne_of_closeRoomWith hc hg
      exact (Prod.ext_iff.1 (Coherent.closeRoomWith_of_none hc' hnone f)).1
    | closeWallet room wallet =>
      have hnone : ∀ id c, (h.closeWallet room wallet).1.get? id = some c →
          ¬ (c.room = room ∧ c.wallet = wallet) := fun id c hg => not_seated_of_closeWallet hc hg
      exact (Prod.ext_iff.1 (Coherent.closeWallet_of_none hc' hnone)).1
    | prune maxIdleMs now =>
      have hnone : ∀ id c, (h.prune maxIdleMs now).1.get? id = some c →
          ¬ c.lastPing < pingLimit maxIdleMs now := fun id c hg => not_late_of_prune hc hg
      exact (Prod.ext_iff.1 (Coherent.prune_of_none hc' hnone)).1
    | _ => exact nomatch hd

end

/-! ## The whole of a connection -/

/-- After a run that starts with no connection, a connection with the outbox `o` was told to stop
just if it was removed, and once. -/
structure ToldOnce (ds : List Deed) (id : ConnectionId) (o : Outbox) : Prop where
  /-- A live connection was told nothing. -/
  live : (empty.deeds ds).get? id ≠ none → .close ∉ empty.history id ds ∧ o.cancelled = false
  /-- A removed one either has a close, behind all else that was ever put into its outbox, or is
  cancelled. -/
  gone : (empty.deeds ds).get? id = none →
    (∃ before, empty.history id ds = before ++ [.close] ∧ .close ∉ before ∧
      o.cancelled = false) ∨ .close ∉ empty.history id ds ∧ o.cancelled = true
  /-- Whatever is done then, by others than its reader, it is left alone. -/
  untouched : (empty.deeds ds).get? id = none → ∀ d, d.isReading = false →
    Untouched (empty.deeds ds) ((empty.deeds ds).deed d) id
  /-- What names it finds nothing. -/
  unknown : (empty.deeds ds).get? id = none →
    (empty.deeds ds).unregister id = (empty.deeds ds, none) ∧
    (empty.deeds ds).closeConnection id = (empty.deeds ds, false) ∧
    ∀ f, (empty.deeds ds).send id f = (empty.deeds ds, some (notConnected id))
  again : ∀ d, d.removes = true → ((empty.deeds ds).deed d).deed d = (empty.deeds ds).deed d

/-- Each connection that ever registered is told to stop when it is removed, and never again. -/
theorem toldOnce_of_run (ds : List Deed) (id : ConnectionId) (hid : id ∈ empty.entered ds) :
    ∃ o, (empty.deeds ds).outbox? id = some o ∧ ToldOnce ds id o := by
  have hc : (empty.deeds ds).Coherent := coherent_empty.deeds ds
  obtain ⟨l, hl⟩ := exists_line_of_entered coherent_empty hid
  have ht := told_deeds_of_none coherent_empty rfl hl
  obtain ⟨ho, hg, _⟩ := line?_eq_some_iff.1 hl
  refine ⟨l.box, ho, ?_, ?_, fun hgone d hd => ?_, fun hgone => ⟨?_, ?_, ?_⟩,
    fun d => deed_again hc⟩
  · rw [hg]
    exact ht.live
  · rw [hg]
    exact ht.gone
  · have hl' := line?_deed hc hl d
    rw [Line.deed_of_ended (hg.symm.trans hgone) hd] at hl'
    obtain ⟨ho', hg', _⟩ := line?_eq_some_iff.1 hl'
    exact ⟨hg'.trans hg.symm, ho'.trans ho.symm⟩
  · exact hc.unregister_of_get?_eq_none hgone
  · exact hc.closeConnection_of_get?_eq_none hgone
  · exact send_of_get?_eq_none hgone

/-- Two connections of a room, of which the second has room for one item. It gets a pong, and then
the room is shut twice. -/
def shutTwice : List Deed :=
  [.act (.register "room" "ann" 2 ⟨0, false⟩), .act (.register "room" "bo" 1 ⟨0, false⟩),
    .act (.send 1 (.pong 1)), .act (.send 2 (.pong 2)), .shutRoom "room", .shutRoom "room",
    .act (.unregister 1), .act (.take 1 2)]

theorem toldOnce_shutTwice :
    empty.entered shutTwice = [1, 2] ∧
      (empty.deeds shutTwice).outbox? 1 = some ⟨2, [], false, false⟩ ∧
      empty.history 1 shutTwice = [.frame (.pong 1), .close] ∧
      (∃ o, (empty.deeds shutTwice).outbox? 1 = some o ∧ ToldOnce shutTwice 1 o) ∧
      (empty.deeds shutTwice).outbox? 2 = some ⟨1, [.frame (.pong 2)], false, true⟩ ∧
      empty.history 2 shutTwice = [.frame (.pong 2)] ∧
      ∃ o, (empty.deeds shutTwice).outbox? 2 = some o ∧ ToldOnce shutTwice 2 o :=
  ⟨rfl, rfl, rfl, toldOnce_of_run shutTwice 1 (by decide), rfl, rfl,
    toldOnce_of_run shutTwice 2 (by decide)⟩

end Hub

end SwapFloor
