import Mathlib.Tactic.Common
import SwapFloor.Fanout.Broadcast

/-!
# The two indexes of the hub

The hub files a connection twice: in the bucket of its room and in the index from numbers to
rooms. `Coherent` says that the two agree, that every live connection has an outbox and that no
number was given twice. Under it a connection is in a bucket exactly if `get?` finds it
(`bucket_get?_iff`), and every operation is described by what `get?` and `outbox?` find after it.

Main statements: every operation keeps `Coherent`, and `get?` after it.
-/

namespace SwapFloor.Hub

/-- The two indexes agree. -/
structure Coherent (h : Hub) : Prop where
  /-- What is in a bucket carries its own number and room, and is indexed. -/
  filed : ∀ room id c, (h.bucket room).get? id = some c →
    h.rooms.get? id = some room ∧ c.id = id ∧ c.room = room
  /-- What is indexed is in a bucket. -/
  found : ∀ id room, h.rooms.get? id = some room → ∃ c, (h.bucket room).get? id = some c
  /-- No bucket is empty. -/
  inhabited : ∀ room b, h.buckets.get? room = some b → ∃ id c, b.get? id = some c
  /-- What is indexed has an outbox. -/
  boxed : ∀ id room, h.rooms.get? id = some room → ∃ o, h.outbox? id = some o
  /-- Numbers are given in ascending order. -/
  numbered : ∀ id o, h.outbox? id = some o → id ≤ h.lastId

theorem coherent_empty : Coherent empty where
  filed _ _ _ h := nomatch h
  found _ _ h := nomatch h
  inhabited _ _ h := nomatch h
  boxed _ _ h := nomatch h
  numbered _ _ h := nomatch h

/-! ## Looking connections up -/

theorem get?_eq_some_iff {h : Hub} {id : ConnectionId} {c : Connection} :
    h.get? id = some c ↔ ∃ room, h.rooms.get? id = some room ∧ (h.bucket room).get? id = some c := by
  unfold get?
  rw [Option.bind_eq_some_iff]

theorem Coherent.get?_rooms {h : Hub} (hc : h.Coherent) {id : ConnectionId} {c : Connection}
    (hg : h.get? id = some c) : h.rooms.get? id = some c.room ∧ c.id = id := by
  obtain ⟨room, _, hb⟩ := get?_eq_some_iff.1 hg
  obtain ⟨hr, hi, rfl⟩ := hc.filed room id c hb
  exact ⟨hr, hi⟩

/-- A connection is in the bucket of its room and in no other. -/
theorem Coherent.bucket_get?_iff {h : Hub} (hc : h.Coherent) {room : String} {id : ConnectionId}
    {c : Connection} : (h.bucket room).get? id = some c ↔ h.get? id = some c ∧ c.room = room := by
  constructor
  · intro hb
    obtain ⟨hr, _, hroom⟩ := hc.filed room id c hb
    exact ⟨get?_eq_some_iff.2 ⟨room, hr, hb⟩, hroom⟩
  · rintro ⟨hg, rfl⟩
    obtain ⟨room, _, hb⟩ := get?_eq_some_iff.1 hg
    obtain ⟨_, _, hroom⟩ := hc.filed room id c hb
    rwa [hroom]

theorem Coherent.exists_outbox {h : Hub} (hc : h.Coherent) {id : ConnectionId} {c : Connection}
    (hg : h.get? id = some c) : ∃ o, h.outbox? id = some o :=
  hc.boxed id c.room (hc.get?_rooms hg).1

theorem Coherent.mem_connections {h : Hub} (hc : h.Coherent) {room : String} {c : Connection} :
    c ∈ h.connections room ↔ h.get? c.id = some c ∧ c.room = room := by
  unfold connections
  rw [List.mem_mergeSort, Table.mem_values_iff]
  constructor
  · rintro ⟨id, hb⟩
    obtain ⟨_, rfl, _⟩ := hc.filed room id c hb
    exact hc.bucket_get?_iff.1 hb
  · intro h
    exact ⟨c.id, hc.bucket_get?_iff.2 h⟩

theorem Coherent.mem_all {h : Hub} (hc : h.Coherent) {c : Connection} :
    c ∈ h.all ↔ h.get? c.id = some c := by
  unfold all
  rw [List.mem_flatMap]
  constructor
  · rintro ⟨b, hb, hcb⟩
    obtain ⟨room, hr⟩ := Table.mem_values_iff.1 hb
    obtain ⟨id, hid⟩ := Table.mem_values_iff.1 hcb
    have hbucket : (h.bucket room).get? id = some c := by
      unfold bucket; rw [hr]; exact hid
    obtain ⟨_, rfl, _⟩ := hc.filed room id c hbucket
    exact (hc.bucket_get?_iff.1 hbucket).1
  · intro hg
    have hb := hc.bucket_get?_iff.2 ⟨hg, rfl⟩
    unfold bucket at hb
    cases hr : h.buckets.get? c.room with
    | none => rw [hr] at hb; cases hb
    | some b =>
      rw [hr] at hb
      exact ⟨b, Table.mem_values_iff.2 ⟨_, hr⟩, Table.mem_values_iff.2 ⟨_, hb⟩⟩

theorem Coherent.ids_bucket {h : Hub} (hc : h.Coherent) (room : String) :
    (h.bucket room).values.map (·.id) = (h.bucket room).keys := by
  unfold Table.values Table.keys
  rw [List.map_map]
  refine List.map_congr_left fun e he => ?_
  exact (hc.filed room e.1 e.2 (Table.get?_eq_some_iff.2 he)).2.1

/-- The numbers of the connections of a room, each once. -/
theorem Coherent.nodup_connections {h : Hub} (hc : h.Coherent) (room : String) :
    ((h.connections room).map (·.id)).Nodup := by
  have hperm : ((h.connections room).map (·.id)).Perm (h.bucket room).keys :=
    hc.ids_bucket room ▸ (List.mergeSort_perm _ _).map _
  exact hperm.nodup_iff.2 (h.bucket room).nodup

theorem Coherent.mem_connections_ids {h : Hub} (hc : h.Coherent) {room : String}
    {id : ConnectionId} :
    id ∈ (h.connections room).map (·.id) ↔ ∃ c, h.get? id = some c ∧ c.room = room := by
  rw [List.mem_map]
  constructor
  · rintro ⟨c, hm, rfl⟩
    exact ⟨c, hc.mem_connections.1 hm⟩
  · rintro ⟨c, hg, hroom⟩
    obtain ⟨_, rfl⟩ := hc.get?_rooms hg
    exact ⟨c, hc.mem_connections.2 ⟨hg, hroom⟩, rfl⟩

/-! ## Removing a connection -/

theorem bucket_detach (h : Hub) (id id' : ConnectionId) (room : String) :
    ((h.detach id).1.bucket room).get? id'
      = if id' = id ∧ h.rooms.get? id = some room then none else (h.bucket room).get? id' := by
  unfold detach
  cases hr : h.rooms.get? id with
  | none => simp
  | some r =>
    dsimp only [bucket]
    by_cases hroom : room = r
    · subst hroom
      split
      · rename_i hempty
        have hnone := Table.isEmpty_iff.1 hempty id'
        rw [Table.get?_erase] at hnone
        rw [Table.get?_erase, if_pos rfl]
        by_cases hid : id' = id
        · simp [hid]
        · simpa [hid] using hnone.symm
      · rw [Table.get?_insert, if_pos rfl, Option.getD_some, Table.get?_erase]
        simp
    · have hne : ¬ (id' = id ∧ some r = some room) := fun e => hroom (Option.some.inj e.2).symm
      rw [if_neg hne]
      split
      · rw [Table.get?_erase, if_neg hroom]
      · rw [Table.get?_insert, if_neg hroom]

theorem get?_detach (h : Hub) (id id' : ConnectionId) :
    (h.detach id).1.get? id' = if id' = id then none else h.get? id' := by
  unfold get?
  rw [get?_detach_rooms]
  by_cases hid : id' = id
  · simp [hid]
  · simp only [hid, if_false]
    cases h.rooms.get? id' with
    | none => rfl
    | some room => simp [bucket_detach, hid]

theorem detach_snd (h : Hub) (id : ConnectionId) : (h.detach id).2 = h.get? id := by
  unfold detach get?
  cases h.rooms.get? id <;> rfl

theorem buckets_detach {h : Hub} {id : ConnectionId} {room : String}
    {b : Table ConnectionId Connection} (hb : (h.detach id).1.buckets.get? room = some b) :
    (∃ id' c, b.get? id' = some c) ∨ h.buckets.get? room = some b := by
  unfold detach at hb
  cases hr : h.rooms.get? id with
  | none =>
    rw [hr] at hb
    exact Or.inr hb
  | some r =>
    rw [hr] at hb
    dsimp only at hb
    split at hb
    · rw [Table.get?_erase] at hb
      split at hb
      · cases hb
      · exact Or.inr hb
    · rename_i hempty
      rw [Table.get?_insert] at hb
      split at hb
      · obtain rfl := Option.some.inj hb
        left
        by_contra hnone
        simp only [not_exists] at hnone
        exact hempty (Table.isEmpty_iff.2 fun k => Option.eq_none_iff_forall_ne_some.2 (hnone k))
      · exact Or.inr hb

theorem Coherent.detach {h : Hub} (hc : h.Coherent) (id : ConnectionId) :
    (h.detach id).1.Coherent where
  filed room id' c hb := by
    rw [bucket_detach] at hb
    split at hb
    · cases hb
    · rename_i hne
      obtain ⟨hr, hi, hroom⟩ := hc.filed room id' c hb
      rw [get?_detach_rooms, if_neg fun e => hne ⟨e, e ▸ hr⟩]
      exact ⟨hr, hi, hroom⟩
  found id' room hr := by
    rw [get?_detach_rooms] at hr
    split at hr
    · cases hr
    · rename_i hne
      obtain ⟨c, hb⟩ := hc.found id' room hr
      exact ⟨c, by rw [bucket_detach, if_neg fun e => hne e.1]; exact hb⟩
  inhabited room b hb := (buckets_detach hb).elim (fun h => h) (hc.inhabited room b)
  boxed id' room hr := by
    rw [get?_detach_rooms] at hr
    split at hr
    · cases hr
    · simpa [outbox?] using hc.boxed id' room hr
  numbered id' o ho := by
    simp only [outbox?, detach_outboxes, detach_lastId] at ho ⊢
    exact hc.numbered id' o ho

/-! ## Adding a connection -/

/-- The connection that is registered next. -/
def nextConnection (h : Hub) (room wallet : String) (now : Instant) : Connection :=
  ⟨h.lastId + 1, room, wallet, now, Int64.ofInt now.millis⟩

theorem bucket_register (h : Hub) (room wallet : String) (capacity : Nat) (now : Instant)
    (id' : ConnectionId) (room' : String) :
    ((h.register room wallet capacity now).1.bucket room').get? id'
      = if room' = room ∧ id' = h.lastId + 1 then some (h.nextConnection room wallet now)
        else (h.bucket room').get? id' := by
  show (((h.buckets.insert room _).get? room').getD .empty).get? id' = _
  rw [Table.get?_insert]
  by_cases hroom : room' = room
  · subst hroom
    rw [if_pos rfl, Option.getD_some, Table.get?_insert]
    simp [nextConnection]
  · rw [if_neg hroom, if_neg fun e => hroom e.1]
    rfl

theorem rooms_register (h : Hub) (room wallet : String) (capacity : Nat) (now : Instant)
    (id' : ConnectionId) :
    (h.register room wallet capacity now).1.rooms.get? id'
      = if id' = h.lastId + 1 then some room else h.rooms.get? id' :=
  Table.get?_insert ..

theorem outbox?_register (h : Hub) (room wallet : String) (capacity : Nat) (now : Instant)
    (id' : ConnectionId) :
    (h.register room wallet capacity now).1.outbox? id'
      = if id' = h.lastId + 1 then some (.new capacity) else h.outbox? id' :=
  Table.get?_insert ..

/-- The number that is given next is not in use. -/
theorem Coherent.outbox?_next {h : Hub} (hc : h.Coherent) : h.outbox? (h.lastId + 1) = none := by
  cases ho : h.outbox? (h.lastId + 1) with
  | none => rfl
  | some o => exact absurd (hc.numbered _ o ho) (Nat.not_succ_le_self _)

theorem Coherent.rooms_next {h : Hub} (hc : h.Coherent) : h.rooms.get? (h.lastId + 1) = none := by
  cases hr : h.rooms.get? (h.lastId + 1) with
  | none => rfl
  | some room =>
    obtain ⟨o, ho⟩ := hc.boxed _ room hr
    exact nomatch ho.symm.trans hc.outbox?_next

theorem get?_register (h : Hub) (room wallet : String) (capacity : Nat)
    (now : Instant) (id' : ConnectionId) :
    (h.register room wallet capacity now).1.get? id'
      = if id' = h.lastId + 1 then some (h.nextConnection room wallet now) else h.get? id' := by
  unfold get?
  rw [rooms_register]
  by_cases hid : id' = h.lastId + 1
  · simp [hid, bucket_register]
  · simp only [hid, if_false]
    cases h.rooms.get? id' with
    | none => rfl
    | some room => simp [bucket_register, hid]

theorem Coherent.register {h : Hub} (hc : h.Coherent) (room wallet : String) (capacity : Nat)
    (now : Instant) : (h.register room wallet capacity now).1.Coherent where
  filed room' id' c hb := by
    rw [bucket_register] at hb
    rw [rooms_register]
    split at hb
    · rename_i he
      obtain ⟨rfl, rfl⟩ := he
      obtain rfl := Option.some.inj hb
      exact ⟨if_pos rfl, rfl, rfl⟩
    · obtain ⟨hr, hi, hroom⟩ := hc.filed room' id' c hb
      have hid : id' ≠ h.lastId + 1 := by
        rintro rfl
        cases hr.symm.trans hc.rooms_next
      exact ⟨by rw [if_neg hid]; exact hr, hi, hroom⟩
  found id' room' hr := by
    rw [rooms_register] at hr
    rw [bucket_register]
    split at hr
    · rename_i hid
      obtain rfl := Option.some.inj hr
      exact ⟨_, if_pos ⟨rfl, hid⟩⟩
    · rename_i hid
      rw [if_neg fun e => hid e.2]
      exact hc.found id' room' hr
  inhabited room' b hb := by
    have hget : (h.buckets.insert room ((h.bucket room).insert (h.lastId + 1) _)).get? room' = _ :=
      hb
    rw [Table.get?_insert] at hget
    split at hget
    · obtain rfl := Option.some.inj hget
      exact ⟨h.lastId + 1, _, by rw [Table.get?_insert, if_pos rfl]⟩
    · exact hc.inhabited room' b hget
  boxed id' room' hr := by
    rw [rooms_register] at hr
    rw [outbox?_register]
    split at hr
    · rename_i hid
      exact ⟨_, if_pos hid⟩
    · rename_i hid
      rw [if_neg hid]
      exact hc.boxed id' room' hr
  numbered id' o ho := by
    rw [outbox?_register] at ho
    show id' ≤ h.lastId + 1
    split at ho
    · rename_i hid
      exact Nat.le_of_eq hid
    · exact Nat.le_succ_of_le (hc.numbered id' o ho)

/-! ## Outboxes -/

theorem outbox?_onOutbox (h : Hub) (id id' : ConnectionId) (f : Outbox → Outbox) :
    (h.onOutbox id f).outbox? id' = if id' = id then (h.outbox? id').map f else h.outbox? id' :=
  Table.get?_modify ..

@[simp] theorem get?_onOutbox (h : Hub) (id id' : ConnectionId) (f : Outbox → Outbox) :
    (h.onOutbox id f).get? id' = h.get? id' := rfl

@[simp] theorem outbox?_detach (h : Hub) (id id' : ConnectionId) :
    (h.detach id).1.outbox? id' = h.outbox? id' := by
  unfold outbox?
  rw [detach_outboxes]

/-- Whatever happens to the outboxes, the indexes stay as they are. -/
theorem Coherent.of_outboxes {h h' : Hub} (hc : h.Coherent) (hb : h'.buckets = h.buckets)
    (hr : h'.rooms = h.rooms) (hl : h'.lastId = h.lastId)
    (ho : ∀ id, (h'.outbox? id).isSome = (h.outbox? id).isSome) : h'.Coherent where
  filed := by unfold bucket; rw [hb, hr]; exact hc.filed
  found := by unfold bucket; rw [hb, hr]; exact hc.found
  inhabited := by rw [hb]; exact hc.inhabited
  boxed id room h' := by
    rw [hr] at h'
    rw [← Option.isSome_iff_exists, ho, Option.isSome_iff_exists]
    exact hc.boxed id room h'
  numbered id o h' := by
    obtain ⟨o', ho'⟩ := Option.isSome_iff_exists.1 ((ho id).symm.trans (by rw [h']; rfl))
    rw [hl]
    exact hc.numbered id o' ho'

theorem isSome_outbox?_onOutbox (h : Hub) (id id' : ConnectionId) (f : Outbox → Outbox) :
    ((h.onOutbox id f).outbox? id').isSome = (h.outbox? id').isSome := by
  rw [outbox?_onOutbox]
  split
  · exact Option.isSome_map ..
  · rfl

theorem Coherent.onOutbox {h : Hub} (hc : h.Coherent) (id : ConnectionId) (f : Outbox → Outbox) :
    (h.onOutbox id f).Coherent :=
  hc.of_outboxes rfl rfl rfl fun id' => isSome_outbox?_onOutbox h id id' f

/-! ## Ending connections -/

theorem get?_unregister (h : Hub) (id id' : ConnectionId) :
    (h.unregister id).1.get? id' = if id' = id then none else h.get? id' := by
  rw [← get?_detach]
  unfold unregister
  split
  · rename_i he
    rw [get?_onOutbox, he]
  · rename_i he
    rw [he]

theorem outbox?_unregister (h : Hub) (id id' : ConnectionId) :
    (h.unregister id).1.outbox? id'
      = if id' = id ∧ (h.get? id).isSome then (h.outbox? id').map .cancel else h.outbox? id' := by
  rw [← detach_snd, ← outbox?_detach h id id']
  unfold unregister
  split
  · rename_i he
    rw [outbox?_onOutbox, he]
    simp
  · rename_i he
    rw [he]
    simp

theorem Coherent.unregister {h : Hub} (hc : h.Coherent) (id : ConnectionId) :
    (h.unregister id).1.Coherent := by
  have hd := hc.detach id
  unfold Hub.unregister
  split
  · rename_i he
    rw [he] at hd
    exact hd.onOutbox id _
  · rename_i he
    rw [he] at hd
    exact hd

theorem get?_closeConnection (h : Hub) (id id' : ConnectionId) :
    (h.closeConnection id).1.get? id' = if id' = id then none else h.get? id' := by
  rw [← get?_detach]
  unfold closeConnection
  split
  · rename_i he
    rw [get?_onOutbox, he]
  · rename_i he
    rw [he]

theorem Coherent.closeConnection {h : Hub} (hc : h.Coherent) (id : ConnectionId) :
    (h.closeConnection id).1.Coherent := by
  have hd := hc.detach id
  unfold Hub.closeConnection
  split
  · rename_i he
    rw [he] at hd
    exact hd.onOutbox id _
  · rename_i he
    rw [he] at hd
    exact hd

theorem bucket_closeRoom (h : Hub) (room room' : String) :
    (h.closeRoom room).1.bucket room' = if room' = room then .empty else h.bucket room' := by
  show ((h.buckets.erase room).get? room').getD .empty = _
  rw [Table.get?_erase]
  split <;> rfl

theorem rooms_closeRoom {h : Hub} (hc : h.Coherent) (room : String) (id : ConnectionId) :
    (h.closeRoom room).1.rooms.get? id
      = if h.rooms.get? id = some room then none else h.rooms.get? id := by
  show (h.rooms.filter fun id _ => !(h.bucket room).keys.contains id).get? id = _
  rw [Table.get?_filter]
  cases hr : h.rooms.get? id with
  | none => rfl
  | some r =>
    have hmem : id ∈ (h.bucket room).keys ↔ r = room := by
      rw [Table.mem_keys_iff]
      constructor
      · rintro ⟨c, hb⟩
        exact Option.some.inj (hr.symm.trans (hc.filed room id c hb).1)
      · rintro rfl
        exact hc.found id r hr
    by_cases he : r = room
    · simp [Option.filter, hmem, he]
    · simp [Option.filter, hmem, he]

theorem get?_closeRoom {h : Hub} (hc : h.Coherent) {room : String} {id : ConnectionId}
    {c : Connection} :
    (h.closeRoom room).1.get? id = some c ↔ h.get? id = some c ∧ c.room ≠ room := by
  rw [get?_eq_some_iff]
  constructor
  · rintro ⟨r, hr, hb⟩
    rw [rooms_closeRoom hc] at hr
    rw [bucket_closeRoom] at hb
    split at hb
    · cases hb
    · rename_i hne
      obtain ⟨hg, rfl⟩ := hc.bucket_get?_iff.1 hb
      exact ⟨hg, hne⟩
  · rintro ⟨hg, hne⟩
    refine ⟨c.room, ?_, ?_⟩
    · rw [rooms_closeRoom hc, (hc.get?_rooms hg).1, if_neg fun e => hne (Option.some.inj e)]
    · rw [bucket_closeRoom, if_neg hne]
      exact hc.bucket_get?_iff.2 ⟨hg, rfl⟩

theorem outbox?_closeRoom (h : Hub) (room : String) (id : ConnectionId) :
    (h.closeRoom room).1.outbox? id = (h.outbox? id).map fun o =>
      if (h.bucket room).keys.contains id then o.close else o :=
  Table.get?_map ..

theorem Coherent.closeRoom {h : Hub} (hc : h.Coherent) (room : String) :
    (h.closeRoom room).1.Coherent where
  filed room' id c hb := by
    rw [bucket_closeRoom] at hb
    split at hb
    · cases hb
    · rename_i hne
      obtain ⟨hr, hi, hroom⟩ := hc.filed room' id c hb
      rw [rooms_closeRoom hc, hr, if_neg fun e => hne (Option.some.inj e)]
      exact ⟨rfl, hi, hroom⟩
  found id room' hr := by
    rw [rooms_closeRoom hc] at hr
    split at hr
    · cases hr
    · rename_i hne
      rw [bucket_closeRoom, if_neg (by rintro rfl; exact hne hr)]
      exact hc.found id room' hr
  inhabited room' b hb := by
    have hget : (h.buckets.erase room).get? room' = some b := hb
    rw [Table.get?_erase] at hget
    split at hget
    · cases hget
    · exact hc.inhabited room' b hget
  boxed id room' hr := by
    rw [rooms_closeRoom hc] at hr
    split at hr
    · cases hr
    · obtain ⟨o, ho⟩ := hc.boxed id room' hr
      exact ⟨_, by rw [outbox?_closeRoom, ho]; rfl⟩
  numbered id o ho := by
    rw [outbox?_closeRoom, Option.map_eq_some_iff] at ho
    obtain ⟨o', ho', _⟩ := ho
    exact hc.numbered id o' ho'

/-! ## Pings -/

/-- A connection with a later ping. -/
def pinged (now : Instant) (c : Connection) : Connection :=
  { c with lastPing := Int64.ofInt now.millis }

theorem bucket_touch {h : Hub} (hc : h.Coherent) (id id' : ConnectionId) (now : Instant)
    (room : String) : ((h.touch id now).bucket room).get? id'
      = ((h.bucket room).get? id').map fun c => if id' = id then pinged now c else c := by
  unfold touch
  cases hg : h.get? id with
  | none =>
    cases hb : (h.bucket room).get? id' with
    | none => simp
    | some c =>
      have hid : id' ≠ id := fun e => nomatch (e ▸ (hc.bucket_get?_iff.1 hb).1).symm.trans hg
      simp [hid]
  | some c =>
    show (((h.buckets.modify c.room _).get? room).getD .empty).get? id' = _
    rw [Table.get?_modify]
    by_cases hroom : room = c.room
    · rw [if_pos hroom]
      unfold bucket
      cases h.buckets.get? room with
      | none => rfl
      | some b =>
        rw [Option.map_some, Option.getD_some, Option.getD_some, Table.get?_modify]
        by_cases hid : id' = id <;> simp [hid, pinged]
    · rw [if_neg hroom]
      cases hb : (h.bucket room).get? id' with
      | none => simpa [bucket] using hb
      | some c' =>
        have hid : id' ≠ id := by
          rintro rfl
          obtain ⟨hg', hr'⟩ := hc.bucket_get?_iff.1 hb
          exact hroom (by rw [Option.some.inj (hg.symm.trans hg'), hr'])
        simpa [bucket, hid] using hb

@[simp] theorem rooms_touch (h : Hub) (id : ConnectionId) (now : Instant) :
    (h.touch id now).rooms = h.rooms := by
  unfold touch; split <;> rfl

@[simp] theorem outbox?_touch (h : Hub) (id id' : ConnectionId) (now : Instant) :
    (h.touch id now).outbox? id' = h.outbox? id' := by
  unfold touch; split <;> rfl

theorem get?_touch {h : Hub} (hc : h.Coherent) (id id' : ConnectionId) (now : Instant) :
    (h.touch id now).get? id'
      = (h.get? id').map fun c => if id' = id then pinged now c else c := by
  unfold get?
  rw [rooms_touch]
  cases h.rooms.get? id' with
  | none => rfl
  | some room => exact bucket_touch hc id id' now room

theorem Coherent.touch {h : Hub} (hc : h.Coherent) (id : ConnectionId) (now : Instant) :
    (h.touch id now).Coherent where
  filed room id' c hb := by
    rw [bucket_touch hc, Option.map_eq_some_iff] at hb
    obtain ⟨c', hb', rfl⟩ := hb
    rw [rooms_touch]
    obtain ⟨hr, hi, hroom⟩ := hc.filed room id' c' hb'
    split
    · exact ⟨hr, hi, hroom⟩
    · exact ⟨hr, hi, hroom⟩
  found id' room hr := by
    rw [rooms_touch] at hr
    obtain ⟨c, hb⟩ := hc.found id' room hr
    exact ⟨_, by rw [bucket_touch hc, hb]; rfl⟩
  inhabited room b hb := by
    have hb' : (h.touch id now).bucket room = b := by unfold bucket; rw [hb]; rfl
    rw [← hb']
    have hsome : ∃ b', h.buckets.get? room = some b' := by
      unfold Hub.touch at hb
      split at hb
      · exact ⟨b, hb⟩
      · simp only [Table.get?_modify] at hb
        split at hb
        · obtain ⟨b', hb', _⟩ := Option.map_eq_some_iff.1 hb
          exact ⟨b', hb'⟩
        · exact ⟨b, hb⟩
    obtain ⟨b', hb''⟩ := hsome
    obtain ⟨id', c, hc'⟩ := hc.inhabited room b' hb''
    have hget : (h.bucket room).get? id' = some c := by unfold bucket; rw [hb'']; exact hc'
    exact ⟨id', _, by rw [bucket_touch hc, hget]; rfl⟩
  boxed id' room hr := by
    rw [rooms_touch] at hr
    rw [outbox?_touch]
    exact hc.boxed id' room hr
  numbered id' o ho := by
    rw [outbox?_touch] at ho
    have : (h.touch id now).lastId = h.lastId := by unfold Hub.touch; split <;> rfl
    rw [this]
    exact hc.numbered id' o ho

end SwapFloor.Hub
