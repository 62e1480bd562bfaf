import Mathlib.Algebra.GroupWithZero.Nat
import Mathlib.Data.List.Nodup
import Mathlib.Data.List.Perm.Basic
import SwapFloor.Proofs.Fanout.Farewell

/-!
# Every connection is filed twice

A live connection is in the bucket of its room and in the index from numbers to rooms. The
operations change the two one after the other, and delivering to the connections of a room may
remove some of them on the way. `Filed` says how the two agree and how they are counted.

Main statement: `Filed` holds after any changes (`filed_of_run`), each number being one that was
given once.
-/

namespace SwapFloor.Hub

/-! ## Changes -/

/-- What may change the indexes, and what happens to outboxes meanwhile. A broadcast is a delivery
to one connection after the other; a delivery may come late, to one that was removed. -/
inductive Change where
  | register (room wallet : String) (capacity : Nat) (now : Instant)
  | unregister (id : ConnectionId)
  | closeRoom (room : String)
  | closeConnection (id : ConnectionId)
  | closeWallet (room wallet : String)
  | prune (maxIdleMs : Nat) (now : Instant)
  | deliver (id : ConnectionId) (f : Frame)
  | ping (id : ConnectionId) (now : Instant)
  | outbox (id : ConnectionId) (f : Outbox → Outbox)

def change (h : Hub) : Change → Hub
  | .register room wallet capacity now => (h.register room wallet capacity now).1
  | .unregister id => (h.unregister id).1
  | .closeRoom room => (h.closeRoom room).1
  | .closeConnection id => (h.closeConnection id).1
  | .closeWallet room wallet => (h.closeWallet room wallet).1
  | .prune maxIdleMs now => (h.prune maxIdleMs now).1
  | .deliver id f => (h.deliver id f).1
  | .ping id now => h.touch id now
  | .outbox id f => h.onOutbox id f

/-- The hub after one change after the other. -/
def changes (h : Hub) (cs : List Change) : Hub := cs.foldl change h

/-- The number that a change gives to a connection, if it registers one. -/
def issue (h : Hub) : Change → List ConnectionId
  | .register room wallet capacity now => [(h.register room wallet capacity now).2.id]
  | _ => []

/-- The numbers that changes give to connections, one after the other. -/
def issued (h : Hub) : List Change → List ConnectionId
  | [] => []
  | c :: cs => h.issue c ++ (h.change c).issued cs

section

variable {h : Hub}

/-- A change that registers nobody adds no connection. -/
theorem thinned_change (h : Hub) {c : Change} (hc : h.issue c = []) : Thinned h (h.change c) := by
  have honward : ∀ {h' : Hub}, Onward (fun _ => True) h h' → Thinned h h' :=
    fun ho => ho.toThinned
  cases c with
  | register room wallet capacity now => exact nomatch hc
  | unregister id => exact honward (onward_unregister _ h id)
  | closeRoom room => exact honward (onward_closeRoom _ h room)
  | closeConnection id => exact honward (onward_closeConnection _ h id)
  | closeWallet room wallet => exact honward (onward_closeWallet _ h room wallet)
  | prune maxIdleMs now => exact honward (onward_prune _ h maxIdleMs now)
  | deliver id f => exact honward (onward_deliver h id trivial)
  | ping id now => exact honward (onward_touch _ h id now)
  | outbox id f => exact thinned_onOutbox h id f

theorem Coherent.change (hc : h.Coherent) (c : Change) : (h.change c).Coherent := by
  cases c with
  | register room wallet capacity now => exact hc.register room wallet capacity now
  | _ => exact (thinned_change h rfl).coherent hc

theorem Coherent.changes (hc : h.Coherent) (cs : List Change) : (h.changes cs).Coherent := by
  induction cs generalizing h with
  | nil => exact hc
  | cons c cs ih => exact ih (hc.change c)

/-! ## Numbers -/

theorem lastId_foldl {α β : Type} {step : Hub × β → α → Hub × β}
    (hstep : ∀ s a, (step s a).1.lastId = s.1.lastId) (as : List α) (s : Hub × β) :
    (as.foldl step s).1.lastId = s.1.lastId := by
  induction as generalizing s with
  | nil => rfl
  | cons a as ih => exact (ih (step s a)).trans (hstep s a)

@[simp] theorem lastId_unregister (h : Hub) (id : ConnectionId) :
    (h.unregister id).1.lastId = h.lastId := by
  rw [← detach_lastId h id]
  unfold unregister
  split
  · rename_i he
    rw [he]
    rfl
  · rename_i he
    rw [he]

@[simp] theorem lastId_closeConnection (h : Hub) (id : ConnectionId) :
    (h.closeConnection id).1.lastId = h.lastId := by
  rw [← detach_lastId h id]
  unfold closeConnection
  split
  · rename_i he
    rw [he]
    rfl
  · rename_i he
    rw [he]

/-- Only a registration gives a number, and it gives the next one. -/
theorem lastId_change (h : Hub) (c : Change) :
    h.issue c = [] ∧ (h.change c).lastId = h.lastId ∨
      h.issue c = [h.lastId + 1] ∧ (h.change c).lastId = h.lastId + 1 := by
  cases c with
  | register room wallet capacity now => exact Or.inr ⟨rfl, rfl⟩
  | unregister id => exact Or.inl ⟨rfl, lastId_unregister h id⟩
  | closeRoom room => exact Or.inl ⟨rfl, rfl⟩
  | closeConnection id => exact Or.inl ⟨rfl, lastId_closeConnection h id⟩
  | closeWallet room wallet =>
    refine Or.inl ⟨rfl, lastId_foldl (fun s c => ?_) _ (h, 0)⟩
    exact lastId_closeConnection s.1 c.id
  | prune maxIdleMs now =>
    refine Or.inl ⟨rfl, lastId_foldl (fun s c => ?_) _ (h, [])⟩
    have hu := lastId_unregister s.1 c.id
    dsimp only
    split <;> rename_i he <;> rw [he] at hu <;> exact hu
  | deliver id f =>
    refine Or.inl ⟨rfl, ?_⟩
    show (h.deliver id f).1.lastId = h.lastId
    unfold deliver
    split
    · rfl
    · exact lastId_unregister _ id
  | ping id now =>
    refine Or.inl ⟨rfl, ?_⟩
    show (h.touch id now).lastId = h.lastId
    unfold touch
    split <;> rfl
  | outbox id f => exact Or.inl ⟨rfl, rfl⟩

/-- Numbers are given in ascending order, without gaps. -/
theorem issued_eq_range' (h : Hub) (cs : List Change) :
    h.issued cs = List.range' (h.lastId + 1) (h.issued cs).length := by
  induction cs generalizing h with
  | nil => rfl
  | cons c cs ih =>
    have hrest := ih (h.change c)
    rcases lastId_change h c with ⟨hi, hl⟩ | ⟨hi, hl⟩
    · rw [issued, hi, List.nil_append]
      rwa [hl] at hrest
    · rw [issued, hi, List.singleton_append, List.length_cons, List.range'_succ, ← hl, ← hrest]

theorem nodup_issued (h : Hub) (cs : List Change) : (h.issued cs).Nodup := by
  rw [issued_eq_range']
  exact List.nodup_range'

/-- Who is live was live before, or was given a number since. -/
theorem live_or_issued (hc : h.Coherent) {cs : List Change} {id : ConnectionId} {c : Connection}
    (hg : (h.changes cs).get? id = some c) : (∃ c₀, h.get? id = some c₀) ∨ id ∈ h.issued cs := by
  induction cs generalizing h with
  | nil => exact Or.inl ⟨c, hg⟩
  | cons a cs ih =>
    rw [issued, List.mem_append]
    rcases ih (hc.change a) hg with ⟨c₁, hg₁⟩ | hm
    · rcases lastId_change h a with ⟨hi, _⟩ | ⟨hi, _⟩
      · obtain ⟨c₀, hg₀, _⟩ := (thinned_change h hi).live id c₁ hc hg₁
        exact Or.inl ⟨c₀, hg₀⟩
      · cases a with
        | register room wallet capacity now =>
          have hreg := get?_register h room wallet capacity now id
          split at hreg
          · rename_i hid
            exact Or.inr (Or.inl (List.mem_singleton.2 hid))
          · exact Or.inl ⟨c₁, hreg.symm.trans hg₁⟩
        | _ => exact nomatch hi
    · exact Or.inr (Or.inr hm)

/-! ## How many connections there are -/

theorem Coherent.mem_keys_rooms (hc : h.Coherent) {id : ConnectionId} :
    id ∈ h.rooms.keys ↔ ∃ c, h.get? id = some c := by
  rw [Table.mem_keys_iff]
  constructor
  · rintro ⟨room, hr⟩
    obtain ⟨c, hb⟩ := hc.found id room hr
    exact ⟨c, (hc.bucket_get?_iff.1 hb).1⟩
  · rintro ⟨c, hg⟩
    exact ⟨c.room, (hc.get?_rooms hg).1⟩

theorem Coherent.mem_keys_bucket (hc : h.Coherent) {room : String} {id : ConnectionId} :
    id ∈ (h.bucket room).keys ↔ ∃ c, h.get? id = some c ∧ c.room = room := by
  rw [Table.mem_keys_iff]
  exact exists_congr fun c => hc.bucket_get?_iff

theorem total_eq_length_keys (h : Hub) : h.total = h.rooms.keys.length :=
  (List.length_map ..).symm

/-- As many connections are missing as were ended. -/
theorem total_of_ended {h' : Hub} {how : Outbox → Outbox} {ids : List ConnectionId}
    (hc : h.Coherent) (hc' : h'.Coherent) (he : Ended how ids h h') (hn : ids.Nodup)
    (hlive : ∀ id ∈ ids, ∃ c, h.get? id = some c) : h'.total + ids.length = h.total := by
  have hgone : ∀ id, id ∈ h'.rooms.keys ↔ id ∈ h.rooms.keys ∧ id ∉ ids := by
    intro id
    rw [hc'.mem_keys_rooms, hc.mem_keys_rooms, (he id).1]
    by_cases hm : id ∈ ids
    · simp [hm]
    · simp [hm]
  have hdisjoint : (h'.rooms.keys ++ ids).Nodup :=
    List.nodup_append.2 ⟨h'.rooms.nodup, hn, fun a ha b hb hab => ((hgone a).1 ha).2 (hab ▸ hb)⟩
  have hperm : (h'.rooms.keys ++ ids).Perm h.rooms.keys := by
    refine (List.perm_ext_iff_of_nodup hdisjoint h.rooms.nodup).2 fun id => ?_
    rw [List.mem_append, hgone]
    constructor
    · rintro (⟨hm, _⟩ | hm)
      · exact hm
      · exact hc.mem_keys_rooms.2 (hlive id hm)
    · exact fun hm => (em (id ∈ ids)).symm.imp_left fun hnot => ⟨hm, hnot⟩
  rw [total_eq_length_keys, total_eq_length_keys, ← List.length_append]
  exact hperm.length_eq

theorem total_closeRoom (hc : h.Coherent) (room : String) :
    (h.closeRoom room).1.total + (h.closeRoom room).2 = h.total := by
  refine total_of_ended hc (hc.closeRoom room) (ended_closeRoom hc room) (h.bucket room).nodup ?_
  intro id hm
  obtain ⟨c, hg, _⟩ := hc.mem_keys_bucket.1 hm
  exact ⟨c, hg⟩

theorem total_closeConnection (hc : h.Coherent) (id : ConnectionId) :
    (h.closeConnection id).1.total + (if (h.closeConnection id).2 then 1 else 0) = h.total := by
  cases hg : h.get? id with
  | none =>
    rw [hc.closeConnection_of_get?_eq_none hg]
    rfl
  | some c =>
    have hclosed : (h.closeConnection id).2 = true := by
      have hd := detach_snd h id
      rw [hg] at hd
      unfold closeConnection
      split
      · rfl
      · rename_i he
        rw [he] at hd
        exact nomatch hd
    rw [hclosed]
    refine total_of_ended hc (hc.closeConnection id) (ended_closeConnection h id)
      (List.nodup_singleton id) fun i hi => ?_
    rw [List.mem_singleton.1 hi]
    exact ⟨c, hg⟩

/-- Ending one connection after the other, what is gone and what is counted stay in balance. -/
theorem total_foldl {step : Hub × Nat → Connection → Hub × Nat}
    (hstep : ∀ s c, s.1.Coherent →
      (step s c).1.Coherent ∧ (step s c).1.total + (step s c).2 = s.1.total + s.2)
    (cs : List Connection) {s : Hub × Nat} (hs : s.1.Coherent) :
    (cs.foldl step s).1.total + (cs.foldl step s).2 = s.1.total + s.2 := by
  induction cs generalizing s with
  | nil => rfl
  | cons c cs ih =>
    obtain ⟨hs', he⟩ := hstep s c hs
    exact (ih hs').trans he

theorem total_closeWallet (hc : h.Coherent) (room wallet : String) :
    (h.closeWallet room wallet).1.total + (h.closeWallet room wallet).2 = h.total := by
  refine total_foldl (fun s c hs => ⟨hs.closeConnection c.id, ?_⟩) _ (s := (h, 0)) hc
  have hone := total_closeConnection hs c.id
  show (s.1.closeConnection c.id).1.total
    + (if (s.1.closeConnection c.id).2 then s.2 + 1 else s.2) = s.1.total + s.2
  by_cases hclosed : (s.1.closeConnection c.id).2 = true
  · rw [if_pos hclosed] at hone ⊢
    omega
  · rw [if_neg hclosed] at hone ⊢
    omega

/-- Each number is in the bucket of one room. -/
theorem Coherent.nodup_keys (hc : h.Coherent) :
    (h.buckets.keys.flatMap fun room => (h.bucket room).keys).Nodup := by
  refine List.nodup_flatMap.2 ⟨fun room _ => (h.bucket room).nodup, ?_⟩
  refine List.Pairwise.imp (fun {room room'} hne => ?_) h.buckets.nodup
  intro id hm hm'
  obtain ⟨c, hg, rfl⟩ := hc.mem_keys_bucket.1 hm
  obtain ⟨c', hg', rfl⟩ := hc.mem_keys_bucket.1 hm'
  exact hne (by rw [Option.some.inj (hg.symm.trans hg')])

/-- The connections are those of all rooms together. -/
theorem Coherent.total_eq_sum (hc : h.Coherent) : h.total = (h.buckets.keys.map h.count).sum := by
  have hcount : h.buckets.keys.map h.count
      = h.buckets.keys.map fun room => (h.bucket room).keys.length :=
    List.map_congr_left fun room _ => (List.length_map ..).symm
  have hperm : h.rooms.keys.Perm (h.buckets.keys.flatMap fun room => (h.bucket room).keys) := by
    refine (List.perm_ext_iff_of_nodup h.rooms.nodup hc.nodup_keys).2 fun id => ?_
    show id ∈ h.rooms.keys ↔ _
    rw [hc.mem_keys_rooms, List.mem_flatMap]
    constructor
    · rintro ⟨c, hg⟩
      refine ⟨c.room, ?_, hc.mem_keys_bucket.2 ⟨c, hg, rfl⟩⟩
      rw [← Table.contains_iff]
      by_contra hnot
      have hb := hc.bucket_get?_iff.2 ⟨hg, rfl⟩
      unfold Table.contains at hnot
      rw [Option.not_isSome_iff_eq_none] at hnot
      unfold bucket at hb
      rw [hnot] at hb
      exact nomatch hb
    · rintro ⟨room, _, hm⟩
      obtain ⟨c, hg, _⟩ := hc.mem_keys_bucket.1 hm
      exact ⟨c, hg⟩
  rw [total_eq_length_keys, hperm.length_eq, List.length_flatMap, hcount]

end

/-! ## The two indexes together -/

/-- The two indexes hold the same connections, of numbers among `ids`. -/
structure Filed (h : Hub) (ids : List ConnectionId) : Prop where
  /-- A number leads to a room just if the bucket of that room has a connection of this number and
  room. -/
  indexed : ∀ id room, h.rooms.get? id = some room ↔
    ∃ c, (h.bucket room).get? id = some c ∧ c.id = id ∧ c.room = room
  /-- And buckets have no others. -/
  named : ∀ room id c, (h.bucket room).get? id = some c → c.id = id ∧ c.room = room
  inhabited : ∀ room b, h.buckets.get? room = some b → b.isEmpty = false
  single : ∀ room room' id, id ∈ (h.bucket room).keys → id ∈ (h.bucket room').keys → room = room'
  /-- The number of a connection was given once. -/
  issued : ∀ room id, id ∈ (h.bucket room).keys → ids.count id = 1
  total : h.total = (h.buckets.keys.map h.count).sum
  /-- A connection is found just if it is among those of its room. -/
  got : ∀ id c, h.get? id = some c ↔ c ∈ h.connections c.room ∧ c.id = id
  closeRoom : ∀ room, (h.closeRoom room).1.total + (h.closeRoom room).2 = h.total
  closeWallet : ∀ room wallet,
    (h.closeWallet room wallet).1.total + (h.closeWallet room wallet).2 = h.total

/-- Whatever is changed in a hub that begins empty, the two indexes agree. -/
theorem filed_of_run (cs : List Change) : (empty.changes cs).Filed (empty.issued cs) := by
  have hc : (empty.changes cs).Coherent := coherent_empty.changes cs
  refine ⟨fun id room => ⟨fun hr => ?_, ?_⟩, fun room id c hb => (hc.filed room id c hb).2,
    fun room b hb => ?_, fun room room' id hm hm' => ?_, fun room id hm => ?_, hc.total_eq_sum,
    fun id c => ⟨fun hg => ?_, ?_⟩, total_closeRoom hc, total_closeWallet hc⟩
  · obtain ⟨c, hb⟩ := hc.found id room hr
    exact ⟨c, hb, (hc.filed room id c hb).2⟩
  · rintro ⟨c, hb, _⟩
    exact (hc.filed room id c hb).1
  · obtain ⟨id, c, hin⟩ := hc.inhabited room b hb
    rw [Bool.eq_false_iff]
    intro hempty
    exact nomatch hin.symm.trans (Table.isEmpty_iff.1 hempty id)
  · obtain ⟨c, hg, rfl⟩ := hc.mem_keys_bucket.1 hm
    obtain ⟨c', hg', rfl⟩ := hc.mem_keys_bucket.1 hm'
    rw [Option.some.inj (hg.symm.trans hg')]
  · obtain ⟨c, hg, _⟩ := hc.mem_keys_bucket.1 hm
    have hissued : id ∈ empty.issued cs :=
      (live_or_issued coherent_empty hg).resolve_left fun ⟨_, hn⟩ => nomatch hn
    exact List.count_eq_one_of_mem (nodup_issued empty cs) hissued
  · have hid := (hc.get?_rooms hg).2
    exact ⟨hc.mem_connections.2 ⟨hid ▸ hg, rfl⟩, hid⟩
  · rintro ⟨hm, rfl⟩
    exact (hc.mem_connections.1 hm).1

end SwapFloor.Hub
