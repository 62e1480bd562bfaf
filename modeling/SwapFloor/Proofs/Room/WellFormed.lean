import Mathlib.Data.List.Nodup
import SwapFloor.Proofs.Room.Runs

/-!
# What the lobby keeps of a room

A room lists the wallets of its members, and its members and their flows of quote are looked up by
wallet; its stage and the time of its closing say whether anyone may still be there. Different
operations move these, and `WellFormed` says how they stay together.

Main statement: whatever is done with the lobby, every entry is well formed (`wellFormed_of_run`).
-/

namespace SwapFloor

theorem Table.of_get?_insert {κ α : Type} [DecidableEq κ] {t : Table κ α} {k k' : κ} {v v' : α}
    (h : (t.insert k v).get? k' = some v') : k' = k ∧ v' = v ∨ k' ≠ k ∧ t.get? k' = some v' := by
  rw [get?_insert] at h
  split at h
  · rename_i hk
    exact Or.inl ⟨hk, (Option.some.inj h).symm⟩
  · rename_i hk
    exact Or.inr ⟨hk, h⟩

/-! ## Rooms by themselves -/

namespace Room

/-- What holds of a stored room by itself. -/
structure WellFormed (r : Room) : Prop where
  stage : r.status = .open ∨ r.status = .closed
  /-- The time of closing is known just if the room is closed. -/
  dated : r.closedAt.isSome = true ↔ r.status = .closed
  hours : 0 < r.recycleHours
  locked : r.hasPassword = true ↔ r.passwordHash.isSome = true
  creator : r.creator ≠ ""
  distinct : r.wallets.Nodup

theorem touch_eq (r : Room) (now : Instant) : ∃ t, r.touch now = { r with lastActive := t } := by
  unfold touch
  split
  · exact ⟨now, rfl⟩
  · exact ⟨r.lastActive, rfl⟩

theorem addWallet_eq (r : Room) (wallet : String) :
    ∃ ws, r.addWallet wallet = { r with wallets := ws } := by
  unfold addWallet
  split
  · exact ⟨r.wallets, rfl⟩
  · exact ⟨_, rfl⟩

namespace WellFormed

variable {r : Room}

theorem touch (h : r.WellFormed) (now : Instant) : (r.touch now).WellFormed := by
  obtain ⟨t, ht⟩ := r.touch_eq now
  rw [ht]
  exact { h with }

theorem addWallet (h : r.WellFormed) (wallet : String) : (r.addWallet wallet).WellFormed := by
  unfold Room.addWallet
  split
  · exact h
  · rename_i hnew
    refine { h with distinct := ?_ }
    rw [List.nodup_append]
    refine ⟨h.distinct, List.nodup_singleton wallet, fun v hv w hw hvw => hnew ?_⟩
    rwa [← List.mem_singleton.1 hw, ← hvw]

theorem closed (h : r.WellFormed) (now : Instant) :
    { r with status := .closed, closedAt := some now }.WellFormed :=
  { h with stage := Or.inr rfl, dated := ⟨fun _ => rfl, fun _ => rfl⟩ }

end WellFormed

end Room

/-! ## Members by themselves -/

namespace Member

/-- What holds of a member that a room keeps under a wallet. -/
structure WellFormed (m : Member) (room wallet : String) : Prop where
  room_eq : m.room = room
  wallet_eq : m.wallet = wallet
  /-- Who is there has not left. -/
  present : m.active = true ↔ m.leaveTime = none

theorem wellFormed_new (room wallet : String) (now : Instant) :
    (new room wallet now).WellFormed room wallet :=
  ⟨rfl, rfl, fun _ => rfl, fun _ => rfl⟩

namespace WellFormed

variable {m : Member} {room wallet : String}

theorem reactivate (h : m.WellFormed room wallet) (now : Instant) :
    (m.reactivate now).1.WellFormed room wallet := by
  unfold Member.reactivate
  split
  · exact { h with }
  · exact { h with present := ⟨fun _ => rfl, fun _ => rfl⟩ }

theorem deactivate (h : m.WellFormed room wallet) (now : Instant) :
    (m.deactivate now).1.WellFormed room wallet := by
  unfold Member.deactivate
  split
  · exact { h with present := ⟨fun hn => (nomatch hn), fun hn => (nomatch hn)⟩ }
  · exact h

end WellFormed

end Member

namespace RoomStats

/-- A trade is put down to its signer only if that is a member. -/
theorem mem_memberPnl_apply {s : RoomStats} {t : Trade} {quoteMint wallet : String}
    {signerIsMember : Bool} (h : wallet ∈ (s.apply t quoteMint signerIsMember).1.memberPnl.keys) :
    wallet ∈ s.memberPnl.keys ∨ signerIsMember = true ∧ wallet = t.signer := by
  have hvolume : ∀ {x y : RoomStats} {side quote}, x.addVolume side quote = some y →
      y.memberPnl = x.memberPnl := by
    intro x y side quote hv
    cases side <;> simp only [addVolume, Option.map_eq_some_iff, Option.some.injEq] at hv
    · obtain ⟨_, _, rfl⟩ := hv
      rfl
    · obtain ⟨_, _, rfl⟩ := hv
      rfl
    · rw [hv]
  have hinsert : ∀ {p : Table String Decimal} {d : Decimal}, p = s.memberPnl →
      wallet ∈ (p.insert t.signer d).keys → wallet = t.signer ∨ wallet ∈ s.memberPnl.keys := by
    rintro _ _ rfl hm
    exact Table.mem_keys_put.1 hm
  unfold apply at h
  dsimp only at h
  split at h
  · exact Or.inl h
  · rename_i counted hc
    have hsame : counted.memberPnl = (s.note t).memberPnl := hvolume hc
    split at h
    · rename_i hmember
      split at h
      · exact (hinsert hsame h).elim (fun hw => Or.inr ⟨hmember, hw⟩) Or.inl
      · exact (hinsert hsame h).elim (fun hw => Or.inr ⟨hmember, hw⟩) Or.inl
    · rw [hsame] at h
      exact Or.inl h

end RoomStats

namespace Lobby

/-! ## Entries -/

namespace Entry

/-- What holds of the entry under an id. -/
structure WellFormed (e : Entry) (id : String) : Prop where
  room : e.room.WellFormed
  own : e.room.id = id
  members : ∀ wallet m, e.members.get? wallet = some m → m.WellFormed id wallet
  /-- The room lists exactly its members, present and past. -/
  listed : ∀ wallet, wallet ∈ e.room.wallets ↔ wallet ∈ e.members.keys
  creator : e.room.creator ∈ e.members.keys
  /-- Nobody is in a closed room. -/
  deserted : e.room.status = .closed → ∀ wallet m, e.members.get? wallet = some m →
    m.active = false
  /-- Flows of quote are kept of members only. -/
  counted : ∀ wallet ∈ e.stats.memberPnl.keys, wallet ∈ e.members.keys

variable {e e' : Entry} {id : String}

theorem mem_keys_of_isActive {wallet : String} (h : e.isActive wallet = true) :
    wallet ∈ e.members.keys := by
  rw [isActive_eq] at h
  cases hm : e.members.get? wallet with
  | none =>
    rw [hm] at h
    exact nomatch h
  | some m => exact Table.mem_keys_iff.2 ⟨m, hm⟩

/-- Under the name of its wallet, what joins is a member of the room that is there. -/
theorem join_members (h : e.WellFormed id) (wallet : String) (now : Instant) :
    ∃ m, (e.join wallet now).1.members = e.members.insert wallet m ∧ m.WellFormed id wallet := by
  unfold join
  cases hm : e.members.get? wallet with
  | none => exact ⟨_, rfl, h.own ▸ Member.wellFormed_new e.room.id wallet now⟩
  | some m => exact ⟨_, rfl, (h.members wallet m hm).reactivate now⟩

namespace WellFormed

theorem join (h : e.WellFormed id) (wallet : String) (now : Instant)
    (hopen : e.room.status ≠ .closed) : (e.join wallet now).1.WellFormed id := by
  obtain ⟨m, hmembers, hm⟩ := join_members h wallet now
  have hkeys : ∀ v, v ∈ (e.join wallet now).1.members.keys ↔ v = wallet ∨ v ∈ e.members.keys := by
    intro v
    rw [hmembers]
    exact Table.mem_keys_put
  have hroom : (e.join wallet now).1.room = (e.room.addWallet wallet).touch now := rfl
  obtain ⟨ws, hws⟩ := e.room.addWallet_eq wallet
  obtain ⟨t, ht⟩ := (e.room.addWallet wallet).touch_eq now
  refine ⟨hroom ▸ (h.room.addWallet wallet).touch now, ?_, fun v m' hv => ?_, fun v => ?_, ?_,
    fun hc => ?_, fun v hv => (hkeys v).2 (Or.inr (h.counted v hv))⟩
  · rw [hroom, ht, hws]
    exact h.own
  · rw [hmembers] at hv
    rcases Table.of_get?_insert hv with ⟨rfl, rfl⟩ | ⟨_, hv⟩
    · exact hm
    · exact h.members v m' hv
  · have hlisted : v ∈ (e.room.addWallet wallet).wallets ↔ v = wallet ∨ v ∈ e.room.wallets :=
      Room.mem_addWallet
    rw [hkeys, hroom, ht]
    exact hlisted.trans (or_congr_right (h.listed v))
  · rw [hkeys, hroom, ht, hws]
    exact Or.inr h.creator
  · rw [hroom, ht, hws] at hc
    exact absurd hc hopen

theorem leave (h : e.WellFormed id) (wallet : String) (now : Instant) :
    (e.leave wallet now).1.WellFormed id := by
  unfold Entry.leave
  cases hm : e.members.get? wallet with
  | none => exact h
  | some m =>
    have hgone := (h.members wallet m hm).deactivate now
    have haway := m.deactivate_active now
    have hkeys : ∀ m' v, v ∈ (e.members.insert wallet m').keys ↔ v ∈ e.members.keys := by
      intro m' v
      refine Table.mem_keys_put.trans ⟨fun hv => hv.elim (fun hw => ?_) fun hv => hv, Or.inr⟩
      exact hw ▸ Table.mem_keys_iff.2 ⟨m, hm⟩
    obtain ⟨t, ht⟩ := e.room.touch_eq now
    dsimp only
    split
    · rename_i m' hd
      rw [hd] at hgone haway
      refine ⟨h.room.touch now, by rw [ht]; exact h.own, fun v m'' hv => ?_, fun v => ?_, ?_,
        fun hc v m'' hv => ?_, fun v hv => (hkeys m' v).2 (h.counted v hv)⟩
      · rcases Table.of_get?_insert hv with ⟨rfl, rfl⟩ | ⟨_, hv⟩
        · exact hgone
        · exact h.members v m'' hv
      · rw [hkeys, ht]
        exact h.listed v
      · rw [hkeys, ht]
        exact h.creator
      · rw [ht] at hc
        rcases Table.of_get?_insert hv with ⟨rfl, rfl⟩ | ⟨_, hv⟩
        · exact haway
        · exact h.deserted hc v m'' hv
    · exact h

theorem touch (h : e.WellFormed id) (wallet : String) (now : Instant)
    (hopen : e.room.status ≠ .closed) : (e.touch wallet now).WellFormed id := by
  have hkeys : (e.touch wallet now).members.keys = e.members.keys := Table.keys_modify ..
  have hroom : (e.touch wallet now).room = e.room.touch now := rfl
  obtain ⟨t, ht⟩ := e.room.touch_eq now
  refine ⟨hroom ▸ h.room.touch now, ?_, fun v m hv => ?_, fun v => ?_, ?_, fun hc => ?_,
    fun v hv => ?_⟩
  · rw [hroom, ht]
    exact h.own
  · unfold Entry.touch at hv
    dsimp only at hv
    rw [Table.get?_modify] at hv
    split at hv
    · obtain ⟨m₀, hm₀, rfl⟩ := Option.map_eq_some_iff.1 hv
      have hw := h.members v m₀ hm₀
      split
      · exact { hw with }
      · exact hw
    · exact h.members v m hv
  · rw [hkeys, hroom, ht]
    exact h.listed v
  · rw [hkeys, hroom, ht]
    exact h.creator
  · rw [hroom, ht] at hc
    exact absurd hc hopen
  · rw [hkeys]
    exact h.counted v hv

theorem count (h : e.WellFormed id) (t : Trade) (quoteMint : String) :
    (e.count t quoteMint).1.WellFormed id := by
  refine { h with counted := fun wallet hw => ?_ }
  rcases RoomStats.mem_memberPnl_apply hw with hw | ⟨hmember, rfl⟩
  · exact h.counted wallet hw
  · exact mem_keys_of_isActive hmember

theorem shut (h : e.WellFormed id) (now : Instant) : (e.shut now).WellFormed id := by
  have hkeys : (e.shut now).members.keys = e.members.keys := Table.keys_map ..
  have hfrom : ∀ v m, (e.shut now).members.get? v = some m →
      ∃ m₀, e.members.get? v = some m₀ ∧ m = (m₀.deactivate now).1 := by
    intro v m hv
    unfold Entry.shut at hv
    dsimp only at hv
    rw [Table.get?_map] at hv
    obtain ⟨m₀, hm₀, rfl⟩ := Option.map_eq_some_iff.1 hv
    exact ⟨m₀, hm₀, rfl⟩
  refine ⟨h.room.closed now, h.own, fun v m hv => ?_, fun v => ?_, ?_, fun _ v m hv => ?_,
    fun v hv => ?_⟩
  · obtain ⟨m₀, hm₀, rfl⟩ := hfrom v m hv
    exact (h.members v m₀ hm₀).deactivate now
  · rw [hkeys]
    exact h.listed v
  · rw [hkeys]
    exact h.creator
  · obtain ⟨m₀, _, rfl⟩ := hfrom v m hv
    exact m₀.deactivate_active now
  · rw [hkeys]
    exact h.counted v hv

/-- Whatever an operation makes of an entry is well formed. -/
theorem changed (h : e.WellFormed id) (hc : e.Changed e') : e'.WellFormed id := by
  cases hc with
  | same => exact h
  | join wallet now hopen => exact h.join wallet now hopen
  | leave wallet now => exact h.leave wallet now
  | touch wallet now hopen => exact h.touch wallet now hopen
  | count t quoteMint _ => exact h.count t quoteMint
  | shut now _ => exact h.shut now

end WellFormed

end Entry

/-! ## Runs -/

def WellFormed (l : Lobby) : Prop := ∀ id e, l.get? id = some e → e.WellFormed id

variable {l l' : Lobby}

theorem wellFormed_new (hours : Int64) (mint : String) : (new hours mint).WellFormed :=
  fun _ _ h => nomatch h

theorem WellFormed.create (h : l.WellFormed) {id : String} {plan : Plan} {now : Instant}
    {room : Room} (hc : l.create id plan now = .ok (l', room)) : l'.WellFormed := by
  obtain ⟨hcreator, hhours, hroom, rfl⟩ := create_eq hc
  intro id' e he
  rw [get?_update] at he
  split at he
  · rename_i hid
    cases he
    rw [hid, hroom]
    have hkeys : ∀ w, w ∈ (Table.empty.insert (Text.trim plan.creator)
        (Member.new id (Text.trim plan.creator) now)).keys ↔ w = Text.trim plan.creator :=
      fun w => Table.mem_keys_put.trans (or_iff_left List.not_mem_nil)
    refine ⟨⟨Or.inl rfl, ⟨fun hn => (nomatch hn), fun hn => (nomatch hn)⟩, hhours, Iff.rfl,
      hcreator, List.nodup_singleton _⟩, rfl, fun w m hm => ?_, fun w => ?_, (hkeys _).2 rfl,
      fun hn => (nomatch hn), fun w hw => (nomatch hw)⟩
    · rcases Table.of_get?_insert hm with ⟨rfl, rfl⟩ | ⟨_, hn⟩
      · exact Member.wellFormed_new id _ now
      · exact nomatch hn
    · exact List.mem_singleton.trans (hkeys w).symm
  · exact h id' e he

theorem WellFormed.act (h : l.WellFormed) (a : Act) : (l.act a).WellFormed := by
  intro id e' he'
  by_cases ha : a.created? = some id
  · cases a with
    | create id' plan now =>
      revert he'
      show (l.afterwards (l.create id' plan now)).get? id = some e' → _
      cases hc : l.create id' plan now with
      | error f => exact h id e'
      | ok r => exact h.create hc id e'
    | _ => cases ha
  · cases he : l.get? id with
    | none => exact nomatch (absent_act ha he).symm.trans he'
    | some e => exact (h id e he).changed (changed_of_act ha he he')

theorem WellFormed.run (h : l.WellFormed) (as : List Act) : (l.run as).WellFormed := by
  induction as generalizing l with
  | nil => exact h
  | cons a as ih => exact ih (h.act a)

/-- Whatever is done with a lobby that begins empty, with any arguments and at any times, also if
counting a trade or recycling breaks down, every entry is well formed. -/
theorem wellFormed_of_run (hours : Int64) (mint : String) (as : List Act) {id : String} {e : Entry}
    (he : ((new hours mint).run as).get? id = some e) : e.WellFormed id :=
  (wellFormed_new hours mint).run as id e he

/-- Bo sells for two units of the quote, leaves and comes back; then the creator closes the room. -/
def visited : List Act :=
  [.create "r" { creator := " ann ", passwordHash := some "hash" } ⟨9, false⟩,
    .join "r" "bo" ⟨5, false⟩,
    .recordTrade "r" {
      signature := "sig"
      slot := 1
      blockTime := ⟨0, false⟩
      platform := "unknown"
      programId := none
      spent := ⟨"token", (Decimal.ofParts? false 5 0).getD .zero⟩
      received := ⟨"mint", (Decimal.ofParts? false 2 0).getD .zero⟩
      signer := "bo"
      trackedAddress := none
      side := .sell },
    .leave "r" "bo" ⟨6, false⟩, .join "r" "bo" ⟨4, false⟩, .close "r" "ann" ⟨7, false⟩]

theorem wellFormed_visited :
    ∃ e, ((new 24 "mint").run visited).get? "r" = some e ∧ e.room.status = .closed ∧
      e.room.wallets = ["ann", "bo"] ∧ e.stats.memberPnl.keys = ["bo"] ∧ e.WellFormed "r" := by
  have hvisited : (((new 24 "mint").run visited).get? "r").map
      (fun e => (e.room.status, e.room.wallets, e.stats.memberPnl.keys))
        = some (.closed, ["ann", "bo"], ["bo"]) := by
    decide +kernel
  obtain ⟨e, he, hs⟩ := Option.map_eq_some_iff.1 hvisited
  obtain ⟨hstatus, hs⟩ := Prod.mk.inj hs
  obtain ⟨hwallets, hkeys⟩ := Prod.mk.inj hs
  exact ⟨e, he, hstatus, hwallets, hkeys, wellFormed_of_run 24 "mint" visited he⟩

end Lobby

end SwapFloor
