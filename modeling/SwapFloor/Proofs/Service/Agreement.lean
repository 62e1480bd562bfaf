import Mathlib.Data.List.Perm.Lattice
import SwapFloor.Proofs.Service.Sound

/-!
# Watches, rooms and connections

What the soundness of the service means to those who look at two of its parts: the watched
addresses are the tokens of the open rooms, and whoever is connected is an active member of an
open room.

Main statements: both along every run of the service (`roomsWatching_perm_of_run`,
`seated_of_run`).
-/

namespace SwapFloor

/-- The ids of the open rooms on a token. -/
def Lobby.roomsOn (l : Lobby) (token : String) : List String :=
  (l.entries.entries.filter fun e =>
    e.2.room.status == .open && e.2.room.token == some token).map Prod.fst

theorem Lobby.mem_roomsOn {l : Lobby} {token id : String} :
    id ∈ l.roomsOn token ↔ l.OpenOn id token := by
  unfold Lobby.roomsOn Lobby.OpenOn
  rw [List.mem_map]
  constructor
  · rintro ⟨⟨_, e⟩, hm, rfl⟩
    obtain ⟨hm, hopen⟩ := List.mem_filter.1 hm
    rw [Bool.and_eq_true, beq_iff_eq, beq_iff_eq] at hopen
    exact ⟨e, Table.get?_eq_some_iff.2 hm, hopen⟩
  · rintro ⟨e, he, hopen, ht⟩
    refine ⟨(id, e), List.mem_filter.2 ⟨Table.get?_eq_some_iff.1 he, ?_⟩, rfl⟩
    rw [hopen, ht, beq_self_eq_true, beq_self_eq_true, Bool.and_self]

theorem Lobby.nodup_roomsOn (l : Lobby) (token : String) : (l.roomsOn token).Nodup :=
  l.entries.nodup.sublist (List.filter_sublist.map _)

namespace Service

/-! ## A small service -/

/-- Ids that grow by a letter with each draw. -/
def growingIds : Draws := ⟨fun n => String.ofList (List.replicate n 'r'), fun _ => []⟩

theorem growingIds_injective : Function.Injective growingIds.id := by
  intro m n h
  have hlists := congrArg String.toList h
  unfold growingIds at hlists
  simp only [String.toList_ofList] at hlists
  simpa using congrArg List.length hlists

/-- A service with the default settings that starts in 1970. -/
def small : Service := new {} growingIds true ⟨0, false⟩

/-- Ada has opened a room on a token. -/
def smallWithRoom : Service :=
  match small.createRoom { creator := "ada", token := some "mint" } with
  | .ok (s, _) => s
  | .error _ => small

/-- Bo has connected to the room. -/
def smallWithSocket : Service := (smallWithRoom.openSocket "r" "bo" none).1

/-- The service after an operation, as it was if that has failed. -/
def after {α : Type} (s : Service) (r : Except Failure (Service × α)) : Service :=
  (r.toOption.map Prod.fst).getD s

theorem eq_ok_after {α β : Type} {s : Service} {r : Except Failure (Service × α)} {f : α → β}
    {b : β} (h : r.toOption.map (fun x => f x.2) = some b) :
    ∃ a, r = .ok (s.after r, a) ∧ f a = b := by
  cases r with
  | error e => exact nomatch h
  | ok x => exact ⟨x.2, rfl, Option.some.inj h⟩

theorem run_smallWithRoom : Run small smallWithRoom :=
  .single (.errand (.create (show small.createRoom { creator := "ada", token := some "mint" }
    = .ok (smallWithRoom, _) from rfl)))

theorem run_smallWithSocket : Run small smallWithSocket :=
  run_smallWithRoom.tail (.errand (.connect (k := ⟨"r", "bo"⟩)
    (show smallWithRoom.admitSocket "r" " bo" none = .ok ⟨"r", "bo"⟩ by decide +kernel)))

/-! ## Along every run -/

variable {settings : Settings} {draws : Draws} {looksUp : Bool} {startedAt : Instant} {s : Service}

theorem Sound.roomsWatching_perm (hs : s.Sound) (token : String) :
    (s.watches.roomsWatching token).Perm (s.lobby.roomsOn token) := by
  rw [List.perm_ext_iff_of_nodup (hs.watched.nodup token) (s.lobby.nodup_roomsOn token)]
  exact fun r => (hs.watched.mem token r).trans Lobby.mem_roomsOn.symm

/-- The rooms that watch an address are exactly the open rooms whose token it is, and the address
is referred to once for each of them. -/
theorem roomsWatching_perm_of_run (hd : Function.Injective draws.id)
    (h : Run (new settings draws looksUp startedAt) s) (token : String) :
    (s.watches.roomsWatching token).Perm (s.lobby.roomsOn token) ∧
      s.watches.refCount token = (s.lobby.roomsOn token).length := by
  have hs := sound_run (sound_new settings hd looksUp startedAt) h
  have hperm := hs.roomsWatching_perm token
  exact ⟨hperm, (hs.watched.count token).trans hperm.length_eq⟩

theorem roomsWatching_small :
    (Function.Injective growingIds.id ∧ Run small smallWithRoom) ∧
      smallWithRoom.lobby.roomsOn "mint" = ["r"] ∧
      (smallWithRoom.watches.roomsWatching "mint").Perm (smallWithRoom.lobby.roomsOn "mint") ∧
      smallWithRoom.watches.refCount "mint" = (smallWithRoom.lobby.roomsOn "mint").length :=
  ⟨⟨growingIds_injective, run_smallWithRoom⟩, by decide +kernel,
    roomsWatching_perm_of_run growingIds_injective run_smallWithRoom "mint"⟩

/-- Whoever is connected is an active member of an open room, and nobody is connected to a room
that is closed or gone. -/
theorem seated_of_run (hd : Function.Injective draws.id)
    (h : Run (new settings draws looksUp startedAt) s) :
    (∀ c ∈ s.hub.all, ∃ e, s.lobby.get? c.room = some e ∧ e.room.status = .open ∧
      e.isActive c.wallet = true) ∧
    ∀ room, (∀ e, s.lobby.get? room = some e → e.room.status = .closed) →
      s.hub.connections room = [] ∧ ∀ id, s.hub.rooms.get? id ≠ some room := by
  have hs := sound_run (sound_new settings hd looksUp startedAt) h
  refine ⟨fun c hc => hs.seated c.id c (hs.hub.mem_all.1 hc), fun room hroom => ?_⟩
  have hnobody : ∀ id c, s.hub.get? id = some c → c.room ≠ room := by
    rintro id c hg rfl
    obtain ⟨e, he, hopen, _⟩ := hs.seated id c hg
    rw [hroom e he] at hopen
    exact nomatch hopen
  constructor
  · refine List.eq_nil_iff_forall_not_mem.2 fun c hc => ?_
    obtain ⟨hg, hr⟩ := hs.hub.mem_connections.1 hc
    exact hnobody c.id c hg hr
  · intro id hr
    obtain ⟨c, hb⟩ := hs.hub.found id room hr
    obtain ⟨hg, hr⟩ := hs.hub.bucket_get?_iff.1 hb
    exact hnobody id c hg hr

theorem seated_small :
    (Function.Injective growingIds.id ∧ Run small smallWithSocket) ∧
      smallWithSocket.hub.all.map (·.wallet) = ["bo"] ∧
      ∀ c ∈ smallWithSocket.hub.all, ∃ e, smallWithSocket.lobby.get? c.room = some e ∧
        e.room.status = .open ∧ e.isActive c.wallet = true :=
  ⟨⟨growingIds_injective, run_smallWithSocket⟩, by decide +kernel,
    (seated_of_run growingIds_injective run_smallWithSocket).1⟩

end Service

end SwapFloor
