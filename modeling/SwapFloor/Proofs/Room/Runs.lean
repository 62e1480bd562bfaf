import SwapFloor.Proofs.Room.Standing

/-!
# One operation of the lobby after another

Operations come in any order and at any times, which need not go forward. One that is refused
leaves the lobby as it was; one that breaks down leaves what it has done until then.

Main statement: what an operation makes of what is stored under an id, unless it creates the room
(`passed_act`). An entry goes only when rooms are recycled, and none comes.
-/

namespace SwapFloor.Lobby

/-- What is done with the lobby. -/
inductive Act where
  | create (id : String) (plan : Plan) (now : Instant)
  | join (id wallet : String) (now : Instant)
  | leave (id wallet : String) (now : Instant)
  | close (id requester : String) (now : Instant)
  | touch (id wallet : String) (now : Instant)
  | recordTrade (id : String) (t : Trade)
  | reap (now : Instant)

/-- The id of a room to be created. -/
def Act.created? : Act → Option String
  | .create id _ _ => some id
  | _ => none

/-- The lobby that an operation gives, or the one before if it refuses. -/
def afterwards {α : Type} (l : Lobby) : Except Failure (Lobby × α) → Lobby
  | .ok (l', _) => l'
  | .error _ => l

def act (l : Lobby) : Act → Lobby
  | .create id plan now => l.afterwards (l.create id plan now)
  | .join id wallet now => l.afterwards (l.join id wallet now)
  | .leave id wallet now => l.afterwards (l.leave id wallet now)
  | .close id requester now => l.afterwards (l.close id requester now)
  | .touch id wallet now => l.afterwards ((l.touch id wallet now).map fun l' => (l', ()))
  | .recordTrade id t => l.afterwards (l.recordTrade id t)
  | .reap now => (l.reap now).1

/-- The lobby after one operation after the other. -/
def run (l : Lobby) (as : List Act) : Lobby := as.foldl act l

/-- The ids of the rooms to be created, the first one first. -/
def created (as : List Act) : List String := as.filterMap Act.created?

theorem run_append (l : Lobby) (as bs : List Act) : l.run (as ++ bs) = (l.run as).run bs :=
  List.foldl_append

theorem not_mem_created_cons {id : String} {a : Act} {as : List Act} :
    id ∉ created (a :: as) ↔ a.created? ≠ some id ∧ id ∉ created as := by
  unfold created
  rw [List.filterMap_cons]
  cases a.created? with
  | none => simp
  | some id' => rw [List.mem_cons, not_or, ne_eq, Option.some.injEq, eq_comm]

theorem not_mem_created_append {id : String} {as bs : List Act} :
    id ∉ created (as ++ bs) ↔ id ∉ created as ∧ id ∉ created bs := by
  unfold created
  rw [List.filterMap_append, List.mem_append, not_or]

/-- The settings of the lobby stay what they are. -/
theorem settings_act (l : Lobby) (a : Act) :
    (l.act a).defaultHours = l.defaultHours ∧ (l.act a).quoteMint = l.quoteMint := by
  have hafter : ∀ {α : Type} {x : Except Failure (Lobby × α)},
      (∀ l' r, x = .ok (l', r) →
        l'.defaultHours = l.defaultHours ∧ l'.quoteMint = l.quoteMint) →
      (l.afterwards x).defaultHours = l.defaultHours ∧
        (l.afterwards x).quoteMint = l.quoteMint := by
    intro α x h
    cases x with
    | error f => exact ⟨rfl, rfl⟩
    | ok r => exact h r.1 r.2 rfl
  cases a with
  | create id plan now =>
    refine hafter fun l' room h => ?_
    obtain ⟨_, _, _, rfl⟩ := create_eq h
    exact ⟨rfl, rfl⟩
  | join id wallet now =>
    refine hafter fun l' j h => ?_
    obtain ⟨_, e, _, rfl, _⟩ := join_eq h
    exact ⟨rfl, rfl⟩
  | leave id wallet now =>
    refine hafter fun l' left h => ?_
    obtain ⟨e, _, rfl, _⟩ := leave_eq h
    exact ⟨rfl, rfl⟩
  | close id requester now =>
    refine hafter fun l' room h => ?_
    obtain ⟨e, _, _, _, rfl, _⟩ := close_eq h
    exact ⟨rfl, rfl⟩
  | touch id wallet now =>
    refine hafter fun l' u h => ?_
    cases ht : l.touch id wallet now with
    | error f => rw [ht] at h; cases h
    | ok lt =>
      rw [ht] at h
      cases h
      obtain ⟨e, _, rfl⟩ := touch_eq ht
      exact ⟨rfl, rfl⟩
  | recordTrade id t =>
    refine hafter fun l' trouble h => ?_
    obtain ⟨e, _, rfl, _⟩ := recordTrade_eq h
    exact ⟨rfl, rfl⟩
  | reap now =>
    show (l.reap now).1.defaultHours = _ ∧ (l.reap now).1.quoteMint = _
    unfold reap
    dsimp only
    split
    · exact ⟨rfl, rfl⟩
    · split <;> exact ⟨rfl, rfl⟩

@[simp] theorem defaultHours_act (l : Lobby) (a : Act) :
    (l.act a).defaultHours = l.defaultHours := (l.settings_act a).1

@[simp] theorem quoteMint_act (l : Lobby) (a : Act) : (l.act a).quoteMint = l.quoteMint :=
  (l.settings_act a).2

theorem ok_of_toOption {ε α : Type} {x : Except ε α} {a : α} (h : x.toOption = some a) :
    x = .ok a := by
  cases x with
  | error e => cases h
  | ok b => exact congrArg _ (Option.some.inj h)

/-! ## What becomes of one entry -/

/-- What an operation can make of an entry. Without the status of an open room, nothing is
counted, no activity is noted and nobody is let in; letting a wallet go asks for no status. -/
inductive Entry.Changed (e : Entry) : Entry → Prop where
  | same : Changed e e
  | join (wallet : String) (now : Instant) (h : e.room.status ≠ .closed) :
      Changed e (e.join wallet now).1
  | leave (wallet : String) (now : Instant) : Changed e (e.leave wallet now).1
  | touch (wallet : String) (now : Instant) (h : e.room.status ≠ .closed) :
      Changed e (e.touch wallet now)
  | count (t : Trade) (quoteMint : String) (h : e.room.status ≠ .closed) :
      Changed e (e.count t quoteMint).1
  | shut (now : Instant) (h : e.room.status = .open) : Changed e (e.shut now)

theorem get?_closeDue_eq_none_iff {l : Lobby} {now : Instant} {id : String} :
    (l.closeDue now).1.get? id = none ↔ l.get? id = none := by
  unfold Lobby.closeDue get?
  dsimp only
  rw [Table.get?_map, Option.map_eq_none_iff]

/-- Closing what is due shuts an open room or leaves a room alone. -/
theorem exists_of_get?_closeDue {l : Lobby} {now : Instant} {id : String} {e' : Entry}
    (he' : (l.closeDue now).1.get? id = some e') :
    ∃ e, l.get? id = some e ∧ (e' = e ∨ e.room.status = .open ∧ e' = e.shut now) := by
  unfold Lobby.closeDue get? at he'
  dsimp only at he'
  rw [Table.get?_map] at he'
  obtain ⟨e, he, rfl⟩ := Option.map_eq_some_iff.1 he'
  refine ⟨e, he, ?_⟩
  -- what is looked up is the entry itself, shut, as no other one has its key
  cases hc : List.lookup id _ with
  | none => exact Or.inl rfl
  | some c =>
    obtain ⟨before, rest, hsplit, _⟩ := List.lookup_eq_some_iff.1 hc
    have hm := hsplit ▸ List.mem_append_right before List.mem_cons_self
    obtain ⟨⟨k, d⟩, hd, hclosed⟩ := List.mem_filterMap.1 hm
    obtain ⟨c', hc', hkey⟩ := Option.map_eq_some_iff.1 hclosed
    obtain ⟨rfl, rfl⟩ := Prod.mk.inj hkey
    have hown : l.entries.get? k = some d :=
      Table.get?_eq_some_iff.2 ((List.takeWhile_sublist _).subset (List.mem_filter.1 hd).1)
    cases he.symm.trans hown
    obtain ⟨hopen, rfl⟩ := Entry.close_eq_ok_iff.1 (ok_of_toOption hc')
    exact Or.inr ⟨hopen, rfl⟩

/-- So does recycling with what it does not remove, also if it breaks down. -/
theorem exists_of_get?_reap {l : Lobby} {now : Instant} {id : String} {e' : Entry}
    (he' : (l.reap now).1.get? id = some e') :
    ∃ e, l.get? id = some e ∧ (e' = e ∨ e.room.status = .open ∧ e' = e.shut now) := by
  have hremove : ((l.closeDue now).1.removeOld now).get? id = some e' →
      (l.closeDue now).1.get? id = some e' := by
    intro h
    unfold removeOld get? at h
    rw [Table.get?_filter, Option.filter_eq_some_iff] at h
    exact h.1
  unfold reap at he'
  dsimp only at he'
  split at he'
  · exact exists_of_get?_closeDue he'
  · split at he'
    · exact exists_of_get?_closeDue (hremove he')
    · exact exists_of_get?_closeDue (hremove he')

/-- What an operation can make of what is stored under an id, unless it creates the room. -/
inductive Passed (a : Act) : Option Entry → Option Entry → Prop where
  | absent : Passed a none none
  | changed {e e' : Entry} (h : e.Changed e') : Passed a (some e) (some e')
  | gone {e : Entry} {now : Instant} (h : a = .reap now) : Passed a (some e) none

namespace Passed

variable {l : Lobby} {a : Act} {id : String}

theorem refl (a : Act) : ∀ o : Option Entry, Passed a o o
  | none => absent
  | some _ => changed .same

theorem update {id' : String} {e e' : Entry} (he : l.get? id' = some e) (h : e.Changed e') :
    Passed a (l.get? id) ((l.update id' e').get? id) := by
  rw [get?_update]
  split
  · rename_i hid
    rw [hid, he]
    exact changed h
  · exact refl a _

theorem afterwards {α : Type} {x : Except Failure (Lobby × α)}
    (h : ∀ l' r, x = .ok (l', r) → Passed a (l.get? id) (l'.get? id)) :
    Passed a (l.get? id) ((l.afterwards x).get? id) := by
  cases x with
  | error f => exact refl a _
  | ok r => exact h r.1 r.2 rfl

/-- Recycling closes open rooms only. -/
theorem closeDue (l : Lobby) (now : Instant) (id : String) :
    Passed a (l.get? id) ((l.closeDue now).1.get? id) := by
  cases he' : (l.closeDue now).1.get? id with
  | none =>
    rw [get?_closeDue_eq_none_iff.1 he']
    exact absent
  | some e' =>
    obtain ⟨e, he, rfl | ⟨hopen, rfl⟩⟩ := exists_of_get?_closeDue he'
    · rw [he]
      exact changed .same
    · rw [he]
      exact changed (.shut now hopen)

theorem filter {now : Instant} {p : Entry → Bool} {o o' : Option Entry}
    (h : Passed (.reap now) o o') : Passed (.reap now) o (o'.filter p) := by
  cases h with
  | absent => exact absent
  | gone h => exact gone h
  | @changed e e' h =>
    rw [Option.filter_some]
    split
    · exact changed h
    · exact gone rfl

end Passed

theorem passed_act (l : Lobby) {a : Act} {id : String} (ha : a.created? ≠ some id) :
    Passed a (l.get? id) ((l.act a).get? id) := by
  cases a with
  | create id' plan now =>
    refine Passed.afterwards fun l' room h => ?_
    have hne : id ≠ id' := fun e => ha (congrArg some e.symm)
    rw [get?_create h id hne]
    exact Passed.refl _ _
  | join id' wallet now =>
    refine Passed.afterwards fun l' j h => ?_
    obtain ⟨_, e, he, rfl, _⟩ := join_eq h
    obtain ⟨he, hc⟩ := openEntry_eq_ok_iff.1 he
    exact Passed.update he (.join _ now hc)
  | leave id' wallet now =>
    refine Passed.afterwards fun l' left h => ?_
    obtain ⟨e, he, rfl, _⟩ := leave_eq h
    exact Passed.update he (.leave wallet now)
  | close id' requester now =>
    refine Passed.afterwards fun l' room h => ?_
    obtain ⟨e, he, _, hopen, rfl, _⟩ := close_eq h
    exact Passed.update he (.shut now hopen)
  | touch id' wallet now =>
    refine Passed.afterwards fun l' u h => ?_
    cases ht : l.touch id' wallet now with
    | error f => rw [ht] at h; cases h
    | ok lt =>
      rw [ht] at h
      cases h
      obtain ⟨e, he, rfl⟩ := touch_eq ht
      obtain ⟨he, hc⟩ := openEntry_eq_ok_iff.1 he
      exact Passed.update he (.touch wallet now hc)
  | recordTrade id' t =>
    refine Passed.afterwards fun l' trouble h => ?_
    obtain ⟨e, he, rfl, _⟩ := recordTrade_eq h
    obtain ⟨he, hc⟩ := openEntry_eq_ok_iff.1 he
    exact Passed.update he (.count t _ hc)
  | reap now =>
    have hclose : Passed (.reap now) (l.get? id) ((l.closeDue now).1.get? id) :=
      Passed.closeDue l now id
    have hremove : Passed (.reap now) (l.get? id)
        (((l.closeDue now).1.removeOld now).get? id) := by
      unfold removeOld get?
      rw [Table.get?_filter]
      exact hclose.filter
    show Passed _ _ ((l.reap now).1.get? id)
    unfold reap
    dsimp only
    split
    · exact hclose
    · split
      · exact hremove
      · exact hremove

section

variable {l : Lobby} {a : Act} {id : String} {e e' : Entry}

theorem absent_act (ha : a.created? ≠ some id) (h : l.get? id = none) :
    (l.act a).get? id = none := by
  have hp := passed_act l ha
  rw [h] at hp
  generalize (l.act a).get? id = o at hp
  cases hp
  rfl

theorem changed_of_act (ha : a.created? ≠ some id) (he : l.get? id = some e)
    (he' : (l.act a).get? id = some e') : e.Changed e' := by
  have hp := passed_act l ha
  rw [he, he'] at hp
  cases hp with
  | changed h => exact h

theorem exists_reap_of_act (ha : a.created? ≠ some id) (he : l.get? id = some e)
    (hgone : (l.act a).get? id = none) : ∃ now, a = .reap now := by
  have hp := passed_act l ha
  rw [he, hgone] at hp
  cases hp with
  | gone h => exact ⟨_, h⟩

end

end SwapFloor.Lobby
