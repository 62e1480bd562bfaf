import Mathlib.Data.List.Induction
import SwapFloor.Proofs.Room.Lifecycle
import SwapFloor.Proofs.Room.WellFormed
import SwapFloor.Settings.Basic

/-!
# When recycling breaks down

Recycling makes a span of the hours of the rooms that it looks at, and more than
`Instant.maxHours` hours span no time. Of the hours of a room, and of those that the settings give
to rooms without any, it is asked only that they are positive. One room of too many hours breaks
off the recycling of all rooms; it is not removed either, so every later recycling breaks down too.

Main statement: recycling completes after a run just if no plan in it made a room of too many hours
(`reap_completes_iff_of_run`).
-/

namespace SwapFloor.Lobby

/-- A room of more hours than any span has comes of the plan. -/
def Plan.IsEndless (plan : Plan) (defaultHours : Int64) : Prop :=
  Text.trim plan.creator ≠ "" ∧ Instant.maxHours < (plan.recycleHours.getD defaultHours).toInt

/-! ## Entries whose hours span no time -/

namespace Entry

theorem isBroken_iff {e : Entry} (h : 0 < e.room.recycleHours) :
    e.isBroken = true ↔ Instant.maxHours < e.room.recycleHours.toInt := by
  have hpos : 0 < e.room.recycleHours.toInt := Int64.lt_iff_toInt_lt.1 h
  unfold isBroken Room.recycleSpan Instant.hours?
  by_cases hlong : Instant.maxHours < e.room.recycleHours.toInt
  · rw [if_neg fun hspan => absurd hspan.2 (Int.not_le.2 hlong)]
    exact ⟨fun _ => hlong, fun _ => rfl⟩
  · have hspan : -Instant.maxHours ≤ e.room.recycleHours.toInt ∧
        e.room.recycleHours.toInt ≤ Instant.maxHours := by
      unfold Instant.maxHours at hlong ⊢
      omega
    rw [if_pos hspan]
    exact ⟨fun hb => (nomatch hb), fun hl => absurd hl hlong⟩

theorem isKept_of_isBroken {e : Entry} (h : e.isBroken = true) (now : Instant) :
    e.isKept now = true := by
  unfold isBroken at h
  unfold isKept
  cases hspan : e.room.recycleSpan with
  | ok span =>
    rw [hspan] at h
    exact nomatch h
  | error b =>
    cases e.room.closedAt with
    | none => rfl
    | some closed => rfl

/-- The hours of a room stay what they were. -/
theorem Changed.recycleHours {e e' : Entry} {id : String} (h : e.Changed e') (he : e.Proper id) :
    e'.room.recycleHours = e.room.recycleHours :=
  congrArg Room.Origin.recycleHours (he.onward h).room.origin

end Entry

theorem hasBroken_eq_true_iff {l : Lobby} {stop : Entry → Bool} :
    l.hasBroken stop = true ↔
      ∃ id e, l.get? id = some e ∧ stop e = true ∧ e.isBroken = true := by
  unfold hasBroken
  rw [List.any_eq_true]
  constructor
  · rintro ⟨⟨id, e⟩, hm, hb⟩
    exact ⟨id, e, Table.get?_eq_some_iff.2 hm, Bool.and_eq_true_iff.1 hb⟩
  · rintro ⟨id, e, he, hb⟩
    exact ⟨(id, e), Table.get?_eq_some_iff.1 he, Bool.and_eq_true_iff.2 hb⟩

theorem hasBroken_eq_false {l : Lobby} {stop : Entry → Bool}
    (h : ∀ id e, l.get? id = some e → e.isBroken = false) : l.hasBroken stop = false := by
  rw [Bool.eq_false_iff]
  intro hb
  obtain ⟨id, e, he, _, hbroken⟩ := hasBroken_eq_true_iff.1 hb
  exact nomatch (h id e he).symm.trans hbroken

/-! ## One recycling -/

section

variable {l : Lobby} {now : Instant} {id : String} {e : Entry}

theorem reap_eq_ok_iff {closed : List Room} :
    (l.reap now).2 = .ok closed ↔
      l.hasBroken (·.room.status == .open) = false ∧
      (l.closeDue now).1.hasBroken (·.room.closedAt.isSome) = false ∧
      closed = (l.closeDue now).2 := by
  unfold reap
  dsimp only
  split
  · rename_i hopen
    simp [hopen]
  · rename_i hopen
    split
    · rename_i hclosed
      simp [hclosed]
    · rename_i hclosed
      simp [hopen, hclosed, eq_comm]

/-- What is due is closed or left alone; no entry goes and no hours change. -/
theorem exists_get?_closeDue (he : l.get? id = some e) (now : Instant) :
    ∃ e', (l.closeDue now).1.get? id = some e' ∧ (e' = e ∨ e' = e.shut now) := by
  cases he' : (l.closeDue now).1.get? id with
  | none => exact nomatch he.symm.trans (get?_closeDue_eq_none_iff.1 he')
  | some e' =>
    obtain ⟨e₀, he₀, h⟩ := exists_of_get?_closeDue he'
    cases he.symm.trans he₀
    exact ⟨e', rfl, h.imp_right And.right⟩

theorem get?_removeOld_of_isKept (he : l.get? id = some e) (hk : e.isKept now = true) :
    (l.removeOld now).get? id = some e := by
  unfold removeOld
  refine (Table.get?_filter ..).trans ?_
  show (l.get? id).filter _ = _
  rw [he, Option.filter_some, if_pos]
  rw [Bool.not_eq_true', Bool.eq_false_iff]
  intro hold
  obtain ⟨⟨k, e'⟩, hm, rfl⟩ := List.mem_map.1 (List.contains_iff_mem.1 hold)
  obtain ⟨hreached, hnot⟩ := List.mem_filter.1 hm
  have he' : l.get? k = some e' :=
    Table.get?_eq_some_iff.2 ((List.takeWhile_sublist _).subset hreached)
  cases he.symm.trans he'
  rw [hk] at hnot
  exact nomatch hnot

/-- A room whose hours span no time outlives every recycling. -/
theorem exists_get?_reap_of_isBroken (he : l.get? id = some e) (hb : e.isBroken = true)
    (now : Instant) : ∃ e', (l.reap now).1.get? id = some e' := by
  obtain ⟨e', he', hsame⟩ := exists_get?_closeDue he now
  have hb' : e'.isBroken = true := by
    rcases hsame with rfl | rfl
    · exact hb
    · exact hb
  have hstays := get?_removeOld_of_isKept he' (Entry.isKept_of_isBroken hb' now)
  unfold reap
  dsimp only
  split
  · exact ⟨e', he'⟩
  · split
    · exact ⟨e', hstays⟩
    · exact ⟨e', hstays⟩

/-- Recycling completes just if the hours of every room span some time. -/
theorem WellFormed.reap_completes_iff (h : l.WellFormed) (now : Instant) :
    (∃ closed, (l.reap now).2 = .ok closed) ↔
      ∀ id e, l.get? id = some e → e.isBroken = false := by
  constructor
  · rintro ⟨closed, hok⟩ id e he
    obtain ⟨hopen, hclosed, _⟩ := reap_eq_ok_iff.1 hok
    rw [Bool.eq_false_iff]
    intro hb
    have hroom : e.room.WellFormed := (h id e he).room
    rcases hroom.stage with ho | hc
    · have hbroken : l.hasBroken (·.room.status == .open) = true :=
        hasBroken_eq_true_iff.2 ⟨id, e, he, beq_iff_eq.2 ho, hb⟩
      exact nomatch hopen.symm.trans hbroken
    · obtain ⟨e', he', hsame⟩ := exists_get?_closeDue he now
      have hbroken : (l.closeDue now).1.hasBroken (·.room.closedAt.isSome) = true := by
        refine hasBroken_eq_true_iff.2 ⟨id, e', he', ?_⟩
        rcases hsame with rfl | rfl
        · exact ⟨hroom.dated.2 hc, hb⟩
        · exact ⟨rfl, hb⟩
      exact nomatch hclosed.symm.trans hbroken
  · intro hspan
    refine ⟨_, reap_eq_ok_iff.2 ⟨hasBroken_eq_false hspan, hasBroken_eq_false ?_, rfl⟩⟩
    intro id e' he'
    obtain ⟨e, he, rfl | ⟨_, rfl⟩⟩ := exists_of_get?_closeDue he'
    · exact hspan id e' he
    · exact hspan id e he

end

/-! ## Runs -/

section Run

variable {l : Lobby} {id : String} {e : Entry}

@[simp] theorem defaultHours_run (l : Lobby) (as : List Act) :
    (l.run as).defaultHours = l.defaultHours := by
  induction as generalizing l with
  | nil => rfl
  | cons a as ih => exact (ih (l.act a)).trans (defaultHours_act l a)

/-- A plan leaves the room that has its number, or makes one of its hours. -/
theorem hours_of_create {plan : Plan} {now : Instant}
    (he : (l.act (.create id plan now)).get? id = some e) :
    l.get? id = some e ∨
      Text.trim plan.creator ≠ "" ∧
        e.room.recycleHours = plan.recycleHours.getD l.defaultHours := by
  have he : (l.afterwards (l.create id plan now)).get? id = some e := he
  cases hc : l.create id plan now with
  | error f =>
    rw [hc] at he
    exact .inl he
  | ok made =>
    obtain ⟨l', room⟩ := made
    obtain ⟨hcreator, _, hroom, hl'⟩ := create_eq hc
    rw [hc] at he
    have he : l'.get? id = some e := he
    rw [hl', get?_update, if_pos rfl] at he
    cases he
    exact .inr ⟨hcreator, congrArg Room.recycleHours hroom⟩

/-- Every room of the lobby was made of a plan, and has the hours of that plan. -/
theorem exists_plan_of_run {hours : Int64} {mint : String} {as : List Act}
    (he : ((new hours mint).run as).get? id = some e) :
    ∃ plan now, .create id plan now ∈ as ∧ Text.trim plan.creator ≠ "" ∧
      e.room.recycleHours = plan.recycleHours.getD hours := by
  induction as using List.reverseRecOn generalizing e with
  | nil => exact nomatch he
  | append_singleton as a ih =>
    have hp : ((new hours mint).run as).Proper := proper_run (proper_new hours mint) as
    have hlast : ∀ l : Lobby, l.run [a] = l.act a := fun _ => rfl
    rw [run_append, hlast] at he
    have hbefore : ∀ e₀, ((new hours mint).run as).get? id = some e₀ →
        e.room.recycleHours = e₀.room.recycleHours → ∃ plan now,
          .create id plan now ∈ as ++ [a] ∧ Text.trim plan.creator ≠ "" ∧
          e.room.recycleHours = plan.recycleHours.getD hours := by
      intro e₀ he₀ hsame
      obtain ⟨plan, now, hm, hcreator, hhours⟩ := ih he₀
      exact ⟨plan, now, List.mem_append_left _ hm, hcreator, hsame.trans hhours⟩
    by_cases ha : a.created? = some id
    · cases a with
      | create id' plan now =>
        obtain rfl : id' = id := Option.some.inj ha
        rcases hours_of_create he with he | ⟨hcreator, hhours⟩
        · exact hbefore e he rfl
        · rw [defaultHours_run] at hhours
          exact ⟨plan, now, List.mem_append_right _ List.mem_cons_self, hcreator, hhours⟩
      | _ => cases ha
    · cases hg : ((new hours mint).run as).get? id with
      | none => exact nomatch (absent_act ha hg).symm.trans he
      | some e₀ =>
        exact hbefore e₀ hg ((changed_of_act ha hg he).recycleHours (hp id e₀ hg))

/-- A room whose hours span no time stays for good. -/
theorem exists_isBroken_of_run (hl : l.Proper) (he : l.get? id = some e) (hb : e.isBroken = true)
    {as : List Act} (hnew : id ∉ created as) :
    ∃ e', (l.run as).get? id = some e' ∧ e'.isBroken = true := by
  induction as generalizing l e with
  | nil => exact ⟨e, he, hb⟩
  | cons a as ih =>
    obtain ⟨ha, hnew⟩ := not_mem_created_cons.1 hnew
    cases hg : (l.act a).get? id with
    | none =>
      obtain ⟨now, rfl⟩ := exists_reap_of_act ha he hg
      obtain ⟨e', he'⟩ := exists_get?_reap_of_isBroken he hb now
      exact nomatch hg.symm.trans he'
    | some e' =>
      have hsame := (changed_of_act ha he hg).recycleHours (hl id e he)
      refine ih (proper_act hl a) hg ?_ hnew
      unfold Entry.isBroken Room.recycleSpan at hb ⊢
      rwa [hsame]

/-- A plan of too many hours is accepted, and makes a room whose hours span no time. -/
theorem exists_isBroken_of_isEndless {plan : Plan} (hplan : plan.IsEndless l.defaultHours)
    (id : String) (now : Instant) :
    ∃ e, (l.act (.create id plan now)).get? id = some e ∧ e.isBroken = true := by
  obtain ⟨hcreator, hlong⟩ := hplan
  have hpos : 0 < plan.recycleHours.getD l.defaultHours := by
    rw [Int64.lt_iff_toInt_lt]
    exact Int.lt_trans (by decide) hlong
  cases hc : l.create id plan now with
  | error f =>
    unfold create Room.new at hc
    dsimp only at hc
    rw [if_neg hcreator, if_neg (Int64.not_le.2 hpos)] at hc
    exact nomatch hc
  | ok made =>
    obtain ⟨l', room⟩ := made
    obtain ⟨_, _, hroom, hl'⟩ := create_eq hc
    have hact : l.act (.create id plan now) = l' := by
      show l.afterwards (l.create id plan now) = _
      rw [hc]
      rfl
    rw [hact, hl']
    refine ⟨_, (get?_update ..).trans (if_pos rfl), (Entry.isBroken_iff ?_).2 ?_⟩
    · rw [hroom]
      exact hpos
    · rw [hroom]
      exact hlong

end Run

/-- Whatever was done with a lobby that began empty, and at whatever time: recycling completes just
if no room of too many hours was ever created. -/
theorem reap_completes_iff_of_run (hours : Int64) (mint : String) (as : List Act)
    (hnew : (created as).Nodup) (now : Instant) :
    (∃ closed, (((new hours mint).run as).reap now).2 = .ok closed) ↔
      ∀ id plan t, .create id plan t ∈ as → ¬ plan.IsEndless hours := by
  have hw : ((new hours mint).run as).WellFormed := (wellFormed_new hours mint).run as
  rw [hw.reap_completes_iff]
  constructor
  · intro hspan id plan t hm hplan
    obtain ⟨before, after, rfl⟩ := List.append_of_mem hm
    have hfresh : id ∉ created after := by
      unfold created at hnew ⊢
      rw [List.filterMap_append, List.nodup_append] at hnew
      exact (List.nodup_cons.1 hnew.2.1).1
    have hp : (((new hours mint).run before).act (.create id plan t)).Proper :=
      proper_act (proper_run (proper_new hours mint) before) _
    obtain ⟨e, he, hb⟩ := exists_isBroken_of_isEndless (l := (new hours mint).run before)
      (by rw [defaultHours_run]; exact hplan) id t
    obtain ⟨e', he', hb'⟩ := exists_isBroken_of_run hp he hb hfresh
    rw [run_append] at hspan
    exact nomatch (hspan id e' he').symm.trans hb'
  · intro hnone id e he
    obtain ⟨plan, t, hm, hcreator, hhours⟩ := exists_plan_of_run he
    rw [Bool.eq_false_iff, ne_eq, Entry.isBroken_iff (hw id e he).room.hours, hhours]
    exact fun hlong => hnone id plan t hm ⟨hcreator, hlong⟩

/-- A room of as many hours as a span can have, beside one of an hour. -/
def longest : List Act :=
  [.create "r" { creator := "ann", recycleHours := some 2562047788015 } ⟨0, false⟩,
    .create "s" { creator := "bo", recycleHours := some 1 } ⟨0, false⟩]

/-- A room of one hour more than that, beside one of an hour. -/
def endless : List Act :=
  [.create "r" { creator := "ann", recycleHours := some 2562047788016 } ⟨0, false⟩,
    .create "s" { creator := "bo", recycleHours := some 1 } ⟨0, false⟩]

theorem reap_completes_longest :
    (created longest).Nodup ∧ (created endless).Nodup ∧
      (∃ closed, (((new 24 "mint").run longest).reap ⟨2 * Instant.perHour, false⟩).2 = .ok closed) ∧
      ¬ ∃ closed, (((new 24 "mint").run endless).reap ⟨2 * Instant.perHour, false⟩).2
        = .ok closed := by
  refine ⟨by decide, by decide, ?_, ?_⟩
  · rw [reap_completes_iff_of_run 24 "mint" longest (by decide)]
    intro id plan t hm hplan
    unfold longest at hm
    simp only [List.mem_cons, Act.create.injEq, List.not_mem_nil, or_false] at hm
    rcases hm with ⟨_, rfl, _⟩ | ⟨_, rfl, _⟩
    · exact absurd hplan.2 (by decide)
    · exact absurd hplan.2 (by decide)
  · rw [reap_completes_iff_of_run 24 "mint" endless (by decide)]
    intro hnone
    exact hnone "r" _ _ List.mem_cons_self ⟨by decide, by decide⟩

/-- Settings that are accepted do not keep recycling from breaking down: neither if a plan asks for
too many hours, nor if they give them to a room without any. -/
theorem not_reap_completes_endless :
    (¬ ∀ (s : Settings) (mint : String) (as : List Act) (now : Instant), s.check = .ok () →
      ∃ closed, (((new s.rooms.defaultRecycleHours mint).run as).reap now).2 = .ok closed) ∧
    ∃ s : Settings, s.check = .ok () ∧
      (((new s.rooms.defaultRecycleHours "mint").run
        [.create "r" { creator := "ann" } ⟨0, false⟩]).reap ⟨0, false⟩).2 = .error .hours := by
  constructor
  · intro hcompletes
    obtain ⟨closed, hok⟩ := hcompletes {} "mint" endless ⟨2 * Instant.perHour, false⟩ (by decide)
    have hbreak : (((new 24 "mint").run endless).reap ⟨2 * Instant.perHour, false⟩).2
        = .error .hours := by
      decide +kernel
    exact nomatch hok.symm.trans hbreak
  · exact ⟨{ rooms := { defaultRecycleHours := 2562047788016 } }, by decide, by decide +kernel⟩

end SwapFloor.Lobby
