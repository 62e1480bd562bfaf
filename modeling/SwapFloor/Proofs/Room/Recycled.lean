import SwapFloor.Proofs.Room.Recycling

/-!
# What recycling does

Recycling looks at the rooms twice. First it closes the open ones that had no activity for longer
than their hours, then it removes the closed ones whose closing is longer ago than their hours. A
room that it has just closed was closed no time ago, so the second look lets it be; whatever is
left needs no recycling at the same time again. Times may lie in any order: a clock that is behind
makes every room young.

Main statement: `recycled_of_run`.
-/

namespace SwapFloor.Lobby

namespace Entry

/-- The hours of the room span some time. -/
def Spans (e : Entry) : Prop := (Instant.hours? e.room.recycleHours.toInt).isSome = true

/-- The hours of the room, as a span. -/
def span (e : Entry) : Int := e.room.recycleHours.toInt * Instant.perHour

/-- An open room that had no activity for longer than its hours. -/
def Overdue (e : Entry) (now : Instant) : Prop :=
  e.room.status = .open ∧ e.span < now.since e.room.lastActive

/-- A closed room whose closing is longer ago than its hours. -/
def Outdated (e : Entry) (now : Instant) : Prop :=
  e.room.status = .closed ∧ ∃ closed, e.room.closedAt = some closed ∧ e.span < now.since closed

/-- The one entry was closed and gave the other: the room has the time of its closing, everyone
who was there has left at that time, and who was away is as before. -/
structure ClosedTo (e e' : Entry) (now : Instant) : Prop where
  room : e'.room = { e.room with status := .closed, closedAt := some now }
  members : ∀ wallet, e'.members.get? wallet = (e.members.get? wallet).map fun m =>
    if m.active then { m with active := false, leaveTime := some now, lastActive := now } else m
  stats : e'.stats = e.stats

section

variable {e : Entry} {now : Instant}

theorem recycleSpan_of_spans (h : e.Spans) : e.room.recycleSpan = .ok e.span := by
  obtain ⟨span, hspan⟩ := Option.isSome_iff_exists.1 h
  have hsame : span = e.span := by
    unfold Instant.hours? at hspan
    split at hspan
    · exact (Option.some.inj hspan).symm
    · cases hspan
  unfold Room.recycleSpan
  rw [hspan, hsame]

theorem isBroken_of_spans (h : e.Spans) : e.isBroken = false := by
  unfold isBroken
  rw [recycleSpan_of_spans h]

theorem isDue_iff (h : e.Spans) : e.isDue now = true ↔ e.Overdue now := by
  unfold isDue Room.isExpired Overdue
  rw [recycleSpan_of_spans h, Bool.and_eq_true, beq_iff_eq]
  exact and_congr_right fun _ => decide_eq_true_iff

theorem isKept_eq_false_iff (hw : e.room.WellFormed) (h : e.Spans) :
    e.isKept now = false ↔ e.Outdated now := by
  unfold isKept Outdated
  rw [recycleSpan_of_spans h]
  cases hclosed : e.room.closedAt with
  | none => simp
  | some closed =>
    have hstatus : e.room.status = .closed := hw.dated.1 (by rw [hclosed]; rfl)
    simp [hstatus]

theorem closedTo_shut (e : Entry) (now : Instant) : e.ClosedTo (e.shut now) now where
  room := rfl
  members wallet := by
    refine (Table.get?_map ..).trans (congrArg (Option.map · _) (funext fun m => ?_))
    unfold Member.deactivate
    split <;> rfl
  stats := rfl

/-- A room that is closed now was closed no time ago. -/
theorem isKept_shut (h : e.Spans) (hw : e.room.WellFormed) (now : Instant) :
    (e.shut now).isKept now = true := by
  have hpos : 0 < e.room.recycleHours.toInt := Int64.lt_iff_toInt_lt.1 hw.hours
  have hkept : now.since now ≤ e.span := by
    unfold Instant.since span Instant.perHour Instant.perSecond
    omega
  unfold isKept
  rw [recycleSpan_of_spans (e := e.shut now) h]
  exact decide_eq_true hkept

theorem isDue_shut (e : Entry) (now later : Instant) : (e.shut now).isDue later = false := rfl

end

end Entry

/-! ## One recycling -/

/-- What one recycling of a lobby leaves, and the rooms that it tells of. -/
structure Recycled (l l' : Lobby) (now : Instant) (told : List Room) : Prop where
  told_iff : ∀ room, room ∈ told ↔ ∃ id e, l.get? id = some e ∧ e.Overdue now ∧
    room = { e.room with status := .closed, closedAt := some now }
  once : (told.map (·.id)).Nodup
  closed : ∀ id e, l.get? id = some e → e.Overdue now →
    ∃ e', l'.get? id = some e' ∧ e.ClosedTo e' now
  removed : ∀ id e, l.get? id = some e → e.Outdated now → l'.get? id = none
  kept : ∀ id e, l.get? id = some e → ¬ e.Overdue now → ¬ e.Outdated now → l'.get? id = some e
  absent : ∀ id, l.get? id = none → l'.get? id = none
  defaultHours : l'.defaultHours = l.defaultHours
  quoteMint : l'.quoteMint = l.quoteMint

section

variable {l l' : Lobby} {now : Instant} {told : List Room}

/-- The hours of every room span some time. -/
def Spans (l : Lobby) : Prop := ∀ id e, l.get? id = some e → e.Spans

theorem Spans.hasBroken (h : l.Spans) (stop : Entry → Bool) : l.hasBroken stop = false :=
  hasBroken_eq_false fun id e he => Entry.isBroken_of_spans (h id e he)

/-- Recycling tells of the rooms in the order in which it comes to them, of each one once. -/
theorem once_of_reap (hw : l.WellFormed) (hs : l.Spans) (h : l.reap now = (l', .ok told)) :
    (told.map (·.id)).Nodup := by
  have htold : told = (l.dueClosed now).map fun e => e.2.room := by
    have hok := (reap_eq_ok_iff.1 (congrArg Prod.snd h)).2.2
    rwa [closeDue_eq (hs.hasBroken _)] at hok
  have hids : told.map (·.id)
      = (l.entries.entries.filter fun e => e.2.isDue now).map Prod.fst := by
    rw [htold, dueClosed, List.map_map, List.map_map]
    refine List.map_congr_left fun e he => ?_
    exact (hw e.1 e.2 (Table.get?_eq_some_iff.2 (List.mem_filter.1 he).1)).own
  rw [hids]
  exact l.entries.nodup.sublist (List.filter_sublist.map _)

theorem defaultHours_reap (h : l.reap now = (l', .ok told)) : l'.defaultHours = l.defaultHours := by
  have hact := defaultHours_act l (.reap now)
  rwa [show l.act (.reap now) = l' from congrArg Prod.fst h] at hact

theorem recycled_of_reap (hw : l.WellFormed) (hs : l.Spans) (h : l.reap now = (l', .ok told)) :
    l.Recycled l' now told := by
  obtain ⟨hget, hmem, hmint⟩ := reap_eq h
  refine ⟨fun room => ?_, once_of_reap hw hs h, fun id e he hdue => ?_, fun id e he hold => ?_,
    fun id e he hdue hold => ?_, fun id he => ?_, defaultHours_reap h, hmint⟩
  · rw [hmem]
    refine exists_congr fun id => exists_congr fun e => and_congr_right fun he => ?_
    exact and_congr_left' (Entry.isDue_iff (hs id e he))
  · refine ⟨e.shut now, ?_, e.closedTo_shut now⟩
    rw [hget, he, Option.map_some, if_pos ((Entry.isDue_iff (hs id e he)).2 hdue),
      Option.filter_some, if_pos (Entry.isKept_shut (hs id e he) (hw id e he).room now)]
  · have hopen : ¬ e.isDue now = true := fun hd => by
      have hboth := hold.1.symm.trans (Entry.isDue_open hd)
      exact nomatch hboth
    have hgone := (Entry.isKept_eq_false_iff (hw id e he).room (hs id e he)).2 hold
    rw [hget, he, Option.map_some, if_neg hopen, Option.filter_some,
      if_neg (Bool.eq_false_iff.1 hgone)]
  · have hopen : ¬ e.isDue now = true := fun hd => hdue ((Entry.isDue_iff (hs id e he)).1 hd)
    have hkept : e.isKept now = true := by
      rw [← Bool.not_eq_false]
      exact fun hf => hold ((Entry.isKept_eq_false_iff (hw id e he).room (hs id e he)).1 hf)
    rw [hget, he, Option.map_some, if_neg hopen, Option.filter_some, if_pos hkept]
  · rw [hget, he]
    rfl

/-- What recycling leaves is neither due nor to be removed at the same time again. -/
theorem settled_of_reap (hs : l.Spans) (h : l.reap now = (l', .ok told)) {id : String} {e' : Entry}
    (he' : l'.get? id = some e') :
    e'.Spans ∧ e'.isDue now = false ∧ e'.isKept now = true := by
  rw [(reap_eq h).1 id, Option.filter_eq_some_iff, Option.map_eq_some_iff] at he'
  obtain ⟨⟨e, he, rfl⟩, hkept⟩ := he'
  by_cases hdue : e.isDue now = true
  · rw [if_pos hdue] at hkept ⊢
    exact ⟨hs id e he, e.isDue_shut now now, hkept⟩
  · rw [if_neg hdue] at hkept ⊢
    exact ⟨hs id e he, Bool.eq_false_iff.2 hdue, hkept⟩

/-- Recycling leaves a lobby alone in which nothing is due and nothing is to be removed. -/
theorem reap_of_settled (h : ∀ id e, l.get? id = some e →
    e.Spans ∧ e.isDue now = false ∧ e.isKept now = true) : l.reap now = (l, .ok []) := by
  have hs : l.Spans := fun id e he => (h id e he).1
  have hentry : ∀ p ∈ l.entries.entries, p.2.isDue now = false ∧ p.2.isKept now = true := fun p hp =>
    (h p.1 p.2 (Table.get?_eq_some_iff.2 hp)).2
  have hclose : l.closeDue now = (l, []) := by
    have hnone : l.dueClosed now = [] := by
      unfold dueClosed
      rw [List.map_eq_nil_iff, List.filter_eq_nil_iff]
      exact fun p hp => Bool.eq_false_iff.1 (hentry p hp).1
    rw [closeDue_eq (hs.hasBroken _), hnone]
    exact Prod.ext (congrArg (fun t => { l with entries := t })
      (Table.map_eq_self fun _ _ => rfl)) rfl
  have hremove : l.removeOld now = l := by
    have hnone : ((l.reached (·.room.closedAt.isSome)).filter fun e => !e.2.isKept now) = [] := by
      rw [reached_eq (hs.hasBroken _), List.filter_eq_nil_iff]
      intro p hp
      rw [(hentry p hp).2]
      exact Bool.false_ne_true
    unfold removeOld
    rw [hnone]
    exact congrArg (fun t => { l with entries := t }) (Table.filter_eq_self fun _ _ _ => rfl)
  unfold reap
  rw [hclose]
  dsimp only
  rw [hs.hasBroken, hs.hasBroken, hremove]
  rfl

end

/-- Whatever was done with a lobby that began empty, and at whatever times: if the hours of all its
rooms span some time, recycling completes, closes the open rooms without activity for longer than
their hours and tells of exactly these, removes the rooms that were closed before longer ago than
their hours, and leaves all else alone. Done again at the same time, it does nothing. -/
theorem recycled_of_run (hours : Int64) (mint : String) (as : List Act)
    (hs : ((new hours mint).run as).Spans) (now : Instant) :
    ∃ l' told, ((new hours mint).run as).reap now = (l', .ok told) ∧
      ((new hours mint).run as).Recycled l' now told ∧ l'.reap now = (l', .ok []) := by
  generalize hl : (new hours mint).run as = l at hs ⊢
  have hw : l.WellFormed := hl ▸ (wellFormed_new hours mint).run as
  obtain ⟨told, hok⟩ := (hw.reap_completes_iff now).2 fun id e he =>
    Entry.isBroken_of_spans (hs id e he)
  have h : l.reap now = ((l.reap now).1, .ok told) := Prod.ext rfl hok
  have hagain : (l.reap now).1.reap now = ((l.reap now).1, .ok []) :=
    reap_of_settled fun _ _ he => settled_of_reap hs h he
  exact ⟨(l.reap now).1, told, h, recycled_of_reap hw hs h, hagain⟩

/-- A room that is closed at once, one that Cy has left, one that was active up to its last minute,
and one whose last activity is still to come. -/
def fourRooms : List Act :=
  [.create "shut" { creator := "ann", recycleHours := some 1 } ⟨0, false⟩,
    .close "shut" "ann" ⟨5, false⟩,
    .create "idle" { creator := "bo", recycleHours := some 1 } ⟨0, false⟩,
    .join "idle" "cy" ⟨3, false⟩, .leave "idle" "cy" ⟨7, false⟩,
    .create "edge" { creator := "di", recycleHours := some 2 } ⟨0, false⟩,
    .create "ahead" { creator := "ed", recycleHours := some 1 } ⟨9 * Instant.perHour, false⟩]

theorem recycled_fourRooms :
    ((new 24 "mint").run fourRooms).Spans ∧
    ∃ l' told, ((new 24 "mint").run fourRooms).reap ⟨2 * Instant.perHour, false⟩ = (l', .ok told) ∧
      ((new 24 "mint").run fourRooms).Recycled l' ⟨2 * Instant.perHour, false⟩ told ∧
      l'.reap ⟨2 * Instant.perHour, false⟩ = (l', .ok []) ∧
      told.map (·.id) = ["idle"] ∧ l'.entries.keys = ["idle", "edge", "ahead"] := by
  have hall : ∀ p ∈ ((new 24 "mint").run fourRooms).entries.entries, p.2.Spans := by
    unfold Entry.Spans
    decide +kernel
  have hs : ((new 24 "mint").run fourRooms).Spans := fun id e he =>
    hall (id, e) (Table.get?_eq_some_iff.1 he)
  obtain ⟨l', told, h, hrecycled, hagain⟩ :=
    recycled_of_run 24 "mint" fourRooms hs ⟨2 * Instant.perHour, false⟩
  have hkeys : (((new 24 "mint").run fourRooms).reap ⟨2 * Instant.perHour, false⟩).1.entries.keys
      = ["idle", "edge", "ahead"] := by
    decide +kernel
  have htold : ((((new 24 "mint").run fourRooms).reap ⟨2 * Instant.perHour, false⟩).2.toOption.map
      (·.map (·.id))) = some ["idle"] := by
    decide +kernel
  rw [h] at hkeys htold
  exact ⟨hs, l', told, h, hrecycled, hagain, Option.some.inj htold, hkeys⟩

end SwapFloor.Lobby
