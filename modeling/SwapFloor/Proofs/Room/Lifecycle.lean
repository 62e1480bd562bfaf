import SwapFloor.Proofs.Room.Runs

/-!
# The life of a room

A room goes from open to closed and never back. What it was made of stays, wallets are listed at
the end only, and its last activity does not go back, whatever times operations come with. A closed
room is frozen: neither it nor its members nor its counts change until recycling removes it. Once
it is removed, its id leads nowhere.

Main statement: `lifecycle_of_run`.
-/

namespace SwapFloor

/-! ## Rooms by themselves -/

namespace Room

/-- What a room is made of. -/
structure Origin where
  id : String
  creator : String
  token : Option String
  passwordHash : Option String
  hasPassword : Bool
  recycleHours : Int64
  createdAt : Instant

def origin (r : Room) : Origin :=
  ⟨r.id, r.creator, r.token, r.passwordHash, r.hasPassword, r.recycleHours, r.createdAt⟩

/-- The room may become the other one. -/
structure Onward (r r' : Room) : Prop where
  origin : r'.origin = r.origin
  stage : r'.status = r.status ∨ r.status = .open ∧ r'.status = .closed
  wallets : r.wallets <+: r'.wallets
  lastActive : r.lastActive.nanos ≤ r'.lastActive.nanos

namespace Onward

theorem refl (r : Room) : r.Onward r := ⟨rfl, Or.inl rfl, List.prefix_rfl, Int.le_refl _⟩

theorem trans {r r' r'' : Room} (h : r.Onward r') (h' : r'.Onward r'') : r.Onward r'' where
  origin := h'.origin.trans h.origin
  stage := by
    rcases h'.stage with hs' | ⟨ho', hc'⟩
    · rw [hs']
      exact h.stage
    · rcases h.stage with hs | ⟨_, hc⟩
      · exact Or.inr ⟨hs.symm.trans ho', hc'⟩
      · exact nomatch ho'.symm.trans hc
  wallets := h.wallets.trans h'.wallets
  lastActive := Int.le_trans h.lastActive h'.lastActive

/-- Activity at an earlier time is noted without effect. -/
theorem touch (r : Room) (now : Instant) : r.Onward (r.touch now) where
  origin := by unfold Room.touch; split <;> rfl
  stage := Or.inl (by unfold Room.touch; split <;> rfl)
  wallets := by unfold Room.touch; split <;> exact List.prefix_rfl
  lastActive := by
    rw [touch_lastActive]
    exact Int.le_max_left _ _

theorem addWallet (r : Room) (wallet : String) : r.Onward (r.addWallet wallet) := by
  unfold Room.addWallet
  split
  · exact refl r
  · exact ⟨rfl, Or.inl rfl, List.prefix_append _ _, Int.le_refl _⟩

theorem closed {r : Room} (h : r.status = .open) (now : Instant) :
    r.Onward { r with status := .closed, closedAt := some now } :=
  ⟨rfl, Or.inr ⟨h, rfl⟩, List.prefix_rfl, Int.le_refl _⟩

end Onward

/-- A closed room cannot be closed again. -/
theorem close_of_closed {r : Room} (h : r.status = .closed) (now : Instant) :
    r.close now = .error (Failure.roomClosed r.id) := by
  unfold close advance
  rw [if_pos h]
  rfl

end Room

namespace Lobby

/-! ## Entries -/

namespace Entry

/-- What holds of the entry under an id at all times. -/
structure Proper (e : Entry) (id : String) : Prop where
  sound : e.standing.Sound id
  deserted : e.room.status = .closed → ∀ wallet, e.isActive wallet = false

/-- The entry may become the other one. -/
structure Onward (e e' : Entry) : Prop where
  room : e.room.Onward e'.room
  frozen : e.room.status = .closed → e' = e

namespace Onward

theorem refl (e : Entry) : e.Onward e := ⟨.refl _, fun _ => rfl⟩

theorem trans {e e' e'' : Entry} (h : e.Onward e') (h' : e'.Onward e'') : e.Onward e'' where
  room := h.room.trans h'.room
  frozen hc := by
    have he : e' = e := h.frozen hc
    exact (h'.frozen (he ▸ hc)).trans he

end Onward

theorem leave_of_inactive {e : Entry} {wallet : String} (h : e.isActive wallet = false)
    (now : Instant) : e.leave wallet now = (e, none) := by
  unfold leave
  cases hm : e.members.get? wallet with
  | none => rfl
  | some m =>
    have ha : m.active = false := by
      rw [isActive_eq, hm] at h
      exact h
    dsimp only
    rw [Member.deactivate_of_inactive ha]

theorem Changed.room {e e' : Entry} (h : e.Changed e') : e.room.Onward e'.room := by
  cases h with
  | same => exact .refl _
  | join wallet now _ => exact (Room.Onward.addWallet e.room wallet).trans (.touch _ now)
  | leave wallet now =>
    unfold Entry.leave
    split
    · exact .refl _
    · split
      · exact .touch e.room now
      · exact .refl _
  | touch wallet now _ => exact .touch e.room now
  | count t quoteMint _ => exact .refl _
  | shut now hopen => exact .closed hopen now

/-- Only closing moves the standing of a room. -/
theorem Changed.standing {e e' : Entry} (h : e.Changed e') :
    e'.standing = e.standing ∨ ∃ now, e' = e.shut now := by
  cases h with
  | same => exact Or.inl rfl
  | join wallet now _ => exact Or.inl (standing_join e wallet now)
  | leave wallet now => exact Or.inl (standing_leave e wallet now)
  | touch wallet now _ => exact Or.inl (standing_touch e wallet now)
  | count t quoteMint _ => exact Or.inl (standing_count e t quoteMint)
  | shut now _ => exact Or.inr ⟨now, rfl⟩

namespace Proper

variable {e e' : Entry} {id : String}

theorem onward (he : e.Proper id) (h : e.Changed e') : e.Onward e' := by
  refine ⟨h.room, fun hc => ?_⟩
  cases h with
  | same => rfl
  | leave wallet now =>
    -- the status is not asked for, but nobody is left to go
    rw [leave_of_inactive (he.deserted hc wallet)]
  | shut now hopen => exact nomatch hopen.symm.trans hc
  | join wallet now hne => exact absurd hc hne
  | touch wallet now hne => exact absurd hc hne
  | count t quoteMint hne => exact absurd hc hne

theorem changed (he : e.Proper id) (h : e.Changed e') : e'.Proper id := by
  rcases h.standing with hs | ⟨now, rfl⟩
  · refine ⟨hs ▸ he.sound, fun hc => ?_⟩
    have hc : e.room.status = .closed := (congrArg Standing.status hs).symm.trans hc
    rw [(he.onward h).frozen hc]
    exact he.deserted hc
  · exact ⟨sound_shut he.sound now, fun _ wallet => isActive_shut e now wallet⟩

end Proper

end Entry

/-! ## What the lobby answers -/

/-- What the lobby answers when it is asked to do something with a closed room. -/
structure AnswersClosed (l : Lobby) (id : String) (e : Entry) : Prop where
  join : ∀ wallet now, Text.trim wallet ≠ "" →
    l.join id wallet now = .error (Failure.roomClosed id)
  touch : ∀ wallet now, l.touch id wallet now = .error (Failure.roomClosed id)
  recordTrade : ∀ t, l.recordTrade id t = .error (Failure.roomClosed id)
  closeOwn : ∀ now, l.close id e.room.creator now = .error (Failure.roomClosed id)
  closeOther : ∀ requester now, requester ≠ e.room.creator →
    l.close id requester now = .error (Failure.notCreator id)
  leave : ∀ wallet now, l.leave id wallet now = .ok (l, none)

/-- What the lobby answers when it is asked to do something with a room that it does not have. -/
structure AnswersMissing (l : Lobby) (id : String) : Prop where
  join : ∀ wallet now, Text.trim wallet ≠ "" →
    l.join id wallet now = .error (Failure.roomNotFound id)
  touch : ∀ wallet now, l.touch id wallet now = .error (Failure.roomNotFound id)
  recordTrade : ∀ t, l.recordTrade id t = .error (Failure.roomNotFound id)
  close : ∀ requester now, l.close id requester now = .error (Failure.roomNotFound id)
  leave : ∀ wallet now, l.leave id wallet now = .error (Failure.roomNotFound id)

section Answers

variable {l : Lobby} {id : String}

/-- What refuses the entry of an open room refuses to let in, to note activity and to count. -/
theorem refused_of_openEntry {f : Failure} (h : l.openEntry id = .error f) :
    (∀ wallet now, Text.trim wallet ≠ "" → l.join id wallet now = .error f) ∧
    (∀ wallet now, l.touch id wallet now = .error f) ∧
    ∀ t, l.recordTrade id t = .error f := by
  refine ⟨fun wallet now hw => ?_, fun wallet now => ?_, fun t => ?_⟩
  · unfold join
    dsimp only
    rw [if_neg hw, h]
    rfl
  · unfold touch
    rw [h]
    rfl
  · unfold recordTrade
    rw [h]
    rfl

theorem answersClosed {e : Entry} (he : l.get? id = some e) (hp : e.Proper id)
    (hc : e.room.status = .closed) : l.AnswersClosed id e := by
  have hentry : l.entry id = .ok e := entry_eq_ok_iff.2 he
  obtain ⟨hjoin, htouch, hrecord⟩ := refused_of_openEntry (openEntry_of_closed he hc)
  refine ⟨hjoin, htouch, hrecord, fun now => ?_, fun requester now hr => ?_, fun wallet now => ?_⟩
  · have hown : e.room.id = id := hp.sound.own
    have hclose : e.close now = .error (Failure.roomClosed id) := by
      unfold Entry.close
      rw [Room.close_of_closed hc, hown]
      rfl
    unfold close
    rw [hentry]
    show (if e.room.creator ≠ e.room.creator then _ else _) = _
    rw [if_neg (not_not_intro rfl), hclose]
    rfl
  · unfold close
    rw [hentry]
    exact if_pos hr.symm
  · have hsame : l.update id e = l := by
      unfold update
      rw [Table.insert_of_get? he]
    unfold leave
    rw [hentry]
    show Except.ok (l.update id (e.leave wallet now).1, (e.leave wallet now).2) = _
    rw [Entry.leave_of_inactive (hp.deserted hc wallet), hsame]

theorem answersMissing (h : l.get? id = none) : l.AnswersMissing id := by
  have hentry := entry_of_get?_eq_none h
  obtain ⟨hjoin, htouch, hrecord⟩ := refused_of_openEntry (openEntry_of_get?_eq_none h)
  refine ⟨hjoin, htouch, hrecord, fun requester now => ?_, fun wallet now => ?_⟩
  · unfold close
    rw [hentry]
    rfl
  · unfold leave
    rw [hentry]
    rfl

end Answers

/-! ## Runs -/

/-- All entries are as they should be. -/
def Proper (l : Lobby) : Prop := ∀ id e, l.get? id = some e → e.Proper id

theorem proper_new (hours : Int64) (mint : String) : (new hours mint).Proper :=
  fun _ _ h => nomatch h

section Run

variable {l : Lobby} {id : String}

theorem proper_create {l' : Lobby} {plan : Plan} {now : Instant} {room : Room} (hl : l.Proper)
    (h : l.create id plan now = .ok (l', room)) : l'.Proper := by
  have hsound : l'.Sound := sound_create (fun id' e he => (hl id' e he).sound) h
  intro id' e he
  refine ⟨hsound id' e he, fun hc => ?_⟩
  obtain ⟨_, _, hroom, rfl⟩ := create_eq h
  rw [get?_update] at he
  split at he
  · cases he
    rw [hroom] at hc
    exact nomatch hc
  · exact (hl id' e he).deserted hc

theorem proper_act (hl : l.Proper) (a : Act) : (l.act a).Proper := by
  intro id e' he'
  by_cases ha : a.created? = some id
  · cases a with
    | create id' plan now =>
      revert he'
      show (l.afterwards (l.create id' plan now)).get? id = some e' → _
      cases h : l.create id' plan now with
      | error f => exact hl id e'
      | ok r => exact proper_create hl h id e'
    | _ => cases ha
  · cases hg : l.get? id with
    | none => exact nomatch (absent_act ha hg).symm.trans he'
    | some e => exact (hl id e hg).changed (changed_of_act ha hg he')

theorem proper_run (hl : l.Proper) (as : List Act) : (l.run as).Proper := by
  induction as generalizing l with
  | nil => exact hl
  | cons a as ih => exact ih (proper_act hl a)

/-- No room appears under an id for which none is created. -/
theorem absent_run {as : List Act} (hnew : id ∉ created as) (h : l.get? id = none) :
    (l.run as).get? id = none := by
  induction as generalizing l with
  | nil => exact h
  | cons a as ih =>
    obtain ⟨ha, hnew⟩ := not_mem_created_cons.1 hnew
    exact ih hnew (absent_act ha h)

theorem onward_run {as : List Act} (hl : l.Proper) (hnew : id ∉ created as) {e e' : Entry}
    (he : l.get? id = some e) (he' : (l.run as).get? id = some e') : e.Onward e' := by
  induction as generalizing l e with
  | nil =>
    cases he.symm.trans he'
    exact .refl _
  | cons a as ih =>
    obtain ⟨ha, hnew⟩ := not_mem_created_cons.1 hnew
    cases hg : (l.act a).get? id with
    | none => exact nomatch (absent_run hnew hg).symm.trans he'
    | some e₁ =>
      have hstep : e.Onward e₁ := (hl id e he).onward (changed_of_act ha he hg)
      exact hstep.trans (ih (proper_act hl a) hnew hg he')

/-- A room that is missing in the end was removed when rooms were recycled. -/
theorem removed_run {as : List Act} (hnew : id ∉ created as) {e : Entry}
    (he : l.get? id = some e) (hgone : (l.run as).get? id = none) :
    ∃ as₁ now as₂, as = as₁ ++ .reap now :: as₂ ∧ ((l.run as₁).get? id).isSome = true ∧
      ((l.run as₁).act (.reap now)).get? id = none := by
  induction as generalizing l e with
  | nil => exact nomatch he.symm.trans hgone
  | cons a as ih =>
    obtain ⟨ha, hnew⟩ := not_mem_created_cons.1 hnew
    cases hg : (l.act a).get? id with
    | none =>
      obtain ⟨now, rfl⟩ := exists_reap_of_act ha he hg
      exact ⟨[], now, as, rfl, Option.isSome_iff_exists.2 ⟨e, he⟩, hg⟩
    | some e₁ =>
      obtain ⟨as₁, now, as₂, rfl, hhad, hremoved⟩ := ih hnew hg hgone
      exact ⟨a :: as₁, now, as₂, rfl, hhad, hremoved⟩

end Run

/-- Take a room that is in the lobby at some time, and a later time before which no other room is
created under its id. If it is there then, it has gone on only, and if it is closed the lobby
refuses what is asked of it. If it is not, recycling has removed it, and it never comes back. -/
theorem lifecycle_of_run (hours : Int64) (mint : String) (before mid after : List Act)
    {id : String} {e : Entry} (he : ((new hours mint).run before).get? id = some e)
    (hnew : id ∉ created (mid ++ after)) :
    (∀ e', ((new hours mint).run (before ++ mid)).get? id = some e' →
      e.Onward e' ∧ (e'.room.status = .open ∨ e'.room.status = .closed) ∧
      (e'.room.status = .closed →
        ((new hours mint).run (before ++ mid)).AnswersClosed id e')) ∧
    (((new hours mint).run (before ++ mid)).get? id = none →
      (∃ as₁ now as₂, mid = as₁ ++ .reap now :: as₂ ∧
        (((new hours mint).run (before ++ as₁)).get? id).isSome = true ∧
        ((new hours mint).run (before ++ as₁ ++ [.reap now])).get? id = none) ∧
      ((new hours mint).run (before ++ mid ++ after)).AnswersMissing id) := by
  have hp : ((new hours mint).run before).Proper := proper_run (proper_new hours mint) before
  obtain ⟨hmid, hafter⟩ := not_mem_created_append.1 hnew
  rw [run_append, run_append _ _ after, run_append]
  refine ⟨fun e' he' => ?_, fun hgone => ?_⟩
  · have hp' : e'.Proper id := proper_run hp mid id e' he'
    exact ⟨onward_run hp hmid he he', hp'.sound.stage, answersClosed he' hp'⟩
  · refine ⟨?_, answersMissing (absent_run hafter hgone)⟩
    obtain ⟨as₁, now, as₂, hsplit, hhad, hremoved⟩ := removed_run hmid he hgone
    refine ⟨as₁, now, as₂, hsplit, ?_, ?_⟩
    · rw [run_append]
      exact hhad
    · rw [run_append, run_append]
      exact hremoved

/-- A room of an hour that its creator closes; the clock goes back meanwhile. -/
def shortLived : List Act :=
  [.create "r" { creator := "ann", recycleHours := some 1 } ⟨9, false⟩, .join "r" "bo" ⟨5, false⟩,
    .close "r" "ann" ⟨7, false⟩]

/-- What is tried with that room later, and with another one. -/
def inVain : List Act :=
  [.leave "r" "bo" ⟨8, false⟩, .create "s" { creator := "bo" } ⟨8, false⟩,
    .join "r" "cy" ⟨6, false⟩, .close "r" "ann" ⟨9, false⟩, .reap ⟨9, false⟩]

/-- Recycling after two hours, and a wallet that comes too late. -/
def removal : List Act := [.reap ⟨2 * Instant.perHour, false⟩, .join "r" "cy" ⟨6, false⟩]

theorem lifecycle_shortLived :
    ("r" ∉ created (inVain ++ []) ∧ "r" ∉ created (removal ++ inVain)) ∧
    ∃ e, ((new 24 "mint").run shortLived).get? "r" = some e ∧
      (e.room.status, e.room.wallets) = (.closed, ["ann", "bo"]) ∧
      ((new 24 "mint").run (shortLived ++ inVain)).get? "r" = some e ∧
      ((new 24 "mint").run (shortLived ++ inVain)).AnswersClosed "r" e ∧
      ((new 24 "mint").run (shortLived ++ removal ++ inVain)).AnswersMissing "r" := by
  have hclosed : (((new 24 "mint").run shortLived).get? "r").map
      (fun e => (e.room.status, e.room.wallets)) = some (.closed, ["ann", "bo"]) := by
    decide +kernel
  have hthere : (((new 24 "mint").run (shortLived ++ inVain)).get? "r").isSome = true := by
    decide +kernel
  have hgone : (((new 24 "mint").run (shortLived ++ removal)).get? "r").isNone = true := by
    decide +kernel
  obtain ⟨e, he, hs⟩ := Option.map_eq_some_iff.1 hclosed
  obtain ⟨e', he'⟩ := Option.isSome_iff_exists.1 hthere
  have hc : e.room.status = .closed := (Prod.mk.inj hs).1
  have hstay := (lifecycle_of_run 24 "mint" shortLived inVain [] he (by decide)).1 e' he'
  have hgo := (lifecycle_of_run 24 "mint" shortLived removal inVain he (by decide)).2
    (Option.isNone_iff_eq_none.1 hgone)
  obtain rfl : e' = e := hstay.1.frozen hc
  exact ⟨by decide, e', he, hs, he', hstay.2.2 hc, hgo.2⟩

end Lobby

end SwapFloor
