import SwapFloor.Proofs.Fanout.Lines

/-!
# Frames arrive in order and without a gap

While a connection is live, an act may submit a frame to it: a broadcast to its room that is
accepted, the last frame for its room, or a frame for it alone. Frames come in at the end of its
outbox and are read at the front, so what was read and what still waits are together what was
submitted, in that order. A frame that does not fit ends the connection, and to one that has ended
nothing is submitted any more: of all frames at most the last is missing.

`Passes` is the law of a line: what waited, then what came in, is what was read, then what waits.
It holds of each act (`passes_act`) and composes, so it holds of a run (`passes_run`).

Main statement: for every run of acts and every connection that somebody still reads
(`gapFree_of_run`).
-/

namespace SwapFloor

/-- The frame of an item. -/
def Outgoing.frame? : Outgoing → Option Frame
  | .frame f => some f
  | .close => none

theorem Outbox.close_cases (o : Outbox) : o.close.abandoned = o.abandoned ∧
    (o.close.waiting = o.waiting ∨ o.close.waiting = o.waiting ++ [.close]) := by
  unfold Outbox.close
  split
  · exact ⟨rfl, Or.inr rfl⟩
  · exact ⟨rfl, Or.inl rfl⟩

theorem Outbox.cancel_cases (o : Outbox) : o.cancel.abandoned = o.abandoned ∧
    (o.cancel.waiting = o.waiting ∨ o.cancel.waiting = o.waiting ++ [.close]) :=
  ⟨rfl, Or.inl rfl⟩

namespace Hub

/-! ## What is submitted and what is read -/

/-- The frame that an act submits to a live connection. -/
def submission? (h : Hub) (id : ConnectionId) (a : Act) : Option Frame :=
  (h.get? id).bind fun c =>
    match a with
    | .broadcast lobby requireRecipients room f =>
      if (Broadcast.toRoom lobby h requireRecipients room f).2.toBool ∧ c.room = room then some f
      else none
    | .send id' f => if id = id' then some f else none
    | .closeRoom room f => if c.room = room then some f else none
    | _ => none

/-- The frames that acts submit to a connection, one after the other. -/
def submitted (h : Hub) (id : ConnectionId) : List Act → List Frame
  | [] => []
  | a :: as => (h.submission? id a).toList ++ (h.act a).submitted id as

/-- What an act reads from an outbox. -/
def taken (h : Hub) (id : ConnectionId) : Act → List Outgoing
  | .take id' n => if id = id' then (h.waiting id).take n else []
  | _ => []

/-- What acts read from an outbox, one after the other. -/
def drained (h : Hub) (id : ConnectionId) : List Act → List Outgoing
  | [] => []
  | a :: as => h.taken id a ++ (h.act a).drained id as

/-- The frames that came into an outbox by acts, one after the other. -/
def accepted (h : Hub) (id : ConnectionId) : List Act → List Frame
  | [] => []
  | a :: as =>
    (if (h.outbox? id).bind Outbox.refusal? = none then (h.submission? id a).toList else [])
      ++ (h.act a).accepted id as

theorem submitted_cons (h : Hub) (id : ConnectionId) (a : Act) (as : List Act) :
    h.submitted id (a :: as) = (h.submission? id a).toList ++ (h.act a).submitted id as := rfl

theorem drained_cons (h : Hub) (id : ConnectionId) (a : Act) (as : List Act) :
    h.drained id (a :: as) = h.taken id a ++ (h.act a).drained id as := rfl

theorem accepted_cons (h : Hub) (id : ConnectionId) (a : Act) (as : List Act) :
    h.accepted id (a :: as)
      = (if (h.outbox? id).bind Outbox.refusal? = none then (h.submission? id a).toList else [])
        ++ (h.act a).accepted id as := rfl

/-- An act submits a frame to a connection whose outbox refuses it, which removes the
connection. -/
def Loses (h : Hub) (a : Act) (id : ConnectionId) (f : Frame) : Prop :=
  h.submission? id a = some f ∧ (∃ r, (h.outbox? id).bind Outbox.refusal? = some r) ∧
    (h.act a).get? id = none

/-- A frame that was submitted to a connection is lost by one of the acts. -/
def LostIn (h : Hub) (as : List Act) (id : ConnectionId) (f : Frame) : Prop :=
  ∃ before a after, as = before ++ a :: after ∧ (h.run before).Loses a id f

namespace Line

/-- The frame that an act submits to a line. -/
def submission? (l : Line) (a : Act) : Option Frame :=
  if l.live.any a.isFor then a.frame? else none

/-- The frame that comes in by an act. -/
def accepted (l : Line) (a : Act) : List Frame :=
  if l.box.refusal? = none then (l.submission? a).toList else []

/-- What an act reads from the outbox of a line. -/
def taken (l : Line) : Act → List Outgoing
  | .take id n => if l.id = id then l.box.waiting.take n else []
  | _ => []

/-- Between two states of a line the frames `new` came in and the items `old` were read. A line
that ends may get a close behind its frames, and one that has ended gets nothing. -/
structure Passes (l l' : Line) (new : List Frame) (old : List Outgoing) : Prop where
  dead : l.live = none → l'.live = none ∧ new = []
  read : l'.box.abandoned = false → l.box.abandoned = false
  conserved : l'.box.abandoned = false → ∃ ended,
    l.box.waiting ++ new.map .frame ++ ended = old ++ l'.box.waiting ∧
      (ended = [] ∨ ended = [.close] ∧ l.live ≠ none ∧ l'.live = none)

namespace Passes

variable {l l' l'' : Line} {new new' : List Frame} {old old' : List Outgoing}

theorem refl (l : Line) : Passes l l [] [] where
  dead hl := ⟨hl, rfl⟩
  read hr := hr
  conserved _ := ⟨[], by simp, Or.inl rfl⟩

theorem trans (h : Passes l l' new old) (h' : Passes l' l'' new' old') :
    Passes l l'' (new ++ new') (old ++ old') where
  dead hl := by
    obtain ⟨hl', rfl⟩ := h.dead hl
    obtain ⟨hl'', rfl⟩ := h'.dead hl'
    exact ⟨hl'', rfl⟩
  read hr := h.read (h'.read hr)
  conserved hr := by
    obtain ⟨ended, he, hend⟩ := h.conserved (h'.read hr)
    obtain ⟨ended', he', hend'⟩ := h'.conserved hr
    rcases hend with rfl | ⟨rfl, hlive, hl'⟩
    · rw [List.append_nil] at he
      refine ⟨ended', ?_, ?_⟩
      · rw [List.append_assoc old, ← he', List.map_append, ← List.append_assoc, he]
        simp only [List.append_assoc]
      · rcases hend' with rfl | ⟨rfl, hlive', hl''⟩
        · exact Or.inl rfl
        · exact Or.inr ⟨rfl, fun hn => hlive' (h.dead hn).1, hl''⟩
    · -- After the close nothing comes in any more.
      obtain ⟨hl'', rfl⟩ := h'.dead hl'
      obtain rfl := hend'.resolve_right fun e => e.2.1 hl'
      rw [List.map_nil, List.append_nil, List.append_nil] at he'
      refine ⟨[.close], ?_, Or.inr ⟨rfl, hlive, hl''⟩⟩
      rw [List.append_nil, he, he', List.append_assoc]

end Passes

/-! ## Single acts -/

theorem live_ne_none {l : Line} {p : Connection → Bool} (hp : l.live.any p = true) :
    l.live ≠ none := by
  intro hn
  rw [hn] at hp
  exact nomatch hp

theorem passes_offerIf (l : Line) (p : Connection → Bool) (f : Frame) :
    Passes l (l.offerIf p f) (if l.live.any p ∧ l.box.refusal? = none then [f] else []) [] := by
  unfold offerIf
  by_cases hp : l.live.any p = true
  · have hlive : l.live ≠ none := live_ne_none hp
    rw [if_pos hp]
    unfold offer
    cases hr : l.box.refusal? with
    | none =>
      rw [if_pos ⟨hp, rfl⟩]
      exact ⟨fun hn => absurd hn hlive, fun hr => hr,
        fun _ => ⟨[], by simp [Outbox.push], Or.inl rfl⟩⟩
    | some r =>
      rw [if_neg (by simp)]
      exact ⟨fun hn => ⟨rfl, rfl⟩, fun hr => hr,
        fun _ => ⟨[], by simp [Outbox.cancel], Or.inl rfl⟩⟩
  · rw [if_neg hp, if_neg fun e => hp e.1]
    exact Passes.refl l

theorem passes_endIf (l : Line) (p : Connection → Bool) {how : Outbox → Outbox}
    (hhow : ∀ o, (how o).abandoned = o.abandoned ∧
      ((how o).waiting = o.waiting ∨ (how o).waiting = o.waiting ++ [.close])) :
    Passes l (l.endIf p how) [] [] := by
  unfold endIf
  by_cases hp : l.live.any p = true
  · have hlive : l.live ≠ none := live_ne_none hp
    rw [if_pos hp]
    obtain ⟨ha, hw⟩ := hhow l.box
    refine ⟨fun _ => ⟨rfl, rfl⟩, fun hr => ha.symm.trans hr, fun _ => ?_⟩
    rcases hw with hw | hw
    · exact ⟨[], by simp [hw], Or.inl rfl⟩
    · exact ⟨[.close], by simp [hw], Or.inr ⟨rfl, hlive, rfl⟩⟩
  · rw [if_neg hp]
    exact Passes.refl l

theorem accepted_eq (l : Line) (a : Act) {f : Frame} (hf : a.frame? = some f) :
    l.accepted a = if l.live.any a.isFor ∧ l.box.refusal? = none then [f] else [] := by
  unfold accepted submission?
  rw [hf]
  by_cases hr : l.box.refusal? = none
  · by_cases hp : l.live.any a.isFor = true
    · simp [hr, hp]
    · simp [hr, hp]
  · simp [hr]

theorem accepted_eq_nil (l : Line) {a : Act} (hf : a.frame? = none) : l.accepted a = [] := by
  unfold accepted submission?
  rw [hf]
  split <;> simp

/-- What an act does to a line. -/
theorem passes_act (l : Line) (a : Act) : Passes l (l.act a) (l.accepted a) (l.taken a) := by
  cases a with
  | register room wallet capacity now =>
    rw [l.accepted_eq_nil rfl]
    exact Passes.refl l
  | unregister id =>
    rw [l.accepted_eq_nil rfl]
    exact l.passes_endIf _ Outbox.cancel_cases
  | broadcast lobby requireRecipients room f =>
    rw [l.accepted_eq _ rfl]
    exact l.passes_offerIf _ f
  | send id f =>
    rw [l.accepted_eq _ rfl]
    exact l.passes_offerIf _ f
  | closeRoom room f =>
    rw [l.accepted_eq _ rfl]
    have h := (l.passes_offerIf (Act.closeRoom room f).isFor f).trans
      (passes_endIf _ (·.room == room) Outbox.close_cases)
    rwa [List.append_nil] at h
  | closeConnection id =>
    rw [l.accepted_eq_nil rfl]
    exact l.passes_endIf _ Outbox.close_cases
  | closeWallet room wallet =>
    rw [l.accepted_eq_nil rfl]
    exact l.passes_endIf _ Outbox.close_cases
  | prune maxIdleMs now =>
    rw [l.accepted_eq_nil rfl]
    exact l.passes_endIf _ Outbox.cancel_cases
  | ping id now =>
    rw [l.accepted_eq_nil rfl]
    exact ⟨fun hl => ⟨by simp [Line.act, hl], rfl⟩, fun hr => hr,
      fun _ => ⟨[], by simp [Line.act, taken], Or.inl rfl⟩⟩
  | take id n =>
    rw [l.accepted_eq_nil rfl]
    dsimp only [Line.act, onBox, taken]
    by_cases hid : l.id = id
    · rw [if_pos hid, if_pos hid]
      exact ⟨fun hl => ⟨hl, rfl⟩, fun hr => hr,
        fun _ => ⟨[], by simp [Outbox.take], Or.inl rfl⟩⟩
    · rw [if_neg hid, if_neg hid]
      exact Passes.refl l
  | abandon id =>
    rw [l.accepted_eq_nil rfl]
    dsimp only [Line.act, onBox]
    by_cases hid : l.id = id
    · rw [if_pos hid]
      refine ⟨fun hl => ⟨hl, rfl⟩, fun hr => ?_, fun hr => ?_⟩ <;> exact absurd hr nofun
    · rw [if_neg hid]
      exact Passes.refl l

/-- A line that cannot take the frame submitted to it ends. -/
theorem act_of_refused {l : Line} {a : Act} {f : Frame} (hs : l.submission? a = some f)
    (hr : l.box.refusal? ≠ none) : (l.act a).live = none := by
  unfold submission? at hs
  by_cases hp : l.live.any a.isFor = true
  · rw [if_pos hp] at hs
    have hoffer : (l.offerIf a.isFor f).live = none := by
      unfold offerIf offer
      rw [if_pos hp]
      cases h : l.box.refusal? with
      | none => exact absurd h hr
      | some r => rfl
    cases a with
    | broadcast lobby requireRecipients room g =>
      cases hs
      exact hoffer
    | send id g =>
      cases hs
      exact hoffer
    | closeRoom room g =>
      cases hs
      exact ((passes_endIf _ (·.room == room) Outbox.close_cases).dead hoffer).1
    | _ => exact nomatch hs
  · rw [if_neg hp] at hs
    exact nomatch hs

end Line

/-! ## A run -/

section Run

variable {h : Hub} {id : ConnectionId} {l : Line}

theorem Coherent.run (hc : h.Coherent) (as : List Act) : (h.run as).Coherent := by
  induction as generalizing h with
  | nil => exact hc
  | cons a as ih => exact ih (hc.act a)

theorem run_append (h : Hub) (as bs : List Act) : h.run (as ++ bs) = (h.run as).run bs :=
  List.foldl_append

/-- A room to which somebody is connected gets a broadcast if it is open. -/
theorem toBool_toRoom (lobby : Lobby) (requireRecipients : Bool) {room : String} (f : Frame)
    (hid : id ∈ (h.connections room).map (·.id)) :
    (Broadcast.toRoom lobby h requireRecipients room f).2.toBool
      = (lobby.openEntry room).toBool := by
  have hsome : ¬ (((h.connections room).map (·.id)).isEmpty ∧ requireRecipients) := fun e => by
    rw [List.isEmpty_iff.1 e.1] at hid
    exact nomatch hid
  unfold Broadcast.toRoom
  cases lobby.openEntry room with
  | error e => rfl
  | ok e =>
    dsimp only
    rw [if_neg hsome]
    rfl

theorem submission?_eq (hc : h.Coherent) (hl : h.line? id = some l) (a : Act) :
    h.submission? id a = l.submission? a := by
  obtain ⟨_, hlive, _⟩ := line?_eq_some_iff.1 hl
  unfold submission? Line.submission?
  rw [← hlive]
  cases hg : h.get? id with
  | none => rfl
  | some c =>
    have hid := (hc.get?_rooms hg).2
    rw [Option.bind_some, Option.any_some]
    cases a with
    | broadcast lobby requireRecipients room f =>
      by_cases hroom : c.room = room
      · have hmem := hc.mem_connections_ids.2 ⟨c, hg, hroom⟩
        simp [Act.isFor, Act.frame?, toBool_toRoom lobby requireRecipients f hmem, hroom]
      · simp [Act.isFor, hroom]
    | send id' f => simp [Act.isFor, Act.frame?, hid]
    | closeRoom room f => simp [Act.isFor, Act.frame?]
    | _ => rfl

theorem taken_eq (hl : h.line? id = some l) (a : Act) : h.taken id a = l.taken a := by
  obtain ⟨hbox, _, hid⟩ := line?_eq_some_iff.1 hl
  unfold taken Line.taken waiting
  rw [hbox, hid]
  cases a <;> rfl

/-- What a run does to the line of a connection. -/
theorem passes_run (hc : h.Coherent) (hl : h.line? id = some l) (as : List Act) :
    ∃ l', (h.run as).line? id = some l' ∧ l.Passes l' (h.accepted id as) (h.drained id as) := by
  induction as generalizing h l with
  | nil => exact ⟨l, hl, Line.Passes.refl l⟩
  | cons a as ih =>
    obtain ⟨l', hl', hp⟩ := ih (hc.act a) (line?_act hc hl a)
    have hone := l.passes_act a
    refine ⟨l', hl', ?_⟩
    rw [accepted_cons, drained_cons, submission?_eq hc hl, taken_eq hl, (line?_eq_some_iff.1 hl).1]
    exact hone.trans hp

theorem submission?_eq_none (hg : h.get? id = none) (a : Act) : h.submission? id a = none := by
  unfold submission?
  rw [hg]
  rfl

/-- To a connection that has ended nothing is submitted. -/
theorem submitted_of_ended (hc : h.Coherent) (hl : h.line? id = some l) (hdead : l.live = none)
    (as : List Act) : h.submitted id as = [] := by
  induction as generalizing h l with
  | nil => rfl
  | cons a as ih =>
    have hg : h.get? id = none := (line?_eq_some_iff.1 hl).2.1.trans hdead
    have hdead' : (l.act a).live = none := ((l.passes_act a).dead hdead).1
    rw [submitted_cons, submission?_eq_none hg, ih (hc.act a) (line?_act hc hl a) hdead']
    rfl

/-- A connection whose outbox refuses a frame is removed. -/
theorem loses_of_refused (hc : h.Coherent) {a : Act} {f : Frame} {r : Outbox.Refusal}
    (hs : h.submission? id a = some f) (hr : (h.outbox? id).bind Outbox.refusal? = some r) :
    h.Loses a id f ∧ ∃ l, (h.act a).line? id = some l ∧ l.live = none := by
  obtain ⟨o, ho, hro⟩ := Option.bind_eq_some_iff.1 hr
  have hl : h.line? id = some ⟨id, h.get? id, o⟩ := line?_eq_some_iff.2 ⟨ho, rfl, rfl⟩
  have hl' := line?_act hc hl a
  have hdead := Line.act_of_refused ((submission?_eq hc hl a).symm.trans hs)
    (by rw [hro]; exact Option.some_ne_none r)
  exact ⟨⟨hs, ⟨r, hr⟩, (line?_eq_some_iff.1 hl').2.1.trans hdead⟩, _, hl', hdead⟩

theorem lostIn_cons_iff {a : Act} {as : List Act} {f : Frame} :
    h.LostIn (a :: as) id f ↔ h.Loses a id f ∨ (h.act a).LostIn as id f := by
  constructor
  · rintro ⟨before, b, after, he, hlose⟩
    cases before with
    | nil =>
      obtain ⟨rfl, rfl⟩ := List.cons.inj he
      exact Or.inl hlose
    | cons c before =>
      obtain ⟨rfl, rfl⟩ := List.cons.inj he
      exact Or.inr ⟨before, b, after, rfl, hlose⟩
  · rintro (hlose | ⟨before, b, after, rfl, hlose⟩)
    · exact ⟨[], a, as, rfl, hlose⟩
    · exact ⟨a :: before, b, after, rfl, hlose⟩

/-- What came in is all that was submitted, or all but the last frame, which was lost. -/
theorem accepted_or_lost (hc : h.Coherent) (as : List Act) :
    (∀ f, ¬ h.LostIn as id f) ∧ h.accepted id as = h.submitted id as ∨
      ∃ f, h.LostIn as id f ∧ h.accepted id as ++ [f] = h.submitted id as := by
  induction as generalizing h with
  | nil => exact Or.inl ⟨fun f ⟨before, a, after, he, _⟩ => by simp at he, rfl⟩
  | cons a as ih =>
    rw [accepted_cons, submitted_cons]
    by_cases hlose : ∃ f, h.Loses a id f
    · obtain ⟨f, hlose⟩ := hlose
      have ⟨hs, ⟨r, hr⟩, _⟩ := hlose
      obtain ⟨_, l, hl, hdead⟩ := loses_of_refused hc hs hr
      obtain ⟨_, _, hp⟩ := passes_run (hc.act a) hl as
      refine Or.inr ⟨f, lostIn_cons_iff.2 (Or.inl hlose), ?_⟩
      rw [hr, hs, (hp.dead hdead).2, submitted_of_ended (hc.act a) hl hdead]
      rfl
    · have hsame : (if (h.outbox? id).bind Outbox.refusal? = none
          then (h.submission? id a).toList else []) = (h.submission? id a).toList := by
        split
        · rfl
        · rename_i hr
          obtain ⟨r, hr⟩ := Option.ne_none_iff_exists'.1 hr
          cases hs : h.submission? id a with
          | none => rfl
          | some f => exact absurd ⟨f, (loses_of_refused hc hs hr).1⟩ hlose
      rw [hsame]
      rcases ih (hc.act a) with ⟨hnot, he⟩ | ⟨f, hlost, he⟩
      · left
        refine ⟨fun f hlost => ?_, by rw [he]⟩
        exact (lostIn_cons_iff.1 hlost).elim (fun e => hlose ⟨f, e⟩) (hnot f)
      · right
        exact ⟨f, lostIn_cons_iff.2 (Or.inr hlost), by rw [List.append_assoc, he]⟩

/-- The line of a connection that registers during a run begins with an empty outbox. -/
theorem passes_of_none (hc : h.Coherent) (hl : h.line? id = none) {as : List Act}
    (hl' : (h.run as).line? id = some l) :
    ∃ c capacity, Line.Passes ⟨id, some c, .new capacity⟩ l (h.accepted id as)
      (h.drained id as) := by
  induction as generalizing h with
  | nil => exact nomatch hl.symm.trans hl'
  | cons a as ih =>
    have hbox : h.outbox? id = none := line?_eq_none_iff.1 hl
    have hg : h.get? id = none := by
      cases hg : h.get? id with
      | none => rfl
      | some c =>
        obtain ⟨o, ho⟩ := hc.exists_outbox hg
        exact nomatch ho.symm.trans hbox
    have hnew : h.accepted id (a :: as) = (h.act a).accepted id as := by
      rw [accepted_cons, submission?_eq_none hg]
      simp
    have hold : h.drained id (a :: as) = (h.act a).drained id as := by
      have htaken : h.taken id a = [] := by
        unfold taken waiting
        rw [hbox]
        cases a <;> simp
      rw [drained_cons, htaken]
      rfl
    rw [hnew, hold]
    rcases line?_act_of_none hc hl a with hn | ⟨c, capacity, hs⟩
    · exact ih (hc.act a) hn hl'
    · obtain ⟨l', hrun, hp⟩ := passes_run (hc.act a) hs as
      obtain rfl := Option.some.inj (hrun.symm.trans hl')
      exact ⟨c, capacity, hp⟩

end Run

/-! ## The whole of a connection -/

/-- The frames that were read from an outbox in a run, then those that still wait in it. -/
def received (as : List Act) (id : ConnectionId) (o : Outbox) : List Frame :=
  (empty.drained id as ++ o.waiting).filterMap Outgoing.frame?

/-- After a run that starts with no connection, a connection with the outbox `o` got its frames
without a gap and in order. -/
structure GapFree (as : List Act) (id : ConnectionId) (o : Outbox) : Prop where
  /-- Nothing was lost, or the last frame was, for which the connection was removed. -/
  complete : (∀ f, ¬ empty.LostIn as id f) ∧ received as id o = empty.submitted id as ∨
    ∃ f, empty.LostIn as id f ∧ received as id o ++ [f] = empty.submitted id as
  /-- Only a close comes beside the frames, behind all of them, to a removed connection. -/
  closing : ∃ ended,
    empty.drained id as ++ o.waiting = (received as id o).map .frame ++ ended ∧
      (ended = [] ∨ ended = [.close] ∧ (empty.run as).get? id = none)
  /-- Once the connection is removed it stays so, nothing is submitted to it and nothing comes
  in: what waits is read, and the rest still waits at the end. -/
  afterwards : ∀ before after, as = before ++ after →
    ((empty.run before).outbox? id).isSome → (empty.run before).get? id = none →
      (empty.run as).get? id = none ∧ (empty.run before).submitted id after = [] ∧
        (empty.run before).waiting id = (empty.run before).drained id after ++ o.waiting

/-- Each connection gets the frames submitted to it, each once and in the order of submission,
but for one whose refusal removed the connection. -/
theorem gapFree_of_run (as : List Act) (id : ConnectionId) (o : Outbox)
    (ho : (empty.run as).outbox? id = some o) (hread : o.abandoned = false) :
    GapFree as id o := by
  have hl : (empty.run as).line? id = some ⟨id, (empty.run as).get? id, o⟩ :=
    line?_eq_some_iff.2 ⟨ho, rfl, rfl⟩
  obtain ⟨c, capacity, hp⟩ := passes_of_none coherent_empty rfl hl
  obtain ⟨ended, he, hended⟩ := hp.conserved hread
  have hall : empty.drained id as ++ o.waiting = (empty.accepted id as).map .frame ++ ended := by
    rw [← he]
    rfl
  have hreceived : received as id o = empty.accepted id as := by
    unfold received
    rw [hall]
    rcases hended with rfl | ⟨rfl, _⟩ <;> simp [Outgoing.frame?, Function.comp_def]
  refine ⟨?_, ⟨ended, ?_, ?_⟩, ?_⟩
  · rw [hreceived]
    exact accepted_or_lost coherent_empty as
  · rw [hreceived]
    exact hall
  · exact hended.imp_right fun e => ⟨e.1, e.2.2⟩
  · rintro before after rfl hbox hgone
    obtain ⟨b, hb⟩ := Option.isSome_iff_exists.1 hbox
    have hcb : (empty.run before).Coherent := coherent_empty.run before
    have hlb : (empty.run before).line? id = some ⟨id, none, b⟩ :=
      line?_eq_some_iff.2 ⟨hb, hgone, rfl⟩
    obtain ⟨l', hl', hp'⟩ := passes_run hcb hlb after
    rw [← run_append] at hl'
    obtain rfl := Option.some.inj (hl'.symm.trans hl)
    obtain ⟨hdead, hnew⟩ := hp'.dead rfl
    obtain ⟨ended', he', hended'⟩ := hp'.conserved hread
    obtain rfl := hended'.resolve_right fun e => e.2.1 rfl
    refine ⟨hdead, submitted_of_ended hcb hlb rfl after, ?_⟩
    rw [hnew] at he'
    unfold waiting
    rw [hb]
    simpa using he'

/-- A slow reader: the third pong finds the outbox full, and the fourth finds no connection. -/
def slowReader : List Act :=
  [.register "room" "wallet" 1 ⟨0, false⟩, .send 1 (.pong 1), .take 1 1, .send 1 (.pong 2),
    .send 1 (.pong 3), .send 1 (.pong 4)]

theorem gapFree_slowReader :
    (empty.run slowReader).outbox? 1 = some ⟨1, [.frame (.pong 2)], false, true⟩ ∧
      received slowReader 1 ⟨1, [.frame (.pong 2)], false, true⟩ = [.pong 1, .pong 2] ∧
      empty.submitted 1 slowReader = [.pong 1, .pong 2, .pong 3] ∧
      GapFree slowReader 1 ⟨1, [.frame (.pong 2)], false, true⟩ :=
  ⟨rfl, rfl, rfl, gapFree_of_run slowReader 1 _ rfl rfl⟩

end Hub

end SwapFloor
