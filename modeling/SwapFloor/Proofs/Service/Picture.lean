import SwapFloor.Proofs.Service.Agreement
import SwapFloor.Proofs.Service.Comings

/-!
# What clients see of their room

A client knows who is in its room by the last update that it was sent. A step either shows the room
anew, as it stands afterwards, to everyone who is still connected to it, or shows nothing and leaves
the attendance of the room alone (`Refreshes`). A connection begins with a join, which shows it the
room.

Main statement: along every run, whoever is connected has been sent an update, and the last one
shows the room as it stands (`pictured_of_chronicle`).
-/

namespace SwapFloor

/-! ## The last update -/

/-- The update that a frame brings. -/
def Frame.update? : Frame → Option Frame.RoomUpdate
  | .roomUpdate u => some u
  | _ => none

/-- The last update among frames. -/
def lastUpdate? (fs : List Frame) : Option Frame.RoomUpdate :=
  (fs.filterMap Frame.update?).getLast?

/-- There is an update among the frames, and the last one shows the room as it stands. -/
def Pictured (fs : List Frame) (l : Lobby) (room : String) : Prop :=
  ∃ u, lastUpdate? fs = some u ∧ u.Shows l room

theorem lastUpdate?_append (fs gs : List Frame) :
    lastUpdate? (fs ++ gs) = (lastUpdate? gs).or (lastUpdate? fs) := by
  unfold lastUpdate?
  rw [List.filterMap_append, List.getLast?_append]

theorem lastUpdate?_concat (fs : List Frame) (u : Frame.RoomUpdate) :
    lastUpdate? (fs ++ [.roomUpdate u]) = some u := by
  rw [lastUpdate?_append]
  rfl

theorem lastUpdate?_rolls (items : List Outgoing) :
    lastUpdate? (rolls items) = lastUpdate? (items.filterMap Outgoing.frame?) := by
  unfold lastUpdate? rolls
  rw [List.filterMap_filter]
  refine congrArg (fun f => (List.filterMap f _).getLast?) (funext fun f => ?_)
  cases f <;> rfl

section

variable {l l' : Lobby} {room : String} {fs gs : List Frame}

theorem Pictured.append (h : Pictured gs l room) (fs : List Frame) :
    Pictured (fs ++ gs) l room := by
  obtain ⟨u, hu, hshows⟩ := h
  refine ⟨u, ?_, hshows⟩
  rw [lastUpdate?_append, hu]
  rfl

/-- The picture of a room stays right as long as the same people are in it. -/
theorem Pictured.stays (h : Pictured fs l room) (hgs : lastUpdate? gs = none)
    (hsame : ∀ v, l'.isActive room v = l.isActive room v) : Pictured (fs ++ gs) l' room := by
  obtain ⟨u, hu, hshows⟩ := h
  refine ⟨u, ?_, { hshows with active := fun v => ?_ }⟩
  · rw [lastUpdate?_append, hgs]
    exact hu
  · rw [hsame]
    exact hshows.active v

end

/-- Who is still connected has been sent the last update for its room. -/
theorem Hub.Tells.lastUpdate?_heard {h h' : Hub} {fs : String → List Frame} (ht : Tells h h' fs)
    (hc : h.Coherent) {id : ConnectionId} {c' : Connection} (hg' : h'.get? id = some c') :
    (∃ c, h.get? id = some c ∧ c.room = c'.room) ∧
      lastUpdate? (h.heard h' id) = lastUpdate? (fs c'.room) := by
  have hroom : ∀ c, h.get? id = some c → c.room = c'.room := by
    intro c hg
    have hears := ht.hears hc id c.room fun d hd => congrArg _ (Option.some.inj (hd.symm.trans hg))
    obtain ⟨d, hd, hr⟩ := hears.live c' hg'
    exact (congrArg _ (Option.some.inj (hg.symm.trans hd))).trans hr
  have hears := ht.hears hc id c'.room hroom
  obtain ⟨new, hw, _, hall, _⟩ := hears.waiting
  refine ⟨hears.live c' hg', ?_⟩
  rw [heard_of_append hw, ← lastUpdate?_rolls, hall fun hn => nomatch hn.symm.trans hg']

namespace Service

/-! ## One step -/

/-- From `s` to `s'` whoever is connected is shown its room as it stands, or is shown nothing, and
the same people are in its room as before. A new connection is shown its room. -/
structure Refreshes (s s' : Service) : Prop where
  boxed : ∀ id, (s.hub.outbox? id).isSome → (s'.hub.outbox? id).isSome
  live : ∀ id c', s'.hub.get? id = some c' →
    Pictured (s.hub.heard s'.hub id) s'.lobby c'.room ∨
    (∃ c, s.hub.get? id = some c ∧ c.room = c'.room) ∧
      lastUpdate? (s.hub.heard s'.hub id) = none ∧
      ∀ v, s'.lobby.isActive c'.room v = s.lobby.isActive c'.room v

variable {s s' : Service} {room wallet : String}

theorem refreshes_of_tells (hc : s.hub.Coherent) {fs : String → List Frame}
    (ht : s.hub.Tells s'.hub fs)
    (hfs : ∀ id c', s'.hub.get? id = some c' → Pictured (fs c'.room) s'.lobby c'.room ∨
      lastUpdate? (fs c'.room) = none ∧
        ∀ v, s'.lobby.isActive c'.room v = s.lobby.isActive c'.room v) :
    Refreshes s s' where
  boxed := ht.boxed hc
  live id c' hg' := by
    obtain ⟨hlive, hheard⟩ := ht.lastUpdate?_heard hc hg'
    obtain ⟨u, hu, hshows⟩ | ⟨hnone, hsame⟩ := hfs id c' hg'
    · exact Or.inl ⟨u, hheard.trans hu, hshows⟩
    · exact Or.inr ⟨hlive, hheard.trans hnone, hsame⟩

theorem refreshes_of_uneventful (hc : s.hub.Coherent) (hu : Uneventful s s') : Refreshes s s' :=
  refreshes_of_tells hc hu.silent fun _ c' _ => Or.inr ⟨rfl, hu.active c'.room⟩

/-- Nothing is shown while outboxes are read. -/
theorem refreshes_of_length_le (hlobby : s'.lobby = s.lobby)
    (hlive : ∀ id c', s'.hub.get? id = some c' → ∃ c, s.hub.get? id = some c ∧ c.room = c'.room)
    (hboxed : ∀ id, (s.hub.outbox? id).isSome → (s'.hub.outbox? id).isSome)
    (hl : ∀ id, (s'.hub.waiting id).length ≤ (s.hub.waiting id).length) : Refreshes s s' where
  boxed := hboxed
  live id c' hg' := by
    refine Or.inr ⟨hlive id c' hg', ?_, fun v => by rw [hlobby]⟩
    rw [Hub.heard_of_length_le (hl id)]
    rfl

/-- Everyone in one room is shown it, and no other room is touched. -/
theorem refreshes_of_only (hc : s.hub.Coherent) (fs : List Frame) {u : Frame.RoomUpdate}
    (ht : s.hub.Tells s'.hub (Hub.only room (fs ++ [.roomUpdate u])))
    (hshows : u.Shows s'.lobby room)
    (hsame : ∀ r v, r ≠ room → s'.lobby.isActive r v = s.lobby.isActive r v) : Refreshes s s' := by
  refine refreshes_of_tells hc ht fun id c' _ => ?_
  by_cases hr : c'.room = room
  · rw [hr, Hub.only_self]
    exact Or.inl ⟨u, lastUpdate?_concat fs u, hshows⟩
  · rw [Hub.only_of_ne _ hr]
    exact Or.inr ⟨rfl, fun v => hsame _ v hr⟩

theorem refreshes_joinRoom (hs : s.Sound) (hw : s.lobby.WellFormed) {password : Option String}
    {j : Lobby.Joined} (h : s.joinRoom room wallet password = .ok (s', j)) : Refreshes s s' := by
  obtain ⟨u, hshows, ht⟩ := tells_joinRoom hw h
  refine refreshes_of_only hs.hub _ ht hshows fun r v hr => ?_
  rw [Bool.eq_iff_iff, Lobby.isActive_of_join (calm_joinRoom h).1, or_iff_right fun hc => hr hc.1]

theorem refreshes_leaveRoom (hs : s.Sound) (hw : s.lobby.WellFormed) {left : Option Member}
    (h : s.leaveRoom room wallet = .ok (s', left)) : Refreshes s s' := by
  cases left with
  | none => exact refreshes_of_uneventful hs.hub (uneventful_leaveRoom h)
  | some m =>
    obtain ⟨u, hshows, ht⟩ := tells_leaveRoom hw h
    refine refreshes_of_only hs.hub [.memberLeft (.of m)] ht hshows fun r v hr => ?_
    rw [Bool.eq_iff_iff, Lobby.isActive_of_leave (leave_of_leaveRoom h)]
    exact and_iff_left fun hc => hr hc.1

/-- Nobody is connected to the room that is created. -/
theorem refreshes_createRoom (hs : s.Sound) {q : RoomRequest} {r : Room}
    (h : s.createRoom q = .ok (s', r)) : Refreshes s s' := by
  obtain ⟨plan, hl, hhub, _⟩ := create_of_createRoom h
  have hsilent : s.hub.Silent s'.hub := hhub ▸ Hub.silent_refl _
  refine refreshes_of_tells hs.hub hsilent fun id c' hg' => Or.inr ⟨rfl, fun v => ?_⟩
  obtain ⟨e, he, _⟩ := hs.seated id c' (hhub ▸ hg')
  have hne : c'.room ≠ s.nextId := by
    intro hr
    rw [hr, hs.get?_nextId] at he
    exact nomatch he
  rw [Lobby.isActive_create hl, if_neg hne]

/-- Nobody is left in rooms that are closed. -/
theorem Emptied.refreshes {closed : List Room} (he : Emptied s s' closed) (hs : s.Sound)
    (hactive : ∀ r v, s'.lobby.isActive r v = true ↔
      s.lobby.isActive r v = true ∧ ∀ c ∈ closed, c.id ≠ r) : Refreshes s s' := by
  refine refreshes_of_tells hs.hub he.tells fun id c' hg' => ?_
  have hnot : ∀ r ∈ closed, r.id ≠ c'.room := fun r hr => (he.gone id c' hs.hub hg' r hr).symm
  refine Or.inr ⟨?_, fun v => ?_⟩
  · unfold lastUpdates
    rw [List.filter_eq_nil_iff.2 fun r hr => by simpa using hnot r hr]
    rfl
  · rw [Bool.eq_iff_iff, hactive]
    exact and_iff_left hnot

theorem refreshes_closeRoom (hs : s.Sound) {requester : String} {r : Room}
    (h : s.closeRoom room requester = .ok (s', r)) : Refreshes s s' := by
  obtain ⟨hl, he⟩ := emptied_closeRoom h
  refine he.refreshes hs fun r' v => ?_
  rw [Lobby.isActive_of_close hl, List.forall_mem_singleton, Lobby.close_id hs.lobby hl]
  exact and_congr_right fun _ => ne_comm

theorem refreshes_reapRoomsAt (hs : s.Sound) (hw : s.lobby.WellFormed) {at_ : Instant} {n : Nat}
    (h : s.reapRoomsAt at_ = (s', .ok n)) : Refreshes s s' := by
  obtain ⟨closed, hl, he⟩ := emptied_reapRoomsAt h
  exact he.refreshes hs fun r v => Lobby.isActive_of_reap hs.lobby hw hl

/-! ### Opening a socket -/

/-- A new connection has been sent nothing. -/
theorem heard_withConnection (hc : s.hub.Coherent) (room wallet : String) (h' : Hub)
    (id : ConnectionId) :
    (s.withConnection room wallet).hub.heard h' id = s.hub.heard h' id := by
  have hwaiting : (s.withConnection room wallet).hub.waiting id = s.hub.waiting id := by
    unfold withConnection Hub.waiting
    rw [Hub.outbox?_register]
    split
    · rename_i hid
      rw [hid, hc.outbox?_next]
      rfl
    · rfl
  unfold Hub.heard Hub.arrivals
  rw [hwaiting]

/-- What refreshes from the registration on does so altogether, if the new connection is shown its
room or ended. -/
theorem Refreshes.of_withConnection (hc : s.hub.Coherent)
    (h : Refreshes (s.withConnection room wallet) s')
    (hnew : ∀ c', s'.hub.get? (s.hub.lastId + 1) = some c' →
      Pictured (s.hub.heard s'.hub (s.hub.lastId + 1)) s'.lobby c'.room) : Refreshes s s' where
  boxed id hb := by
    refine h.boxed id ?_
    unfold withConnection
    rw [Hub.outbox?_register]
    split
    · rfl
    · exact hb
  live id c' hg' := by
    have hlive := h.live id c' hg'
    rw [heard_withConnection hc] at hlive
    obtain hshown | ⟨⟨c, hg, hr⟩, hquiet⟩ := hlive
    · exact Or.inl hshown
    · obtain hold | ⟨rfl, _⟩ := get?_withConnection hg
      · exact Or.inr ⟨⟨c, hold, hr⟩, hquiet⟩
      · exact Or.inl (hnew c' hg')

theorem refreshes_openSocket (hs : s.Sound) (hw : s.lobby.WellFormed) (room wallet : String)
    (password : Option String) : Refreshes s (s.openSocket room wallet password).1 := by
  have hreg : (s.withConnection room wallet).hub.Coherent := hs.hub.register ..
  rcases openSocket_eq s room wallet password with ⟨j, hj⟩ | ⟨f, hf⟩
  · obtain ⟨u, hshows, ht⟩ := tells_joinRoom (s := s.withConnection room wallet) hw hj
    have hrefresh := refreshes_of_only hreg _ ht hshows fun r v hr => by
      rw [Bool.eq_iff_iff, Lobby.isActive_of_join (calm_joinRoom hj).1,
        or_iff_right fun hc => hr hc.1]
    refine hrefresh.of_withConnection hs.hub fun c' hg' => ?_
    -- The new connection is in the room that is shown.
    obtain ⟨⟨c, hg, hr⟩, hheard⟩ := ht.lastUpdate?_heard hreg hg'
    have hroom : c'.room = room := by
      rw [← hr]
      unfold withConnection at hg
      rw [Hub.get?_register, if_pos rfl] at hg
      exact (congrArg Connection.room (Option.some.inj hg)).symm
    rw [heard_withConnection hs.hub, hroom, Hub.only_self] at hheard
    exact ⟨u, hheard.trans (lastUpdate?_concat _ u), hroom ▸ hshows⟩
  · rw [hf]
    have hended : Uneventful (s.withConnection room wallet) _ :=
      (uneventful_tell (s.withConnection room wallet) (s.hub.lastId + 1) (f := .ofFailure f)
        rfl).trans (.of_hub (Hub.onward_closeConnection (fun _ => True) _ _).toThinned
          (Hub.silent_closeConnection _ (s.hub.lastId + 1)))
    refine (refreshes_of_uneventful hreg hended).of_withConnection hs.hub fun c' hg' => ?_
    dsimp only at hg'
    rw [Hub.get?_closeConnection, if_pos rfl] at hg'
    exact nomatch hg'

/-! ### All steps -/

theorem refreshes_receive (hs : s.Sound) (hw : s.lobby.WellFormed) (id : ConnectionId)
    (m : Incoming) : Refreshes s (s.receive id m) := by
  obtain hu | ⟨k, _, password, j, _, _, _, hj⟩ | ⟨k, left, hl⟩ := receive_cases s id m
  · exact refreshes_of_uneventful hs.hub hu
  · exact refreshes_joinRoom hs hw hj
  · exact refreshes_leaveRoom hs hw hl

theorem refreshes_onOutbox (s : Service) (id : ConnectionId) {f : Outbox → Outbox}
    (hf : ∀ o, (f o).waiting.length ≤ o.waiting.length) :
    Refreshes s { s with hub := s.hub.onOutbox id f } :=
  refreshes_of_length_le rfl (fun id' c' hg => ⟨c', hg, rfl⟩)
    (fun id' hb => by rwa [Hub.isSome_outbox?_onOutbox]) (waiting_onOutbox_length_le s.hub id hf)

theorem refreshes_flushSocket (hc : s.hub.Coherent) (id : ConnectionId) :
    Refreshes s (s.flushSocket id).1 := by
  have hcalm := calm_flushSocket s id
  refine refreshes_of_length_le (flushSocket_lobby s id) (fun id' c' hg' => ?_)
    (fun id' hb => ?_) (waiting_flushSocket_length_le s id)
  · obtain ⟨c, hg, hr, _⟩ := hcalm.hub.live id' c' hc hg'
    exact ⟨c, hg, hr⟩
  · have hdrained : ((s.hub.onOutbox id .drain).outbox? id').isSome := by
      rwa [Hub.isSome_outbox?_onOutbox]
    unfold flushSocket
    split
    · exact hb
    · dsimp only
      split
      · exact (Hub.silent_unregister _ id).boxed (hc.onOutbox id .drain) id' hdrained
      · exact hdrained

theorem refreshes_errand (hs : s.Sound) (hw : s.lobby.WellFormed) (h : Errand s s') :
    Refreshes s s' := by
  have hsame : ∀ {s' : Service}, Calm s s' → s'.lobby = s.lobby → s'.hub = s.hub →
      Refreshes s s' := fun hcalm hl hhub =>
    refreshes_of_uneventful hs.hub (.of_calm hcalm hl hhub)
  cases h with
  | create h => exact refreshes_createRoom hs h
  | join h => exact refreshes_joinRoom hs hw h
  | leave h => exact refreshes_leaveRoom hs hw h
  | close h => exact refreshes_closeRoom hs h
  | share h => exact refreshes_of_uneventful hs.hub (uneventful_share h)
  | reap h => exact refreshes_reapRoomsAt hs hw h
  | connect => exact refreshes_openSocket hs hw _ _ _
  | receive id m => exact refreshes_receive hs hw id m
  | flush id => exact refreshes_flushSocket hs.hub id
  | send id n =>
    refine refreshes_onOutbox s id fun o => ?_
    exact Nat.le_trans (Nat.le_of_eq List.length_drop) (Nat.sub_le _ _)
  | abandon id => exact refreshes_onOutbox s id fun _ => Nat.zero_le _
  | disconnect id => exact refreshes_of_uneventful hs.hub (uneventful_endSocket s id)
  | prune maxIdleMs at_ =>
    exact refreshes_of_uneventful hs.hub
      (.of_hub (Hub.onward_prune (fun _ => True) ..).toThinned (Hub.silent_prune ..))
  | complete address epoch result at_ =>
    exact hsame (.of_watches fun _ => Watches.claims_complete ..) rfl rfl
  | retry => exact hsame { Calm.refl s with claims := Watches.claims_retryDue s.watches _ } rfl rfl
  | resubscribe =>
    exact hsame { Calm.refl s with claims := Watches.claims_resubscribeAll s.watches _ } rfl rfl
  | sweep => exact hsame { Calm.refl s with } rfl rfl
  | rank => exact hsame { Calm.refl s with } rfl rfl
  | advance => exact hsame { Calm.refl s with } rfl rfl
  | setClock => exact hsame { Calm.refl s with } rfl rfl
  | aside h => exact refreshes_of_uneventful hs.hub (.of_aside h)

theorem refreshes_step (hs : s.Sound) (hw : s.lobby.WellFormed) (h : Step s s') :
    Refreshes s s' := by
  cases h with
  | errand h => exact refreshes_errand hs hw h
  | publish h => exact refreshes_of_uneventful hs.hub (uneventful_publishTrade h)
  | process h => exact refreshes_of_uneventful hs.hub (uneventful_processTrade h)

/-! ## Whole runs -/

/-- A run, with the frames that were put into each outbox. -/
inductive Chronicle (s₀ : Service) : (ConnectionId → List Frame) → Service → Prop
  | start : Chronicle s₀ (fun _ => []) s₀
  | step {log s s'} (h : Chronicle s₀ log s) (hstep : Step s s') :
    Chronicle s₀ (fun id => log id ++ s.hub.heard s'.hub id) s'

theorem exists_chronicle_of_run {s₀ : Service} (h : Run s₀ s) : ∃ log, Chronicle s₀ log s := by
  induction h with
  | refl => exact ⟨_, .start⟩
  | tail _ hstep ih =>
    obtain ⟨log, hlog⟩ := ih
    exact ⟨_, hlog.step hstep⟩

/-- Whoever is connected has been sent the picture of its room. -/
structure Informed (s : Service) (log : ConnectionId → List Frame) : Prop where
  sound : s.Sound
  well : s.lobby.WellFormed
  unheard : ∀ id, s.hub.outbox? id = none → log id = []
  pictured : ∀ id c, s.hub.get? id = some c → Pictured (log id) s.lobby c.room

variable {log : ConnectionId → List Frame}

theorem informed_new (settings : Settings) {draws : Draws} (hd : Function.Injective draws.id)
    (looksUp : Bool) (startedAt : Instant) :
    (new settings draws looksUp startedAt).Informed fun _ => [] where
  sound := sound_new settings hd looksUp startedAt
  well := Lobby.wellFormed_new _ _
  unheard _ _ := rfl
  pictured _ _ h := nomatch h

theorem informed_step (hi : s.Informed log) (h : Step s s') :
    s'.Informed fun id => log id ++ s.hub.heard s'.hub id := by
  have hr := refreshes_step hi.sound hi.well h
  refine ⟨sound_step hi.sound h, wellFormed_step hi.well h, fun id ho => ?_, fun id c' hg' => ?_⟩
  · have hnone : s.hub.outbox? id = none := by
      rw [← Option.not_isSome_iff_eq_none] at ho ⊢
      exact fun hb => ho (hr.boxed id hb)
    rw [hi.unheard id hnone, List.nil_append]
    exact Hub.heard_of_outbox?_eq_none ho
  · obtain hshown | ⟨⟨c, hg, hroom⟩, hquiet, hsame⟩ := hr.live id c' hg'
    · exact hshown.append (log id)
    · exact (hroom ▸ hi.pictured id c hg).stays hquiet hsame

theorem informed_of_chronicle {s₀ : Service} (hi : s₀.Informed fun _ => [])
    (h : Chronicle s₀ log s) : s.Informed log := by
  induction h with
  | start => exact hi
  | step _ hstep ih => exact informed_step ih hstep

/-- Whoever is connected has been sent an update since it was registered, and the last one says
that its room is open and lists exactly those who are active there, each once. -/
theorem pictured_of_chronicle (settings : Settings) {draws : Draws}
    (hd : Function.Injective draws.id) (looksUp : Bool) (startedAt : Instant)
    (h : Chronicle (new settings draws looksUp startedAt) log s) :
    ∀ c ∈ s.hub.all, ∃ u, lastUpdate? (log c.id) = some u ∧
      u.room = c.room ∧ u.status = .open ∧ u.active.Nodup ∧
      ∀ wallet, wallet ∈ u.active ↔ s.lobby.isActive c.room wallet = true := by
  intro c hc
  have hi := informed_of_chronicle (informed_new settings hd looksUp startedAt) h
  obtain ⟨u, hu, hshows⟩ := hi.pictured c.id c (hi.sound.hub.mem_all.1 hc)
  exact ⟨u, hu, hshows.own, hshows.isOpen, hshows.distinct, hshows.active⟩

/-- Bo sees the room to which he has connected. -/
theorem pictured_small : ∃ log, Function.Injective growingIds.id ∧
    Chronicle small log smallWithSocket ∧ smallWithSocket.hub.all.map (·.id) = [1] ∧
    (lastUpdate? (log 1)).map (·.room) = some "r" ∧
    smallWithSocket.lobby.isActive "r" "bo" = true ∧
    ∀ c ∈ smallWithSocket.hub.all, ∃ u, lastUpdate? (log c.id) = some u ∧
      u.room = c.room ∧ u.status = .open ∧ u.active.Nodup ∧
      ∀ wallet, wallet ∈ u.active ↔ smallWithSocket.lobby.isActive c.room wallet = true := by
  have hroom : Step small smallWithRoom :=
    .errand (.create (show small.createRoom { creator := "ada", token := some "mint" }
      = .ok (smallWithRoom, _) from rfl))
  have hsocket : Step smallWithRoom smallWithSocket :=
    .errand (.connect (k := ⟨"r", "bo"⟩)
      (show smallWithRoom.admitSocket "r" " bo" none = .ok ⟨"r", "bo"⟩ by decide +kernel))
  have hrun := (Chronicle.start.step hroom).step hsocket
  exact ⟨_, growingIds_injective, hrun, by decide +kernel, by decide +kernel, by decide +kernel,
    pictured_of_chronicle {} growingIds_injective true ⟨0, false⟩ hrun⟩

end Service

end SwapFloor
