import SwapFloor.Proofs.Service.Attendance
import SwapFloor.Proofs.Service.Still

/-!
# Comings and goings

A creation, a join that reports that the wallet was away and a leave that gives a member are
events; all other operations report none. An `Operation` comes with the events that it reports.

Main statements: what an operation makes of the attendance of rooms is what its events say
(`effect_operation`), and the connections of a room hear of exactly these (`relays_operation`).
-/

namespace SwapFloor

/-! ## Events -/

/-- What befalls the membership of a wallet. -/
inductive Event where
  /-- The room was created, with its creator in it. -/
  | opened (room creator : String)
  /-- The wallet has come into the room, or has gone and is no longer here. -/
  | turned (room wallet : String) (here : Bool)
  deriving DecidableEq

namespace Event

def room : Event → String
  | .opened room _ | .turned room _ _ => room

/-- Somebody has come into the room or has gone. -/
def isTurnIn (room : String) : Event → Bool
  | .opened _ _ => false
  | .turned room' _ _ => room' = room

/-- The wallet has come into the room, or has gone. -/
def turn? (room wallet : String) : Event → Option Bool
  | .opened _ _ => none
  | .turned room' wallet' here => if room' = room ∧ wallet' = wallet then some here else none

theorem isTurnIn_of_turn? {room wallet : String} {e : Event} {b : Bool}
    (h : e.turn? room wallet = some b) : e.isTurnIn room = true := by
  cases e with
  | opened room' creator => exact nomatch h
  | turned room' wallet' here =>
    rw [turn?] at h
    split at h
    · rename_i he
      exact decide_eq_true he.1
    · exact nomatch h

end Event

/-- What a frame tells of comings and goings. -/
def Frame.event? : Frame → Option Event
  | .memberJoined p => some (.turned p.room p.wallet true)
  | .memberLeft p => some (.turned p.room p.wallet false)
  | _ => none

theorem filterMap_event?_rolls (items : List Outgoing) :
    (rolls items).filterMap Frame.event?
      = (items.filterMap Outgoing.frame?).filterMap Frame.event? := by
  unfold rolls
  rw [List.filterMap_filter]
  refine congrArg (List.filterMap · _) (funext fun f => ?_)
  cases f <;> rfl

/-! ## What connections hear of events -/

namespace Hub

/-- The frames that were put into an outbox between two states of the hub. -/
def heard (h h' : Hub) (id : ConnectionId) : List Frame :=
  (h.arrivals h' id).filterMap Outgoing.frame?

theorem heard_of_append {h h' : Hub} {id : ConnectionId} {new : List Outgoing}
    (hw : h'.waiting id = h.waiting id ++ new) :
    h.heard h' id = new.filterMap Outgoing.frame? := by
  unfold heard arrivals
  rw [hw, List.drop_left]

theorem heard_of_length_le {h h' : Hub} {id : ConnectionId}
    (hl : (h'.waiting id).length ≤ (h.waiting id).length) : h.heard h' id = [] := by
  unfold heard
  rw [Service.arrivals_of_length_le hl]
  rfl

theorem heard_of_outbox?_eq_none {h h' : Hub} {id : ConnectionId} (ho : h'.outbox? id = none) :
    h.heard h' id = [] := by
  refine heard_of_length_le ?_
  unfold Hub.waiting
  rw [ho]
  exact Nat.zero_le _

/-- From `h` to `h'` every connection hears of the events in its room, one that is gone afterwards
perhaps of the first ones only. A new connection begins with an empty outbox. -/
structure Relays (h h' : Hub) (es : List Event) : Prop where
  coherent : h'.Coherent
  live : ∀ id c', h'.get? id = some c' →
    (∃ c, h.get? id = some c ∧ c.room = c'.room) ∨ h.outbox? id = none
  all : ∀ id c', h'.get? id = some c' →
    (h.heard h' id).filterMap Frame.event? = es.filter (Event.isTurnIn c'.room)
  first : ∀ id c, h.get? id = some c →
    (h.heard h' id).filterMap Frame.event? <+: es.filter (Event.isTurnIn c.room)
  dead : ∀ id, h.get? id = none → (h.heard h' id).filterMap Frame.event? = []
  boxed : ∀ id, (h.outbox? id).isSome → (h'.outbox? id).isSome

variable {h h' : Hub} {es : List Event}

theorem relays_of_tells (hc : h.Coherent) {fs : String → List Frame} (ht : Tells h h' fs)
    (hfs : ∀ room, (fs room).filterMap Frame.event? = es.filter (Event.isTurnIn room)) :
    Relays h h' es := by
  have hears : ∀ id c, h.get? id = some c → h.Hears h' id (fs c.room) := by
    intro id c hg
    exact ht.hears hc id c.room fun d hd => congrArg _ (Option.some.inj (hd.symm.trans hg))
  have hdead : ∀ id, h.get? id = none → ∀ room, h.Hears h' id (fs room) := by
    intro id hg room
    exact ht.hears hc id room fun d hd => nomatch hg.symm.trans hd
  refine ⟨ht.coherent hc, fun id c' hg' => ?_, fun id c' hg' => ?_, fun id c hg => ?_,
    fun id hg => ?_, ht.boxed hc⟩
  · cases hg : h.get? id with
    | none => exact nomatch ((hdead id hg "").get?_eq_none hg).symm.trans hg'
    | some c =>
      obtain ⟨d, hd, hr⟩ := (hears id c hg).live c' hg'
      exact Or.inl ⟨d, hg ▸ hd, hr⟩
  · cases hg : h.get? id with
    | none => exact nomatch ((hdead id hg "").get?_eq_none hg).symm.trans hg'
    | some c =>
      obtain ⟨d, hd, hr⟩ := (hears id c hg).live c' hg'
      obtain rfl := Option.some.inj (hg.symm.trans hd)
      obtain ⟨new, hw, _, hall, _⟩ := (hears id c hg).waiting
      rw [heard_of_append hw, ← filterMap_event?_rolls, ← hr, ← hfs,
        hall fun hn => nomatch hn.symm.trans hg']
  · obtain ⟨new, hw, hpre, _⟩ := (hears id c hg).waiting
    rw [heard_of_append hw, ← filterMap_event?_rolls, ← hfs]
    exact hpre.filterMap _
  · obtain ⟨new, hw, _, _, hnone⟩ := (hdead id hg "").waiting
    rw [heard_of_append hw, ← filterMap_event?_rolls, hnone hg]
    rfl

theorem relays_of_silent (hc : h.Coherent) (hs : Silent h h') : Relays h h' [] :=
  relays_of_tells hc hs fun _ => rfl

/-- Nothing is heard where nothing is put into an outbox. -/
theorem relays_of_length_le (hc : h'.Coherent)
    (hlive : ∀ id c', h'.get? id = some c' →
      (∃ c, h.get? id = some c ∧ c.room = c'.room) ∨ h.outbox? id = none)
    (hl : ∀ id, (h'.waiting id).length ≤ (h.waiting id).length)
    (hboxed : ∀ id, (h.outbox? id).isSome → (h'.outbox? id).isSome) : Relays h h' [] where
  coherent := hc
  live := hlive
  all id _ _ := by
    rw [heard_of_length_le (hl id)]
    rfl
  first id _ _ := by
    rw [heard_of_length_le (hl id)]
    exact List.prefix_rfl
  dead id _ := by
    rw [heard_of_length_le (hl id)]
    rfl
  boxed := hboxed

theorem relays_register (hc : h.Coherent) (room wallet : String) (capacity : Nat) (now : Instant) :
    Relays h (h.register room wallet capacity now).1 [] := by
  refine relays_of_length_le (hc.register room wallet capacity now) (fun id c' hg => ?_)
    (fun id => ?_) fun id hb => ?_
  · rw [get?_register] at hg
    split at hg
    · rename_i hid
      rw [hid]
      exact Or.inr hc.outbox?_next
    · exact Or.inl ⟨c', hg, rfl⟩
  · unfold Hub.waiting
    rw [outbox?_register]
    split
    · exact Nat.zero_le _
    · exact Nat.le_refl _
  · rw [outbox?_register]
    split
    · rfl
    · exact hb

theorem relays_onOutbox (hc : h.Coherent) (id : ConnectionId) {f : Outbox → Outbox}
    (hf : ∀ o, (f o).waiting.length ≤ o.waiting.length) : Relays h (h.onOutbox id f) [] :=
  relays_of_length_le (hc.onOutbox id f) (fun id' c' hg => Or.inl ⟨c', hg, rfl⟩)
    (Service.waiting_onOutbox_length_le h id hf) fun id' hb => by
      rwa [isSome_outbox?_onOutbox]

/-- An act on the hub tells nobody of a coming or going, unless its frame does. -/
theorem relays_act (hc : h.Coherent) (a : Act) (ha : ∀ f ∈ a.frame?, f.isRoll = false) :
    Relays h (h.act a) [] := by
  cases a with
  | register room wallet capacity now => exact relays_register hc room wallet capacity now
  | unregister id => exact relays_of_silent hc (silent_unregister h id)
  | broadcast lobby requireRecipients room f =>
    exact relays_of_silent hc (silent_toRoom lobby h requireRecipients room (ha f rfl))
  | send id f => exact relays_of_silent hc (silent_send h id (ha f rfl))
  | closeRoom room f =>
    refine relays_of_silent hc ((tells_closeRoomWith h room f).congr fun room' => ?_)
    rw [List.filter_cons_of_neg (by rw [ha f rfl]; exact Bool.false_ne_true), List.filter_nil,
      only_nil]
  | closeConnection id => exact relays_of_silent hc (silent_closeConnection h id)
  | closeWallet room wallet => exact relays_of_silent hc (silent_closeWallet h room wallet)
  | prune maxIdleMs now => exact relays_of_silent hc (silent_prune h maxIdleMs now)
  | ping id now => exact relays_of_silent hc (silent_touch h id now)
  | take id n =>
    refine relays_onOutbox hc id fun o => ?_
    exact Nat.le_trans (Nat.le_of_eq List.length_drop) (Nat.sub_le _ _)
  | abandon id => exact relays_onOutbox hc id fun _ => Nat.zero_le _

end Hub

/-! ## What events mean to attendance -/

namespace Lobby

/-- What becomes of the attendance of the open rooms when these events happen, the next new room
having this id. -/
inductive Effect (next : String) (l l' : Lobby) : List Event → Prop where
  /-- Rooms may be closed. -/
  | none (h : ∀ r, l'.IsOpen r → l.IsOpen r ∧ ∀ v, l'.isActive r v = l.isActive r v) :
    Effect next l l' []
  | opened {creator : String} (hopen : ∀ r, l'.IsOpen r ↔ r = next ∨ l.IsOpen r)
      (hactive : ∀ r v, l'.isActive r v
        = if r = next then decide (v = creator) else l.isActive r v) :
    Effect next l l' [.opened next creator]
  | turned {room wallet : String} {here : Bool} (hbefore : l.isActive room wallet = !here)
      (hroom : l.IsOpen room) (hopen : ∀ r, l'.IsOpen r → l.IsOpen r)
      (hactive : ∀ r v, l'.isActive r v
        = if r = room ∧ v = wallet then here else l.isActive r v) :
    Effect next l l' [.turned room wallet here]

theorem Effect.of_eq {next : String} {l l' : Lobby} (h : l' = l) : Effect next l l' [] :=
  .none fun _ hopen => ⟨h ▸ hopen, fun _ => by rw [h]⟩

end Lobby

namespace Service

/-! ## Operations -/

/-- An operation on the service, completed without a breakdown, with the events that it reports.
The hub may besides be used for any other purpose. -/
inductive Operation (s : Service) : List Event → Service → Prop
  | create {q s' r} (h : s.createRoom q = .ok (s', r)) : Operation s [.opened r.id r.creator] s'
  | join {room wallet password s' j} (h : s.joinRoom room wallet password = .ok (s', j)) :
    Operation s (if j.newly then [.turned room j.member.wallet true] else []) s'
  | leave {room wallet s' left} (h : s.leaveRoom room wallet = .ok (s', left)) :
    Operation s (left.toList.map fun m => .turned room m.wallet false) s'
  | close {room requester s' r} (h : s.closeRoom room requester = .ok (s', r)) : Operation s [] s'
  | share {room wallet q s' x} (h : s.share room wallet q = .ok (s', x)) : Operation s [] s'
  | reap {at_ s' n} (h : s.reapRoomsAt at_ = (s', .ok n)) : Operation s [] s'
  | publish {room t s'} (h : s.publishTrade room t = (s', none)) : Operation s [] s'
  | touch {room wallet l} (h : s.lobby.touch room wallet s.now = .ok l) :
    Operation s [] { s with lobby := l }
  /-- Any act on the hub whose frame does not tell who is in a room. -/
  | act (a : Hub.Act) (ha : ∀ f ∈ a.frame?, f.isRoll = false) :
    Operation s [] { s with hub := s.hub.act a }
  /-- Anything else that leaves rooms and connections alone. -/
  | other {s' : Service} (lobby : s'.lobby = s.lobby) (hub : s'.hub = s.hub)
    (draws : s'.draws = s.draws) (drawn : s.drawn ≤ s'.drawn) : Operation s [] s'

/-- The lobby as operations leave it, with ids that are never drawn twice. -/
structure Tidy (s : Service) : Prop where
  fresh : Function.Injective s.draws.id
  lobby : s.lobby.Sound
  well : s.lobby.WellFormed
  drawn : ∀ id e, s.lobby.get? id = some e → ∃ k ≤ s.drawn, id = s.draws.id k

theorem tidy_new (settings : Settings) {draws : Draws} (hd : Function.Injective draws.id)
    (looksUp : Bool) (startedAt : Instant) : (new settings draws looksUp startedAt).Tidy :=
  ⟨hd, Lobby.sound_new _ _, Lobby.wellFormed_new _ _, fun _ _ h => nomatch h⟩

variable {s s' : Service} {es : List Event} {room wallet : String}

theorem create_of_createRoom {q : RoomRequest} {r : Room} (h : s.createRoom q = .ok (s', r)) :
    ∃ plan, s.lobby.create s.nextId plan s.now = .ok (s'.lobby, r) ∧ s'.hub = s.hub ∧
      s'.draws = s.draws ∧ s'.drawn = s.drawn + 1 := by
  obtain ⟨hash, l, s₁, hl, hside, rfl⟩ := createRoom_eq h
  obtain ⟨w, calls, hw⟩ := watchToken_eq s₁ r
  have hlobby : s₁.lobby = l := hside.lobby
  rw [hw]
  exact ⟨_, hl.trans (congrArg (fun l => Except.ok (l, r)) hlobby.symm), hside.hub, hside.draws,
    hside.drawn⟩

theorem Tidy.of_steady (ht : s.Tidy) (hdraws : s'.draws = s.draws) (hdrawn : s.drawn ≤ s'.drawn)
    (hl : s.lobby.Steady s'.lobby) (hw : s'.lobby.WellFormed) : s'.Tidy where
  fresh := by
    rw [hdraws]
    exact ht.fresh
  lobby := hl.sound ht.lobby
  well := hw
  drawn id e' he' := by
    obtain ⟨e, he, _⟩ := hl.symm.exists_entry he'
    obtain ⟨k, hk, hid⟩ := ht.drawn id e he
    rw [hdraws]
    exact ⟨k, hk.trans hdrawn, hid⟩

theorem Tidy.of_emptied (ht : s.Tidy) {closed : List Room} (he : Emptied s s' closed)
    (hl : s'.lobby.Sound) (hw : s'.lobby.WellFormed)
    (hkeys : ∀ id e', s'.lobby.get? id = some e' → ∃ e, s.lobby.get? id = some e) : s'.Tidy where
  fresh := by
    rw [he.draws]
    exact ht.fresh
  lobby := hl
  well := hw
  drawn id e' he' := by
    obtain ⟨e, hid⟩ := hkeys id e' he'
    rw [he.draws, he.drawn]
    exact ht.drawn id e hid

theorem tidy_createRoom (ht : s.Tidy) {q : RoomRequest} {r : Room}
    (h : s.createRoom q = .ok (s', r)) : s'.Tidy := by
  obtain ⟨plan, hc, _, hdraws, hdrawn⟩ := create_of_createRoom h
  refine ⟨by rw [hdraws]; exact ht.fresh, Lobby.sound_create ht.lobby hc, ht.well.create hc,
    fun id e he => ?_⟩
  rw [hdraws, hdrawn]
  by_cases hid : id = s.nextId
  · exact ⟨s.drawn + 1, Nat.le_refl _, hid⟩
  · obtain ⟨k, hk, hid⟩ := ht.drawn id e ((Lobby.get?_create hc id hid).symm.trans he)
    exact ⟨k, Nat.le_succ_of_le hk, hid⟩

/-- Ids are drawn one after the other from the same draws. -/
theorem draws_operation (ho : Operation s es s') : s'.draws = s.draws ∧ s.drawn ≤ s'.drawn := by
  have hcarry : Carries s s' → s'.draws = s.draws ∧ s.drawn ≤ s'.drawn :=
    fun h => ⟨h.draws, h.drawn⟩
  cases ho with
  | create h =>
    obtain ⟨_, _, _, hdraws, hdrawn⟩ := create_of_createRoom h
    exact ⟨hdraws, hdrawn ▸ Nat.le_succ _⟩
  | join h => exact hcarry (.of_calm (calm_joinRoom h).2)
  | leave h => exact hcarry (carries_leaveRoom h)
  | close h => exact hcarry (carries_closeRoom h)
  | share h => exact hcarry (.of_calm (calm_share h))
  | @reap at_ _ _ h =>
    have hreap := carries_reapRoomsAt s at_
    rw [h] at hreap
    exact hcarry hreap
  | publish h => exact hcarry (.of_calm (calm_publishTrade h))
  | touch => exact ⟨rfl, Nat.le_refl _⟩
  | act => exact ⟨rfl, Nat.le_refl _⟩
  | other _ _ draws drawn => exact ⟨draws, drawn⟩

theorem tidy_operation (ht : s.Tidy) (ho : Operation s es s') : s'.Tidy := by
  obtain ⟨hdraws, hdrawn⟩ := draws_operation ho
  have hsteady : s.lobby.Steady s'.lobby → s.lobby.Tended s'.lobby → s'.Tidy :=
    fun hl htended => ht.of_steady hdraws hdrawn hl (ht.well.leads htended)
  cases ho with
  | create h => exact tidy_createRoom ht h
  | join h => exact hsteady (calm_joinRoom h).2.lobby (leads_joinRoom rfl h)
  | leave h => exact hsteady (Lobby.steady_leave (leave_of_leaveRoom h)) (leads_leaveRoom rfl h)
  | close h =>
    obtain ⟨hc, he⟩ := emptied_closeRoom h
    have htended : s.lobby.Tended s'.lobby := leads_closeRoom rfl h
    refine ht.of_emptied he (Lobby.sound_close ht.lobby hc) (ht.well.leads htended)
      fun id e' he' => ?_
    obtain ⟨e, hroom, _, _, hl, _⟩ := Lobby.close_eq hc
    rw [hl, Lobby.get?_update] at he'
    split at he'
    · rename_i hid
      exact ⟨e, hid ▸ hroom⟩
    · exact ⟨e', he'⟩
  | share h => exact hsteady (calm_share h).lobby (leads_share rfl h)
  | reap h =>
    obtain ⟨closed, hr, he⟩ := emptied_reapRoomsAt h
    have htended : s.lobby.Tended s'.lobby := .of_reap rfl hr
    refine ht.of_emptied he (Lobby.sound_reap ht.lobby hr) (ht.well.leads htended)
      fun id e' he' => ?_
    obtain ⟨e, he, _⟩ := Lobby.get?_reap hr he'
    exact ⟨e, he⟩
  | publish h =>
    have hu := uneventful_publishTrade h
    exact hsteady hu.lobby hu.tended
  | touch h => exact hsteady (Lobby.steady_touch h) (.of_touch rfl h)
  | act => exact hsteady (.refl _) (.refl _)
  | other lobby => exact hsteady (lobby ▸ .refl _) (.of_eq lobby)

/-- What an operation does to the attendance of open rooms is what its events say. -/
theorem effect_operation (ht : s.Tidy) (ho : Operation s es s') :
    Lobby.Effect s.nextId s.lobby s'.lobby es := by
  have huneventful : ∀ {s' : Service}, Uneventful s s' →
      Lobby.Effect s.nextId s.lobby s'.lobby [] := by
    intro s' hu
    exact .none fun r hopen => ⟨(hu.lobby.isOpen_iff r).1 hopen, hu.active r⟩
  cases ho with
  | create h =>
    obtain ⟨plan, hc, _⟩ := create_of_createRoom h
    rw [Lobby.create_id hc]
    exact .opened (fun _ => Lobby.isOpen_create hc)
      fun _ _ => Lobby.isActive_create hc
  | @join room wallet password _ j h =>
    have hj := (calm_joinRoom h).1
    have hsteady := Lobby.steady_join hj
    obtain ⟨_, _, hwallet, hnewly⟩ := Lobby.join_reports ht.well hj
    have hactive : ∀ r v, s'.lobby.isActive r v = true ↔
        r = room ∧ v = Text.trim wallet ∨ s.lobby.isActive r v = true :=
      fun _ _ => Lobby.isActive_of_join hj
    cases haway : s.lobby.isActive room (Text.trim wallet) with
    | false =>
      rw [haway, Bool.not_false] at hnewly
      rw [if_pos hnewly, hwallet]
      refine .turned haway ?_ (fun r => (hsteady.isOpen_iff r).1) fun r v => ?_
      · exact (hsteady.isOpen_iff room).1 (Lobby.seats_iff.1 (Lobby.seats_join ht.lobby hj)).1
      · rw [Bool.eq_iff_iff, hactive]
        by_cases hrv : r = room ∧ v = Text.trim wallet
        · rw [if_pos hrv, eq_self, iff_true]
          exact Or.inl hrv
        · rw [if_neg hrv, or_iff_right hrv]
    | true =>
      rw [haway, Bool.not_true] at hnewly
      rw [if_neg (by rw [hnewly]; exact Bool.false_ne_true)]
      refine .none fun r hopen => ⟨(hsteady.isOpen_iff r).1 hopen, fun v => ?_⟩
      rw [Bool.eq_iff_iff, hactive, or_iff_right_iff_imp]
      rintro ⟨rfl, rfl⟩
      exact haway
  | @leave room wallet _ left h =>
    have hl := leave_of_leaveRoom h
    have hsteady := Lobby.steady_leave hl
    obtain ⟨hsome, hleft⟩ := Lobby.leave_reports ht.well hl
    cases left with
    | none => exact huneventful (uneventful_leaveRoom h)
    | some m =>
      show Lobby.Effect s.nextId s.lobby s'.lobby [.turned room m.wallet false]
      rw [(hleft m rfl).2]
      have hthere : s.lobby.isActive room wallet = true := hsome.symm
      refine .turned hthere (ht.well.isOpen_of_isActive hthere)
        (fun r => (hsteady.isOpen_iff r).1) fun r v => ?_
      rw [Bool.eq_iff_iff, Lobby.isActive_of_leave hl]
      by_cases hrv : r = room ∧ v = wallet
      · rw [if_pos hrv]
        exact iff_of_false (fun h => h.2 hrv) Bool.false_ne_true
      · rw [if_neg hrv, and_iff_left hrv]
  | close h =>
    have hc := (emptied_closeRoom h).1
    refine .none fun r hopen => ?_
    obtain ⟨hopen, hne⟩ := (Lobby.isOpen_close hc).1 hopen
    refine ⟨hopen, fun v => ?_⟩
    rw [Bool.eq_iff_iff, Lobby.isActive_of_close hc]
    exact and_iff_left hne
  | share h => exact huneventful (uneventful_share h)
  | reap h =>
    obtain ⟨closed, hr, _⟩ := emptied_reapRoomsAt h
    refine .none fun r hopen => ?_
    obtain ⟨hopen, hnot⟩ := (Lobby.isOpen_reap ht.lobby hr).1 hopen
    refine ⟨hopen, fun v => ?_⟩
    rw [Bool.eq_iff_iff, Lobby.isActive_of_reap ht.lobby ht.well hr]
    exact and_iff_left hnot
  | publish h => exact huneventful (uneventful_publishTrade h)
  | touch h => exact huneventful (.touch h)
  | act => exact .of_eq rfl
  | other lobby => exact .of_eq lobby

/-- The connections of a room hear of exactly the events that happen in it. -/
theorem relays_operation (hc : s.hub.Coherent) (ht : s.Tidy) (ho : Operation s es s') :
    s.hub.Relays s'.hub es := by
  have hsame : ∀ {hub : Hub}, hub = s.hub → s.hub.Relays hub [] := by
    rintro _ rfl
    exact Hub.relays_of_silent hc (Hub.silent_refl _)
  cases ho with
  | create h =>
    obtain ⟨_, _, hhub, _⟩ := create_of_createRoom h
    have hsilent : s.hub.Silent s'.hub := hhub ▸ Hub.silent_refl _
    exact Hub.relays_of_tells hc hsilent fun _ => rfl
  | @join room wallet password _ j h =>
    obtain ⟨_, hmember, _, _⟩ := Lobby.join_reports ht.well (calm_joinRoom h).1
    obtain ⟨u, _, htells⟩ := tells_joinRoom ht.well h
    refine Hub.relays_of_tells hc htells fun r => ?_
    unfold Hub.only
    by_cases hr : r = room
    · rw [if_pos hr, hr]
      cases j.newly with
      | false => rfl
      | true => simp [Frame.event?, Event.isTurnIn, Frame.Presence.of, hmember]
    · rw [if_neg hr]
      cases j.newly with
      | false => rfl
      | true => simp [Event.isTurnIn, Ne.symm hr]
  | @leave room wallet _ left h =>
    cases left with
    | none => exact Hub.relays_of_silent hc (uneventful_leaveRoom h).silent
    | some m =>
      obtain ⟨u, _, htells⟩ := tells_leaveRoom ht.well h
      have hmember : m.room = room :=
        ((Lobby.leave_reports ht.well (leave_of_leaveRoom h)).2 m rfl).1
      refine Hub.relays_of_tells hc htells fun r => ?_
      unfold Hub.only
      by_cases hr : r = room
      · simp [hr, Frame.event?, Event.isTurnIn, Frame.Presence.of, hmember]
      · simp [hr, Event.isTurnIn, Ne.symm hr]
  | close h =>
    refine Hub.relays_of_tells hc (emptied_closeRoom h).2.tells fun r => ?_
    unfold lastUpdates
    rw [List.filterMap_map]
    exact List.filterMap_none ..
  | share h => exact Hub.relays_of_silent hc (uneventful_share h).silent
  | reap h =>
    obtain ⟨closed, _, hends⟩ := emptied_reapRoomsAt h
    refine Hub.relays_of_tells hc hends.tells fun r => ?_
    unfold lastUpdates
    rw [List.filterMap_map]
    exact List.filterMap_none ..
  | publish h => exact Hub.relays_of_silent hc (uneventful_publishTrade h).silent
  | touch => exact hsame rfl
  | act a ha => exact Hub.relays_act hc a ha
  | other _ hub => exact hsame hub

end Service

end SwapFloor
