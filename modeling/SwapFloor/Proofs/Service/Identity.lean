import SwapFloor.Proofs.Service.Gate

/-!
# Who a wallet is

Whoever creates or joins a room comes in under the given wallet without its surrounding blanks, and
a room knows its members and its creator by such wallets alone. Sharing, leaving and closing take
the given wallet as it is. So a wallet with blanks around it is let in and then taken for a stranger
by all of them, while the same wallet without the blanks is recognized by all.

Main statement: `identifies_of_reaches`.
-/

namespace SwapFloor

namespace Lobby

variable {l l' : Lobby} {id room wallet w : String} {e : Entry}

/-- Rooms know their members by wallets without surrounding blanks. -/
def Trimmed (l : Lobby) : Prop :=
  ∀ id e, l.get? id = some e → ∀ w ∈ e.members.keys, Text.trim w = w

theorem trimmed_new (hours : Int64) (mint : String) : (new hours mint).Trimmed :=
  fun _ _ h => nomatch h

theorem Entry.mem_keys_leave {now : Instant} (h : w ∈ (e.leave wallet now).1.members.keys) :
    w ∈ e.members.keys := by
  unfold Entry.leave at h
  cases hm : e.members.get? wallet with
  | none =>
    rw [hm] at h
    exact h
  | some m =>
    rw [hm] at h
    dsimp only at h
    split at h
    · exact (Table.mem_keys_put.1 h).elim (fun hw => hw ▸ Table.mem_keys_iff.2 ⟨m, hm⟩) fun hw => hw
    · exact h

namespace Trimmed

theorem update (h : l.Trimmed) (he : ∀ w ∈ e.members.keys, Text.trim w = w) :
    (l.update id e).Trimmed := by
  intro id' e' he'
  rw [get?_update] at he'
  split at he'
  · obtain rfl := Option.some.inj he'
    exact he
  · exact h id' e' he'

theorem afterwards {α : Type} {x : Except Failure (Lobby × α)} (h : l.Trimmed)
    (hok : ∀ l' a, x = .ok (l', a) → l'.Trimmed) : (l.afterwards x).Trimmed := by
  cases x with
  | error f => exact h
  | ok r => exact hok r.1 r.2 rfl

/-- Only creating and joining add members, and they take the blanks away. -/
theorem act (h : l.Trimmed) (a : Act) : (l.act a).Trimmed := by
  cases a with
  | create id plan now =>
    refine h.afterwards fun l' room hc => ?_
    obtain ⟨_, _, _, rfl⟩ := create_eq hc
    refine h.update fun w hw => ?_
    rw [(Table.mem_keys_put.1 hw).resolve_right List.not_mem_nil, Text.trim_trim]
  | join id wallet now =>
    refine h.afterwards fun l' j hj => ?_
    obtain ⟨_, e, he, rfl, _⟩ := join_eq hj
    refine h.update fun w hw => ?_
    rcases Table.mem_keys_put.1 hw with rfl | hw
    · exact Text.trim_trim wallet
    · exact h id e (get?_of_openEntry he) w hw
  | leave id wallet now =>
    refine h.afterwards fun l' left hl => ?_
    obtain ⟨e, he, rfl, _⟩ := leave_eq hl
    exact h.update fun w hw => h id e he w (Entry.mem_keys_leave hw)
  | close id requester now =>
    refine h.afterwards fun l' room hc => ?_
    obtain ⟨e, he, _, _, rfl, _⟩ := close_eq hc
    exact h.update fun w hw => h id e he w (Table.keys_map e.members _ ▸ hw)
  | touch id wallet now =>
    refine h.afterwards fun l' u ht => ?_
    cases hl : l.touch id wallet now with
    | error f =>
      rw [hl] at ht
      exact nomatch ht
    | ok l₁ =>
      rw [hl] at ht
      obtain ⟨rfl, _⟩ := Prod.mk.inj (Except.ok.inj ht)
      obtain ⟨e, he, rfl⟩ := touch_eq hl
      exact h.update fun w hw =>
        h id e (get?_of_openEntry he) w (Table.keys_modify e.members wallet _ ▸ hw)
  | recordTrade id t =>
    refine h.afterwards fun l' trouble hr => ?_
    obtain ⟨e, he, rfl, _⟩ := recordTrade_eq hr
    exact h.update (h id e (get?_of_openEntry he))
  | reap now =>
    intro id e' he' w hw
    obtain ⟨e, he, rfl | ⟨_, rfl⟩⟩ := exists_of_get?_reap he'
    · exact h id e' he w hw
    · exact h id e he w (Table.keys_map e.members _ ▸ hw)

theorem run (h : l.Trimmed) (as : List Act) : (l.run as).Trimmed := by
  induction as generalizing l with
  | nil => exact h
  | cons a as ih => exact ih (h.act a)

/-- A wallet with blanks around it is nobody's. -/
theorem isActive_eq_false (h : l.Trimmed) (room : String) (hw : Text.trim w ≠ w) :
    l.isActive room w = false := by
  refine Bool.eq_false_iff.2 fun hv => ?_
  obtain ⟨e, he, hv⟩ := exists_of_isActive hv
  exact hw (h room e he w (Entry.mem_keys_of_isActive hv))

end Trimmed

end Lobby

namespace Service

variable {s s' : Service} {room wallet w : String}

/-! ## Who is recognized -/

/-- The service takes the wallet for a member of the room: it is there, it may share, and leaving
lets it go; if the room is its own, it may close it. -/
structure Recognizes (s : Service) (room w : String) : Prop where
  present : s.lobby.isActive room w = true
  shares : ∀ q : ShareRequest, Text.isAllBlank q.url = false →
    ∃ s' x, s.share room w q = .ok (s', x)
  leaves : ∃ s' m, s.leaveRoom room w = .ok (s', some m) ∧ m.room = room ∧ m.wallet = w ∧
    s'.lobby.isActive room w = false
  closes : ∀ e, s.lobby.get? room = some e → e.room.creator = w →
    ∃ s' r, s.closeRoom room w = .ok (s', r)

/-- The service takes the wallet for a stranger: it is not there, it may not share, leaving lets
nobody go, and it may not close the room. -/
structure Mistakes (s : Service) (room w : String) : Prop where
  absent : s.lobby.isActive room w = false
  shares : ∀ q, s.share room w q = .error (Failure.notMember w)
  leaves : ∃ s', s.leaveRoom room w = .ok (s', none) ∧
    ∀ r v, s'.lobby.isActive r v = s.lobby.isActive r v
  closes : s.closeRoom room w = .error (Failure.notCreator room)

theorem exists_share {e : Lobby.Entry} (he : s.lobby.openEntry room = .ok e)
    (hv : e.isActive wallet = true) {q : ShareRequest} (hurl : Text.isAllBlank q.url = false) :
    ∃ s' x, s.share room wallet q = .ok (s', x) := by
  have hprepare : ∃ x, s.prepareShare room wallet q = .ok x := by
    unfold prepareShare Share.new
    rw [he]
    show ∃ x, (if e.isActive wallet = true then _ else _) = _
    rw [if_pos hv, hurl]
    exact ⟨_, rfl⟩
  obtain ⟨x, hx⟩ := hprepare
  have htouch := Lobby.touch_of_openEntry he wallet s.now
  exact ⟨_, x, bind_eq_ok_iff.2 ⟨x, hx, bind_eq_ok_iff.2 ⟨_, htouch, rfl⟩⟩⟩

theorem exists_leaveRoom {e : Lobby.Entry} (he : s.lobby.get? room = some e) (wallet : String) :
    ∃ s', s.leaveRoom room wallet = .ok (s', (e.leave wallet s.now).2) := by
  have hleave : s.lobby.leave room wallet s.now
      = .ok (s.lobby.update room (e.leave wallet s.now).1, (e.leave wallet s.now).2) := by
    unfold Lobby.leave
    rw [Lobby.entry_eq_ok_iff.2 he]
    rfl
  cases hleft : (e.leave wallet s.now).2 with
  | none =>
    rw [hleft] at hleave
    exact ⟨_, bind_eq_ok_iff.2 ⟨_, hleave, rfl⟩⟩
  | some m =>
    rw [hleft] at hleave
    exact ⟨_, bind_eq_ok_iff.2 ⟨_, hleave, rfl⟩⟩

theorem exists_closeRoom {e : Lobby.Entry} (he : s.lobby.get? room = some e)
    (hcreator : e.room.creator = wallet) (hopen : e.room.status = .open) :
    ∃ s' r, s.closeRoom room wallet = .ok (s', r) := by
  have hclose : s.lobby.close room wallet s.now
      = .ok (s.lobby.update room (e.shut s.now), (e.shut s.now).room) := by
    unfold Lobby.close
    rw [Lobby.entry_eq_ok_iff.2 he]
    show (if e.room.creator ≠ wallet then _ else _) = _
    rw [if_neg fun hne => hne hcreator, Lobby.Entry.close_eq_ok_iff.2 ⟨hopen, rfl⟩]
    rfl
  exact ⟨_, _, bind_eq_ok_iff.2 ⟨_, hclose, rfl⟩⟩

/-- Just those who are there are recognized. -/
theorem recognizes_iff (hw : s.lobby.WellFormed) :
    s.Recognizes room w ↔ s.lobby.isActive room w = true := by
  refine ⟨Recognizes.present, fun hv => ?_⟩
  obtain ⟨e, he, hopen⟩ := hw.isOpen_of_isActive hv
  have hthere : e.isActive w = true := (Lobby.isActive_of_get? he).symm.trans hv
  refine ⟨hv, fun q hurl => ?_, ?_, fun e' he' hcreator => ?_⟩
  · exact exists_share (Lobby.openEntry_eq_ok_iff.2 ⟨he, fun hc => nomatch hopen.symm.trans hc⟩)
      hthere hurl
  · obtain ⟨s', hleave⟩ := exists_leaveRoom he w
    have hl := leave_of_leaveRoom hleave
    obtain ⟨m, hm⟩ := Option.isSome_iff_exists.1 ((e.isSome_leave w s.now).trans hthere)
    rw [hm] at hleave hl
    obtain ⟨hroom, hwallet⟩ := (Lobby.leave_reports hw hl).2 m rfl
    exact ⟨s', m, hleave, hroom, hwallet, Bool.eq_false_iff.2 fun hc =>
      ((Lobby.isActive_of_leave hl).1 hc).2 ⟨rfl, rfl⟩⟩
  · obtain rfl := Option.some.inj (he.symm.trans he')
    exact exists_closeRoom he hcreator hopen

/-- With blanks around it, a wallet is a stranger to every open room. -/
theorem mistakes_of_trim_ne (hw : s.lobby.WellFormed) (ht : s.lobby.Trimmed)
    (hopen : s.lobby.IsOpen room) (hne : Text.trim w ≠ w) : s.Mistakes room w := by
  obtain ⟨e, he, hopen⟩ := hopen
  have habsent := ht.isActive_eq_false room hne
  have haway : e.isActive w = false := (Lobby.isActive_of_get? he).symm.trans habsent
  have hcreator : e.room.creator ≠ w := fun hc =>
    hne (ht room e he w (hc ▸ (hw room e he).creator))
  refine ⟨habsent, fun q => ?_, ?_, ?_⟩
  · have hentry : s.lobby.openEntry room = .ok e :=
      Lobby.openEntry_eq_ok_iff.2 ⟨he, fun hc => nomatch hopen.symm.trans hc⟩
    refine bind_eq_error_iff.2 (Or.inl (bind_eq_error_iff.2 (Or.inr ⟨e, hentry, ?_⟩)))
    rw [haway]
    rfl
  · obtain ⟨s', hleave⟩ := exists_leaveRoom he w
    have hnone : (e.leave w s.now).2 = none :=
      Option.isNone_iff_eq_none.1 (by
        rw [← Option.not_isSome, e.isSome_leave, haway]
        rfl)
    rw [hnone] at hleave
    exact ⟨s', hleave, (uneventful_leaveRoom hleave).active⟩
  · refine bind_eq_error_iff.2 (Or.inl (bind_eq_error_iff.2 (Or.inr ⟨e, ?_, ?_⟩)))
    · exact Lobby.entry_eq_ok_iff.2 he
    · exact if_pos hcreator

/-! ## Along every course -/

/-- Whatever is done with the lobby in an operation is done one act after the other. -/
theorem exists_run_attempt (h : Attempt s s') : ∃ as, s'.lobby = s.lobby.run as := by
  cases h with
  | errand h =>
    obtain ⟨as, hl, _⟩ := managed_errand h
    exact ⟨as, hl⟩
  | reap at_ => exact ⟨[.reap at_], reapRoomsAt_lobby s at_⟩
  | publish room t =>
    have hpublish : Uneventful s (s.publishTrade room t).1 := uneventful_publishTrade rfl
    obtain ⟨as, hl, _⟩ := hpublish.tended
    exact ⟨as, hl⟩
  | process t =>
    have hprocess : Uneventful s (s.processTrade t).1 := uneventful_processTrade rfl
    obtain ⟨as, hl, _⟩ := hprocess.tended
    exact ⟨as, hl⟩

theorem exists_run_of_reaches (h : Reaches s s') : ∃ as, s'.lobby = s.lobby.run as := by
  have hattempts := attempts_of_reaches h
  clear h
  induction hattempts with
  | refl => exact ⟨[], rfl⟩
  | tail _ ha ih =>
    obtain ⟨as, has⟩ := ih
    obtain ⟨bs, hbs⟩ := exists_run_attempt ha
    exact ⟨as ++ bs, by rw [hbs, has, Lobby.run_append]⟩

/-- What the service makes of a wallet as it was given when it was let into a room. -/
structure Identifies (s : Service) (room w : String) : Prop where
  trimmed : s.Recognizes room (Text.trim w)
  recognizes_iff : s.Recognizes room w ↔ Text.trim w = w
  padded : Text.trim w ≠ w → s.Mistakes room w

theorem identifies_of_isActive (hw : s.lobby.WellFormed) (ht : s.lobby.Trimmed)
    (hv : s.lobby.isActive room (Text.trim w) = true) : s.Identifies room w where
  trimmed := (recognizes_iff hw).2 hv
  recognizes_iff := by
    refine ⟨fun hr => Decidable.byContradiction fun hne => ?_, fun heq => ?_⟩
    · exact nomatch (ht.isActive_eq_false room hne).symm.trans hr.present
    · exact (recognizes_iff hw).2 (heq ▸ hv)
  padded := mistakes_of_trim_ne hw ht (hw.isOpen_of_isActive hv)

/-- In every state that the service can reach, whoever joins or creates a room is recognized under
its wallet without surrounding blanks. Under the wallet as it was given it is recognized just if
there were none; else it is taken for a stranger in all that it does next. -/
theorem identifies_of_reaches (settings : Settings) (draws : Draws) (looksUp : Bool)
    (startedAt : Instant) (h : Reaches (new settings draws looksUp startedAt) s) :
    (∀ room w password s' j, s.joinRoom room w password = .ok (s', j) → s'.Identifies room w) ∧
      ∀ q s' r, s.createRoom q = .ok (s', r) → s'.Identifies r.id q.creator ∧
        ∃ s₁ r₁, s'.closeRoom r.id (Text.trim q.creator) = .ok (s₁, r₁) := by
  have hkept : ∀ s', Errand s s' → s'.lobby.WellFormed ∧ s'.lobby.Trimmed := by
    intro s' he
    obtain ⟨as, has⟩ := exists_run_of_reaches (h.trans (.of_errand he))
    rw [has]
    exact ⟨(Lobby.wellFormed_new _ _).run as, (Lobby.trimmed_new _ _).run as⟩
  refine ⟨fun room w password s' j hj => ?_, fun q s' r hr => ?_⟩
  · obtain ⟨hw, ht⟩ := hkept s' (.join hj)
    exact identifies_of_isActive hw ht
      ((Lobby.isActive_of_join (calm_joinRoom hj).1).2 (Or.inl ⟨rfl, rfl⟩))
  · obtain ⟨hw, ht⟩ := hkept s' (.create hr)
    obtain ⟨plan, hc, _⟩ := create_of_createRoom hr
    obtain ⟨hash, l, _, hl, _⟩ := createRoom_eq hr
    have hcreator : r.creator = Text.trim q.creator :=
      congrArg Room.creator (Lobby.create_eq hl).2.2.1
    have hid := Lobby.create_id hc
    have hv : s'.lobby.isActive r.id (Text.trim q.creator) = true := by
      rw [Lobby.isActive_create hc, if_pos hid]
      exact decide_eq_true hcreator.symm
    have hidentified := identifies_of_isActive hw ht hv
    obtain ⟨e, he, hroom, _⟩ := Lobby.exists_create hc
    exact ⟨hidentified,
      hidentified.trimmed.closes e (hid ▸ he) ((congrArg Room.creator hroom).trans hcreator)⟩

/-- Ada opens a room under her wallet with blanks around it. -/
def smallPadded : Service := small.after (small.createRoom { creator := " ada " })

theorem createRoom_smallPadded :
    ∃ r, small.createRoom { creator := " ada " } = .ok (smallPadded, r) ∧ r.id = "r" :=
  eq_ok_after (by decide +kernel)

theorem identifies_small :
    Reaches small small ∧ ∃ r, small.createRoom { creator := " ada " } = .ok (smallPadded, r) ∧
      r.id = "r" ∧ smallPadded.Identifies "r" " ada " := by
  obtain ⟨r, hcreate, hid⟩ := createRoom_smallPadded
  obtain ⟨_, hmade⟩ := identifies_of_reaches {} growingIds true ⟨0, false⟩ (.refl small)
  exact ⟨.refl small, r, hcreate, hid, hid ▸ (hmade _ _ _ hcreate).1⟩

/-- Ada is a stranger to the room that she has just opened, and may not close it. -/
theorem not_recognizes_padded :
    ¬ ∀ s q s' r, Reaches small s → s.createRoom q = .ok (s', r) →
      s'.lobby.isActive r.id q.creator = true ∧
        s'.closeRoom r.id q.creator ≠ .error (Failure.notCreator r.id) := by
  intro hclaim
  obtain ⟨r, hcreate, hid⟩ := createRoom_smallPadded
  have habsent : smallPadded.lobby.isActive "r" " ada " = false := by decide +kernel
  have hthere := (hclaim small _ smallPadded r (.refl small) hcreate).1
  rw [hid] at hthere
  exact nomatch habsent.symm.trans hthere

end Service

end SwapFloor
