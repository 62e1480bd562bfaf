import SwapFloor.Proofs.Crypto.Written
import SwapFloor.Proofs.Service.Agreement
import SwapFloor.Proofs.Service.Course
import SwapFloor.Proofs.Service.Entrances

/-!
# Rooms with a password

The hash of a room's password stays what it was made when the room was created, and all ways into
the room ask for the password. Whoever does not know it is told so, and nothing else happens: only
a connection of its own hears of it.

Main statement: `gated_of_reaches`.
-/

namespace SwapFloor

namespace Lobby

variable {l : Lobby} {room : String} {password : Option String}

/-- What is said to whoever does not know the password of a room. -/
inductive Denial (l : Lobby) (room : String) : Failure → Prop where
  | wrong {e : Entry} {f : Failure} (he : l.get? room = some e) (hopen : e.room.status ≠ .closed)
    (hkind : f.kind = .auth) : Denial l room f
  | closed {e : Entry} (he : l.get? room = some e) (hclosed : e.room.status = .closed) :
    Denial l room (Failure.roomClosed room)
  | gone (he : l.get? room = none) : Denial l room (Failure.roomNotFound room)

/-- A room with a hash is open to the passwords that give it. -/
theorem opens_of_admission {hash : String}
    (hh : ∀ e, l.get? room = some e → e.room.passwordHash = some hash)
    (h : l.admission room password = .ok ()) : Password.Opens hash password := by
  obtain ⟨e, he, hc⟩ := bind_eq_ok_iff.1 h
  rw [hh e (get?_of_openEntry he)] at hc
  exact Password.check_eq_ok_iff.1 hc

/-- All other passwords are denied. -/
theorem denial_of_admission {hash : String} (hl : Password.Legible hash)
    (hh : ∀ e, l.get? room = some e → e.room.passwordHash = some hash)
    (hno : ¬ Password.Opens hash password) :
    ∃ f, l.Denial room f ∧ l.admission room password = .error f := by
  cases he : l.get? room with
  | none =>
    refine ⟨_, .gone he, ?_⟩
    unfold admission openEntry entry
    rw [he]
    rfl
  | some e =>
    by_cases hclosed : e.room.status = .closed
    · refine ⟨_, .closed he hclosed, ?_⟩
      unfold admission openEntry
      rw [entry_eq_ok_iff.2 he]
      show (if (e.room.status == .closed) = true then _ else _) >>= _ = _
      rw [if_pos (beq_iff_eq.2 hclosed)]
      rfl
    · have hadmission : l.admission room password = Password.check (some hash) password := by
        unfold admission
        rw [openEntry_eq_ok_iff.2 ⟨he, hclosed⟩, ← hh e he]
        rfl
      rw [hadmission]
      cases hc : Password.check (some hash) password with
      | ok u => exact absurd (Password.check_eq_ok_iff.1 hc) hno
      | error f => exact ⟨f, .wrong he hclosed (hl.kind_of_check hc), rfl⟩

end Lobby

/-- What is offered to an empty outbox waits in it first of all when its connection is closed,
unless nothing can wait. -/
theorem Hub.Offered.closeConnection {h h' : Hub} {c : Connection} {f : Frame}
    (ho : h.Offered h' f c) {n : Nat} (hnew : h.outbox? c.id = some (.new n)) :
    ∃ o, (h'.closeConnection c.id).1.outbox? c.id = some o ∧
      ([.frame f] <+: o.waiting ∨ o.cancelled = true) := by
  obtain ⟨o, ho, htold, hlive⟩ := ho
  obtain rfl := Option.some.inj (ho.symm.trans hnew)
  rw [Hub.outbox?_closeConnection]
  cases hr : (Outbox.new n).refusal? with
  | none =>
    have hoffer : (Outbox.new n).offer f = (Outbox.new n).push (.frame f) := by
      unfold Outbox.offer
      rw [hr]
    rw [hr, if_pos rfl] at hlive
    rw [hlive, if_pos ⟨rfl, rfl⟩, htold, hoffer]
    refine ⟨_, rfl, Or.inl ?_⟩
    obtain hw | hw := ((Outbox.new n).push (.frame f)).close_cases.2
    · rw [hw]
      exact List.prefix_rfl
    · rw [hw]
      exact List.prefix_append ..
  | some r =>
    have hoffer : (Outbox.new n).offer f = (Outbox.new n).cancel := by
      unfold Outbox.offer
      rw [hr]
    rw [hr, if_neg (Option.some_ne_none r)] at hlive
    rw [hlive, if_neg fun hc => Bool.false_ne_true hc.2, htold, hoffer]
    exact ⟨_, rfl, Or.inr rfl⟩

namespace Service

variable {s s' : Service} {room wallet : String} {password : Option String} {f : Failure}

/-! ## Whoever is turned away -/

/-- A failure was told to one connection, if it is live, and that is all. -/
structure Rebuffed (s s' : Service) (id : ConnectionId) (f : Failure) : Prop where
  rest : s' = { s with hub := s'.hub }
  told : ∀ c, s.hub.get? id = some c → s.hub.Offered s'.hub (.ofFailure f) c
  untold : ∀ id', id' ≠ id → s.hub.Untouched s'.hub id'
  dead : s.hub.get? id = none → s' = s

/-- A new connection was told a failure and removed, and that is all. -/
structure Bounced (s s' : Service) (room wallet : String) (f : Failure) : Prop where
  rest : s' = { s.withConnection room wallet with hub := s'.hub }
  gone : s'.hub.get? (s.hub.lastId + 1) = none
  /-- The failure waits for it first of all, unless it is cancelled as nothing can wait. -/
  told : ∃ o, s'.hub.outbox? (s.hub.lastId + 1) = some o ∧
    ([.frame (.ofFailure f)] <+: o.waiting ∨ o.cancelled = true)
  untold : ∀ id, id ≠ s.hub.lastId + 1 → s.hub.Untouched s'.hub id

/-- Whatever way someone takes into the room with the password, it fails alike and is without
effect, except that a connection hears of it. -/
structure Refuses (s : Service) (room : String) (password : Option String) (f : Failure) :
    Prop where
  join : ∀ wallet, s.joinRoom room wallet password = .error f
  request : ∀ r wallet, Forms.entry.read r = .ok (wallet, password) →
    s.answerPost (.join room) r = s.fail f
  upgrade : ∀ r pairs, pairs.lookup "password" = password →
    Text.trim ((pairs.lookup "wallet").getD "") ≠ "" → s.offerSocket room r pairs = s.fail f
  connection : ∀ wallet, Bounced s (s.openSocket room wallet password).1 room wallet f
  frame : ∀ id k text, s.sockets.get? id = some k → k.room = room →
    Request.ofText text = .ok (.join password) → Rebuffed s (s.receive id (.text text)) id f

theorem rebuffed_tell (hc : s.hub.Coherent) (id : ConnectionId) (f : Failure) :
    Rebuffed s (s.tell id (.ofFailure f)) id f := by
  refine ⟨rfl, fun c hg => ?_, fun id' hid => Hub.send_elsewhere hc _ hid, fun hg => ?_⟩
  · obtain ⟨_, rfl⟩ := hc.get?_rooms hg
    exact Hub.offered_send hc _ hg
  · unfold tell Hub.send
    rw [hg]

theorem joinRoom_of_admission (h : s.lobby.admission room password = .error f) (wallet : String) :
    s.joinRoom room wallet password = .error f := by
  unfold joinRoom
  obtain he | ⟨e, he, hc⟩ := bind_eq_error_iff.1 h
  · exact bind_eq_error_iff.2 (Or.inl he)
  · exact bind_eq_error_iff.2 (Or.inr ⟨e, he, bind_eq_error_iff.2 (Or.inl hc)⟩)

theorem admitSocket_of_admission (h : s.lobby.admission room password = .error f)
    (hw : Text.trim wallet ≠ "") : s.admitSocket room wallet password = .error f := by
  unfold admitSocket
  dsimp only
  rw [if_neg hw]
  obtain he | ⟨e, he, hc⟩ := bind_eq_error_iff.1 h
  · exact bind_eq_error_iff.2 (Or.inl he)
  · exact bind_eq_error_iff.2 (Or.inr ⟨e, he, bind_eq_error_iff.2 (Or.inl hc)⟩)

theorem bounced_openSocket (hc : s.hub.Coherent)
    (h : s.lobby.admission room password = .error f) (wallet : String) :
    Bounced s (s.openSocket room wallet password).1 room wallet f := by
  have hjoin : (s.withConnection room wallet).joinRoom room wallet password = .error f :=
    joinRoom_of_admission (s := s.withConnection room wallet) h wallet
  have hreg : (s.withConnection room wallet).hub.Coherent := hc.register ..
  have hg : (s.withConnection room wallet).hub.get? (s.hub.lastId + 1)
      = some (s.hub.nextConnection room wallet s.now) :=
    (Hub.get?_register ..).trans (if_pos rfl)
  have ho : (s.withConnection room wallet).hub.outbox? (s.hub.lastId + 1)
      = some (.new s.settings.sockets.outboundBuffer) :=
    (Hub.outbox?_register ..).trans (if_pos rfl)
  have htell := rebuffed_tell hreg (s.hub.lastId + 1) f
  rw [openSocket_of_error hjoin]
  refine ⟨rfl, ?_, ?_, fun id hid => ?_⟩
  · exact (Hub.get?_closeConnection ..).trans (if_pos rfl)
  · exact (htell.told _ hg).closeConnection ho
  · have hregister : s.hub.Untouched (s.withConnection room wallet).hub id :=
      ⟨(Hub.get?_register ..).trans (if_neg hid), (Hub.outbox?_register ..).trans (if_neg hid)⟩
    have hclosed : ∀ h : Hub, h.Untouched (h.closeConnection (s.hub.lastId + 1)).1 id := fun h =>
      ⟨(Hub.get?_closeConnection ..).trans (if_neg hid),
        (Hub.outbox?_closeConnection ..).trans (if_neg fun he => hid he.1)⟩
    exact (hregister.trans (htell.untold id hid)).trans (hclosed _)

theorem refuses_of_admission (hc : s.hub.Coherent)
    (h : s.lobby.admission room password = .error f) : s.Refuses room password f := by
  have hjoin := joinRoom_of_admission h
  refine ⟨hjoin, fun r wallet hr => ?_, fun r pairs hp hw => ?_, bounced_openSocket hc h,
    fun id k text hk hroom hq => ?_⟩
  · show s.withForm Forms.entry r (fun q => s.conclude (s.joinRoom room q.1 q.2) joinedJson) = _
    unfold withForm
    rw [hr]
    dsimp only
    rw [hjoin]
    rfl
  · unfold offerSocket
    rw [hp]
    dsimp only
    rw [admitSocket_of_admission h hw]
  · have hreceive : s.receive id (.text text) = s.tell id (.ofFailure f) := by
      unfold receive
      rw [hk]
      dsimp only
      unfold receiveText fulfil
      rw [hq]
      dsimp only
      rw [hroom, hjoin]
      rfl
    rw [hreceive]
    exact rebuffed_tell hc id f

/-! ## The hash of a room -/

/-- A course is one operation after the other. -/
theorem attempts_of_reaches (h : Reaches s s') : Relation.ReflTransGen Attempt s s' := by
  obtain ⟨as, h⟩ := h
  induction h with
  | done => exact .refl
  | errand he _ ih => exact .head (.errand he) ih
  | reap at_ _ ih => exact .head (.reap at_) ih
  | publish room t _ ih => exact .head (.publish room t) ih
  | process t _ ih => exact .head (.process t) ih

theorem carries_of_attempts (h : Relation.ReflTransGen Attempt s s') : Carries s s' := by
  induction h with
  | refl => exact .refl s
  | tail _ ha ih => exact ih.trans (passage_attempt ha).carries

/-- The room was made with this hash, and no other room comes under its id. -/
structure Guarded (s : Service) (room hash : String) : Prop where
  /-- No id is drawn twice. -/
  fresh : Function.Injective s.draws.id
  drawn : ∃ k ≤ s.drawn, room = s.draws.id k
  hub : s.hub.Coherent
  hash : ∀ e, s.lobby.get? room = some e → e.room.passwordHash = some hash

theorem prepare_of_createRoom {q : RoomRequest} {r : Room} (h : s.createRoom q = .ok (s', r)) :
    Password.prepare (s.draws.salt s.drawn) q.password = .ok r.passwordHash := by
  unfold createRoom at h
  obtain ⟨hash, hh, h⟩ := bind_eq_ok_iff.1 h
  obtain ⟨⟨l, r'⟩, hl, h⟩ := bind_eq_ok_iff.1 h
  obtain ⟨_, rfl⟩ := Prod.mk.inj (Except.ok.inj h)
  obtain ⟨_, _, hroom, _⟩ := Lobby.create_eq hl
  rw [hh, hroom]

theorem guarded_createRoom {hash : String} (hd : Function.Injective s.draws.id)
    (hhub : s.hub.Coherent) {q : RoomRequest} {r : Room} (h : s.createRoom q = .ok (s', r))
    (hh : r.passwordHash = some hash) : s'.Guarded r.id hash := by
  obtain ⟨plan, hc, hsame, hdraws, hdrawn⟩ := create_of_createRoom h
  obtain ⟨_, _, _, hl⟩ := Lobby.create_eq hc
  have hid := Lobby.create_id hc
  refine ⟨hdraws ▸ hd, ⟨s.drawn + 1, hdrawn.ge, ?_⟩, hsame ▸ hhub, fun e he => ?_⟩
  · rw [hdraws]
    exact hid
  · rw [hid, hl, Lobby.get?_update, if_pos rfl] at he
    cases he
    exact hh

namespace Guarded

variable {hash : String}

theorem ne_nextId (hg : s.Guarded room hash) : room ≠ s.nextId := by
  rintro rfl
  obtain ⟨k, hk, hid⟩ := hg.drawn
  have := hg.fresh hid
  omega

theorem attempt (hg : s.Guarded room hash) (h : Attempt s s') : s'.Guarded room hash := by
  obtain ⟨k, hk, hid⟩ := hg.drawn
  have hpassage := passage_attempt h
  obtain ⟨hdraws, hdrawn, hhub⟩ := hpassage.carries
  refine ⟨hdraws ▸ hg.fresh, ⟨k, hk.trans hdrawn, hdraws ▸ hid⟩, hhub hg.hub, fun e' he' => ?_⟩
  have hkept : s.lobby.Tended s'.lobby → e'.room.passwordHash = some hash := by
    intro htended
    obtain ⟨e, he, horigin⟩ := htended.exists_entry he'
    exact (congrArg Room.Origin.passwordHash horigin).trans (hg.hash e he)
  cases hpassage with
  | created h =>
    obtain ⟨plan, hc, _⟩ := create_of_createRoom h
    exact hg.hash e' ((Lobby.get?_create hc room hg.ne_nextId).symm.trans he')
  | entered h => exact hkept h.tended
  | idle _ htended _ => exact hkept htended

theorem attempts (hg : s.Guarded room hash) (h : Relation.ReflTransGen Attempt s s') :
    s'.Guarded room hash := by
  induction h with
  | refl => exact hg
  | tail _ ha ih => exact ih.attempt ha

/-- Whoever comes in has presented a password that gives the hash. -/
theorem entered (hg : s.Guarded room hash) (h : Attempt s s') {w : String}
    (hbefore : s.lobby.isActive room w = false) (hafter : s'.lobby.isActive room w = true) :
    ∃ wallet password, Entrance s room wallet password s' ∧ Text.trim wallet = w ∧
      Password.Opens hash password := by
  have haway : ¬ s.lobby.isActive room w = true := by
    rw [hbefore]
    exact Bool.false_ne_true
  cases passage_attempt h with
  | created h =>
    obtain ⟨plan, hc, _⟩ := create_of_createRoom h
    rw [Lobby.isActive_create hc, if_neg hg.ne_nextId] at hafter
    exact absurd hafter haway
  | @entered room' wallet password h =>
    obtain ⟨rfl, rfl⟩ := (h.isActive_iff.1 hafter).resolve_right haway
    exact ⟨wallet, password, h, rfl, Lobby.opens_of_admission hg.hash h.admission⟩
  | idle _ _ nobody => exact absurd (nobody room w hafter) haway

end Guarded

/-! ## Along every course -/

/-- Take a room that is created with a password, and any later state of the service. The only one
in the room at first is its creator. Whoever comes in by an operation, be it that it breaks off,
has taken one of the ways in, with a password that gives the hash of the room; the password that it
was created with does. All ways refuse any other password, as the password is wrong or the room is
closed or gone. -/
theorem gated_of_reaches (settings : Settings) {draws : Draws} (hd : Function.Injective draws.id)
    (hsalt : ∀ n, (draws.salt n).length = 16) (looksUp : Bool) (startedAt : Instant)
    {s₀ s₁ : Service} {q : RoomRequest} {r : Room} {p : String}
    (hbefore : Reaches (new settings draws looksUp startedAt) s₀)
    (hcreate : s₀.createRoom q = .ok (s₁, r)) (hp : q.password = some p) (hne : p ≠ "")
    (hafter : Reaches s₁ s) :
    ∃ hash, r.passwordHash = some hash ∧ Password.Opens hash (some p) ∧
      (∀ w, s₁.lobby.isActive r.id w = true → w = r.creator) ∧
      (∀ s' w, Attempt s s' → s.lobby.isActive r.id w = false →
        s'.lobby.isActive r.id w = true →
        ∃ wallet password, Entrance s r.id wallet password s' ∧ Text.trim wallet = w ∧
          Password.Opens hash password) ∧
      ∀ password, ¬ Password.Opens hash password →
        ∃ f, s.lobby.Denial r.id f ∧ s.Refuses r.id password f := by
  obtain ⟨hdraws, _, hhub⟩ := carries_of_attempts (attempts_of_reaches hbefore)
  have hlength : (s₀.draws.salt s₀.drawn).length = 16 := by
    rw [hdraws]
    exact hsalt _
  have hprepare := prepare_of_createRoom hcreate
  rw [hp] at hprepare
  have hhash := Password.prepare_eq hne hprepare
  have hmade := guarded_createRoom (hdraws ▸ hd) (hhub Hub.coherent_empty) hcreate hhash
  have hg := hmade.attempts (attempts_of_reaches hafter)
  have hlegible : Password.Legible
      (Crypto.PasswordHash.make (s₀.draws.salt s₀.drawn) p).text :=
    Password.legible_make (by omega) (by omega) p
  refine ⟨_, hhash, ⟨p, rfl, hne, Password.verify_own (by omega) (by omega) p⟩, fun w hv => ?_,
    fun s' w hattempt => hg.entered hattempt, fun password hno => ?_⟩
  · obtain ⟨plan, hc, _⟩ := create_of_createRoom hcreate
    rw [Lobby.isActive_create hc, if_pos (Lobby.create_id hc)] at hv
    exact of_decide_eq_true hv
  · obtain ⟨f, hdenial, hf⟩ := Lobby.denial_of_admission hlegible hg.hash hno
    exact ⟨f, hdenial, refuses_of_admission hg.hub hf⟩

/-- Draws with salts of sixteen bytes. -/
def saltedIds : Draws := { growingIds with salt := fun _ => List.replicate 16 0 }

theorem saltedIds_injective : Function.Injective saltedIds.id := growingIds_injective

/-- Ada opens a room with a password. -/
def secretRoom : RoomRequest := { creator := "ada", password := some "sesame" }

def smallSalted : Service := new {} saltedIds true ⟨0, false⟩

def smallWithSecret : Service := smallSalted.after (smallSalted.createRoom secretRoom)

/-- Bo comes in with the password, and is told that it is needed if he has none. -/
theorem gated_small : ∃ r hash, smallSalted.createRoom secretRoom = .ok (smallWithSecret, r) ∧
    r.id = "r" ∧ r.passwordHash = some hash ∧ Password.Opens hash (some "sesame") ∧
    (∃ f, f.kind = .auth ∧ smallWithSecret.Refuses "r" none f) ∧
    smallWithSecret.lobby.isActive "r" "bo" = false ∧
    ∃ s' j, smallWithSecret.joinRoom "r" "bo" (some "sesame") = .ok (s', j) ∧
      s'.lobby.isActive "r" "bo" = true ∧
      ∃ wallet password, Entrance smallWithSecret "r" wallet password s' ∧
        Text.trim wallet = "bo" ∧ Password.Opens hash password := by
  obtain ⟨r, hcreate, hid⟩ : ∃ r, smallSalted.createRoom secretRoom = .ok (smallWithSecret, r) ∧
      r.id = "r" := eq_ok_after (by decide +kernel)
  have hstatus : (smallWithSecret.lobby.get? "r").map (·.room.status) = some .open := by
    decide +kernel
  have haway : smallWithSecret.lobby.isActive "r" "bo" = false := by decide +kernel
  obtain ⟨e, he, hopen⟩ := Option.map_eq_some_iff.1 hstatus
  have hsalt : ∀ n, (saltedIds.salt n).length = 16 := fun _ => List.length_replicate
  obtain ⟨hash, hhash, hown, _, hentered, hrefused⟩ := gated_of_reaches {} saltedIds_injective
    hsalt true ⟨0, false⟩ (.refl _) hcreate (p := "sesame") rfl (by decide) (.refl _)
  rw [hid] at hentered hrefused
  obtain ⟨f, hdenial, hrefuses⟩ := hrefused none fun ⟨_, hp, _⟩ => nomatch hp
  have hg := guarded_createRoom saltedIds_injective Hub.coherent_empty hcreate hhash
  rw [hid] at hg
  have hadmission : smallWithSecret.lobby.admission "r" (some "sesame") = .ok () := by
    refine bind_eq_ok_iff.2 ⟨e, Lobby.openEntry_eq_ok_iff.2 ⟨he, ?_⟩, ?_⟩
    · rw [hopen]
      exact fun hc => nomatch hc
    · rw [hg.hash e he]
      exact Password.check_eq_ok_iff.2 hown
  obtain ⟨s', j, hj⟩ := exists_joinRoom hadmission (show Text.trim "bo" ≠ "" by decide +kernel)
  have hthere : s'.lobby.isActive "r" "bo" = true :=
    (Lobby.isActive_of_join (calm_joinRoom hj).1).2 (Or.inl ⟨rfl, by decide +kernel⟩)
  refine ⟨r, hash, hcreate, hid, hhash, hown, ⟨f, ?_, hrefuses⟩, haway, s', j, hj, hthere,
    hentered s' "bo" (.errand (.join hj)) haway hthere⟩
  cases hdenial with
  | wrong _ _ hkind => exact hkind
  | closed he' hclosed =>
    cases he.symm.trans he'
    exact nomatch hopen.symm.trans hclosed
  | gone he' => exact nomatch he.symm.trans he'

end Service

end SwapFloor
