import SwapFloor.Proofs.Room.Presence
import SwapFloor.Service.Sockets

/-!
# Operations call by call

An operation is a procedure that calls on one part of the service after the other. A call is done at
once; between two calls of one procedure others may do theirs. A procedure that fails does so at one
of its calls, and what the earlier ones have changed is not taken back.

If nobody comes in between, nothing has to be taken back either. Main statements: a procedure that
is left alone does what its operation does, and one that fails has changed nothing
(`alone_joining`, `alone_leaving`, `alone_sharing`, `alone_answering`).
-/

namespace SwapFloor

/-- What is still to be done of an operation: calls, each of which decides what follows by what it
finds, until there is a result. -/
inductive Procedure (α : Type) where
  | done (r : Except Failure α)
  | call (act : Service → Service) (next : Service → Procedure α)

namespace Procedure

variable {α β : Type}

def bind : Procedure α → (α → Procedure β) → Procedure β
  | done (.ok a), f => f a
  | done (.error e), _ => done (.error e)
  | call act next, f => call act fun s => (next s).bind f

instance : Monad Procedure where
  pure a := done (.ok a)
  bind := bind

/-- The service and the result, if nobody comes in between. -/
def alone : Procedure α → Service → Service × Except Failure α
  | done r, s => (s, r)
  | call act next, s => (next s).alone (act s)

/-- What an operation comes to that changes nothing when it fails. -/
def outcome (s : Service) : Except Failure (Service × α) → Service × Except Failure α
  | .ok (s', a) => (s', .ok a)
  | .error f => (s, .error f)

/-- A call that only looks. -/
def ask (look : Service → Except Failure α) : Procedure α := call (fun s => s) fun s => done (look s)

/-- A call that changes something, or fails and changes nothing. -/
def attempt (change : Service → Except Failure (Service × α)) : Procedure α :=
  call (fun s => (outcome s (change s)).1) fun s => done (outcome s (change s)).2

/-- A call that changes something. -/
def perform (change : Service → Service) : Procedure Unit := call change fun _ => done (.ok ())

/-- A call that is made on a condition only. -/
def performIf (b : Bool) (change : Service → Service) : Procedure Unit :=
  if b then perform change else done (.ok ())

/-- Nothing more to be done for one who only wants to know whether it was done. -/
def ignore (p : Procedure α) : Procedure Unit := p >>= fun _ => done (.ok ())

section

variable {γ : Type} {s s' : Service} {a : α} {f : Failure} {p : Procedure α}

theorem alone_bind (p : Procedure α) (g : α → Procedure β) (s : Service) :
    (p >>= g).alone s = match p.alone s with
      | (s', .ok a) => (g a).alone s'
      | (s', .error f) => (s', .error f) := by
  induction p generalizing s with
  | done r =>
    cases r with
    | ok a => rfl
    | error f => rfl
  | call act next ih => exact ih s (act s)

theorem alone_bind_of_ok (h : p.alone s = (s', .ok a)) (g : α → Procedure β) :
    (p >>= g).alone s = (g a).alone s' := by
  rw [alone_bind, h]

theorem alone_bind_of_error (h : p.alone s = (s', .error f)) (g : α → Procedure β) :
    (p >>= g).alone s = (s', .error f) := by
  rw [alone_bind, h]

theorem alone_performIf (b : Bool) (change : Service → Service) (s : Service) :
    (performIf b change).alone s = (if b then change s else s, .ok ()) := by
  cases b <;> rfl

/-- Something that may fail comes first, and has changed nothing then. -/
theorem alone_done_bind {r : Except Failure α} {g : α → Procedure β}
    {next : α → Except Failure (Service × β)}
    (h : ∀ a, r = .ok a → (g a).alone s = outcome s (next a)) :
    (done r >>= g).alone s = outcome s (r >>= next) := by
  cases r with
  | ok a => exact h a rfl
  | error f => rfl

theorem alone_ask_bind {look : Service → Except Failure α} {g : α → Procedure β}
    {next : α → Except Failure (Service × β)}
    (h : ∀ a, look s = .ok a → (g a).alone s = outcome s (next a)) :
    (ask look >>= g).alone s = outcome s (look s >>= next) :=
  alone_done_bind h

theorem alone_attempt_bind {x : Service → Except Failure γ} {put : Service → γ → Service × α}
    {g : α → Procedure β} {next : γ → Except Failure (Service × β)}
    (h : ∀ r, x s = .ok r → (g (put s r).2).alone (put s r).1 = outcome s (next r)) :
    (attempt (fun s => (x s).map (put s)) >>= g).alone s = outcome s (x s >>= next) := by
  cases hx : x s with
  | ok r =>
    have hdone : (attempt fun s => (x s).map (put s)).alone s
        = ((put s r).1, .ok (put s r).2) := by
      show outcome s ((x s).map (put s)) = _
      rw [hx]
      rfl
    rw [alone_bind_of_ok hdone]
    exact h r hx
  | error f =>
    refine alone_bind_of_error ?_ g
    show outcome s ((x s).map (put s)) = _
    rw [hx]
    rfl

theorem alone_ignore {r : Except Failure (Service × α)} (h : p.alone s = outcome s r) :
    p.ignore.alone s = outcome s (r.map fun x => (x.1, ())) := by
  cases r with
  | ok x => exact alone_bind_of_ok h _
  | error f => exact alone_bind_of_error h _

end

end Procedure

namespace Service

open Procedure

/-! ## The procedures of members -/

/-- Tells a room who is there, as far as has been seen. -/
def announcing (room : String) : Procedure Unit := do
  let view ← ask fun s => .ok (s.lobby.view room)
  match view with
  | .ok v => perform fun s => s.announce room (.roomUpdate (.of v.room (v.members.map (·.wallet))))
  | .error _ => pure ()

/-- Joins a wallet. -/
def joining (room wallet : String) (password : Option String) : Procedure Lobby.Joined := do
  let e ← ask fun s => s.lobby.openEntry room
  done (Password.check e.room.passwordHash password)
  let j ← attempt fun s =>
    (s.lobby.join room wallet s.now).map fun r => ({ s with lobby := r.1 }, r.2)
  perform fun s => s.saveRoom j.room
  perform fun s => s.saveMember j.member
  performIf j.newly fun s => s.announce room (.memberJoined (.of j.member))
  announcing room
  pure j

/-- Lets a wallet go. -/
def leaving (room wallet : String) : Procedure (Option Member) := do
  let left ← attempt fun s =>
    (s.lobby.leave room wallet s.now).map fun r => ({ s with lobby := r.1 }, r.2)
  match left with
  | none => pure none
  | some m => do
    perform fun s => s.saveMember m
    perform fun s => { s with hub := (s.hub.closeWallet room wallet).1 }
    perform fun s => s.announce room (.memberLeft (.of m))
    announcing room
    pure (some m)

/-- Notes the activity of a wallet, if the room is open. -/
def touching (room wallet : String) (at_ : Instant) : Procedure Unit :=
  attempt fun s => (s.lobby.touch room wallet at_).map fun l => ({ s with lobby := l }, ())

/-- Tells a room what was shared. -/
def telling (room : String) (x : Share) : Procedure Share := do
  perform fun s => s.announce room (.shared x)
  pure x

/-- Notes the activity of one who has shared something, and tells the room. -/
def noting (room wallet : String) (x : Share) : Procedure Share := do
  touching room wallet x.sharedAt
  telling room x

/-- Adds something to what was shared in its room, and goes on from there. -/
def recording (room wallet : String) (x : Share) : Procedure Share := do
  perform fun s => { s with archive := s.archive.addShare x }
  noting room wallet x

/-- Makes what is shared, under a new id, and goes on from there. -/
def preparing (room wallet : String) (q : ShareRequest) : Procedure Share := do
  let x ← attempt fun s =>
    (Share.new s.nextId room wallet q.url q.infoType q.metadata s.now).map fun x =>
      ({ s with drawn := s.drawn + 1 }, x)
  recording room wallet x

/-- Shares something, if the wallet is there. -/
def permitting (room wallet : String) (q : ShareRequest) : Procedure Share := do
  ask fun s =>
    if s.lobby.isActive room wallet then .ok () else .error (Failure.notMember wallet)
  preparing room wallet q

/-- Shares something in a room, if it is open and the wallet is there. -/
def sharing (room wallet : String) (q : ShareRequest) : Procedure Share := do
  let _ ← ask fun s => s.lobby.openEntry room
  permitting room wallet q

/-- Notes that a client is alive, and answers it. -/
def answering (id : ConnectionId) (k : Socket) : Procedure Unit := do
  perform fun s => { s with hub := s.hub.touch id s.now }
  let here ← ask fun s => .ok (s.lobby.isActive k.room k.wallet)
  performIf here fun s =>
    match s.lobby.touch k.room k.wallet s.now with
    | .ok l => { s with lobby := l }
    | .error _ => s
  perform fun s => s.tell id (.pongAt s.now)

/-! ## Procedures that are left alone -/

variable {s : Service} {room wallet : String}

theorem alone_announcing (s : Service) (room : String) :
    (announcing room).alone s = (s.announceUpdate room, .ok ()) := by
  have hview : (announcing room).alone s = Procedure.alone (match s.lobby.view room with
      | .ok v =>
        perform fun s => s.announce room (.roomUpdate (.of v.room (v.members.map (·.wallet))))
      | .error _ => done (.ok ())) s := rfl
  rw [hview]
  unfold announceUpdate
  cases s.lobby.view room with
  | ok v => rfl
  | error f => rfl

theorem alone_joining (s : Service) (room wallet : String) (password : Option String) :
    (joining room wallet password).alone s = outcome s (s.joinRoom room wallet password) := by
  refine alone_ask_bind fun e _ => alone_done_bind fun _ _ => alone_attempt_bind fun r _ => ?_
  exact (alone_bind_of_ok (alone_performIf ..) _).trans (alone_bind_of_ok (alone_announcing ..) _)

theorem alone_leaving (s : Service) (room wallet : String) :
    (leaving room wallet).alone s = outcome s (s.leaveRoom room wallet) := by
  refine alone_attempt_bind fun r _ => ?_
  obtain ⟨l, left⟩ := r
  cases left with
  | none => rfl
  | some m => exact alone_bind_of_ok (alone_announcing ..) _

theorem share_new_eq {id sharer url infoType : String} {metadata : Option Json} {now : Instant}
    {x : Share} (h : Share.new id room sharer url infoType metadata now = .ok x) :
    x.room = room ∧ x.sharedAt = now := by
  unfold Share.new at h
  split at h
  · exact nomatch h
  · obtain rfl := Except.ok.inj h
    exact ⟨rfl, rfl⟩

/-- What is shared is prepared by a look at the room, a look at the member and the share itself. -/
theorem prepareShare_eq (s : Service) (room wallet : String) (q : ShareRequest) :
    s.prepareShare room wallet q = s.lobby.openEntry room >>= fun _ =>
      (if s.lobby.isActive room wallet then .ok () else .error (Failure.notMember wallet)) >>=
        fun _ => Share.new s.nextId room wallet q.url q.infoType q.metadata s.now := by
  unfold prepareShare
  cases he : s.lobby.openEntry room with
  | error f => rfl
  | ok e =>
    have hactive : s.lobby.isActive room wallet = e.isActive wallet :=
      Lobby.isActive_of_get? (Lobby.get?_of_openEntry he)
    show (if e.isActive wallet = true then _ else _) = _
    rw [hactive]
    cases e.isActive wallet <;> rfl

/-- A room that was found open a moment before can be touched, so what was recorded stays. -/
theorem alone_sharing (s : Service) (room wallet : String) (q : ShareRequest) :
    (sharing room wallet q).alone s = outcome s (s.share room wallet q) := by
  have hshare : s.share room wallet q = s.lobby.openEntry room >>= fun _ =>
      (if s.lobby.isActive room wallet then .ok () else .error (Failure.notMember wallet)) >>=
        fun _ => Share.new s.nextId room wallet q.url q.infoType q.metadata s.now >>= fun x =>
          s.lobby.touch room wallet s.now >>= fun l =>
            .ok ({ s.recordShare x with lobby := l }.announce room (.shared x), x) := by
    unfold share
    rw [prepareShare_eq]
    cases s.lobby.openEntry room with
    | error f => rfl
    | ok e =>
      cases s.lobby.isActive room wallet with
      | false => rfl
      | true => rfl
  rw [hshare]
  refine alone_ask_bind fun e he => alone_ask_bind fun _ _ => alone_attempt_bind fun x hx => ?_
  have htouch := Lobby.touch_of_openEntry he wallet s.now
  have htouching : (touching room wallet x.sharedAt).alone (s.recordShare x)
      = ({ s.recordShare x with lobby := s.lobby.update room (e.touch wallet s.now) }, .ok ()) := by
    show outcome _ ((s.lobby.touch room wallet x.sharedAt).map _) = _
    rw [(share_new_eq hx).2, htouch]
    rfl
  rw [htouch]
  exact alone_bind_of_ok htouching _

theorem alone_answering (s : Service) (id : ConnectionId) (k : Socket) :
    (answering id k).alone s = (s.answerPing id k, .ok ()) := by
  refine (alone_bind_of_ok (alone_performIf ..) _).trans ?_
  unfold answerPing
  dsimp only [now]
  cases s.lobby.isActive k.room k.wallet with
  | false => rfl
  | true => cases s.lobby.touch k.room k.wallet _ <;> rfl

end Service

end SwapFloor
