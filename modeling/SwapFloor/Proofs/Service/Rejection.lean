import SwapFloor.Proofs.Fanout.Delivery
import SwapFloor.Proofs.Service.Agreement
import SwapFloor.Proofs.Service.Procedures
import SwapFloor.Proofs.Service.Spacing

/-!
# Text frames that are turned down

What a text frame asks for is done call by call, and it is turned down where one of the calls fails,
after others have been made. Nothing of these is left then: all that happens is that the client
hears of it.

A live connection is always served by a socket of its own room and wallet (`Served`), so this is
what becomes of a text frame on any of them. Main statement: `rejected_of_run`.
-/

namespace SwapFloor

/-- Why a text frame is turned down. -/
inductive Rejection where
  /-- It is no request. -/
  | fault (f : Request.Fault)
  /-- What it asks for has failed. -/
  | failure (f : Failure)

namespace Rejection

def code : Rejection → String
  | fault f => f.code
  | failure f => f.code

def message : Rejection → String
  | fault f => f.message
  | failure f => f.message

/-- The frame that tells of a rejection. -/
def frame (r : Rejection) : Frame := .error r.code r.message

end Rejection

namespace Service

open Procedure

variable {s s' : Service} {room wallet : String} {id : ConnectionId} {k : Socket}

/-! ## Call by call -/

/-- Does what a client asks for. -/
def fulfilling (id : ConnectionId) (k : Socket) : Request → Procedure Unit
  | .join password => (joining k.room k.wallet password).ignore
  | .leave => (leaving k.room k.wallet).ignore
  | .share url infoType metadata => (sharing k.room k.wallet ⟨url, infoType, metadata⟩).ignore
  | .ping => answering id k

/-- Takes in a text frame; gives the service as it is left, and why the frame is turned down. -/
def attend (s : Service) (id : ConnectionId) (k : Socket) (text : String) :
    Service × Option Rejection :=
  match Request.ofText text with
  | .error f => (s, some (.fault f))
  | .ok q =>
    match (fulfilling id k q).alone s with
    | (s, .ok _) => (s, none)
    | (s, .error f) => (s, some (.failure f))

/-- Tells a client why it is turned down, if it is. -/
def respond (s : Service) (id : ConnectionId) : Option Rejection → Service
  | none => s
  | some r => s.tell id r.frame

theorem alone_fulfilling (s : Service) (id : ConnectionId) (k : Socket) (q : Request) :
    (fulfilling id k q).alone s = outcome s ((s.fulfil id k q).map fun s' => (s', ())) := by
  have hmap : ∀ {α : Type} (r : Except Failure (Service × α)),
      (r.map fun x => (x.1, ())) = (r.map Prod.fst).map fun s' => (s', ()) := by
    intro α r
    cases r <;> rfl
  cases q with
  | join password => exact (alone_ignore (alone_joining ..)).trans (congrArg _ (hmap _))
  | leave => exact (alone_ignore (alone_leaving ..)).trans (congrArg _ (hmap _))
  | share url infoType metadata => exact (alone_ignore (alone_sharing ..)).trans (congrArg _ (hmap _))
  | ping => exact alone_answering s id k

/-- What comes of a text frame, without the calls. -/
theorem attend_eq (s : Service) (id : ConnectionId) (k : Socket) (text : String) :
    s.attend id k text = match Request.ofText text with
      | .error f => (s, some (.fault f))
      | .ok q => match s.fulfil id k q with
        | .ok s' => (s', none)
        | .error f => (s, some (.failure f)) := by
  unfold attend
  cases Request.ofText text with
  | error f => rfl
  | ok q =>
    dsimp only
    rw [alone_fulfilling]
    cases s.fulfil id k q <;> rfl

theorem receiveText_eq (s : Service) (id : ConnectionId) (k : Socket) (text : String) :
    s.receiveText id k text = (s.attend id k text).1.respond id (s.attend id k text).2 := by
  rw [attend_eq]
  unfold receiveText
  cases Request.ofText text with
  | error f => rfl
  | ok q =>
    dsimp only
    cases s.fulfil id k q <;> rfl

/-- A frame that is turned down has changed nothing. -/
theorem attend_eq_of_rejected {text : String} {r : Rejection}
    (h : s.attend id k text = (s', some r)) : s' = s := by
  rw [attend_eq] at h
  split at h
  · exact (Prod.mk.inj h).1.symm
  · split at h
    · exact nomatch (Prod.mk.inj h).2
    · exact (Prod.mk.inj h).1.symm

/-! ## Sockets of connections -/

/-- No connection was added, and the sockets are the same. -/
structure Wanes (s s' : Service) : Prop where
  hub : s.hub.Thinned s'.hub
  sockets : s'.sockets = s.sockets

theorem Wanes.trans {s'' : Service} (h : Wanes s s') (h' : Wanes s' s'') : Wanes s s'' :=
  ⟨h.hub.trans h'.hub, h'.sockets.trans h.sockets⟩

theorem announceUpdate_sockets (s : Service) (room : String) :
    (s.announceUpdate room).sockets = s.sockets := by
  unfold announceUpdate
  split <;> rfl

theorem wanes_announceUpdate (s : Service) (room : String) : Wanes s (s.announceUpdate room) :=
  ⟨(calm_announceUpdate s room).hub, announceUpdate_sockets s room⟩

theorem wanes_createRoom {q : RoomRequest} {r : Room} (h : s.createRoom q = .ok (s', r)) :
    Wanes s s' := by
  obtain ⟨_, _, s₁, _, hside, rfl⟩ := createRoom_eq h
  obtain ⟨w, calls, hw⟩ := watchToken_eq s₁ r
  rw [hw]
  exact ⟨hside.hub ▸ .refl _, hside.sockets⟩

theorem wanes_joinRoom {password : Option String} {j : Lobby.Joined}
    (h : s.joinRoom room wallet password = .ok (s', j)) : Wanes s s' := by
  refine ⟨(calm_joinRoom h).2.hub, ?_⟩
  obtain ⟨_, _, _, hside, rfl⟩ := joinRoom_eq h
  rw [announceUpdate_sockets]
  split <;> exact hside.sockets

theorem wanes_leaveRoom {left : Option Member} (h : s.leaveRoom room wallet = .ok (s', left)) :
    Wanes s s' := by
  obtain ⟨l, _, heq⟩ := leaveRoom_eq h
  cases left with
  | none =>
    dsimp only at heq
    rw [heq]
    exact ⟨.refl _, rfl⟩
  | some m =>
    dsimp only at heq
    rw [heq]
    have hclosed : Wanes s { s.saveMember m with
        lobby := l, hub := (s.hub.closeWallet room wallet).1 } :=
      ⟨(Hub.onward_closeWallet (fun _ => True) s.hub room wallet).toThinned, rfl⟩
    have hleft := hclosed.trans ⟨(calm_announce _ room (.memberLeft (.of m))).hub, rfl⟩
    exact hleft.trans (wanes_announceUpdate ..)

theorem wanes_finishRooms (closed : List Room) (s : Service) :
    Wanes s (closed.foldl finishRoom s) := by
  refine ⟨(finished_foldl closed s).hub, ?_⟩
  induction closed generalizing s with
  | nil => rfl
  | cons r closed ih =>
    obtain ⟨_, _, _, hr, _⟩ := finishRoom_eq s r
    rw [List.foldl_cons, ih, hr]

theorem wanes_closeRoom {requester : String} {r : Room}
    (h : s.closeRoom room requester = .ok (s', r)) : Wanes s s' := by
  obtain ⟨l, _, rfl⟩ := closeRoom_eq h
  obtain ⟨hhub, hsockets⟩ := wanes_finishRooms [r] { s with lobby := l }
  exact ⟨hhub, hsockets⟩

theorem wanes_reapRoomsAt {at_ : Instant} {n : Nat} (h : s.reapRoomsAt at_ = (s', .ok n)) :
    Wanes s s' := by
  unfold reapRoomsAt at h
  split at h
  · cases h
  · rename_i l closed _
    cases h
    obtain ⟨hhub, hsockets⟩ := wanes_finishRooms closed { s with lobby := l }
    exact ⟨hhub, hsockets⟩

theorem wanes_share {q : ShareRequest} {x : Share} (h : s.share room wallet q = .ok (s', x)) :
    Wanes s s' := by
  refine ⟨(calm_share h).hub, ?_⟩
  obtain ⟨_, _, rfl⟩ := share_eq h
  rfl

theorem wanes_answerPing (s : Service) (id : ConnectionId) (k : Socket) :
    Wanes s (s.answerPing id k) := by
  refine ⟨(calm_answerPing s id k).hub, ?_⟩
  unfold answerPing
  dsimp only
  split <;> rfl

theorem wanes_tell (s : Service) (id : ConnectionId) (f : Frame) : Wanes s (s.tell id f) :=
  ⟨(calm_tell s id f).hub, rfl⟩

theorem wanes_fulfil {q : Request} (h : s.fulfil id k q = .ok s') : Wanes s s' := by
  cases q with
  | join password =>
    obtain ⟨_, hj⟩ := exists_of_map_fst h
    exact wanes_joinRoom hj
  | leave =>
    obtain ⟨_, hl⟩ := exists_of_map_fst h
    exact wanes_leaveRoom hl
  | share url infoType metadata =>
    obtain ⟨_, hx⟩ := exists_of_map_fst h
    exact wanes_share hx
  | ping =>
    cases h
    exact wanes_answerPing s id k

theorem wanes_receive (s : Service) (id : ConnectionId) (m : Incoming) :
    Wanes s (s.receive id m) := by
  unfold receive
  split
  · exact ⟨.refl _, rfl⟩
  · rename_i k _
    cases m with
    | text t =>
      show Wanes s (s.receiveText id k t)
      unfold receiveText
      split
      · exact wanes_tell ..
      · split
        · rename_i hf
          exact wanes_fulfil hf
        · exact wanes_tell ..
    | binary => exact wanes_tell ..
    | ping => exact ⟨(Hub.onward_touch (fun _ => True) _ _ _).toThinned, rfl⟩
    | close => exact ⟨(Hub.onward_unregister (fun _ => True) _ _).toThinned, rfl⟩

theorem wanes_publishTrade {t : Trade} {trouble : Option Breakdown}
    (h : s.publishTrade room t = (s', trouble)) : Wanes s s' := by
  refine ⟨(calm_publishTrade h).hub, ?_⟩
  obtain ⟨_, _, heq⟩ := publishTrade_eq s room t
  rw [h] at heq
  rw [show s' = _ from heq]

theorem wanes_processTrade {t : Trade} {r : Except Breakdown Outcome}
    (h : s.processTrade t = (s', r)) : Wanes s s' := by
  refine ⟨(calm_processTrade h).hub, ?_⟩
  cases hseen : s.seen.isSeen t.signature s.elapsedMs with
  | true =>
    rw [processTrade_seen hseen] at h
    cases h
    rfl
  | false =>
    rw [processTrade_marked hseen] at h
    obtain ⟨_, _, heq⟩ := publishAll_eq (s.marked t) t (s.watches.roomsWatchingAny t.routingKeys)
    split at h
    · rename_i he
      rw [he] at heq
      cases h
      rw [show s' = _ from heq]
      rfl
    · rename_i s₁ he
      rw [he] at heq
      cases h
      show s₁.sockets = s.sockets
      rw [show s₁ = _ from heq]
      rfl

/-- Every live connection is served by a socket, for the same wallet in the same room. -/
def Served (s : Service) : Prop :=
  ∀ id c, s.hub.get? id = some c → s.sockets.get? id = some ⟨c.room, c.wallet⟩

theorem Served.wanes (hs : s.Served) (hc : s.hub.Coherent) (h : Wanes s s') : s'.Served := by
  intro id c' hg
  obtain ⟨c, hg, hroom, hwallet⟩ := h.hub.live id c' hc hg
  rw [h.sockets, hs id c hg, hroom, hwallet]

theorem Served.withConnection (hs : s.Served) (room wallet : String) :
    (s.withConnection room wallet).Served := by
  intro id c hg
  show (s.sockets.insert (s.hub.lastId + 1) ⟨room, wallet⟩).get? id = _
  rw [Table.get?_insert]
  unfold Service.withConnection at hg
  rw [Hub.get?_register] at hg
  split at hg
  · rename_i hid
    cases hg
    exact if_pos hid
  · rename_i hid
    rw [if_neg hid]
    exact hs id c hg

/-- A connection that ends with its socket leaves all others served. -/
theorem Served.endSocket (hs : s.Served) (id : ConnectionId) : (s.endSocket id).Served := by
  intro id' c hg
  have hlive : (s.hub.unregister id).1.get? id' = some c := hg
  show (s.sockets.erase id).get? id' = _
  rw [Hub.get?_unregister] at hlive
  split at hlive
  · cases hlive
  · rename_i hid
    rw [Table.get?_erase, if_neg hid]
    exact hs id' c hlive

theorem served_openSocket (hs : s.Served) (hc : s.hub.Coherent) (room wallet : String)
    (password : Option String) : (s.openSocket room wallet password).1.Served := by
  have hnew := hs.withConnection room wallet
  have hreg : (s.withConnection room wallet).hub.Coherent := hc.register ..
  obtain ⟨j, hj⟩ | ⟨f, hf⟩ := openSocket_eq s room wallet password
  · exact hnew.wanes hreg (wanes_joinRoom hj)
  · rw [hf]
    have htold := wanes_tell (s.withConnection room wallet) (s.hub.lastId + 1) (.ofFailure f)
    refine hnew.wanes hreg (htold.trans ?_)
    exact ⟨(Hub.onward_closeConnection (fun _ => True) _ _).toThinned, rfl⟩

theorem served_flushSocket (hs : s.Served) (id : ConnectionId) : (s.flushSocket id).1.Served := by
  unfold flushSocket
  split
  · exact hs
  · have hdrained : ({ s with hub := s.hub.onOutbox id .drain } : Service).Served := hs
    dsimp only
    split
    · exact hdrained.endSocket id
    · exact hdrained

theorem served_errand (hs : s.Served) (hc : s.hub.Coherent) (h : Errand s s') : s'.Served := by
  cases h with
  | create h => exact hs.wanes hc (wanes_createRoom h)
  | join h => exact hs.wanes hc (wanes_joinRoom h)
  | leave h => exact hs.wanes hc (wanes_leaveRoom h)
  | close h => exact hs.wanes hc (wanes_closeRoom h)
  | share h => exact hs.wanes hc (wanes_share h)
  | reap h => exact hs.wanes hc (wanes_reapRoomsAt h)
  | connect h => exact served_openSocket hs hc _ _ _
  | receive id m => exact hs.wanes hc (wanes_receive s id m)
  | flush id => exact served_flushSocket hs id
  | send id n => exact hs
  | abandon id => exact hs
  | disconnect id => exact hs.endSocket id
  | prune maxIdleMs at_ =>
    exact hs.wanes hc ⟨(Hub.onward_prune (fun _ => True) ..).toThinned, rfl⟩
  | aside h => exact hs.wanes hc ⟨h.hub ▸ .refl _, h.sockets⟩
  | _ => exact hs.wanes hc ⟨.refl _, rfl⟩

theorem served_step (hs : s.Served) (hc : s.hub.Coherent) (h : Step s s') : s'.Served := by
  cases h with
  | errand h => exact served_errand hs hc h
  | publish h => exact hs.wanes hc (wanes_publishTrade h)
  | process h => exact hs.wanes hc (wanes_processTrade h)

theorem served_run (hsound : s.Sound) (hs : s.Served) (h : Run s s') : s'.Served := by
  induction h with
  | refl => exact hs
  | tail h hstep ih => exact served_step ih (sound_run hsound h).hub hstep

/-! ## In every state that the service gets to -/

/-- A connection was told something, and that is all: the frame waits last of all for it, unless
nothing more could wait and it was removed. -/
structure OnlyTold (s s' : Service) (c : Connection) (f : Frame) : Prop where
  rest : s' = { s with hub := s'.hub }
  told : s.hub.Offered s'.hub f c
  untold : ∀ id, id ≠ c.id → s.hub.Untouched s'.hub id

theorem onlyTold_tell (hc : s.hub.Coherent) {c : Connection} (hg : s.hub.get? c.id = some c)
    (f : Frame) : OnlyTold s (s.tell c.id f) c f :=
  ⟨rfl, Hub.offered_send hc f hg, fun _ hid => Hub.send_elsewhere hc f hid⟩

/-- Take any text frame on any live connection. What the frame asks for is done in the room and for
the wallet of the connection, and then the client is told if that was turned down. If it was,
nothing has been done, and all that comes of it is that this connection is told the code and the
text of the rejection, in one frame, or removed if it cannot take the frame. -/
theorem rejected_of_run (settings : Settings) {draws : Draws} (hd : Function.Injective draws.id)
    (looksUp : Bool) (startedAt : Instant) (h : Run (new settings draws looksUp startedAt) s)
    {c : Connection} (hg : s.hub.get? id = some c) (text : String) :
    ∃ k, s.sockets.get? id = some k ∧ k.room = c.room ∧ k.wallet = c.wallet ∧
      s.receive id (.text text) = (s.attend id k text).1.respond id (s.attend id k text).2 ∧
      ∀ s' r, s.attend id k text = (s', some r) →
        s' = s ∧ OnlyTold s (s.receive id (.text text)) c (.error r.code r.message) := by
  have hsound := sound_new settings hd looksUp startedAt
  have hhub := (sound_run hsound h).hub
  have hserved : s.Served := served_run hsound (fun _ _ hg => nomatch hg) h
  have hk := hserved id c hg
  have hreceive : s.receive id (.text text) = s.receiveText id ⟨c.room, c.wallet⟩ text := by
    unfold receive
    rw [hk]
  refine ⟨_, hk, rfl, rfl, hreceive.trans (receiveText_eq ..), fun s' r hr => ?_⟩
  have hsame := attend_eq_of_rejected hr
  refine ⟨hsame, ?_⟩
  obtain ⟨_, rfl⟩ := hhub.get?_rooms hg
  rw [hreceive, receiveText_eq, hr, hsame]
  exact onlyTold_tell hhub hg _

/-- Bo shares something without an address. -/
def smallBlankShare : String :=
  "\x7b\"type\":\"share_info\",\"data\":\x7b\"url\":\" \"\x7d\x7d"

/-- It is turned down when he has been found to be there, and he hears of it. -/
theorem rejected_small : ∃ c k r, smallWithSocket.hub.get? 1 = some c ∧
    smallWithSocket.sockets.get? 1 = some k ∧ k.wallet = "bo" ∧
    smallWithSocket.attend 1 k smallBlankShare = (smallWithSocket, some r) ∧
    OnlyTold smallWithSocket (smallWithSocket.receive 1 (.text smallBlankShare)) c
      (.ofFailure .blankUrl) ∧
    (smallWithSocket.hub.outbox? 1).map (·.refusal?) = some none := by
  have hlive : (smallWithSocket.hub.get? 1).map (fun c => (c.room, c.wallet)) = some ("r", "bo") := by
    decide +kernel
  have hturned : (smallWithSocket.attend 1 ⟨"r", "bo"⟩ smallBlankShare).2.map
      (fun r => (r.code, r.message)) = some (Failure.blankUrl.code, Failure.blankUrl.message) := by
    rw [attend_eq]
    decide +kernel
  obtain ⟨c, hg, hc⟩ := Option.map_eq_some_iff.1 hlive
  rcases hattend : smallWithSocket.attend 1 ⟨"r", "bo"⟩ smallBlankShare with ⟨s', turned⟩
  rw [hattend] at hturned
  obtain ⟨r, hr, htext⟩ := Option.map_eq_some_iff.1 hturned
  obtain rfl : turned = some r := hr
  obtain ⟨⟨room, wallet⟩, hk, hroom, hwallet, -, hall⟩ := rejected_of_run {} growingIds_injective
    true ⟨0, false⟩ run_smallWithSocket hg smallBlankShare
  obtain ⟨rfl, rfl⟩ : room = "r" ∧ wallet = "bo" :=
    ⟨hroom.trans (Prod.mk.inj hc).1, hwallet.trans (Prod.mk.inj hc).2⟩
  obtain ⟨rfl, honly⟩ := hall s' r hattend
  rw [(Prod.mk.inj htext).1, (Prod.mk.inj htext).2] at honly
  exact ⟨c, _, r, hg, hk, rfl, hattend, honly, by decide +kernel⟩

end Service

end SwapFloor
