import SwapFloor.Fanout.Request
import SwapFloor.Service.Rooms

/-!
# Sockets

A socket serves one connection of one wallet in one room. Opening it registers the connection and
lets the wallet in; a wallet that is not let in is told why, and the socket ends. What a client
asks for and does not get is answered to that client alone. A socket ends when the client closes
it, when the end of its connection has been reached in the outbox, or when the connection is told
to stop at once. The wallet stays a member of the room.
-/

namespace SwapFloor

/-- What comes in over a socket. -/
inductive Incoming where
  | text (s : String)
  | binary
  | ping
  | close

namespace Service

/-- The number of open sockets among the metrics. -/
abbrev socketGauge : String := "websocket_connections_active"

/-- Opens a socket and lets its wallet into the room. -/
def openSocket (s : Service) (room wallet : String) (password : Option String) :
    Service × ConnectionId :=
  let (hub, c) := s.hub.register room wallet s.settings.sockets.outboundBuffer s.now
  let s := { s with hub := hub, sockets := s.sockets.insert c.id ⟨room, wallet⟩ }
  let s := s.count socketGauge [] 1
  match s.joinRoom room wallet password with
  | .ok (s, _) => (s, c.id)
  | .error f =>
    let s := s.tell c.id (.ofFailure f)
    ({ s with hub := (s.hub.closeConnection c.id).1 }, c.id)

def endSocket (s : Service) (id : ConnectionId) : Service :=
  let s := { s with hub := (s.hub.unregister id).1, sockets := s.sockets.erase id }
  s.count socketGauge [] (-1)

/-! ## What comes in -/

/-- Notes that a client is alive, and answers it. -/
def answerPing (s : Service) (id : ConnectionId) (k : Socket) : Service :=
  let s := { s with hub := s.hub.touch id s.now }
  let s := match s.lobby.isActive k.room k.wallet, s.lobby.touch k.room k.wallet s.now with
    | true, .ok lobby => { s with lobby := lobby }
    | _, _ => s
  s.tell id (.pongAt s.now)

/-- Does what a client asks for. -/
def fulfil (s : Service) (id : ConnectionId) (k : Socket) : Request → Except Failure Service
  | .join password => (s.joinRoom k.room k.wallet password).map Prod.fst
  | .leave => (s.leaveRoom k.room k.wallet).map Prod.fst
  | .share url infoType metadata =>
    (s.share k.room k.wallet ⟨url, infoType, metadata⟩).map Prod.fst
  | .ping => .ok (s.answerPing id k)

/-- Takes in a text frame. -/
def receiveText (s : Service) (id : ConnectionId) (k : Socket) (text : String) : Service :=
  match Request.ofText text with
  | .error f => s.tell id f.frame
  | .ok q =>
    match s.fulfil id k q with
    | .ok s => s
    | .error f => s.tell id (.ofFailure f)

/-- Takes in what a client sends over an open socket. A close tells the connection to stop. -/
def receive (s : Service) (id : ConnectionId) (m : Incoming) : Service :=
  match s.sockets.get? id with
  | none => s
  | some k =>
    match m with
    | .text t => s.receiveText id k t
    | .binary => s.tell id Request.binaryFrame
    | .ping => { s with hub := s.hub.touch id s.now }
    | .close => { s with hub := (s.hub.unregister id).1 }

/-! ## What goes out -/

/-- The frames in front of the first close, and whether there is one. -/
def framesToSend : List Outgoing → List Frame × Bool
  | [] => ([], false)
  | .close :: _ => ([], true)
  | .frame f :: rest =>
    let (fs, closed) := framesToSend rest
    (f :: fs, closed)

/-- What a socket sends. -/
structure Sent where
  id : ConnectionId
  frames : List Frame
  /-- The socket ends after these frames. -/
  ends : Bool

/-- Sends what waits for one socket. -/
def flushSocket (s : Service) (id : ConnectionId) : Service × Sent :=
  match s.hub.outbox? id with
  | none => (s, ⟨id, [], false⟩)
  | some o =>
    let (frames, closed) := framesToSend o.waiting
    let ends := closed || o.cancelled
    let s := { s with hub := s.hub.onOutbox id .drain }
    (if ends then s.endSocket id else s, ⟨id, frames, ends⟩)

/-- Sends what waits for several sockets. -/
def flushAll (s : Service) : List ConnectionId → Service × List Sent
  | [] => (s, [])
  | id :: rest =>
    let (s, sent) := s.flushSocket id
    let (s, more) := s.flushAll rest
    (s, sent :: more)

/-- Sends what waits for any socket. -/
def flush (s : Service) : Service × List Sent := s.flushAll s.sockets.keys

/-! ## Small lemmas -/

theorem receive_of_no_socket {s : Service} {id : ConnectionId} (h : s.sockets.get? id = none)
    (m : Incoming) : s.receive id m = s := by
  simp [receive, h]

/-- A frame that is no request changes nothing but what waits for its sender. -/
theorem receiveText_fault {s : Service} {id : ConnectionId} {k : Socket} {text : String}
    {f : Request.Fault} (h : Request.ofText text = .error f) :
    s.receiveText id k text = s.tell id f.frame := by
  simp [receiveText, h]

end Service

end SwapFloor
