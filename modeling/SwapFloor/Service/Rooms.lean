import SwapFloor.Room.Password
import SwapFloor.Service.Basic

/-!
# What members do

Every operation changes the lobby first and then follows it up: what has changed is saved, the
token of a room is watched as long as the room is open, and those who are connected are told. An
operation that fails changes nothing.
-/

namespace SwapFloor

/-- What a new room is asked to be. -/
structure RoomRequest where
  creator : String
  token : Option String := none
  recycleHours : Option Int64 := none
  password : Option String := none

/-- What someone wants to share. -/
structure ShareRequest where
  url : String
  infoType : String := ""
  metadata : Option Json := none

/-- A room as its visitors see it. -/
structure RoomSnapshot where
  view : Lobby.View
  token : Option Token
  connections : Nat

/-- A room as its visitors see it as JSON. -/
def RoomSnapshot.toJson (s : RoomSnapshot) : Json :=
  .obj [("connectionCount", .nat s.connections), ("members", .arr (s.view.members.map (·.toJson))),
    ("room", s.view.room.toJson), ("stats", s.view.stats.toJson),
    ("token", Json.ofOption (·.toJson) s.token)]

namespace Service

/-! ## Following up -/

/-- Saves a room. -/
def saveRoom (s : Service) (r : Room) : Service := { s with archive := s.archive.saveRoom r }

/-- Saves a member. -/
def saveMember (s : Service) (m : Member) : Service := { s with archive := s.archive.saveMember m }

def watchToken (s : Service) (r : Room) : Service :=
  match r.token with
  | some token => s.watching fun w => w.acquire token (some r.id) s.elapsedMs
  | none => s

/-- Watches the token of a room no longer. -/
def unwatchToken (s : Service) (r : Room) : Service :=
  match r.token with
  | some token => s.watching fun w => w.release token (some r.id)
  | none => s

/-- Tells a room who is there. -/
def announceUpdate (s : Service) (room : String) : Service :=
  match s.lobby.view room with
  | .ok v => s.announce room (.roomUpdate (.of v.room (v.members.map (·.wallet))))
  | .error _ => s

/-- Ends what goes on in a room that has been closed. -/
def finishRoom (s : Service) (r : Room) : Service :=
  let s := s.saveRoom r
  let s := { s with hub := (s.hub.closeRoomWith r.id (.roomUpdate (.of r []))).1 }
  s.unwatchToken r

/-! ## Operations -/

/-- Opens a room. -/
def createRoom (s : Service) (q : RoomRequest) : Except Failure (Service × Room) := do
  let hash ← Password.prepare (s.draws.salt s.drawn) q.password
  let (lobby, room) ← s.lobby.create s.nextId ⟨q.creator, q.token, q.recycleHours, hash⟩ s.now
  let s := { s with lobby := lobby, drawn := s.drawn + 1 }.saveRoom room
  let s := match s.lobby.view room.id with
    | .ok v => v.members.foldl saveMember s
    | .error _ => s
  .ok (s.watchToken room, room)

/-- Lets a wallet into a room whose password it knows. -/
def joinRoom (s : Service) (room wallet : String) (password : Option String) :
    Except Failure (Service × Lobby.Joined) := do
  let e ← s.lobby.openEntry room
  Password.check e.room.passwordHash password
  let (lobby, joined) ← s.lobby.join room wallet s.now
  let s := ({ s with lobby := lobby }.saveRoom joined.room).saveMember joined.member
  let s := if joined.newly then s.announce room (.memberJoined (.of joined.member)) else s
  .ok (s.announceUpdate room, joined)

/-- Lets a wallet go, and its connections with it; gives the member only if it was there. -/
def leaveRoom (s : Service) (room wallet : String) : Except Failure (Service × Option Member) := do
  let (lobby, left) ← s.lobby.leave room wallet s.now
  let s := { s with lobby := lobby }
  match left with
  | none => .ok (s, none)
  | some m =>
    let s := s.saveMember m
    let s := { s with hub := (s.hub.closeWallet room wallet).1 }
    .ok ((s.announce room (.memberLeft (.of m))).announceUpdate room, some m)

/-- Closes a room for its creator. -/
def closeRoom (s : Service) (room requester : String) : Except Failure (Service × Room) := do
  let (lobby, closed) ← s.lobby.close room requester s.now
  .ok ({ s with lobby := lobby }.finishRoom closed, closed)

/-- Recycles the rooms that nobody uses at a time; gives how many were closed. A breakdown comes
with the service that it leaves behind. -/
def reapRoomsAt (s : Service) (at_ : Instant) : Service × Except Breakdown Nat :=
  match s.lobby.reap at_ with
  | (lobby, .error b) => ({ s with lobby := lobby }, .error b)
  | (lobby, .ok closed) =>
    let s := closed.foldl finishRoom { s with lobby := lobby }
    (s.count "rooms_reaped_total" [] closed.length, .ok closed.length)

/-- Recycles the rooms that nobody uses at present. -/
def reapRooms (s : Service) : Service × Except Breakdown Nat := s.reapRoomsAt s.now

/-- Lets a member share something under a new id, without telling anyone yet. -/
def prepareShare (s : Service) (room wallet : String) (q : ShareRequest) : Except Failure Share := do
  let e ← s.lobby.openEntry room
  if e.isActive wallet then Share.new s.nextId room wallet q.url q.infoType q.metadata s.now
  else .error (Failure.notMember wallet)

/-- Adds something to what was shared in its room. -/
def recordShare (s : Service) (share : Share) : Service :=
  { s with archive := s.archive.addShare share, drawn := s.drawn + 1 }

def share (s : Service) (room wallet : String) (q : ShareRequest) :
    Except Failure (Service × Share) := do
  let share ← s.prepareShare room wallet q
  let s := s.recordShare share
  let lobby ← s.lobby.touch room wallet s.now
  .ok ({ s with lobby := lobby }.announce room (.shared share), share)

/-- The last things that were shared in a room. -/
def sharesOf (s : Service) (room : String) (limit : Nat) : Except Failure (List Share) := do
  let _ ← s.lobby.entry room
  .ok (s.archive.lastShares room limit)

/-- A room as its visitors see it. -/
def snapshot (s : Service) (room : String) : Except Failure RoomSnapshot := do
  let v ← s.lobby.view room
  .ok ⟨v, v.room.token.bind s.archive.tokenOfMint?, s.hub.count room⟩

/-- Counts a trade for an open room and tells it; a room that is not open is passed over. A
breakdown comes with the service that it leaves behind. -/
def publishTrade (s : Service) (room : String) (t : Trade) : Service × Option Breakdown :=
  match s.lobby.recordTrade room t with
  | .error _ => (s, none)
  | .ok (lobby, some b) => ({ s with lobby := lobby }, some b)
  | .ok (lobby, none) => ({ s with lobby := lobby }.announce room (.trade t), none)

end Service

end SwapFloor
