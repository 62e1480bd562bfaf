import SwapFloor.Room.Basic
import SwapFloor.Share
import SwapFloor.Trade

/-!
# Frames

What the service tells its clients. Every frame is an envelope of a type and data.
-/

namespace SwapFloor

namespace Frame

/-- A member came or went. -/
structure Presence where
  room : String
  wallet : String
  at_ : Instant
  deriving DecidableEq

/-- The presence of a member: when it left, or else when it was last active. -/
def Presence.of (m : Member) : Presence := ⟨m.room, m.wallet, m.leaveTime.getD m.lastActive⟩

/-- The state of a room as its members see it. -/
structure RoomUpdate where
  room : String
  status : Status
  token : Option String
  active : List String
  lastActive : Instant
  deriving DecidableEq

/-- The state of a room with these active wallets. -/
def RoomUpdate.of (r : Room) (active : List String) : RoomUpdate :=
  ⟨r.id, r.status, r.token, active, r.lastActive⟩

end Frame

open SwapFloor.Frame in
/-- A frame from the service to a client. -/
inductive Frame where
  | memberJoined (p : Presence)
  | memberLeft (p : Presence)
  | shared (s : Share)
  | trade (t : Trade)
  | roomUpdate (u : RoomUpdate)
  /-- The answer to a ping, with the time in milliseconds. -/
  | pong (timestamp : Int)
  | error (code message : String)

namespace Frame

/-- The type of a frame. -/
def kind : Frame → String
  | .memberJoined _ => "member_joined"
  | .memberLeft _ => "member_left"
  | .shared _ => "shared_info"
  | .trade _ => "trade_event"
  | .roomUpdate _ => "room_update"
  | .pong _ => "pong"
  | .error _ _ => "error"

def Presence.toJson (p : Presence) : Json :=
  .obj [("at", Json.ofInstant p.at_), ("roomId", .str p.room), ("walletAddress", .str p.wallet)]

/-- The state of a room as JSON. -/
def RoomUpdate.toJson (u : RoomUpdate) : Json :=
  .obj [("activeMembers", .arr (u.active.map .str)),
    ("lastActiveTime", Json.ofInstant u.lastActive), ("roomId", .str u.room),
    ("status", .str u.status.name), ("tokenAddress", Json.optStr u.token)]

def data : Frame → Json
  | .memberJoined p => p.toJson
  | .memberLeft p => p.toJson
  | .shared s => s.toJson
  | .trade t => t.toJson
  | .roomUpdate u => u.toJson
  | .pong timestamp => .obj [("timestamp", .int timestamp)]
  | .error code message => .obj [("code", .str code), ("message", .str message)]

def toJson (f : Frame) : Json := .obj [("data", f.data), ("type", .str f.kind)]

/-- The frame that tells of a failure. -/
def ofFailure (f : Failure) : Frame := .error f.code f.message

/-- The answer to a ping. -/
def pongAt (now : Instant) : Frame := .pong now.millis

end Frame

end SwapFloor
