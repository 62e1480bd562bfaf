import SwapFloor.Fanout.Hub
import SwapFloor.Room.Lobby

/-!
# Broadcasts

A frame for a room goes to every connection of the room, as long as the room is open. A
connection that cannot take it is removed and does not keep the others from getting it.
-/

namespace SwapFloor.Broadcast

/-- Nobody is connected to the room. -/
def nobody (room : String) : Failure := ⟨.notFound, s!"룸에 연결된 수신자가 없습니다: {room}"⟩

/-- Delivers a frame to all connections of an open room. -/
def toRoom (lobby : Lobby) (hub : Hub) (requireRecipients : Bool) (room : String) (f : Frame) :
    Hub × Except Failure Hub.Report :=
  match lobby.openEntry room with
  | .error e => (hub, .error e)
  | .ok _ =>
    let recipients := (hub.connections room).map (·.id)
    if recipients.isEmpty ∧ requireRecipients then (hub, .error (nobody room))
    else
      let (hub, report) := hub.fanOut recipients f
      (hub, .ok report)

end SwapFloor.Broadcast
