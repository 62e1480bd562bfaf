import SwapFloor.Fanout.Frame
import SwapFloor.Table

/-!
# Connections

The hub knows every live connection: by room, and for each connection its room. A connection
reads from an outbox of bounded size. Removing a connection tells it to stop, either by a last
item in its outbox or by cancelling it; the outbox itself stays for its reader to empty.

Main statements: what each operation does to the two indexes and to the outboxes.
-/

namespace SwapFloor

/-- The number of a connection. -/
abbrev ConnectionId := Nat

/-- A live connection. -/
structure Connection where
  id : ConnectionId
  room : String
  wallet : String
  connectedAt : Instant
  /-- Milliseconds since the start of 1970. -/
  lastPing : Int64
  deriving DecidableEq

namespace Connection

/-- A connection as clients see it. -/
def toJson (c : Connection) : Json :=
  .obj [("connectedAt", Json.ofInstant c.connectedAt), ("connectionId", .nat c.id),
    ("lastPing", Json.ofInstant (Instant.ofMillis c.lastPing.toInt)), ("wallet", .str c.wallet)]

end Connection

/-- What waits in an outbox. -/
inductive Outgoing where
  | frame (f : Frame)
  /-- The connection ends after what came before. -/
  | close

/-- The queue from which a connection is served. -/
structure Outbox where
  capacity : Nat
  waiting : List Outgoing
  /-- Nobody reads any more. -/
  abandoned : Bool
  /-- The connection was told to stop at once. -/
  cancelled : Bool

namespace Outbox

/-- An empty outbox. -/
def new (capacity : Nat) : Outbox := ⟨capacity, [], false, false⟩

/-- Why nothing can be put into an outbox. -/
inductive Refusal where
  | full
  | abandoned
  deriving DecidableEq

/-- The reason for a refusal in words. -/
def Refusal.text : Refusal → String
  | .full => "send queue full"
  | .abandoned => "connection closed"

/-- What keeps an outbox from taking an item. -/
def refusal? (o : Outbox) : Option Refusal :=
  if o.abandoned then some .abandoned
  else if o.capacity ≤ o.waiting.length then some .full
  else none

/-- Puts an item at the end. -/
def push (o : Outbox) (item : Outgoing) : Outbox := { o with waiting := o.waiting ++ [item] }

/-- Tells the connection to stop at once. -/
def cancel (o : Outbox) : Outbox := { o with cancelled := true }

/-- Ends the connection after what is waiting, or at once if there is no room for that. -/
def close (o : Outbox) : Outbox :=
  match o.refusal? with
  | none => o.push .close
  | some _ => o.cancel

/-- Takes the first items out. -/
def take (o : Outbox) (n : Nat) : Outbox := { o with waiting := o.waiting.drop n }

/-- Takes everything out. -/
def drain (o : Outbox) : Outbox := { o with waiting := [] }

/-- Nobody reads any more, and what was waiting is lost. -/
def abandon (o : Outbox) : Outbox := { o with waiting := [], abandoned := true }

end Outbox

/-- The live connections and all outboxes. -/
structure Hub where
  /-- The connections of each room that has any. -/
  buckets : Table String (Table ConnectionId Connection)
  /-- The room of each live connection. -/
  rooms : Table ConnectionId String
  /-- The outboxes of all connections, live or removed. -/
  outboxes : Table ConnectionId Outbox
  /-- The last number given to a connection. -/
  lastId : Nat
  /-- How many frames could not be delivered. -/
  failures : Nat

namespace Hub

def empty : Hub := ⟨.empty, .empty, .empty, 0, 0⟩

def bucket (h : Hub) (room : String) : Table ConnectionId Connection :=
  (h.buckets.get? room).getD .empty

/-- Adds a connection with an outbox of its own. -/
def register (h : Hub) (room wallet : String) (capacity : Nat) (now : Instant) :
    Hub × Connection :=
  let id := h.lastId + 1
  let c : Connection := ⟨id, room, wallet, now, Int64.ofInt now.millis⟩
  ({ h with
      lastId := id
      rooms := h.rooms.insert id room
      buckets := h.buckets.insert room ((h.bucket room).insert id c)
      outboxes := h.outboxes.insert id (.new capacity) }, c)

/-- Removes a connection without telling it. -/
def detach (h : Hub) (id : ConnectionId) : Hub × Option Connection :=
  match h.rooms.get? id with
  | none => (h, none)
  | some room =>
    let rest := (h.bucket room).erase id
    ({ h with
        rooms := h.rooms.erase id
        buckets := if rest.isEmpty then h.buckets.erase room else h.buckets.insert room rest },
      (h.bucket room).get? id)

/-- Changes the outbox of a connection. -/
def onOutbox (h : Hub) (id : ConnectionId) (f : Outbox → Outbox) : Hub :=
  { h with outboxes := h.outboxes.modify id f }

/-- Removes a connection and cancels it. -/
def unregister (h : Hub) (id : ConnectionId) : Hub × Option Connection :=
  match h.detach id with
  | (h, some c) => (h.onOutbox id .cancel, some c)
  | (h, none) => (h, none)

/-- Removes a connection that ends after what is waiting for it, and tells whether there was
one. -/
def closeConnection (h : Hub) (id : ConnectionId) : Hub × Bool :=
  match h.detach id with
  | (h, some _) => (h.onOutbox id .close, true)
  | (h, none) => (h, false)

/-- Removes the connections of a room and ends them after what is waiting; gives their number. -/
def closeRoom (h : Hub) (room : String) : Hub × Nat :=
  let ids := (h.bucket room).keys
  ({ h with
      buckets := h.buckets.erase room
      rooms := h.rooms.filter fun id _ => !ids.contains id
      outboxes := h.outboxes.map fun id o => if ids.contains id then o.close else o }, ids.length)

/-- Lower numbers first. -/
def byId (a b : Connection) : Bool := a.id ≤ b.id

/-- The connections of a room by number. -/
def connections (h : Hub) (room : String) : List Connection :=
  (h.bucket room).values.mergeSort byId

/-- Ends the connections of a wallet in a room; gives their number. -/
def closeWallet (h : Hub) (room wallet : String) : Hub × Nat :=
  ((h.bucket room).values.filter (·.wallet == wallet)).foldl
    (fun (h, n) c =>
      let (h, closed) := h.closeConnection c.id
      (h, if closed then n + 1 else n)) (h, 0)

/-- A live connection. -/
def get? (h : Hub) (id : ConnectionId) : Option Connection :=
  (h.rooms.get? id).bind fun room => (h.bucket room).get? id

/-- Notes a ping. -/
def touch (h : Hub) (id : ConnectionId) (now : Instant) : Hub :=
  match h.get? id with
  | none => h
  | some c =>
    { h with buckets := h.buckets.modify c.room fun b =>
        b.modify id fun c => { c with lastPing := Int64.ofInt now.millis } }

/-- All live connections. -/
def all (h : Hub) : List Connection := h.buckets.values.flatMap (·.values)

/-- The time, in 64-bit milliseconds, before which a last ping is too long ago. -/
def pingLimit (maxIdleMs : Nat) (now : Instant) : Int64 :=
  Int64.ofInt now.millis - Int64.ofNat maxIdleMs

/-- Removes and cancels the connections whose last ping is too long ago; gives them. -/
def prune (h : Hub) (maxIdleMs : Nat) (now : Instant) : Hub × List Connection :=
  (h.all.filter fun c => c.lastPing < pingLimit maxIdleMs now).foldl
    (fun (h, removed) c =>
      match h.unregister c.id with
      | (h, some c) => (h, removed ++ [c])
      | (h, none) => (h, removed)) (h, [])

/-- The number of connections of a room. -/
def count (h : Hub) (room : String) : Nat := (h.bucket room).size

/-- The number of live connections. -/
def total (h : Hub) : Nat := h.rooms.size

/-- The outbox of a connection, live or removed. -/
def outbox? (h : Hub) (id : ConnectionId) : Option Outbox := h.outboxes.get? id

/-! ## Delivery -/

/-- A frame that could not be delivered. -/
def undelivered (id : ConnectionId) (r : Outbox.Refusal) : Failure :=
  ⟨.transport, s!"연결 {Text.natText id} 전달 실패: {r.text}"⟩

/-- Puts a frame into an outbox; a connection that cannot take it is removed. -/
def deliver (h : Hub) (id : ConnectionId) (f : Frame) : Hub × Option Failure :=
  match (h.outbox? id).bind Outbox.refusal? with
  | none => (h.onOutbox id fun o => o.push (.frame f), none)
  | some r => (({ h with failures := h.failures + 1 }.unregister id).1, some (undelivered id r))

/-- How many connections got a frame and how many were removed. -/
structure Report where
  delivered : Nat
  failed : Nat
  deriving DecidableEq

/-- Delivers a frame to several connections. -/
def fanOut (h : Hub) (ids : List ConnectionId) (f : Frame) : Hub × Report :=
  ids.foldl (fun (h, r) id =>
    match h.deliver id f with
    | (h, none) => (h, { r with delivered := r.delivered + 1 })
    | (h, some _) => (h, { r with failed := r.failed + 1 })) (h, ⟨0, 0⟩)

/-- No connection has this number. -/
def notConnected (id : ConnectionId) : Failure :=
  ⟨.notFound, s!"연결을 찾을 수 없습니다: {Text.natText id}"⟩

/-- Delivers a frame to one live connection. -/
def send (h : Hub) (id : ConnectionId) (f : Frame) : Hub × Option Failure :=
  match h.get? id with
  | none => (h, some (notConnected id))
  | some c => h.deliver c.id f

/-- Delivers a last frame to the connections of a room and ends them; gives the number that
were ended. -/
def closeRoomWith (h : Hub) (room : String) (f : Frame) : Hub × Nat :=
  ((h.fanOut ((h.connections room).map (·.id)) f).1).closeRoom room

/-! ## Small lemmas -/

theorem get?_detach_rooms (h : Hub) (id id' : ConnectionId) :
    (h.detach id).1.rooms.get? id' = if id' = id then none else h.rooms.get? id' := by
  unfold detach
  split
  · rename_i hn
    split
    · rename_i he
      rw [he, hn]
    · rfl
  · exact Table.get?_erase ..

@[simp] theorem detach_outboxes (h : Hub) (id : ConnectionId) :
    (h.detach id).1.outboxes = h.outboxes := by
  unfold detach
  split <;> rfl

@[simp] theorem detach_lastId (h : Hub) (id : ConnectionId) :
    (h.detach id).1.lastId = h.lastId := by
  unfold detach
  split <;> rfl

end Hub

end SwapFloor
