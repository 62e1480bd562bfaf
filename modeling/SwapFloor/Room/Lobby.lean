import SwapFloor.Room.Basic
import SwapFloor.Room.Stats
import SwapFloor.Text.Blank

/-!
# The lobby

All rooms with their members and counts. Operations take the time at which they happen. Main
statements: what every operation does to the entry of its own room, and that it leaves all other
entries as they were (`get?_update`).

Recycling looks at the rooms in the order in which they were created. A room whose hours span no
time breaks it off; what was recycled before that room stays so.
-/

namespace SwapFloor

namespace Lobby

/-- A room with its members and counts. -/
structure Entry where
  room : Room
  /-- Members, present and past, by wallet. -/
  members : Table String Member
  stats : RoomStats

namespace Entry

/-- Earlier joined first, then by wallet. -/
def joinedFirst (a b : Member) : Bool :=
  if a.joinTime.nanos = b.joinTime.nanos then a.wallet ≤ b.wallet
  else a.joinTime.nanos < b.joinTime.nanos

/-- The members that are there, first joined first. -/
def activeMembers (e : Entry) : List Member :=
  (e.members.values.filter (·.active)).mergeSort joinedFirst

/-- The wallet belongs to a member that is there. -/
def isActive (e : Entry) (wallet : String) : Bool :=
  match e.members.get? wallet with
  | some m => m.active
  | none => false

/-- Lets a wallet in, and tells whether it was away. -/
def join (e : Entry) (wallet : String) (now : Instant) : Entry × Member × Bool :=
  let (m, newly) := match e.members.get? wallet with
    | some m => m.reactivate now
    | none => (Member.new e.room.id wallet now, true)
  ({ e with
      members := e.members.insert wallet m
      room := (e.room.addWallet wallet).touch now }, m, newly)

/-- Lets a wallet go; nobody left if it was not there. -/
def leave (e : Entry) (wallet : String) (now : Instant) : Entry × Option Member :=
  match e.members.get? wallet with
  | none => (e, none)
  | some m =>
    match m.deactivate now with
    | (m, true) =>
      ({ e with members := e.members.insert wallet m, room := e.room.touch now }, some m)
    | (_, false) => (e, none)

/-- Closes the room and lets everyone go. -/
def close (e : Entry) (now : Instant) : Except Failure Entry :=
  (e.room.close now).map fun r =>
    { e with room := r, members := e.members.map fun _ m => (m.deactivate now).1 }

/-- Notes the activity of a wallet, and of the room. -/
def touch (e : Entry) (wallet : String) (now : Instant) : Entry :=
  { e with
    members := e.members.modify wallet fun m => if m.active then { m with lastActive := now } else m
    room := e.room.touch now }

/-- Counts a trade. A breakdown comes with the counts that it leaves behind. -/
def count (e : Entry) (t : Trade) (quoteMint : String) : Entry × Option Breakdown :=
  let (stats, trouble) := e.stats.apply t quoteMint (e.isActive t.signer)
  ({ e with stats := stats }, trouble)

/-- An open room that has been inactive for longer than its hours. -/
def isDue (e : Entry) (now : Instant) : Bool :=
  e.room.status == .open &&
    match e.room.isExpired now with
    | .ok b => b
    | .error _ => false

/-- A room that has been closed for no longer than its hours, or is not closed. -/
def isKept (e : Entry) (now : Instant) : Bool :=
  match e.room.closedAt, e.room.recycleSpan with
  | some closed, .ok span => now.since closed ≤ span
  | _, _ => true

/-- The hours of the room span no time. -/
def isBroken (e : Entry) : Bool :=
  match e.room.recycleSpan with
  | .ok _ => false
  | .error _ => true

end Entry

/-- What a new room is made of. -/
structure Plan where
  creator : String
  token : Option String := none
  /-- The hours of the lobby unless given. -/
  recycleHours : Option Int64 := none
  passwordHash : Option String := none

/-- What joining gives. -/
structure Joined where
  room : Room
  member : Member
  /-- The wallet was away before. -/
  newly : Bool

/-- What a room looks like from outside. -/
structure View where
  room : Room
  members : List Member
  stats : RoomStats

end Lobby

open Lobby in
/-- All rooms by id. -/
structure Lobby where
  entries : Table String Entry
  /-- Hours after which a room is recycled unless it says otherwise. -/
  defaultHours : Int64
  quoteMint : String

namespace Lobby

def new (defaultHours : Int64) (quoteMint : String) : Lobby := ⟨.empty, defaultHours, quoteMint⟩

def get? (l : Lobby) (id : String) : Option Entry := l.entries.get? id

/-- The entry of a room that has to exist. -/
def entry (l : Lobby) (id : String) : Except Failure Entry :=
  match l.get? id with
  | some e => .ok e
  | none => .error (Failure.roomNotFound id)

def openEntry (l : Lobby) (id : String) : Except Failure Entry := do
  let e ← l.entry id
  if e.room.isClosed then .error (Failure.roomClosed id) else .ok e

/-- Puts an entry in the place of its room. -/
def update (l : Lobby) (id : String) (e : Entry) : Lobby :=
  { l with entries := l.entries.insert id e }

/-- A token address without surrounding blanks; a blank one is none. -/
def tokenOf (token : Option String) : Option String :=
  (token.map Text.trim).filter (· != "")

/-- Opens a new room with its creator as first member. -/
def create (l : Lobby) (id : String) (plan : Plan) (now : Instant) :
    Except Failure (Lobby × Room) := do
  let creator := Text.trim plan.creator
  if creator = "" then .error Failure.blankCreator
  else
    let room ← Room.new id creator (tokenOf plan.token) (plan.recycleHours.getD l.defaultHours)
      plan.passwordHash now
    let room ← room.open now
    let room := room.addWallet creator
    let members := Table.empty.insert creator (Member.new id creator now)
    .ok (l.update id ⟨room, members, .empty⟩, room)

/-- Lets a wallet into a room; one that is there already stays. -/
def join (l : Lobby) (id wallet : String) (now : Instant) : Except Failure (Lobby × Joined) := do
  let wallet := Text.trim wallet
  if wallet = "" then .error Failure.blankWallet
  else
    let e ← l.openEntry id
    let (e, m, newly) := e.join wallet now
    .ok (l.update id e, ⟨e.room, m, newly⟩)

/-- Lets a wallet go; gives the member only if it was there. -/
def leave (l : Lobby) (id wallet : String) (now : Instant) :
    Except Failure (Lobby × Option Member) := do
  let e ← l.entry id
  let (e, m) := e.leave wallet now
  .ok (l.update id e, m)

/-- Closes a room for good; only its creator may. -/
def close (l : Lobby) (id requester : String) (now : Instant) : Except Failure (Lobby × Room) := do
  let e ← l.entry id
  if e.room.creator ≠ requester then .error (Failure.notCreator id)
  else
    let e ← e.close now
    .ok (l.update id e, e.room)

/-- Notes the activity of a wallet in an open room. -/
def touch (l : Lobby) (id wallet : String) (now : Instant) : Except Failure Lobby := do
  let e ← l.openEntry id
  .ok (l.update id (e.touch wallet now))

/-- Counts a trade for an open room. A breakdown comes with the lobby that it leaves behind. -/
def recordTrade (l : Lobby) (id : String) (t : Trade) :
    Except Failure (Lobby × Option Breakdown) := do
  let e ← l.openEntry id
  let (e, trouble) := e.count t l.quoteMint
  .ok (l.update id e, trouble)

/-- The first entries, up to one that satisfies `stop` and whose hours span no time. -/
def reached (l : Lobby) (stop : Entry → Bool) : List (String × Entry) :=
  l.entries.entries.takeWhile fun e => !(stop e.2 && e.2.isBroken)

/-- Closes the open rooms whose hours of inactivity are over, and tells which. -/
def closeDue (l : Lobby) (now : Instant) : Lobby × List Room :=
  let due := (l.reached (·.room.status == .open)).filter fun e => e.2.isDue now
  let closed := due.filterMap fun e => (e.2.close now).toOption.map fun c => (e.1, c)
  ({ l with entries := l.entries.map fun id e => (closed.lookup id).getD e },
    closed.map fun e => e.2.room)

/-- Removes the rooms that have been closed for longer than their hours. -/
def removeOld (l : Lobby) (now : Instant) : Lobby :=
  let old := ((l.reached (·.room.closedAt.isSome)).filter fun e => !e.2.isKept now).map Prod.fst
  { l with entries := l.entries.filter fun id _ => !old.contains id }

/-- Some room that satisfies `stop` has hours that span no time. -/
def hasBroken (l : Lobby) (stop : Entry → Bool) : Bool :=
  l.entries.entries.any fun e => stop e.2 && e.2.isBroken

/-- Closes the rooms whose hours of inactivity are over, then removes those that were closed
long enough ago. A breakdown comes with the lobby that it leaves behind. -/
def reap (l : Lobby) (now : Instant) : Lobby × Except Breakdown (List Room) :=
  let (after, closed) := l.closeDue now
  if l.hasBroken (·.room.status == .open) then (after, .error .hours)
  else if after.hasBroken (·.room.closedAt.isSome) then (after.removeOld now, .error .hours)
  else (after.removeOld now, .ok closed)

def room (l : Lobby) (id : String) : Except Failure Room := (l.entry id).map (·.room)

/-- What a room looks like. -/
def view (l : Lobby) (id : String) : Except Failure View :=
  (l.entry id).map fun e => ⟨e.room, e.activeMembers, e.stats⟩

/-- The wallet belongs to a member that is in the room. -/
def isActive (l : Lobby) (id wallet : String) : Bool :=
  match l.get? id with
  | some e => e.isActive wallet
  | none => false

/-- Later created first, then by id. -/
def newestFirst (a b : Room) : Bool :=
  if a.createdAt.nanos = b.createdAt.nanos then a.id ≤ b.id
  else b.createdAt.nanos < a.createdAt.nanos

/-- The rooms, newest first, all or those at one stage. -/
def list (l : Lobby) (status : Option Status) : List Room :=
  ((l.entries.values.map (·.room)).filter fun r =>
    match status with
    | some s => r.status == s
    | none => true).mergeSort newestFirst

/-- The number of rooms, open and closed. -/
def size (l : Lobby) : Nat := l.entries.size

/-- The number of open rooms. -/
def openCount (l : Lobby) : Nat :=
  (l.entries.values.filter fun e => e.room.status == .open).length

/-- What a room looks like as JSON. -/
def View.toJson (v : View) : Json :=
  .obj [("members", .arr (v.members.map (·.toJson))), ("room", v.room.toJson),
    ("stats", v.stats.toJson)]

/-! ## Small lemmas -/

theorem get?_update (l : Lobby) (id id' : String) (e : Entry) :
    (l.update id e).get? id' = if id' = id then some e else l.get? id' :=
  Table.get?_insert ..

@[simp] theorem update_defaultHours (l : Lobby) (id : String) (e : Entry) :
    (l.update id e).defaultHours = l.defaultHours := rfl

@[simp] theorem update_quoteMint (l : Lobby) (id : String) (e : Entry) :
    (l.update id e).quoteMint = l.quoteMint := rfl

theorem mem_activeMembers {e : Entry} {m : Member} :
    m ∈ e.activeMembers ↔ m.active = true ∧ m ∈ e.members.values := by
  unfold Entry.activeMembers
  rw [List.mem_mergeSort, List.mem_filter]
  exact And.comm

theorem entry_eq_ok_iff {l : Lobby} {id : String} {e : Entry} :
    l.entry id = .ok e ↔ l.get? id = some e := by
  unfold entry
  split <;> simp_all

end Lobby

end SwapFloor
