import SwapFloor.Failure
import SwapFloor.Json.Leaves
import SwapFloor.Text.LowerCase

/-!
# Rooms and members

A room goes from creating to open to closed and never back. It lists the wallets of all its
members, present and past; a member record says of one wallet when it came and whether it is
still there. Main statements: a step of the status is possible in exactly two cases
(`Status.leadsTo_iff`), and closing a room moves no other field (`Room.close_eq`).
-/

namespace SwapFloor

/-- The stages in the life of a room. -/
inductive Status where
  | creating
  | «open»
  | closed
  deriving DecidableEq

namespace Status

/-- All stages in their order. -/
def all : List Status := [.creating, .open, .closed]

/-- The name of a stage. -/
def name : Status → String
  | .creating => "creating"
  | .open => "open"
  | .closed => "closed"

/-- The stage may follow. -/
def leadsTo : Status → Status → Bool
  | .creating, .open => true
  | .open, .closed => true
  | _, _ => false

/-- The stage with a name, in any case. -/
def ofName? (s : String) : Except Failure Status :=
  match Text.lowerCase s with
  | "creating" => .ok .creating
  | "open" => .ok .open
  | "closed" => .ok .closed
  | other => .error ⟨.validation, s!"알 수 없는 룸 상태: {other}"⟩

/-- A stage from JSON. -/
def decoder : Json.Decoder Status :=
  Json.constant [("creating", .creating), ("open", .open), ("closed", .closed)]

theorem leadsTo_iff {a b : Status} :
    a.leadsTo b = true ↔ (a = .creating ∧ b = .open) ∨ (a = .open ∧ b = .closed) := by
  cases a <;> cases b <;> simp [leadsTo]

end Status

/-- A trading room. -/
structure Room where
  id : String
  creator : String
  /-- The token that the room watches. -/
  token : Option String
  /-- The stored hash of the room's password; never written out. -/
  passwordHash : Option String
  hasPassword : Bool
  /-- Hours of inactivity after which an open room is closed, and a closed one removed. -/
  recycleHours : Int64
  status : Status
  createdAt : Instant
  lastActive : Instant
  closedAt : Option Instant
  /-- The wallets of all members, present and past, in the order of their first joining. -/
  wallets : List String
  deriving DecidableEq

namespace Room

/-- A room at the start of its life. -/
def new (id creator : String) (token : Option String) (recycleHours : Int64)
    (passwordHash : Option String) (now : Instant) : Except Failure Room :=
  if recycleHours ≤ 0 then
    .error ⟨.validation, s!"recycleHours는 0보다 커야 합니다: {Text.intText recycleHours.toInt}"⟩
  else
    .ok {
      id := id
      creator := creator
      token := token
      passwordHash := passwordHash
      hasPassword := passwordHash.isSome
      recycleHours := recycleHours
      status := .creating
      createdAt := now
      lastActive := now
      closedAt := none
      wallets := [] }

/-- Moves to another stage, if it may follow. -/
def advance (r : Room) (next : Status) : Except Failure Room :=
  if r.status = .closed then .error (Failure.roomClosed r.id)
  else if r.status.leadsTo next then .ok { r with status := next }
  else .error ⟨.validation, s!"룸 상태 전이 불가: {r.status.name} → {next.name}"⟩

/-- Opens a room that is being created. -/
def «open» (r : Room) (now : Instant) : Except Failure Room :=
  (r.advance .open).map fun r => { r with lastActive := now }

/-- Closes an open room. -/
def close (r : Room) (now : Instant) : Except Failure Room :=
  (r.advance .closed).map fun r => { r with closedAt := some now }

def isClosed (r : Room) : Bool := r.status == .closed

/-- Notes activity; an earlier time than the last one changes nothing. -/
def touch (r : Room) (now : Instant) : Room :=
  if now.isAfter r.lastActive then { r with lastActive := now } else r

/-- The span after which the room is recycled. -/
def recycleSpan (r : Room) : Except Breakdown Int :=
  match Instant.hours? r.recycleHours.toInt with
  | some span => .ok span
  | none => .error .hours

/-- The room has been inactive for longer than its hours. -/
def isExpired (r : Room) (now : Instant) : Except Breakdown Bool :=
  r.recycleSpan.map fun span => span < now.since r.lastActive

/-- Lists a wallet, once. -/
def addWallet (r : Room) (wallet : String) : Room :=
  if wallet ∈ r.wallets then r else { r with wallets := r.wallets ++ [wallet] }

/-! ## JSON -/

/-- A room from its parts in the order of its fields. -/
def ofParts (id creator : String) (token : Option String) (hasPassword : Bool)
    (recycleHours : Int64) (status : Status) (createdAt lastActive : Instant)
    (closedAt : Option Instant) (wallets : List String) : Room where
  id := id
  creator := creator
  token := token
  passwordHash := none
  hasPassword := hasPassword
  recycleHours := recycleHours
  status := status
  createdAt := createdAt
  lastActive := lastActive
  closedAt := closedAt
  wallets := wallets

open Json in
def fields : Fields Room :=
  ofParts <$> required "id" string <*> required "creatorWallet" string
    <*> optional "tokenAddress" string <*> required "hasPassword" boolean
    <*> required "recycleHours" int64 <*> required "status" Status.decoder
    <*> required "createdAt" instant <*> required "lastActiveTime" instant
    <*> optional "closedAt" instant <*> required "memberWallets" (Json.list string)

def decoder : Json.Decoder Room := Json.record "Room" fields

/-- A room as JSON, without the hash of its password. -/
def toJson (r : Room) : Json :=
  .obj [("closedAt", Json.ofOption Json.ofInstant r.closedAt),
    ("createdAt", Json.ofInstant r.createdAt), ("creatorWallet", .str r.creator),
    ("hasPassword", .bool r.hasPassword), ("id", .str r.id),
    ("lastActiveTime", Json.ofInstant r.lastActive),
    ("memberWallets", .arr (r.wallets.map .str)), ("recycleHours", .int r.recycleHours.toInt),
    ("status", .str r.status.name), ("tokenAddress", Json.optStr r.token)]

/-! ## Small lemmas -/

theorem close_eq {r r' : Room} {now : Instant} (h : r.close now = .ok r') :
    r.status = .open ∧ r' = { r with status := .closed, closedAt := some now } := by
  unfold close advance at h
  split at h
  · simp [Except.map] at h
  · split at h
    · rename_i hc hl
      simp only [Except.map, Except.ok.injEq] at h
      refine ⟨?_, h.symm⟩
      rcases Status.leadsTo_iff.1 hl with ⟨_, hb⟩ | ⟨ha, _⟩
      · simp at hb
      · exact ha
    · simp [Except.map] at h

theorem mem_addWallet {r : Room} {w v : String} :
    v ∈ (r.addWallet w).wallets ↔ v = w ∨ v ∈ r.wallets := by
  unfold addWallet
  split
  · grind
  · simp; grind

theorem touch_lastActive (r : Room) (now : Instant) :
    (r.touch now).lastActive.nanos = max r.lastActive.nanos now.nanos := by
  unfold touch Instant.isAfter
  split
  · rename_i h
    exact (Int.max_eq_right (Int.le_of_lt (of_decide_eq_true h))).symm
  · rename_i h
    exact (Int.max_eq_left (Int.not_lt.1 fun hl => h (decide_eq_true hl))).symm

end Room

/-- What a room knows of one wallet. -/
structure Member where
  room : String
  wallet : String
  joinTime : Instant
  lastActive : Instant
  leaveTime : Option Instant
  active : Bool
  deriving DecidableEq

namespace Member

/-- A member that joins now. -/
def new (room wallet : String) (now : Instant) : Member := ⟨room, wallet, now, now, none, true⟩

/-- Joins again, and tells whether the member was away. -/
def reactivate (m : Member) (now : Instant) : Member × Bool :=
  if m.active then ({ m with lastActive := now }, false)
  else ({ m with lastActive := now, active := true, joinTime := now, leaveTime := none }, true)

/-- Leaves, and tells whether the member was there. -/
def deactivate (m : Member) (now : Instant) : Member × Bool :=
  if m.active then ({ m with active := false, leaveTime := some now, lastActive := now }, true)
  else (m, false)

open Json in
def fields : Fields Member :=
  Member.mk <$> required "roomId" string <*> required "walletAddress" string
    <*> required "joinTime" instant <*> required "lastActiveTime" instant
    <*> optional "leaveTime" instant <*> required "active" boolean

def decoder : Json.Decoder Member := Json.record "Member" fields

def toJson (m : Member) : Json :=
  .obj [("active", .bool m.active), ("joinTime", Json.ofInstant m.joinTime),
    ("lastActiveTime", Json.ofInstant m.lastActive),
    ("leaveTime", Json.ofOption Json.ofInstant m.leaveTime), ("roomId", .str m.room),
    ("walletAddress", .str m.wallet)]

@[simp] theorem reactivate_active (m : Member) (now : Instant) :
    (m.reactivate now).1.active = true := by
  unfold reactivate
  split <;> simp_all

@[simp] theorem deactivate_active (m : Member) (now : Instant) :
    (m.deactivate now).1.active = false := by
  unfold deactivate
  split <;> simp_all

theorem deactivate_of_inactive {m : Member} (h : m.active = false) (now : Instant) :
    m.deactivate now = (m, false) := by
  simp [deactivate, h]

end Member

end SwapFloor
