import SwapFloor.Table
import SwapFloor.Watch.Backoff

/-!
# Watched addresses

An address is watched as long as someone refers to it: a room, or a caller of its own. The first
reference asks the provider for a subscription, the last one to go gives it back. An operation
returns the calls to the provider that it starts; what becomes of a call comes back as its
completion. A call carries the epoch in which it was started, so that the completion of an
outdated one is told from the current one and its subscription is given back.

Times are milliseconds on a clock of its own. The failures of an address in a row are counted in 32
bits and start again at zero after the last number; references and epochs are counted without a
bound. Main statements: what each step does to the entry of its address and that it leaves all
others alone.
-/

namespace SwapFloor

/-- The provider's number for a subscription. -/
abbrev SubscriptionId := Nat

namespace Watches

/-- How far the subscription of an address is. -/
inductive Stage where
  | inFlight
  | active (id : SubscriptionId)
  /-- Failed `attempts` times; the next try is due at a time. -/
  | pending (attempts : UInt32) (dueAt : Nat)
  deriving DecidableEq

/-- A watched address. -/
structure Watch where
  refs : Nat
  /-- The rooms among those who refer to the address, in the order in which they came. -/
  rooms : List String
  stage : Stage
  /-- The epoch of the last call for the address. -/
  epoch : Nat
  /-- Failures since the last success. -/
  attempts : UInt32
  deriving DecidableEq

/-- A call to the provider. -/
inductive Call where
  | subscribe (address : String) (epoch : Nat)
  | unsubscribe (id : SubscriptionId)
  deriving DecidableEq

end Watches

open Watches in
/-- All watched addresses. -/
structure Watches where
  entries : Table String Watch
  /-- The addresses of active subscriptions. -/
  addresses : Table SubscriptionId String
  backoff : Backoff
  lastEpoch : Nat
  /-- How many subscriptions have failed. -/
  failures : Nat
  /-- The number of active subscriptions as it was last made known. -/
  shownActive : Option Nat

namespace Watches

/-- Nothing watched. -/
def new (backoff : Backoff) : Watches := ⟨.empty, .empty, backoff, 0, 0, none⟩

def get? (w : Watches) (address : String) : Option Watch := w.entries.get? address

/-- Makes the number of active subscriptions known. -/
def show_ (w : Watches) : Watches := { w with shownActive := some w.addresses.size }

/-- An address that nobody refers to yet. -/
def Watch.fresh (now : Nat) : Watch := ⟨0, [], .pending 0 now, 0, 0⟩

/-- Puts an entry in the place of its address. -/
def put (w : Watches) (address : String) (e : Watch) : Watches :=
  { w with entries := w.entries.insert address e }

/-- Starts a call for an address whose entry is `e`. -/
def start (w : Watches) (address : String) (e : Watch) : Watches × Call :=
  let epoch := w.lastEpoch + 1
  ({ w.put address { e with stage := .inFlight, epoch := epoch } with lastEpoch := epoch },
    .subscribe address epoch)

/-! ## References -/

/-- Adds a reference to an address, for a room or not. A room refers to it once. -/
def acquire (w : Watches) (address : String) (room : Option String) (now : Nat) :
    Watches × Option Call :=
  let e := (w.get? address).getD (.fresh now)
  let known := match room with
    | some r => e.rooms.contains r
    | none => false
  if known then (w, none)
  else
    let e := { e with rooms := e.rooms ++ room.toList, refs := e.refs + 1 }
    if e.refs = 1 then
      let (w, call) := w.start address e
      (w, some call)
    else (w.put address e, none)

/-- Takes a reference away, and tells whether it was the last one. A room that does not refer to
the address has none to take. -/
def decrement (w : Watches) (address : String) (room : Option String) : Watches × Bool :=
  match w.get? address with
  | none => (w, false)
  | some e =>
    let unknown := match room with
      | some r => !e.rooms.contains r
      | none => false
    if unknown then (w, false)
    else
      let e := { e with
        rooms := match room with
          | some r => e.rooms.erase r
          | none => e.rooms
        refs := e.refs - 1 }
      (w.put address e, e.refs == 0)

/-- Drops the entry of an address to which nobody refers. -/
def dropUnused (w : Watches) (address : String) : Watches × Option Call :=
  match w.get? address with
  | none => (w, none)
  | some e =>
    if e.refs = 0 then
      let w := { w with entries := w.entries.erase address }
      match e.stage with
      | .active id =>
        (show_ { w with addresses := w.addresses.erase id }, some (.unsubscribe id))
      | _ => (w, none)
    else (w, none)

/-- Takes a reference away; the last one takes the entry with it. -/
def release (w : Watches) (address : String) (room : Option String) : Watches × Option Call :=
  match w.decrement address room with
  | (w, true) => w.dropUnused address
  | (w, false) => (w, none)

/-! ## Completions and further tries -/

/-- Takes in what became of a call: the number of the subscription, or none if it failed. -/
def complete (w : Watches) (address : String) (epoch : Nat) (result : Option SubscriptionId)
    (now : Nat) : Watches × Option Call :=
  let current := match w.get? address with
    | some e => if e.epoch = epoch ∧ e.stage = Stage.inFlight then some e else none
    | none => none
  match current, result with
  | some e, some id =>
    let w := w.put address { e with stage := .active id, attempts := 0 }
    (show_ { w with addresses := w.addresses.insert id address }, none)
  | some e, none =>
    let attempts := e.attempts + 1
    let stage := Stage.pending attempts (now + w.backoff.wait attempts)
    let w := w.put address { e with stage := stage, attempts := attempts }
    (show_ { w with failures := w.failures + 1 }, none)
  | none, some id => (w.show_, some (.unsubscribe id))
  | none, none => (w.show_, none)

/-- The next try for the address is due. -/
def Watch.isDue (e : Watch) (now : Nat) : Bool :=
  match e.stage with
  | .pending _ dueAt => dueAt ≤ now && 0 < e.refs
  | _ => false

/-- Starts a call for every address whose next try is due. -/
def retryDue (w : Watches) (now : Nat) : Watches × List Call :=
  (w.entries.entries.filter fun e => e.2.isDue now).foldl
    (fun (w, calls) (address, e) =>
      let (w, call) := w.start address e
      (w, calls ++ [call])) (w, [])

/-- Forgets the numbers of all subscriptions. -/
def forgetIds (w : Watches) : Watches := { w with addresses := .empty }

/-- Starts over with one address: it is due at once. -/
def restart (w : Watches) (address : String) (now : Nat) : Watches :=
  match w.get? address with
  | none => w
  | some e =>
    let epoch := w.lastEpoch + 1
    { w.put address { e with attempts := 0, epoch := epoch, stage := .pending 0 now } with
      lastEpoch := epoch }

/-- Starts over with all addresses, after the provider has forgotten them. -/
def resubscribeAll (w : Watches) (now : Nat) : Watches × List Call :=
  let restarted := w.entries.keys.foldl (fun w a => w.restart a now) w.forgetIds
  restarted.show_.retryDue now

/-! ## Questions -/

/-- The rooms that refer to an address. -/
def roomsWatching (w : Watches) (address : String) : List String :=
  match w.get? address with
  | some e => e.rooms
  | none => []

/-- The rooms that refer to any of several addresses, by name and once each. -/
def roomsWatchingAny (w : Watches) (addresses : List String) : List String :=
  (addresses.flatMap w.roomsWatching).eraseDups.mergeSort fun a b => a ≤ b

/-- The address of an active subscription. -/
def addressOf? (w : Watches) (id : SubscriptionId) : Option String := w.addresses.get? id

/-- How often an address is referred to. -/
def refCount (w : Watches) (address : String) : Nat :=
  match w.get? address with
  | some e => e.refs
  | none => 0

/-- The number of watched addresses. -/
def watchedCount (w : Watches) : Nat := w.entries.size

/-- The number of active subscriptions. -/
def activeCount (w : Watches) : Nat := w.addresses.size

/-- The number of addresses that wait for another try. -/
def pendingCount (w : Watches) : Nat :=
  (w.entries.values.filter fun e =>
    match e.stage with
    | .pending _ _ => true
    | _ => false).length

/-! ## Small lemmas -/

theorem get?_put (w : Watches) (a a' : String) (e : Watch) :
    (w.put a e).get? a' = if a' = a then some e else w.get? a' :=
  Table.get?_insert ..

@[simp] theorem show_get? (w : Watches) (a : String) : w.show_.get? a = w.get? a := rfl

theorem get?_start (w : Watches) (a a' : String) (e : Watch) :
    (w.start a e).1.get? a'
      = if a' = a then some { e with stage := .inFlight, epoch := w.lastEpoch + 1 }
        else w.get? a' :=
  get?_put ..

theorem get?_decrement_other {w : Watches} {a a' : String} (h : a' ≠ a) (room : Option String) :
    (w.decrement a room).1.get? a' = w.get? a' := by
  unfold decrement
  split
  · rfl
  · dsimp only
    cases room <;> dsimp only
    · rw [if_neg (by simp), get?_put, if_neg h]
    · split
      · rfl
      · rw [get?_put, if_neg h]

theorem mem_roomsWatchingAny {w : Watches} {as : List String} {r : String} :
    r ∈ w.roomsWatchingAny as ↔ ∃ a ∈ as, r ∈ w.roomsWatching a := by
  unfold roomsWatchingAny
  rw [List.mem_mergeSort, List.mem_eraseDups, List.mem_flatMap]

end Watches

end SwapFloor
