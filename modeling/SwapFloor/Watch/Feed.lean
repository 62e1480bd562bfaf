import SwapFloor.Ingest.Record
import SwapFloor.Watch.Watches

/-!
# The feed of a provider

The provider is reached over one connection. Calls are sent over it as numbered questions, and an
answer is told by the number of its question; whatever else arrives and is a notice is kept until
it is taken in, as far as there is room. A question without an answer fails when its time is up
or the connection is lost. A lost connection is dialed again after a wait that doubles with every
further loss until a connection is made; a new connection starts over with all subscriptions.

Main statements: a feed without a connection has no open questions after a loss
(`lose_questions`), and it never keeps more notices than it has room for (`keep_length_le`).
-/

namespace SwapFloor

namespace Feed

/-- The state of the connection. -/
inductive Link where
  | dialing
  | connected
  /-- The next dial is due at a time. -/
  | waiting (dueAt : Nat)
  | ended
  deriving DecidableEq

/-- A question that has not been answered yet. -/
structure Question where
  id : Nat
  call : Watches.Call
  dueAt : Nat
  deriving DecidableEq

end Feed

open Feed in
/-- A provider's feed with the watches it serves. -/
structure Feed where
  settings : Settings.Provider
  link : Link
  /-- The loop that keeps the connection up has been told to end. -/
  isEnding : Bool
  /-- How long to wait before dialing again after the next loss. -/
  waitMs : Nat
  lastId : Nat
  questions : List Question
  watches : Watches
  /-- Frames that have been sent and not been looked at. -/
  sent : List Json
  /-- Notices that have arrived and not been taken in. -/
  notices : List LogNotice
  capacity : Nat

namespace Feed

/-- A feed that dials for the first time, with room for a number of notices. -/
def new (settings : Settings.Provider) (capacity : Nat) : Feed where
  settings := settings
  link := .dialing
  isEnding := false
  waitMs := settings.retryBaseMs
  lastId := 0
  questions := []
  watches := .new (.ofSettings settings)
  sent := []
  notices := []
  capacity := max 1 capacity

def isConnected (f : Feed) : Bool := f.link = .connected

/-! ## Calls -/

def frame (s : Settings.Provider) (id : Nat) (call : Watches.Call) : Json :=
  let (method, params) : String × List Json := match call with
    | .subscribe address _ => ("logsSubscribe", [.obj [("mentions", .arr [.str address])],
        .obj [("commitment", .str s.commitment), ("encoding", .str s.encoding)]])
    | .unsubscribe id => ("logsUnsubscribe", [.nat id])
  .obj [("id", .nat id), ("jsonrpc", .str "2.0"), ("method", .str method), ("params", .arr params)]

/-- Takes in what became of a call, and gives the call that follows from it. -/
def conclude (f : Feed) (call : Watches.Call) (result : Option SubscriptionId) (now : Nat) :
    Feed × Option Watches.Call :=
  match call with
  | .subscribe address epoch =>
    let (watches, next) := f.watches.complete address epoch result now
    ({ f with watches := watches }, next)
  | .unsubscribe _ => (f, none)

/-- Takes in that a call failed. -/
def fail (f : Feed) (call : Watches.Call) (now : Nat) : Feed := (f.conclude call none now).1

/-- Sends a call, which fails at once without a connection. -/
def ask (f : Feed) (now : Nat) (call : Watches.Call) : Feed :=
  if f.isConnected then
    let id := f.lastId + 1
    { f with
      lastId := id
      questions := f.questions ++ [⟨id, call, now + f.settings.requestTimeoutMs⟩]
      sent := f.sent ++ [frame f.settings id call] }
  else f.fail call now

/-- Fails the questions that satisfy a condition. -/
def failWhere (f : Feed) (now : Nat) (p : Question → Bool) : Feed :=
  (f.questions.filter p).foldl (fun f q => f.fail q.call now)
    { f with questions := f.questions.filter fun q => !p q }

/-- Starts a change of the watches and sends the calls that come of it. -/
def watching (f : Feed) (now : Nat) (change : Watches → Watches × List Watches.Call) : Feed :=
  let (watches, calls) := change f.watches
  calls.foldl (fun f call => f.ask now call) { f with watches := watches }

/-! ## What arrives -/

/-- An unsigned number of 64 bits. -/
def uint64? : Json → Option Nat
  | .int n => if 0 ≤ n ∧ n < 2 ^ 64 then some n.toNat else none
  | _ => none

/-- The subscription that an answer grants, none for a refusal. -/
def granted? (answer : Json) : Option SubscriptionId :=
  if (answer.field "error").isNull then uint64? (answer.field "result") else none

/-- Keeps a notice if there is room. -/
def keep (f : Feed) (n : LogNotice) : Feed :=
  if f.notices.length < f.capacity then { f with notices := f.notices ++ [n] } else f

/-- Takes in an answer to question number `id`. -/
def answered (f : Feed) (id : Nat) (answer : Json) (now : Nat) : Feed :=
  match f.questions.find? (·.id == id) with
  | none => f
  | some q =>
    let f := { f with questions := f.questions.filter fun q => q.id != id }
    let (f, next) := f.conclude q.call (granted? answer) now
    next.toList.foldl (fun f call => f.ask now call) f

/-- Takes in a text that arrives. -/
def hear (f : Feed) (text : String) (now : Nat) : Feed :=
  match Json.parse? text with
  | none => f
  | some j =>
    let j := j.canonical
    match uint64? (j.field "id") with
    | some id => f.answered id j now
    | none =>
      match LogNotice.ofJson? j with
      | some n => f.keep n
      | none => f

/-! ## The connection -/

/-- The other side takes the connection. -/
def accept (f : Feed) (now : Nat) : Feed :=
  if f.link = .dialing then
    if f.isEnding then { f with link := .ended }
    else
      { f with link := .connected, waitMs := f.settings.retryBaseMs }.watching now
        fun w => w.resubscribeAll now
  else f

/-- The connection is lost. -/
def lose (f : Feed) (now : Nat) : Feed :=
  if f.isConnected then
    let f := f.failWhere now fun _ => true
    { f with
      link := .waiting (now + f.waitMs)
      waitMs := min (f.waitMs * 2) (Backoff.ofSettings f.settings).maxMs }
  else f

/-- Tells the feed to end. A dial that is under way is waited for. -/
def stop (f : Feed) (now : Nat) : Feed :=
  let f := { f with isEnding := true }
  match f.link with
  | .connected => { f.lose now with link := .ended }
  | .waiting _ => { f with link := .ended }
  | _ => f

/-- Time has come to `now`: questions run out of time, and a dial may be due. -/
def tick (f : Feed) (now : Nat) : Feed :=
  let f := f.failWhere now fun q => q.dueAt ≤ now
  match f.link with
  | .waiting dueAt => if dueAt ≤ now then { f with link := .dialing } else f
  | _ => f

/-! ## Small lemmas -/

@[simp] theorem conclude_questions (f : Feed) (call : Watches.Call)
    (result : Option SubscriptionId) (now : Nat) :
    (f.conclude call result now).1.questions = f.questions := by
  unfold conclude
  split <;> rfl

@[simp] theorem fail_questions (f : Feed) (call : Watches.Call) (now : Nat) :
    (f.fail call now).questions = f.questions :=
  conclude_questions f call none now

@[simp] theorem conclude_link (f : Feed) (call : Watches.Call)
    (result : Option SubscriptionId) (now : Nat) :
    (f.conclude call result now).1.link = f.link := by
  unfold conclude
  split <;> rfl

@[simp] theorem fail_link (f : Feed) (call : Watches.Call) (now : Nat) :
    (f.fail call now).link = f.link :=
  conclude_link f call none now

@[simp] theorem failAll_questions (qs : List Question) (f : Feed) (now : Nat) :
    (qs.foldl (fun f q => f.fail q.call now) f).questions = f.questions := by
  induction qs generalizing f with
  | nil => rfl
  | cons q qs ih => simp [ih]

@[simp] theorem failWhere_questions (f : Feed) (now : Nat) (p : Question → Bool) :
    (f.failWhere now p).questions = f.questions.filter fun q => !p q := by
  simp [failWhere]

theorem lose_questions {f : Feed} (h : f.isConnected) (now : Nat) :
    (f.lose now).questions = [] := by
  simp [lose, h]

theorem keep_length_le {f : Feed} (h : f.notices.length ≤ f.capacity) (n : LogNotice) :
    (f.keep n).notices.length ≤ (f.keep n).capacity := by
  unfold keep
  split
  · simp only [List.length_append, List.length_cons, List.length_nil]
    omega
  · exact h

theorem ask_disconnected {f : Feed} (h : f.isConnected = false) (now : Nat)
    (call : Watches.Call) : f.ask now call = f.fail call now := by
  simp [ask, h]

end Feed

end SwapFloor
