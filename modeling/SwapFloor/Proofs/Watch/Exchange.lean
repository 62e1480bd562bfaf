import SwapFloor.Watch.Feed

/-!
# Requests that share a connection

Callers make requests at the same time, and a caller has the connection to itself only in single
moves: it sees that there is a connection, draws a number, files the number among those that wait
for an answer, queues its frame, and waits. The loop that keeps the connection up sends what is
queued and hears what arrives; an answer is put into the letter box of its number, if that is still
filed. A caller whose time is up takes its number back. When the connection is lost, the loop gives
every filed number a letter that says so; when it has dialed again, it empties the queue first. Any
of these moves may come between any two others (`Step`).

What becomes of a request is told by the moves alone: the first one after the filing that answers
it, lets it run out of time or fails it (`verdict?`).

Main statement: what keeps up along every run (`sound_run`).
-/

namespace SwapFloor

namespace Exchange

/-- What a caller gets. -/
abbrev Reply := Except Failure Json

/-- What a letter box can hold: a result, or why there is none. -/
abbrev Letter := Except String Json

/-- How far a request is. -/
inductive Stage where
  /-- It has seen the connection. -/
  | cleared
  /-- There was no connection. -/
  | turnedDown
  | numbered (id : Nat)
  /-- It is filed, and its frame is queued or not yet. -/
  | filed (id : Nat) (posted : Bool)
  /-- Its time is up, and its number may be filed yet. -/
  | expired (id : Nat)
  | done (id : Nat) (reply : Reply)

/-- A request of a caller. -/
structure Enquiry where
  call : Watches.Call
  stage : Stage

/-- The connection; after a loss, with the numbers that were filed then. -/
inductive Link where
  | up
  | down (owed : List Nat)
  deriving DecidableEq

end Exchange

open Exchange in
/-- The requests over one connection. -/
structure Exchange where
  settings : Settings.Provider
  link : Link
  lastId : Nat
  /-- The filed numbers. -/
  pending : List Nat
  letters : Table Nat Letter
  /-- Frames that are queued. -/
  queue : List Json
  sent : List Json
  /-- All requests, in the order in which they were begun. -/
  enquiries : List Enquiry

namespace Exchange

/-- The connection has not been made yet. -/
def new (settings : Settings.Provider) : Exchange :=
  ⟨settings, .down [], 0, [], .empty, [], [], []⟩

/-- How many frames can be queued. -/
def queueRoom : Nat := 256

/-! ## What callers get -/

def method : Watches.Call → String
  | .subscribe _ _ => "logsSubscribe"
  | .unsubscribe _ => "logsUnsubscribe"

def notConnected : Failure := ⟨.provider, "프로바이더에 연결되어 있지 않습니다"⟩

def refused (call : Watches.Call) (message : String) : Failure :=
  ⟨.provider, method call ++ " 실패: " ++ message⟩

def timedOut (call : Watches.Call) : Failure := ⟨.provider, method call ++ " 응답 타임아웃"⟩

/-- What a letter says to the caller. -/
def outcome (call : Watches.Call) : Letter → Reply
  | .ok result => .ok result
  | .error message => .error (refused call message)

/-- The subscription that a reply grants. -/
def subscription : Reply → Except Failure SubscriptionId
  | .error f => .error f
  | .ok result =>
    match Feed.uint64? result with
    | some id => .ok id
    | none => .error ⟨.provider, "예상하지 못한 구독 응답: " ++ result.text⟩

/-- The letter that an answer makes. -/
def letterOf (answer : Json) : Letter :=
  if (answer.field "error").isNull then .ok (answer.field "result")
  else .error (answer.field "error").text

/-- The letter about a lost connection. -/
def connectionLost : Letter := .error "connection lost"

/-- The number that a frame bears, with the letter that it makes. -/
def borne? (text : String) : Option (Nat × Letter) := do
  let j ← Json.parse? text
  let id ← Feed.uint64? (j.canonical.field "id")
  pure (id, letterOf j.canonical)

namespace Stage

/-- The number of a request, once it has drawn one. -/
def id? : Stage → Option Nat
  | .cleared | .turnedDown => none
  | .numbered id | .filed id _ | .expired id | .done id _ => some id

/-- The number of a request, once it has been filed. -/
def filed? : Stage → Option Nat
  | .cleared | .turnedDown | .numbered _ => none
  | .filed id _ | .expired id | .done id _ => some id

/-- What the caller has got. -/
def reply? : Stage → Option Reply
  | .turnedDown => some (.error notConnected)
  | .done _ reply => some reply
  | _ => none

theorem id?_of_filed? {s : Stage} {id : Nat} (h : s.filed? = some id) : s.id? = some id := by
  cases s <;> first | exact h | exact nomatch h

end Stage

/-! ## Moves -/

inductive Act where
  /-- A request begins with a look at the connection. -/
  | ask (call : Watches.Call)
  | number (k : Nat)
  | file (k : Nat)
  | post (k : Nat)
  | collect (k : Nat)
  | expire (k : Nat)
  | withdraw (k : Nat)
  /-- The loop hears a text. -/
  | hear (text : String)
  /-- The loop sends what has been queued first. -/
  | send
  | lose
  /-- The loop tells a filed number that the connection is lost. -/
  | fail (id : Nat)
  /-- The loop drops what has been queued first. -/
  | discard
  | redial
  deriving DecidableEq

/-- Moves on the request number `k`. -/
def put (x : Exchange) (k : Nat) (s : Stage) : Exchange :=
  { x with enquiries := x.enquiries.modify k fun e => { e with stage := s } }

/-- Puts a letter into the box of a number, which is filed no longer. -/
def deliver (x : Exchange) (id : Nat) (letter : Letter) : Exchange :=
  { x with
    pending := x.pending.filter (· != id)
    letters := x.letters.insert id letter }

/-- Takes in a text that arrives. Its number is taken out of the table before the letter is put into
the box; in between nobody could come but a caller whose time is up, and who does so then might as
well have come before. -/
def heard (x : Exchange) (text : String) : Exchange :=
  match borne? text with
  | some (id, letter) => if id ∈ x.pending then x.deliver id letter else x
  | none => x

/-- What one move does, and when it is possible. -/
inductive Step (x : Exchange) : Act → Exchange → Prop
  | ask (call : Watches.Call) : Step x (.ask call)
      { x with
        enquiries := x.enquiries ++ [⟨call, if x.link = .up then .cleared else .turnedDown⟩] }
  | number {k call} (h : x.enquiries[k]? = some ⟨call, .cleared⟩) :
    Step x (.number k) ({ x with lastId := x.lastId + 1 }.put k (.numbered (x.lastId + 1)))
  | file {k call id} (h : x.enquiries[k]? = some ⟨call, .numbered id⟩) :
    Step x (.file k) ({ x with pending := x.pending ++ [id] }.put k (.filed id false))
  | post {k call id} (h : x.enquiries[k]? = some ⟨call, .filed id false⟩)
    (hroom : x.queue.length < queueRoom) : Step x (.post k)
      ({ x with queue := x.queue ++ [Feed.frame x.settings id call] }.put k (.filed id true))
  | collect {k call id letter} (h : x.enquiries[k]? = some ⟨call, .filed id true⟩)
    (hletter : x.letters.get? id = some letter) :
    Step x (.collect k) (x.put k (.done id (outcome call letter)))
  /-- Who finds a letter does not mind the time. -/
  | expire {k call id} (h : x.enquiries[k]? = some ⟨call, .filed id true⟩)
    (hletter : x.letters.get? id = none) : Step x (.expire k) (x.put k (.expired id))
  | withdraw {k call id} (h : x.enquiries[k]? = some ⟨call, .expired id⟩) :
    Step x (.withdraw k) ({ x with pending := x.pending.filter (· != id) }.put k
      (.done id (.error (timedOut call))))
  | hear (text : String) (hup : x.link = .up) : Step x (.hear text) (x.heard text)
  | send {frame rest} (hup : x.link = .up) (hqueue : x.queue = frame :: rest) :
    Step x .send { x with queue := rest, sent := x.sent ++ [frame] }
  | lose (hup : x.link = .up) : Step x .lose { x with link := .down x.pending }
  | fail {id owed} (hdown : x.link = .down owed) (hfiled : id ∈ x.pending) :
    Step x (.fail id) (x.deliver id connectionLost)
  /-- The loop empties the queue when a dial has succeeded, before it makes the connection known, and
  not while it is still dialing. What is dropped here may be dropped sooner, with the same frames
  lost; only who waits for room gets it sooner. -/
  | discard {owed frame rest} (hdown : x.link = .down owed) (hqueue : x.queue = frame :: rest) :
    Step x .discard { x with queue := rest }
  /-- All numbers that were filed at the loss have been told. -/
  | redial {owed} (hdown : x.link = .down owed) (htold : ∀ id ∈ owed, id ∉ x.pending) :
    Step x .redial { x with link := .up }

/-- Moves, one after the other. -/
inductive Run (x : Exchange) : List Act → Exchange → Prop
  | nil : Run x [] x
  | snoc {acts a y z} (h : Run x acts y) (hstep : Step y a z) : Run x (acts ++ [a]) z

theorem Run.trans {x y z : Exchange} {acts more : List Act} (h : Run x acts y)
    (h' : Run y more z) : Run x (acts ++ more) z := by
  induction h' with
  | nil => exact (List.append_nil acts).symm ▸ h
  | snoc _ hstep ih => exact List.append_assoc .. ▸ ih.snoc hstep

/-! ## What the moves say about a request -/

/-- What ends a wait. -/
inductive Verdict where
  | answer (letter : Letter)
  | timeout

/-- What the caller gets at the end of a wait. -/
def Verdict.reply (call : Watches.Call) : Verdict → Reply
  | .answer letter => outcome call letter
  | .timeout => .error (timedOut call)

/-- What a move says to the request number `k` under the number `id`. -/
def Act.verdict? (k id : Nat) : Act → Option Verdict
  | .hear text => ((borne? text).filter fun b => b.1 == id).map fun b => .answer b.2
  | .fail i => if i = id then some (.answer connectionLost) else none
  | .expire i => if i = k then some .timeout else none
  | _ => none

/-- The moves after the request number `k` has been filed. -/
def since (k : Nat) : List Act → List Act
  | [] => []
  | a :: acts => if a = .file k then acts else since k acts

/-- What is said first to the request number `k` after it has filed the number `id`. -/
def verdict? (k id : Nat) (acts : List Act) : Option Verdict :=
  (since k acts).findSome? (·.verdict? k id)

variable {x y z : Exchange} {acts : List Act} {a : Act} {k id : Nat}

theorem since_snoc (k : Nat) (acts : List Act) (a : Act) :
    since k (acts ++ [a]) = if .file k ∈ acts then since k acts ++ [a] else [] := by
  induction acts with
  | nil =>
    show (if a = .file k then [] else []) = _
    rw [ite_self]
    rfl
  | cons b acts ih =>
    rw [List.cons_append, since, since]
    by_cases hb : b = .file k
    · rw [if_pos hb, if_pos hb, if_pos (hb ▸ List.mem_cons_self)]
    · have hmem : Act.file k ∈ b :: acts ↔ Act.file k ∈ acts := by
        rw [List.mem_cons]
        exact or_iff_right (Ne.symm hb)
      rw [if_neg hb, if_neg hb, ih]
      simp only [hmem]

theorem since_eq_nil (h : .file k ∉ acts) : since k acts = [] := by
  induction acts with
  | nil => rfl
  | cons b acts ih =>
    rw [List.mem_cons, not_or] at h
    rw [since, if_neg (Ne.symm h.1)]
    exact ih h.2

/-- The first word counts. -/
theorem verdict?_snoc (h : .file k ∈ acts) (a : Act) :
    verdict? k id (acts ++ [a]) = (verdict? k id acts).or (a.verdict? k id) := by
  unfold verdict?
  rw [since_snoc, if_pos h, List.findSome?_append, List.findSome?_singleton]

theorem verdict?_snoc_of_not_mem (h : .file k ∉ acts) (a : Act) :
    verdict? k id (acts ++ [a]) = none := by
  unfold verdict?
  rw [since_snoc, if_neg h]
  rfl

/-! ## What keeps up -/

/-- A filed number is open, or it has a letter, and that says what was said first. -/
def Awaits (x : Exchange) (acts : List Act) (k id : Nat) : Prop :=
  (id ∈ x.pending ∧ x.letters.get? id = none ∧ verdict? k id acts = none) ∨
    ∃ letter, id ∉ x.pending ∧ x.letters.get? id = some letter ∧
      verdict? k id acts = some (.answer letter)

/-- How the stage of the request number `k` agrees with the moves so far. -/
def Tells (x : Exchange) (acts : List Act) (k : Nat) (call : Watches.Call) : Stage → Prop
  | .cleared | .turnedDown | .numbered _ => .file k ∉ acts
  | .filed id _ => .file k ∈ acts ∧ x.Awaits acts k id
  | .expired id => .file k ∈ acts ∧ verdict? k id acts = some .timeout
  | .done id reply => .file k ∈ acts ∧ id ∉ x.pending ∧
      ∃ v, verdict? k id acts = some v ∧ reply = v.reply call

/-- Numbers are drawn once and filed by those who drew them, and every stage agrees with the
moves. -/
structure Sound (x : Exchange) (acts : List Act) : Prop where
  drawn : ∀ (k : Nat) (e : Enquiry) id, x.enquiries[k]? = some e → e.stage.id? = some id →
    id ≤ x.lastId
  distinct : ∀ (k k' : Nat) (e e' : Enquiry) id, x.enquiries[k]? = some e →
    x.enquiries[k']? = some e' → e.stage.id? = some id → e'.stage.id? = some id → k = k'
  owned : ∀ id, id ∈ x.pending ∨ (x.letters.get? id).isSome →
    ∃ (k : Nat) (e : Enquiry), x.enquiries[k]? = some e ∧ e.stage.filed? = some id
  fresh : ∀ k, x.enquiries.length ≤ k → .file k ∉ acts
  tells : ∀ (k : Nat) (e : Enquiry), x.enquiries[k]? = some e → x.Tells acts k e.call e.stage

theorem not_mem_snoc {b : Act} (h : b ∉ acts) (hne : a ≠ b) : b ∉ acts ++ [a] := by
  rw [List.mem_append, List.mem_singleton, not_or]
  exact ⟨h, Ne.symm hne⟩

theorem mem_snoc {b : Act} (h : b ∈ acts) : b ∈ acts ++ [a] := List.mem_append_left _ h

variable {call : Watches.Call} {s : Stage} {letter : Letter}

/-- A move that is about other numbers changes nothing. -/
theorem Tells.snoc (h : x.Tells acts k call s) (hfile : a ≠ .file k)
    (hsame : ∀ id, s.filed? = some id → (id ∈ y.pending ↔ id ∈ x.pending) ∧
      y.letters.get? id = x.letters.get? id ∧ a.verdict? k id = none) :
    y.Tells (acts ++ [a]) k call s := by
  have hverdict : ∀ id, .file k ∈ acts → a.verdict? k id = none →
      verdict? k id (acts ++ [a]) = verdict? k id acts := by
    intro id hin hnone
    rw [verdict?_snoc hin, hnone, Option.or_none]
  cases s with
  | cleared => exact not_mem_snoc h hfile
  | turnedDown => exact not_mem_snoc h hfile
  | numbered id => exact not_mem_snoc h hfile
  | filed id posted =>
    obtain ⟨hpending, hletter, hnone⟩ := hsame id rfl
    refine ⟨mem_snoc h.1, ?_⟩
    unfold Awaits
    rw [hpending, hletter, hverdict id h.1 hnone]
    exact h.2
  | expired id =>
    obtain ⟨-, -, hnone⟩ := hsame id rfl
    exact ⟨mem_snoc h.1, (hverdict id h.1 hnone).trans h.2⟩
  | done id reply =>
    obtain ⟨hpending, -, hnone⟩ := hsame id rfl
    refine ⟨mem_snoc h.1, fun hin => h.2.1 (hpending.1 hin), ?_⟩
    rw [hverdict id h.1 hnone]
    exact h.2.2

/-- What has been said is not taken back. -/
theorem verdict?_snoc_of_eq_some {v : Verdict} (h : verdict? k id acts = some v)
    (hin : .file k ∈ acts) (a : Act) : verdict? k id (acts ++ [a]) = some v := by
  rw [verdict?_snoc hin, h]
  rfl

/-- A word about a number that is not filed comes too early or too late. -/
theorem Tells.late (h : x.Tells acts k call s) (hfile : a ≠ .file k) (hid : id ∉ x.pending)
    (hothers : ∀ id' ≠ id, a.verdict? k id' = none) : x.Tells (acts ++ [a]) k call s := by
  by_cases hown : s.filed? = some id
  · cases s with
    | cleared => cases hown
    | turnedDown => cases hown
    | numbered => cases hown
    | filed i posted =>
      obtain rfl := Option.some.inj hown
      rcases h.2 with ⟨hin, _⟩ | ⟨letter, _, hletter, hv⟩
      · exact absurd hin hid
      · exact ⟨mem_snoc h.1, .inr ⟨letter, hid, hletter, verdict?_snoc_of_eq_some hv h.1 a⟩⟩
    | expired i => exact ⟨mem_snoc h.1, verdict?_snoc_of_eq_some h.2 h.1 a⟩
    | done i reply =>
      obtain ⟨hin, hgone, v, hv, hreply⟩ := h
      exact ⟨mem_snoc hin, hgone, v, verdict?_snoc_of_eq_some hv hin a, hreply⟩
  · exact h.snoc hfile fun id' hid' =>
      ⟨Iff.rfl, rfl, hothers id' fun heq => hown (heq ▸ hid')⟩

theorem deliver_pending (x : Exchange) (letter : Letter) {id' : Nat} :
    id' ∈ (x.deliver id letter).pending ↔ id' ∈ x.pending ∧ id' ≠ id := by
  unfold deliver
  simp

theorem deliver_letters (x : Exchange) (letter : Letter) (id' : Nat) :
    (x.deliver id letter).letters.get? id' = if id' = id then some letter
      else x.letters.get? id' := Table.get?_insert ..

/-- The first word about a filed number goes into its letter box. -/
theorem Tells.deliver (h : x.Tells acts k call s) (hfile : a ≠ .file k) (hid : id ∈ x.pending)
    (hown : a.verdict? k id = some (.answer letter))
    (hothers : ∀ id' ≠ id, a.verdict? k id' = none) :
    (x.deliver id letter).Tells (acts ++ [a]) k call s := by
  have hgone : id ∉ (x.deliver id letter).pending := fun hin => ((deliver_pending ..).1 hin).2 rfl
  have hbox : (x.deliver id letter).letters.get? id = some letter :=
    (deliver_letters ..).trans (if_pos rfl)
  have hanswered : .file k ∈ acts → x.Awaits acts k id →
      (x.deliver id letter).Awaits (acts ++ [a]) k id := by
    rintro hin (⟨_, _, hnone⟩ | ⟨_, hnot, _⟩)
    · refine .inr ⟨letter, hgone, hbox, ?_⟩
      rw [verdict?_snoc hin, hnone, hown]
      rfl
    · exact absurd hid hnot
  by_cases hfiled : s.filed? = some id
  · cases s with
    | cleared => cases hfiled
    | turnedDown => cases hfiled
    | numbered => cases hfiled
    | filed i posted =>
      obtain rfl := Option.some.inj hfiled
      exact ⟨mem_snoc h.1, hanswered h.1 h.2⟩
    | expired i => exact ⟨mem_snoc h.1, verdict?_snoc_of_eq_some h.2 h.1 a⟩
    | done i reply =>
      obtain rfl := Option.some.inj hfiled
      exact absurd hid h.2.1
  · refine h.snoc hfile fun id' hid' => ?_
    have hne : id' ≠ id := fun heq => hfiled (heq ▸ hid')
    refine ⟨?_, ?_, hothers id' hne⟩
    · rw [deliver_pending]
      exact and_iff_left hne
    · rw [deliver_letters, if_neg hne]

/-! ### Each move -/

theorem get?_put (x : Exchange) (k k' : Nat) (s : Stage) :
    (x.put k s).enquiries[k']? =
      (x.enquiries[k']?).map fun e => if k = k' then { e with stage := s } else e := by
  unfold put
  dsimp only
  rw [List.getElem?_modify]
  rfl

theorem get?_put_self {e : Enquiry} (h : x.enquiries[k]? = some e) (s : Stage) :
    (x.put k s).enquiries[k]? = some { e with stage := s } := by
  rw [get?_put, h]
  simp

theorem get?_put_other {k' : Nat} (hne : k' ≠ k) (s : Stage) :
    (x.put k s).enquiries[k']? = x.enquiries[k']? := by
  rw [get?_put]
  simp [Ne.symm hne]

theorem lt_length_of_get? {e : Enquiry} (h : x.enquiries[k]? = some e) :
    k < x.enquiries.length := (List.getElem?_eq_some_iff.1 h).1

/-- A move of the loop that is about no number. -/
theorem Sound.aside (h : x.Sound acts) (henquiries : y.enquiries = x.enquiries)
    (hlast : y.lastId = x.lastId) (hpending : y.pending = x.pending)
    (hletters : y.letters = x.letters) (hfile : ∀ k, a ≠ .file k)
    (hverdict : ∀ k id, a.verdict? k id = none) : y.Sound (acts ++ [a]) where
  drawn k e id := by
    rw [henquiries, hlast]
    exact h.drawn k e id
  distinct k k' e e' id := by
    rw [henquiries]
    exact h.distinct k k' e e' id
  owned id := by
    rw [henquiries, hpending, hletters]
    exact h.owned id
  fresh k hk := by
    rw [henquiries] at hk
    exact not_mem_snoc (h.fresh k hk) (hfile k)
  tells k e hk := by
    rw [henquiries] at hk
    exact (h.tells k e hk).snoc (hfile k) fun id _ =>
      ⟨by rw [hpending], by rw [hletters], hverdict k id⟩

theorem Sound.ask (h : x.Sound acts) (call : Watches.Call) (s : Stage) (hs : s.id? = none)
    (htells : ∀ (y : Exchange) (acts : List Act) k, .file k ∉ acts → y.Tells acts k call s) :
    ({ x with enquiries := x.enquiries ++ [⟨call, s⟩] } : Exchange).Sound
      (acts ++ [Act.ask call]) := by
  have hcases : ∀ k (e : Enquiry), (x.enquiries ++ [⟨call, s⟩])[k]? = some e →
      x.enquiries[k]? = some e ∨ k = x.enquiries.length ∧ e = ⟨call, s⟩ := by
    intro k e hk
    rw [List.getElem?_append] at hk
    split at hk
    · exact .inl hk
    · rename_i hge
      obtain ⟨hlt, heq⟩ := List.getElem?_eq_some_iff.1 hk
      rw [List.length_singleton] at hlt
      have hzero : k - x.enquiries.length = 0 := by omega
      simp only [hzero] at heq
      exact .inr ⟨by omega, heq.symm⟩
  constructor
  · intro k e id hk hid
    rcases hcases k e hk with hk | ⟨_, rfl⟩
    · exact h.drawn k e id hk hid
    · exact nomatch hs.symm.trans hid
  · intro k k' e e' id hk hk' hid hid'
    rcases hcases k e hk with hk | ⟨_, rfl⟩
    · rcases hcases k' e' hk' with hk' | ⟨_, rfl⟩
      · exact h.distinct k k' e e' id hk hk' hid hid'
      · exact nomatch hs.symm.trans hid'
    · exact nomatch hs.symm.trans hid
  · intro id hid
    obtain ⟨k, e, hk, he⟩ := h.owned id hid
    exact ⟨k, e, (List.getElem?_append_left (lt_length_of_get? hk)).trans hk, he⟩
  · intro k hk
    rw [List.length_append] at hk
    exact not_mem_snoc (h.fresh k (by omega)) nofun
  · intro k e hk
    rcases hcases k e hk with hk | ⟨rfl, rfl⟩
    · exact (h.tells k e hk).snoc nofun fun _ _ => ⟨Iff.rfl, rfl, rfl⟩
    · exact htells _ _ _ (not_mem_snoc (h.fresh _ (Nat.le_refl _)) nofun)

/-- A word about a number that is not filed. -/
theorem Sound.late (h : x.Sound acts) (hid : id ∉ x.pending) (hfile : ∀ k, a ≠ .file k)
    (hothers : ∀ k, ∀ id' ≠ id, a.verdict? k id' = none) : x.Sound (acts ++ [a]) where
  drawn := h.drawn
  distinct := h.distinct
  owned := h.owned
  fresh k hk := not_mem_snoc (h.fresh k hk) (hfile k)
  tells k e hk := (h.tells k e hk).late (hfile k) hid (hothers k)

/-- A word about a filed number. -/
theorem Sound.deliver (h : x.Sound acts) (hid : id ∈ x.pending) (hfile : ∀ k, a ≠ .file k)
    (hown : ∀ k, a.verdict? k id = some (.answer letter))
    (hothers : ∀ k, ∀ id' ≠ id, a.verdict? k id' = none) :
    (x.deliver id letter).Sound (acts ++ [a]) where
  drawn := h.drawn
  distinct := h.distinct
  owned id' hid' := by
    refine h.owned id' ?_
    rw [deliver_pending, deliver_letters] at hid'
    by_cases heq : id' = id
    · exact .inl (heq ▸ hid)
    · rw [if_neg heq] at hid'
      exact hid'.imp_left And.left
  fresh k hk := not_mem_snoc (h.fresh k hk) (hfile k)
  tells k e hk := (h.tells k e hk).deliver (hfile k) hid (hown k) (hothers k)

/-- A move of the request number `k` is about its own number, or one that is drawn by it. -/
theorem Sound.put {s' : Stage} (h : x.Sound acts) (hk : x.enquiries[k]? = some ⟨call, s⟩)
    (henquiries : y.enquiries = x.enquiries) (hlast : x.lastId ≤ y.lastId)
    (hid : ∀ id, s'.id? = some id → s.id? = some id ∨ x.lastId < id ∧ id ≤ y.lastId)
    (howned : ∀ id, id ∈ y.pending ∨ (y.letters.get? id).isSome → s'.filed? = some id ∨
      s.filed? ≠ some id ∧ (id ∈ x.pending ∨ (x.letters.get? id).isSome))
    (hsame : ∀ id, s'.id? ≠ some id → (id ∈ y.pending ↔ id ∈ x.pending) ∧
      y.letters.get? id = x.letters.get? id)
    (hothers : ∀ k' ≠ k, a ≠ .file k' ∧ ∀ id, a.verdict? k' id = none)
    (htells : (y.put k s').Tells (acts ++ [a]) k call s') :
    (y.put k s').Sound (acts ++ [a]) := by
  have hcases : ∀ k' (e : Enquiry), (y.put k s').enquiries[k']? = some e →
      k' = k ∧ e = ⟨call, s'⟩ ∨ k' ≠ k ∧ x.enquiries[k']? = some e := by
    intro k' e hk'
    by_cases heq : k' = k
    · subst heq
      rw [get?_put_self (henquiries ▸ hk)] at hk'
      exact .inl ⟨rfl, (Option.some.inj hk').symm⟩
    · rw [get?_put_other heq, henquiries] at hk'
      exact .inr ⟨heq, hk'⟩
  -- A number of another request is neither the one that was drawn nor the one that is.
  have hother : ∀ k' ≠ k, ∀ (e : Enquiry) id, x.enquiries[k']? = some e →
      e.stage.id? = some id → s'.id? ≠ some id := by
    intro k' hne e id hk' hid' heq
    rcases hid id heq with hold | ⟨hnew, _⟩
    · exact hne (h.distinct k' k e _ id hk' hk hid' hold)
    · exact absurd (h.drawn k' e id hk' hid') (Nat.not_le.2 hnew)
  constructor
  · intro k' e id' hk' hid'
    rcases hcases k' e hk' with ⟨rfl, rfl⟩ | ⟨_, hk'⟩
    · rcases hid id' hid' with hold | ⟨_, hnew⟩
      · exact Nat.le_trans (h.drawn _ _ id' hk hold) hlast
      · exact hnew
    · exact Nat.le_trans (h.drawn k' e id' hk' hid') hlast
  · intro k₁ k₂ e₁ e₂ id' hk₁ hk₂ hid₁ hid₂
    rcases hcases k₁ e₁ hk₁ with ⟨rfl, rfl⟩ | ⟨hne₁, hold₁⟩
    · rcases hcases k₂ e₂ hk₂ with ⟨rfl, _⟩ | ⟨hne₂, hold₂⟩
      · rfl
      · exact absurd hid₁ (hother k₂ hne₂ e₂ id' hold₂ hid₂)
    · rcases hcases k₂ e₂ hk₂ with ⟨rfl, rfl⟩ | ⟨_, hold₂⟩
      · exact absurd hid₂ (hother k₁ hne₁ e₁ id' hold₁ hid₁)
      · exact h.distinct k₁ k₂ e₁ e₂ id' hold₁ hold₂ hid₁ hid₂
  · intro id' hid'
    rcases howned id' hid' with hnew | ⟨hnot, hold⟩
    · exact ⟨k, _, get?_put_self (henquiries ▸ hk) s', hnew⟩
    · obtain ⟨k', e, hk', he⟩ := h.owned id' hold
      have hne : k' ≠ k := by
        rintro rfl
        obtain rfl := Option.some.inj (hk'.symm.trans hk)
        exact hnot he
      exact ⟨k', e, (get?_put_other hne s').trans (henquiries ▸ hk'), he⟩
  · intro k' hk'
    have hlength : (y.put k s').enquiries.length = x.enquiries.length := by
      unfold Exchange.put
      rw [List.length_modify, henquiries]
    rw [hlength] at hk'
    have hne : k' ≠ k := Nat.ne_of_gt (Nat.lt_of_lt_of_le (lt_length_of_get? hk) hk')
    exact not_mem_snoc (h.fresh k' hk') (hothers k' hne).1
  · intro k' e hk'
    rcases hcases k' e hk' with ⟨rfl, rfl⟩ | ⟨hne, hk'⟩
    · exact htells
    · refine (h.tells k' e hk').snoc (hothers k' hne).1 fun id' hid' => ?_
      have hfree := hother k' hne e id' hk' (Stage.id?_of_filed? hid')
      exact ⟨(hsame id' hfree).1, (hsame id' hfree).2, (hothers k' hne).2 id'⟩

theorem sound_new (settings : Settings.Provider) : (new settings).Sound [] where
  drawn _ _ _ hk := nomatch hk
  distinct _ _ _ _ _ hk := nomatch hk
  owned _ h := by
    rcases h with h | h
    · cases h
    · cases h
  fresh _ _ := List.not_mem_nil
  tells _ _ hk := nomatch hk

theorem verdict?_hear {text : String} (h : borne? text = some (id, letter)) (k id' : Nat) :
    (Act.hear text).verdict? k id' = if id = id' then some (.answer letter) else none := by
  unfold Act.verdict?
  dsimp only
  rw [h]
  by_cases heq : id = id'
  · simp [heq]
  · simp [heq]

/-- A move of a request that leaves the filed numbers and the letters as they are. -/
theorem Sound.move {s' : Stage} (h : x.Sound acts) (hk : x.enquiries[k]? = some ⟨call, s⟩)
    (hid : s'.id? = s.id?) (hfiled : s'.filed? = s.filed?) (henquiries : y.enquiries = x.enquiries)
    (hlast : y.lastId = x.lastId) (hpending : y.pending = x.pending)
    (hletters : y.letters = x.letters)
    (hothers : ∀ k' ≠ k, a ≠ .file k' ∧ ∀ id, a.verdict? k' id = none)
    (htells : (y.put k s').Tells (acts ++ [a]) k call s') :
    (y.put k s').Sound (acts ++ [a]) := by
  refine h.put hk henquiries (Nat.le_of_eq hlast.symm) (fun id' h' => .inl (hid ▸ h'))
    (fun id' h' => ?_) (fun id' _ => ?_) hothers htells
  · rw [hpending, hletters] at h'
    by_cases hown : s.filed? = some id'
    · exact .inl (hfiled.trans hown)
    · exact .inr ⟨hown, h'⟩
  · rw [hpending, hletters]
    exact ⟨Iff.rfl, rfl⟩

theorem Sound.letters_eq_none (h : x.Sound acts)
    (hk : x.enquiries[k]? = some ⟨call, .numbered id⟩) : x.letters.get? id = none := by
  refine Option.not_isSome_iff_eq_none.1 fun hsome => ?_
  obtain ⟨k', e, hk', he⟩ := h.owned id (.inr hsome)
  obtain rfl := h.distinct k' k e _ id hk' hk (Stage.id?_of_filed? he) rfl
  obtain rfl := Option.some.inj (hk'.symm.trans hk)
  cases he

/-- Every move keeps up what is sound. -/
theorem sound_step (h : x.Sound acts) (hstep : Step x a y) : y.Sound (acts ++ [a]) := by
  cases hstep with
  | ask call =>
    split
    · exact h.ask call .cleared rfl fun _ _ _ hnot => hnot
    · exact h.ask call .turnedDown rfl fun _ _ _ hnot => hnot
  | @number k call hk =>
    have htells : .file k ∉ acts := h.tells k _ hk
    refine h.put (s := .cleared) hk rfl (Nat.le_succ _) (fun id hid => .inr ?_)
      (fun id hid => .inr ⟨nofun, hid⟩) (fun _ _ => ⟨Iff.rfl, rfl⟩)
      (fun _ _ => ⟨nofun, fun _ => rfl⟩) (not_mem_snoc htells nofun)
    obtain rfl := Option.some.inj hid
    exact ⟨Nat.lt_succ_self _, Nat.le_refl _⟩
  | @file k call id hk =>
    have htells : .file k ∉ acts := h.tells k _ hk
    refine h.put (s := .numbered id) hk rfl (Nat.le_refl _) (fun _ hid => .inl hid) ?_ ?_ ?_ ?_
    · rintro id' (hin | hin)
      · rcases List.mem_append.1 hin with hin | hin
        · exact .inr ⟨nofun, .inl hin⟩
        · exact .inl (congrArg some (List.mem_singleton.1 hin).symm)
      · exact .inr ⟨nofun, .inr hin⟩
    · intro id' hne
      have hother : id' ≠ id := fun heq => hne (congrArg some heq.symm)
      exact ⟨by simp [hother], rfl⟩
    · intro k' hne
      exact ⟨fun heq => hne (Act.file.inj heq).symm, fun _ => rfl⟩
    · exact ⟨List.mem_append_right _ (List.mem_singleton.2 rfl), .inl
        ⟨List.mem_append_right _ (List.mem_singleton.2 rfl), h.letters_eq_none hk,
          verdict?_snoc_of_not_mem htells _⟩⟩
  | @post k call id hk hroom =>
    have htells : x.Tells acts k call (.filed id false) := h.tells k _ hk
    exact h.move hk rfl rfl rfl rfl rfl rfl (fun _ _ => ⟨nofun, fun _ => rfl⟩)
      (htells.snoc nofun fun _ _ => ⟨Iff.rfl, rfl, rfl⟩)
  | @collect k call id letter hk hletter =>
    obtain ⟨hin, hawaits⟩ : x.Tells acts k call (.filed id true) := h.tells k _ hk
    refine h.move hk rfl rfl rfl rfl rfl rfl (fun _ _ => ⟨nofun, fun _ => rfl⟩) ?_
    rcases hawaits with ⟨_, hnone, _⟩ | ⟨letter', hgone, hsome, hv⟩
    · exact nomatch hnone.symm.trans hletter
    · obtain rfl := Option.some.inj (hsome.symm.trans hletter)
      exact ⟨mem_snoc hin, hgone, _, verdict?_snoc_of_eq_some hv hin _, rfl⟩
  | @expire k call id hk hletter =>
    obtain ⟨hin, hawaits⟩ : x.Tells acts k call (.filed id true) := h.tells k _ hk
    refine h.move hk rfl rfl rfl rfl rfl rfl (fun k' hne => ⟨nofun, fun _ => ?_⟩) ?_
    · exact if_neg (Ne.symm hne)
    · rcases hawaits with ⟨_, _, hnone⟩ | ⟨_, _, hsome, _⟩
      · refine ⟨mem_snoc hin, ?_⟩
        rw [verdict?_snoc hin, hnone]
        exact if_pos rfl
      · exact nomatch hletter.symm.trans hsome
  | @withdraw k call id hk =>
    obtain ⟨hin, hv⟩ : x.Tells acts k call (.expired id) := h.tells k _ hk
    refine h.put (s := .expired id) hk rfl (Nat.le_refl _) (fun _ hid => .inl hid) ?_ ?_
      (fun _ _ => ⟨nofun, fun _ => rfl⟩) ?_
    · intro id' hid'
      by_cases hown : id = id'
      · exact .inl (congrArg some hown)
      · refine .inr ⟨fun heq => hown (Option.some.inj heq), hid'.imp_left fun hin => ?_⟩
        exact (List.mem_filter.1 hin).1
    · intro id' hne
      have hother : id' ≠ id := fun heq => hne (congrArg some heq.symm)
      exact ⟨by simp [hother], rfl⟩
    · refine ⟨mem_snoc hin, ?_, .timeout, verdict?_snoc_of_eq_some hv hin _, rfl⟩
      show id ∉ x.pending.filter (· != id)
      simp
  | hear text hup =>
    unfold heard
    split
    · rename_i id letter hborne
      have hothers : ∀ k, ∀ id' ≠ id, (Act.hear text).verdict? k id' = none := by
        intro k id' hne
        rw [verdict?_hear hborne, if_neg (Ne.symm hne)]
      split
      · rename_i hin
        exact h.deliver hin nofun (fun k => (verdict?_hear hborne k id).trans (if_pos rfl)) hothers
      · rename_i hnot
        exact h.late hnot nofun hothers
    · rename_i hnone
      refine h.aside rfl rfl rfl rfl nofun fun k id => ?_
      unfold Act.verdict?
      dsimp only
      rw [hnone]
      rfl
  | send hup hqueue => exact h.aside rfl rfl rfl rfl nofun fun _ _ => rfl
  | lose hup => exact h.aside rfl rfl rfl rfl nofun fun _ _ => rfl
  | @fail id owed hdown hin =>
    exact h.deliver hin nofun (fun _ => if_pos rfl) fun _ _ hne => if_neg (Ne.symm hne)
  | discard hdown hqueue => exact h.aside rfl rfl rfl rfl nofun fun _ _ => rfl
  | redial hdown htold => exact h.aside rfl rfl rfl rfl nofun fun _ _ => rfl

/-- Moves keep up what is sound. -/
theorem Sound.run {more : List Act} (h : x.Sound acts) (hrun : Run x more y) :
    y.Sound (acts ++ more) := by
  induction hrun with
  | nil => exact (List.append_nil acts).symm ▸ h
  | snoc _ hstep ih => exact List.append_assoc .. ▸ sound_step ih hstep

theorem sound_run {settings : Settings.Provider} (h : Run (new settings) acts x) :
    x.Sound acts := (sound_new settings).run h

end Exchange

end SwapFloor
