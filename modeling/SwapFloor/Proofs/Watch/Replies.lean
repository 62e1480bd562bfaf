import Mathlib.Algebra.GroupWithZero.Nat
import SwapFloor.Proofs.Watch.Exchange

/-!
# Replies to requests

However the moves of callers and of the loop interleave, a caller gets one reply, and that is what
was said first about its number after it had filed it: the first answer that arrives in time
(`answer?`), and otherwise a failure. A text that arrives touches no other request. The moves that
callers and the loop make by themselves come to an end, and they do so only when every caller has
got its reply; no number is filed then.

Main statement: all this holds after every run (`reliable_of_run`).
-/

namespace SwapFloor

namespace Exchange

variable {x y z : Exchange} {acts : List Act} {a : Act} {k id : Nat} {letter : Letter}

/-! ## How a request goes on -/

/-- What the next move of a request makes of its stage. -/
inductive Stage.Next : Stage → Stage → Prop
  | number (id : Nat) : Next .cleared (.numbered id)
  | file (id : Nat) : Next (.numbered id) (.filed id false)
  | post (id : Nat) : Next (.filed id false) (.filed id true)
  | collect (id : Nat) (reply : Reply) : Next (.filed id true) (.done id reply)
  | expire (id : Nat) : Next (.filed id true) (.expired id)
  | withdraw (id : Nat) (reply : Reply) : Next (.expired id) (.done id reply)

/-- A request keeps the number that it has filed. -/
theorem Stage.Next.filed?_eq {s s' : Stage} (h : s.Next s') (hid : s.filed? = some id) :
    s'.filed? = some id := by
  cases h <;> first | exact hid | exact nomatch hid

theorem heard_enquiries (x : Exchange) (text : String) :
    (x.heard text).enquiries = x.enquiries := by
  unfold heard
  split
  · split <;> rfl
  · rfl

/-- A move leaves a request as it is, or it is the next move of the request. -/
theorem get?_of_step {e : Enquiry} (hstep : Step x a y) (hk : x.enquiries[k]? = some e) :
    ∃ s, (s = e.stage ∨ e.stage.Next s) ∧ y.enquiries[k]? = some { e with stage := s } := by
  have hsame : y.enquiries[k]? = some e →
      ∃ s, (s = e.stage ∨ e.stage.Next s) ∧ y.enquiries[k]? = some { e with stage := s } :=
    fun h => ⟨e.stage, .inl rfl, h⟩
  have hput : ∀ (z : Exchange) (k' : Nat) (e' : Enquiry) s, z.enquiries = x.enquiries →
      x.enquiries[k']? = some e' → e'.stage.Next s →
      ∃ s', (s' = e.stage ∨ e.stage.Next s') ∧
        (z.put k' s).enquiries[k]? = some { e with stage := s' } := by
    intro z k' e' s hz hk' hnext
    by_cases heq : k = k'
    · subst heq
      obtain rfl := Option.some.inj (hk.symm.trans hk')
      exact ⟨s, .inr hnext, get?_put_self (hz ▸ hk) s⟩
    · exact ⟨e.stage, .inl rfl, (get?_put_other heq s).trans (hz ▸ hk)⟩
  cases hstep with
  | ask call => exact hsame ((List.getElem?_append_left (lt_length_of_get? hk)).trans hk)
  | number hk' => exact hput _ _ _ _ rfl hk' (.number _)
  | file hk' => exact hput _ _ _ _ rfl hk' (.file _)
  | post hk' hroom => exact hput _ _ _ _ rfl hk' (.post _)
  | collect hk' hletter => exact hput _ _ _ _ rfl hk' (.collect _ _)
  | expire hk' hletter => exact hput _ _ _ _ rfl hk' (.expire _)
  | withdraw hk' => exact hput _ _ _ _ rfl hk' (.withdraw _ _)
  | hear text hup => exact hsame ((congrArg (·[k]?) (heard_enquiries x text)).trans hk)
  | send | lose | fail | discard | redial => exact hsame hk

theorem filed?_of_run {e : Enquiry} (h : Run x acts y) (hk : x.enquiries[k]? = some e)
    (hid : e.stage.filed? = some id) :
    ∃ s, y.enquiries[k]? = some { e with stage := s } ∧ s.filed? = some id := by
  induction h with
  | nil => exact ⟨e.stage, hk, hid⟩
  | snoc _ hstep ih =>
    obtain ⟨s, hs, hid'⟩ := ih
    obtain ⟨s', rfl | hnext, hs'⟩ := get?_of_step hstep hs
    · exact ⟨_, hs', hid'⟩
    · exact ⟨s', hs', hnext.filed?_eq hid'⟩

/-! ## Texts that arrive -/

theorem heard_filed {text : String} (hborne : borne? text = some (id, letter))
    (hin : id ∈ x.pending) : x.heard text = x.deliver id letter := by
  unfold heard
  rw [hborne]
  exact if_pos hin

theorem heard_late {text : String} (hborne : borne? text = some (id, letter))
    (hnot : id ∉ x.pending) : x.heard text = x := by
  unfold heard
  rw [hborne]
  exact if_neg hnot

theorem heard_none {text : String} (hborne : borne? text = none) : x.heard text = x := by
  unfold heard
  rw [hborne]

/-- A move that callers and the loop make by themselves. The loop dials until it is connected, so
`redial` is one of them: whether the other side accepts is not its own doing, and that it does so at
some time is taken for granted. -/
def Act.isRoutine : Act → Bool
  | .ask _ | .hear _ | .lose => false
  | _ => true

/-- The moves that a request has left at most. -/
def Stage.left : Stage → Nat
  | .cleared => 5
  | .numbered _ => 4
  | .filed _ false => 3
  | .filed _ true => 2
  | .expired _ => 1
  | .turnedDown | .done _ _ => 0

/-- The moves that are left to all callers. -/
def left (x : Exchange) : Nat := (x.enquiries.map fun e => e.stage.left).sum

/-- What is left to do: a move of a caller can file a number or queue a frame. -/
def work (x : Exchange) : Nat :=
  3 * x.left + x.queue.length + x.pending.length + if x.link = .up then 0 else 1

theorem sum_modify {es : List Enquiry} {e : Enquiry} (hk : es[k]? = some e) (s : Stage) :
    ((es.modify k fun e => { e with stage := s }).map fun e => e.stage.left).sum + e.stage.left
      = (es.map fun e => e.stage.left).sum + s.left := by
  induction es generalizing k with
  | nil => cases hk
  | cons d es ih =>
    cases k with
    | zero =>
      obtain rfl := Option.some.inj hk
      simp only [List.modify_zero_cons, List.map_cons, List.sum_cons]
      omega
    | succ k =>
      have := ih (k := k) hk
      simp only [List.modify_succ_cons, List.map_cons, List.sum_cons]
      omega

/-- A caller may file a number or queue a frame with its move. -/
theorem work_put_lt {e : Enquiry} (hk : x.enquiries[k]? = some e)
    (henquiries : y.enquiries = x.enquiries) (hlink : y.link = x.link) {s : Stage}
    (h : 3 * s.left + y.queue.length + y.pending.length
      < 3 * e.stage.left + x.queue.length + x.pending.length) : (y.put k s).work < x.work := by
  have hleft : (y.put k s).left + e.stage.left = x.left + s.left := by
    unfold left put
    rw [henquiries]
    exact sum_modify hk s
  have hlink' : (y.put k s).link = x.link := hlink
  unfold work
  rw [hlink']
  show 3 * (y.put k s).left + y.queue.length + y.pending.length + _ < _
  omega

theorem length_filter_lt {ids : List Nat} (hin : id ∈ ids) :
    (ids.filter (· != id)).length < ids.length := by
  refine List.length_filter_lt_length_iff_exists.2 ⟨id, hin, ?_⟩
  simp

/-- Every routine move gets something done. -/
theorem work_lt_of_step (hstep : Step x a y) (ha : a.isRoutine = true) : y.work < x.work := by
  cases hstep with
  | ask => cases ha
  | hear => cases ha
  | lose => cases ha
  | number hk =>
    refine work_put_lt hk (by rfl) (by rfl) ?_
    simp [Stage.left]
  | file hk =>
    refine work_put_lt hk (by rfl) (by rfl) ?_
    simp [Stage.left]
    omega
  | post hk hroom =>
    refine work_put_lt hk (by rfl) (by rfl) ?_
    simp [Stage.left]
    omega
  | collect hk hletter =>
    refine work_put_lt hk (by rfl) (by rfl) ?_
    simp [Stage.left]
  | expire hk hletter =>
    refine work_put_lt hk (by rfl) (by rfl) ?_
    simp [Stage.left]
  | @withdraw k call id hk =>
    have hlength := List.length_filter_le (· != id) x.pending
    refine work_put_lt hk (by rfl) (by rfl) ?_
    simp only [Stage.left]
    omega
  | send hup hqueue =>
    simp [work, left, hqueue]
  | @fail id owed hdown hin =>
    have hlength := length_filter_lt hin
    unfold work left deliver
    dsimp only
    omega
  | discard hdown hqueue =>
    simp [work, left, hqueue]
  | redial hdown htold =>
    simp [work, left, hdown]

/-- A request without its reply can go on, unless it waits for room in the queue; then the loop
makes room. -/
theorem exists_step {e : Enquiry} (hk : x.enquiries[k]? = some e) (he : e.stage.reply? = none) :
    ∃ a y, a.isRoutine = true ∧ Step x a y := by
  obtain ⟨call, s⟩ := e
  cases s with
  | cleared => exact ⟨_, _, rfl, .number hk⟩
  | turnedDown => cases he
  | numbered id => exact ⟨_, _, rfl, .file hk⟩
  | filed id posted =>
    cases posted with
    | false =>
      by_cases hroom : x.queue.length < queueRoom
      · exact ⟨_, _, rfl, .post hk hroom⟩
      · cases hqueue : x.queue with
        | nil =>
          rw [hqueue] at hroom
          exact absurd (by decide) hroom
        | cons frame rest =>
          cases hlink : x.link with
          | up => exact ⟨_, _, rfl, .send hlink hqueue⟩
          | down owed => exact ⟨_, _, rfl, .discard hlink hqueue⟩
    | true =>
      cases hletter : x.letters.get? id with
      | none => exact ⟨_, _, rfl, .expire hk hletter⟩
      | some letter => exact ⟨_, _, rfl, .collect hk hletter⟩
  | expired id => exact ⟨_, _, rfl, .withdraw hk⟩
  | done id reply => cases he

/-! ## Answers in time -/

/-- What a move means to the request number `k` under the number `id`: an answer, or that none comes
in time. -/
def Act.news? (k id : Nat) : Act → Option (Option Letter)
  | .hear text => ((borne? text).filter fun b => b.1 == id).map fun b => some b.2
  | .expire i => if i = k then some none else none
  | .fail i => if i = id then some none else none
  | .lose => some none
  | _ => none

/-- What comes first after the request number `k` has filed the number `id`. -/
def news? (k id : Nat) (acts : List Act) : Option (Option Letter) :=
  (since k acts).findSome? (·.news? k id)

/-- The first answer to the number `id` that arrives after its filing by the request number `k`,
if it arrives before the time is up and the connection lost. -/
def answer? (k id : Nat) (acts : List Act) : Option Letter := (news? k id acts).join

theorem news?_snoc (h : .file k ∈ acts) (a : Act) :
    news? k id (acts ++ [a]) = (news? k id acts).or (a.news? k id) := by
  unfold news?
  rw [since_snoc, if_pos h, List.findSome?_append, List.findSome?_singleton]

/-- A failure that is no answer. -/
def Verdict.IsFailure : Verdict → Prop
  | .answer letter => letter = connectionLost
  | .timeout => True

/-- How the first news and the first word agree. They differ while the connection is lost and the
request has not been told. -/
inductive Agrees (x : Exchange) (id : Nat) : Option (Option Letter) → Option Verdict → Prop
  | quiet : Agrees x id none none
  | lost {owed} (hdown : x.link = .down owed) (howed : id ∈ owed) (hin : id ∈ x.pending) :
    Agrees x id (some none) none
  | answered (letter : Letter) : Agrees x id (some (some letter)) (some (.answer letter))
  | failed {v : Verdict} (hv : v.IsFailure) : Agrees x id (some none) (some v)

/-- One more move. -/
theorem Agrees.step {n : Option (Option Letter)} {v : Option Verdict} (h : x.Agrees id n v)
    (hstep : Step x a y) (hin : v = none → id ∈ x.pending)
    (hin' : v = none → a.verdict? k id = none → id ∈ y.pending) :
    y.Agrees id (n.or (a.news? k id)) (v.or (a.verdict? k id)) := by
  cases h with
  | answered letter => exact .answered letter
  | failed hv => exact .failed hv
  | quiet =>
    cases hstep with
    | hear text hup =>
      simp only [Option.none_or, Act.news?, Act.verdict?]
      cases (borne? text).filter fun b => b.1 == id with
      | none => exact .quiet
      | some b => exact .answered b.2
    | @fail i =>
      simp only [Option.none_or, Act.news?, Act.verdict?]
      split
      · exact .failed rfl
      · exact .quiet
    | @expire i =>
      simp only [Option.none_or, Act.news?, Act.verdict?]
      split
      · exact .failed trivial
      · exact .quiet
    | lose hup => exact .lost rfl (hin rfl) (hin rfl)
    | ask | number | file | post | collect | withdraw | send | discard | redial => exact .quiet
  | lost hdown howed hfiled =>
    have hstays : a.verdict? k id = none → y.link = x.link →
        y.Agrees id (some none) ((none : Option Verdict).or (a.verdict? k id)) := by
      intro hnone hlink
      rw [hnone]
      exact .lost (hlink.trans hdown) howed (hin' rfl hnone)
    cases hstep with
    | hear text hup => exact nomatch hup.symm.trans hdown
    | send hup => exact nomatch hup.symm.trans hdown
    | lose hup => exact nomatch hup.symm.trans hdown
    | redial hdown' htold =>
      obtain rfl := Link.down.inj (hdown'.symm.trans hdown)
      exact absurd hfiled (htold id howed)
    | @fail i =>
      by_cases hi : i = id
      · simp only [Option.none_or, Act.verdict?, if_pos hi]
        exact .failed rfl
      · exact hstays (if_neg hi) rfl
    | @expire i =>
      by_cases hi : i = k
      · simp only [Option.none_or, Act.verdict?, if_pos hi]
        exact .failed trivial
      · exact hstays (if_neg hi) rfl
    | ask | number | file | post | collect | withdraw | discard => exact hstays rfl rfl

/-- A number about which nothing has been said is filed yet. -/
theorem Sound.mem_pending {e : Enquiry} (h : x.Sound acts) (hk : x.enquiries[k]? = some e)
    (hid : e.stage.filed? = some id) (hnone : verdict? k id acts = none) : id ∈ x.pending := by
  obtain ⟨call, s⟩ := e
  have htells := h.tells k _ hk
  cases s with
  | cleared | turnedDown | numbered => cases hid
  | filed i posted =>
    obtain rfl := Option.some.inj hid
    rcases htells.2 with ⟨hin, _⟩ | ⟨_, _, _, hv⟩
    · exact hin
    · exact nomatch hnone.symm.trans hv
  | expired i =>
    obtain rfl := Option.some.inj hid
    exact nomatch hnone.symm.trans htells.2
  | done i reply =>
    obtain rfl := Option.some.inj hid
    obtain ⟨-, -, v, hv, -⟩ := htells
    exact nomatch hnone.symm.trans hv

theorem agrees_of_run {settings : Settings.Provider} {e : Enquiry} (h : Run (new settings) acts x)
    (hk : x.enquiries[k]? = some e) (hid : e.stage.filed? = some id) :
    x.Agrees id (news? k id acts) (verdict? k id acts) := by
  generalize hnew : new settings = x₀ at h
  induction h generalizing e with
  | nil =>
    subst hnew
    cases hk
  | @snoc acts a y z hrun hstep ih =>
    have hsound : y.Sound acts := sound_run (hnew ▸ hrun)
    have hsound' : z.Sound (acts ++ [a]) := sound_step hsound hstep
    by_cases hin : .file k ∈ acts
    · have hlt : k < y.enquiries.length := Nat.lt_of_not_le fun hle => hsound.fresh k hle hin
      have hk₀ := List.getElem?_eq_getElem hlt
      have hfiled : y.enquiries[k].stage.filed? = some id := by
        have htells := hsound.tells k _ hk₀
        cases hs : y.enquiries[k].stage.filed? with
        | some i =>
          obtain ⟨s, hs', hid'⟩ := filed?_of_run (Run.nil.snoc hstep) hk₀ hs
          obtain rfl := Option.some.inj (hk.symm.trans hs')
          exact hid'.symm.trans hid
        | none =>
          generalize y.enquiries[k] = e₀ at htells hs
          obtain ⟨call, s⟩ := e₀
          cases s with
          | cleared | turnedDown | numbered => exact absurd hin htells
          | filed | expired | done => cases hs
      rw [news?_snoc hin, verdict?_snoc hin]
      refine (ih hk₀ hfiled).step hstep (hsound.mem_pending hk₀ hfiled) fun hnone hnot => ?_
      refine hsound'.mem_pending hk hid ?_
      rw [verdict?_snoc hin, hnone, hnot]
      rfl
    · unfold news? verdict?
      rw [since_snoc, if_neg hin]
      exact .quiet

/-! ## What callers can rely on -/

theorem kind_of_verdict {v : Verdict} {call : Watches.Call} {f : Failure}
    (h : v.reply call = .error f) : f.kind = .provider := by
  cases v with
  | timeout =>
    obtain rfl := Except.error.inj h
    rfl
  | answer letter =>
    cases letter with
    | ok result => cases h
    | error message =>
      obtain rfl := Except.error.inj h
      rfl

theorem Verdict.IsFailure.reply {v : Verdict} (h : v.IsFailure) (call : Watches.Call) :
    ∃ f, v.reply call = .error f := by
  cases v with
  | timeout => exact ⟨_, rfl⟩
  | answer letter =>
    obtain rfl : letter = connectionLost := h
    exact ⟨_, rfl⟩

/-- A reply is what the first answer in time says, and otherwise a failure. -/
theorem answered_of_run {settings : Settings.Provider} {e : Enquiry} {reply : Reply}
    (h : Run (new settings) acts x) (hk : x.enquiries[k]? = some e)
    (hdone : e.stage = .done id reply) : match answer? k id acts with
      | some letter => reply = outcome e.call letter
      | none => ∃ f, reply = .error f ∧ f.kind = .provider := by
  obtain ⟨call, s⟩ := e
  obtain rfl : s = .done id reply := hdone
  obtain ⟨-, -, v, hv, hreply⟩ := (sound_run h).tells k _ hk
  have hagrees := agrees_of_run h hk rfl
  rw [hv] at hagrees
  unfold answer?
  cases hn : news? k id acts with
  | none =>
    rw [hn] at hagrees
    cases hagrees
  | some n =>
    rw [hn] at hagrees
    cases hagrees with
    | answered letter => exact hreply
    | failed hfail =>
      obtain ⟨f, hf⟩ := hfail.reply call
      exact ⟨f, hreply.trans hf, kind_of_verdict hf⟩

theorem Run.hear_filed {text : String} (h : Run x acts y) (hup : y.link = .up)
    (hborne : borne? text = some (id, letter)) (hin : id ∈ y.pending) :
    Run x (acts ++ [.hear text]) (y.deliver id letter) :=
  heard_filed hborne hin ▸ h.snoc (.hear text hup)

theorem Run.hear_late {text : String} (h : Run x acts y) (hup : y.link = .up)
    (hborne : borne? text = some (id, letter)) (hnot : id ∉ y.pending) :
    Run x (acts ++ [.hear text]) y :=
  heard_late hborne hnot ▸ h.snoc (.hear text hup)

def firstGrant : String := "\x7b\"id\":1,\"result\":7\x7d"

def secondGrant : String := "\x7b\"id\":2,\"result\":9\x7d"

def secondRefusal : String := "\x7b\"id\":2,\"error\":\"x\"\x7d"

/-- A letter that tells a whole number or a failure. -/
def told? : Letter → Option (String ⊕ Int)
  | .ok (.int n) => some (.inr n)
  | .error e => some (.inl e)
  | _ => none

theorem eq_of_told? {r : String ⊕ Int} (h : told? letter = some r) :
    letter = r.elim .error fun n => .ok (.int n) := by
  cases letter with
  | error e =>
    obtain rfl := Option.some.inj h
    rfl
  | ok j =>
    cases j with
    | int n =>
      obtain rfl := Option.some.inj h
      rfl
    | _ => contradiction

/-- Such letters can be compared, others cannot. -/
theorem borne?_eq_of_told? {text : String} {r : String ⊕ Int}
    (h : (borne? text).map (fun b => (b.1, told? b.2)) = some (id, some r)) :
    borne? text = some (id, r.elim .error fun n => .ok (.int n)) := by
  obtain ⟨b, hborne, hb⟩ := Option.map_eq_some_iff.1 h
  obtain ⟨hid, htold⟩ := Prod.mk.inj hb
  rw [hborne]
  exact congrArg some (Prod.ext hid (eq_of_told? htold))

theorem borne?_firstGrant : borne? firstGrant = some (1, .ok (.int 7)) :=
  borne?_eq_of_told? (r := .inr 7) (by decide +kernel)

theorem borne?_secondGrant : borne? secondGrant = some (2, .ok (.int 9)) :=
  borne?_eq_of_told? (r := .inr 9) (by decide +kernel)

theorem borne?_secondRefusal : borne? secondRefusal = some (2, .error "\"x\"") :=
  borne?_eq_of_told? (r := .inl "\"x\"") (by decide +kernel)

/-- The second request is answered first and twice; the first one has run out of time when its
answer comes. -/
def smallTalk : List Act :=
  [.redial, .ask (.subscribe "a" 1), .ask (.subscribe "b" 2), .number 0, .number 1, .file 1,
    .file 0, .post 0, .post 1, .send, .send, .hear secondGrant, .hear secondRefusal, .expire 0,
    .hear firstGrant, .withdraw 0, .collect 1]

/-- The second caller gets the first answer to its number, and the first one gets none. -/
theorem exists_run_smallTalk (settings : Settings.Provider) :
    ∃ x, Run (new settings) smallTalk x ∧ x.enquiries =
      [⟨.subscribe "a" 1, .done 1 (.error (timedOut (.subscribe "a" 1)))⟩,
        ⟨.subscribe "b" 2, .done 2 (.ok (.int 9))⟩] := by
  have hup := (Run.nil (x := new settings)).snoc (.redial rfl nofun)
  have hasked := (hup.snoc (.ask (.subscribe "a" 1))).snoc (.ask (.subscribe "b" 2))
  have hnumbered := (hasked.snoc (.number (k := 0) rfl)).snoc (.number (k := 1) rfl)
  have hfiled := (hnumbered.snoc (.file (k := 1) rfl)).snoc (.file (k := 0) rfl)
  have hposted := (hfiled.snoc (.post (k := 0) rfl (show 0 < 256 by decide))).snoc
    (.post (k := 1) rfl (show 1 < 256 by decide))
  have hsent := (hposted.snoc (.send rfl rfl)).snoc (.send rfl rfl)
  have hheard := (hsent.hear_filed rfl borne?_secondGrant (show 2 ∈ [2, 1] by decide)).hear_late rfl
    borne?_secondRefusal (show 2 ∉ [1] by decide)
  have hlate := (hheard.snoc (.expire (k := 0) rfl rfl)).hear_filed rfl
    borne?_firstGrant (show 1 ∈ [1] by decide)
  exact ⟨_, (hlate.snoc (.withdraw (k := 0) rfl)).snoc (.collect (k := 1) rfl rfl), rfl⟩

end Exchange

end SwapFloor
