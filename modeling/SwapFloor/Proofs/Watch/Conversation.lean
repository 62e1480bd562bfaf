import Mathlib.Data.List.Nodup
import SwapFloor.Proofs.Watch.Replies

/-!
# The feed as an exchange

A feed makes several moves of an exchange at once: a call that it sends has drawn its number, filed
it and queued its frame, an answer that it takes in has come to its caller, and so has a loss. Such
moves are some of the interleavings of an exchange, those in which nobody else comes in between.

Main statement: whatever a feed is told, its questions and its frames are those of an exchange
(`exists_run_of_turns`), so that what holds after every run of an exchange holds of the feed.
-/

namespace SwapFloor

namespace Exchange

/-- A move that comes from outside: from the provider or from the network. -/
def Act.isOutside : Act → Bool
  | .hear _ | .lose | .redial => true
  | _ => false

/-- Moves among which those from outside are given. -/
def Moves (x : Exchange) (outer : List Act) (y : Exchange) : Prop :=
  ∃ acts, Run x acts y ∧ acts.filter Act.isOutside = outer

/-- What an exchange and a feed have in common: the frames of all requests have been sent,
and those without a reply are the questions. -/
structure Shows (x : Exchange) (f : Feed) : Prop where
  settings : x.settings = f.settings
  up : x.link = .up ↔ f.isConnected = true
  lastId : x.lastId = f.lastId
  queue : x.queue = []
  sent : x.sent = f.sent
  pending : x.pending = f.questions.map (·.id)
  nodup : x.pending.Nodup
  posted : ∀ q ∈ f.questions, ∃ k : Nat, x.enquiries[k]? = some ⟨q.call, .filed q.id true⟩
  replied : ∀ (k : Nat) (e : Enquiry), x.enquiries[k]? = some e → e.stage.reply? = none →
    ∃ q ∈ f.questions, e = ⟨q.call, .filed q.id true⟩

/-- The request number `k` has got its reply, and its number is filed no longer. -/
structure Closes (x : Exchange) (k id : Nat) (reply : Reply) (y : Exchange) : Prop where
  settings : y.settings = x.settings
  link : y.link = x.link
  lastId : y.lastId = x.lastId
  queue : y.queue = x.queue
  sent : y.sent = x.sent
  pending : y.pending = x.pending.filter (· != id)
  enquiries : y.enquiries = (x.put k (.done id reply)).enquiries

variable {x y z : Exchange} {acts outer outer' : List Act} {k id : Nat} {letter : Letter}
  {f g : Feed} {call : Watches.Call} {reply : Reply}

/-! ## Several moves at once -/

theorem Moves.refl (x : Exchange) : x.Moves [] x := ⟨[], .nil, rfl⟩

theorem Moves.trans (h : x.Moves outer y) (h' : y.Moves outer' z) :
    x.Moves (outer ++ outer') z := by
  obtain ⟨acts, hrun, rfl⟩ := h
  obtain ⟨more, hrun', rfl⟩ := h'
  exact ⟨_, hrun.trans hrun', List.filter_append ..⟩

/-- Moves from inside may follow. -/
theorem Moves.inside (h : x.Moves outer y) (h' : y.Moves [] z) : x.Moves outer z :=
  List.append_nil outer ▸ h.trans h'

theorem Moves.sound (h : x.Moves outer y) (hsound : ∃ acts, x.Sound acts) :
    ∃ acts, y.Sound acts := by
  obtain ⟨more, hrun, -⟩ := h
  obtain ⟨acts, hsound⟩ := hsound
  exact ⟨_, hsound.run hrun⟩

theorem modify_append_last (es : List Enquiry) (e : Enquiry) (g : Enquiry → Enquiry) :
    (es ++ [e]).modify es.length g = es ++ [g e] := by
  induction es with
  | nil => rfl
  | cons d es ih => simp only [List.cons_append, List.length_cons, List.modify_succ_cons, ih]

/-- A request has begun, and its frame has been sent. -/
def asked (x : Exchange) (call : Watches.Call) : Exchange :=
  { x with
    lastId := x.lastId + 1
    pending := x.pending ++ [x.lastId + 1]
    sent := x.sent ++ [Feed.frame x.settings (x.lastId + 1) call]
    enquiries := x.enquiries ++ [⟨call, .filed (x.lastId + 1) true⟩] }

theorem moves_asked (hup : x.link = .up) (hqueue : x.queue = []) (call : Watches.Call) :
    x.Moves [] (x.asked call) := by
  obtain ⟨settings, link, lastId, pending, letters, queue, sent, enquiries⟩ := x
  obtain rfl : link = .up := hup
  obtain rfl : queue = [] := hqueue
  have hlast : ∀ e, (enquiries ++ [e])[enquiries.length]? = some e := fun e =>
    List.getElem?_concat_length
  have hasked := Run.nil.snoc (Step.ask (x := ⟨settings, .up, lastId, pending, letters, [], sent,
    enquiries⟩) call)
  have hnumbered := hasked.snoc (.number (hlast _))
  simp only [put, modify_append_last] at hnumbered
  have hfiled := hnumbered.snoc (.file (hlast _))
  simp only [put, modify_append_last] at hfiled
  have hposted := hfiled.snoc (.post (hlast _) (Nat.zero_lt_succ _))
  simp only [put, modify_append_last] at hposted
  exact ⟨_, hposted.snoc (.send rfl rfl), rfl⟩

/-- A letter is in its box, and the caller takes it. -/
theorem closes_collect (hk : x.enquiries[k]? = some ⟨call, .filed id true⟩) (letter : Letter) :
    ∃ y, Step (x.deliver id letter) (.collect k) y ∧ x.Closes k id (outcome call letter) y :=
  ⟨_, .collect hk ((deliver_letters ..).trans (if_pos rfl)), rfl, rfl, rfl, rfl, rfl, rfl, rfl⟩

/-- A text answers a request. -/
theorem moves_answered {text : String} (hup : x.link = .up)
    (hborne : borne? text = some (id, letter)) (hin : id ∈ x.pending)
    (hk : x.enquiries[k]? = some ⟨call, .filed id true⟩) :
    ∃ y, x.Moves [.hear text] y ∧ x.Closes k id (outcome call letter) y := by
  obtain ⟨y, hstep, hcloses⟩ := closes_collect hk letter
  exact ⟨y, ⟨_, (Run.nil.hear_filed hup hborne hin).snoc hstep, rfl⟩, hcloses⟩

/-- A request is told that the connection is lost. -/
theorem moves_failed {owed : List Nat} (hdown : x.link = .down owed) (hin : id ∈ x.pending)
    (hk : x.enquiries[k]? = some ⟨call, .filed id true⟩) :
    ∃ y, x.Moves [] y ∧ x.Closes k id (outcome call connectionLost) y := by
  obtain ⟨y, hstep, hcloses⟩ := closes_collect hk connectionLost
  exact ⟨y, ⟨_, (Run.nil.snoc (.fail hdown hin)).snoc hstep, rfl⟩, hcloses⟩

theorem Sound.letters_eq_none_of_pending (h : x.Sound acts) (hin : id ∈ x.pending)
    (hk : x.enquiries[k]? = some ⟨call, .filed id true⟩) : x.letters.get? id = none := by
  obtain ⟨-, ⟨_, hnone, _⟩ | ⟨_, hgone, _⟩⟩ : x.Tells acts k call (.filed id true) := h.tells k _ hk
  · exact hnone
  · exact absurd hin hgone

/-- The time of a request is up. -/
theorem moves_expired (h : x.Sound acts) (hin : id ∈ x.pending)
    (hk : x.enquiries[k]? = some ⟨call, .filed id true⟩) :
    ∃ y, x.Moves [] y ∧ x.Closes k id (.error (timedOut call)) y := by
  have hexpired := Run.nil.snoc (.expire hk (h.letters_eq_none_of_pending hin hk))
  refine ⟨_, ⟨_, hexpired.snoc (.withdraw (get?_put_self hk _)), rfl⟩,
    rfl, rfl, rfl, rfl, rfl, rfl, ?_⟩
  simp only [put, List.modify_modify_eq]
  rfl

/-! ## Questions -/

theorem Shows.congr (h : x.Shows f) (hsettings : g.settings = f.settings)
    (hup : g.isConnected = f.isConnected) (hlast : g.lastId = f.lastId) (hsent : g.sent = f.sent)
    (hquestions : g.questions = f.questions) : x.Shows g where
  settings := h.settings.trans hsettings.symm
  up := hup ▸ h.up
  lastId := h.lastId.trans hlast.symm
  queue := h.queue
  sent := h.sent.trans hsent.symm
  pending := hquestions ▸ h.pending
  nodup := h.nodup
  posted := hquestions ▸ h.posted
  replied := hquestions ▸ h.replied

/-- A question whose request has got its reply is a question no longer. -/
theorem Shows.close (h : x.Shows f) (hsound : x.Sound acts)
    (hk : x.enquiries[k]? = some ⟨call, .filed id true⟩) (hcloses : x.Closes k id reply y) :
    y.Shows { f with questions := f.questions.filter fun q => q.id != id } where
  settings := hcloses.settings.trans h.settings
  up := hcloses.link ▸ h.up
  lastId := hcloses.lastId.trans h.lastId
  queue := hcloses.queue.trans h.queue
  sent := hcloses.sent.trans h.sent
  pending := by
    rw [hcloses.pending, h.pending, List.filter_map]
    rfl
  nodup := by
    rw [hcloses.pending]
    exact h.nodup.filter _
  posted q hq := by
    obtain ⟨hq, hne⟩ := List.mem_filter.1 hq
    obtain ⟨k', hk'⟩ := h.posted q hq
    refine ⟨k', ?_⟩
    rw [hcloses.enquiries, get?_put_other, hk']
    rintro rfl
    obtain ⟨-, heq⟩ := Enquiry.mk.inj (Option.some.inj (hk'.symm.trans hk))
    simp [(Stage.filed.inj heq).1] at hne
  replied k' e hk' he := by
    rw [hcloses.enquiries] at hk'
    by_cases heq : k' = k
    · subst heq
      rw [get?_put_self hk] at hk'
      obtain rfl := Option.some.inj hk'
      cases he
    · rw [get?_put_other heq] at hk'
      obtain ⟨q, hq, rfl⟩ := h.replied k' e hk' he
      refine ⟨q, List.mem_filter.2 ⟨hq, ?_⟩, rfl⟩
      refine bne_iff_ne.2 fun hid => heq ?_
      exact hsound.distinct k' k _ _ id hk' hk (congrArg some hid) rfl

/-- No number that is filed has been drawn later. -/
theorem Sound.le_lastId (h : x.Sound acts) (hin : id ∈ x.pending) : id ≤ x.lastId := by
  obtain ⟨k, e, hk, he⟩ := h.owned id (.inl hin)
  exact h.drawn k e id hk (Stage.id?_of_filed? he)

/-- A request that has been sent is one more question. -/
theorem Shows.ask (h : x.Shows f) (hsound : x.Sound acts) (now : Nat) (call : Watches.Call)
    (hup : f.isConnected = true) : (x.asked call).Shows (f.ask now call) := by
  unfold Feed.ask asked
  rw [if_pos hup]
  constructor
  · exact h.settings
  · exact h.up
  · exact congrArg (· + 1) h.lastId
  · exact h.queue
  · simp only [h.sent, h.settings, h.lastId]
  · simp only [h.pending, h.lastId, List.map_append, List.map_cons, List.map_nil]
  · refine List.nodup_append.2 ⟨h.nodup, List.pairwise_singleton _ _, fun id hin id' hin' => ?_⟩
    rw [List.mem_singleton.1 hin']
    exact Nat.ne_of_lt (Nat.lt_succ_of_le (hsound.le_lastId hin))
  · intro q hq
    rcases List.mem_append.1 hq with hq | hq
    · obtain ⟨k, hk⟩ := h.posted q hq
      exact ⟨k, (List.getElem?_append_left (lt_length_of_get? hk)).trans hk⟩
    · obtain rfl := List.mem_singleton.1 hq
      exact ⟨x.enquiries.length, h.lastId ▸ List.getElem?_concat_length⟩
  · intro k e hk he
    rcases List.mem_append.1 (List.mem_of_getElem? hk) with hin | hin
    · obtain ⟨k', hk'⟩ := List.mem_iff_getElem?.1 hin
      obtain ⟨q, hq, rfl⟩ := h.replied k' e hk' he
      exact ⟨q, List.mem_append_left _ hq, rfl⟩
    · obtain rfl := List.mem_singleton.1 hin
      exact ⟨_, List.mem_append_right _ (List.mem_singleton.2 rfl), h.lastId ▸ rfl⟩

/-- Over this link a request can be closed with this reply, by moves from inside. -/
def Closable (link : Link) (reply : Watches.Call → Reply) : Prop :=
  ∀ (x : Exchange) (acts : List Act) (k id : Nat) (call : Watches.Call), x.link = link →
    x.Sound acts → id ∈ x.pending → x.enquiries[k]? = some ⟨call, .filed id true⟩ →
    ∃ y, x.Moves [] y ∧ x.Closes k id (reply call) y

theorem closable_expired (link : Link) : Closable link fun call => .error (timedOut call) :=
  fun _ _ _ _ _ _ hsound hin hk => moves_expired hsound hin hk

theorem closable_failed (owed : List Nat) :
    Closable (.down owed) fun call => outcome call connectionLost :=
  fun _ _ _ _ _ hdown _ hin hk => moves_failed hdown hin hk

/-- Several questions are closed one after the other. -/
theorem Shows.closeAll {link : Link} {reply : Watches.Call → Reply}
    (hlink : Closable link reply) (hx : x.link = link)
    (hsound : ∃ acts, x.Sound acts) (h : x.Shows f) (qs : List Feed.Question)
    (hsub : qs ⊆ f.questions) (hnodup : (qs.map (·.id)).Nodup) :
    ∃ y, x.Moves [] y ∧ y.Shows { f with
      questions := f.questions.filter fun q => q.id ∉ qs.map (·.id) } := by
  induction qs generalizing x f with
  | nil =>
    refine ⟨x, .refl x, h.congr rfl rfl rfl rfl ?_⟩
    simp
  | cons q qs ih =>
    have hq := hsub List.mem_cons_self
    have hin : q.id ∈ x.pending := by
      rw [h.pending]
      exact List.mem_map_of_mem hq
    obtain ⟨acts, hacts⟩ := hsound
    obtain ⟨k, hk⟩ := h.posted q hq
    obtain ⟨y, hmoves, hcloses⟩ := hlink x acts k q.id q.call hx hacts hin hk
    rw [List.map_cons, List.nodup_cons] at hnodup
    have hrest : qs ⊆ f.questions.filter fun q' => q'.id != q.id := by
      intro q' hq'
      refine List.mem_filter.2 ⟨hsub (List.mem_cons_of_mem _ hq'), bne_iff_ne.2 fun heq => ?_⟩
      exact hnodup.1 (heq ▸ List.mem_map_of_mem hq')
    obtain ⟨z, hmoves', hshows⟩ := ih (hcloses.link.trans hx) (hmoves.sound ⟨acts, hacts⟩)
      (h.close hacts hk hcloses) hrest hnodup.2
    refine ⟨z, hmoves.inside hmoves', hshows.congr rfl rfl rfl rfl ?_⟩
    rw [List.filter_filter]
    refine List.filter_congr fun q' _ => Bool.eq_iff_iff.2 ?_
    simp [and_comm]

/-- The questions that satisfy a condition are closed. -/
theorem Shows.closeWhere {link : Link} {reply : Watches.Call → Reply}
    (hlink : Closable link reply) (hx : x.link = link)
    (hsound : ∃ acts, x.Sound acts) (h : x.Shows f) (p : Feed.Question → Bool) :
    ∃ y, x.Moves [] y ∧ y.Shows { f with questions := f.questions.filter fun q => !p q } := by
  have hids : (f.questions.map (·.id)).Nodup := h.pending ▸ h.nodup
  obtain ⟨y, hmoves, hshows⟩ := h.closeAll hlink hx hsound (f.questions.filter p)
    List.filter_sublist.subset (hids.sublist (List.filter_sublist.map _))
  refine ⟨y, hmoves, hshows.congr rfl rfl rfl rfl (List.filter_congr fun q hq => ?_)⟩
  have hmem : q.id ∈ (f.questions.filter p).map (·.id) ↔ p q = true := by
    rw [List.mem_map]
    constructor
    · rintro ⟨q', hq', heq⟩
      obtain ⟨hq', hp⟩ := List.mem_filter.1 hq'
      exact List.inj_on_of_nodup_map hids hq' hq heq ▸ hp
    · exact fun hp => ⟨q, List.mem_filter.2 ⟨hq, hp⟩, rfl⟩
  cases hp : p q <;> simp [hmem, hp]

/-! ## What a feed is told -/

/-- An exchange and a feed at rest: without a connection there are no questions. -/
structure Rests (x : Exchange) (f : Feed) : Prop extends x.Shows f where
  sound : ∃ acts, x.Sound acts
  quiet : f.isConnected = false → f.questions = []

theorem Rests.congr (h : x.Rests f) (hsettings : g.settings = f.settings)
    (hup : g.isConnected = f.isConnected) (hlast : g.lastId = f.lastId) (hsent : g.sent = f.sent)
    (hquestions : g.questions = f.questions) : x.Rests g where
  toShows := h.toShows.congr hsettings hup hlast hsent hquestions
  sound := h.sound
  quiet hdown := hquestions.trans (h.quiet (hup.symm.trans hdown))

theorem rests_new (settings : Settings.Provider) (capacity : Nat) :
    (new settings).Rests (.new settings capacity) where
  settings := rfl
  up := iff_of_false nofun Bool.false_ne_true
  lastId := rfl
  queue := rfl
  sent := rfl
  pending := rfl
  nodup := List.nodup_nil
  posted := nofun
  replied _ _ hk := nomatch hk
  sound := ⟨[], sound_new settings⟩
  quiet _ := rfl

theorem Rests.conclude (h : x.Rests f) (call : Watches.Call) (result : Option SubscriptionId)
    (now : Nat) : x.Rests (f.conclude call result now).1 := by
  cases call <;> exact h.congr rfl rfl rfl rfl rfl

theorem Rests.ask (h : x.Rests f) (now : Nat) (call : Watches.Call) :
    ∃ y, x.Moves [] y ∧ y.Rests (f.ask now call) := by
  by_cases hup : f.isConnected = true
  · obtain ⟨acts, hsound⟩ := h.sound
    have hmoves := moves_asked (h.up.2 hup) h.queue call
    refine ⟨_, hmoves, h.toShows.ask hsound now call hup, hmoves.sound ⟨acts, hsound⟩, ?_⟩
    intro hdown
    unfold Feed.ask at hdown
    rw [if_pos hup] at hdown
    exact nomatch hup.symm.trans hdown
  · rw [Feed.ask_disconnected (Bool.eq_false_iff.2 hup)]
    exact ⟨x, .refl x, h.conclude call none now⟩

theorem Rests.asks (h : x.Rests f) (calls : List Watches.Call) (now : Nat) :
    ∃ y, x.Moves [] y ∧ y.Rests (calls.foldl (fun f call => f.ask now call) f) := by
  induction calls generalizing x f with
  | nil => exact ⟨x, .refl x, h⟩
  | cons call calls ih =>
    obtain ⟨y, hmoves, hrests⟩ := h.ask now call
    obtain ⟨z, hmoves', hrests'⟩ := ih hrests
    exact ⟨z, hmoves.inside hmoves', hrests'⟩

theorem Rests.watching (h : x.Rests f) (now : Nat)
    (change : Watches → Watches × List Watches.Call) :
    ∃ y, x.Moves [] y ∧ y.Rests (f.watching now change) := by
  have hwatches : x.Rests { f with watches := (change f.watches).1 } :=
    h.congr rfl rfl rfl rfl rfl
  exact hwatches.asks (change f.watches).2 now

/-- When calls fail, only the watches change. -/
theorem fails_eq (qs : List Feed.Question) (f : Feed) (now : Nat) :
    qs.foldl (fun f q => f.fail q.call now) f =
      { f with watches := (qs.foldl (fun f q => f.fail q.call now) f).watches } := by
  have hfail : ∀ (f : Feed) call,
      f.fail call now = { f with watches := (f.fail call now).watches } := by
    intro f call
    cases call <;> rfl
  induction qs generalizing f with
  | nil => rfl
  | cons q qs ih =>
    rw [List.foldl_cons, ih, hfail]

theorem failWhere_eq (f : Feed) (now : Nat) (p : Feed.Question → Bool) :
    f.failWhere now p = { f with
      questions := f.questions.filter fun q => !p q
      watches := (f.failWhere now p).watches } := fails_eq ..

theorem Rests.tick (h : x.Rests f) (now : Nat) :
    ∃ y, x.Moves [] y ∧ y.Rests (f.tick now) := by
  obtain ⟨y, hmoves, hshows⟩ :=
    h.toShows.closeWhere (closable_expired _) rfl h.sound (·.dueAt ≤ now)
  refine ⟨y, hmoves, ?_⟩
  have hfailed : y.Rests (f.failWhere now (·.dueAt ≤ now)) := by
    rw [failWhere_eq]
    refine ⟨hshows.congr rfl rfl rfl rfl rfl, hmoves.sound h.sound, fun hdown => ?_⟩
    show f.questions.filter _ = []
    rw [h.quiet hdown]
    rfl
  unfold Feed.tick
  dsimp only
  split
  · rename_i hlink
    split
    · refine hfailed.congr rfl ?_ rfl rfl rfl
      unfold Feed.isConnected
      rw [hlink]
      rfl
    · exact hfailed
  · exact hfailed

theorem Rests.lose (h : x.Rests f) (now : Nat) :
    ∃ y, x.Moves (if f.isConnected then [.lose] else []) y ∧ y.Rests (f.lose now) := by
  unfold Feed.lose
  split
  · rename_i hup
    have hlost : x.Moves [.lose] { x with link := .down x.pending } :=
      ⟨_, Run.nil.snoc (.lose (h.up.2 hup)), rfl⟩
    have hdown : ({ x with link := .down x.pending } : Exchange).Shows
        { f with link := .waiting now } :=
      { h.toShows with up := iff_of_false nofun Bool.false_ne_true }
    obtain ⟨y, hmoves, hshows⟩ :=
      hdown.closeWhere (closable_failed _) rfl (hlost.sound h.sound) fun _ => true
    have hall := hlost.inside hmoves
    rw [failWhere_eq]
    refine ⟨y, hall, hshows.congr rfl rfl rfl rfl rfl, hall.sound h.sound, fun _ => ?_⟩
    exact List.filter_eq_nil_iff.2 fun _ _ => Bool.false_ne_true
  · exact ⟨x, .refl x, h⟩

theorem Rests.stop (h : x.Rests f) (now : Nat) :
    ∃ y, x.Moves (if f.isConnected then [.lose] else []) y ∧ y.Rests (f.stop now) := by
  have hending : x.Rests { f with isEnding := true } := h.congr rfl rfl rfl rfl rfl
  obtain ⟨settings, link, isEnding, waitMs, lastId, questions, watches, sent, notices, capacity⟩ :=
    f
  cases link with
  | connected =>
    obtain ⟨y, hmoves, hrests⟩ := hending.lose now
    exact ⟨y, hmoves, hrests.congr rfl rfl rfl rfl rfl⟩
  | waiting dueAt => exact ⟨x, .refl x, hending.congr rfl rfl rfl rfl rfl⟩
  | dialing => exact ⟨x, .refl x, hending⟩
  | ended => exact ⟨x, .refl x, hending⟩

theorem isConnected_of_ne {link : Feed.Link} (hlink : f.link = link) (hne : link ≠ .connected) :
    f.isConnected = false := decide_eq_false (hlink ▸ hne)

theorem Rests.accept (h : x.Rests f) (now : Nat) :
    ∃ y, x.Moves (if f.link = .dialing ∧ f.isEnding = false then [.redial] else []) y ∧
      y.Rests (f.accept now) := by
  unfold Feed.accept
  by_cases hlink : f.link = .dialing
  · have hdown := isConnected_of_ne hlink nofun
    rw [if_pos hlink]
    cases hending : f.isEnding with
    | true =>
      rw [if_neg (by simp), if_pos rfl]
      exact ⟨x, .refl x, h.congr rfl hdown.symm rfl rfl rfl⟩
    | false =>
      rw [if_pos ⟨hlink, rfl⟩, if_neg Bool.false_ne_true]
      cases howed : x.link with
      | up => exact nomatch hdown.symm.trans (h.up.1 howed)
      | down owed =>
        have hnone : x.pending = [] := by
          rw [h.pending, h.quiet hdown]
          rfl
        have hmade : x.Moves [.redial] { x with link := .up } := by
          refine ⟨_, Run.nil.snoc (.redial howed fun id _ => ?_), rfl⟩
          rw [hnone]
          exact List.not_mem_nil
        have hup : ({ x with link := .up } : Exchange).Rests
            { f with link := .connected, waitMs := f.settings.retryBaseMs } :=
          { h with
            up := iff_of_true rfl rfl
            sound := hmade.sound h.sound
            quiet := nofun }
        obtain ⟨y, hmoves, hrests⟩ := hup.watching now fun w => w.resubscribeAll now
        rw [hending] at hrests
        exact ⟨y, hmade.inside hmoves, hrests⟩
  · rw [if_neg hlink, if_neg fun hand => hlink hand.1]
    exact ⟨x, .refl x, h⟩

/-- A text that bears a number is an answer. -/
theorem hear_of_borne? {text : String} (hborne : borne? text = some (id, letter)) (f : Feed)
    (now : Nat) : ∃ answer, letter = letterOf answer ∧
      f.hear text now = f.answered id answer now := by
  unfold borne? at hborne
  unfold Feed.hear
  cases hparse : Json.parse? text with
  | none =>
    rw [hparse] at hborne
    cases hborne
  | some j =>
    rw [hparse] at hborne
    cases hid : Feed.uint64? (j.canonical.field "id") with
    | none =>
      simp [hid] at hborne
    | some i =>
      simp only [Option.bind_eq_bind, Option.bind_some, hid, Option.pure_def, Option.some.injEq,
        Prod.mk.injEq] at hborne
      obtain ⟨rfl, rfl⟩ := hborne
      refine ⟨j.canonical, rfl, ?_⟩
      dsimp only
      rw [hid]

/-- Any other text is a notice or nothing. -/
theorem hear_of_not_borne {text : String} (hborne : borne? text = none) (f : Feed) (now : Nat) :
    f.hear text now = { f with notices := (f.hear text now).notices } := by
  unfold borne? at hborne
  unfold Feed.hear
  cases hparse : Json.parse? text with
  | none => rfl
  | some j =>
    rw [hparse] at hborne
    cases hid : Feed.uint64? (j.canonical.field "id") with
    | some i => simp [hid] at hborne
    | none =>
      dsimp only
      rw [hid]
      dsimp only
      split
      · unfold Feed.keep
        split <;> rfl
      · rfl

theorem Rests.hear (h : x.Rests f) (text : String) (now : Nat) (hup : f.isConnected = true) :
    ∃ y, x.Moves [.hear text] y ∧ y.Rests (f.hear text now) := by
  have hheard : x.Moves [.hear text] (x.heard text) :=
    ⟨_, Run.nil.snoc (.hear text (h.up.2 hup)), rfl⟩
  cases hborne : borne? text with
  | none =>
    rw [heard_none hborne] at hheard
    rw [hear_of_not_borne hborne]
    exact ⟨x, hheard, h.congr rfl rfl rfl rfl rfl⟩
  | some b =>
    obtain ⟨id, letter⟩ := b
    obtain ⟨answer, rfl, heq⟩ := hear_of_borne? hborne f now
    rw [heq]
    unfold Feed.answered
    cases hfind : f.questions.find? (·.id == id) with
    | none =>
      have hnot : id ∉ x.pending := by
        rw [h.pending, List.mem_map]
        rintro ⟨q, hq, rfl⟩
        exact absurd (List.find?_eq_none.1 hfind q hq) (by simp)
      rw [heard_late hborne hnot] at hheard
      exact ⟨x, hheard, h⟩
    | some q =>
      have hq := List.mem_of_find?_eq_some hfind
      have hid : q.id = id := by simpa using List.find?_some hfind
      subst hid
      have hin : q.id ∈ x.pending := by
        rw [h.pending]
        exact List.mem_map_of_mem hq
      obtain ⟨acts, hsound⟩ := h.sound
      obtain ⟨k, hk⟩ := h.posted q hq
      obtain ⟨y, hmoves, hcloses⟩ := moves_answered (h.up.2 hup) hborne hin hk
      have hclosed : y.Rests { f with questions := f.questions.filter fun q' => q'.id != q.id } :=
        { h.toShows.close hsound hk hcloses with
          sound := hmoves.sound h.sound
          quiet := fun hdown => nomatch hup.symm.trans hdown }
      have hconcluded := hclosed.conclude q.call (Feed.granted? answer) now
      obtain ⟨z, hmoves', hrests⟩ := hconcluded.asks _ now
      exact ⟨z, hmoves.inside hmoves', hrests⟩

/-- What a feed is told, and which of its moves come from outside. Texts arrive over a
connection. -/
inductive Turn (f : Feed) : List Act → Feed → Prop
  | watching (now : Nat) (change : Watches → Watches × List Watches.Call) :
    Turn f [] (f.watching now change)
  | hear (text : String) (now : Nat) (hup : f.isConnected = true) :
    Turn f [.hear text] (f.hear text now)
  | accept (now : Nat) :
    Turn f (if f.link = .dialing ∧ f.isEnding = false then [.redial] else []) (f.accept now)
  | lose (now : Nat) : Turn f (if f.isConnected then [.lose] else []) (f.lose now)
  | tick (now : Nat) : Turn f [] (f.tick now)
  | stop (now : Nat) : Turn f (if f.isConnected then [.lose] else []) (f.stop now)

/-- Turns, one after the other. -/
inductive Turns (f : Feed) : List Act → Feed → Prop
  | nil : Turns f [] f
  | snoc {outer outer' : List Act} {g g' : Feed} (h : Turns f outer g) (hturn : Turn g outer' g') :
    Turns f (outer ++ outer') g'

/-- A turn of the feed is several moves of the exchange. -/
theorem Rests.turn (h : x.Rests f) (hturn : Turn f outer g) :
    ∃ y, x.Moves outer y ∧ y.Rests g := by
  cases hturn with
  | watching now change => exact h.watching now change
  | hear text now hup => exact h.hear text now hup
  | accept now => exact h.accept now
  | lose now => exact h.lose now
  | tick now => exact h.tick now
  | stop now => exact h.stop now

/-- So the feed has got where an exchange can get. -/
theorem Rests.turns (h : x.Rests f) (hturns : Turns f outer g) :
    ∃ y, x.Moves outer y ∧ y.Rests g := by
  induction hturns with
  | nil => exact ⟨x, .refl x, h⟩
  | snoc _ hturn ih =>
    obtain ⟨y, hmoves, hrests⟩ := ih
    obtain ⟨z, hmoves', hrests'⟩ := hrests.turn hturn
    exact ⟨z, hmoves.trans hmoves', hrests'⟩

/-- Whatever a feed is told, an exchange is told the same in some run, and comes to rest with it. -/
theorem exists_run_of_turns {settings : Settings.Provider} {capacity : Nat}
    (h : Turns (.new settings capacity) outer f) : ∃ acts x, Run (new settings) acts x ∧
      acts.filter Act.isOutside = outer ∧ x.Rests f := by
  obtain ⟨x, ⟨acts, hrun, houter⟩, hrests⟩ := (rests_new settings capacity).turns h
  exact ⟨acts, x, hrun, houter, hrests⟩

end Exchange

end SwapFloor
