import SwapFloor.Proofs.Service.Runs
import SwapFloor.Proofs.Service.Shift
import SwapFloor.Proofs.Watch.Keeping

/-!
# The address under which a transaction was seen

A notice tells over which subscription it came, and the trade should tell which address that was.
The address is looked up only when the notice is taken in, after it has waited in the queue and its
transaction has been looked up. In the meantime other rooms come and go and the provider answers,
and none of this takes the subscription from an address that is watched (`turn_errand`). When all
addresses start over, though, their subscriptions are forgotten, also those over which the notices
under way have come.

Main statements: unless all have started over in the meantime, the trade has the address and is
published to the room that watches it (`tracked_of_run`); if they have, it may have none
(`not_tracked_restarting`).
-/

namespace SwapFloor

namespace Service

variable {s s' : Service} {room wallet : String}

/-! ## What errands do with what is watched -/

theorem announceUpdate_watches (s : Service) (room : String) :
    (s.announceUpdate room).watches = s.watches := by
  unfold announceUpdate
  split <;> rfl

theorem joinRoom_watches {password : Option String} {j : Lobby.Joined}
    (h : s.joinRoom room wallet password = .ok (s', j)) : s'.watches = s.watches := by
  obtain ⟨l, s₁, _, hside, rfl⟩ := joinRoom_eq h
  have hsame : s₁.watches = s.watches := hside.watches
  rw [announceUpdate_watches]
  split <;> exact hsame

theorem leaveRoom_watches {left : Option Member} (h : s.leaveRoom room wallet = .ok (s', left)) :
    s'.watches = s.watches := by
  obtain ⟨l, _, heq⟩ := leaveRoom_eq h
  cases left with
  | none =>
    dsimp only at heq
    rw [heq]
  | some m =>
    dsimp only at heq
    rw [heq, announceUpdate_watches, announce_watches]
    rfl

theorem openSocket_watches (s : Service) (room wallet : String) (password : Option String) :
    (s.openSocket room wallet password).1.watches = s.watches := by
  have hsame : (s.withConnection room wallet).watches = s.watches := rfl
  rcases openSocket_eq s room wallet password with ⟨j, hj⟩ | ⟨f, hf⟩
  · exact (joinRoom_watches hj).trans hsame
  · rw [hf]
    rfl

theorem answerPing_watches (s : Service) (id : ConnectionId) (k : Socket) :
    (s.answerPing id k).watches = s.watches := by
  unfold answerPing
  dsimp only
  split <;> rfl

theorem fulfil_watches {id : ConnectionId} {k : Socket} {q : Request}
    (h : s.fulfil id k q = .ok s') : s'.watches = s.watches := by
  cases q with
  | join password =>
    obtain ⟨j, hj⟩ := exists_of_map_fst h
    exact joinRoom_watches hj
  | leave =>
    obtain ⟨left, hl⟩ := exists_of_map_fst h
    exact leaveRoom_watches hl
  | share url infoType metadata =>
    obtain ⟨x, hx⟩ := exists_of_map_fst h
    obtain ⟨_, _, rfl⟩ := share_eq hx
    rfl
  | ping =>
    cases h
    exact answerPing_watches s id k

theorem receive_watches (s : Service) (id : ConnectionId) (m : Incoming) :
    (s.receive id m).watches = s.watches := by
  unfold receive
  split
  · rfl
  · rename_i k _
    cases m with
    | text t =>
      show (s.receiveText id k t).watches = s.watches
      unfold receiveText
      split
      · rfl
      · split
        · rename_i hf
          exact fulfil_watches hf
        · rfl
    | binary | ping | close => rfl

theorem flushSocket_watches (s : Service) (id : ConnectionId) :
    (s.flushSocket id).1.watches = s.watches := by
  unfold flushSocket
  split
  · rfl
  · dsimp only
    split <;> rfl

theorem advance_watches (s : Service) (ms : Nat) : (s.advance ms).watches = s.watches := rfl

/-- A room that is closed turns away from its token. -/
theorem finishRoom_watches (s : Service) (r : Room) :
    (s.finishRoom r).watches = s.watches.letGo (r.token.toList.map fun token => (token, r.id)) := by
  unfold finishRoom unwatchToken
  cases hr : r.token <;> rfl

theorem finishRooms_watches (rooms : List Room) (s : Service) :
    ∃ gone, (rooms.foldl finishRoom s).watches = s.watches.letGo gone := by
  induction rooms generalizing s with
  | nil => exact ⟨[], rfl⟩
  | cons r rooms ih =>
    obtain ⟨gone, hrest⟩ := ih (s.finishRoom r)
    refine ⟨(r.token.toList.map fun token => (token, r.id)) ++ gone, hrest.trans ?_⟩
    rw [finishRoom_watches]
    unfold Watches.letGo
    rw [List.foldl_append]

theorem turn_createRoom {q : RoomRequest} {r : Room} (h : s.createRoom q = .ok (s', r)) :
    s.watches.Turn s'.watches := by
  obtain ⟨_, _, s₁, _, hside, rfl⟩ := createRoom_eq h
  have hsame : s₁.watches = s.watches := hside.watches
  rw [← hsame]
  unfold watchToken
  split
  · rename_i token _
    exact .act (.use (.acquire token (some r.id)) s₁.elapsedMs)
  · exact .refl _

/-- Whatever an errand does with what is watched is one act, or some rooms turn away. -/
theorem turn_errand (h : Errand s s') : s.watches.Turn s'.watches := by
  cases h with
  | create h => exact turn_createRoom h
  | join h => exact .of_eq (joinRoom_watches h)
  | leave h => exact .of_eq (leaveRoom_watches h)
  | @close _ _ _ r h =>
    obtain ⟨l, _, rfl⟩ := closeRoom_eq h
    rw [finishRoom_watches]
    exact .letGo _
  | share h =>
    obtain ⟨_, _, rfl⟩ := share_eq h
    exact .refl _
  | reap h =>
    unfold reapRoomsAt at h
    split at h
    · cases h
    · rename_i l closed _
      cases h
      obtain ⟨gone, hgone⟩ := finishRooms_watches closed { s with lobby := l }
      show s.watches.Turn (closed.foldl finishRoom { s with lobby := l }).watches
      rw [hgone]
      exact .letGo gone
  | connect => exact .of_eq (openSocket_watches ..)
  | receive id m => exact .of_eq (receive_watches s id m)
  | flush id => exact .of_eq (flushSocket_watches s id)
  | complete address epoch result at_ => exact .act (.complete address epoch result at_)
  | retry => exact .act (.retry s.elapsedMs)
  | resubscribe => exact .act (.resubscribe s.elapsedMs)
  | aside h => exact .of_eq h.watches
  | send | abandon | disconnect | prune | sweep | rank | advance | setClock => exact .refl _

/-! ## What trades do with what is watched -/

theorem processTrade_watches {t : Trade} {o : Outcome} (h : s.processTrade t = (s', .ok o)) :
    s'.watches = s.watches := by
  cases hseen : s.seen.isSeen t.signature s.elapsedMs with
  | true =>
    obtain ⟨rfl, _⟩ := Prod.mk.inj ((processTrade_seen hseen).symm.trans h)
    rfl
  | false =>
    obtain ⟨_, s₁, hall, rfl⟩ := processTrade_unseen hseen h
    obtain ⟨_, _, heq⟩ := publishAll_eq (s.marked t) t (s.watches.roomsWatchingAny t.routingKeys)
    have hs₁ : s₁ = _ := (congrArg Prod.fst hall).symm.trans heq
    rw [hs₁]
    rfl

/-- Standings and seats stay, and so does all that is watched. -/
structure Undisturbed (s s' : Service) : Prop where
  calm : Calm s s'
  watches : s'.watches = s.watches

theorem undisturbed_of_aside (h : Aside s s') : Undisturbed s s' := ⟨.of_aside h, h.watches⟩

theorem Became.undisturbed {t? : Option Trade} {o : Outcome} (h : s.Became t? s' o) :
    Undisturbed s s' := by
  cases t? with
  | some t => exact ⟨calm_processTrade h, processTrade_watches h⟩
  | none =>
    obtain ⟨_, rfl⟩ := h
    exact undisturbed_of_aside (aside_countOutcome s _)

/-! ## What happens beside the worker -/

/-- An errand while something goes on to hold. The provider grants no subscription that another
address holds. -/
structure Beside (P : Service → Prop) (s s' : Service) : Prop where
  errand : Errand s s'
  undisputed : s.watches.Undisputed s'.watches
  holds : P s'

/-- The parts of the service agree, and so do what is watched and its subscriptions. -/
structure Attentive (s : Service) : Prop where
  sound : s.Sound
  matched : s.watches.Matched

theorem attentive_new (settings : Settings) {draws : Draws} (hd : Function.Injective draws.id)
    (looksUp : Bool) (startedAt : Instant) : (new settings draws looksUp startedAt).Attentive :=
  ⟨sound_new settings hd looksUp startedAt, Watches.matched_new _⟩

variable {P : Service → Prop}

theorem Undisturbed.attentive (h : Undisturbed s s') (hs : s.Attentive) : s'.Attentive :=
  ⟨h.calm.sound hs.sound, h.watches ▸ hs.matched⟩

theorem Beside.attentive (h : Beside P s s') (hs : s.Attentive) : s'.Attentive :=
  ⟨sound_errand hs.sound h.errand, (turn_errand h.errand).matched h.undisputed hs.matched⟩

end Service

namespace Shift

open Service

variable {P : Service → Prop} {sh sh' sh'' : Shift} {k : Nat} {a room : String}
  {id : SubscriptionId}

/-- A step of a shift leaves what is watched alone, or it is one beside the worker. -/
theorem Step.undisturbed_or {beside : Service → Service → Prop} (h : Step beside sh k sh') :
    Undisturbed sh.service sh'.service ∨
      ∃ s', beside sh.service s' ∧ sh' = { sh with service := s' } := by
  cases h with
  | submit j => exact Or.inl (undisturbed_of_aside (aside_submit sh.service j))
  | start =>
    unfold startWorker
    split
    · exact Or.inl (undisturbed_of_aside { Aside.refl _ with })
    · exact Or.inl (undisturbed_of_aside (.refl _))
  | takeBatch _ _ h =>
    obtain ⟨_, _, rfl⟩ := takeJob?_eq_some h
    exact Or.inl (undisturbed_of_aside { Aside.refl _ with })
  | takeNotice lookUpMs _ _ h =>
    obtain ⟨rest, _, rfl⟩ := takeJob?_eq_some h
    have htaken : Aside sh.service
        { sh.service with intake := { sh.service.intake with jobs := rest } } :=
      { Aside.refl _ with }
    exact Or.inl (undisturbed_of_aside (htaken.trans (aside_beginLookup ..)))
  | record _ h => exact Or.inl (became_of_processRecord h).undisturbed
  | answer => exact Or.inl (undisturbed_of_aside { Aside.refl _ with })
  | takeIn _ _ _ h => exact Or.inl (became_of_completeNotice h).undisturbed
  | beside h => exact Or.inr ⟨_, h, rfl⟩

theorem attentive_step (hs : sh.service.Attentive) (h : Step (Beside P) sh k sh') :
    sh'.service.Attentive := by
  obtain hu | ⟨s', hb, rfl⟩ := h.undisturbed_or
  · exact hu.attentive hs
  · exact hb.attentive hs

theorem attentive_run (hs : sh.service.Attentive) (h : Run (Beside P) sh k sh') :
    sh'.service.Attentive := by
  induction h with
  | refl => exact hs
  | tail _ hstep ih => exact attentive_step ih hstep

/-- In the course of a shift all addresses have started over. -/
def Restarted (P : Service → Prop) (sh sh' : Shift) : Prop :=
  ∃ k k' mid s now, Run (Beside P) sh k mid ∧ Beside P mid.service s ∧
    s.watches = (mid.service.watches.resubscribeAll now).1 ∧
    Run (Beside P) { mid with service := s } k' sh'

theorem Restarted.tail (h : Restarted P sh sh') (hs : Step (Beside P) sh' k sh'') :
    Restarted P sh sh'' := by
  obtain ⟨_, _, mid, s, now, hbefore, hb, hw, hafter⟩ := h
  exact ⟨_, _, mid, s, now, hbefore, hb, hw, hafter.tail hs⟩

/-! ## The address of a subscription -/

/-- Who watches an address that belongs to an open room has an entry for it. -/
theorem exists_entry_of_openOn {s : Service} (hs : s.Attentive) (h : s.lobby.OpenOn room a) :
    ∃ e, s.watches.get? a = some e := by
  have hm := (hs.sound.watched.mem a room).2 h
  unfold Watches.roomsWatching at hm
  split at hm
  · rename_i e hg
    exact ⟨e, hg⟩
  · exact nomatch hm

/-- Whoever watches an address that holds a subscription, it is an open room. -/
theorem exists_openOn_of_holds {s : Service} (hs : s.Attentive) (h : s.watches.Holds a id) :
    ∃ room, s.lobby.OpenOn room a := by
  obtain ⟨e, hg, _⟩ := h
  have hcount := hs.sound.watched.count a
  unfold Watches.refCount at hcount
  rw [hg] at hcount
  have hsome : 0 < (s.watches.roomsWatching a).length := hcount ▸ hs.matched.referred a e hg
  obtain ⟨room, hm⟩ := List.exists_mem_of_length_pos hsome
  exact ⟨room, (hs.sound.watched.mem a room).1 hm⟩

/-- As long as a room on the address is open, the address holds the subscription that it held, or
all have started over. -/
theorem holds_of_run (hs : sh.service.Attentive) (hopen : sh.service.lobby.OpenOn room a)
    (hh : sh.service.watches.Holds a id)
    (h : Run (Beside fun s => s.lobby.OpenOn room a) sh k sh') :
    sh'.service.lobby.OpenOn room a ∧
      (sh'.service.watches.Holds a id ∨ Restarted (fun s => s.lobby.OpenOn room a) sh sh') := by
  induction h with
  | refl => exact ⟨hopen, Or.inl hh⟩
  | @tail _ _ mid _ hrun hstep ih =>
    obtain ⟨hopen, hkept⟩ := ih
    have hmid := attentive_run hs hrun
    obtain ⟨hcalm, hwatches⟩ | ⟨s', hb, rfl⟩ := hstep.undisturbed_or
    · refine ⟨(hcalm.lobby.openOn_iff room a).2 hopen, ?_⟩
      exact hkept.imp (fun hh => hwatches ▸ hh) fun hr => hr.tail hstep
    · refine ⟨hb.holds, ?_⟩
      obtain hh | hr := hkept
      · obtain ⟨e', hg'⟩ := exists_entry_of_openOn (hb.attentive hmid) hb.holds
        refine ((turn_errand hb.errand).holds hmid.matched hh hg').imp_right fun ⟨now, hw⟩ => ?_
        exact ⟨_, _, mid, s', now, hrun, hb, hw, .refl⟩
      · exact Or.inr (hr.tail hstep)

/-! ## A notice that is looked up -/

/-- A notice that is handed in while the worker has nothing to do is looked up at once. -/
theorem run_lookUp {beside : Service → Service → Prop} {s : Service} {n : LogNotice}
    {found : List (LogNotice × Except Failure (Option TxRecord))}
    (hrun : s.intake.worker = .running) (hjobs : s.intake.jobs = [])
    (hroom : 0 < s.intake.capacity) (hpermitted : s.intake.lookups.length < s.intake.permits)
    (hnew : s.refuse? n = none) (lookUpMs : Nat) :
    Run beside ⟨(s.submit (.notice n)).1, [], found⟩ 0
      ⟨{ s with intake := { s.intake with
        lookups := s.intake.lookups ++ [⟨n, s.elapsedMs + lookUpMs⟩] } }, [], found⟩ := by
  have hsubmitted : (s.submit (.notice n)).1
      = { s with intake := { s.intake with jobs := [.notice n] } } := by
    have hopen : s.intake.isOpen = true := by
      unfold Intake.isOpen
      rw [hrun]
      decide
    unfold Service.submit Intake.submit
    rw [hopen, hjobs, List.length_nil, if_neg (Nat.not_le.2 hroom)]
    rfl
  have hbegun : { s with intake := { s.intake with jobs := [] } }.beginLookup n lookUpMs
      = { s with intake := { s.intake with
        jobs := [], lookups := s.intake.lookups ++ [⟨n, s.elapsedMs + lookUpMs⟩] } } := by
    have hfresh : { s with intake := { s.intake with jobs := [] } }.refuse? n = none := hnew
    unfold beginLookup
    rw [hfresh]
    exact if_neg (Nat.not_le.2 hpermitted)
  have hend (ls : List Lookup) :
      { s.intake with lookups := ls } = { s.intake with jobs := [], lookups := ls } := by
    rw [← hjobs]
  rw [hsubmitted, hend, ← hbegun]
  exact .single (.takeNotice lookUpMs hrun rfl rfl)

/-! ## The address of a trade -/

theorem trackedAddress_of_read {r : TxRecord} {quote : String} {batchTime : Option Int64}
    {now : Instant} {t : Trade} (h : SwapReading.read r quote batchTime now = .ok t) :
    t.trackedAddress = r.trackedAddress.filter (· ≠ "") := by
  unfold SwapReading.read at h
  split at h
  · cases h
  · split at h
    · cases h
    · obtain ⟨_, _, h⟩ := bind_eq_ok_iff.1 h
      obtain ⟨_, _, h⟩ := bind_eq_ok_iff.1 h
      dsimp only at h
      split at h
      · cases h
      · cases h
        rfl

/-- A trade that is found for a notice has the address that holds the subscription by then. -/
theorem trackedAddress_iff {s : Service} (hs : s.Attentive) {n : LogNotice} {r : TxRecord}
    {t : Trade} (ht : s.tradeFound? n (.ok (some r)) = some t) (b : String) :
    t.trackedAddress = some b ↔ s.watches.Holds b n.subscription.toNat := by
  have hread : t.trackedAddress
      = (s.watches.addressOf? n.subscription.toNat).filter (· ≠ "") := by
    unfold tradeFound? tradeOf? at ht
    cases hr : SwapReading.read (s.enrich n r) s.settings.ingest.quoteMint none s.now with
    | error e =>
      dsimp only at ht
      rw [hr] at ht
      exact nomatch ht
    | ok t' =>
      dsimp only at ht
      rw [hr] at ht
      obtain rfl : t' = t := Option.some.inj ht
      exact trackedAddress_of_read hr
  rw [hread, Option.filter_eq_some_iff, hs.matched.mapped]
  refine and_iff_left_of_imp fun hh => ?_
  -- What is watched is the token of an open room, and no token is empty.
  obtain ⟨room, e, he, _, htoken⟩ := exists_openOn_of_holds hs hh
  refine decide_eq_true ?_
  rintro rfl
  exact (hs.sound.lobby room e he).named htoken

/-- A notice comes over a subscription of an address on which a room is open, and the room stays
open. Whatever happens until the notice is taken in with a trade that was not seen, the trade has
the address that holds the subscription by then, and it goes to all rooms that it concerns. This is
the address from before, and the room is among them, unless all addresses have started over. -/
theorem tracked_of_run (settings : Settings) {draws : Draws} (hd : Function.Injective draws.id)
    (looksUp : Bool) (startedAt : Instant) {k' : Nat} {n : LogNotice} {r : TxRecord} {t : Trade}
    {o : Outcome} {s' : Service}
    (h : Run (Beside fun _ => True) ⟨.new settings draws looksUp startedAt, [], []⟩ k sh)
    (hheld : sh.service.watches.Holds a n.subscription.toNat)
    (hopen : sh.service.lobby.OpenOn room a)
    (hafter : Run (Beside fun s => s.lobby.OpenOn room a)
      { sh with service := (sh.service.submit (.notice n)).1 } k' sh')
    (ht : sh'.service.tradeFound? n (.ok (some r)) = some t)
    (hseen : sh'.service.seen.isSeen t.signature sh'.service.elapsedMs = false)
    (hdone : sh'.service.completeNotice n (.ok (some r)) = (s', .ok o)) :
    o = .broadcast ∧ Routed sh'.service s' t ∧
      (∀ b, t.trackedAddress = some b ↔
        sh'.service.watches.Holds b n.subscription.toNat) ∧
      ((t.trackedAddress = some a ∧
          ∃ e, sh'.service.lobby.get? room = some e ∧ t.Concerns e) ∨
        Restarted (fun s => s.lobby.OpenOn room a)
          { sh with service := (sh.service.submit (.notice n)).1 } sh') := by
  have hs := attentive_run (attentive_new settings hd looksUp startedAt) h
  have hsubmit := undisturbed_of_aside (aside_submit sh.service (.notice n))
  have hsubmitted := hsubmit.attentive hs
  have hs' := attentive_run hsubmitted hafter
  have hprocess := became_of_completeNotice hdone
  rw [ht] at hprocess
  obtain ⟨ho, hrouted⟩ := hs'.sound.routed hseen hprocess
  have haddress := trackedAddress_iff hs' ht
  refine ⟨ho, hrouted, haddress, ?_⟩
  obtain ⟨hstill, hkept⟩ := holds_of_run hsubmitted
    ((hsubmit.calm.lobby.openOn_iff room a).2 hopen) (hsubmit.watches ▸ hheld) hafter
  refine hkept.imp_left fun hh => ?_
  have htracked := (haddress a).2 hh
  obtain ⟨e, he, hopen, htoken⟩ := hstill
  exact ⟨htracked, e, he, hopen, a, htoken, Or.inl htracked⟩

/-! ### A subscription that is forgotten -/

/-- The room in which Ada and Bo are has a subscription for its token, and the worker has begun. -/
def smallListening : Service :=
  { smallWithSocket with
    watches := (smallWithSocket.watches.complete "mint" 1 (some 7) 0).1 }.startWorker.1

/-- Bo's purchase of something else, as it is looked up. -/
def smallOther : TxRecord :=
  { smallRecord with
    postTokenBalances := [⟨none, "other", some "bo", ⟨some "5", some 0, none, none⟩⟩] }

/-- A notice of it over the subscription. -/
def smallNotice : LogNotice := ⟨7, 1, "sig", [], none⟩

theorem run_smallListening :
    Run (Beside fun _ => True) ⟨small, [], []⟩ 0 ⟨smallListening, [], []⟩ := by
  have hroom : Beside (fun _ => True) small smallWithRoom :=
    ⟨.create (show small.createRoom { creator := "ada", token := some "mint" }
      = .ok (smallWithRoom, _) from rfl), .of_nil (.inl (by decide +kernel)), trivial⟩
  have hsocket : Beside (fun _ => True) smallWithRoom smallWithSocket :=
    ⟨.connect (k := ⟨"r", "bo"⟩)
      (show smallWithRoom.admitSocket "r" " bo" none = .ok ⟨"r", "bo"⟩ by decide +kernel),
      .of_nil (.inl (by decide +kernel)), trivial⟩
  have hgranted : Beside (fun _ => True) smallWithSocket _ :=
    ⟨.complete "mint" 1 (some 7) 0, .of_nil (.inl (by decide +kernel)), trivial⟩
  have hconnected : Run (Beside fun _ => True) ⟨small, [], []⟩ 0 ⟨smallWithSocket, [], []⟩ :=
    (Run.refl.tail (.beside hroom)).tail (.beside hsocket)
  exact (hconnected.tail (.beside hgranted)).tail .start

theorem holds_smallListening : smallListening.watches.Holds "mint" 7 := by
  have hstage : (smallListening.watches.get? "mint").map (·.stage) = some (.active 7) := by
    decide +kernel
  exact Option.map_eq_some_iff.1 hstage

theorem openOn_smallListening : smallListening.lobby.OpenOn "r" "mint" :=
  Lobby.mem_roomsOn.1 (by decide +kernel)

/-- The notice is being looked up. -/
def smallAsked : Service :=
  { smallListening with intake := { smallListening.intake with
    lookups := smallListening.intake.lookups ++ [⟨smallNotice, smallListening.elapsedMs + 1000⟩] } }

/-- The answer is there, and was not taken in yet. -/
def smallAnswered (s : Service) : Shift :=
  ⟨{ s with intake := { s.intake with lookups := [] } }, [], [(smallNotice, .ok (some smallOther))]⟩

/-- Between the notice and the answer something happens beside. -/
theorem run_smallAnswered {beside : Service → Service → Prop} {s : Service}
    (h : beside smallAsked s) (hintake : s.intake = smallAsked.intake) :
    Run beside ⟨(smallListening.submit (.notice smallNotice)).1, [], []⟩ 0 (smallAnswered s) := by
  have hjobs : smallListening.intake.jobs = [] := List.length_eq_zero_iff.1 (by decide +kernel)
  have hnone : smallListening.intake.lookups = [] :=
    List.length_eq_zero_iff.1 (by decide +kernel)
  have hasked : Run beside ⟨(smallListening.submit (.notice smallNotice)).1, [], []⟩ 0
      ⟨smallAsked, [], []⟩ :=
    run_lookUp (by decide +kernel) hjobs (by decide +kernel) (by decide +kernel)
      (by decide +kernel) 1000
  have hone : s.intake.lookups = [] ++ ⟨smallNotice, smallListening.elapsedMs + 1000⟩ :: [] := by
    rw [hintake]
    unfold smallAsked
    rw [hnone]
  exact (hasked.tail (.beside h)).tail (.answer (.ok (some smallOther)) hone)

/-- A second has passed before the answer is there. -/
def smallLater : Shift := smallAnswered (smallAsked.advance 1000)

/-- All have started over before the answer is there. -/
def smallRestarted : Shift := smallAnswered smallAsked.resubscribeAll.1

theorem tracked_small : ∃ s' t,
    (Function.Injective growingIds.id ∧
      Run (Beside fun _ => True) ⟨small, [], []⟩ 0 ⟨smallListening, [], []⟩ ∧
      smallListening.watches.Holds "mint" smallNotice.subscription.toNat ∧
      smallListening.lobby.OpenOn "r" "mint" ∧
      Run (Beside fun s => s.lobby.OpenOn "r" "mint")
        ⟨(smallListening.submit (.notice smallNotice)).1, [], []⟩ 0 smallLater ∧
      smallLater.service.tradeFound? smallNotice (.ok (some smallOther)) = some t ∧
      smallLater.service.seen.isSeen t.signature smallLater.service.elapsedMs = false ∧
      smallLater.service.completeNotice smallNotice (.ok (some smallOther))
        = (s', .ok .broadcast)) ∧
    t.trackedAddress = some "mint" ∧
    (Routed smallLater.service s' t ∧
      (∀ b, t.trackedAddress = some b ↔
        smallLater.service.watches.Holds b smallNotice.subscription.toNat) ∧
      ((t.trackedAddress = some "mint" ∧
          ∃ e, smallLater.service.lobby.get? "r" = some e ∧ t.Concerns e) ∨
        Restarted (fun s => s.lobby.OpenOn "r" "mint")
          ⟨(smallListening.submit (.notice smallNotice)).1, [], []⟩ smallLater)) := by
  have hmatched : smallAsked.watches.Matched :=
    (attentive_run (attentive_new {} growingIds_injective true ⟨0, false⟩)
      run_smallListening).matched
  have hbeside : Beside (fun s => s.lobby.OpenOn "r" "mint") smallAsked (smallAsked.advance 1000) :=
    ⟨.advance 1000, .of_eq hmatched (advance_watches ..), Lobby.mem_roomsOn.1 (by decide +kernel)⟩
  have hafter : Run _ _ 0 smallLater := run_smallAnswered hbeside rfl
  have htrade : (smallLater.service.tradeFound? smallNotice (.ok (some smallOther))).map
      (fun t => (t.trackedAddress,
        smallLater.service.seen.isSeen t.signature smallLater.service.elapsedMs))
      = some (some "mint", false) := by
    decide +kernel
  obtain ⟨t, ht, hboth⟩ := Option.map_eq_some_iff.1 htrade
  obtain ⟨htracked, hseen⟩ := Prod.mk.inj hboth
  have hdone : smallLater.service.completeNotice smallNotice (.ok (some smallOther))
      = (_, .ok .broadcast) := Prod.ext rfl (by decide +kernel)
  exact ⟨_, t, ⟨growingIds_injective, run_smallListening, holds_smallListening,
    openOn_smallListening, hafter, ht, hseen, hdone⟩, htracked,
    (tracked_of_run {} growingIds_injective true ⟨0, false⟩ run_smallListening
      holds_smallListening openOn_smallListening hafter ht hseen hdone).2⟩

/-- The trade has no address then, and does not concern the room. -/
theorem not_tracked_restarting :
    ¬ ∀ {k k' : Nat} {sh sh' : Shift} {room a : String} {n : LogNotice} {r : TxRecord} {t : Trade}
      {s' : Service}, Run (Beside fun _ => True) ⟨small, [], []⟩ k sh →
      sh.service.watches.Holds a n.subscription.toNat → sh.service.lobby.OpenOn room a →
      Run (Beside fun s => s.lobby.OpenOn room a)
        { sh with service := (sh.service.submit (.notice n)).1 } k' sh' →
      sh'.service.tradeFound? n (.ok (some r)) = some t →
      sh'.service.seen.isSeen t.signature sh'.service.elapsedMs = false →
      sh'.service.completeNotice n (.ok (some r)) = (s', .ok .broadcast) →
      t.trackedAddress = some a ∧ ∃ e, sh'.service.lobby.get? room = some e ∧ t.Concerns e := by
  intro hclaim
  have hbeside : Beside (fun s => s.lobby.OpenOn "r" "mint") smallAsked
      smallAsked.resubscribeAll.1 :=
    ⟨.resubscribe, .of_nil (.inr (by decide +kernel)), Lobby.mem_roomsOn.1 (by decide +kernel)⟩
  have hafter : Run _ _ 0 smallRestarted := run_smallAnswered hbeside rfl
  have htrade : (smallRestarted.service.tradeFound? smallNotice (.ok (some smallOther))).map
      (fun t => (t.trackedAddress,
        smallRestarted.service.seen.isSeen t.signature smallRestarted.service.elapsedMs))
      = some (none, false) := by
    decide +kernel
  obtain ⟨t, ht, hboth⟩ := Option.map_eq_some_iff.1 htrade
  obtain ⟨htracked, hseen⟩ := Prod.mk.inj hboth
  have hdone : smallRestarted.service.completeNotice smallNotice (.ok (some smallOther))
      = (_, .ok .broadcast) := Prod.ext rfl (by decide +kernel)
  have hbad := (hclaim run_smallListening holds_smallListening openOn_smallListening hafter ht
    hseen hdone).1
  exact nomatch htracked.symm.trans hbad

end Shift

end SwapFloor
