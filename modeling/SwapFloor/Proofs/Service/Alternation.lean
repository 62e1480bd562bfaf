import Mathlib.Data.List.Chain
import Mathlib.Data.List.Infix
import SwapFloor.Proofs.Service.Agreement
import SwapFloor.Proofs.Service.Comings

/-!
# Comings and goings alternate

The presence of a wallet in a room begins with its creation and turns with every event about it.
The ledger of a run knows the events so far and the frames that were put into each outbox: whoever
is in an open room is there by the last event, and no two events in a row say the same. A
connection has heard of all events in its room since it was registered, and after its end it hears
of none.

Main statement: along every run the comings and goings of a wallet alternate, in a room and on
every connection (`turns_alternate`).
-/

namespace SwapFloor

/-! ## Turns -/

/-- The comings and goings of a wallet, one after the other. -/
def turns (es : List Event) (room wallet : String) : List Bool :=
  es.filterMap (Event.turn? room wallet)

/-- The wallet has created the room. -/
def founded (es : List Event) (room wallet : String) : Bool := .opened room wallet ∈ es

/-- What the events say at last of the presence of a wallet. -/
def presence (es : List Event) (room wallet : String) : Bool :=
  (turns es room wallet).getLast?.getD (founded es room wallet)

/-- What a frame says of the presence of a wallet. -/
def Frame.turn? (wallet : String) : Frame → Option Bool
  | .memberJoined p => if p.wallet = wallet then some true else none
  | .memberLeft p => if p.wallet = wallet then some false else none
  | _ => none

section

variable {es : List Event} {room wallet : String}

theorem turns_opened (es : List Event) (r c room wallet : String) :
    turns (es ++ [.opened r c]) room wallet = turns es room wallet :=
  List.filterMap_append.trans (List.append_nil _)

theorem turns_turned (es : List Event) (r w : String) (here : Bool) (room wallet : String) :
    turns (es ++ [.turned r w here]) room wallet
      = turns es room wallet ++ if r = room ∧ w = wallet then [here] else [] := by
  refine List.filterMap_append.trans (congrArg _ ?_)
  by_cases h : r = room ∧ w = wallet <;> simp [Event.turn?, h]

theorem founded_opened (es : List Event) (r c room wallet : String) :
    founded (es ++ [.opened r c]) room wallet
      = if room = r ∧ wallet = c then true else founded es room wallet := by
  unfold founded
  by_cases h : room = r ∧ wallet = c <;> simp [h]

theorem founded_turned (es : List Event) (r w : String) (here : Bool) (room wallet : String) :
    founded (es ++ [.turned r w here]) room wallet = founded es room wallet := by
  simp [founded]

/-- A room in which nothing has happened yet. -/
theorem turns_eq_nil (h : ∀ e ∈ es, e.room ≠ room) : turns es room wallet = [] := by
  refine List.filterMap_eq_nil_iff.2 fun e he => ?_
  cases e with
  | opened r c => rfl
  | turned r w here => exact if_neg fun hr => h _ he hr.1

theorem founded_eq_false (h : ∀ e ∈ es, e.room ≠ room) : founded es room wallet = false :=
  decide_eq_false fun he => h _ he rfl

theorem turns_filter_isTurnIn (es : List Event) (room wallet : String) :
    turns (es.filter (Event.isTurnIn room)) room wallet = turns es room wallet := by
  unfold turns
  rw [List.filterMap_filter]
  refine congrArg (List.filterMap · es) (funext fun e => ?_)
  cases hturn : e.turn? room wallet with
  | none => exact ite_self none
  | some b => exact if_pos (Event.isTurnIn_of_turn? hturn)

/-- Of the events in one room a frame says just what the event does. -/
theorem filterMap_turn? {fs : List Frame}
    (h : ∀ e ∈ fs.filterMap Frame.event?, e.isTurnIn room = true) :
    fs.filterMap (Frame.turn? wallet) = turns (fs.filterMap Frame.event?) room wallet := by
  unfold turns
  rw [List.filterMap_filterMap]
  refine List.filterMap_congr fun f hf => ?_
  have hroom : ∀ e, f.event? = some e → e.isTurnIn room = true := fun e he =>
    h e (List.mem_filterMap.2 ⟨f, hf, he⟩)
  have hpresence : ∀ {room' wallet' : String} {here : Bool},
      Event.isTurnIn room (.turned room' wallet' here) = true →
      (if wallet' = wallet then some here else none)
        = Event.turn? room wallet (.turned room' wallet' here) := by
    intro room' wallet' here hr
    rw [Event.turn?, if_congr (and_iff_right (of_decide_eq_true hr)) rfl rfl]
  cases f with
  | memberJoined p => exact hpresence (hroom _ rfl)
  | memberLeft p => exact hpresence (hroom _ rfl)
  | _ => rfl

theorem isChain_turn {b x : Bool} {bs : List Bool} (h : (b :: bs).IsChain (· ≠ ·))
    (hx : bs.getLast?.getD b ≠ x) : (b :: (bs ++ [x])).IsChain (· ≠ ·) := by
  rw [← List.cons_append, List.isChain_append, List.getLast?_cons]
  refine ⟨h, List.isChain_singleton x, ?_⟩
  rintro _ ⟨⟩ _ ⟨⟩
  exact hx

end

namespace Service

/-! ## Runs and their ledgers -/

/-- A run of operations, with the events that they have reported and the frames that were put into
each outbox. -/
inductive Recorded (s₀ : Service) :
    List Event → (ConnectionId → List Frame) → Service → Prop
  | start : Recorded s₀ [] (fun _ => []) s₀
  | step {es log s es' s'} (h : Recorded s₀ es log s) (ho : Operation s es' s') :
    Recorded s₀ (es ++ es') (fun id => log id ++ s.hub.heard s'.hub id) s'

/-- What the events of a run say of rooms. -/
structure Ledger (s : Service) (es : List Event) : Prop where
  tidy : s.Tidy
  drawn : ∀ e ∈ es, ∃ k ≤ s.drawn, e.room = s.draws.id k
  present : ∀ room wallet, s.lobby.IsOpen room →
    s.lobby.isActive room wallet = presence es room wallet
  alternate : ∀ room wallet, (founded es room wallet :: turns es room wallet).IsChain (· ≠ ·)

/-- What the connections have heard of the events of a run. -/
structure Hearsay (h : Hub) (es : List Event) (log : ConnectionId → List Frame) : Prop where
  coherent : h.Coherent
  unheard : ∀ id, h.outbox? id = none → log id = []
  live : ∀ id c, h.get? id = some c →
    (log id).filterMap Frame.event? <:+ es.filter (Event.isTurnIn c.room)
  heard : ∀ id, ∃ room, (log id).filterMap Frame.event? <:+: es.filter (Event.isTurnIn room)

variable {s s' : Service} {es es' : List Event} {log : ConnectionId → List Frame}

theorem ledger_new (settings : Settings) {draws : Draws} (hd : Function.Injective draws.id)
    (looksUp : Bool) (startedAt : Instant) : (new settings draws looksUp startedAt).Ledger [] where
  tidy := tidy_new settings hd looksUp startedAt
  drawn _ he := nomatch he
  present := fun _ _ ⟨_, he, _⟩ => nomatch he
  alternate _ _ := List.isChain_singleton _

theorem hearsay_new (settings : Settings) (draws : Draws) (looksUp : Bool) (startedAt : Instant) :
    Hearsay (new settings draws looksUp startedAt).hub [] fun _ => [] where
  coherent := Hub.coherent_empty
  unheard _ _ := rfl
  live _ _ h := nomatch h
  heard _ := ⟨"", List.infix_rfl⟩

/-! ## One operation -/

theorem Ledger.drawn_operation (hl : s.Ledger es) (ho : Operation s es' s') :
    ∀ e ∈ es ++ es', ∃ k ≤ s'.drawn, e.room = s'.draws.id k := by
  obtain ⟨hdraws, hdrawn⟩ := draws_operation ho
  have ht' := tidy_operation hl.tidy ho
  intro e he
  obtain he | he := List.mem_append.1 he
  · obtain ⟨k, hk, hroom⟩ := hl.drawn e he
    exact ⟨k, hk.trans hdrawn, by rw [hdraws, hroom]⟩
  · cases effect_operation hl.tidy ho with
    | none => exact nomatch he
    | opened hopen =>
      obtain rfl := List.mem_singleton.1 he
      obtain ⟨e, hget, _⟩ := (hopen _).2 (Or.inl rfl)
      exact ht'.drawn _ e hget
    | turned _ hroom =>
      obtain rfl := List.mem_singleton.1 he
      obtain ⟨e, hget, _⟩ := hroom
      obtain ⟨k, hk, hid⟩ := hl.tidy.drawn _ e hget
      exact ⟨k, hk.trans hdrawn, by rw [hdraws, ← hid]; rfl⟩

theorem ledger_operation (hl : s.Ledger es) (ho : Operation s es' s') :
    s'.Ledger (es ++ es') := by
  have ht' := tidy_operation hl.tidy ho
  have hdrawn' := hl.drawn_operation ho
  cases effect_operation hl.tidy ho with
  | none hopen =>
    rw [List.append_nil] at hdrawn' ⊢
    refine ⟨ht', hdrawn', fun r v hr => ?_, hl.alternate⟩
    obtain ⟨hr, hactive⟩ := hopen r hr
    rw [hactive, hl.present r v hr]
  | @opened creator hopen hactive =>
    -- No event so far is about the new room, since its id is new.
    have hnew : ∀ e ∈ es, e.room ≠ s.nextId := by
      intro e he hroom
      obtain ⟨k, hk, hid⟩ := hl.drawn e he
      have := hl.tidy.fresh (hid.symm.trans hroom)
      omega
    refine ⟨ht', hdrawn', fun r v hr => ?_, fun r v => ?_⟩
    · unfold presence
      rw [turns_opened, founded_opened, hactive]
      by_cases hnext : r = s.nextId
      · rw [if_pos hnext, hnext, turns_eq_nil hnew, founded_eq_false hnew]
        by_cases hv : v = creator <;> simp [hv]
      · rw [if_neg hnext, if_neg fun h => hnext h.1]
        exact hl.present r v (((hopen r).1 hr).resolve_left hnext)
    · rw [turns_opened, founded_opened]
      by_cases hnext : r = s.nextId
      · rw [hnext, turns_eq_nil hnew]
        exact List.isChain_singleton _
      · rw [if_neg fun h => hnext h.1]
        exact hl.alternate r v
  | @turned room wallet here hbefore hroom hopen hactive =>
    refine ⟨ht', hdrawn', fun r v hr => ?_, fun r v => ?_⟩
    · unfold presence
      rw [turns_turned, founded_turned, hactive]
      by_cases hrv : r = room ∧ v = wallet
      · rw [if_pos hrv, if_pos ⟨hrv.1.symm, hrv.2.symm⟩, List.getLast?_concat]
        rfl
      · rw [if_neg hrv, if_neg fun h => hrv ⟨h.1.symm, h.2.symm⟩, List.append_nil]
        exact hl.present r v (hopen r hr)
    · rw [turns_turned, founded_turned]
      by_cases hrv : room = r ∧ wallet = v
      · obtain ⟨rfl, rfl⟩ := hrv
        rw [if_pos ⟨rfl, rfl⟩]
        refine isChain_turn (hl.alternate room wallet) ?_
        have hpresence := (hl.present room wallet hroom).symm.trans hbefore
        unfold presence at hpresence
        rw [hpresence]
        cases here <;> decide
      · rw [if_neg hrv, List.append_nil]
        exact hl.alternate r v

/-! ## What is heard of it -/

theorem hearsay_operation (hy : Hearsay s.hub es log) (hr : s.hub.Relays s'.hub es') :
    Hearsay s'.hub (es ++ es') fun id => log id ++ s.hub.heard s'.hub id := by
  refine ⟨hr.coherent, fun id ho => ?_, fun id c' hg' => ?_, fun id => ?_⟩
  · have hnone : s.hub.outbox? id = none := by
      rw [← Option.not_isSome_iff_eq_none] at ho ⊢
      exact fun hb => ho (hr.boxed id hb)
    rw [hy.unheard id hnone, List.nil_append]
    exact Hub.heard_of_outbox?_eq_none ho
  · rw [List.filterMap_append, List.filter_append, hr.all id c' hg']
    obtain ⟨c, hg, hroom⟩ | ho := hr.live id c' hg'
    · obtain ⟨before, hbefore⟩ := hroom ▸ hy.live id c hg
      exact ⟨before, by rw [← hbefore, List.append_assoc]⟩
    · rw [hy.unheard id ho]
      exact List.suffix_append _ _
  · cases hg : s.hub.get? id with
    | some c =>
      obtain ⟨before, hbefore⟩ := hy.live id c hg
      obtain ⟨after, hafter⟩ := hr.first id c hg
      refine ⟨c.room, before, after, ?_⟩
      rw [List.filterMap_append, List.filter_append, ← hbefore, ← hafter]
      simp only [List.append_assoc]
    | none =>
      obtain ⟨room, hpart⟩ := hy.heard id
      refine ⟨room, ?_⟩
      rw [List.filterMap_append, hr.dead id hg, List.append_nil, List.filter_append]
      exact hpart.trans (List.prefix_append _ _).isInfix

/-- The events on one connection are about one room and follow on each other there, so that what
it hears of a wallet alternates. -/
theorem Hearsay.alternate {h : Hub} (hy : Hearsay h es log) {wallet : String}
    (halt : ∀ room, (turns es room wallet).IsChain (· ≠ ·)) (id : ConnectionId) :
    ((log id).filterMap (Frame.turn? wallet)).IsChain (· ≠ ·) := by
  obtain ⟨room, hpart⟩ := hy.heard id
  have hroom : ∀ e ∈ (log id).filterMap Frame.event?, e.isTurnIn room = true := fun e he =>
    (List.mem_filter.1 (hpart.subset he)).2
  rw [filterMap_turn? hroom]
  refine List.IsChain.infix (halt room) ?_
  rw [← turns_filter_isTurnIn es]
  exact hpart.filterMap _

/-! ## Whole runs -/

theorem ledger_of_recorded {s₀ : Service} (hl : s₀.Ledger [])
    (h : Recorded s₀ es log s) : s.Ledger es := by
  induction h with
  | start => exact hl
  | step _ ho ih => exact ledger_operation ih ho

theorem hearsay_of_recorded {s₀ : Service} (hl : s₀.Ledger [])
    (hy : Hearsay s₀.hub [] fun _ => []) (h : Recorded s₀ es log s) : Hearsay s.hub es log := by
  induction h with
  | start => exact hy
  | step h ho ih =>
    exact hearsay_operation ih (relays_operation ih.coherent (ledger_of_recorded hl h).tidy ho)

/-- The comings and goings of a wallet alternate: those that operations report begin with a coming,
or with a going if the wallet has created the room; the wallet is active just if the room is open
and the last of them says so. The connections of a room are told of every one, once and in order;
one that is removed meanwhile may miss the last of them. So on every connection what is told of a
wallet alternates too. -/
theorem turns_alternate (settings : Settings) {draws : Draws} (hd : Function.Injective draws.id)
    (looksUp : Bool) (startedAt : Instant)
    (h : Recorded (new settings draws looksUp startedAt) es log s) (room wallet : String) :
    (turns es room wallet).IsChain (· ≠ ·) ∧
    (∀ b ∈ (turns es room wallet).head?, b = !founded es room wallet) ∧
    (s.lobby.isActive room wallet = true ↔
      s.lobby.IsOpen room ∧ presence es room wallet = true) ∧
    (∀ es' s', Operation s es' s' →
      (∀ id c, s'.hub.get? id = some c →
        (s.hub.heard s'.hub id).filterMap Frame.event? = es'.filter (Event.isTurnIn c.room)) ∧
      ∀ id c, s.hub.get? id = some c →
        (s.hub.heard s'.hub id).filterMap Frame.event? <+: es'.filter (Event.isTurnIn c.room)) ∧
    ∀ id, ((log id).filterMap (Frame.turn? wallet)).IsChain (· ≠ ·) := by
  have hl₀ := ledger_new settings hd looksUp startedAt
  have hl := ledger_of_recorded hl₀ h
  have hy := hearsay_of_recorded hl₀ (hearsay_new settings draws looksUp startedAt) h
  have halt : ∀ r, (turns es r wallet).IsChain (· ≠ ·) := fun r => (hl.alternate r wallet).tail
  refine ⟨halt room, fun b hb => ?_, ⟨fun hactive => ?_, fun ⟨hopen, hp⟩ => ?_⟩,
    fun es' s' ho => ?_, hy.alternate halt⟩
  · exact Bool.eq_not_of_ne (Ne.symm ((List.isChain_cons.1 (hl.alternate room wallet)).1 b hb))
  · have hopen := hl.tidy.well.isOpen_of_isActive hactive
    exact ⟨hopen, (hl.present room wallet hopen).symm.trans hactive⟩
  · exact (hl.present room wallet hopen).trans hp
  · have hr := relays_operation hy.coherent hl.tidy ho
    exact ⟨hr.all, hr.first⟩

/-! ### Bo visits ada -/

/-- Ada has connected to her room. -/
def smallWatched : Service :=
  { smallWithRoom with hub := smallWithRoom.hub.act (.register "r" "ada" 8 smallWithRoom.now) }

/-- Bo has joined it. -/
def smallVisited : Service := smallWatched.after (smallWatched.joinRoom "r" "bo" none)

/-- Bo has left again. -/
def smallLeft : Service := smallVisited.after (smallVisited.leaveRoom "r" "bo")

theorem operation_smallVisited : Operation smallWatched [.turned "r" "bo" true] smallVisited := by
  obtain ⟨j, hj, hreport⟩ := eq_ok_after (s := smallWatched)
    (r := smallWatched.joinRoom "r" "bo" none) (f := fun j => (j.newly, j.member.wallet))
    (b := (true, "bo")) (by decide +kernel)
  obtain ⟨hnewly, hwallet⟩ := Prod.mk.inj hreport
  have ho := Operation.join hj
  rwa [if_pos hnewly, hwallet] at ho

theorem operation_smallLeft : Operation smallVisited [.turned "r" "bo" false] smallLeft := by
  obtain ⟨left, hl, hreport⟩ := eq_ok_after (s := smallVisited)
    (r := smallVisited.leaveRoom "r" "bo") (f := fun m => m.map (·.wallet)) (b := some "bo")
    (by decide +kernel)
  obtain ⟨m, rfl, hwallet⟩ := Option.map_eq_some_iff.1 hreport
  have ho := Operation.leave hl
  rwa [Option.toList_some, List.map_singleton, hwallet] at ho

theorem recorded_smallLeft : ∃ log, (log 1).filterMap (Frame.turn? "bo") = [true, false] ∧
    Recorded small [.opened "r" "ada", .turned "r" "bo" true, .turned "r" "bo" false] log
      smallLeft := by
  have hcreated : Operation small [.opened "r" "ada"] smallWithRoom :=
    .create (show small.createRoom { creator := "ada", token := some "mint" }
      = .ok (smallWithRoom, _) from rfl)
  have hwatched : Operation smallWithRoom [] smallWatched :=
    .act (.register "r" "ada" 8 smallWithRoom.now) fun _ hf => nomatch hf
  refine ⟨_, ?_, (((Recorded.start.step hcreated).step hwatched).step
    operation_smallVisited).step operation_smallLeft⟩
  decide +kernel

theorem turns_alternate_small : ∃ es log, Function.Injective growingIds.id ∧
    Recorded small es log smallLeft ∧ turns es "r" "bo" = [true, false] ∧
    (log 1).filterMap (Frame.turn? "bo") = [true, false] ∧
    (turns es "r" "bo").IsChain (· ≠ ·) ∧
    (smallLeft.lobby.isActive "r" "bo" = true ↔
      smallLeft.lobby.IsOpen "r" ∧ presence es "r" "bo" = true) ∧
    ∀ id, ((log id).filterMap (Frame.turn? "bo")).IsChain (· ≠ ·) := by
  obtain ⟨log, hlog, hrun⟩ := recorded_smallLeft
  obtain ⟨hturns, _, hactive, _, hframes⟩ :=
    turns_alternate {} growingIds_injective true ⟨0, false⟩ hrun "r" "bo"
  exact ⟨_, log, growingIds_injective, hrun, by decide +kernel, hlog, hturns, hactive, hframes⟩

end Service

end SwapFloor
