import SwapFloor.Proofs.Fanout.Delivery
import SwapFloor.Proofs.Service.Agreement

/-!
# Where a trade goes

A trade concerns the open rooms whose token is one of its addresses: the address under which it was
seen, either mint, or its signer. The watched addresses lead to exactly these rooms, each once, so
that publishing it room by room counts it once for each of them and offers it once to each of their
connections, and changes nothing else.

Main statements: what publishing to several rooms does (`published_publishAll`), and what becomes
of a trade that is processed in any state the service gets to (`processTrade_of_run`).
-/

namespace SwapFloor

/-- The room of the entry is open and its token is one of the addresses of the trade. -/
def Trade.Concerns (t : Trade) (e : Lobby.Entry) : Prop :=
  e.room.status = .open ∧ ∃ a, e.room.token = some a ∧
    (t.trackedAddress = some a ∨ t.spent.mint = a ∨ t.received.mint = a ∨ t.signer = a)

namespace Service

/-! ## Publishing to several rooms -/

/-- Between `s` and `s'` the trade was published to the rooms once each, and to nobody else. -/
structure Published (s s' : Service) (t : Trade) (rooms : List String) : Prop where
  rest : s' = { s with lobby := s'.lobby, hub := s'.hub }
  counted : ∀ room ∈ rooms, ∀ e, s.lobby.get? room = some e →
    s'.lobby.get? room = some (e.count t s.lobby.quoteMint).1 ∧
      (e.count t s.lobby.quoteMint).2 = none
  uncounted : ∀ room, room ∉ rooms → s'.lobby.get? room = s.lobby.get? room
  told : ∀ c, s.hub.get? c.id = some c → c.room ∈ rooms → s.hub.Offered s'.hub (.trade t) c
  untold : ∀ id, (∀ c, s.hub.get? id = some c → c.room ∉ rooms) → s.hub.Untouched s'.hub id

variable {s s' : Service} {t : Trade}

theorem published_nil (s : Service) (t : Trade) : Published s s t [] where
  rest := rfl
  counted _ hm := nomatch hm
  uncounted _ _ := rfl
  told _ _ hm := nomatch hm
  untold _ _ := .refl _ _

theorem published_publishTrade (hl : s.lobby.Sound) (hc : s.hub.Coherent) {room : String}
    {e : Lobby.Entry} (he : s.lobby.get? room = some e) (ho : e.room.status = .open)
    (h : s.publishTrade room t = (s', none)) : Published s s' t [room] := by
  have hopen : s.lobby.openEntry room = .ok e := hl.openEntry_iff.2 ⟨he, ho⟩
  have hrecord : s.lobby.recordTrade room t = .ok
      (s.lobby.update room (e.count t s.lobby.quoteMint).1, (e.count t s.lobby.quoteMint).2) := by
    unfold Lobby.recordTrade
    rw [hopen]
    rfl
  -- The room is still open when its connections are told.
  have hopen' : (s.lobby.update room (e.count t s.lobby.quoteMint).1).openEntry room
      = .ok (e.count t s.lobby.quoteMint).1 := by
    refine Lobby.openEntry_eq_ok_iff.2 ⟨by rw [Lobby.get?_update, if_pos rfl], ?_⟩
    rw [show (e.count t s.lobby.quoteMint).1.room.status = .open from ho]
    decide
  unfold publishTrade at h
  rw [hrecord] at h
  cases hb : (e.count t s.lobby.quoteMint).2 with
  | some b =>
    rw [hb] at h
    exact nomatch (Prod.mk.inj h).2
  | none =>
    rw [hb] at h
    obtain ⟨rfl, _⟩ := Prod.mk.inj h
    constructor
    · rfl
    · intro r hr e' he'
      obtain rfl := List.mem_singleton.1 hr
      obtain rfl := Option.some.inj (he.symm.trans he')
      refine ⟨?_, hb⟩
      show (s.lobby.update r _).get? r = _
      rw [Lobby.get?_update, if_pos rfl]
    · intro r hr
      show (s.lobby.update room _).get? r = _
      rw [Lobby.get?_update, if_neg fun h => hr (List.mem_singleton.2 h)]
    · intro c hg hr
      exact Hub.offered_toRoom hc hopen' _ _ hg (List.mem_singleton.1 hr)
    · intro id hid
      exact Hub.toRoom_elsewhere hc _ _ _ fun c hg hr => hid c hg (List.mem_singleton.2 hr)

/-- What was published to one room and then to others was published to all of them. -/
theorem Published.cons {s₁ : Service} {room : String} {rooms : List String}
    (hfirst : Published s s₁ t [room]) (hrest : Published s₁ s' t rooms) (hroom : room ∉ rooms)
    (hcalm : Calm s s₁) (hc : s.hub.Coherent) : Published s s' t (room :: rooms) := by
  have hmint := hcalm.lobby.quoteMint
  have hother : ∀ r, r ≠ room → s₁.lobby.get? r = s.lobby.get? r := fun r hr =>
    hfirst.uncounted r fun hm => hr (List.mem_singleton.1 hm)
  constructor
  · have h1 := hfirst.rest
    have h2 := hrest.rest
    rw [h1] at h2
    exact h2
  · intro r hr e' he'
    rcases List.mem_cons.1 hr with rfl | hr
    · rw [hrest.uncounted r hroom]
      exact hfirst.counted r List.mem_cons_self e' he'
    · have hne : r ≠ room := fun h => hroom (h ▸ hr)
      rw [← hmint]
      exact hrest.counted r hr e' ((hother r hne).trans he')
  · intro r hr
    rw [List.mem_cons, not_or] at hr
    exact (hrest.uncounted r hr.2).trans (hother r hr.1)
  · intro c hg hr
    by_cases hfor : c.room = room
    · -- Its room comes first, and the other rooms leave it alone.
      refine (hfirst.told c hg (List.mem_singleton.2 hfor)).then_untouched
        (hrest.untold c.id fun c' hg' hm => ?_)
      obtain ⟨c₀, hg₀, hr₀, _⟩ := hcalm.hub.live c.id c' hc hg'
      obtain rfl := Option.some.inj (hg.symm.trans hg₀)
      exact hroom (hfor ▸ hr₀ ▸ hm)
    · have hu : s.hub.Untouched s₁.hub c.id := by
        refine hfirst.untold c.id fun c' hg' hm => ?_
        obtain rfl := Option.some.inj (hg.symm.trans hg')
        exact hfor (List.mem_singleton.1 hm)
      exact (hrest.told c (hu.1.trans hg) ((List.mem_cons.1 hr).resolve_left hfor)).of_untouched hu
  · intro id hid
    have hu : s.hub.Untouched s₁.hub id := hfirst.untold id fun c hg hm =>
      hid c hg (List.mem_singleton.1 hm ▸ List.mem_cons_self)
    refine hu.trans (hrest.untold id fun c hg hm => ?_)
    exact hid c (hu.1.symm.trans hg) (List.mem_cons_of_mem _ hm)

/-- Publishing to rooms that are open and distinct, one after the other. -/
theorem published_publishAll (hl : s.lobby.Sound) (hc : s.hub.Coherent) {rooms : List String}
    (hn : rooms.Nodup)
    (ho : ∀ room ∈ rooms, ∃ e, s.lobby.get? room = some e ∧ e.room.status = .open)
    (h : s.publishAll t rooms = (s', none)) : Published s s' t rooms := by
  -- The rooms behind the first are still open after it, as a trade moves no room to a stage.
  induction rooms generalizing s with
  | nil =>
    cases h
    exact published_nil _ t
  | cons room rooms ih =>
    rw [List.nodup_cons] at hn
    unfold publishAll at h
    split at h
    · rename_i s₁ hp
      have hcalm := calm_publishTrade hp
      obtain ⟨e, he, hopen⟩ := ho room List.mem_cons_self
      have hrest : Published s₁ s' t rooms := by
        refine ih (hcalm.lobby.sound hl) (hcalm.hub.coherent hc) hn.2 (fun r hr => ?_) h
        obtain ⟨e, he, hopen⟩ := ho r (List.mem_cons_of_mem _ hr)
        obtain ⟨e', he', hs⟩ := hcalm.lobby.exists_entry he
        exact ⟨e', he', (congrArg Lobby.Standing.status hs).trans hopen⟩
      exact (published_publishTrade hl hc he hopen hp).cons hrest hn.1 hcalm hc
    · cases h

/-! ## Processing -/

/-- Between `s` and `s'` the trade went to the rooms that it concerns, once each, and into the
rankings, and nowhere else. -/
structure Routed (s s' : Service) (t : Trade) : Prop where
  /-- A room that the trade concerns counts it. -/
  counted : ∀ room e, s.lobby.get? room = some e → t.Concerns e →
    ∃ stats, e.stats.apply t s.settings.ingest.quoteMint (e.isActive t.signer) = (stats, none) ∧
      s'.lobby.get? room = some { e with stats := stats }
  /-- Each connection of such a room is offered the trade. -/
  told : ∀ c ∈ s.hub.all, ∀ e, s.lobby.get? c.room = some e → t.Concerns e →
    s.hub.Offered s'.hub (.trade t) c
  /-- All other rooms are as they were. -/
  uncounted : ∀ room, (∀ e, s.lobby.get? room = some e → ¬ t.Concerns e) →
    s'.lobby.get? room = s.lobby.get? room
  /-- All other connections, and the outboxes of those that are gone, are as they were. -/
  untold : ∀ id, (∀ c e, s.hub.get? id = some c → s.lobby.get? c.room = some e → ¬ t.Concerns e) →
    s.hub.Untouched s'.hub id
  /-- A window whose horizon the trade has not passed has it at its end. -/
  ranked : ∀ f, s'.rankings.window f =
    if t.blockTime.notBefore (f.horizon s.now) then
      (s.rankings.window f).evict (f.horizon s.now) ++ [⟨t, s.tags.get? t.signer⟩]
    else s.rankings.window f
  /-- The signature is marked, the trade is counted among the metrics, and that is all. -/
  rest : s' = { s with
    lobby := s'.lobby, hub := s'.hub, rankings := s'.rankings, metrics := s'.metrics
    seen := (s.seen.mark t.signature s.elapsedMs).1 }

/-- The watched addresses lead to the rooms that the trade concerns. -/
theorem Sound.mem_watching_iff (hs : s.Sound) (t : Trade) (room : String) :
    room ∈ s.watches.roomsWatchingAny t.routingKeys ↔
      ∃ e, s.lobby.get? room = some e ∧ t.Concerns e := by
  rw [Watches.mem_roomsWatchingAny]
  constructor
  · rintro ⟨a, ha, hr⟩
    obtain ⟨e, he, hopen, htoken⟩ := (hs.watched.mem a room).1 hr
    exact ⟨e, he, hopen, a, htoken, (Trade.mem_routingKeys.1 ha).2⟩
  · rintro ⟨e, he, hopen, a, htoken, ha⟩
    have hne : a ≠ "" := by
      rintro rfl
      exact (hs.lobby room e he).named htoken
    exact ⟨a, Trade.mem_routingKeys.2 ⟨hne, ha⟩, (hs.watched.mem a room).2 ⟨e, he, hopen, htoken⟩⟩

theorem processTrade_seen (h : s.seen.isSeen t.signature s.elapsedMs = true) :
    s.processTrade t = (s.countOutcome .duplicate, .ok .duplicate) := by
  unfold processTrade Seen.mark
  rw [if_pos h]
  rfl

/-- A trade that was not seen goes to the rooms that watch one of its addresses, and then into the
rankings. -/
theorem processTrade_unseen (h : s.seen.isSeen t.signature s.elapsedMs = false) {o : Outcome}
    (hp : s.processTrade t = (s', .ok o)) :
    o = .broadcast ∧ ∃ s₁, { s with
      seen := (s.seen.mark t.signature s.elapsedMs).1 }.publishAll t
        (s.watches.roomsWatchingAny t.routingKeys) = (s₁, none) ∧
      s' = (s₁.rankTrade t).countOutcome .broadcast := by
  have hnew : ¬ s.seen.isSeen t.signature s.elapsedMs = true := by
    rw [h]
    exact Bool.false_ne_true
  have hmark : s.seen.mark t.signature s.elapsedMs
      = ((s.seen.mark t.signature s.elapsedMs).1, true) := by
    unfold Seen.mark
    rw [if_neg hnew]
  unfold processTrade at hp
  rw [hmark] at hp
  dsimp only at hp
  split at hp
  · cases hp
  · rename_i s₁ hall
    obtain ⟨rfl, ho⟩ := Prod.mk.inj hp
    exact ⟨(Except.ok.inj ho).symm, s₁, hall, rfl⟩

theorem Sound.routed (hs : s.Sound) (h : s.seen.isSeen t.signature s.elapsedMs = false)
    {o : Outcome} (hp : s.processTrade t = (s', .ok o)) : o = .broadcast ∧ Routed s s' t := by
  obtain ⟨ho, s₁, hall, rfl⟩ := processTrade_unseen h hp
  refine ⟨ho, ?_⟩
  have hrooms : ∀ room ∈ s.watches.roomsWatchingAny t.routingKeys,
      ∃ e, s.lobby.get? room = some e ∧ e.room.status = .open := by
    intro room hm
    obtain ⟨e, he, hcon⟩ := (hs.mem_watching_iff t room).1 hm
    exact ⟨e, he, hcon.1⟩
  have hpub := published_publishAll (s := { s with
    seen := (s.seen.mark t.signature s.elapsedMs).1 }) hs.lobby hs.hub
    (Watches.nodup_roomsWatchingAny _ _) hrooms hall
  have hrest := hpub.rest
  constructor
  · intro room e he hcon
    have hcount := hpub.counted room ((hs.mem_watching_iff t room).2 ⟨e, he, hcon⟩) e he
    rw [hs.quoteMint] at hcount
    exact ⟨_, Prod.ext rfl hcount.2, hcount.1⟩
  · intro c hm e he hcon
    exact hpub.told c (hs.hub.mem_all.1 hm) ((hs.mem_watching_iff t c.room).2 ⟨e, he, hcon⟩)
  · intro room hno
    refine hpub.uncounted room fun hm => ?_
    obtain ⟨e, he, hcon⟩ := (hs.mem_watching_iff t room).1 hm
    exact hno e he hcon
  · intro id hno
    refine hpub.untold id fun c hg hm => ?_
    obtain ⟨e, he, hcon⟩ := (hs.mem_watching_iff t c.room).1 hm
    exact hno c e hg he hcon
  · intro f
    show (s₁.rankings.ingest ⟨t, s₁.tags.get? t.signer⟩ s₁.now).window f = _
    rw [Rankings.window_ingest, hrest]
    rfl
  · rw [hrest]
    rfl

/-- In every state that the service gets to, a trade that was seen is a repetition and only
counted as one. Any other trade, unless it breaks off, goes to the rooms that it concerns and into
the rankings. -/
theorem processTrade_of_run {settings : Settings} {draws : Draws} {looksUp : Bool}
    {startedAt : Instant} (hd : Function.Injective draws.id)
    (h : Run (new settings draws looksUp startedAt) s) (t : Trade) :
    (s.seen.isSeen t.signature s.elapsedMs = true →
      s.processTrade t = (s.countOutcome .duplicate, .ok .duplicate)) ∧
    (s.seen.isSeen t.signature s.elapsedMs = false → ∀ s' o,
      s.processTrade t = (s', .ok o) → o = .broadcast ∧ Routed s s' t) :=
  ⟨processTrade_seen, fun hnew _ _ hp =>
    (sound_run (sound_new settings hd looksUp startedAt) h).routed hnew hp⟩

/-- Bo buys the token of the room. -/
def smallTrade : Trade where
  signature := "sig"
  slot := 1
  blockTime := ⟨0, false⟩
  platform := "unknown"
  programId := none
  spent := ⟨({} : Settings).ingest.quoteMint, (Decimal.ofParts? false 2 0).getD .zero⟩
  received := ⟨"mint", (Decimal.ofParts? false 5 0).getD .zero⟩
  signer := "bo"
  trackedAddress := none
  side := .buy

theorem processTrade_small :
    (Function.Injective growingIds.id ∧ Run small smallWithSocket) ∧
      Routed smallWithSocket (smallWithSocket.processTrade smallTrade).1 smallTrade ∧
      ((smallWithSocket.processTrade smallTrade).1.lobby.get? "r").map (·.stats.tradeCount)
        = some 1 := by
  have hnew : smallWithSocket.seen.isSeen smallTrade.signature smallWithSocket.elapsedMs = false := by
    decide +kernel
  have hdone : (smallWithSocket.processTrade smallTrade).2 = .ok .broadcast := by decide +kernel
  refine ⟨⟨growingIds_injective, run_smallWithSocket⟩, ?_, by decide +kernel⟩
  exact ((processTrade_of_run growingIds_injective run_smallWithSocket smallTrade).2 hnew _ _
    (Prod.ext rfl hdone)).2

end Service

end SwapFloor
