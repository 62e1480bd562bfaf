import SwapFloor.Proofs.Service.Course
import SwapFloor.Proofs.Service.OnceOnly

/-!
# How far apart repetitions lie

A signature that was accepted counts as seen only for the retention, while the windows go by block
times and know nothing of signatures: a trade that is delivered again after the retention enters
them once more. However long the service has run and whatever has broken down meanwhile, two trades
with one signature came to the rankings no less than the retention apart, and the windows hold
nothing but trades that came, each of them once.

Main statements: what becomes of a signature in whatever happens (`recalls_errand`,
`processTrade_cases`), and what holds along every course (`spaced_of_course`).
-/

namespace SwapFloor.Service

/-! ## Signatures that are remembered -/

/-- The clock has not gone back, signatures are forgotten only when they no longer count as seen,
and nothing has entered a window. -/
structure Recalls (s s' : Service) : Prop where
  elapsedMs : s.elapsedMs ≤ s'.elapsedMs
  retentionMs : s'.seen.retentionMs = s.seen.retentionMs
  remembered : ∀ signature at_, s.seen.acceptedAt.get? signature = some at_ →
    s'.elapsedMs - at_ < s.seen.retentionMs → s'.seen.acceptedAt.get? signature = some at_
  windows : ∀ f, s'.rankings.window f <:+ s.rankings.window f

namespace Recalls

variable {s s' : Service}

theorem of_quiet (h : Quiet s s') : Recalls s s' :=
  ⟨h.elapsedMs, h.retentionMs, h.remembered, h.windows⟩

theorem of_eq (ht : s'.elapsedMs = s.elapsedMs) (hs : s'.seen = s.seen)
    (hr : s'.rankings = s.rankings) : Recalls s s' where
  elapsedMs := Nat.le_of_eq ht.symm
  retentionMs := by rw [hs]
  remembered _ _ ha _ := hs ▸ ha
  windows _ := hr ▸ List.suffix_refl _

end Recalls

variable {s s' : Service}

theorem recalls_openSocket (s : Service) (room wallet : String) (password : Option String) :
    Recalls s (s.openSocket room wallet password).1 := by
  rcases openSocket_eq s room wallet password with ⟨j, hj⟩ | ⟨f, hf⟩
  · have hjoin := still_joinRoom hj
    exact .of_eq hjoin.elapsedMs hjoin.seen hjoin.rankings
  · rw [hf]
    exact .of_eq rfl rfl rfl

theorem recalls_errand (h : Errand s s') : Recalls s s' := by
  by_cases hopen : ∃ room wallet password, s' = (s.openSocket room wallet password).1
  · obtain ⟨room, wallet, password, rfl⟩ := hopen
    exact recalls_openSocket s room wallet password
  · exact .of_quiet (quiet_of_quiet_connect h fun room wallet password he =>
      absurd ⟨room, wallet, password, he⟩ hopen)

/-- Recycling that breaks down has changed rooms only. -/
theorem recalls_reapRoomsAt (s : Service) (at_ : Instant) : Recalls s (s.reapRoomsAt at_).1 := by
  cases hr : s.reapRoomsAt at_ with
  | mk s' result =>
    cases result with
    | ok n => exact recalls_errand (.reap hr)
    | error b =>
      unfold reapRoomsAt at hr
      split at hr
      · cases hr
        exact .of_eq rfl rfl rfl
      · exact nomatch (Prod.mk.inj hr).2

theorem publishTrade_eq (s : Service) (room : String) (t : Trade) :
    ∃ l h, (s.publishTrade room t).1 = { s with lobby := l, hub := h } := by
  unfold publishTrade
  split
  · exact ⟨s.lobby, s.hub, rfl⟩
  · exact ⟨_, s.hub, rfl⟩
  · exact ⟨_, _, rfl⟩

theorem publishAll_eq (s : Service) (t : Trade) (rooms : List String) :
    ∃ l h, (s.publishAll t rooms).1 = { s with lobby := l, hub := h } := by
  induction rooms generalizing s with
  | nil => exact ⟨s.lobby, s.hub, rfl⟩
  | cons room rooms ih =>
    obtain ⟨l, h, hfirst⟩ := publishTrade_eq s room t
    unfold publishAll
    split
    · rename_i s₁ hp
      rw [hp] at hfirst
      obtain ⟨l', h', hrest⟩ := ih s₁
      exact ⟨l', h', by rw [hrest, show s₁ = _ from hfirst]⟩
    · rename_i s₁ b hp
      rw [hp] at hfirst
      exact ⟨l, h, hfirst⟩

theorem recalls_publishTrade (s : Service) (room : String) (t : Trade) :
    Recalls s (s.publishTrade room t).1 := by
  obtain ⟨l, h, heq⟩ := publishTrade_eq s room t
  rw [heq]
  exact .of_eq rfl rfl rfl

/-! ## Processing a trade -/

/-- A signature that counts as seen keeps its time when another one is marked. -/
theorem remembered_mark {seen : Seen} {now at_ : Nat} {signature other : String}
    (ha : seen.acceptedAt.get? other = some at_) (hlt : now - at_ < seen.retentionMs) :
    (seen.mark signature now).1.acceptedAt.get? other = some at_ := by
  rw [Seen.get?_mark, if_neg]
  · exact ha
  · rintro ⟨rfl, hn⟩
    exact Bool.noConfusion (hn.symm.trans (isSeen_iff.2 ⟨at_, ha, hlt⟩))

/-- The service that has marked the signature of a trade. -/
def marked (s : Service) (t : Trade) : Service :=
  { s with seen := (s.seen.mark t.signature s.elapsedMs).1 }

theorem recalls_marked (s : Service) (t : Trade) : Recalls s (s.marked t) where
  elapsedMs := Nat.le_refl _
  retentionMs := Seen.mark_retentionMs ..
  remembered _ _ ha hlt := remembered_mark ha hlt
  windows _ := List.suffix_refl _

/-- A trade that was not seen is marked before anything else. -/
theorem processTrade_marked {t : Trade} (h : s.seen.isSeen t.signature s.elapsedMs = false) :
    s.processTrade t =
      match (s.marked t).publishAll t (s.watches.roomsWatchingAny t.routingKeys) with
      | (s, some b) => (s, .error b)
      | (s, none) => (s.rankTrade t).settled .broadcast := by
  have hmark : s.seen.mark t.signature s.elapsedMs
      = ((s.seen.mark t.signature s.elapsedMs).1, true) := by
    refine Prod.ext rfl ?_
    rw [Seen.mark_accepted, h]
    rfl
  unfold processTrade
  rw [hmark]
  rfl

/-- The trade came to the rankings, and its signature had not counted as seen. -/
structure Ranked (s s' : Service) (t : Trade) : Prop where
  arrivals : s.arrivals t = [⟨s.elapsedMs, ⟨t, s.tags.get? t.signer⟩⟩]
  unseen : s.seen.isSeen t.signature s.elapsedMs = false
  elapsedMs : s'.elapsedMs = s.elapsedMs
  seen : s'.seen = (s.seen.mark t.signature s.elapsedMs).1
  rankings : s'.rankings = s.rankings.ingest ⟨t, s.tags.get? t.signer⟩ s.now

/-- A trade that is processed comes to the rankings, or is a repetition, or breaks down before. -/
theorem processTrade_cases (s : Service) (t : Trade) :
    s.arrivals t = [] ∧ Recalls s (s.processTrade t).1 ∨ Ranked s (s.processTrade t).1 t := by
  cases hseen : s.seen.isSeen t.signature s.elapsedMs with
  | true =>
    have hrepeated := processTrade_seen hseen
    refine Or.inl ⟨?_, ?_⟩
    · unfold arrivals
      rw [hrepeated]
    · rw [hrepeated]
      exact .of_eq rfl rfl rfl
  | false =>
    have hprocess := processTrade_marked hseen
    obtain ⟨l, h, hall⟩ := publishAll_eq (s.marked t) t
      (s.watches.roomsWatchingAny t.routingKeys)
    split at hprocess
    · rename_i s₁ b hp
      rw [hp] at hall
      refine Or.inl ⟨?_, ?_⟩
      · unfold arrivals
        rw [hprocess]
      · rw [hprocess, show s₁ = _ from hall]
        exact { recalls_marked s t with }
    · rename_i s₁ hp
      rw [hp] at hall
      obtain rfl : s₁ = _ := hall
      refine Or.inr ⟨?_, hseen, ?_, ?_, ?_⟩
      · unfold arrivals
        rw [hprocess]
        rfl
      · rw [hprocess]
        rfl
      · rw [hprocess]
        rfl
      · rw [hprocess]
        rfl

/-! ## Arrivals that are apart -/

namespace Arrival

def signature (a : Arrival) : String := a.trade.trade.signature

/-- If the signature is the same, the second came at least so much later. -/
def Apart (ms : Nat) (a b : Arrival) : Prop := a.signature = b.signature → a.atMs + ms ≤ b.atMs

/-- Arrivals of which each comes so much later than the one before do not fit into less time. -/
theorem length_le_of_pairwise {ms until_ : Nat} (hms : 0 < ms) {as : List Arrival}
    (h : as.Pairwise fun a b => a.atMs + ms ≤ b.atMs) (hu : ∀ a ∈ as, a.atMs ≤ until_) :
    as.length ≤ until_ / ms + 1 := by
  have key : ∀ (as : List Arrival) (since : Nat), since ≤ until_ + ms →
      as.Pairwise (fun a b => a.atMs + ms ≤ b.atMs) → (∀ a ∈ as, since ≤ a.atMs) →
      (∀ a ∈ as, a.atMs ≤ until_) → since + as.length * ms ≤ until_ + ms := by
    intro as
    induction as with
    | nil => exact fun since hs _ _ _ => by rwa [List.length_nil, Nat.zero_mul]
    | cons a as ih =>
      intro since _ hp hl hu
      obtain ⟨hfirst, hrest⟩ := List.pairwise_cons.1 hp
      have hsince := hl a List.mem_cons_self
      have hlater := ih (a.atMs + ms) (Nat.add_le_add_right (hu a List.mem_cons_self) ms) hrest
        hfirst fun b hb => hu b (List.mem_cons_of_mem _ hb)
      rw [List.length_cons, Nat.succ_mul]
      omega
  have hfit := key as 0 (Nat.zero_le _) h (fun _ _ => Nat.zero_le _) hu
  rw [← Nat.add_div_right _ hms, Nat.le_div_iff_mul_le hms]
  omega

theorem countP_le_of_pairwise {ms until_ : Nat} (hms : 0 < ms) {as : List Arrival}
    (h : as.Pairwise (Apart ms)) (hu : ∀ a ∈ as, a.atMs ≤ until_) (signature : String) :
    as.countP (·.signature == signature) ≤ until_ / ms + 1 := by
  rw [List.countP_eq_length_filter]
  refine length_le_of_pairwise hms ?_ fun a ha => hu a (List.mem_of_mem_filter ha)
  refine (h.filter _).imp_of_mem fun {a b} ha hb hab => hab ?_
  rw [beq_iff_eq.1 (List.mem_filter.1 ha).2, beq_iff_eq.1 (List.mem_filter.1 hb).2]

end Arrival

/-- What is left of a window is what is left of the arrivals in it. -/
theorem exists_of_suffix_map (held : List Arrival) {w : Window}
    (h : w <:+ held.map (·.trade)) :
    ∃ kept : List Arrival, kept.Sublist held ∧ w = kept.map (·.trade) := by
  obtain ⟨dropped, hd⟩ := h
  obtain ⟨_, kept, rfl, _, hkept⟩ := List.map_eq_append_iff.1 hd.symm
  exact ⟨kept, List.sublist_append_right .., hkept.symm⟩

/-! ## Along every course -/

/-- What holds of all that came to the rankings, and of the state after it. -/
structure Spaced (retentionMs : Nat) (as : List Arrival) (s : Service) : Prop where
  retention : s.seen.retentionMs = retentionMs
  past : ∀ a ∈ as, a.atMs ≤ s.elapsedMs
  /-- What came less than the retention ago was marked since and is remembered. -/
  remembered : ∀ a ∈ as, s.elapsedMs - a.atMs < retentionMs →
    ∃ at_, a.atMs ≤ at_ ∧ s.seen.acceptedAt.get? a.signature = some at_
  apart : as.Pairwise (Arrival.Apart retentionMs)
  windows : ∀ f, ∃ held : List Arrival, held.Sublist as ∧
    s.rankings.window f = held.map (·.trade)

namespace Spaced

variable {retentionMs : Nat} {as : List Arrival}

theorem recalls (h : Spaced retentionMs as s) (hr : Recalls s s') : Spaced retentionMs as s' where
  retention := hr.retentionMs.trans h.retention
  past a ha := (h.past a ha).trans hr.elapsedMs
  remembered a ha hlt := by
    have hle := hr.elapsedMs
    obtain ⟨at_, hat, hget⟩ := h.remembered a ha (by omega)
    refine ⟨at_, hat, hr.remembered _ _ hget ?_⟩
    rw [h.retention]
    omega
  apart := h.apart
  windows f := by
    obtain ⟨held, hsub, hw⟩ := h.windows f
    obtain ⟨kept, hkept, hw'⟩ := exists_of_suffix_map held (hw ▸ hr.windows f)
    exact ⟨kept, hkept.trans hsub, hw'⟩

/-- A trade whose signature does not count as seen comes no less than the retention after any other
with the signature. -/
theorem apart_of_unseen (h : Spaced retentionMs as s) {t : Trade}
    (hn : s.seen.isSeen t.signature s.elapsedMs = false) {a : Arrival} (ha : a ∈ as)
    (hs : a.signature = t.signature) : a.atMs + retentionMs ≤ s.elapsedMs := by
  by_contra hlt
  have hpast := h.past a ha
  obtain ⟨at_, hat, hget⟩ := h.remembered a ha (by omega)
  refine Bool.noConfusion (hn.symm.trans (isSeen_iff.2 ⟨at_, hs ▸ hget, ?_⟩))
  rw [h.retention]
  omega

theorem ranked (h : Spaced retentionMs as s) {t : Trade} (hr : Ranked s s' t) :
    Spaced retentionMs (as ++ s.arrivals t) s' := by
  rw [hr.arrivals]
  refine ⟨?_, fun a ha => ?_, fun a ha hlt => ?_, ?_, fun f => ?_⟩
  · rw [hr.seen, ← h.retention]
    exact Seen.mark_retentionMs ..
  · rw [hr.elapsedMs]
    rcases List.mem_append.1 ha with ha | ha
    · exact h.past a ha
    · rw [List.mem_singleton.1 ha]
  · rw [hr.elapsedMs] at hlt
    rcases List.mem_append.1 ha with ha | ha
    · obtain ⟨at_, hat, hget⟩ := h.remembered a ha hlt
      refine ⟨at_, hat, ?_⟩
      rw [hr.seen]
      refine remembered_mark hget ?_
      rw [h.retention]
      omega
    · refine ⟨s.elapsedMs, ?_, ?_⟩
      · rw [List.mem_singleton.1 ha]
      · rw [hr.seen, List.mem_singleton.1 ha]
        exact (Seen.get?_mark ..).trans (if_pos ⟨rfl, hr.unseen⟩)
  · rw [List.pairwise_append]
    refine ⟨h.apart, List.pairwise_singleton .., fun a ha b hb hs => ?_⟩
    obtain rfl := List.mem_singleton.1 hb
    exact h.apart_of_unseen hr.unseen ha hs
  · obtain ⟨held, hsub, hw⟩ := h.windows f
    rw [hr.rankings, Rankings.window_ingest, hw]
    unfold Window.ingest
    split
    · -- The trade enters behind what is left of the window.
      obtain ⟨kept, hkept, hw'⟩ := exists_of_suffix_map held
        (List.dropWhile_suffix fun x => !Window.isRecent (f.horizon s.now) x)
      refine ⟨kept ++ [⟨s.elapsedMs, ⟨t, s.tags.get? t.signer⟩⟩],
        (hkept.trans hsub).append (List.Sublist.refl _), ?_⟩
      unfold Window.evict
      rw [List.map_append, hw']
      rfl
    · exact ⟨held, hsub.trans (List.sublist_append_left ..), rfl⟩

theorem process (h : Spaced retentionMs as s) (t : Trade) :
    Spaced retentionMs (as ++ s.arrivals t) (s.processTrade t).1 := by
  rcases processTrade_cases s t with ⟨hnone, hr⟩ | hr
  · rw [hnone, List.append_nil]
    exact h.recalls hr
  · exact h.ranked hr

theorem course {bs : List Arrival} (h : Spaced retentionMs as s) (hc : Course s bs s') :
    Spaced retentionMs (as ++ bs) s' := by
  induction hc generalizing as with
  | done => rwa [List.append_nil]
  | errand he _ ih => exact ih (h.recalls (recalls_errand he))
  | reap at_ _ ih => exact ih (h.recalls (recalls_reapRoomsAt _ at_))
  | publish room t _ ih => exact ih (h.recalls (recalls_publishTrade _ room t))
  | process t _ ih =>
    rw [← List.append_assoc]
    exact ih (h.process t)

end Spaced

variable {settings : Settings} {draws : Draws} {looksUp : Bool} {startedAt : Instant}

theorem spaced_new (settings : Settings) (draws : Draws) (looksUp : Bool) (startedAt : Instant) :
    Spaced (settings.ingest.dedupRetentionSecs * 1000) []
      (new settings draws looksUp startedAt) where
  retention := rfl
  past _ ha := nomatch ha
  remembered _ ha := nomatch ha
  apart := .nil
  windows f := ⟨[], List.Sublist.refl _, by cases f <;> rfl⟩

/-- Whatever the service has gone through with accepted settings, a window holds trades that came
to the rankings, each of them once, and those of one signature came no less than the retention
apart. There is at most one of them to begin with, and one more for each time that the retention
has passed. -/
theorem spaced_of_course (hc : settings.check = .ok ()) {as : List Arrival}
    (h : Course (new settings draws looksUp startedAt) as s) (f : Timeframe) :
    ∃ held : List Arrival, held.Sublist as ∧ s.rankings.window f = held.map (·.trade) ∧
      held.Pairwise (Arrival.Apart (settings.ingest.dedupRetentionSecs * 1000)) ∧
      ∀ signature, (s.rankings.window f).countP (·.trade.signature == signature)
        ≤ s.elapsedMs / (settings.ingest.dedupRetentionSecs * 1000) + 1 := by
  have hpos : 0 < settings.ingest.dedupRetentionSecs * 1000 := by
    have hsecs := Settings.pos_of_check hc
      ("ingest.dedup_retention_secs", settings.ingest.dedupRetentionSecs)
      (by simp [Settings.positives])
    dsimp only at hsecs
    omega
  have hspaced := (spaced_new settings draws looksUp startedAt).course h
  obtain ⟨held, hsub, hw⟩ := hspaced.windows f
  have hapart := hspaced.apart.sublist hsub
  refine ⟨held, hsub, hw, hapart, fun signature => ?_⟩
  rw [hw, List.countP_map]
  exact Arrival.countP_le_of_pairwise hpos hapart (fun a ha => hspaced.past a (hsub.mem ha))
    signature

/-- Bo's purchase as it is delivered. -/
def smallBatch : Batch := ⟨none, [smallRecord.toJson]⟩

/-- The service that takes in Bo's purchase, and takes it in again after an hour. -/
def redelivered : Service :=
  ((small.processBatch smallBatch).1.advance 3600000).processBatch smallBatch |>.1

theorem reaches_redelivered : Reaches small redelivered :=
  ((reaches_processBatch ..).trans (.of_errand (.advance _))).trans (reaches_processBatch ..)

theorem spaced_redelivered :
    ∃ as, (Settings.check {} = .ok () ∧ Course small as redelivered) ∧
      redelivered.elapsedMs / 3600000 + 1 = 2 ∧
      (redelivered.rankings.window .oneDay).map (·.trade.signature) = ["sig", "sig"] ∧
      ∃ held : List Arrival, held.Sublist as ∧
        redelivered.rankings.window .oneDay = held.map (·.trade) ∧
        held.Pairwise (Arrival.Apart 3600000) ∧
        ∀ signature, (redelivered.rankings.window .oneDay).countP
          (·.trade.signature == signature) ≤ redelivered.elapsedMs / 3600000 + 1 := by
  obtain ⟨as, hc⟩ := reaches_redelivered
  exact ⟨as, ⟨Settings.check_default, hc⟩, by decide +kernel, by decide +kernel,
    spaced_of_course Settings.check_default hc .oneDay⟩

/-- The windows may hold a signature twice, also with accepted settings. -/
theorem not_unique_redelivered :
    ¬ ∀ (settings : Settings) (draws : Draws) (looksUp : Bool) (startedAt : Instant) (s : Service),
      settings.check = .ok () → Reaches (new settings draws looksUp startedAt) s →
      ∀ f signature, (s.rankings.window f).countP (·.trade.signature == signature) ≤ 1 := by
  intro hunique
  have hcount : (redelivered.rankings.window .oneDay).countP (·.trade.signature == "sig") = 2 := by
    decide +kernel
  have hle := hunique {} growingIds true ⟨0, false⟩ redelivered Settings.check_default
    reaches_redelivered .oneDay "sig"
  omega

end SwapFloor.Service
