import Mathlib.Algebra.GroupWithZero.Nat
import SwapFloor.Proofs.Service.Moments
import SwapFloor.Proofs.Service.Routing
import SwapFloor.Proofs.Service.Still

/-!
# Every trade once

Whether a signature was seen is asked when a notice is taken in and again when a trade is
processed, and only the second marks it; any number of look-ups for it may be under way in between.
A signature that was accepted stays seen for the retention. In a work that is shorter than that the
first trade with a signature is therefore broadcast and all later ones are repetitions, and as
nothing but a broadcast brings a trade, no outbox, room or window gets it twice.

Main statements: what a moment does to an accepted signature (`Moment.Happens.accepted`) and to one
that is not seen (`Moment.Happens.unseen`), and what holds of a work shorter than the retention
(`onceOnly_of_work`).
-/

namespace SwapFloor

/-- A trade with the signature waits in an outbox. -/
def Outgoing.tellsOf (signature : String) : Outgoing → Bool
  | .frame (.trade t) => t.signature == signature
  | _ => false

namespace Service

theorem isSeen_iff {seen : Seen} {signature : String} {now : Nat} :
    seen.isSeen signature now = true ↔
      ∃ at_, seen.acceptedAt.get? signature = some at_ ∧ now - at_ < seen.retentionMs := by
  unfold Seen.isSeen
  cases seen.acceptedAt.get? signature with
  | none => simp
  | some at_ => simp

variable {s s' : Service}

namespace Moment

variable {m : Moment} {signature : String}

/-- A trade with the signature is processed and broadcast. -/
def isBroadcastOf (m : Moment) (signature : String) : Bool :=
  m.isOf signature && m.outcome == some .broadcast

/-- Whatever comes with the signature is a repetition, or is dropped before it is processed. -/
structure Repeats (m : Moment) (signature : String) : Prop where
  trade : m.isOf signature → m.outcome = some .duplicate
  notice : ∀ n lookUpMs, m.what = .notice n lookUpMs → n.signature = signature →
    m.outcome = some .duplicate ∨ (n.isFailed = true ∧ m.outcome = some .parseError)
  finish : ∀ n found, m.what = .finish n found → n.signature = signature → n.AnsweredBy found →
    m.outcome = some .duplicate ∨ m.outcome = some .parseError

/-- A moment is an errand, or processes a trade that was seen or one that was not. -/
theorem Happens.cases_seen (h : m.Happens) (hs : m.before.Sound) :
    (m.trade? = none ∧ m.outcome ≠ some .broadcast ∧ Quiet m.before m.after) ∨
    (∃ t, m.trade? = some t ∧ m.before.seen.isSeen t.signature m.before.elapsedMs = true ∧
      m.outcome = some .duplicate ∧ m.after = m.before.countOutcome .duplicate) ∨
    ∃ t, m.trade? = some t ∧ m.before.seen.isSeen t.signature m.before.elapsedMs = false ∧
      m.outcome = some .broadcast ∧ Routed m.before m.after t := by
  rcases h.cases with ⟨t, o, ht, ho, hp⟩ | ⟨hno, hb, he⟩
  · cases hst : m.before.seen.isSeen t.signature m.before.elapsedMs with
    | true =>
      rw [processTrade_seen hst] at hp
      obtain ⟨ha, hd⟩ := Prod.mk.inj hp
      exact Or.inr (Or.inl ⟨t, ht, hst, ho.trans (congrArg some (Except.ok.inj hd).symm), ha.symm⟩)
    | false =>
      obtain ⟨rfl, hr⟩ := hs.routed hst hp
      exact Or.inr (Or.inr ⟨t, ht, hst, ho, hr⟩)
  · exact Or.inl ⟨hno, hb, quiet_errand hs he⟩

/-! ## What a moment does to a signature -/

theorem Happens.elapsedMs_le (h : m.Happens) (hs : m.before.Sound) :
    m.before.elapsedMs ≤ m.after.elapsedMs := by
  rcases h.cases_seen hs with ⟨_, _, hq⟩ | ⟨_, _, _, _, ha⟩ | ⟨_, _, _, _, hr⟩
  · exact hq.elapsedMs
  · rw [ha]
    exact Nat.le_refl _
  · rw [hr.rest]

theorem Happens.retentionMs_eq (h : m.Happens) (hs : m.before.Sound) :
    m.after.seen.retentionMs = m.before.seen.retentionMs := by
  rcases h.cases_seen hs with ⟨_, _, hq⟩ | ⟨_, _, _, _, ha⟩ | ⟨_, _, _, _, hr⟩
  · exact hq.retentionMs
  · rw [ha]
    rfl
  · rw [hr.rest]
    exact Seen.mark_retentionMs ..

/-- What comes with a signature that is seen is a repetition or dropped. -/
theorem Happens.repeats (h : m.Happens)
    (hseen : m.before.seen.isSeen signature m.before.elapsedMs = true) : m.Repeats signature := by
  have htrade : m.isOf signature → m.outcome = some .duplicate := by
    intro hof
    obtain ⟨t, ht, rfl⟩ := isOf_iff.1 hof
    rcases h.cases with ⟨t', o, ht', ho, hp⟩ | ⟨hno, _, _⟩
    · obtain rfl := Option.some.inj (ht.symm.trans ht')
      rw [processTrade_seen hseen] at hp
      rw [ho, ← Except.ok.inj (Prod.mk.inj hp).2]
    · exact nomatch hno.symm.trans ht
  refine ⟨htrade, fun n lookUpMs hw hn => ?_, fun n found hw hn ha => ?_⟩
  · unfold Happens at h
    rw [hw] at h
    rw [h.2]
    unfold noticeOutcome? refuse?
    rw [hn, hseen]
    by_cases hf : n.isFailed = true
    · rw [if_pos hf]
      exact Or.inr ⟨hf, rfl⟩
    · rw [if_neg hf, if_pos rfl]
      exact Or.inl rfl
  · -- What was found is a trade with the signature of the notice, or no trade at all.
    cases ht : m.before.tradeFound? n found with
    | some t =>
      refine Or.inl (htrade (isOf_iff.2 ⟨t, ?_, (signature_of_tradeFound ha ht).trans hn⟩))
      unfold trade?
      rw [hw]
      exact ht
    | none =>
      unfold Happens at h
      rw [hw] at h
      obtain ⟨o, hp, ho⟩ := h
      have hb := became_of_completeNotice hp
      rw [ht] at hb
      exact Or.inr (ho.trans (congrArg some hb.1))

/-- A signature that was accepted is remembered as long as it counts as seen. -/
theorem Happens.accepted (h : m.Happens) (hs : m.before.Sound) {at_ : Nat}
    (ha : m.before.seen.acceptedAt.get? signature = some at_)
    (hshort : m.after.elapsedMs - at_ < m.before.seen.retentionMs) :
    m.after.seen.acceptedAt.get? signature = some at_ ∧ m.Repeats signature := by
  have hle := h.elapsedMs_le hs
  have hseen : m.before.seen.isSeen signature m.before.elapsedMs = true :=
    isSeen_iff.2 ⟨at_, ha, by omega⟩
  refine ⟨?_, h.repeats hseen⟩
  rcases h.cases_seen hs with ⟨_, _, hq⟩ | ⟨_, _, _, _, hafter⟩ | ⟨t, _, hst, _, hr⟩
  · exact hq.remembered signature at_ ha hshort
  · rw [hafter]
    exact ha
  · have hne : signature ≠ t.signature := by
      rintro rfl
      exact Bool.noConfusion (hseen.symm.trans hst)
    -- Marking another signature leaves this one alone.
    rw [hr.rest]
    show (m.before.seen.mark t.signature m.before.elapsedMs).1.acceptedAt.get? signature = _
    rw [Seen.get?_mark, if_neg fun hc => hne hc.1]
    exact ha

/-- The first trade with a signature that is not seen is broadcast and accepted; until then the
signature stays unseen. -/
theorem Happens.unseen (h : m.Happens) (hs : m.before.Sound)
    (hn : m.before.seen.isSeen signature m.before.elapsedMs = false) :
    if m.isOf signature then
      m.outcome = some .broadcast ∧
        m.after.seen.acceptedAt.get? signature = some m.before.elapsedMs
    else m.after.seen.isSeen signature m.after.elapsedMs = false := by
  have hof : ∀ t, m.trade? = some t → (m.isOf signature = true ↔ t.signature = signature) := by
    intro t ht
    rw [isOf_iff, ht]
    simp
  rcases h.cases_seen hs with ⟨hno, _, hq⟩ | ⟨t, ht, hst, _, ha⟩ | ⟨t, ht, hst, ho, hr⟩
  · have hnot : ¬ m.isOf signature = true := by
      unfold isOf
      rw [hno]
      exact Bool.false_ne_true
    rw [if_neg hnot]
    rw [← Bool.not_eq_true, isSeen_iff] at hn ⊢
    rintro ⟨at_, ha, hlt⟩
    have hle := hq.elapsedMs
    rw [hq.retentionMs] at hlt
    exact hn ⟨at_, hq.accepted signature at_ ha, by omega⟩
  · have hne : t.signature ≠ signature := by
      rintro rfl
      exact Bool.noConfusion (hst.symm.trans hn)
    rw [if_neg fun h => hne ((hof t ht).1 h), ha]
    exact hn
  · rw [hr.rest]
    by_cases hsig : t.signature = signature
    · rw [if_pos ((hof t ht).2 hsig)]
      refine ⟨ho, ?_⟩
      show (m.before.seen.mark t.signature m.before.elapsedMs).1.acceptedAt.get? signature = _
      rw [hsig, Seen.get?_mark, if_pos ⟨rfl, hn⟩]
    · rw [if_neg fun h => hsig ((hof t ht).1 h)]
      show (m.before.seen.mark t.signature m.before.elapsedMs).1.isSeen signature
        m.before.elapsedMs = false
      unfold Seen.isSeen at hn ⊢
      rw [Seen.get?_mark, if_neg fun hc => hsig hc.1.symm, Seen.mark_retentionMs]
      exact hn

/-! ## What a moment brings -/

/-- What the moment puts into the outbox of a connection. -/
def arrivals (m : Moment) (id : ConnectionId) : List Outgoing :=
  m.before.hub.arrivals m.after.hub id

/-- By how much the moment raises the number of trades of a room; not at all where that starts again
at zero. -/
def raise (m : Moment) (room : String) : Nat :=
  m.after.lobby.trades room - m.before.lobby.trades room

/-- What the moment puts at the end of a window: a trade that is broadcast, unless it has passed
the horizon. -/
def ranked (m : Moment) (f : Timeframe) : Window :=
  match m.trade?, m.outcome with
  | some t, some .broadcast =>
    if t.blockTime.notBefore (f.horizon m.before.now) then [⟨t, m.before.tags.get? t.signer⟩] else []
  | _, _ => []

theorem isBroadcastOf_eq {t : Trade} (ht : m.trade? = some t) (ho : m.outcome = some .broadcast)
    (signature : String) : m.isBroadcastOf signature = (t.signature == signature) := by
  unfold isBroadcastOf isOf
  rw [ht, ho, Option.any_some, beq_self_eq_true, Bool.and_true]

theorem arrivals_of_waiting_eq {h h' : Hub} {id : ConnectionId} (he : h'.waiting id = h.waiting id) :
    h.arrivals h' id = [] :=
  arrivals_of_length_le (Nat.le_of_eq (congrArg List.length he))

/-- A frame that is offered arrives once or not at all. -/
theorem arrivals_of_offered {h h' : Hub} {f : Frame} {c : Connection} (ho : h.Offered h' f c) :
    h.arrivals h' c.id = [.frame f] ∨ h.arrivals h' c.id = [] := by
  obtain ⟨o, h1, h2, _⟩ := ho
  unfold Hub.arrivals Hub.waiting
  rw [h1, h2, Option.map_some, Option.map_some, Option.getD_some, Option.getD_some]
  unfold Outbox.offer
  cases o.refusal? with
  | none => exact Or.inl List.drop_left
  | some r => exact Or.inr (List.drop_eq_nil_of_le (Nat.le_refl _))

/-- A trade arrives at a connection only when it is broadcast, and then once. -/
theorem Happens.arrivals_le (h : m.Happens) (hs : m.before.Sound) (signature : String)
    (id : ConnectionId) :
    (m.arrivals id).countP (Outgoing.tellsOf signature)
      ≤ if m.isBroadcastOf signature then 1 else 0 := by
  rcases h.cases_seen hs with ⟨_, _, hq⟩ | ⟨t, _, _, _, ha⟩ | ⟨t, ht, _, ho, hr⟩
  · refine Nat.le_trans (Nat.le_of_eq ?_) (Nat.zero_le _)
    rw [List.countP_eq_zero]
    intro item hm htells
    unfold Outgoing.tellsOf at htells
    split at htells
    · exact hq.arrivals id _ hm _ rfl
    · exact nomatch htells
  · unfold Moment.arrivals
    rw [arrivals_of_waiting_eq (by rw [ha]; rfl)]
    exact Nat.zero_le _
  · rw [isBroadcastOf_eq ht ho]
    have hone : ([Outgoing.frame (.trade t)].countP (Outgoing.tellsOf signature))
        ≤ if t.signature == signature then 1 else 0 := Nat.le_of_eq List.countP_singleton
    -- Who is in a room that the trade concerns is offered it, and nobody else is.
    by_cases hto : ∃ c e, m.before.hub.get? id = some c ∧ m.before.lobby.get? c.room = some e ∧
        t.Concerns e
    · obtain ⟨c, e, hg, he, hcon⟩ := hto
      obtain ⟨_, rfl⟩ := hs.hub.get?_rooms hg
      unfold Moment.arrivals
      rcases arrivals_of_offered (hr.told c (hs.hub.mem_all.2 hg) e he hcon) with harr | harr
      · rw [harr]
        exact hone
      · rw [harr]
        exact Nat.zero_le _
    · have hu := hr.untold id fun c e hg he hcon => hto ⟨c, e, hg, he, hcon⟩
      unfold Moment.arrivals
      rw [arrivals_of_waiting_eq (by unfold Hub.waiting; rw [hu.2])]
      exact Nat.zero_le _

theorem trades_routed {s s' : Service} {t : Trade} (hr : Routed s s' t) (room : String) :
    s'.lobby.trades room ≤ s.lobby.trades room + 1 := by
  unfold Lobby.trades
  by_cases hc : ∃ e, s.lobby.get? room = some e ∧ t.Concerns e
  · obtain ⟨e, he, hcon⟩ := hc
    obtain ⟨stats, hstats, he'⟩ := hr.counted room e he hcon
    have hcount := e.stats.apply_tradeCount t s.settings.ingest.quoteMint (e.isActive t.signer)
    rw [hstats] at hcount
    rw [he, he']
    show stats.tradeCount.toNat ≤ e.stats.tradeCount.toNat + 1
    -- The count does not become more where it starts again at zero.
    rw [hcount, UInt64.toNat_add]
    exact Nat.mod_le ..
  · rw [hr.uncounted room fun e he hcon => hc ⟨e, he, hcon⟩]
    exact Nat.le_succ _

/-- A trade is counted for a room only when it is broadcast, and then once. -/
theorem Happens.raise_le (h : m.Happens) (hs : m.before.Sound) (signature room : String) :
    (if m.isOf signature then m.raise room else 0)
      ≤ if m.isBroadcastOf signature then 1 else 0 := by
  by_cases hof : m.isOf signature = true
  · rw [if_pos hof]
    obtain ⟨t', ht', hsig⟩ := isOf_iff.1 hof
    unfold raise
    rcases h.cases_seen hs with ⟨hno, _⟩ | ⟨t, _, _, _, ha⟩ | ⟨t, ht, _, ho, hr⟩
    · exact nomatch hno.symm.trans ht'
    · rw [ha]
      exact Nat.le_trans (Nat.le_of_eq (Nat.sub_self _)) (Nat.zero_le _)
    · obtain rfl := Option.some.inj (ht.symm.trans ht')
      rw [isBroadcastOf_eq ht ho, hsig, if_pos (beq_self_eq_true _)]
      exact Nat.sub_le_iff_le_add'.2 (trades_routed hr room)
  · rw [if_neg hof]
    exact Nat.zero_le _

/-- A window loses trades at its front, and gains what is ranked at its end. -/
theorem Happens.window_eq (h : m.Happens) (hs : m.before.Sound) (f : Timeframe) :
    ∃ kept, kept <:+ m.before.rankings.window f ∧
      m.after.rankings.window f = kept ++ m.ranked f := by
  unfold ranked
  rcases h.cases_seen hs with ⟨hno, _, hq⟩ | ⟨t, ht, _, ho, ha⟩ | ⟨t, ht, _, ho, hr⟩
  · rw [hno]
    exact ⟨_, hq.windows f, (List.append_nil _).symm⟩
  · rw [ht, ho, ha]
    exact ⟨_, List.suffix_refl _, (List.append_nil _).symm⟩
  · rw [ht, ho, hr.ranked f]
    dsimp only
    split
    · exact ⟨_, List.dropWhile_suffix _, rfl⟩
    · exact ⟨_, List.suffix_refl _, (List.append_nil _).symm⟩

theorem ranked_le (m : Moment) (signature : String) (f : Timeframe) :
    (m.ranked f).countP (fun x => x.trade.signature == signature)
      ≤ if m.isBroadcastOf signature then 1 else 0 := by
  unfold ranked
  split
  · rename_i t ht ho
    rw [isBroadcastOf_eq ht ho]
    split
    · exact Nat.le_of_eq List.countP_singleton
    · exact Nat.zero_le _
  · exact Nat.zero_le _

end Moment

/-! ## A work -/

namespace Work

variable {ms : List Moment} {signature : String}

theorem elapsedMs_le (h : Work s ms s') (hs : s.Sound) : s.elapsedMs ≤ s'.elapsedMs := by
  induction h with
  | done => exact Nat.le_refl _
  | next hm _ ih => exact Nat.le_trans (hm.elapsedMs_le hs) (ih (hm.sound hs))

/-- While an accepted signature counts as seen, all that comes with it is a repetition or
dropped. -/
theorem repeats (h : Work s ms s') (hs : s.Sound) {at_ : Nat}
    (ha : s.seen.acceptedAt.get? signature = some at_)
    (hshort : s'.elapsedMs - at_ < s.seen.retentionMs) : ∀ m ∈ ms, m.Repeats signature := by
  -- The time of acceptance is the same before each moment; the end of the work bounds them all.
  induction h with
  | done => exact fun _ hm => nomatch hm
  | @next m ms s' hm hrest ih =>
    have hle := hrest.elapsedMs_le (hm.sound hs)
    obtain ⟨ha', hrep⟩ := hm.accepted hs ha (by omega)
    refine fun m' hm' => (List.mem_cons.1 hm').elim (fun he => he ▸ hrep) fun hin => ?_
    exact ih (hm.sound hs) ha' ((hm.retentionMs_eq hs).symm ▸ hshort) m' hin

/-- The first trade with a signature that is not seen is broadcast, and all that comes with it
afterwards is a repetition or dropped. -/
theorem first (h : Work s ms s') (hs : s.Sound)
    (hn : s.seen.isSeen signature s.elapsedMs = false)
    (hshort : s'.elapsedMs - s.elapsedMs < s.seen.retentionMs) :
    (∀ m ∈ ms, m.isOf signature = false) ∨
    ∃ before m after, ms = before ++ m :: after ∧ (∀ m' ∈ before, m'.isOf signature = false) ∧
      m.isOf signature = true ∧ m.outcome = some .broadcast ∧
      ∀ m' ∈ after, m'.Repeats signature := by
  -- The signature stays unseen up to the first trade with it, which splits the list.
  induction h with
  | done => exact Or.inl fun _ hm => nomatch hm
  | @next m ms s' hm hrest ih =>
    have hle := hm.elapsedMs_le hs
    have hstep := hm.unseen hs hn
    cases hof : m.isOf signature with
    | true =>
      rw [if_pos hof] at hstep
      refine Or.inr ⟨[], m, ms, rfl, fun _ hm' => (nomatch hm'), hof, hstep.1, ?_⟩
      exact hrest.repeats (hm.sound hs) hstep.2 ((hm.retentionMs_eq hs).symm ▸ hshort)
    | false =>
      rw [if_neg (Bool.not_eq_true _ ▸ hof)] at hstep
      have hshort' : s'.elapsedMs - m.after.elapsedMs < m.after.seen.retentionMs := by
        rw [hm.retentionMs_eq hs]
        omega
      rcases ih (hm.sound hs) hstep hshort' with hnone | ⟨before, m', after, rfl, hbefore, hrest'⟩
      · exact Or.inl fun m' hm' => (List.mem_cons.1 hm').elim (fun he => he ▸ hof) (hnone m')
      · refine Or.inr ⟨m :: before, m', after, rfl, fun m'' hm'' => ?_, hrest'⟩
        exact (List.mem_cons.1 hm'').elim (fun he => he ▸ hof) (hbefore m'')

/-- At most one trade with a signature is broadcast. -/
theorem broadcasts_le (h : Work s ms s') (hs : s.Sound)
    (hshort : s'.elapsedMs - s.elapsedMs < s.seen.retentionMs) :
    ms.countP (·.isBroadcastOf signature) ≤ 1 := by
  -- Behind a broadcast there is none; if this moment is no broadcast the rest is as short.
  induction h with
  | done => exact Nat.zero_le _
  | @next m ms s' hm hrest ih =>
    have hle := hm.elapsedMs_le hs
    rw [List.countP_cons]
    by_cases hb : m.isBroadcastOf signature = true
    · obtain ⟨hof, ho⟩ := Bool.and_eq_true_iff.1 hb
      have hn : m.before.seen.isSeen signature m.before.elapsedMs = false := by
        rw [← Bool.not_eq_true]
        intro hseen
        rw [beq_iff_eq, (hm.repeats hseen).trade hof] at ho
        exact nomatch ho
      have hstep := hm.unseen hs hn
      rw [if_pos hof] at hstep
      have hrep := hrest.repeats (hm.sound hs) hstep.2 ((hm.retentionMs_eq hs).symm ▸ hshort)
      have hnone : ms.countP (·.isBroadcastOf signature) = 0 := by
        rw [List.countP_eq_zero]
        intro m' hm' hb'
        obtain ⟨hof', ho'⟩ := Bool.and_eq_true_iff.1 hb'
        rw [beq_iff_eq, (hrep m' hm').trade hof'] at ho'
        exact nomatch ho'
      rw [hnone, if_pos hb]
    · rw [if_neg hb]
      refine ih (hm.sound hs) ?_
      rw [hm.retentionMs_eq hs]
      omega

/-- Every moment of a work happens in a sound state. -/
theorem happens (h : Work s ms s') (hs : s.Sound) : ∀ m ∈ ms, m.Happens ∧ m.before.Sound := by
  induction h with
  | done => exact fun _ hm => nomatch hm
  | next hm _ ih =>
    exact fun m' hm' => (List.mem_cons.1 hm').elim (fun he => he ▸ ⟨hm, hs⟩)
      (ih (hm.sound hs) m')

end Work

/-- What only a broadcast brings, and only once, comes as often as there are broadcasts. -/
theorem sum_le_countP {ms : List Moment} {signature : String} {g : Moment → Nat}
    (hg : ∀ m ∈ ms, g m ≤ if m.isBroadcastOf signature then 1 else 0) :
    (ms.map g).sum ≤ ms.countP (·.isBroadcastOf signature) := by
  induction ms with
  | nil => exact Nat.le_refl _
  | cons m ms ih =>
    have hfirst := hg m List.mem_cons_self
    have hrest := ih fun m' hm' => hg m' (List.mem_cons_of_mem _ hm')
    rw [List.map_cons, List.sum_cons, List.countP_cons]
    omega

/-- No trade with the signature has an effect twice. -/
structure OnceOnly (s : Service) (ms : List Moment) (signature : String) : Prop where
  /-- The first one is broadcast, and all that comes afterwards is a repetition or dropped. -/
  first : s.seen.isSeen signature s.elapsedMs = false →
    (∀ m ∈ ms, m.isOf signature = false) ∨
    ∃ before m after, ms = before ++ m :: after ∧ (∀ m' ∈ before, m'.isOf signature = false) ∧
      m.isOf signature = true ∧ m.outcome = some .broadcast ∧
      ∀ m' ∈ after, m'.Repeats signature
  /-- It is put into no outbox twice. -/
  arrivals : ∀ id, (ms.map fun m => (m.arrivals id).countP (Outgoing.tellsOf signature)).sum ≤ 1
  /-- It is counted for no room twice, and nothing but a trade is counted. -/
  counted : ∀ room, (ms.map fun m => if m.isOf signature then m.raise room else 0).sum ≤ 1 ∧
    ∀ m ∈ ms, m.trade? = none → m.raise room = 0
  /-- It is put into no window twice, and nothing else is put there but what is ranked. -/
  ranked : ∀ f, (ms.map fun m => (m.ranked f).countP (·.trade.signature == signature)).sum ≤ 1 ∧
    ∀ m ∈ ms, ∃ kept, kept <:+ m.before.rankings.window f ∧
      m.after.rankings.window f = kept ++ m.ranked f

/-- In a work shorter than the retention, which begins in any state that the service gets to, no
trade has an effect twice. -/
theorem onceOnly_of_work {settings : Settings} {draws : Draws} {looksUp : Bool}
    {startedAt : Instant} (hd : Function.Injective draws.id)
    (h : Run (new settings draws looksUp startedAt) s) {ms : List Moment} (hw : Work s ms s')
    (hshort : s'.elapsedMs - s.elapsedMs < s.seen.retentionMs) (signature : String) :
    OnceOnly s ms signature := by
  have hs := sound_run (sound_new settings hd looksUp startedAt) h
  have hmoments := hw.happens hs
  have hone : ms.countP (·.isBroadcastOf signature) ≤ 1 := hw.broadcasts_le hs hshort
  constructor
  · exact fun hn => hw.first hs hn hshort
  · intro id
    refine Nat.le_trans (sum_le_countP fun m hm => ?_) hone
    exact (hmoments m hm).1.arrivals_le (hmoments m hm).2 signature id
  · refine fun room => ⟨Nat.le_trans (sum_le_countP fun m hm => ?_) hone, fun m hm hno => ?_⟩
    · exact (hmoments m hm).1.raise_le (hmoments m hm).2 signature room
    · rcases (hmoments m hm).1.cases_seen (hmoments m hm).2 with ⟨_, _, hq⟩ | ⟨t, ht, _⟩ | ⟨t, ht, _⟩
      · exact Nat.sub_eq_zero_of_le (hq.trades room)
      · exact nomatch hno.symm.trans ht
      · exact nomatch hno.symm.trans ht
  · refine fun f => ⟨Nat.le_trans (sum_le_countP fun m _ => ?_) hone, fun m hm => ?_⟩
    · exact m.ranked_le signature f
    · exact (hmoments m hm).1.window_eq (hmoments m hm).2 f

/-- Bo's purchase as it is looked up. -/
def smallRecord : TxRecord where
  signature := "sig"
  slot := 1
  blockTime := some 0
  trackedAddress := none
  signer := some "bo"
  accountKeys := []
  instructions := []
  preBalances := [2000000000]
  postBalances := [1000000000]
  preTokenBalances := []
  postTokenBalances := [⟨none, "mint", some "bo", ⟨some "5", some 0, none, none⟩⟩]
  logMessages := []

/-- A look-up for Bo's purchase comes to an end. -/
def smallFinish (s : Service) (o : Outcome) : Moment where
  before := s
  what := .finish ⟨1, 1, "sig", [], none⟩ (.ok (some smallRecord))
  outcome := some o
  after := (s.completeNotice ⟨1, 1, "sig", [], none⟩ (.ok (some smallRecord))).1

/-- Two look-ups for Bo's purchase come to an end, one after the other. -/
def smallMoments : List Moment :=
  [smallFinish smallWithSocket .broadcast,
    smallFinish (smallFinish smallWithSocket .broadcast).after .duplicate]

theorem work_small : Work smallWithSocket smallMoments
    (smallFinish (smallFinish smallWithSocket .broadcast).after .duplicate).after := by
  refine .next (m := smallFinish smallWithSocket .broadcast) ⟨.broadcast, ?_, rfl⟩ (.next (m :=
    smallFinish (smallFinish smallWithSocket .broadcast).after .duplicate) ⟨.duplicate, ?_, rfl⟩
    (.done _))
  · exact Prod.ext rfl (by decide +kernel)
  · exact Prod.ext rfl (by decide +kernel)

theorem onceOnly_small :
    (Function.Injective growingIds.id ∧ Run small smallWithSocket) ∧
      (smallMoments.map fun m => m.isOf "sig") = [true, true] ∧
      OnceOnly smallWithSocket smallMoments "sig" :=
  ⟨⟨growingIds_injective, run_smallWithSocket⟩, by decide +kernel,
    onceOnly_of_work growingIds_injective run_smallWithSocket work_small (by decide +kernel) "sig"⟩

end Service

end SwapFloor
