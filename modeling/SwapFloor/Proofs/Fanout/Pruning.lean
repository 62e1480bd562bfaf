import SwapFloor.Proofs.Fanout.Filing

/-!
# Connections that have been silent for too long

A prune removes and cancels the connections whose last ping is too long ago, one after the other.
The time before which it is too long ago is computed in 64-bit milliseconds, which wrap around for
a span that reaches back behind their beginning: no ping is older than that, and still the limit
comes to lie in the future of some.

Main statement: a prune removes exactly the stale connections and leaves all others alone as long as
the span does not reach that far back, or else if every last ping is past the wrapped limit
(`pruned_of_run`).
-/

namespace SwapFloor.Hub

/-- The last ping lies more than a span before a time, in whole milliseconds. -/
def IsStale (maxIdleMs : Nat) (now : Instant) (c : Connection) : Prop :=
  (maxIdleMs : Int) < now.millis - c.lastPing.toInt

/-- From `h` to `h'` the connections that satisfy `p` were removed and cancelled, and nothing
happened to any other. -/
structure Pruned (p : Connection → Prop) (h h' : Hub) (gone : List Connection) : Prop where
  mem : ∀ c, c ∈ gone ↔ h.get? c.id = some c ∧ p c
  once : (gone.map (·.id)).Nodup
  removed : ∀ c ∈ gone, h'.get? c.id = none ∧
    ∃ o, h.outbox? c.id = some o ∧ h'.outbox? c.id = some o.cancel
  kept : ∀ id c, h.get? id = some c → ¬ p c →
    h'.get? id = some c ∧ h'.outbox? id = h.outbox? id
  others : ∀ id, h.get? id = none → h'.get? id = none ∧ h'.outbox? id = h.outbox? id
  connections : ∀ room c, c ∈ h'.connections room ↔ c ∈ h.connections room ∧ ¬ p c

variable {h h' : Hub} {maxIdleMs : Nat} {now : Instant} {gone : List Connection}
  {p q : Connection → Prop}

/-! ## Which connections a prune gives -/

theorem unregister_snd (h : Hub) (id : ConnectionId) : (h.unregister id).2 = h.get? id := by
  rw [← detach_snd]
  unfold unregister
  split <;> rename_i he <;> rw [he]

theorem Coherent.ids_all (hc : h.Coherent) :
    h.all.map (·.id) = h.buckets.keys.flatMap fun room => (h.bucket room).keys := by
  unfold all Table.values Table.keys
  rw [List.map_flatMap, List.flatMap_map, List.flatMap_map]
  refine List.flatMap_congr fun e he => ?_
  have hbucket : h.bucket e.1 = e.2 := by
    unfold bucket
    rw [Table.get?_eq_some_iff.2 he]
    rfl
  have hids := hc.ids_bucket e.1
  rw [hbucket] at hids ⊢
  exact hids

theorem Coherent.nodup_all (hc : h.Coherent) : (h.all.map (·.id)).Nodup :=
  hc.ids_all ▸ hc.nodup_keys

/-- Live connections are removed one after the other, and all are given. -/
theorem prune_foldl (cs : List Connection) (s : Hub × List Connection)
    (hlive : ∀ c ∈ cs, s.1.get? c.id = some c) (hcs : (cs.map (·.id)).Nodup) :
    (cs.foldl (fun (h, removed) c =>
      match h.unregister c.id with
      | (h, some c) => (h, removed ++ [c])
      | (h, none) => (h, removed)) s).2 = s.2 ++ cs := by
  induction cs generalizing s with
  | nil => exact (List.append_nil s.2).symm
  | cons c cs ih =>
    obtain ⟨hc, hcs⟩ := List.nodup_cons.1 hcs
    obtain ⟨hfirst, hlive⟩ := List.forall_mem_cons.1 hlive
    have hstep : (match s.1.unregister c.id with
        | (h, some c) => (h, s.2 ++ [c])
        | (h, none) => (h, s.2)) = ((s.1.unregister c.id).1, s.2 ++ [c]) := by
      have hsnd := (unregister_snd s.1 c.id).trans hfirst
      split <;> rename_i he <;> rw [he] at hsnd ⊢
      · rw [Option.some.inj hsnd]
      · exact nomatch hsnd
    rw [List.foldl_cons]
    dsimp only
    rw [hstep, ih _ (fun d hd => ?_) hcs, List.append_assoc]
    · rfl
    · have hne : d.id ≠ c.id := fun he => hc (List.mem_map.2 ⟨d, hd, he⟩)
      rw [get?_unregister, if_neg hne]
      exact hlive d hd

theorem Coherent.prune_snd (hc : h.Coherent) (maxIdleMs : Nat) (now : Instant) :
    (h.prune maxIdleMs now).2 = h.all.filter fun c => c.lastPing < pingLimit maxIdleMs now := by
  refine prune_foldl _ (h, []) (fun c hm => ?_) (hc.nodup_all.sublist (List.filter_sublist.map _))
  exact hc.mem_all.1 (List.mem_of_mem_filter hm)

theorem Coherent.mem_prune (hc : h.Coherent) {c : Connection} :
    c ∈ (h.prune maxIdleMs now).2 ↔
      h.get? c.id = some c ∧ c.lastPing < pingLimit maxIdleMs now := by
  rw [hc.prune_snd, List.mem_filter, hc.mem_all, decide_eq_true_eq]

theorem Coherent.nodup_prune (hc : h.Coherent) (maxIdleMs : Nat) (now : Instant) :
    ((h.prune maxIdleMs now).2.map (·.id)).Nodup := by
  rw [hc.prune_snd]
  exact hc.nodup_all.sublist (List.filter_sublist.map _)

/-! ## What a prune leaves -/

/-- Removing connections one by one leaves the others alone. -/
theorem Pruned.of_ended (hc : h.Coherent) (hc' : h'.Coherent)
    (hended : Ended .cancel (gone.map (·.id)) h h') (honce : (gone.map (·.id)).Nodup)
    (hmem : ∀ c, c ∈ gone ↔ h.get? c.id = some c ∧ p c) : Pruned p h h' gone := by
  have hids : ∀ {id c}, h.get? id = some c → (id ∈ gone.map (·.id) ↔ p c) := by
    intro id c hg
    obtain ⟨_, rfl⟩ := hc.get?_rooms hg
    rw [List.mem_map]
    constructor
    · rintro ⟨d, hd, hid⟩
      obtain ⟨hgd, hp⟩ := (hmem d).1 hd
      have hsame : h.get? d.id = some c := (congrArg h.get? hid).trans hg
      rwa [← Option.some.inj (hgd.symm.trans hsame)]
    · exact fun hp => ⟨c, (hmem c).2 ⟨hg, hp⟩, rfl⟩
  refine ⟨hmem, honce, fun c hm => ?_, fun id c hg hfresh => ?_, fun id hg => ?_, fun room c => ?_⟩
  · have hin : c.id ∈ gone.map (·.id) := List.mem_map_of_mem hm
    have hg := ((hmem c).1 hm).1
    obtain ⟨hget, hbox⟩ := hended c.id
    obtain ⟨o, ho⟩ := hc.exists_outbox hg
    rw [if_pos hin] at hget
    rw [if_pos ⟨hin, by rw [hg]; rfl⟩, ho] at hbox
    exact ⟨hget, o, ho, hbox⟩
  · have hnot := mt (hids hg).1 hfresh
    obtain ⟨hget, hbox⟩ := hended id
    rw [if_neg hnot] at hget
    rw [if_neg fun hb => hnot hb.1] at hbox
    exact ⟨hget.trans hg, hbox⟩
  · obtain ⟨hget, hbox⟩ := hended id
    rw [hg, ite_self] at hget
    rw [if_neg fun hb => by rw [hg] at hb; exact nomatch hb.2] at hbox
    exact ⟨hget, hbox⟩
  · rw [hc'.mem_connections, hc.mem_connections, (hended c.id).1]
    by_cases hin : c.id ∈ gone.map (·.id)
    · rw [if_pos hin]
      exact iff_of_false (fun hn => nomatch hn.1) fun hb => hb.2 ((hids hb.1.1).1 hin)
    · rw [if_neg hin]
      exact (and_iff_left_of_imp fun hb hp => hin ((hids hb.1).2 hp)).symm

theorem pruned_prune (hc : h.Coherent) (maxIdleMs : Nat) (now : Instant) :
    Pruned (·.lastPing < pingLimit maxIdleMs now) h (h.prune maxIdleMs now).1
      (h.prune maxIdleMs now).2 := by
  have hended := ended_prune h maxIdleMs now
  rw [← hc.prune_snd] at hended
  exact .of_ended hc (hc.change (.prune maxIdleMs now)) hended (hc.nodup_prune maxIdleMs now)
    fun c => hc.mem_prune

theorem Pruned.congr (hc : h.Coherent) (hpruned : Pruned p h h' gone)
    (hpq : ∀ id c, h.get? id = some c → (p c ↔ q c)) : Pruned q h h' gone where
  mem c := (hpruned.mem c).trans (and_congr_right fun hg => hpq c.id c hg)
  once := hpruned.once
  removed := hpruned.removed
  kept id c hg hq := hpruned.kept id c hg (mt (hpq id c hg).1 hq)
  others := hpruned.others
  connections room c := (hpruned.connections room c).trans
    (and_congr_right fun hm => not_congr (hpq c.id c (hc.mem_connections.1 hm).1))

/-! ## The limit -/

/-- The limit is exact as long as it is no earlier than 64-bit milliseconds go. -/
theorem toInt_pingLimit (hidle : maxIdleMs < 2 ^ 64)
    (hnow : -2 ^ 63 ≤ now.millis ∧ now.millis < 2 ^ 63) :
    (pingLimit maxIdleMs now).toInt = if (maxIdleMs : Int) ≤ now.millis + 2 ^ 63
      then now.millis - maxIdleMs else now.millis + 2 ^ 64 - maxIdleMs := by
  have hsize : (Int64.size : Int) = 2 ^ 64 := rfl
  unfold pingLimit
  rw [← Int64.ofInt_eq_ofNat, ← Int64.ofInt_sub, Int64.toInt_ofInt, Int.bmod_def, hsize]
  omega

theorem lt_pingLimit_iff (hidle : maxIdleMs < 2 ^ 64)
    (hnow : -2 ^ 63 ≤ now.millis ∧ now.millis < 2 ^ 63) (c : Connection) :
    c.lastPing < pingLimit maxIdleMs now ↔ if (maxIdleMs : Int) ≤ now.millis + 2 ^ 63
      then IsStale maxIdleMs now c else c.lastPing.toInt < now.millis + 2 ^ 64 - maxIdleMs := by
  rw [Int64.lt_iff_toInt_lt, toInt_pingLimit hidle hnow]
  unfold IsStale
  split <;> omega

/-- No ping is older than 64-bit milliseconds go. -/
theorem not_isStale (hidle : now.millis + 2 ^ 63 < maxIdleMs) (c : Connection) :
    ¬ IsStale maxIdleMs now c := by
  have := c.lastPing.le_toInt
  unfold IsStale
  omega

/-- A prune removes exactly the stale connections, unless the span is so long that the limit wraps
around: then none is stale, and those before the wrapped limit are removed. -/
theorem pruned_of_run (cs : List Change) (maxIdleMs : Nat) (now : Instant)
    (hidle : maxIdleMs < 2 ^ 64) (hnow : -2 ^ 63 ≤ now.millis ∧ now.millis < 2 ^ 63) :
    (Pruned (IsStale maxIdleMs now) (empty.changes cs)
        ((empty.changes cs).prune maxIdleMs now).1 ((empty.changes cs).prune maxIdleMs now).2 ↔
      (maxIdleMs : Int) ≤ now.millis + 2 ^ 63 ∨ ∀ id c, (empty.changes cs).get? id = some c →
        now.millis + 2 ^ 64 - maxIdleMs ≤ c.lastPing.toInt) ∧
    (now.millis + 2 ^ 63 < maxIdleMs →
      Pruned (fun c => c.lastPing.toInt < now.millis + 2 ^ 64 - maxIdleMs) (empty.changes cs)
        ((empty.changes cs).prune maxIdleMs now).1 ((empty.changes cs).prune maxIdleMs now).2) := by
  have hc : (empty.changes cs).Coherent := coherent_empty.changes cs
  generalize empty.changes cs = h at hc ⊢
  have hpruned := pruned_prune hc maxIdleMs now
  have hlate := lt_pingLimit_iff hidle hnow
  by_cases hspan : (maxIdleMs : Int) ≤ now.millis + 2 ^ 63
  · simp only [if_pos hspan] at hlate
    refine ⟨iff_of_true ?_ (Or.inl hspan), fun hlong => absurd hspan (Int.not_le.2 hlong)⟩
    exact hpruned.congr hc fun _ c _ => hlate c
  · simp only [if_neg hspan] at hlate
    have hwrapped := hpruned.congr hc fun _ c _ => hlate c
    have hstale := not_isStale (Int.not_le.1 hspan)
    refine ⟨⟨fun hexact => Or.inr fun id c hg => ?_, fun hor => ?_⟩, fun _ => hwrapped⟩
    · obtain ⟨_, rfl⟩ := hc.get?_rooms hg
      by_contra hbefore
      have hremoved := (hwrapped.mem c).2 ⟨hg, Int.not_le.1 hbefore⟩
      exact hstale c ((hexact.mem c).1 hremoved).2
    · have hfresh := hor.resolve_left hspan
      exact hwrapped.congr hc fun id c hg =>
        iff_of_false (Int.not_lt.2 (hfresh id c hg)) (hstale c)

/-- Two connections, one of which has been silent for five minutes. -/
def oneSilent : List Change :=
  [.register "r" "old" 8 (.ofMillis 1000000), .register "r" "new" 8 (.ofMillis 1000000),
    .ping 2 (.ofMillis 1300000)]

theorem pruned_oneSilent :
    Pruned (IsStale 120000 (.ofMillis 1300000)) (empty.changes oneSilent)
      ((empty.changes oneSilent).prune 120000 (.ofMillis 1300000)).1
      ((empty.changes oneSilent).prune 120000 (.ofMillis 1300000)).2 ∧
    ((empty.changes oneSilent).prune 120000 (.ofMillis 1300000)).2.map (·.wallet) = ["old"] :=
  ⟨(pruned_of_run oneSilent 120000 (.ofMillis 1300000) (by decide) (by decide)).1.2
    (Or.inl (by decide)), by decide⟩

/-- The longest span prunes a connection that has just come. -/
theorem not_pruned_longest :
    ¬ Pruned (IsStale (2 ^ 64 - 1) (.ofMillis 1000000))
      (empty.changes [.register "r" "new" 8 (.ofMillis 1000000)])
      ((empty.changes [.register "r" "new" 8 (.ofMillis 1000000)]).prune (2 ^ 64 - 1)
        (.ofMillis 1000000)).1
      ((empty.changes [.register "r" "new" 8 (.ofMillis 1000000)]).prune (2 ^ 64 - 1)
        (.ofMillis 1000000)).2 := by
  intro h
  have hgone : (⟨1, "r", "new", .ofMillis 1000000, 1000000⟩ : Connection) ∈
      ((empty.changes [.register "r" "new" 8 (.ofMillis 1000000)]).prune (2 ^ 64 - 1)
        (.ofMillis 1000000)).2 := by decide
  exact not_isStale (by decide) _ ((h.mem _).1 hgone).2

end SwapFloor.Hub
