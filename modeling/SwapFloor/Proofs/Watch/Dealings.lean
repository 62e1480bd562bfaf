import Mathlib.Logic.Relation
import SwapFloor.Proofs.Watch.Holdings

/-!
# Dealings with the provider

The provider is asked for subscriptions and answers in any order, with new ones or with refusals.
Meanwhile addresses come and go, are tried again, or start over all together. `Dealings` are the
watches together with the calls that are not completed, and with all subscriptions that were ever
granted, given back or dropped; a `Step` is one operation or one completion.

Each subscription is accounted for once: what an address holds, what was given back and what was
dropped when all addresses started over is together what was granted (`Ledger.counted`).

Main statement: what holds after every run (`orderly_of_run`).
-/

namespace SwapFloor

/-- The watches, with what has passed between them and the provider. -/
structure Dealings where
  watches : Watches
  /-- The calls for a subscription that are not completed, each with its address and epoch. -/
  out : List (String × Nat)
  /-- The subscriptions that the provider has granted. -/
  granted : List SubscriptionId
  /-- The subscriptions that were given back, as often as they were. -/
  returned : List SubscriptionId
  /-- The subscriptions that were active when all addresses started over. -/
  dropped : List SubscriptionId

namespace Dealings

open Watches

/-- Nothing has been watched yet. -/
def new (b : Backoff) : Dealings := ⟨.new b, [], [], [], []⟩

/-- The watches have changed, and calls have been started. -/
def note (d : Dealings) (w : Watches) (calls : List Call) : Dealings :=
  { d with
    watches := w
    out := d.out ++ asked calls
    returned := d.returned ++ Watches.returned calls }

/-- A call is completed. -/
def settle (d : Dealings) (a : String) (epoch : Nat) : Dealings :=
  { d with out := d.out.erase (a, epoch) }

theorem note_nil (d : Dealings) (w : Watches) : d.note w [] = { d with watches := w } := by
  unfold note asked Watches.returned
  rw [List.filterMap_nil, List.filterMap_nil, List.append_nil, List.append_nil]

theorem note_unsubscribe (d : Dealings) (w : Watches) (id : SubscriptionId) :
    d.note w [.unsubscribe id] = { d with watches := w, returned := d.returned ++ [id] } := by
  unfold note asked Watches.returned
  rw [List.filterMap_cons_none rfl, List.filterMap_nil, List.append_nil]
  rfl

/-- One operation on the watches, or the completion of one call. -/
inductive Step (d : Dealings) : Dealings → Prop
  | acquire (a : String) (room : Option String) (now : Nat) {w call}
    (h : d.watches.acquire a room now = (w, call)) : Step d (d.note w call.toList)
  | release (a : String) (room : Option String) {w call}
    (h : d.watches.release a room = (w, call)) : Step d (d.note w call.toList)
  | retry (now : Nat) : Step d (d.note (d.watches.retryDue now).1 (d.watches.retryDue now).2)
  /-- All addresses start over; the subscriptions that they had are dropped. -/
  | resubscribe (now : Nat) :
    Step d ({ d with dropped := d.dropped ++ d.watches.activeIds }.note
      (d.watches.resubscribeAll now).1 (d.watches.resubscribeAll now).2)
  /-- The provider grants a subscription that it has not granted before. -/
  | grant {a epoch} (id : SubscriptionId) (now : Nat) {w call} (hout : (a, epoch) ∈ d.out)
    (hnew : id ∉ d.granted) (h : d.watches.complete a epoch (some id) now = (w, call)) :
    Step d ({ d.settle a epoch with granted := d.granted ++ [id] }.note w call.toList)
  /-- The provider refuses, or cannot be reached. -/
  | refuse {a epoch} (now : Nat) {w call} (hout : (a, epoch) ∈ d.out)
    (h : d.watches.complete a epoch none now = (w, call)) :
    Step d ((d.settle a epoch).note w call.toList)

/-- Steps, one after the other. -/
abbrev Run : Dealings → Dealings → Prop := Relation.ReflTransGen Step

/-! ## What every step keeps up -/

/-- The calls belong to the entries that wait for them, and each subscription that was granted is
held, was given back or was dropped, once in all. -/
structure Ledger (d : Dealings) : Prop where
  flights : d.watches.Flights d.out
  mapped : d.watches.Mapped
  counted : ∀ id, (d.watches.addressOf? id).toList.length + d.returned.count id
    + d.dropped.count id = d.granted.count id
  distinct : d.granted.Nodup

theorem ledger_new (b : Backoff) : (new b).Ledger where
  flights := flights_new b
  mapped _ _ := ⟨fun hn => (nomatch hn), fun ⟨_, hg, _⟩ => (nomatch hg)⟩
  counted _ := rfl
  distinct := List.nodup_nil

namespace Ledger

variable {d d' : Dealings}

/-- A change of the watches and the calls that leaves the subscriptions with their addresses. -/
theorem rewatch (h : d.Ledger) {w : Watches} {out : List (String × Nat)} (hf : w.Flights out)
    (hm : w.Mapped) (haddresses : w.addresses = d.watches.addresses) :
    { d with watches := w, out := out }.Ledger := by
  refine ⟨hf, hm, fun id => ?_, h.distinct⟩
  have hid := h.counted id
  unfold addressOf? at hid ⊢
  rw [haddresses]
  exact hid

theorem acquire (h : d.Ledger) {a : String} {room : Option String} {now : Nat} {w : Watches}
    {call : Option Call} (hw : d.watches.acquire a room now = (w, call)) :
    (d.note w call.toList).Ledger := by
  rcases acquire_cases h.flights.referred a room now with
      he | ⟨e, rooms, hg, he⟩ | ⟨hg, e, hone, he⟩ <;>
    obtain ⟨rfl, rfl⟩ := Prod.mk.inj (hw.symm.trans he)
  · rw [Option.toList_none, note_nil]
    exact h
  · have hsame := holds_iff_of_get? hg
    rw [Option.toList_none, note_nil]
    exact h.rewatch (h.flights.put_same hg (Nat.le_add_left ..) rfl rfl) (h.mapped.put hsame) rfl
  · have hfree : ∀ id, ¬ d.watches.Holds a id := fun id ⟨e', hg', _⟩ => nomatch hg.symm.trans hg'
    have hf := h.flights.start a (Nat.le_of_eq hone.symm)
    have hm : (d.watches.start a e).1.Mapped :=
      h.mapped.put fun id => ⟨fun hh => absurd hh (hfree id), fun hn => (nomatch hn)⟩
    have hnote : d.note (d.watches.start a e).1 [(d.watches.start a e).2]
        = { d with
            watches := (d.watches.start a e).1
            out := d.out ++ [(a, d.watches.lastEpoch + 1)] } := by
      unfold Dealings.note
      rw [show Watches.returned [(d.watches.start a e).2] = [] from rfl, List.append_nil]
      rfl
    rw [Option.toList_some, hnote]
    exact h.rewatch hf hm rfl

theorem release (h : d.Ledger) {a : String} {room : Option String} {w : Watches}
    {call : Option Call} (hw : d.watches.release a room = (w, call)) :
    (d.note w call.toList).Ledger := by
  rcases release_cases h.flights.referred a room with he | ⟨e, rooms, hg, hmore, he⟩ | hgo
  · obtain ⟨rfl, rfl⟩ := Prod.mk.inj (hw.symm.trans he)
    rw [Option.toList_none, note_nil]
    exact h
  · obtain ⟨rfl, rfl⟩ := Prod.mk.inj (hw.symm.trans he)
    have hsame := holds_iff_of_get? hg
    rw [Option.toList_none, note_nil]
    exact h.rewatch (h.flights.put_same hg (Nat.le_sub_one_of_lt hmore) rfl rfl)
      (h.mapped.put hsame) rfl
  · rw [hw] at hgo
    have hm := h.mapped.letGo hgo
    cases hgo with
    | idle hgone hidle haddresses =>
      rw [Option.toList_none, note_nil]
      exact h.rewatch (h.flights.gone hgone) hm haddresses
    | @active _ e id hgone hactive haddresses =>
      rw [Option.toList_some, note_unsubscribe]
      refine ⟨h.flights.gone hgone, hm, fun id' => ?_, h.distinct⟩
      -- The subscription goes over from the address to those that were given back.
      have hid := h.counted id'
      have hheld : d.watches.addressOf? id = some a :=
        (h.mapped id a).2 ((holds_iff_of_get? hgone.there id).2 hactive)
      have haddress : w.addressOf? id' = if id' = id then none else d.watches.addressOf? id' := by
        unfold addressOf?
        rw [haddresses, Table.get?_erase]
      dsimp only
      rw [haddress, List.count_append, List.count_singleton]
      by_cases heq : id' = id
      · subst heq
        rw [hheld, Option.toList_some, List.length_singleton] at hid
        rw [if_pos rfl, Option.toList_none, List.length_nil, if_pos (beq_self_eq_true _)]
        omega
      · rw [if_neg heq, if_neg fun hb => heq (beq_iff_eq.1 hb).symm]
        omega

theorem retry (h : d.Ledger) (now : Nat) :
    (d.note (d.watches.retryDue now).1 (d.watches.retryDue now).2).Ledger := by
  unfold Dealings.note
  rw [returned_retryDue, List.append_nil]
  exact h.rewatch (h.flights.retryDue now) (h.mapped.retryDue now)
    (addresses_retryDue d.watches now)

theorem resubscribe (h : d.Ledger) (now : Nat) :
    ({ d with dropped := d.dropped ++ d.watches.activeIds }.note
      (d.watches.resubscribeAll now).1 (d.watches.resubscribeAll now).2).Ledger := by
  unfold Dealings.note
  rw [resubscribeAll_eq, returned_retryDue, List.append_nil]
  refine ⟨(h.flights.restartAll now).retryDue now,
    (Mapped.restartAll d.watches now).retryDue now, fun id => ?_, h.distinct⟩
  have hid := h.counted id
  rw [← h.mapped.count_activeIds] at hid
  unfold addressOf?
  dsimp only
  rw [addresses_retryDue, addresses_restartAll, List.count_append, Table.get?_empty,
    Option.toList_none, List.length_nil]
  omega

/-- A subscription that is granted anew was neither held nor given back nor dropped. -/
theorem unknown (h : d.Ledger) {id : SubscriptionId} (hnew : id ∉ d.granted) :
    d.watches.addressOf? id = none ∧ d.returned.count id = 0 ∧ d.dropped.count id = 0 := by
  have hid := h.counted id
  rw [List.count_eq_zero_of_not_mem hnew] at hid
  refine ⟨?_, by omega, by omega⟩
  cases ha : d.watches.addressOf? id with
  | none => rfl
  | some a =>
    rw [ha, Option.toList_some, List.length_singleton] at hid
    omega

theorem nodup_granted (h : d.Ledger) {id : SubscriptionId} (hnew : id ∉ d.granted) :
    (d.granted ++ [id]).Nodup := by
  rw [List.nodup_append]
  refine ⟨h.distinct, List.nodup_singleton id, fun x hx y hy heq => hnew ?_⟩
  rwa [← List.mem_singleton.1 hy, ← heq]

theorem grant (h : d.Ledger) {a : String} {epoch : Nat} {id : SubscriptionId} {now : Nat}
    {w : Watches} {call : Option Call} (hnew : id ∉ d.granted)
    (hw : d.watches.complete a epoch (some id) now = (w, call)) :
    ({ d.settle a epoch with granted := d.granted ++ [id] }.note w call.toList).Ledger := by
  obtain ⟨hfree, hreturned, hdropped⟩ := h.unknown hnew
  have hcount := List.count_eq_zero_of_not_mem hnew
  by_cases hawaits : ∃ e, d.watches.Awaits a epoch e
  · obtain ⟨e, hawaits⟩ := hawaits
    obtain ⟨rfl, rfl⟩ := Prod.mk.inj (hw.symm.trans (complete_granted hawaits id now))
    have ⟨hg, _, hs⟩ := hawaits
    have hf : (d.watches.put a { e with stage := .active id, attempts := 0 }).Flights
        (d.out.erase (a, epoch)) := h.flights.settle hawaits rfl rfl nofun
    rw [Option.toList_none, note_nil]
    refine ⟨hf.of_same (fun _ => rfl) rfl, ?_, fun id' => ?_, h.nodup_granted hnew⟩
    · refine h.mapped.grant (fun id' hh => ?_) hfree (fun _ => rfl) rfl rfl
      exact nomatch hs.symm.trans ((holds_iff_of_get? hg id').1 hh)
    · have hid := h.counted id'
      show ((d.watches.addresses.insert id a).get? id').toList.length
        + d.returned.count id' + d.dropped.count id' = (d.granted ++ [id]).count id'
      rw [Table.get?_insert, List.count_append, List.count_singleton]
      by_cases heq : id' = id
      · subst heq
        rw [if_pos rfl, Option.toList_some, List.length_singleton, if_pos (beq_self_eq_true _)]
        omega
      · rw [if_neg heq, if_neg fun hb => heq (beq_iff_eq.1 hb).symm]
        exact hid
  · have hnot : ∀ e, ¬ d.watches.Awaits a epoch e := fun e he => hawaits ⟨e, he⟩
    obtain ⟨rfl, rfl⟩ := Prod.mk.inj (hw.symm.trans (complete_outdated hnot (some id) now))
    have hf := h.flights.forget hnot
    show (Dealings.note _ _ [.unsubscribe id]).Ledger
    rw [note_unsubscribe]
    refine ⟨hf.of_same (fun _ => rfl) rfl, h.mapped.of_same (fun _ => rfl) rfl, fun id' => ?_,
      h.nodup_granted hnew⟩
    have hid := h.counted id'
    show (d.watches.addressOf? id').toList.length + (d.returned ++ [id]).count id'
      + d.dropped.count id' = (d.granted ++ [id]).count id'
    rw [List.count_append, List.count_append]
    omega

theorem refuse (h : d.Ledger) {a : String} {epoch now : Nat} {w : Watches} {call : Option Call}
    (hw : d.watches.complete a epoch none now = (w, call)) :
    ((d.settle a epoch).note w call.toList).Ledger := by
  by_cases hawaits : ∃ e, d.watches.Awaits a epoch e
  · obtain ⟨e, hawaits⟩ := hawaits
    obtain ⟨attempts, dueAt, heq⟩ := complete_refused hawaits now
    obtain ⟨rfl, rfl⟩ := Prod.mk.inj (hw.symm.trans heq)
    have ⟨hg, _, hs⟩ := hawaits
    have hf : (d.watches.put a
        { e with stage := .pending attempts dueAt, attempts := attempts }).Flights
        (d.out.erase (a, epoch)) := h.flights.settle hawaits rfl rfl nofun
    have hm := h.mapped.put (a := a)
        (e := { e with stage := .pending attempts dueAt, attempts := attempts }) fun id => by
      rw [holds_iff_of_get? hg, hs]
      exact ⟨fun hn => (nomatch hn), fun hn => (nomatch hn)⟩
    rw [Option.toList_none, note_nil]
    exact h.rewatch (hf.of_same (fun _ => rfl) rfl) (hm.of_same (fun _ => rfl) rfl) rfl
  · have hnot : ∀ e, ¬ d.watches.Awaits a epoch e := fun e he => hawaits ⟨e, he⟩
    obtain ⟨rfl, rfl⟩ := Prod.mk.inj (hw.symm.trans (complete_outdated hnot none now))
    have hf := h.flights.forget hnot
    show (Dealings.note _ _ []).Ledger
    rw [note_nil]
    exact h.rewatch (hf.of_same (fun _ => rfl) rfl) (h.mapped.of_same (fun _ => rfl) rfl) rfl

theorem step (h : d.Ledger) (hs : Step d d') : d'.Ledger := by
  cases hs with
  | acquire a room now hw => exact h.acquire hw
  | release a room hw => exact h.release hw
  | retry now => exact h.retry now
  | resubscribe now => exact h.resubscribe now
  | grant id now hout hnew hw => exact h.grant hnew hw
  | refuse now hout hw => exact h.refuse hw

theorem run (h : d.Ledger) (hr : Run d d') : d'.Ledger := by
  induction hr with
  | refl => exact h
  | tail _ hs ih => exact ih.step hs

end Ledger

/-! ## What holds after every run -/

/-- A subscription that was granted is held by one address, or was given back once, or was dropped
when all addresses started over, and only one of these. -/
def Settled (d : Dealings) (id : SubscriptionId) : Prop :=
  (∃! a, d.watches.Holds a id) ∧ id ∉ d.returned ∧ id ∉ d.dropped ∨
    (∀ a, ¬ d.watches.Holds a id) ∧ d.returned.count id = 1 ∧ id ∉ d.dropped ∨
    (∀ a, ¬ d.watches.Holds a id) ∧ id ∉ d.returned ∧ id ∈ d.dropped

/-- The watches and the provider are in order. -/
structure Orderly (d : Dealings) : Prop where
  /-- Whatever is watched is referred to. -/
  referred : ∀ a e, d.watches.get? a = some e → 1 ≤ e.refs
  /-- The address of a subscription is the one whose entry has it. -/
  addressOf?_iff : ∀ id a, d.watches.addressOf? id = some a ↔
    ∃ e, d.watches.get? a = some e ∧ e.stage = .active id
  /-- An entry waits for a call just if one call of its epoch is out. -/
  inFlight_iff : ∀ a e, d.watches.get? a = some e →
    (e.stage = .inFlight ↔ d.out.countP (·.2 = e.epoch) = 1)
  /-- That call is for the address of the entry. -/
  awaited : ∀ a e, d.watches.get? a = some e → e.stage = .inFlight → (a, e.epoch) ∈ d.out
  /-- No call has the epoch of an entry that waits for none. -/
  idle : ∀ a e, d.watches.get? a = some e → e.stage ≠ .inFlight → ∀ c ∈ d.out, c.2 ≠ e.epoch
  settled : ∀ id ∈ d.granted, d.Settled id
  /-- Only what was granted is held, given back or dropped. -/
  known : ∀ id, (∃ a, d.watches.Holds a id) ∨ id ∈ d.returned ∨ id ∈ d.dropped → id ∈ d.granted
  /-- A watched address has a subscription, or a call for it is out, or a time is set from which
  on a round of tries calls for it. -/
  pursued : ∀ a e, d.watches.get? a = some e →
    (∃ id, d.watches.addressOf? id = some a) ∨ (a, e.epoch) ∈ d.out ∨
      ∃ dueAt, ∀ now, dueAt ≤ now → ∃ epoch, Call.subscribe a epoch ∈ (d.watches.retryDue now).2

namespace Ledger

variable {d : Dealings}

theorem countP_epoch (h : d.Ledger) {c : String × Nat} (hc : c ∈ d.out) :
    d.out.countP (·.2 = c.2) = 1 := by
  have hcount := List.count_eq_one_of_mem h.flights.distinct (List.mem_map_of_mem hc)
  rw [List.count, List.countP_map] at hcount
  rw [← hcount]
  exact List.countP_congr fun x _ => by simp

theorem settled (h : d.Ledger) {id : SubscriptionId} (hid : id ∈ d.granted) : d.Settled id := by
  have hcount := h.counted id
  rw [List.count_eq_one_of_mem h.distinct hid] at hcount
  unfold Settled
  rw [← List.count_eq_zero, ← List.count_eq_zero, ← List.count_pos_iff (l := d.dropped)]
  cases ha : d.watches.addressOf? id with
  | some a =>
    rw [ha, Option.toList_some, List.length_singleton] at hcount
    have hheld := (h.mapped id a).1 ha
    exact Or.inl ⟨⟨a, hheld, fun b hb => h.mapped.unique hb hheld⟩, by omega, by omega⟩
  | none =>
    rw [ha, Option.toList_none, List.length_nil] at hcount
    have hfree : ∀ a, ¬ d.watches.Holds a id := fun a hh =>
      nomatch ha.symm.trans ((h.mapped id a).2 hh)
    by_cases hr : d.returned.count id = 1
    · exact Or.inr (Or.inl ⟨hfree, hr, by omega⟩)
    · exact Or.inr (Or.inr ⟨hfree, by omega, by omega⟩)

theorem mem_granted (h : d.Ledger) {id : SubscriptionId}
    (hid : (∃ a, d.watches.Holds a id) ∨ id ∈ d.returned ∨ id ∈ d.dropped) : id ∈ d.granted := by
  by_contra hnew
  obtain ⟨hnone, hr, hd⟩ := h.unknown hnew
  rcases hid with ⟨a, hh⟩ | hm | hm
  · exact nomatch hnone.symm.trans ((h.mapped id a).2 hh)
  · exact List.count_eq_zero.1 hr hm
  · exact List.count_eq_zero.1 hd hm

theorem pursued (h : d.Ledger) {a : String} {e : Watch} (hg : d.watches.get? a = some e) :
    (∃ id, d.watches.addressOf? id = some a) ∨ (a, e.epoch) ∈ d.out ∨
      ∃ dueAt, ∀ now, dueAt ≤ now →
        ∃ epoch, Call.subscribe a epoch ∈ (d.watches.retryDue now).2 := by
  cases hs : e.stage with
  | active id => exact Or.inl ⟨id, (h.mapped id a).2 ⟨e, hg, hs⟩⟩
  | inFlight => exact Or.inr (Or.inl (h.flights.awaited a e hg hs))
  | pending attempts dueAt =>
    refine Or.inr (Or.inr ⟨dueAt, fun now hnow => mem_retryDue hg (isDue_iff.2 ?_)⟩)
    exact ⟨attempts, dueAt, hs, hnow, h.flights.referred a e hg⟩

end Ledger

/-- Whatever is done and whenever the provider answers, every subscription is accounted for and
every watched address is looked after. -/
theorem orderly_of_run (b : Backoff) (d : Dealings) (hr : Run (new b) d) : d.Orderly := by
  have h : d.Ledger := (ledger_new b).run hr
  refine ⟨h.flights.referred, h.mapped, fun a e hg => ⟨fun hs => ?_, fun hone => ?_⟩,
    h.flights.awaited, fun a e hg hs c hc he => ?_, fun id hid => h.settled hid,
    fun id hid => h.mem_granted hid, fun a e hg => h.pursued hg⟩
  · exact h.countP_epoch (h.flights.awaited a e hg hs)
  · have hpos : 0 < d.out.countP (·.2 = e.epoch) := by omega
    obtain ⟨c, hc, he⟩ := List.countP_pos_iff.1 hpos
    exact (h.flights.current a e c hg hc (of_decide_eq_true he)).2
  · exact hs (h.flights.current a e c hg hc he).2

/-- All start over while "A" has a subscription, and "A" is let go before its new one comes. -/
theorem orderly_small : ∃ d, Run (new ⟨1000, 60000⟩) d ∧ d.granted = [7, 8, 9] ∧
    d.dropped = [7] ∧ d.returned = [8] ∧ d.out = [] ∧ d.watches.addressOf? 9 = some "B" ∧
    d.Orderly := by
  have h₁ := Relation.ReflTransGen.single (Step.acquire (d := new ⟨1000, 60000⟩) "A" none 0 rfl)
  have h₂ := h₁.tail (.grant 7 1 (show ("A", 1) ∈ _ by decide) (by decide) rfl)
  have h₃ := h₂.tail (.resubscribe 2)
  have h₄ := h₃.tail (.release "A" none rfl)
  have h₅ := h₄.tail (.grant 8 4 (show ("A", 3) ∈ _ by decide) (by decide) rfl)
  have h₆ := h₅.tail (.acquire "B" (some "room") 5 rfl)
  have h₇ := h₆.tail (.grant 9 6 (show ("B", 4) ∈ _ by decide) (by decide) rfl)
  exact ⟨_, h₇, rfl, rfl, rfl, rfl, rfl, orderly_of_run _ _ h₇⟩

end Dealings

end SwapFloor
