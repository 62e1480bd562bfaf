import SwapFloor.Proofs.Watch.Holdings

/-!
# Operations that interleave

The watches are shared by callers that run at the same time, and an operation has them to itself
only while it deals with one entry. A release counts down first and drops the entry later; a call
is started and its answer is taken in later; starting over forgets all subscriptions first and then
reaches one address after the other. Between any two of these moves others may come.

Two gaps are left. Who acquires an address between the two moves of its last release makes it start
anew, and the subscription that it had is neither given back nor forgotten (`displaced`). A
subscription that comes in after all were forgotten and before its address is reached stays in the
table of addresses (`late`). Nothing else gets lost.

Main statements: operations that nobody gets into are as before (`run_release`, `run_startOver`),
what holds however they interleave (`accounted_run`, `kept_run`), and that all is settled when
nobody gets into a gap (`settled_of_clear`).
-/

namespace SwapFloor

namespace Watches

/-! ## The subscription of an address -/

/-- The subscription of an address, if it has one. -/
def idOf? (w : Watches) (a : String) : Option SubscriptionId := (w.get? a).bind (·.activeId?)

/-- The subscription that an address has in `w` and no longer in `w'`. -/
def lost (w w' : Watches) (a : String) : List SubscriptionId :=
  (w.idOf? a).toList.filter fun id => w'.idOf? a ≠ some id

variable {w w' : Watches} {a : String}

theorem holds_iff {id : SubscriptionId} : w.Holds a id ↔ w.idOf? a = some id := by
  unfold Holds idOf?
  rw [Option.bind_eq_some_iff]
  exact exists_congr fun e => and_congr_right fun _ => activeId?_eq_some_iff.symm

theorem mem_lost {id : SubscriptionId} :
    id ∈ lost w w' a ↔ w.Holds a id ∧ ¬ w'.Holds a id := by
  unfold lost
  rw [List.mem_filter, Option.mem_toList, decide_eq_true_iff, holds_iff, holds_iff]

theorem lost_eq_nil (h : ∀ id, w'.Holds a id ↔ w.Holds a id) : lost w w' a = [] :=
  List.eq_nil_iff_forall_not_mem.2 fun _ hm => (mem_lost.1 hm).2 ((h _).2 (mem_lost.1 hm).1)

theorem holds_congr {id : SubscriptionId} (h : w'.get? a = w.get? a) :
    w'.Holds a id ↔ w.Holds a id := by
  unfold Holds
  rw [h]

/-- An entry that is put in the place of another one with the same stage loses nothing. -/
theorem holds_put_iff {e e' : Watch} (hg : w.get? a = some e) (hs : e'.stage = e.stage)
    (id : SubscriptionId) : (w.put a e').Holds a id ↔ w.Holds a id := by
  rw [holds_iff_of_get? hg, holds_iff_of_get? ((get?_put ..).trans (if_pos rfl)), hs]

/-- Who drops the entry of an address to which nobody refers lets the address go. -/
theorem letGo_of_unused {e : Watch} (hg : w.get? a = some e) (hrefs : e.refs = 0) :
    LetGo w a (w.dropUnused a) := by
  have hgone : ∀ w' : Watches, w'.entries = w.entries.erase a → w'.lastEpoch = w.lastEpoch →
      Gone w w' a e := by
    intro w' he hl
    refine ⟨hg, fun b => ?_, hl⟩
    unfold get?
    rw [he, Table.get?_erase]
  unfold dropUnused
  rw [hg]
  dsimp only
  rw [if_pos hrefs]
  cases hs : e.stage with
  | active id => exact .active (hgone _ rfl rfl) hs rfl
  | inFlight => exact .idle (hgone _ rfl rfl) (fun _ h => nomatch hs.symm.trans h) rfl
  | pending => exact .idle (hgone _ rfl rfl) (fun _ h => nomatch hs.symm.trans h) rfl

/-- What becomes of an address that is let go. -/
structure Away (w w' : Watches) (calls : List Call) (a : String) : Prop where
  get? : ∀ b, w'.get? b = if b = a then none else w.get? b
  addressOf? : ∀ id b, w'.addressOf? id = some b → w.addressOf? id = some b
  returned : ∀ id, w.Holds a id → id ∈ returned calls ∧ w'.addressOf? id = none

theorem LetGo.away {r : Watches × Option Call} (h : LetGo w a r) : Away w r.1 r.2.toList a := by
  cases h with
  | idle hgone hidle haddresses =>
    refine ⟨hgone.get?, fun id b hb => ?_, fun id hh => ?_⟩
    · unfold Watches.addressOf? at hb ⊢
      rwa [haddresses] at hb
    · exact absurd ((holds_iff_of_get? hgone.there id).1 hh) (hidle id)
  | @active _ _ id hgone hactive haddresses =>
    have haddress : ∀ {w' : Watches}, w'.addresses = w.addresses.erase id → ∀ id',
        w'.addressOf? id' = if id' = id then none else w.addressOf? id' := by
      intro w' h id'
      unfold Watches.addressOf?
      rw [h, Table.get?_erase]
    refine ⟨hgone.get?, fun id' b hb => ?_, fun id' hh => ?_⟩
    · rw [haddress haddresses] at hb
      split at hb
      · cases hb
      · exact hb
    · have hid := ((holds_iff_of_get? hgone.there id').1 hh).symm.trans hactive
      obtain rfl := Stage.active.inj hid
      exact ⟨List.mem_singleton.2 rfl, (haddress haddresses id').trans (if_pos rfl)⟩

/-- What the answer to a call does to the address: it may gain a subscription and loses none. -/
structure Answered (w w' : Watches) (a : String) : Prop where
  others : ∀ b ≠ a, w'.get? b = w.get? b
  refs : ∀ e', w'.get? a = some e' → ∃ e, w.get? a = some e ∧ e'.refs = e.refs
  addressOf? : ∀ id b, w'.addressOf? id = some b →
    w.addressOf? id = some b ∨ b = a ∧ id ∈ lost w' w a
  kept : ∀ id, w.Holds a id → w'.Holds a id

theorem answered_complete (w : Watches) (a : String) (epoch : Nat)
    (result : Option SubscriptionId) (now : Nat) :
    Answered w (w.complete a epoch result now).1 a := by
  by_cases hawaits : ∃ e, w.Awaits a epoch e
  · obtain ⟨e, hawaits⟩ := hawaits
    have ⟨hg, _, hs⟩ := hawaits
    have hfree : ∀ id, ¬ w.Holds a id := fun id hh =>
      nomatch hs.symm.trans ((holds_iff_of_get? hg id).1 hh)
    have hput : ∀ (w' : Watches) {e' : Watch}, (∀ b, w'.get? b = (w.put a e').get? b) →
        e'.refs = e.refs → (∀ b ≠ a, w'.get? b = w.get? b) ∧
          ∀ d, w'.get? a = some d → ∃ e, w.get? a = some e ∧ d.refs = e.refs := by
      intro w' e' hget hrefs
      refine ⟨fun b hb => by rw [hget, get?_put, if_neg hb], fun d hd => ⟨e, hg, ?_⟩⟩
      rw [hget, get?_put, if_pos rfl] at hd
      rw [← Option.some.inj hd, hrefs]
    cases result with
    | some id =>
      rw [complete_granted hawaits]
      obtain ⟨hothers, hrefs⟩ := hput
        (show_ { w.put a { e with stage := .active id, attempts := 0 } with
          addresses := w.addresses.insert id a }) (fun _ => rfl) rfl
      refine ⟨hothers, hrefs, fun id' b hb => ?_, fun id' hh => absurd hh (hfree id')⟩
      replace hb : (w.addresses.insert id a).get? id' = some b := hb
      rw [Table.get?_insert] at hb
      split at hb
      · rename_i hid
        obtain rfl : a = b := Option.some.inj hb
        refine Or.inr ⟨rfl, mem_lost.2 ⟨⟨_, (get?_put ..).trans (if_pos rfl), ?_⟩, hfree id'⟩⟩
        rw [hid]
      · exact Or.inl hb
    | none =>
      obtain ⟨attempts, dueAt, heq⟩ := complete_refused hawaits now
      rw [heq]
      obtain ⟨hothers, hrefs⟩ := hput
        (show_ { w.put a { e with stage := .pending attempts dueAt, attempts := attempts }
          with failures := w.failures + 1 }) (fun _ => rfl) rfl
      exact ⟨hothers, hrefs, fun _ _ hb => Or.inl hb, fun id hh => absurd hh (hfree id)⟩
  · rw [complete_outdated fun e he => hawaits ⟨e, he⟩]
    exact ⟨fun _ _ => rfl, fun e' he' => ⟨e', he', rfl⟩, fun _ _ hb => Or.inl hb,
      fun _ hh => hh⟩

end Watches

open Watches

/-! ## Moves -/

/-- What an operation that has begun still has to do. -/
inductive Task where
  /-- A release that has counted down to nothing has to drop the entry. -/
  | drop (a : String)
  /-- A call for a subscription has to be answered. -/
  | answer (a : String) (epoch : Nat)
  /-- Starting over has reached these addresses. -/
  | startOver (reached : List String)
  deriving DecidableEq

/-- Starting over is under way and has yet to reach the address. -/
def Task.comesTo (a : String) : Task → Bool
  | .startOver reached => !reached.contains a
  | _ => false

/-- The answers to wait for after calls to the provider. -/
def Task.ofCalls (calls : List Call) : List Task := (asked calls).map fun c => .answer c.1 c.2

/-- The watches, shared by operations that are under way. -/
structure Shared where
  watches : Watches
  tasks : List Task
  /-- The subscriptions that were handed to the provider to give them back. -/
  returned : List SubscriptionId
  /-- The subscriptions of addresses that have started over. -/
  dropped : List SubscriptionId
  /-- The subscriptions of addresses that were acquired before they were dropped. -/
  displaced : List SubscriptionId
  /-- The subscriptions that came in before their address was reached. -/
  late : List SubscriptionId

/-- What is done without letting others come between. -/
inductive Move where
  | acquire (a : String) (room : Option String) (now : Nat)
  /-- A release counts down. -/
  | countDown (a : String) (room : Option String)
  /-- A release drops the entry. -/
  | drop (a : String)
  | answer (a : String) (epoch : Nat) (result : Option SubscriptionId) (now : Nat)
  /-- Starting over forgets all subscriptions. -/
  | forget
  /-- Starting over reaches one more address. -/
  | restart (reached : List String) (a : String) (now : Nat)
  /-- Starting over has come to its end, wherever it has got to. -/
  | finish (reached : List String)
  /-- A round of tries comes to an address. -/
  | retry (a : String) (now : Nat)

namespace Shared

/-- Nothing has been watched yet. -/
def new (b : Backoff) : Shared := ⟨.new b, [], [], [], [], []⟩

/-- Some operation that starts over has yet to reach the address. -/
def awaited (s : Shared) (a : String) : Bool := s.tasks.any (·.comesTo a)

/-- Makes a move, unless it belongs to an operation that is not under way. -/
def step (s : Shared) : Move → Shared
  | .acquire a room now =>
    let r := s.watches.acquire a room now
    { s with
      watches := r.1
      tasks := s.tasks ++ Task.ofCalls r.2.toList
      displaced := s.displaced ++ lost s.watches r.1 a }
  | .countDown a room =>
    let r := s.watches.decrement a room
    { s with watches := r.1, tasks := if r.2 then s.tasks ++ [.drop a] else s.tasks }
  | .drop a =>
    if .drop a ∈ s.tasks then
      let r := s.watches.dropUnused a
      { s with
        watches := r.1
        tasks := s.tasks.erase (.drop a)
        returned := s.returned ++ Watches.returned r.2.toList }
    else s
  | .answer a epoch result now =>
    if .answer a epoch ∈ s.tasks then
      let r := s.watches.complete a epoch result now
      { s with
        watches := r.1
        tasks := s.tasks.erase (.answer a epoch)
        returned := s.returned ++ Watches.returned r.2.toList
        late := if s.awaited a then s.late ++ lost r.1 s.watches a else s.late }
    else s
  | .forget =>
    { s with watches := s.watches.forgetIds, tasks := s.tasks ++ [.startOver []] }
  | .restart reached a now =>
    if .startOver reached ∈ s.tasks ∧ a ∉ reached then
      let w := s.watches.restart a now
      { s with
        watches := w
        tasks := s.tasks.erase (.startOver reached) ++ [.startOver (a :: reached)]
        dropped := s.dropped ++ lost s.watches w a }
    else s
  | .finish reached => { s with tasks := s.tasks.erase (.startOver reached) }
  | .retry a now =>
    match s.watches.get? a with
    | some e =>
      if e.isDue now then
        let r := s.watches.start a e
        { s with watches := r.1, tasks := s.tasks ++ Task.ofCalls [r.2] }
      else s
    | none => s

def run (s : Shared) (ms : List Move) : Shared := ms.foldl step s

variable {s s' : Shared} {a : String}

theorem awaited_iff :
    s.awaited a = true ↔ ∃ reached, Task.startOver reached ∈ s.tasks ∧ a ∉ reached := by
  unfold awaited
  rw [List.any_eq_true]
  constructor
  · rintro ⟨t, ht, hc⟩
    cases t with
    | startOver reached => exact ⟨reached, ht, by simpa [Task.comesTo] using hc⟩
    | _ => cases hc
  · rintro ⟨reached, ht, ha⟩
    exact ⟨_, ht, by simpa [Task.comesTo] using ha⟩

/-! ## What a move does -/

/-- Somebody refers to every address that is watched, unless a release is about to drop it. -/
def Attended (s : Shared) : Prop :=
  ∀ a e, s.watches.get? a = some e → e.refs = 0 → Task.drop a ∈ s.tasks

/-- A move deals with one address. What the address loses by it is noted, and a subscription that
the address gains is late if it has yet to be reached. -/
structure Advance (s s' : Shared) (a : String) : Prop where
  others : ∀ b ≠ a, s'.watches.get? b = s.watches.get? b
  drops : ∀ b ≠ a, Task.drop b ∈ s.tasks → Task.drop b ∈ s'.tasks
  unused : s.Attended → ∀ e, s'.watches.get? a = some e → e.refs = 0 → Task.drop a ∈ s'.tasks
  addressOf? : ∀ id b, s'.watches.addressOf? id = some b →
    s.watches.addressOf? id = some b ∨ b = a ∧ id ∈ lost s'.watches s.watches a
  /-- Who has begun to start over has forgotten all subscriptions. -/
  awaited : ∀ id b, s'.awaited b = true → s'.watches.addressOf? id = some b → s.awaited b = true
  lost : ∀ id ∈ lost s.watches s'.watches a, id ∈ s'.displaced ∨
    id ∈ s'.returned ∧ s'.watches.addressOf? id = none ∨ id ∈ s'.dropped ∧ s.awaited a = true
  gained : ∀ id ∈ Watches.lost s'.watches s.watches a, s.awaited a = true → id ∈ s'.late
  returned : s.returned ⊆ s'.returned
  dropped : s.dropped ⊆ s'.dropped
  displaced : s.displaced ⊆ s'.displaced
  late : s.late ⊆ s'.late

namespace Advance

theorem refl (s : Shared) (a : String) : Advance s s a where
  others _ _ := rfl
  drops _ _ h := h
  unused h e hg hr := h a e hg hr
  addressOf? _ _ h := Or.inl h
  awaited _ _ h _ := h
  lost _ h := absurd (mem_lost.1 h).1 (mem_lost.1 h).2
  gained _ h := absurd (mem_lost.1 h).1 (mem_lost.1 h).2
  returned := List.Subset.refl _
  dropped := List.Subset.refl _
  displaced := List.Subset.refl _
  late := List.Subset.refl _

/-- An entry is put in its place, without a subscription that the address did not have, and the
table of addresses stays. -/
theorem put {w : Watches} {tasks : List Task} {displaced : List SubscriptionId} {e : Watch}
    (hget : ∀ b, w.get? b = (s.watches.put a e).get? b)
    (haddresses : w.addresses = s.watches.addresses)
    (hheld : ∀ id, e.stage = .active id → s.watches.Holds a id)
    (hunused : s.Attended → e.refs = 0 → Task.drop a ∈ tasks)
    (hdrops : ∀ b, Task.drop b ∈ s.tasks → Task.drop b ∈ tasks)
    (hawaited : ∀ b, { s with tasks := tasks }.awaited b = true → s.awaited b = true)
    (hlost : ∀ id ∈ Watches.lost s.watches w a, id ∈ displaced)
    (hdisplaced : s.displaced ⊆ displaced) :
    Advance s { s with watches := w, tasks := tasks, displaced := displaced } a where
  others b hb := by rw [hget, get?_put, if_neg hb]
  drops b _ := hdrops b
  unused h e' hg hr := by
    rw [hget, get?_put, if_pos rfl] at hg
    cases hg
    exact hunused h hr
  addressOf? id b h := by
    unfold Watches.addressOf? at h ⊢
    rw [haddresses] at h
    exact Or.inl h
  awaited _ b h _ := hawaited b h
  lost id h := Or.inl (hlost id h)
  gained id h := by
    obtain ⟨e', hg, hs⟩ := (mem_lost.1 h).1
    rw [hget, get?_put, if_pos rfl] at hg
    cases hg
    exact absurd (hheld id hs) (mem_lost.1 h).2
  returned := List.Subset.refl _
  dropped := List.Subset.refl _
  displaced := hdisplaced
  late := List.Subset.refl _

end Advance

theorem any_ofCalls (calls : List Call) (b : String) :
    (Task.ofCalls calls).any (·.comesTo b) = false := by
  unfold Task.ofCalls
  rw [List.any_map]
  exact List.any_eq_false.2 fun _ _ => Bool.false_ne_true

theorem awaited_ofCalls {calls : List Call} {b : String}
    (h : { s with tasks := s.tasks ++ Task.ofCalls calls }.awaited b = true) :
    s.awaited b = true := by
  unfold awaited at h ⊢
  rwa [List.any_append, any_ofCalls, Bool.or_false] at h

theorem advance_acquire (s : Shared) (a : String) (room : Option String) (now : Nat) :
    Advance s (s.step (.acquire a room now)) a := by
  have hput : ∀ r : Watches × Option Call, s.watches.acquire a room now = r →
      ∀ e : Watch, (∀ b, r.1.get? b = (s.watches.put a e).get? b) →
      r.1.addresses = s.watches.addresses →
      (∀ id, e.stage = .active id → s.watches.Holds a id) → e.refs ≠ 0 →
      Advance s (s.step (.acquire a room now)) a := by
    intro r hr e hget haddresses hheld hrefs
    unfold step
    dsimp only
    rw [hr]
    exact .put hget haddresses hheld (fun _ h => absurd h hrefs)
      (fun _ => List.mem_append_left _) (fun _ => awaited_ofCalls)
      (fun _ hl => List.mem_append_right _ hl) (List.subset_append_left ..)
  rcases s.watches.acquire_eq_or a room now with he | ⟨e, rooms, hg, he⟩
  · have hlost : lost s.watches s.watches a = [] := lost_eq_nil fun _ => Iff.rfl
    have hstep : s.step (.acquire a room now) = s := by
      unfold step
      dsimp only
      rw [he, hlost, Option.toList_none, show Task.ofCalls [] = [] from rfl, List.append_nil,
        List.append_nil]
    rw [hstep]
    exact .refl s a
  · split at he
    · exact hput _ he _ (fun _ => rfl) rfl nofun (Nat.succ_ne_zero _)
    · refine hput _ he _ (fun _ => rfl) rfl (fun id hs => ?_) (Nat.succ_ne_zero _)
      cases hw : s.watches.get? a with
      | none =>
        rw [hw] at hg
        rw [← hg] at hs
        cases hs
      | some e' =>
        rw [hw] at hg
        obtain rfl : e' = e := hg
        exact ⟨e', hw, hs⟩

theorem advance_countDown (s : Shared) (a : String) (room : Option String) :
    Advance s (s.step (.countDown a room)) a := by
  unfold step
  dsimp only
  rcases s.watches.decrement_eq_or a room with hd | ⟨e, rooms, hg, hd⟩
  · rw [hd]
    exact .refl s a
  · rw [hd]
    have hdrops : ∀ (last : Bool) b, Task.drop b ∈ s.tasks →
        Task.drop b ∈ if last then s.tasks ++ [.drop a] else s.tasks := by
      intro last b hb
      split
      · exact List.mem_append_left _ hb
      · exact hb
    refine .put (fun _ => rfl) rfl (fun id hs => ⟨e, hg, hs⟩) (fun _ hr => ?_) (hdrops _)
      (fun b hb => ?_) (fun id hl => ?_) (List.Subset.refl _)
    · have hlast : (e.refs - 1 == 0) = true := beq_iff_eq.2 hr
      dsimp only
      rw [hlast, if_pos rfl]
      exact List.mem_append_right _ (List.mem_singleton.2 rfl)
    · unfold awaited at hb ⊢
      dsimp only at hb
      split at hb
      · rwa [List.any_append, show [Task.drop a].any (·.comesTo b) = false from rfl,
          Bool.or_false] at hb
      · exact hb
    · obtain ⟨hh, hn⟩ := mem_lost.1 hl
      refine absurd ((holds_put_iff hg ?_ id).2 hh) hn
      rfl

theorem drop_mem_erase {ts : List Task} {t : Task} (ht : ∀ b, Task.drop b ≠ t) {b : String}
    (h : Task.drop b ∈ ts) : Task.drop b ∈ ts.erase t := (List.mem_erase_of_ne (ht b)).2 h

theorem awaited_erase {t : Task} {b : String}
    (h : { s with tasks := s.tasks.erase t }.awaited b = true) : s.awaited b = true := by
  unfold awaited at h ⊢
  obtain ⟨t', ht', hc⟩ := List.any_eq_true.1 h
  exact List.any_eq_true.2 ⟨t', List.mem_of_mem_erase ht', hc⟩

theorem advance_drop (s : Shared) (a : String) : Advance s (s.step (.drop a)) a := by
  have hdrops : ∀ b ≠ a, Task.drop b ∈ s.tasks → Task.drop b ∈ s.tasks.erase (.drop a) :=
    fun b hb hm => (List.mem_erase_of_ne fun h => hb (Task.drop.inj h)).2 hm
  unfold step
  dsimp only
  split
  · by_cases hunused : ∃ e, s.watches.get? a = some e ∧ e.refs = 0
    · obtain ⟨e, hg, hr⟩ := hunused
      have haway := (letGo_of_unused hg hr).away
      have hnone : (s.watches.dropUnused a).1.get? a = none := (haway.get? a).trans (if_pos rfl)
      exact {
        others := fun b hb => (haway.get? b).trans (if_neg hb)
        drops := hdrops
        unused := fun _ e' he' => nomatch hnone.symm.trans he'
        addressOf? := fun id b hb => Or.inl (haway.addressOf? id b hb)
        awaited := fun _ _ h _ => awaited_erase h
        lost := fun id hl =>
          have ⟨hm, ha⟩ := haway.returned id (mem_lost.1 hl).1
          Or.inr (Or.inl ⟨List.mem_append_right _ hm, ha⟩)
        gained := fun id hl => by
          obtain ⟨e', he', _⟩ := (mem_lost.1 hl).1
          exact nomatch hnone.symm.trans he'
        returned := List.subset_append_left ..
        dropped := List.Subset.refl _
        displaced := List.Subset.refl _
        late := List.Subset.refl _ }
    · -- Somebody has come to refer to the address again, or another release has dropped it.
      have hkept : s.watches.dropUnused a = (s.watches, none) := by
        unfold dropUnused
        cases hg : s.watches.get? a with
        | none => rfl
        | some e => exact if_neg fun hr => hunused ⟨e, hg, hr⟩
      rw [hkept]
      exact { Advance.refl s a with
        drops := hdrops
        unused := fun _ e hg hr => absurd ⟨e, hg, hr⟩ hunused
        awaited := fun _ _ h _ => awaited_erase h
        lost := fun _ h => absurd (mem_lost.1 h).1 (mem_lost.1 h).2
        returned := List.subset_append_left .. }
  · exact .refl s a

theorem advance_answer (s : Shared) (a : String) (epoch : Nat) (result : Option SubscriptionId)
    (now : Nat) : Advance s (s.step (.answer a epoch result now)) a := by
  unfold step
  dsimp only
  split
  · have h := answered_complete s.watches a epoch result now
    have hdrops : ∀ b, Task.drop b ∈ s.tasks → Task.drop b ∈ s.tasks.erase (.answer a epoch) :=
      fun _ => drop_mem_erase (t := .answer a epoch) nofun
    exact {
      others := h.others
      drops := fun b _ => hdrops b
      unused := fun hs e' he' hr =>
        have ⟨e, hg, he⟩ := h.refs e' he'
        hdrops a (hs a e hg (he ▸ hr))
      addressOf? := h.addressOf?
      awaited := fun _ _ hb _ => awaited_erase hb
      lost := fun id hl => absurd (h.kept id (mem_lost.1 hl).1) (mem_lost.1 hl).2
      gained := fun id hl ha => by
        dsimp only
        rw [if_pos ha]
        exact List.mem_append_right _ hl
      returned := List.subset_append_left ..
      dropped := List.Subset.refl _
      displaced := List.Subset.refl _
      late := by
        dsimp only
        split
        · exact List.subset_append_left ..
        · exact List.Subset.refl _ }
  · exact .refl s a

theorem advance_forget (s : Shared) (a : String) : Advance s (s.step .forget) a where
  others _ _ := rfl
  drops _ _ h := List.mem_append_left _ h
  unused h e hg hr := List.mem_append_left _ (h a e hg hr)
  addressOf? _ _ h := nomatch h
  awaited _ _ _ h := nomatch h
  lost _ h := absurd (mem_lost.1 h).1 (mem_lost.1 h).2
  gained _ h := absurd (mem_lost.1 h).1 (mem_lost.1 h).2
  returned := List.Subset.refl _
  dropped := List.Subset.refl _
  displaced := List.Subset.refl _
  late := List.Subset.refl _

theorem advance_restart (s : Shared) (reached : List String) (a : String) (now : Nat) :
    Advance s (s.step (.restart reached a now)) a := by
  unfold step
  dsimp only
  split
  · rename_i h
    obtain ⟨hm, ha⟩ := h
    have hdrops : ∀ b, Task.drop b ∈ s.tasks →
        Task.drop b ∈ s.tasks.erase (.startOver reached) ++ [Task.startOver (a :: reached)] :=
      fun _ hb => List.mem_append_left _ (drop_mem_erase (t := .startOver reached) nofun hb)
    -- Who has reached the address has yet to reach any address that it had not reached then.
    have hawaited : ∀ b, (s.tasks.erase (.startOver reached) ++ [Task.startOver (a :: reached)]).any
        (·.comesTo b) = true → s.awaited b = true := by
      intro b hb
      obtain ⟨t, ht, hc⟩ := List.any_eq_true.1 hb
      rcases List.mem_append.1 ht with ht | ht
      · exact List.any_eq_true.2 ⟨t, List.mem_of_mem_erase ht, hc⟩
      · obtain rfl := List.mem_singleton.1 ht
        refine awaited_iff.2 ⟨reached, hm, fun hb => ?_⟩
        simp [Task.comesTo, hb] at hc
    have hget : ∀ b ≠ a, (s.watches.restart a now).get? b = s.watches.get? b := fun b hb =>
      (get?_restart ..).trans (if_neg hb)
    have hentry : ∀ e', (s.watches.restart a now).get? a = some e' →
        ∃ e, s.watches.get? a = some e ∧ e'.refs = e.refs ∧ e'.stage = .pending 0 now := by
      intro e' he'
      rw [get?_restart, if_pos rfl] at he'
      obtain ⟨e, he, rfl⟩ := Option.map_eq_some_iff.1 he'
      exact ⟨e, he, rfl, rfl⟩
    exact {
      others := hget
      drops := fun b _ => hdrops b
      unused := fun hs e' he' hr =>
        have ⟨e, hg, he, _⟩ := hentry e' he'
        hdrops a (hs a e hg (he ▸ hr))
      addressOf? := fun id b hb => by
        unfold Watches.addressOf? at hb ⊢
        dsimp only at hb
        rw [addresses_restart] at hb
        exact Or.inl hb
      awaited := fun _ b hb _ => hawaited b hb
      lost := fun id hl =>
        Or.inr (Or.inr ⟨List.mem_append_right _ hl, awaited_iff.2 ⟨reached, hm, ha⟩⟩)
      gained := fun id hl => by
        obtain ⟨e', he', hs⟩ := (mem_lost.1 hl).1
        obtain ⟨_, _, _, hp⟩ := hentry e' he'
        exact nomatch hp.symm.trans hs
      returned := List.Subset.refl _
      dropped := List.subset_append_left ..
      displaced := List.Subset.refl _
      late := List.Subset.refl _ }
  · exact .refl s a

theorem advance_finish (s : Shared) (reached : List String) (a : String) :
    Advance s (s.step (.finish reached)) a where
  others _ _ := rfl
  drops _ _ := drop_mem_erase (t := .startOver reached) nofun
  unused h e hg hr := drop_mem_erase (t := .startOver reached) nofun (h a e hg hr)
  addressOf? _ _ h := Or.inl h
  awaited _ _ h _ := awaited_erase h
  lost _ h := absurd (mem_lost.1 h).1 (mem_lost.1 h).2
  gained _ h := absurd (mem_lost.1 h).1 (mem_lost.1 h).2
  returned := List.Subset.refl _
  dropped := List.Subset.refl _
  displaced := List.Subset.refl _
  late := List.Subset.refl _

theorem advance_retry (s : Shared) (a : String) (now : Nat) :
    Advance s (s.step (.retry a now)) a := by
  unfold step
  dsimp only
  split
  · rename_i e hg
    split
    · rename_i hdue
      obtain ⟨attempts, dueAt, hs, _, hr⟩ := isDue_iff.1 hdue
      refine .put (fun _ => rfl) rfl nofun (fun _ h => absurd h (Nat.ne_of_gt hr))
        (fun _ => List.mem_append_left _) (fun _ => awaited_ofCalls) (fun id hl => ?_)
        (List.Subset.refl _)
      have hh := (holds_iff_of_get? hg id).1 (mem_lost.1 hl).1
      exact nomatch hs.symm.trans hh
    · exact .refl s a
  · exact .refl s a

/-- Every move deals with one address at most. -/
theorem exists_advance (s : Shared) (m : Move) : ∃ a, Advance s (s.step m) a := by
  cases m with
  | acquire a room now => exact ⟨a, advance_acquire s a room now⟩
  | countDown a room => exact ⟨a, advance_countDown s a room⟩
  | drop a => exact ⟨a, advance_drop s a⟩
  | answer a epoch result now => exact ⟨a, advance_answer s a epoch result now⟩
  | forget => exact ⟨"", advance_forget s ""⟩
  | restart reached a now => exact ⟨a, advance_restart s reached a now⟩
  | finish reached => exact ⟨"", advance_finish s reached ""⟩
  | retry a now => exact ⟨a, advance_retry s a now⟩

/-- A release that nobody gets into is the operation as a whole. -/
theorem run_release (h : Task.drop a ∉ s.tasks) (room : Option String) :
    (s.run [.countDown a room, .drop a]).watches = (s.watches.release a room).1 := by
  show ((s.step (.countDown a room)).step (.drop a)).watches = _
  unfold release
  cases hd : s.watches.decrement a room with
  | mk w last =>
    have hfirst : s.step (.countDown a room)
        = { s with watches := w, tasks := if last then s.tasks ++ [.drop a] else s.tasks } := by
      unfold step
      dsimp only
      rw [hd]
    rw [hfirst]
    unfold step
    cases last with
    | true =>
      dsimp only
      rw [if_pos rfl, if_pos (List.mem_append_right _ (List.mem_singleton.2 rfl))]
    | false =>
      dsimp only
      rw [if_neg Bool.false_ne_true, if_neg h]

/-- Starting over reaches one address after the other and comes to its end. -/
def reaching (reached : List String) (now : Nat) : List String → List Move
  | [] => [.finish reached]
  | a :: rest => .restart reached a now :: reaching (a :: reached) now rest

theorem run_reaching {reached as : List String} (h : Task.startOver reached ∈ s.tasks)
    (hnew : ∀ a ∈ as, a ∉ reached) (has : as.Nodup) (now : Nat) :
    (s.run (reaching reached now as)).watches
      = as.foldl (fun w a => w.restart a now) s.watches := by
  induction as generalizing s reached with
  | nil => rfl
  | cons a as ih =>
    obtain ⟨ha, has⟩ := List.nodup_cons.1 has
    have hfirst : s.step (.restart reached a now)
        = { s with
            watches := s.watches.restart a now
            tasks := s.tasks.erase (.startOver reached) ++ [.startOver (a :: reached)]
            dropped := s.dropped ++ lost s.watches (s.watches.restart a now) a } := by
      unfold step
      exact if_pos ⟨h, hnew a List.mem_cons_self⟩
    show ((s.step (.restart reached a now)).run (reaching (a :: reached) now as)).watches = _
    rw [hfirst, List.foldl_cons]
    refine ih (List.mem_append_right _ (List.mem_singleton.2 rfl)) (fun b hb hm => ?_) has
    rcases List.mem_cons.1 hm with rfl | hm
    · exact ha hb
    · exact hnew b (List.mem_cons_of_mem _ hb) hm

/-- If nobody gets into it, starting over is the operation as a whole. -/
theorem run_startOver (s : Shared) (now : Nat) :
    (s.run (.forget :: reaching [] now s.watches.entries.keys)).watches.show_
      = s.watches.restartAll now := by
  have hbegun : Task.startOver [] ∈ (s.step .forget).tasks :=
    List.mem_append_right _ (List.mem_singleton.2 rfl)
  have hreached := run_reaching hbegun (fun _ _ => List.not_mem_nil) s.watches.entries.nodup now
  unfold restartAll
  exact congrArg show_ hreached

/-! ## What holds however operations interleave -/

/-- An address in the table of addresses has the subscription, or one of the gaps is to blame. -/
structure Accounted (s : Shared) : Prop where
  attended : s.Attended
  mapped : ∀ id a, s.watches.addressOf? id = some a →
    s.watches.Holds a id ∨ id ∈ s.displaced ∨ id ∈ s.late
  late : ∀ id a, s.awaited a = true → s.watches.addressOf? id = some a → id ∈ s.late

/-- The address has the subscription, or it is noted what has become of it. -/
def Kept (s : Shared) (a : String) (id : SubscriptionId) : Prop :=
  s.watches.Holds a id ∨ id ∈ s.returned ∨ id ∈ s.dropped ∨ id ∈ s.displaced

theorem accounted_new (b : Backoff) : (new b).Accounted where
  attended _ _ h := nomatch h
  mapped _ _ h := nomatch h
  late _ _ _ h := nomatch h

namespace Advance

theorem accounted (hs : Advance s s' a) (h : s.Accounted) : s'.Accounted where
  attended b e hg hr := by
    by_cases hb : b = a
    · subst hb
      exact hs.unused h.attended e hg hr
    · rw [hs.others b hb] at hg
      exact hs.drops b hb (h.attended b e hg hr)
  mapped id b hid := by
    rcases hs.addressOf? id b hid with hold | ⟨_, hnew⟩
    · rcases h.mapped id b hold with hh | hdisplaced | hlate
      · by_cases hh' : s'.watches.Holds b id
        · exact Or.inl hh'
        · by_cases hb : b = a
          · subst hb
            rcases hs.lost id (mem_lost.2 ⟨hh, hh'⟩) with hl | ⟨_, hnone⟩ | ⟨_, hawaited⟩
            · exact Or.inr (Or.inl hl)
            · exact nomatch hnone.symm.trans hid
            · exact Or.inr (Or.inr (hs.late (h.late id b hawaited hold)))
          · exact absurd ((holds_congr (hs.others b hb)).2 hh) hh'
      · exact Or.inr (Or.inl (hs.displaced hdisplaced))
      · exact Or.inr (Or.inr (hs.late hlate))
    · rename_i hb
      exact Or.inl (hb ▸ (mem_lost.1 hnew).1)
  late id b hb hid := by
    have hawaited := hs.awaited id b hb hid
    rcases hs.addressOf? id b hid with hold | ⟨rfl, hnew⟩
    · exact hs.late (h.late id b hawaited hold)
    · exact hs.gained id hnew hawaited

theorem kept (hs : Advance s s' a) {b : String} {id : SubscriptionId} (h : s.Kept b id) :
    s'.Kept b id := by
  rcases h with hh | hreturned | hdropped | hdisplaced
  · by_cases hh' : s'.watches.Holds b id
    · exact Or.inl hh'
    · by_cases hb : b = a
      · subst hb
        rcases hs.lost id (mem_lost.2 ⟨hh, hh'⟩) with hl | ⟨hl, _⟩ | ⟨hl, _⟩
        · exact Or.inr (Or.inr (Or.inr hl))
        · exact Or.inr (Or.inl hl)
        · exact Or.inr (Or.inr (Or.inl hl))
      · exact absurd ((holds_congr (hs.others b hb)).2 hh) hh'
  · exact Or.inr (Or.inl (hs.returned hreturned))
  · exact Or.inr (Or.inr (Or.inl (hs.dropped hdropped)))
  · exact Or.inr (Or.inr (Or.inr (hs.displaced hdisplaced)))

end Advance

/-- However operations interleave, an address in the table of addresses has the subscription unless
one of the gaps is to blame. -/
theorem accounted_run (h : s.Accounted) (ms : List Move) : (s.run ms).Accounted := by
  induction ms generalizing s with
  | nil => exact h
  | cons m ms ih =>
    obtain ⟨a, hs⟩ := s.exists_advance m
    exact ih (hs.accounted h)

/-- However operations interleave, no subscription that an address had gets lost, unless it is
displaced. -/
theorem kept_run {id : SubscriptionId} (h : s.Kept a id) (ms : List Move) :
    (s.run ms).Kept a id := by
  induction ms generalizing s with
  | nil => exact h
  | cons m ms ih =>
    obtain ⟨_, hs⟩ := s.exists_advance m
    exact ih (hs.kept h)

/-! ## When nobody gets into a gap -/

/-- The move does not get into a gap. -/
def isClear (s : Shared) : Move → Bool
  | .acquire a _ _ => .drop a ∉ s.tasks
  | .answer a _ _ _ => !s.awaited a
  | _ => true

/-- None of the moves gets into a gap. -/
def allClear (s : Shared) : List Move → Bool
  | [] => true
  | m :: ms => s.isClear m && (s.step m).allClear ms

/-- An address loses its subscription to who acquires it only if nobody referred to it. -/
theorem unused_of_lost {w : Watches} {room : Option String} {now : Nat} {id : SubscriptionId}
    (h : id ∈ lost w (w.acquire a room now).1 a) : ∃ e, w.get? a = some e ∧ e.refs = 0 := by
  obtain ⟨⟨e', hg, hs⟩, hn⟩ := mem_lost.1 h
  rcases w.acquire_eq_or a room now with he | ⟨e, rooms, he, heq⟩
  · rw [he] at hn
    exact absurd ⟨e', hg, hs⟩ hn
  · rw [hg] at he
    obtain rfl : e' = e := he
    split at heq
    · exact ⟨e', hg, by omega⟩
    · rw [heq] at hn
      refine absurd ((holds_put_iff hg ?_ id).2 ⟨e', hg, hs⟩) hn
      rfl

theorem step_clear (h : s.Attended) {m : Move} (hm : s.isClear m = true) :
    (s.step m).displaced = s.displaced ∧ (s.step m).late = s.late := by
  cases m with
  | acquire a room now =>
    have hnone : lost s.watches (s.watches.acquire a room now).1 a = [] := by
      refine List.eq_nil_iff_forall_not_mem.2 fun id hid => ?_
      obtain ⟨e, hg, hr⟩ := unused_of_lost hid
      exact of_decide_eq_true hm (h a e hg hr)
    refine ⟨?_, rfl⟩
    unfold step
    dsimp only
    rw [hnone, List.append_nil]
  | answer a epoch result now =>
    have hawaited : s.awaited a = false := by
      unfold isClear at hm
      rwa [Bool.not_eq_true'] at hm
    unfold step
    dsimp only
    split
    · exact ⟨rfl, if_neg (Bool.eq_false_iff.1 hawaited)⟩
    · exact ⟨rfl, rfl⟩
  | countDown a room => exact ⟨rfl, rfl⟩
  | forget => exact ⟨rfl, rfl⟩
  | finish reached => exact ⟨rfl, rfl⟩
  | drop a =>
    unfold step
    dsimp only
    split <;> exact ⟨rfl, rfl⟩
  | restart reached a now =>
    unfold step
    dsimp only
    split <;> exact ⟨rfl, rfl⟩
  | retry a now =>
    unfold step
    dsimp only
    split
    · split <;> exact ⟨rfl, rfl⟩
    · exact ⟨rfl, rfl⟩

theorem run_clear (h : s.Accounted) {ms : List Move} (hms : s.allClear ms = true) :
    (s.run ms).displaced = s.displaced ∧ (s.run ms).late = s.late := by
  induction ms generalizing s with
  | nil => exact ⟨rfl, rfl⟩
  | cons m ms ih =>
    unfold allClear at hms
    obtain ⟨hm, hms⟩ := Bool.and_eq_true_iff.1 hms
    obtain ⟨a, hs⟩ := s.exists_advance m
    obtain ⟨hdisplaced, hlate⟩ := step_clear h.attended hm
    rw [← hdisplaced, ← hlate]
    exact ih (hs.accounted h) hms

theorem run_append (s : Shared) (ms ms' : List Move) : s.run (ms ++ ms') = (s.run ms).run ms' :=
  List.foldl_append ..

/-- What was watched is in order after the moves. -/
structure Settled (b : Backoff) (ms : List Move) : Prop where
  /-- The address of a subscription has it. -/
  mapped : ∀ id a, ((new b).run ms).watches.addressOf? id = some a →
    ((new b).run ms).watches.Holds a id
  /-- What an address had at some time and has no longer was given back, or dropped in starting
  over. -/
  kept : ∀ before after a id, ms = before ++ after → ((new b).run before).watches.Holds a id →
    ((new b).run ms).watches.Holds a id ∨ id ∈ ((new b).run ms).returned ∨
      id ∈ ((new b).run ms).dropped

/-- If nobody gets into a gap, all is settled however operations interleave. -/
theorem settled_of_clear (b : Backoff) {ms : List Move} (h : (new b).allClear ms = true) :
    Settled b ms := by
  obtain ⟨hdisplaced, hlate⟩ := run_clear (accounted_new b) h
  refine ⟨fun id a hid => ?_, fun before after a id hms hh => ?_⟩
  · have hmapped := (accounted_run (accounted_new b) ms).mapped id a hid
    rw [hdisplaced, hlate] at hmapped
    exact hmapped.resolve_right (Or.rec List.not_mem_nil List.not_mem_nil)
  · have hkept := kept_run (s := (new b).run before) (Or.inl hh) after
    rw [← run_append, ← hms] at hkept
    unfold Kept at hkept
    rw [hdisplaced] at hkept
    exact hkept.imp_right (Or.imp_right fun h => h.resolve_right List.not_mem_nil)

/-- The answer for "B" comes between the two moves of the release of "A", and all start over. -/
def orderlyMoves : List Move :=
  [.acquire "A" none 0, .answer "A" 1 (some 7) 0, .acquire "B" none 0, .countDown "A" none,
    .answer "B" 2 (some 8) 0, .drop "A", .forget, .restart [] "B" 0, .finish ["B"], .retry "B" 0,
    .answer "B" 4 (some 9) 0]

theorem settled_orderlyMoves :
    (new ⟨1000, 60000⟩).allClear orderlyMoves = true ∧
      ((new ⟨1000, 60000⟩).run orderlyMoves).tasks = [] ∧
      ((new ⟨1000, 60000⟩).run orderlyMoves).returned = [7] ∧
      ((new ⟨1000, 60000⟩).run orderlyMoves).dropped = [8] ∧
      ((new ⟨1000, 60000⟩).run orderlyMoves).watches.addressOf? 9 = some "B" ∧
      Settled ⟨1000, 60000⟩ orderlyMoves :=
  have hclear : (new ⟨1000, 60000⟩).allClear orderlyMoves = true := by decide +kernel
  ⟨hclear, by decide +kernel, by decide +kernel, by decide +kernel, by decide +kernel,
    settled_of_clear _ hclear⟩

/-! ## When somebody gets into a gap -/

/-- "A" is acquired again between the two moves of its release. -/
def revivingMoves : List Move :=
  [.acquire "A" none 0, .answer "A" 1 (some 7) 0, .countDown "A" none, .acquire "A" none 0,
    .drop "A", .answer "A" 2 (some 8) 0]

/-- The subscription for "A" comes in after all were forgotten and before "A" is reached. -/
def overtakingMoves : List Move :=
  [.acquire "A" none 0, .forget, .answer "A" 1 (some 7) 0, .restart [] "A" 0, .finish ["A"],
    .retry "A" 0, .answer "A" 3 (some 8) 0]

/-- After all operations have come to their ends, "A" has the subscription 8, and 7 is still in the
table of addresses although it was neither given back nor dropped. -/
theorem not_settled_reviving :
    ((new ⟨1000, 60000⟩).run revivingMoves).tasks = [] ∧
      (¬ ∀ id a, ((new ⟨1000, 60000⟩).run revivingMoves).watches.addressOf? id = some a →
        ((new ⟨1000, 60000⟩).run revivingMoves).watches.Holds a id) ∧
      ¬ ∀ before after a id, revivingMoves = before ++ after →
        ((new ⟨1000, 60000⟩).run before).watches.Holds a id →
        ((new ⟨1000, 60000⟩).run revivingMoves).watches.Holds a id ∨
          id ∈ ((new ⟨1000, 60000⟩).run revivingMoves).returned ∨
          id ∈ ((new ⟨1000, 60000⟩).run revivingMoves).dropped := by
  have hnow : ¬ ((new ⟨1000, 60000⟩).run revivingMoves).watches.Holds "A" 7 := by
    rw [holds_iff]
    decide +kernel
  refine ⟨by decide +kernel, fun h => hnow (h 7 "A" (by decide +kernel)), fun h => ?_⟩
  have hthen : ((new ⟨1000, 60000⟩).run (revivingMoves.take 2)).watches.Holds "A" 7 := by
    rw [holds_iff]
    decide +kernel
  rcases h _ _ "A" 7 (List.take_append_drop 2 revivingMoves).symm hthen with hh | hr | hd
  · exact hnow hh
  · exact absurd hr (by decide +kernel)
  · exact absurd hd (by decide +kernel)

/-- Here the subscription 7 was dropped, and it is in the table of addresses all the same. -/
theorem not_mapped_overtaking :
    ((new ⟨1000, 60000⟩).run overtakingMoves).tasks = [] ∧
      ((new ⟨1000, 60000⟩).run overtakingMoves).dropped = [7] ∧
      ((new ⟨1000, 60000⟩).run overtakingMoves).watches.addressOf? 7 = some "A" ∧
      ((new ⟨1000, 60000⟩).run overtakingMoves).watches.idOf? "A" = some 8 := by
  decide +kernel

end Shared

end SwapFloor
