import Mathlib.Data.List.Induction
import Mathlib.Data.List.Infix
import SwapFloor.Proofs.Watch.References

/-!
# How often an address is referred to

Rooms turn to an address and away from it, and so do callers of their own, who are not told apart.
What claims there are on an address follows from these uses alone (`claims_run`), whatever the
provider answers, and whenever calls are tried again or all addresses start over.

Main statement: as long as callers never take back more references to an address than they have
added, the rooms that watch it are those whose last use of it was to turn to it, it is referred to
once by each of them and once for every reference that callers still have, and it has an entry just
if that is not nothing (`counted_run`).
-/

namespace SwapFloor.Watches

/-- A room turns to an address or away from it, or a caller of its own does. -/
inductive Use where
  | acquire (a : String) (room : Option String)
  | release (a : String) (room : Option String)
  deriving DecidableEq

/-- A use, a round of further tries, a start over with all addresses, or what becomes of a call. -/
inductive Act where
  | use (u : Use) (now : Nat)
  | retry (now : Nat)
  | resubscribe (now : Nat)
  | complete (a : String) (epoch : Nat) (result : Option SubscriptionId) (now : Nat)

def Act.use? : Act → Option Use
  | .use u _ => some u
  | _ => none

def act (w : Watches) : Act → Watches
  | .use (.acquire a room) now => (w.acquire a room now).1
  | .use (.release a room) _ => (w.release a room).1
  | .retry now => (w.retryDue now).1
  | .resubscribe now => (w.resubscribeAll now).1
  | .complete a epoch result now => (w.complete a epoch result now).1

/-- Acts, one after the other. -/
def run (w : Watches) (acts : List Act) : Watches := acts.foldl act w

def uses (acts : List Act) : List Use := acts.filterMap Act.use?

/-! ## What uses come to -/

def Use.address : Use → String
  | .acquire a _ => a
  | .release a _ => a

/-- A use in which a room turns to an address, or away from it. -/
def Use.turn? (a r : String) : Use → Option Bool
  | .acquire a' room => if a' = a ∧ room = some r then some true else none
  | .release a' room => if a' = a ∧ room = some r then some false else none

/-- The last time that the room used the address, it turned to it. -/
def Turned (us : List Use) (a r : String) : Prop :=
  (us.filterMap (Use.turn? a r)).getLast? = some true

/-- How many references to an address callers of their own have added. -/
def added (us : List Use) (a : String) : Nat := us.count (.acquire a none)

/-- How many references to an address callers of their own have taken back. -/
def takenBack (us : List Use) (a : String) : Nat := us.count (.release a none)

/-- Callers of their own never have taken back more references than they have added. -/
def Balanced (us : List Use) : Prop :=
  ∀ before, before <+: us → ∀ a, takenBack before a ≤ added before a

/-- Each address is referred to by the rooms that have turned to it last, and as often as callers
have not taken their references back. -/
structure Counted (w : Watches) (us : List Use) : Prop where
  mem : ∀ a r, r ∈ w.roomsWatching a ↔ Turned us a r
  nodup : ∀ a, (w.roomsWatching a).Nodup
  count : ∀ a, w.refCount a = (w.roomsWatching a).length + (added us a - takenBack us a)
  entry : ∀ a, (w.get? a).isSome ↔ 0 < (w.roomsWatching a).length + (added us a - takenBack us a)

/-- The same rooms refer to the same addresses, and as often. -/
structure Agree (w w' : Watches) : Prop where
  roomsWatching : ∀ a, w.roomsWatching a = w'.roomsWatching a
  refCount : ∀ a, w.refCount a = w'.refCount a
  entry : ∀ a, (w.get? a).isSome = (w'.get? a).isSome

theorem Balanced.of_append {us vs : List Use} (h : Balanced (us ++ vs)) : Balanced us :=
  fun _ hb => h _ (hb.trans (List.prefix_append us vs))

theorem Balanced.le {us : List Use} (h : Balanced us) (a : String) : takenBack us a ≤ added us a :=
  h us (List.prefix_refl us) a

theorem balanced_iff {us : List Use} :
    Balanced us ↔
      ∀ before ∈ us.inits, ∀ a ∈ us.map Use.address, takenBack before a ≤ added before a := by
  refine ⟨fun h before hb a _ => h before ((List.mem_inits ..).1 hb) a, fun h before hb a => ?_⟩
  by_cases ha : a ∈ us.map Use.address
  · exact h before ((List.mem_inits ..).2 hb) a ha
  · have hnever : Use.release a none ∉ before := fun hm =>
      ha (List.mem_map.2 ⟨_, hb.subset hm, rfl⟩)
    exact (Nat.le_of_eq (List.count_eq_zero.2 hnever)).trans (Nat.zero_le _)

instance (us : List Use) : Decidable (Balanced us) := decidable_of_iff _ balanced_iff.symm

/-! ## Claims -/

/-- The claims on an address: how often it is referred to, and by which rooms; none if it is not
watched. -/
abbrev Claims := Option (Nat × List String)

namespace Claims

def refs (c : Claims) : Nat := (c.map Prod.fst).getD 0

def rooms (c : Claims) : List String := (c.map Prod.snd).getD []

/-- The claims when one more refers to the address. A room refers to it once. -/
def more (c : Claims) : Option String → Claims
  | none => some (c.refs + 1, c.rooms)
  | some r => if r ∈ c.rooms then c else some (c.refs + 1, c.rooms ++ [r])

/-- Claims of nobody are none. -/
def settle (n : Nat) (rooms : List String) : Claims := if n = 0 then none else some (n, rooms)

/-- The claims when one fewer refers to the address. -/
def fewer (c : Claims) (room : Option String) : Claims :=
  match c, room with
  | none, _ => none
  | some (n, rooms), none => settle (n - 1) rooms
  | some (n, rooms), some r => if r ∈ rooms then settle (n - 1) (rooms.erase r) else c

/-- The claims on `a` after a use of any address. -/
def after (a : String) (c : Claims) : Use → Claims
  | .acquire a' room => if a' = a then c.more room else c
  | .release a' room => if a' = a then c.fewer room else c

end Claims

variable {w w' : Watches}

theorem roomsWatching_eq_rooms (w : Watches) (a : String) :
    w.roomsWatching a = Claims.rooms (w.claims a) :=
  roomsWatching_eq w a

theorem refCount_eq_refs (w : Watches) (a : String) : w.refCount a = Claims.refs (w.claims a) :=
  refCount_eq w a

theorem isSome_claims (w : Watches) (a : String) : (w.claims a).isSome = (w.get? a).isSome :=
  Option.isSome_map

theorem claims_acquire_more (w : Watches) (a : String) (room : Option String) (now : Nat)
    (a' : String) :
    (w.acquire a room now).1.claims a'
      = if a = a' then Claims.more (w.claims a') room else w.claims a' := by
  cases room with
  | some r =>
    rw [claims_acquire]
    by_cases ha : a = a'
    · subst ha
      rw [if_pos rfl]
      unfold Claims.more
      rw [← refCount_eq_refs, ← roomsWatching_eq_rooms]
      by_cases hr : r ∈ w.roomsWatching a
      · rw [if_neg fun h => h.2 hr]
        exact (if_pos hr).symm
      · rw [if_pos ⟨rfl, hr⟩]
        exact (if_neg hr).symm
    · rw [if_neg ha, if_neg fun h => ha h.1.symm]
  | none =>
    have hclaims : Claims.more (w.claims a) none = some
        (((w.get? a).getD (.fresh now)).refs + 1, ((w.get? a).getD (.fresh now)).rooms ++ []) := by
      unfold claims
      rw [List.append_nil]
      cases w.get? a <;> rfl
    unfold acquire
    dsimp only
    rw [if_neg Bool.false_ne_true]
    by_cases ha : a = a'
    · subst ha
      rw [if_pos rfl, hclaims]
      split
      · exact (claims_start ..).trans (if_pos rfl)
      · exact (claims_put ..).trans (if_pos rfl)
    · have haway : a' ≠ a := fun h => ha h.symm
      rw [if_neg ha]
      split
      · exact (claims_start ..).trans (if_neg haway)
      · exact (claims_put ..).trans (if_neg haway)

/-- An entry that one fewer refers to goes if that was the last. -/
theorem claims_release_put {a : String} {room : Option String} {e : Watch}
    (hd : w.decrement a room = (w.put a e, e.refs == 0)) (a' : String) :
    (w.release a room).1.claims a'
      = if a = a' then Claims.settle e.refs e.rooms else w.claims a' := by
  have hput := claims_put w a a' e
  have hrefs : (w.put a e).refCount a = e.refs := by
    rw [refCount_eq, claims_put, if_pos rfl]
    rfl
  unfold release
  rw [hd]
  cases hz : e.refs == 0 with
  | true =>
    show ((w.put a e).dropUnused a).1.claims a' = _
    have hzero : e.refs = 0 := beq_iff_eq.1 hz
    rw [claims_dropUnused, hrefs, hput]
    by_cases ha : a = a'
    · rw [if_pos ⟨ha.symm, hzero⟩, if_pos ha]
      exact (if_pos hzero).symm
    · have haway : a' ≠ a := fun h => ha h.symm
      rw [if_neg fun h => haway h.1, if_neg haway, if_neg ha]
  | false =>
    show (w.put a e).claims a' = _
    have hzero : e.refs ≠ 0 := beq_eq_false_iff_ne.1 hz
    rw [hput]
    by_cases ha : a = a'
    · rw [if_pos ha.symm, if_pos ha]
      exact (if_neg hzero).symm
    · rw [if_neg fun h => ha h.symm, if_neg ha]

theorem claims_release_fewer (w : Watches) (a : String) (room : Option String) (a' : String) :
    (w.release a room).1.claims a'
      = if a = a' then Claims.fewer (w.claims a') room else w.claims a' := by
  cases hg : w.get? a with
  | none =>
    have hd : w.decrement a room = (w, false) := by
      unfold decrement
      rw [hg]
    have hnone : w.claims a = none := by
      unfold claims
      rw [hg]
      rfl
    unfold release
    rw [hd]
    by_cases ha : a = a'
    · subst ha
      rw [if_pos rfl, hnone]
      rfl
    · rw [if_neg ha]
  | some e =>
    have hclaims := claims_of_get? hg
    cases room with
    | none =>
      have hd : w.decrement a none
          = (w.put a { e with refs := e.refs - 1 }, e.refs - 1 == 0) := by
        unfold decrement
        rw [hg]
        rfl
      rw [claims_release_put (e := { e with refs := e.refs - 1 }) hd]
      by_cases ha : a = a'
      · subst ha
        rw [if_pos rfl, if_pos rfl, hclaims]
        rfl
      · rw [if_neg ha, if_neg ha]
    | some r =>
      by_cases hr : r ∈ e.rooms
      · have hd : w.decrement a (some r)
            = (w.put a { e with rooms := e.rooms.erase r, refs := e.refs - 1 },
                e.refs - 1 == 0) := by
          unfold decrement
          rw [hg]
          exact if_neg (by simpa using hr)
        rw [claims_release_put (e := { e with rooms := e.rooms.erase r, refs := e.refs - 1 }) hd]
        by_cases ha : a = a'
        · subst ha
          rw [if_pos rfl, if_pos rfl, hclaims]
          exact (if_pos hr).symm
        · rw [if_neg ha, if_neg ha]
      · have hd : w.decrement a (some r) = (w, false) := by
          unfold decrement
          rw [hg]
          exact if_pos (by simpa using hr)
        unfold release
        rw [hd]
        by_cases ha : a = a'
        · subst ha
          rw [if_pos rfl, hclaims]
          exact (if_neg hr).symm
        · rw [if_neg ha]

theorem claims_act (w : Watches) (x : Act) (a : String) :
    (w.act x).claims a = x.use?.elim (w.claims a) (Claims.after a (w.claims a)) := by
  cases x with
  | use u now =>
    cases u with
    | acquire a' room => exact claims_acquire_more w a' room now a
    | release a' room => exact claims_release_fewer w a' room a
  | retry now => exact claims_retryDue w now a
  | resubscribe now => exact claims_resubscribeAll w now a
  | complete a' epoch result now => exact claims_complete w a' epoch result now a

/-- What claims there are follows from the uses, and from nothing else. -/
theorem claims_run (w : Watches) (acts : List Act) (a : String) :
    (w.run acts).claims a = (uses acts).foldl (Claims.after a) (w.claims a) := by
  induction acts generalizing w with
  | nil => rfl
  | cons x acts ih =>
    refine (ih (w.act x)).trans ?_
    rw [claims_act]
    cases x <;> rfl

theorem agree_of_claims (h : ∀ a, w.claims a = w'.claims a) : Agree w w' where
  roomsWatching a := by rw [roomsWatching_eq, roomsWatching_eq, h]
  refCount a := by rw [refCount_eq, refCount_eq, h]
  entry a := by rw [← isSome_claims, ← isSome_claims, h]

/-! ## Counting -/

/-- What `Counted` says of one address. -/
structure Claims.Fit (c : Claims) (us : List Use) (a : String) : Prop where
  mem : ∀ r, r ∈ c.rooms ↔ Turned us a r
  nodup : c.rooms.Nodup
  count : c.refs + takenBack us a = c.rooms.length + added us a
  entry : c.isSome ↔ 0 < c.refs

theorem added_append (us : List Use) (u : Use) (a : String) :
    added (us ++ [u]) a = added us a + if u = .acquire a none then 1 else 0 := by
  unfold added
  rw [List.count_append, List.count_singleton]
  simp

theorem takenBack_append (us : List Use) (u : Use) (a : String) :
    takenBack (us ++ [u]) a = takenBack us a + if u = .release a none then 1 else 0 := by
  unfold takenBack
  rw [List.count_append, List.count_singleton]
  simp

theorem turned_append (us : List Use) (u : Use) (a r : String) :
    Turned (us ++ [u]) a r ↔ (u.turn? a r).elim (Turned us a r) (· = true) := by
  unfold Turned
  cases hu : u.turn? a r with
  | none =>
    rw [List.filterMap_append, List.filterMap_cons_none hu, List.filterMap_nil, List.append_nil]
    rfl
  | some b =>
    rw [List.filterMap_append, List.filterMap_cons_some hu, List.filterMap_nil,
      List.getLast?_append, List.getLast?_singleton]
    exact Option.some_inj

/-- A caller of its own is not a room. -/
theorem turned_caller {u : Use} {a' : String} (hu : u = .acquire a' none ∨ u = .release a' none)
    (us : List Use) (a r : String) : Turned (us ++ [u]) a r ↔ Turned us a r := by
  have hnone : ¬ (a' = a ∧ none = some r) := nofun
  rw [turned_append]
  rcases hu with rfl | rfl <;> rw [Use.turn?, if_neg hnone] <;> rfl

theorem turned_acquire (us : List Use) (a r r' : String) :
    Turned (us ++ [.acquire a (some r)]) a r' ↔ Turned us a r' ∨ r' = r := by
  rw [turned_append]
  by_cases hr : r' = r <;> simp [Use.turn?, hr, Ne.symm]

theorem turned_release (us : List Use) (a r r' : String) :
    Turned (us ++ [.release a (some r)]) a r' ↔ Turned us a r' ∧ r' ≠ r := by
  rw [turned_append]
  by_cases hr : r' = r <;> simp [Use.turn?, hr, Ne.symm]

namespace Claims.Fit

variable {c : Claims} {us : List Use} {a : String}

/-- Uses of other addresses do not matter. -/
theorem elsewhere (h : c.Fit us a) {u : Use} (hturn : ∀ r, u.turn? a r = none)
    (hadd : u ≠ .acquire a none) (htake : u ≠ .release a none) : c.Fit (us ++ [u]) a where
  mem r := by
    rw [turned_append, hturn]
    exact h.mem r
  nodup := h.nodup
  count := by
    rw [added_append, takenBack_append, if_neg hadd, if_neg htake]
    exact h.count
  entry := h.entry

theorem more (h : c.Fit us a) (room : Option String) :
    (c.more room).Fit (us ++ [.acquire a room]) a := by
  have htaken : takenBack (us ++ [.acquire a room]) a = takenBack us a :=
    (takenBack_append ..).trans (congrArg _ (if_neg nofun))
  cases room with
  | none =>
    refine ⟨fun r => ?_, h.nodup, ?_, iff_of_true rfl (Nat.succ_pos _)⟩
    · rw [turned_caller (.inl rfl)]
      exact h.mem r
    · rw [htaken, added_append, if_pos rfl]
      show c.refs + 1 + _ = c.rooms.length + _
      have := h.count
      omega
  | some r =>
    have hadded : added (us ++ [.acquire a (some r)]) a = added us a :=
      (added_append ..).trans (congrArg _ (if_neg nofun))
    unfold Claims.more
    by_cases hr : r ∈ c.rooms
    · simp only [if_pos hr]
      refine ⟨fun r' => ?_, h.nodup, ?_, h.entry⟩
      · rw [turned_acquire, ← h.mem]
        exact ⟨Or.inl, fun hor => hor.elim id fun he => he ▸ hr⟩
      · rw [htaken, hadded]
        exact h.count
    · simp only [if_neg hr]
      refine ⟨fun r' => ?_, ?_, ?_, iff_of_true rfl (Nat.succ_pos _)⟩
      · rw [turned_acquire, ← h.mem]
        show r' ∈ c.rooms ++ [r] ↔ _
        rw [List.mem_append, List.mem_singleton]
      · show (c.rooms ++ [r]).Nodup
        rw [List.nodup_append]
        refine ⟨h.nodup, List.nodup_singleton r, fun x hx y hy he => hr ?_⟩
        rwa [← List.mem_singleton.1 hy, ← he]
      · rw [htaken, hadded]
        show c.refs + 1 + _ = (c.rooms ++ [r]).length + _
        rw [List.length_append, List.length_singleton]
        have := h.count
        omega

/-- Claims that add up are an entry just if there are any. -/
theorem settle {n : Nat} {rooms : List String} (hmem : ∀ r, r ∈ rooms ↔ Turned us a r)
    (hnodup : rooms.Nodup) (hcount : n + takenBack us a = rooms.length + added us a)
    (hle : takenBack us a ≤ added us a) : (Claims.settle n rooms).Fit us a := by
  unfold Claims.settle
  by_cases hn : n = 0
  · have hnil : rooms = [] := List.length_eq_zero_iff.1 (by omega)
    subst hn hnil
    exact ⟨hmem, hnodup, hcount, ⟨fun h => (nomatch h), fun h => (nomatch h)⟩⟩
  · rw [if_neg hn]
    exact ⟨hmem, hnodup, hcount, iff_of_true rfl (Nat.pos_of_ne_zero hn)⟩

theorem fewer (h : c.Fit us a) {room : Option String} (hus : Balanced (us ++ [.release a room])) :
    (c.fewer room).Fit (us ++ [.release a room]) a := by
  have hadded : added (us ++ [.release a room]) a = added us a :=
    (added_append ..).trans (congrArg _ (if_neg nofun))
  have hbefore := hus.of_append.le a
  have hle := hus.le a
  have hcount := h.count
  cases room with
  | none =>
    have htaken : takenBack (us ++ [.release a none]) a = takenBack us a + 1 :=
      (takenBack_append ..).trans (congrArg _ (if_pos rfl))
    have hmem : ∀ r, r ∈ c.rooms ↔ Turned (us ++ [.release a none]) a r := by
      intro r
      rw [turned_caller (.inr rfl)]
      exact h.mem r
    cases c with
    | none =>
      -- Nobody could take back a reference.
      have hzero : 0 + takenBack us a = 0 + added us a := hcount
      omega
    | some x =>
      have hpos : 0 < x.1 := h.entry.1 rfl
      have hx : x.1 + takenBack us a = x.2.length + added us a := hcount
      exact settle hmem h.nodup (by omega) hle
  | some r =>
    have htaken : takenBack (us ++ [.release a (some r)]) a = takenBack us a :=
      (takenBack_append ..).trans (congrArg _ (if_neg nofun))
    -- A room that does not refer to the address changes nothing.
    have hstay : r ∉ c.rooms → c.Fit (us ++ [.release a (some r)]) a := by
      intro hr
      refine ⟨fun r' => ?_, h.nodup, ?_, h.entry⟩
      · rw [turned_release, ← h.mem]
        exact ⟨fun hm => ⟨hm, fun he => hr (he ▸ hm)⟩, fun hm => hm.1⟩
      · rw [htaken, hadded]
        exact hcount
    cases c with
    | none => exact hstay List.not_mem_nil
    | some x =>
      by_cases hr : r ∈ x.2
      · have hpos : 0 < x.1 := h.entry.1 rfl
        have hlen := List.length_erase_of_mem hr
        have hsome := List.length_pos_of_mem hr
        have hx : x.1 + takenBack us a = x.2.length + added us a := hcount
        show (if r ∈ x.2 then Claims.settle (x.1 - 1) (x.2.erase r) else some x).Fit _ a
        rw [if_pos hr]
        refine settle (fun r' => ?_) (h.nodup.erase r) (by omega) hle
        rw [turned_release, ← h.mem]
        exact (List.Nodup.mem_erase_iff h.nodup).trans and_comm
      · show (if r ∈ x.2 then Claims.settle (x.1 - 1) (x.2.erase r) else some x).Fit _ a
        rw [if_neg hr]
        exact hstay hr

theorem after (h : c.Fit us a) {u : Use} (hus : Balanced (us ++ [u])) :
    (Claims.after a c u).Fit (us ++ [u]) a := by
  cases u with
  | acquire a' room =>
    by_cases ha : a' = a
    · subst ha
      rw [Claims.after, if_pos rfl]
      exact h.more room
    · rw [Claims.after, if_neg ha]
      exact h.elsewhere (fun r => if_neg fun hr => ha hr.1) (fun he => ha (Use.acquire.inj he).1)
        nofun
  | release a' room =>
    by_cases ha : a' = a
    · subst ha
      rw [Claims.after, if_pos rfl]
      exact h.fewer hus
    · rw [Claims.after, if_neg ha]
      exact h.elsewhere (fun r => if_neg fun hr => ha hr.1) nofun
        fun he => ha (Use.release.inj he).1

end Claims.Fit

/-- The claims that a balanced run of uses leaves on an address add up. -/
theorem fit_foldl {us : List Use} (hus : Balanced us) (a : String) :
    Claims.Fit (us.foldl (Claims.after a) none) us a := by
  induction us using List.reverseRecOn with
  | nil =>
    refine ⟨fun r => ⟨fun h => (nomatch h), fun h => (nomatch h)⟩, List.nodup_nil, rfl, ?_⟩
    exact ⟨fun h => (nomatch h), fun h => (nomatch h)⟩
  | append_singleton us u ih =>
    rw [List.foldl_append]
    exact (ih hus.of_append).after hus

/-- Whatever the provider answers and whenever, the rooms that watch an address are those that
turned to it last, and every reference is counted once. -/
theorem counted_run (b : Backoff) (acts : List Act) (hacts : Balanced (uses acts)) :
    Counted ((new b).run acts) (uses acts) ∧
      ∀ acts', uses acts' = uses acts → Agree ((new b).run acts') ((new b).run acts) := by
  have hfit : ∀ a, Claims.Fit (((new b).run acts).claims a) (uses acts) a := by
    intro a
    rw [claims_run]
    exact fit_foldl hacts a
  refine ⟨⟨fun a r => ?_, fun a => ?_, fun a => ?_, fun a => ?_⟩, fun acts' hsame => ?_⟩
  · rw [roomsWatching_eq_rooms]
    exact (hfit a).mem r
  · rw [roomsWatching_eq_rooms]
    exact (hfit a).nodup
  · have hcount := (hfit a).count
    have hle := hacts.le a
    rw [roomsWatching_eq_rooms, refCount_eq_refs]
    omega
  · have hcount := (hfit a).count
    have hle := hacts.le a
    rw [← isSome_claims, roomsWatching_eq_rooms]
    refine (hfit a).entry.trans ?_
    omega
  · refine agree_of_claims fun a => ?_
    rw [claims_run, claims_run, hsame]

/-- A room that turns to the address twice and away from it twice, beside another room and a caller
of its own, with answers and a start over in between. -/
def busyActs : List Act :=
  [.use (.acquire "A" none) 0, .use (.acquire "A" (some "r")) 1, .use (.acquire "A" (some "r")) 2,
    .complete "A" 1 (some 7) 3, .use (.acquire "A" (some "r'")) 4, .resubscribe 5,
    .use (.release "A" (some "r")) 6, .complete "A" 3 none 7, .use (.release "A" none) 8,
    .use (.release "A" (some "r")) 9, .retry 2000]

theorem counted_busyActs : Balanced (uses busyActs) ∧
    Counted ((new ⟨1000, 60000⟩).run busyActs) (uses busyActs) ∧
    ((new ⟨1000, 60000⟩).run busyActs).refCount "A" = 1 ∧
    ((new ⟨1000, 60000⟩).run busyActs).roomsWatching "A" = ["r'"] ∧
    Agree ((new ⟨1000, 60000⟩).run ((uses busyActs).map (.use · 0)))
      ((new ⟨1000, 60000⟩).run busyActs) := by
  have hbalanced : Balanced (uses busyActs) := by decide
  obtain ⟨hcounted, hagree⟩ := counted_run ⟨1000, 60000⟩ busyActs hbalanced
  exact ⟨hbalanced, hcounted, by decide, by decide, hagree _ (by decide)⟩

end SwapFloor.Watches
