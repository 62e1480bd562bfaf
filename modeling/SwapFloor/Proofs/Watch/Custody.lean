import SwapFloor.Proofs.Watch.Grants
import SwapFloor.Proofs.Watch.Keeping

/-!
# Who has a subscription

As long as one connection stays up, a subscription that is granted in time is held by an address or
has been given back, whatever else is done in the meantime (`kept_of_attended`). Of one that is
granted too late nothing is left (`not_kept_late`).
-/

namespace SwapFloor.Feed

open Watches

/-- An address holds the subscription, or it has been given back. -/
def Kept (f : Feed) (id : SubscriptionId) : Prop :=
  (∃ a, f.watches.Holds a id) ∨ ∃ n, frame f.settings n (.unsubscribe id) ∈ f.sent

/-- What is done with the watches. -/
inductive Change where
  | acquire (address : String) (room : Option String)
  | release (address : String) (room : Option String)
  | retry

/-- The change with the calls that come of it. -/
def Change.run (now : Nat) (w : Watches) : Change → Watches × List Call
  | .acquire a room => ((w.acquire a room now).1, (w.acquire a room now).2.toList)
  | .release a room => ((w.release a room).1, (w.release a room).2.toList)
  | .retry => w.retryDue now

/-- The subscription that a text grants in answer to an open question. -/
def grantedBy? (f : Feed) (text : String) : Option SubscriptionId := do
  let (id, letter) ← Exchange.borne? text
  let q ← f.questions.find? (·.id == id)
  match q.call with
  | .subscribe _ _ => (Exchange.subscription (Exchange.outcome q.call letter)).toOption
  | .unsubscribe _ => none

/-- What a feed goes through while its connection stays up, with the subscriptions that are granted
in time. -/
inductive Attended (f : Feed) : List SubscriptionId → Feed → Prop
  | nil : Attended f [] f
  | change {ids g} (h : Attended f ids g) (now : Nat) (c : Change) :
    Attended f ids (g.watching now fun w => c.run now w)
  | hear {ids g} (h : Attended f ids g) (text : String) (now : Nat) :
    Attended f (ids ++ (g.grantedBy? text).toList) (g.hear text now)
  | tick {ids g} (h : Attended f ids g) (now : Nat) : Attended f ids (g.tick now)

variable {f g h : Feed} {id : SubscriptionId}

/-! ## What is kept stays kept -/

/-- The connection is up, and whatever is watched is referred to. -/
structure Steady (f : Feed) : Prop where
  up : f.isConnected = true
  referred : f.watches.Referred

/-- A steady feed stays steady and keeps what it keeps. -/
def Keeps (f g : Feed) : Prop := f.Steady → g.Steady ∧ ∀ id, f.Kept id → g.Kept id

theorem Keeps.refl (f : Feed) : f.Keeps f := fun hf => ⟨hf, fun _ hid => hid⟩

theorem Keeps.trans (hg : f.Keeps g) (hh : g.Keeps h) : f.Keeps h := by
  intro hf
  obtain ⟨hsteady, hkept⟩ := hg hf
  obtain ⟨hsteady', hkept'⟩ := hh hsteady
  exact ⟨hsteady', fun id hid => hkept' id (hkept id hid)⟩

theorem keeps_ask (f : Feed) (now : Nat) (call : Call) : f.Keeps (f.ask now call) := by
  intro hf
  unfold ask
  rw [if_pos hf.up]
  refine ⟨⟨hf.up, hf.referred⟩, fun id hid => hid.imp_right ?_⟩
  rintro ⟨n, hn⟩
  exact ⟨n, List.mem_append_left _ hn⟩

theorem keeps_asks (calls : List Call) (f : Feed) (now : Nat) :
    f.Keeps (calls.foldl (fun f call => f.ask now call) f) := by
  induction calls generalizing f with
  | nil => exact .refl f
  | cons call calls ih => exact (keeps_ask f now call).trans (ih _)

/-- What is to be given back is given back. -/
theorem kept_asks {calls : List Call} (hf : f.Steady) (hin : .unsubscribe id ∈ calls) (now : Nat) :
    (calls.foldl (fun f call => f.ask now call) f).Kept id := by
  induction calls generalizing f with
  | nil => cases hin
  | cons call calls ih =>
    obtain ⟨hsteady, -⟩ := keeps_ask f now call hf
    rcases List.mem_cons.1 hin with rfl | hin
    · refine (keeps_asks calls _ now hsteady).2 id (.inr ?_)
      unfold ask
      rw [if_pos hf.up]
      exact ⟨_, List.mem_append_right _ (List.mem_singleton.2 rfl)⟩
    · exact ih hsteady hin

/-- A change of the watches that holds on to each subscription or has it given back. -/
theorem keeps_changed (f : Feed) (w : Watches) (calls : List Call) (now : Nat)
    (hreferred : f.watches.Referred → w.Referred)
    (hholds : f.watches.Referred → ∀ a id, f.watches.Holds a id →
      w.Holds a id ∨ .unsubscribe id ∈ calls) :
    f.Keeps (calls.foldl (fun f call => f.ask now call) { f with watches := w }) := by
  intro hf
  have hsteady : ({ f with watches := w } : Feed).Steady := ⟨hf.up, hreferred hf.referred⟩
  obtain ⟨hsteady', hkept⟩ := keeps_asks calls _ now hsteady
  refine ⟨hsteady', fun id hid => ?_⟩
  rcases hid with ⟨a, ha⟩ | hback
  · rcases hholds hf.referred a id ha with ha | hin
    · exact hkept id (.inl ⟨a, ha⟩)
    · exact kept_asks hsteady hin now
  · exact hkept id (.inr hback)

theorem keeps_change (f : Feed) (now : Nat) (c : Change) :
    f.Keeps (f.watching now fun w => c.run now w) := by
  cases c with
  | acquire a room =>
    exact keeps_changed f (f.watches.acquire a room now).1 _ now (fun h => h.acquire a room now)
      fun h _ _ hh => .inl (hh.acquire h a room now)
  | release a room =>
    refine keeps_changed f (f.watches.release a room).1 _ now (fun h => h.release a room)
      fun h _ _ hh => (hh.release h a room).imp_right fun hback => ?_
    exact Option.mem_toList.2 hback
  | retry =>
    exact keeps_changed f (f.watches.retryDue now).1 _ now
      (fun h => h.of_claims (claims_retryDue f.watches now)) fun _ _ _ hh => .inl (hh.retryDue now)

/-- What becomes of a call takes nothing from anyone. -/
theorem keeps_conclude (f : Feed) (call : Call) (result : Option SubscriptionId) (now : Nat) :
    f.Keeps (f.conclude call result now).1 := by
  cases call with
  | subscribe a epoch =>
    exact keeps_changed f (f.watches.complete a epoch result now).1 [] now
      (fun h => h.of_claims (claims_complete f.watches a epoch result now))
      fun _ _ _ hh => .inl (hh.complete a epoch result now)
  | unsubscribe id => exact .refl f

theorem keeps_fails (qs : List Question) (f : Feed) (now : Nat) :
    f.Keeps (qs.foldl (fun f q => f.fail q.call now) f) := by
  induction qs generalizing f with
  | nil => exact .refl f
  | cons q qs ih => exact (keeps_conclude f q.call none now).trans (ih _)

/-- Questions and notices do not matter. -/
theorem keeps_of_same (hlink : g.link = f.link) (hwatches : g.watches = f.watches)
    (hsettings : g.settings = f.settings) (hsent : g.sent = f.sent) : f.Keeps g := by
  intro hf
  refine ⟨⟨?_, hwatches ▸ hf.referred⟩, fun id hid => ?_⟩
  · unfold isConnected
    rw [hlink]
    exact hf.up
  · unfold Kept
    rw [hwatches, hsettings, hsent]
    exact hid

theorem keeps_tick (f : Feed) (now : Nat) : f.Keeps (f.tick now) := by
  have hfailed : f.Keeps (f.failWhere now (·.dueAt ≤ now)) := by
    have hless : f.Keeps
        { f with questions := f.questions.filter fun q => !decide (q.dueAt ≤ now) } :=
      keeps_of_same rfl rfl rfl rfl
    exact hless.trans (keeps_fails (f.questions.filter (·.dueAt ≤ now)) _ now)
  intro hf
  have hup : (f.failWhere now (·.dueAt ≤ now)).link = .connected :=
    of_decide_eq_true (hfailed hf).1.up
  unfold tick
  dsimp only
  rw [hup]
  exact hfailed hf

/-! ## What is granted is kept -/

/-- A subscription that is granted goes to the address that waits for it, or back. -/
theorem kept_granted (hf : f.Steady) (a : String) (epoch : Nat) (id : SubscriptionId) (now : Nat) :
    ((f.conclude (.subscribe a epoch) (some id) now).2.toList.foldl (fun f call => f.ask now call)
      (f.conclude (.subscribe a epoch) (some id) now).1).Kept id := by
  obtain ⟨hsteady, -⟩ := keeps_conclude f (.subscribe a epoch) (some id) now hf
  by_cases hawaits : ∃ e, f.watches.Awaits a epoch e
  · obtain ⟨e, hawaits⟩ := hawaits
    refine (keeps_asks _ _ now hsteady).2 id (.inl ⟨a, ?_⟩)
    unfold conclude
    dsimp only
    rw [complete_granted hawaits]
    exact ⟨_, (get?_put ..).trans (if_pos rfl), rfl⟩
  · refine kept_asks hsteady ?_ now
    unfold conclude
    dsimp only
    rw [complete_outdated fun e he => hawaits ⟨e, he⟩]
    exact List.mem_singleton.2 rfl

/-- The subscription that an answer grants is what its letter says to the caller. -/
theorem granted?_eq (answer : Json) (call : Call) :
    granted? answer =
      (Exchange.subscription (Exchange.outcome call (Exchange.letterOf answer))).toOption := by
  unfold granted? Exchange.letterOf
  split
  · simp only [Exchange.outcome, Exchange.subscription]
    cases uint64? (answer.field "result") <;> rfl
  · rfl

theorem keeps_answered (f : Feed) (n : Nat) (answer : Json) (now : Nat) :
    f.Keeps (f.answered n answer now) := by
  unfold answered
  cases f.questions.find? (·.id == n) with
  | none => exact .refl f
  | some q =>
    have hless : f.Keeps { f with questions := f.questions.filter fun q => q.id != n } :=
      keeps_of_same rfl rfl rfl rfl
    have hconcluded := hless.trans (keeps_conclude _ q.call (granted? answer) now)
    exact hconcluded.trans (keeps_asks _ _ now)

theorem keeps_hear (f : Feed) (text : String) (now : Nat) : f.Keeps (f.hear text now) := by
  cases hborne : Exchange.borne? text with
  | none =>
    rw [Exchange.hear_of_not_borne hborne]
    exact keeps_of_same rfl rfl rfl rfl
  | some b =>
    obtain ⟨answer, -, heq⟩ := Exchange.hear_of_borne? hborne f now
    rw [heq]
    exact keeps_answered f b.1 answer now

theorem kept_hear (hf : f.Steady) {text : String} (hid : f.grantedBy? text = some id) (now : Nat) :
    (f.hear text now).Kept id := by
  unfold grantedBy? at hid
  cases hborne : Exchange.borne? text with
  | none =>
    rw [hborne] at hid
    cases hid
  | some b =>
    obtain ⟨n, letter⟩ := b
    obtain ⟨answer, rfl, heq⟩ := Exchange.hear_of_borne? hborne f now
    rw [hborne] at hid
    rw [heq]
    unfold answered
    cases hfind : f.questions.find? (·.id == n) with
    | none => simp [hfind] at hid
    | some q =>
      simp only [Option.bind_eq_bind, Option.bind_some, hfind] at hid
      cases hcall : q.call with
      | unsubscribe sub =>
        rw [hcall] at hid
        cases hid
      | subscribe a epoch =>
        simp only [hcall] at hid
        rw [← granted?_eq] at hid
        have hless : ({ f with
            questions := f.questions.filter fun q => q.id != n } : Feed).Steady :=
          ⟨hf.up, hf.referred⟩
        dsimp only
        rw [hcall, hid]
        exact kept_granted hless a epoch id now

/-- On a connection that stays up, whatever is granted in time is kept. -/
theorem kept_of_attended {ids : List SubscriptionId} (hf : f.Steady) (h : f.Attended ids g) :
    g.Steady ∧ ∀ id ∈ ids, g.Kept id := by
  induction h with
  | nil => exact ⟨hf, fun _ hin => (nomatch hin)⟩
  | change _ now c ih =>
    obtain ⟨hsteady, hkept⟩ := keeps_change _ now c ih.1
    exact ⟨hsteady, fun id hin => hkept id (ih.2 id hin)⟩
  | tick _ now ih =>
    obtain ⟨hsteady, hkept⟩ := keeps_tick _ now ih.1
    exact ⟨hsteady, fun id hin => hkept id (ih.2 id hin)⟩
  | hear _ text now ih =>
    obtain ⟨hsteady, hkept⟩ := keeps_hear _ text now ih.1
    refine ⟨hsteady, fun id hin => ?_⟩
    rcases List.mem_append.1 hin with hin | hin
    · exact hkept id (ih.2 id hin)
    · exact kept_hear ih.1 (Option.mem_toList.1 hin) now

theorem steady_accept (settings : Settings.Provider) (capacity now : Nat) :
    ((Feed.new settings capacity).accept now).Steady := ⟨rfl, fun _ _ hg => nomatch hg⟩

/-! ### An answer in time, and one that comes too late -/

/-- A room comes to an address, and its subscription is asked for. -/
def firstAsk : Feed :=
  ((Feed.new {} 1).accept 0).watching 0 fun w => (Change.acquire "A" (some "r")).run 0 w

/-- The room has gone when the subscription is granted in time: it is given back. -/
theorem kept_firstGrant : ∃ f, ((Feed.new {} 1).accept 0).Attended [7] f ∧ f.Kept 7 := by
  have hasked : ((Feed.new {} 1).accept 0).Attended [] firstAsk :=
    Attended.nil.change 0 (.acquire "A" (some "r"))
  have hheard := (hasked.change 5 (.release "A" (some "r"))).hear Exchange.firstGrant 9
  have hgranted : (firstAsk.watching 5 fun w =>
      (Change.release "A" (some "r")).run 5 w).grantedBy? Exchange.firstGrant = some 7 := by
    unfold grantedBy?
    rw [Exchange.borne?_firstGrant]
    rfl
  rw [hgranted] at hheard
  have hkept := kept_of_attended (steady_accept {} 1 0) hheard
  exact ⟨_, hheard, hkept.2 7 (List.mem_singleton.2 rfl)⟩

/-- The time of the call is up when the subscription is granted: no address has it, and it is not
given back. -/
theorem not_kept_late : ∃ f g, Exchange.Turns (Feed.new {} 1) [.redial] f ∧
    f.questions = [⟨1, .subscribe "A" 1, 10000⟩] ∧
    f.sent = [frame f.settings 1 (.subscribe "A" 1)] ∧
    Exchange.Turns f [.hear Exchange.firstGrant] g ∧
    Exchange.borne? Exchange.firstGrant = some (1, .ok (.int 7)) ∧ uint64? (.int 7) = some 7 ∧
    g.questions = [] ∧ ¬ g.Kept 7 := by
  have hopened : Exchange.Turns (Feed.new {} 1) [.redial] firstAsk :=
    (Exchange.Turns.nil.snoc (.accept 0)).snoc (.watching 0 _)
  have hlate : Exchange.Turns firstAsk [.hear Exchange.firstGrant]
      ((firstAsk.tick 10000).hear Exchange.firstGrant 10001) :=
    (Exchange.Turns.nil.snoc (.tick 10000)).snoc (.hear Exchange.firstGrant 10001 rfl)
  have hdropped : (firstAsk.tick 10000).hear Exchange.firstGrant 10001 = firstAsk.tick 10000 := by
    obtain ⟨answer, -, heq⟩ :=
      Exchange.hear_of_borne? Exchange.borne?_firstGrant (firstAsk.tick 10000) 10001
    rw [heq]
    rfl
  rw [hdropped] at hlate
  refine ⟨_, _, hopened, rfl, rfl, hlate, Exchange.borne?_firstGrant, rfl, rfl, ?_⟩
  rintro (⟨a, ha⟩ | ⟨n, hn⟩)
  · have hactive : (firstAsk.tick 10000).watches.activeIds = [] := rfl
    have hin := mem_activeIds.2 ⟨a, ha⟩
    rw [hactive] at hin
    cases hin
  · have hsent : (firstAsk.tick 10000).sent = [frame {} 1 (.subscribe "A" 1)] := rfl
    rw [hsent, List.mem_singleton] at hn
    simp [frame] at hn

end SwapFloor.Feed
