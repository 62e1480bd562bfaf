import SwapFloor.Proofs.Watch.References

/-!
# What an operation does to a watched address

Every operation on watched addresses changes nothing, or the entry of one address and with it at
most one call to the provider; a round of further tries is one start after the other, and starting
over makes every address due first.

Main statements: the cases of `acquire`, `release` and `complete`, and which entries there are
after a round of tries (`get?_retryDue`) and when all addresses have started over
(`stage_restarted`).
-/

namespace SwapFloor.Watches

variable {w : Watches} {a : String}

theorem of_get?_put {b : String} {d e : Watch} (hd : (w.put a e).get? b = some d) :
    w.get? b = some d ∧ b ≠ a ∨ b = a ∧ d = e := by
  rw [get?_put] at hd
  split at hd
  · rename_i hb
    exact Or.inr ⟨hb, (Option.some.inj hd).symm⟩
  · rename_i hb
    exact Or.inl ⟨hd, hb⟩

/-- Everything that is watched is referred to. -/
def Referred (w : Watches) : Prop := ∀ a e, w.get? a = some e → 1 ≤ e.refs

/-! ## References -/

/-- A room that refers to the address already adds nothing, and everyone else refers to it once
more. -/
theorem acquire_eq_or (w : Watches) (a : String) (room : Option String) (now : Nat) :
    w.acquire a room now = (w, none) ∨
      ∃ e rooms, (w.get? a).getD (.fresh now) = e ∧ w.acquire a room now
        = if e.refs + 1 = 1 then
            ((w.start a { e with rooms := rooms, refs := e.refs + 1 }).1,
              some (w.start a { e with rooms := rooms, refs := e.refs + 1 }).2)
          else (w.put a { e with rooms := rooms, refs := e.refs + 1 }, none) := by
  unfold acquire
  dsimp only
  cases room with
  | none => exact Or.inr ⟨_, _, rfl, if_neg Bool.false_ne_true⟩
  | some r =>
    by_cases hr : ((w.get? a).getD (.fresh now)).rooms.contains r = true
    · exact Or.inl (if_pos hr)
    · exact Or.inr ⟨_, _, rfl, if_neg hr⟩

theorem acquire_cases (hw : w.Referred) (a : String) (room : Option String) (now : Nat) :
    w.acquire a room now = (w, none) ∨
      (∃ e rooms, w.get? a = some e ∧
        w.acquire a room now = (w.put a { e with rooms := rooms, refs := e.refs + 1 }, none)) ∨
      (w.get? a = none ∧ ∃ e, e.refs = 1 ∧
        w.acquire a room now = ((w.start a e).1, some (w.start a e).2)) := by
  refine (w.acquire_eq_or a room now).imp_right ?_
  rintro ⟨e, rooms, he, heq⟩
  cases hg : w.get? a with
  | none =>
    right
    rw [hg] at he
    have hfirst : e.refs + 1 = 1 := by
      rw [← he]
      rfl
    exact ⟨rfl, _, hfirst, heq.trans (if_pos hfirst)⟩
  | some e' =>
    left
    rw [hg] at he
    obtain rfl : e' = e := he
    have hmore : e'.refs + 1 ≠ 1 := by
      have := hw a e' hg
      omega
    exact ⟨e', rooms, rfl, heq.trans (if_neg hmore)⟩

/-- From `w` to `w'` the entry `e` of an address has gone. -/
structure Gone (w w' : Watches) (a : String) (e : Watch) : Prop where
  there : w.get? a = some e
  get? : ∀ a', w'.get? a' = if a' = a then none else w.get? a'
  lastEpoch : w'.lastEpoch = w.lastEpoch

theorem gone_of_decrement {e e' : Watch} (hg : w.get? a = some e) {w' : Watches}
    (he : w'.entries = (w.put a e').entries.erase a) (hl : w'.lastEpoch = w.lastEpoch) :
    Gone w w' a e := by
  refine ⟨hg, fun a' => ?_, hl⟩
  have hput := get?_put w a a' e'
  unfold Watches.get? at hput ⊢
  rw [he, Table.get?_erase, hput]
  by_cases ha : a' = a
  · rw [if_pos ha, if_pos ha]
  · rw [if_neg ha, if_neg ha, if_neg ha]

/-- Letting an address go gives its subscription back, if it has one. -/
inductive LetGo (w : Watches) (a : String) : Watches × Option Call → Prop
  | idle {w' e} (hgone : Gone w w' a e) (hidle : ∀ id, e.stage ≠ .active id)
      (haddresses : w'.addresses = w.addresses) : LetGo w a (w', none)
  | active {w' e id} (hgone : Gone w w' a e) (hactive : e.stage = .active id)
      (haddresses : w'.addresses = w.addresses.erase id) : LetGo w a (w', some (.unsubscribe id))

theorem letGo_dropUnused {e e' : Watch} (hg : w.get? a = some e) (hstage : e'.stage = e.stage)
    (hrefs : e'.refs = 0) : LetGo w a ((w.put a e').dropUnused a) := by
  have hget : (w.put a e').get? a = some e' := (get?_put ..).trans (if_pos rfl)
  unfold dropUnused
  rw [hget]
  dsimp only
  rw [if_pos hrefs]
  cases hs : e'.stage with
  | inFlight =>
    refine .idle (gone_of_decrement hg rfl rfl) (fun id h => ?_) rfl
    exact nomatch hs.symm.trans (hstage.trans h)
  | active id => exact .active (gone_of_decrement hg rfl rfl) (hstage.symm.trans hs) rfl
  | pending attempts dueAt =>
    refine .idle (gone_of_decrement hg rfl rfl) (fun id h => ?_) rfl
    exact nomatch hs.symm.trans (hstage.trans h)

theorem decrement_eq_or (w : Watches) (a : String) (room : Option String) :
    w.decrement a room = (w, false) ∨
      ∃ e rooms, w.get? a = some e ∧
        w.decrement a room
          = (w.put a { e with rooms := rooms, refs := e.refs - 1 }, e.refs - 1 == 0) := by
  unfold decrement
  cases hg : w.get? a with
  | none => exact Or.inl rfl
  | some e =>
    dsimp only
    cases room with
    | none => exact Or.inr ⟨e, _, rfl, if_neg Bool.false_ne_true⟩
    | some r =>
      by_cases hr : (!e.rooms.contains r) = true
      · exact Or.inl (if_pos hr)
      · exact Or.inr ⟨e, _, rfl, if_neg hr⟩

theorem release_cases (hw : w.Referred) (a : String) (room : Option String) :
    w.release a room = (w, none) ∨
      (∃ e rooms, w.get? a = some e ∧ 1 < e.refs ∧
        w.release a room = (w.put a { e with rooms := rooms, refs := e.refs - 1 }, none)) ∨
      LetGo w a (w.release a room) := by
  unfold release
  rcases w.decrement_eq_or a room with hd | ⟨e, rooms, hg, hd⟩
  · rw [hd]
    exact Or.inl rfl
  · right
    have hone := hw a e hg
    cases hb : e.refs - 1 == 0 with
    | true =>
      right
      rw [hd, hb]
      refine letGo_dropUnused hg ?_ (beq_iff_eq.1 hb)
      rfl
    | false =>
      left
      have hne : e.refs - 1 ≠ 0 := beq_eq_false_iff_ne.1 hb
      rw [hd, hb]
      exact ⟨e, rooms, hg, by omega, rfl⟩

/-! ## Completions -/

/-- A call is what the entry of its address waits for. -/
def Awaits (w : Watches) (a : String) (epoch : Nat) (e : Watch) : Prop :=
  w.get? a = some e ∧ e.epoch = epoch ∧ e.stage = .inFlight

theorem complete_granted {epoch : Nat} {e : Watch} (h : w.Awaits a epoch e) (id : SubscriptionId)
    (now : Nat) :
    w.complete a epoch (some id) now
      = (show_ { w.put a { e with stage := .active id, attempts := 0 } with
          addresses := w.addresses.insert id a }, none) := by
  obtain ⟨hg, he, hs⟩ := h
  have hcur : e.epoch = epoch ∧ e.stage = Stage.inFlight := ⟨he, hs⟩
  unfold complete
  rw [hg]
  dsimp only
  rw [if_pos hcur]
  rfl

/-- The entry of an address after one more refusal. -/
def Watch.failed (e : Watch) (b : Backoff) (now : Nat) : Watch :=
  { e with
    stage := .pending (e.attempts + 1) (now + b.wait (e.attempts + 1))
    attempts := e.attempts + 1 }

theorem complete_failed {epoch : Nat} {e : Watch} (h : w.Awaits a epoch e) (now : Nat) :
    w.complete a epoch none now
      = (show_ { w.put a (e.failed w.backoff now) with failures := w.failures + 1 }, none) := by
  obtain ⟨hg, he, hs⟩ := h
  have hcur : e.epoch = epoch ∧ e.stage = Stage.inFlight := ⟨he, hs⟩
  unfold complete
  rw [hg]
  dsimp only
  rw [if_pos hcur]
  rfl

theorem complete_refused {epoch : Nat} {e : Watch} (h : w.Awaits a epoch e) (now : Nat) :
    ∃ attempts dueAt, w.complete a epoch none now
      = (show_ { w.put a { e with stage := .pending attempts dueAt, attempts := attempts } with
          failures := w.failures + 1 }, none) :=
  ⟨_, _, complete_failed h now⟩

theorem complete_outdated {epoch : Nat} (h : ∀ e, ¬ w.Awaits a epoch e)
    (result : Option SubscriptionId) (now : Nat) :
    w.complete a epoch result now = (w.show_, result.map .unsubscribe) := by
  unfold complete
  cases hg : w.get? a with
  | none => cases result <;> rfl
  | some e =>
    have hnot : ¬ (e.epoch = epoch ∧ e.stage = Stage.inFlight) := fun hc => h e ⟨hg, hc.1, hc.2⟩
    dsimp only
    rw [if_neg hnot]
    cases result <;> rfl

/-- What becomes of a call: it is granted or refused to the entry that waits for it, or it is
outdated. -/
inductive Completed (w : Watches) (a : String) (epoch now : Nat) :
    Option SubscriptionId → Watches × Option Call → Prop
  | granted {e : Watch} (h : w.Awaits a epoch e) (id : SubscriptionId) :
    Completed w a epoch now (some id) (show_ { w.put a { e with stage := .active id, attempts := 0 }
      with addresses := w.addresses.insert id a }, none)
  | refused {e : Watch} (h : w.Awaits a epoch e) :
    Completed w a epoch now none
      (show_ { w.put a (e.failed w.backoff now) with failures := w.failures + 1 }, none)
  | outdated (h : ∀ e, ¬ w.Awaits a epoch e) (result : Option SubscriptionId) :
    Completed w a epoch now result (w.show_, result.map .unsubscribe)

theorem completed_complete (w : Watches) (a : String) (epoch : Nat)
    (result : Option SubscriptionId) (now : Nat) :
    Completed w a epoch now result (w.complete a epoch result now) := by
  by_cases h : ∃ e, w.Awaits a epoch e
  · obtain ⟨e, h⟩ := h
    cases result with
    | some id =>
      rw [complete_granted h id now]
      exact .granted h id
    | none =>
      rw [complete_failed h now]
      exact .refused h
  · have hnot : ∀ e, ¬ w.Awaits a epoch e := fun e he => h ⟨e, he⟩
    rw [complete_outdated hnot result now]
    exact .outdated hnot result

/-! ## Further tries -/

/-- The addresses whose next try is due, with their entries. -/
def due (w : Watches) (now : Nat) : List (String × Watch) :=
  w.entries.entries.filter fun x => x.2.isDue now

/-- Calls for several addresses are started, one after the other. -/
def startEach (w : Watches) : List (String × Watch) → Watches × List Call
  | [] => (w, [])
  | x :: l =>
    let (w, call) := w.start x.1 x.2
    let (w, calls) := w.startEach l
    (w, call :: calls)

theorem retryDue_eq (w : Watches) (now : Nat) : w.retryDue now = w.startEach (w.due now) := by
  have hrun : ∀ (l : List (String × Watch)) (s : Watches × List Call),
      l.foldl (fun s x => ((s.1.start x.1 x.2).1, s.2 ++ [(s.1.start x.1 x.2).2])) s
        = ((s.1.startEach l).1, s.2 ++ (s.1.startEach l).2) := by
    intro l
    induction l with
    | nil => exact fun s => Prod.ext rfl (List.append_nil _).symm
    | cons x l ih => exact fun s => (ih _).trans (Prod.ext rfl (List.append_assoc ..))
  exact hrun (w.due now) (w, [])

theorem mem_due {now : Nat} {x : String × Watch} :
    x ∈ w.due now ↔ w.get? x.1 = some x.2 ∧ x.2.isDue now = true :=
  List.mem_filter.trans (and_congr_left' Table.get?_eq_some_iff.symm)

theorem nodup_due (w : Watches) (now : Nat) : ((w.due now).map Prod.fst).Nodup :=
  w.entries.nodup.sublist (List.filter_sublist.map _)

theorem isDue_iff {e : Watch} {now : Nat} :
    e.isDue now = true ↔ ∃ attempts dueAt, e.stage = .pending attempts dueAt ∧ dueAt ≤ now ∧
      1 ≤ e.refs := by
  unfold Watch.isDue
  cases e.stage with
  | pending attempts dueAt => simp [Nat.succ_le_iff]
  | _ => simp

/-- A call for a subscription to the address. -/
def Call.isFor (a : String) : Call → Bool
  | .subscribe a' _ => a' == a
  | .unsubscribe _ => false

theorem get?_startEach_of_notMem {l : List (String × Watch)} (ha : a ∉ l.map Prod.fst) :
    (w.startEach l).1.get? a = w.get? a := by
  induction l generalizing w with
  | nil => rfl
  | cons x l ih =>
    obtain ⟨hx, hl⟩ := not_or.1 (mt List.mem_cons.2 ha)
    exact (ih hl).trans ((get?_start ..).trans (if_neg hx))

/-- Every call is for the subscription to one of the addresses. -/
theorem mem_startEach {l : List (String × Watch)} {c : Call} (hc : c ∈ (w.startEach l).2) :
    ∃ x ∈ l, ∃ epoch, c = .subscribe x.1 epoch := by
  induction l generalizing w with
  | nil => exact nomatch hc
  | cons x l ih =>
    rcases List.mem_cons.1 hc with rfl | hc
    · exact ⟨x, List.mem_cons_self, _, rfl⟩
    · obtain ⟨y, hy, hcall⟩ := ih hc
      exact ⟨y, List.mem_cons_of_mem _ hy, hcall⟩

theorem filter_startEach_of_notMem {l : List (String × Watch)} (ha : a ∉ l.map Prod.fst) :
    (w.startEach l).2.filter (·.isFor a) = [] := by
  rw [List.filter_eq_nil_iff]
  intro c hc hfor
  obtain ⟨x, hx, _, rfl⟩ := mem_startEach hc
  exact ha (List.mem_map.2 ⟨x, hx, beq_iff_eq.1 hfor⟩)

/-- Each address is called for once, and its entry waits for that call. -/
theorem get?_startEach_of_mem {l : List (String × Watch)} (hl : (l.map Prod.fst).Nodup)
    {e : Watch} (hmem : (a, e) ∈ l) :
    ∃ epoch, (w.startEach l).2.filter (·.isFor a) = [.subscribe a epoch] ∧
      (w.startEach l).1.get? a = some { e with stage := .inFlight, epoch := epoch } := by
  induction l generalizing w with
  | nil => exact nomatch hmem
  | cons x l ih =>
    obtain ⟨hx, hl⟩ := List.nodup_cons.1 hl
    unfold startEach
    dsimp only
    rcases List.mem_cons.1 hmem with rfl | hmem
    · refine ⟨w.lastEpoch + 1, ?_, ?_⟩
      · have hfor : (w.start a e).2.isFor a = true := beq_self_eq_true a
        rw [List.filter_cons_of_pos hfor, filter_startEach_of_notMem hx]
        rfl
      · exact (get?_startEach_of_notMem hx).trans ((get?_start ..).trans (if_pos rfl))
    · have hne : x.1 ≠ a := fun h => hx (h ▸ List.mem_map_of_mem hmem)
      obtain ⟨epoch, hcalls, hget⟩ := ih (w := (w.start x.1 x.2).1) hl hmem
      have hfor : ¬ (w.start x.1 x.2).2.isFor a = true := fun h => hne (beq_iff_eq.1 h)
      refine ⟨epoch, ?_, hget⟩
      rwa [List.filter_cons_of_neg hfor]

/-- An address that is not due is left alone. -/
theorem get?_retryDue_of_not_due {now : Nat}
    (ha : ∀ e, w.get? a = some e → e.isDue now = false) :
    (w.retryDue now).1.get? a = w.get? a := by
  rw [retryDue_eq]
  refine get?_startEach_of_notMem fun hmem => ?_
  obtain ⟨x, hx, rfl⟩ := List.mem_map.1 hmem
  obtain ⟨hg, hdue⟩ := mem_due.1 hx
  exact Bool.false_ne_true ((ha x.2 hg).symm.trans hdue)

theorem get?_retryDue_of_due {now : Nat} {e : Watch} (hg : w.get? a = some e)
    (hdue : e.isDue now = true) :
    ∃ epoch, (w.retryDue now).2.filter (·.isFor a) = [.subscribe a epoch] ∧
      (w.retryDue now).1.get? a = some { e with stage := .inFlight, epoch := epoch } := by
  rw [retryDue_eq]
  exact get?_startEach_of_mem (w.nodup_due now) (mem_due.2 ⟨hg, hdue⟩)

/-- After a round of tries an entry is as it was, or its address was due and has been called
for. -/
theorem get?_retryDue (w : Watches) (now : Nat) (a : String) :
    (w.retryDue now).1.get? a = w.get? a ∨
      ∃ e e', w.get? a = some e ∧ e.isDue now = true ∧
        (w.retryDue now).1.get? a = some e' ∧ e'.stage = .inFlight := by
  by_cases h : ∃ e, w.get? a = some e ∧ e.isDue now = true
  · obtain ⟨e, hg, hdue⟩ := h
    obtain ⟨_, _, hget⟩ := get?_retryDue_of_due hg hdue
    exact Or.inr ⟨e, _, hg, hdue, hget, rfl⟩
  · exact Or.inl (get?_retryDue_of_not_due fun e hg =>
      Bool.eq_false_iff.2 fun hdue => h ⟨e, hg, hdue⟩)

theorem addresses_startEach (w : Watches) (l : List (String × Watch)) :
    (w.startEach l).1.addresses = w.addresses := by
  induction l generalizing w with
  | nil => rfl
  | cons x l ih => exact ih _

theorem addresses_retryDue (w : Watches) (now : Nat) :
    (w.retryDue now).1.addresses = w.addresses := by
  rw [retryDue_eq]
  exact addresses_startEach w _

/-- A round of tries calls for every address that is due. -/
theorem mem_retryDue {now : Nat} {e : Watch} (hg : w.get? a = some e) (hdue : e.isDue now = true) :
    ∃ epoch, Call.subscribe a epoch ∈ (w.retryDue now).2 := by
  obtain ⟨epoch, hcalls, _⟩ := get?_retryDue_of_due hg hdue
  exact ⟨epoch, List.mem_of_mem_filter (hcalls ▸ List.mem_singleton.2 rfl)⟩

/-! ## Starting over -/

theorem get?_restart (w : Watches) (a a' : String) (now : Nat) :
    (w.restart a now).get? a' = if a' = a then
        (w.get? a).map fun e =>
          { e with attempts := 0, epoch := w.lastEpoch + 1, stage := .pending 0 now }
      else w.get? a' := by
  unfold restart
  cases hg : w.get? a with
  | none =>
    dsimp only
    split
    · rename_i ha
      rw [ha, hg]
      rfl
    · rfl
  | some e => exact get?_put ..

theorem addresses_restart (w : Watches) (a : String) (now : Nat) :
    (w.restart a now).addresses = w.addresses := by
  unfold restart
  cases w.get? a <;> rfl

/-- All addresses start over; nothing is called for yet. -/
def restartAll (w : Watches) (now : Nat) : Watches :=
  (w.entries.keys.foldl (fun w a => w.restart a now) w.forgetIds).show_

theorem resubscribeAll_eq (w : Watches) (now : Nat) :
    w.resubscribeAll now = (w.restartAll now).retryDue now := rfl

theorem addresses_restartAll (w : Watches) (now : Nat) :
    (w.restartAll now).addresses = .empty :=
  List.foldlRecOn (motive := fun s : Watches => s.addresses = .empty) w.entries.keys _ rfl
    fun s hs a _ => (addresses_restart s a now).trans hs

/-- Every address that is watched when all start over waits to be called for, as if it had never
failed. -/
theorem entry_restartAll {now : Nat} {e : Watch} (hg : (w.restartAll now).get? a = some e) :
    e.stage = .pending 0 now ∧ e.attempts = 0 := by
  have hrun : ∀ (l : List String) (s : Watches),
      (∀ e, s.get? a = some e → a ∈ l ∨ e.stage = .pending 0 now ∧ e.attempts = 0) →
        ∀ e, (l.foldl (fun w a => w.restart a now) s).get? a = some e →
          e.stage = .pending 0 now ∧ e.attempts = 0 := by
    intro l
    induction l with
    | nil => exact fun s hs e he => (hs e he).resolve_left List.not_mem_nil
    | cons b l ih =>
      intro s hs
      refine ih (s.restart b now) fun e he => ?_
      rw [get?_restart] at he
      by_cases hb : a = b
      · rw [if_pos hb] at he
        obtain ⟨_, _, rfl⟩ := Option.map_eq_some_iff.1 he
        exact Or.inr ⟨rfl, rfl⟩
      · rw [if_neg hb] at he
        exact (hs e he).imp_left fun h => (List.mem_cons.1 h).resolve_left hb
  refine hrun w.entries.keys w.forgetIds (fun e he => Or.inl ?_) e hg
  exact Table.mem_keys_iff.2 ⟨e, he⟩

theorem stage_restartAll {now : Nat} {e : Watch} (hg : (w.restartAll now).get? a = some e) :
    e.stage = .pending 0 now :=
  (entry_restartAll hg).1

end SwapFloor.Watches
