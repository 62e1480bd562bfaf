import SwapFloor.Proofs.Room.Lifecycle
import SwapFloor.Proofs.Room.Presence
import SwapFloor.Proofs.Room.Totals

/-!
# The counts of a room along a run

Only counting a trade changes the counts of a room, and it asks who is in the room just then. So
the counts of an open room are the sums over all trades that were counted since it was created,
each taken with whether its signer was in the room. Between two changes of who is in which room,
trades can be counted in any order: what comes later finds the same rooms open and the same wallets
in them.

Main statement: `sums_of_run`.
-/

namespace SwapFloor.Lobby

/-- The trade that an operation counts for an open room, if it counts one. -/
def Act.counted? (l : Lobby) (id : String) : Act → Option RoomTrade
  | .recordTrade id' t => if id' = id then some ⟨t, l.isActive id t.signer⟩ else none
  | _ => none

/-- The trades that are counted for an open room in a run. -/
def recorded (l : Lobby) (id : String) : List Act → List RoomTrade
  | [] => []
  | a :: as => (a.counted? l id).toList ++ (l.act a).recorded id as

theorem recorded_append (l : Lobby) (id : String) (as bs : List Act) :
    l.recorded id (as ++ bs) = l.recorded id as ++ (l.run as).recorded id bs := by
  induction as generalizing l with
  | nil => rfl
  | cons a as ih =>
    rw [List.cons_append, recorded, recorded, ih, List.append_assoc]
    rfl

@[simp] theorem quoteMint_run (l : Lobby) (as : List Act) : (l.run as).quoteMint = l.quoteMint := by
  induction as generalizing l with
  | nil => rfl
  | cons a as ih => exact (ih (l.act a)).trans (l.quoteMint_act a)

/-! ## The counts of one room -/

section

variable {l : Lobby} {a : Act} {id : String} {e e' : Entry}

theorem Entry.stats_leave (e : Entry) (wallet : String) (now : Instant) :
    (e.leave wallet now).1.stats = e.stats := by
  unfold leave
  split
  · rfl
  · split <;> rfl

theorem counted?_eq_some_iff {r : RoomTrade} :
    a.counted? l id = some r ↔
      ∃ t, a = .recordTrade id t ∧ r = ⟨t, l.isActive id t.signer⟩ := by
  constructor
  · intro h
    unfold Act.counted? at h
    split at h
    · split at h
      · rename_i id' t hid
        cases h
        exact ⟨t, by rw [hid], rfl⟩
      · cases h
    · cases h
  · rintro ⟨t, rfl, rfl⟩
    exact if_pos rfl

/-- A room that is in both lobbies has the same counts in them. -/
def CountsAlike (l l' : Lobby) (id : String) : Prop :=
  ∀ e e', l.get? id = some e → l'.get? id = some e' → e'.stats = e.stats

theorem countsAlike_of_get? {l' : Lobby} (h : l'.get? id = l.get? id) : CountsAlike l l' id := by
  intro e e' he he'
  obtain rfl : e = e' := Option.some.inj (he.symm.trans (h.symm.trans he'))
  rfl

theorem countsAlike_update {id' : String} {e₁ e₂ : Entry} (h₁ : l.get? id' = some e₁)
    (hs : e₂.stats = e₁.stats) : CountsAlike l (l.update id' e₂) id := by
  by_cases hid : id = id'
  · intro e e' he he'
    rw [get?_update, if_pos hid, Option.some.injEq] at he'
    rw [hid, h₁, Option.some.injEq] at he
    rw [← he', hs, he]
  · exact countsAlike_of_get? ((get?_update ..).trans (if_neg hid))

theorem countsAlike_afterwards {α : Type} {x : Except Failure (Lobby × α)}
    (h : ∀ l' u, x = .ok (l', u) → CountsAlike l l' id) : CountsAlike l (l.afterwards x) id := by
  cases x with
  | error f => exact countsAlike_of_get? rfl
  | ok u => exact h u.1 u.2 rfl

/-- Nothing but counting a trade changes the counts. -/
theorem countsAlike_act (ha : a.created? ≠ some id) (hc : a.counted? l id = none) :
    CountsAlike l (l.act a) id := by
  cases a with
  | create id' plan now =>
    refine countsAlike_afterwards fun l' room h => countsAlike_of_get? (get?_create h id ?_)
    exact fun hid => ha (congrArg some hid.symm)
  | join id' wallet now =>
    refine countsAlike_afterwards fun l' j h => ?_
    obtain ⟨_, e₁, h₁, rfl, _⟩ := join_eq h
    exact countsAlike_update (get?_of_openEntry h₁) rfl
  | leave id' wallet now =>
    refine countsAlike_afterwards fun l' left h => ?_
    obtain ⟨e₁, h₁, rfl, _⟩ := leave_eq h
    exact countsAlike_update h₁ (e₁.stats_leave wallet now)
  | close id' requester now =>
    refine countsAlike_afterwards fun l' room h => ?_
    obtain ⟨e₁, h₁, _, _, rfl, _⟩ := close_eq h
    exact countsAlike_update h₁ rfl
  | touch id' wallet now =>
    refine countsAlike_afterwards fun l' u h => ?_
    cases ht : l.touch id' wallet now with
    | error f => rw [ht] at h; cases h
    | ok lt =>
      rw [ht] at h
      cases h
      obtain ⟨e₁, h₁, rfl⟩ := touch_eq ht
      exact countsAlike_update (get?_of_openEntry h₁) rfl
  | recordTrade id' t =>
    have hne : id ≠ id' := by
      rintro rfl
      exact nomatch hc.symm.trans (if_pos rfl)
    refine countsAlike_afterwards fun l' trouble h => ?_
    obtain ⟨e₁, _, rfl, _⟩ := recordTrade_eq h
    exact countsAlike_of_get? ((get?_update ..).trans (if_neg hne))
  | reap now =>
    intro e e' he he'
    obtain ⟨e₁, h₁, hleft⟩ := exists_of_get?_reap he'
    obtain rfl : e₁ = e := Option.some.inj (h₁.symm.trans he)
    rcases hleft with rfl | ⟨_, rfl⟩
    · rfl
    · rfl

theorem stats_act_of_some {r : RoomTrade} (hc : a.counted? l id = some r)
    (he : l.get? id = some e) (hopen : e.room.status = .open)
    (he' : (l.act a).get? id = some e') :
    e'.stats = (e.stats.apply r.trade l.quoteMint r.byMember).1 := by
  obtain ⟨t, rfl, rfl⟩ := counted?_eq_some_iff.1 hc
  have hentry : l.openEntry id = .ok e :=
    openEntry_eq_ok_iff.2 ⟨he, fun hclosed => nomatch hopen.symm.trans hclosed⟩
  have hact : l.act (.recordTrade id t) = l.update id (e.count t l.quoteMint).1 := by
    show l.afterwards (l.recordTrade id t) = _
    unfold recordTrade
    rw [hentry]
    rfl
  rw [hact, get?_update, if_pos rfl, Option.some.injEq] at he'
  rw [← he', isActive_of_get? he]
  rfl

theorem open_of_open_run {as : List Act} (hl : l.Proper) (hid : id ∉ created as)
    (he : l.get? id = some e) (he' : (l.run as).get? id = some e')
    (hopen : e'.room.status = .open) : e.room.status = .open := by
  rcases (onward_run hl hid he he').room.stage with hs | ⟨ho, _⟩
  · exact hs.symm.trans hopen
  · exact ho

/-- All trades for the room have the direction that the mint gives them. -/
def Classified (mint id : String) (as : List Act) : Prop :=
  ∀ t, .recordTrade id t ∈ as → t = t.classified mint

/-- As long as a room stays open and its sums are exact, its counts are those of what is recorded,
on top of what was counted before. -/
theorem sums_run {as : List Act} {h : List RoomTrade} (hl : l.Proper) (hid : id ∉ created as)
    (he : l.get? id = some e) (he' : (l.run as).get? id = some e')
    (hopen : e'.room.status = .open) (hclass : Classified l.quoteMint id as)
    (hs : e.stats.Sums h) (hx : e.stats.Exact (l.recorded id as)) :
    e'.stats.Sums (h ++ l.recorded id as) := by
  induction as generalizing l e h with
  | nil =>
    cases he.symm.trans he'
    rw [recorded, List.append_nil]
    exact hs
  | cons a as ih =>
    obtain ⟨ha, hrest⟩ := not_mem_created_cons.1 hid
    cases hg : (l.act a).get? id with
    | none => exact nomatch (absent_run hrest hg).symm.trans he'
    | some e₁ =>
      have hclass' : Classified (l.act a).quoteMint id as := by
        rw [quoteMint_act]
        exact fun t ht => hclass t (List.mem_cons_of_mem _ ht)
      rw [recorded] at hx ⊢
      cases hc : a.counted? l id with
      | none =>
        have hstats := countsAlike_act ha hc e e₁ he hg
        rw [hc] at hx
        exact ih (proper_act hl a) hrest hg he' hclass' (hstats ▸ hs) (hstats ▸ hx)
      | some r =>
        have hr : r.trade = r.trade.classified l.quoteMint := by
          obtain ⟨t, rfl, rfl⟩ := counted?_eq_some_iff.1 hc
          exact hclass t List.mem_cons_self
        rw [hc] at hx
        obtain ⟨s', happly, hs', hx'⟩ := RoomStats.exists_apply hr hs hx
        have hstats : e₁.stats = s' :=
          (stats_act_of_some hc he (open_of_open_run hl hid he he' hopen) hg).trans
            (congrArg Prod.fst happly)
        have hlater := ih (proper_act hl a) hrest hg he' hclass' (hstats ▸ hs') (hstats ▸ hx')
        rwa [List.append_assoc] at hlater

end

/-! ## The order of trades -/

/-- The same rooms stand the same in both lobbies, and the same wallets are in them. -/
structure Alike (l l' : Lobby) : Prop where
  steady : Steady l l'
  isActive : ∀ room wallet, l'.isActive room wallet = l.isActive room wallet

/-- An operation on one room that neither creates nor closes it. -/
def Act.IsVisit : Act → Prop
  | .join .. | .leave .. | .touch .. | .recordTrade .. => True
  | .create .. | .close .. | .reap .. => False

/-- An operation that lets nobody in and nobody go. -/
def Act.IsIdle : Act → Prop
  | .touch .. | .recordTrade .. => True
  | .create .. | .join .. | .leave .. | .close .. | .reap .. => False

theorem Act.IsIdle.visit {a : Act} (h : a.IsIdle) : a.IsVisit := by
  cases a with
  | touch => trivial
  | recordTrade => trivial
  | _ => exact h.elim

namespace Alike

variable {l l' l'' : Lobby} {id wallet : String} {now : Instant}

theorem refl (l : Lobby) : Alike l l := ⟨.refl l, fun _ _ => rfl⟩

theorem symm (h : Alike l l') : Alike l' l :=
  ⟨h.steady.symm, fun room wallet => (h.isActive room wallet).symm⟩

theorem trans (h : Alike l l') (h' : Alike l' l'') : Alike l l'' :=
  ⟨h.steady.trans h'.steady, fun room wallet =>
    (h'.isActive room wallet).trans (h.isActive room wallet)⟩

end Alike

section

variable {l l' : Lobby} {a : Act} {id wallet r v : String} {now : Instant}

theorem Steady.afterwards {α : Type} {x : Except Failure (Lobby × α)}
    (h : ∀ l' u, x = .ok (l', u) → Steady l l') : Steady l (l.afterwards x) := by
  cases x with
  | error f => exact .refl l
  | ok u => exact h u.1 u.2 rfl

theorem steady_act (ha : a.IsVisit) : Steady l (l.act a) := by
  cases a with
  | join id wallet now => exact .afterwards fun _ _ h => steady_join h
  | leave id wallet now => exact .afterwards fun _ _ h => steady_leave h
  | recordTrade id t => exact .afterwards fun _ _ h => steady_recordTrade h
  | touch id wallet now =>
    refine .afterwards fun l' u h => ?_
    cases ht : l.touch id wallet now with
    | error f => rw [ht] at h; cases h
    | ok lt =>
      rw [ht] at h
      cases h
      exact steady_touch ht
  | _ => exact ha.elim

theorem isActive_act_of_idle (ha : a.IsIdle) : (l.act a).isActive r v = l.isActive r v := by
  cases a with
  | touch id wallet now =>
    show (l.afterwards ((l.touch id wallet now).map fun l' => (l', ()))).isActive r v = _
    cases ht : l.touch id wallet now with
    | error f => rfl
    | ok lt => exact isActive_of_touch ht r v
  | recordTrade id t =>
    show (l.afterwards (l.recordTrade id t)).isActive r v = _
    cases ht : l.recordTrade id t with
    | error f => rfl
    | ok u =>
      obtain ⟨l', trouble⟩ := u
      exact isActive_of_recordTrade ht r v
  | _ => exact ha.elim

theorem isActive_act_leave :
    (l.act (.leave id wallet now)).isActive r v = true ↔
      l.isActive r v = true ∧ ¬ (r = id ∧ v = wallet) := by
  show (l.afterwards (l.leave id wallet now)).isActive r v = true ↔ _
  cases h : l.leave id wallet now with
  | ok u =>
    obtain ⟨l', left⟩ := u
    exact isActive_of_leave h
  | error f =>
    refine (and_iff_left_of_imp fun (hv : l.isActive r v = true) => ?_).symm
    rintro ⟨rfl, -⟩
    -- a room that refuses is missing, so nobody is in it
    obtain ⟨e, he, _⟩ := exists_of_isActive hv
    unfold leave at h
    rw [entry_eq_ok_iff.2 he] at h
    cases h

/-- A join that is let in changes who is there by that wallet only. -/
theorem isActive_act_join :
    (l.act (.join id wallet now)).isActive r v = true ↔ l.isActive r v = true ∨
      Text.trim wallet ≠ "" ∧ (∃ e, l.openEntry id = .ok e) ∧ r = id ∧ v = Text.trim wallet := by
  show (l.afterwards (l.join id wallet now)).isActive r v = true ↔ _
  cases h : l.join id wallet now with
  | ok u =>
    obtain ⟨hw, e, he, _⟩ := join_eq h
    refine (isActive_of_join (j := u.2) h).trans (or_comm.trans (or_congr_right ?_))
    exact ⟨fun hrv => ⟨hw, ⟨e, he⟩, hrv⟩, fun hall => hall.2.2⟩
  | error f =>
    refine (or_iff_left ?_).symm
    rintro ⟨hw, ⟨e, he⟩, -⟩
    unfold join at h
    rw [if_neg hw, he] at h
    cases h

theorem Steady.openEntry_iff (h : Steady l l') (id : String) :
    (∃ e, l'.openEntry id = .ok e) ↔ ∃ e, l.openEntry id = .ok e := by
  have onward : ∀ {l l' : Lobby}, Steady l l' → (∃ e, l.openEntry id = .ok e) →
      ∃ e, l'.openEntry id = .ok e := by
    rintro l l' h ⟨e, he⟩
    obtain ⟨he, hopen⟩ := openEntry_eq_ok_iff.1 he
    obtain ⟨e', he', hs⟩ := h.exists_entry he
    exact ⟨e', openEntry_eq_ok_iff.2 ⟨he', fun hc => hopen
      ((congrArg Standing.status hs).symm.trans hc)⟩⟩
  exact ⟨onward h.symm, onward h⟩

namespace Alike

theorem idle (ha : a.IsIdle) : Alike l (l.act a) :=
  ⟨steady_act ha.visit, fun _ _ => isActive_act_of_idle ha⟩

/-- Lobbies that are alike stay so under the same visit. -/
theorem visit (h : Alike l l') (ha : a.IsVisit) : Alike (l.act a) (l'.act a) := by
  refine ⟨((steady_act ha).symm.trans h.steady).trans (steady_act ha), fun r v => ?_⟩
  cases a with
  | join id wallet now =>
    refine Bool.eq_iff_iff.2 ?_
    rw [isActive_act_join, isActive_act_join, h.isActive, h.steady.openEntry_iff]
  | leave id wallet now =>
    refine Bool.eq_iff_iff.2 ?_
    rw [isActive_act_leave, isActive_act_leave, h.isActive]
  | touch id wallet now =>
    have hidle : (Act.touch id wallet now).IsIdle := trivial
    rw [isActive_act_of_idle hidle, isActive_act_of_idle hidle, h.isActive]
  | recordTrade id t =>
    have hidle : (Act.recordTrade id t).IsIdle := trivial
    rw [isActive_act_of_idle hidle, isActive_act_of_idle hidle, h.isActive]
  | _ => exact ha.elim

theorem run_idle {as : List Act} (has : ∀ a ∈ as, a.IsIdle) : Alike l (l.run as) := by
  induction as generalizing l with
  | nil => exact .refl l
  | cons a as ih =>
    obtain ⟨ha, has⟩ := List.forall_mem_cons.1 has
    exact (idle ha).trans (ih has)

theorem run_visits {as : List Act} (h : Alike l l') (has : ∀ a ∈ as, a.IsVisit) :
    Alike (l.run as) (l'.run as) := by
  induction as generalizing l l' with
  | nil => exact h
  | cons a as ih =>
    obtain ⟨ha, has⟩ := List.forall_mem_cons.1 has
    exact ih (h.visit ha) has

theorem counted?_eq (h : Alike l l') (id : String) (a : Act) :
    a.counted? l' id = a.counted? l id := by
  cases a with
  | recordTrade id' t =>
    unfold Act.counted?
    dsimp only
    rw [h.isActive]
  | _ => rfl

theorem recorded_eq {as : List Act} (h : Alike l l') (has : ∀ a ∈ as, a.IsVisit) (id : String) :
    l'.recorded id as = l.recorded id as := by
  induction as generalizing l l' with
  | nil => rfl
  | cons a as ih =>
    obtain ⟨ha, has⟩ := List.forall_mem_cons.1 has
    rw [recorded, recorded, h.counted?_eq, ih (h.visit ha) has]

end Alike

/-- While nobody comes or goes, every trade finds the same wallets in the room. -/
theorem recorded_of_idle {as : List Act} (has : ∀ a ∈ as, a.IsIdle) (id : String) :
    l.recorded id as = as.filterMap (Act.counted? l id) := by
  induction as generalizing l with
  | nil => rfl
  | cons a as ih =>
    obtain ⟨ha, has⟩ := List.forall_mem_cons.1 has
    have hsame : Act.counted? (l.act a) id = Act.counted? l id :=
      funext ((Alike.idle ha).counted?_eq id)
    rw [recorded, ih has, hsame]
    cases hc : a.counted? l id with
    | none => rw [List.filterMap_cons_none hc]; rfl
    | some r => rw [List.filterMap_cons_some hc]; rfl

/-- Trades that are counted while nobody comes or goes are recorded in any order, and nothing that
is done with single rooms later is recorded differently. -/
theorem recorded_perm (l : Lobby) (id : String) (as₁ : List Act) {mid mid' as₂ : List Act}
    (hp : mid.Perm mid') (hmid : ∀ a ∈ mid, a.IsIdle) (has₂ : ∀ a ∈ as₂, a.IsVisit) :
    Alike (l.run (as₁ ++ mid ++ as₂)) (l.run (as₁ ++ mid' ++ as₂)) ∧
    (l.recorded id (as₁ ++ mid ++ as₂)).Perm (l.recorded id (as₁ ++ mid' ++ as₂)) := by
  have hmid' : ∀ a ∈ mid', a.IsIdle := fun a ha => hmid a (hp.mem_iff.2 ha)
  have halike : Alike (l.run (as₁ ++ mid)) (l.run (as₁ ++ mid')) := by
    rw [run_append, run_append]
    exact (Alike.run_idle hmid).symm.trans (Alike.run_idle hmid')
  constructor
  · rw [run_append _ _ as₂, run_append _ _ as₂]
    exact halike.run_visits has₂
  · rw [recorded_append _ _ _ as₂, recorded_append _ _ _ as₂, halike.recorded_eq has₂,
      recorded_append, recorded_append, recorded_of_idle hmid, recorded_of_idle hmid']
    exact ((hp.filterMap _).append_left _).append_right _

end

/-! ## All trades since a room was created -/

/-- The counts of a new room, after whatever was done before and as long as it is open. -/
theorem sums_of_create {l₀ l : Lobby} {id : String} {plan : Plan} {now : Instant} {room : Room}
    (hl : l₀.Proper) (hcreate : l₀.create id plan now = .ok (l, room)) {as : List Act}
    (hid : id ∉ created as) {e : Entry} (he : (l.run as).get? id = some e)
    (hopen : e.room.status = .open) (hclass : Classified l₀.quoteMint id as)
    (hx : RoomStats.empty.Exact (l.recorded id as)) : e.stats.Sums (l.recorded id as) := by
  have hproper := proper_create hl hcreate
  obtain ⟨_, _, _, rfl⟩ := create_eq hcreate
  exact sums_run hproper hid ((get?_update ..).trans (if_pos rfl)) he hopen hclass
    RoomStats.sums_empty hx

/-- Take a room that is created in a lobby that began empty, and a later time at which it is still
open. If no sum over the trades recorded since then is rounded, its counts are the sums over them.
If all signers were in the room, the flows of its members come to what its sales received less what
its buys spent. Trades that are recorded while nobody comes or goes may come in any order. -/
theorem sums_of_run {hours : Int64} {mint : String} {before : List Act} {l : Lobby} {id : String}
    {plan : Plan} {now : Instant} {room : Room}
    (hcreate : ((new hours mint).run before).create id plan now = .ok (l, room)) {as : List Act}
    (hid : id ∉ created as) {e : Entry} (he : (l.run as).get? id = some e)
    (hopen : e.room.status = .open) (hclass : Classified mint id as)
    (hx : RoomStats.empty.Exact (l.recorded id as)) :
    e.stats.Sums (l.recorded id as) ∧
    ((∀ r ∈ l.recorded id as, r.byMember = true) →
      Decimal.total e.stats.memberPnl.values = e.stats.sellVolume.value - e.stats.buyVolume.value) ∧
    ∀ as₁ mid mid' as₂, as = as₁ ++ mid ++ as₂ → mid.Perm mid' → (∀ a ∈ mid, a.IsIdle) →
      (∀ a ∈ as₂, a.IsVisit) → RoomStats.empty.Exact (l.recorded id (as₁ ++ mid' ++ as₂)) →
      ∃ e', (l.run (as₁ ++ mid' ++ as₂)).get? id = some e' ∧ e.stats.SameTotals e'.stats := by
  have hproper : ((new hours mint).run before).Proper := proper_run (proper_new hours mint) before
  have hmint : ((new hours mint).run before).quoteMint = mint := quoteMint_run _ _
  have hsums := sums_of_create hproper hcreate hid he hopen (hmint.symm ▸ hclass) hx
  refine ⟨hsums, hsums.conserved, fun as₁ mid mid' as₂ has hp hmid has₂ hx' => ?_⟩
  subst has
  have hacts : (as₁ ++ mid ++ as₂).Perm (as₁ ++ mid' ++ as₂) :=
    (hp.append_left as₁).append_right as₂
  obtain ⟨halike, hrecorded⟩ := recorded_perm l id as₁ hp hmid has₂
  obtain ⟨e', he', hstanding⟩ := halike.steady.exists_entry he
  have hid' : id ∉ created (as₁ ++ mid' ++ as₂) := fun hin =>
    hid ((hacts.filterMap Act.created?).mem_iff.2 hin)
  have hclass' : Classified mint id (as₁ ++ mid' ++ as₂) := fun t ht =>
    hclass t (hacts.mem_iff.2 ht)
  have hopen' : e'.room.status = .open := (congrArg Standing.status hstanding).trans hopen
  have hsums' := sums_of_create hproper hcreate hid' he' hopen' (hmint.symm ▸ hclass') hx'
  exact ⟨e', he', hsums.sameTotals_of_perm hsums' hrecorded⟩

/-- Some tenths of a token. -/
def tenths (mint : String) (n : Nat) : Leg := ⟨mint, (Decimal.ofParts? false n 1).getD .zero⟩

/-- An exchange of some tokens for others, of which sol is the quote. -/
def exchange (signer : String) (spent received : Leg) (time : Int) : Trade where
  signature := "sig"
  slot := 0
  blockTime := ⟨time, false⟩
  platform := "unknown"
  programId := none
  spent := spent
  received := received
  signer := signer
  trackedAddress := none
  side := Side.classify spent.mint received.mint "sol"

/-- Ann buys, and sells with a loss, while Bo, who joins later, sells. -/
def openDay (first second : Act) : List Act :=
  [.recordTrade "r" (exchange "ann" (tenths "sol" 25) (tenths "mint" 70) 3),
    .join "r" "bo" ⟨4, false⟩] ++
    [first, .touch "r" "ann" ⟨5, false⟩, second] ++ [.leave "r" "bo" ⟨9, false⟩]

def annSells : Act :=
  .recordTrade "r" (exchange "ann" (tenths "mint" 70) (tenths "sol" 20) 8)

def boSells : Act :=
  .recordTrade "r" (exchange "bo" (tenths "mint" 10) (tenths "sol" 12) 6)

/-- The lobby with Ann in her room. -/
def annsLobby : Lobby := (new 24 "sol").act (.create "r" { creator := "ann" } ⟨1, false⟩)

theorem sums_openDay :
    ∃ room e e', (new 24 "sol").create "r" { creator := "ann" } ⟨1, false⟩ = .ok (annsLobby, room) ∧
      (annsLobby.run (openDay annSells boSells)).get? "r" = some e ∧
      (annsLobby.run (openDay boSells annSells)).get? "r" = some e' ∧
      e.stats.Sums (annsLobby.recorded "r" (openDay annSells boSells)) ∧
      Decimal.total e.stats.memberPnl.values
        = e.stats.sellVolume.value - e.stats.buyVolume.value ∧
      e.stats.SameTotals e'.stats ∧ e.stats.memberPnl.keys = ["ann", "bo"] := by
  have hopen : ((annsLobby.run (openDay annSells boSells)).get? "r").map
      (fun e => (e.room.status, e.stats.memberPnl.keys)) = some (.open, ["ann", "bo"]) := by
    decide +kernel
  have hclass : Classified "sol" "r" (openDay annSells boSells) := by
    intro t ht
    simp only [openDay, annSells, boSells, List.mem_append, List.mem_cons, List.not_mem_nil,
      Act.recordTrade.injEq, reduceCtorEq, or_false, false_or, true_and] at ht
    rcases ht with rfl | rfl | rfl
    · rfl
    · rfl
    · rfl
  have hidle : ∀ a ∈ [annSells, .touch "r" "ann" ⟨5, false⟩, boSells], a.IsIdle := by
    intro a ha
    simp only [List.mem_cons, List.not_mem_nil, or_false] at ha
    rcases ha with rfl | rfl | rfl
    · trivial
    · trivial
    · trivial
  have hleave : ∀ a ∈ [Act.leave "r" "bo" ⟨9, false⟩], a.IsVisit := by
    intro a ha
    rw [List.mem_singleton.1 ha]
    trivial
  obtain ⟨room, hcreate⟩ : ∃ room, ((new 24 "sol").run []).create "r" { creator := "ann" }
      ⟨1, false⟩ = .ok (annsLobby, room) := by
    cases h : (new 24 "sol").create "r" { creator := "ann" } ⟨1, false⟩ with
    | error f =>
      have hok : ((new 24 "sol").create "r" { creator := "ann" } ⟨1, false⟩).toBool = true := by
        decide +kernel
      rw [h] at hok
      cases hok
    | ok u =>
      have hl : annsLobby = u.1 := congrArg (new 24 "sol").afterwards h
      exact ⟨u.2, by rw [hl]; exact h⟩
  obtain ⟨e, he, hboth⟩ := Option.map_eq_some_iff.1 hopen
  obtain ⟨hsums, hconserved, horder⟩ := sums_of_run hcreate (by decide) he
    (congrArg Prod.fst hboth) hclass (by decide +kernel)
  obtain ⟨e', he', hagrees⟩ := horder _ _ _ _ rfl (List.reverse_perm _).symm hidle hleave
    (by decide +kernel)
  exact ⟨room, e, e', hcreate, he, he', hsums, hconserved (by decide +kernel), hagrees,
    congrArg Prod.snd hboth⟩

end SwapFloor.Lobby
