import SwapFloor.Proofs.Watch.Epochs

/-!
# Which address holds which subscription

The addresses of subscriptions are looked up in a table of their own, beside the entries that say
which subscription an address has. `Mapped` says that the two agree.

Main statements: every operation keeps them in agreement, and no subscription is held twice
(`Mapped.nodup_activeIds`).
-/

namespace SwapFloor.Watches

/-- The subscription of an entry that has one. -/
def Watch.activeId? (e : Watch) : Option SubscriptionId :=
  match e.stage with
  | .active id => some id
  | _ => none

/-- The subscriptions of all entries that have one. -/
def activeIds (w : Watches) : List SubscriptionId := w.entries.entries.filterMap (·.2.activeId?)

/-- An address has a subscription. -/
def Holds (w : Watches) (a : String) (id : SubscriptionId) : Prop :=
  ∃ e, w.get? a = some e ∧ e.stage = .active id

/-- The addresses of subscriptions are those that hold them. -/
def Mapped (w : Watches) : Prop := ∀ id a, w.addressOf? id = some a ↔ w.Holds a id

variable {w w' : Watches} {a : String} {e e' : Watch}

theorem activeId?_eq_some_iff {id : SubscriptionId} :
    e.activeId? = some id ↔ e.stage = .active id := by
  unfold Watch.activeId?
  cases e.stage <;> simp

theorem holds_iff_of_get? (hg : w.get? a = some e) (id : SubscriptionId) :
    w.Holds a id ↔ e.stage = .active id := by
  constructor
  · rintro ⟨d, hd, hs⟩
    rwa [Option.some.inj (hg.symm.trans hd)]
  · exact fun hs => ⟨e, hg, hs⟩

theorem mem_activeIds {id : SubscriptionId} : id ∈ w.activeIds ↔ ∃ a, w.Holds a id := by
  unfold activeIds Holds
  rw [List.mem_filterMap]
  constructor
  · rintro ⟨x, hx, hid⟩
    exact ⟨x.1, x.2, Table.get?_eq_some_iff.2 hx, activeId?_eq_some_iff.1 hid⟩
  · rintro ⟨a, e, hg, hs⟩
    exact ⟨(a, e), Table.get?_eq_some_iff.1 hg, activeId?_eq_some_iff.2 hs⟩

namespace Mapped

theorem unique (h : w.Mapped) {a a' : String} {id : SubscriptionId} (ha : w.Holds a id)
    (ha' : w.Holds a' id) : a = a' :=
  Option.some.inj (((h id a).2 ha).symm.trans ((h id a').2 ha'))

/-- No subscription is active twice. -/
theorem nodup_activeIds (h : w.Mapped) : w.activeIds.Nodup := by
  unfold activeIds
  rw [List.Nodup, List.pairwise_filterMap]
  have hkeys := List.pairwise_map.1 w.entries.nodup
  refine hkeys.imp_of_mem fun {x y} hx hy hne id hid id' hid' heq => hne ?_
  subst heq
  refine h.unique ⟨x.2, Table.get?_eq_some_iff.2 hx, activeId?_eq_some_iff.1 hid⟩ ?_
  exact ⟨y.2, Table.get?_eq_some_iff.2 hy, activeId?_eq_some_iff.1 hid'⟩

theorem count_activeIds (h : w.Mapped) (id : SubscriptionId) :
    w.activeIds.count id = (w.addressOf? id).toList.length := by
  rw [h.nodup_activeIds.count]
  cases ha : w.addressOf? id with
  | none =>
    refine if_neg fun hm => ?_
    obtain ⟨a, hh⟩ := mem_activeIds.1 hm
    exact nomatch ha.symm.trans ((h id a).2 hh)
  | some a => exact if_pos (mem_activeIds.2 ⟨a, (h id a).1 ha⟩)

theorem of_same (h : w.Mapped) (hget : ∀ a, w'.get? a = w.get? a)
    (haddresses : w'.addresses = w.addresses) : w'.Mapped := by
  intro id a
  unfold addressOf? Holds
  rw [haddresses, hget]
  exact h id a

/-- An entry may change as long as it holds what it held. -/
theorem put (h : w.Mapped) (hsame : ∀ id, w.Holds a id ↔ e.stage = .active id) :
    (w.put a e).Mapped := by
  intro id b
  refine (h id b).trans ?_
  by_cases hb : b = a
  · subst hb
    rw [hsame, holds_iff_of_get? ((get?_put ..).trans (if_pos rfl))]
  · unfold Holds
    rw [get?_put, if_neg hb]

theorem grant (h : w.Mapped) {id : SubscriptionId} (hnone : ∀ id, ¬ w.Holds a id)
    (hnew : w.addressOf? id = none) (hg : ∀ b, w'.get? b = (w.put a e).get? b)
    (hs : e.stage = .active id) (haddresses : w'.addresses = w.addresses.insert id a) :
    w'.Mapped := by
  intro id' b
  have hfree : ¬ w.Holds b id := fun hh => nomatch hnew.symm.trans ((h id b).2 hh)
  unfold addressOf? Holds
  rw [haddresses, Table.get?_insert, hg, get?_put]
  by_cases hb : b = a
  · subst hb
    rw [if_pos rfl]
    by_cases hid : id' = id
    · subst hid
      simp [hs]
    · rw [if_neg hid]
      refine ⟨fun ha => absurd ((h id' b).1 ha) (hnone id'), ?_⟩
      rintro ⟨d, hd, hsd⟩
      cases hd
      exact absurd (Stage.active.inj (hsd.symm.trans hs)) hid
  · rw [if_neg hb]
    by_cases hid : id' = id
    · subst hid
      rw [if_pos rfl]
      exact ⟨fun ha => absurd (Option.some.inj ha).symm hb, fun hh => absurd hh hfree⟩
    · rw [if_neg hid]
      exact h id' b

theorem letGo (h : w.Mapped) {call : Option Call} (hl : LetGo w a (w', call)) : w'.Mapped := by
  have haway : ∀ {e}, Gone w w' a e → ∀ b id, w'.Holds b id ↔ b ≠ a ∧ w.Holds b id := by
    intro e hgone b id
    unfold Holds
    rw [hgone.get?]
    by_cases hb : b = a
    · simp [hb]
    · simp [hb]
  cases hl with
  | idle hgone hidle haddresses =>
    intro id b
    rw [haway hgone, addressOf?, haddresses]
    refine (h id b).trans ⟨fun hh => ⟨?_, hh⟩, fun hh => hh.2⟩
    rintro rfl
    exact hidle id ((holds_iff_of_get? hgone.there id).1 hh)
  | @active _ e id hgone hactive haddresses =>
    have hheld : w.Holds a id := (holds_iff_of_get? hgone.there id).2 hactive
    intro id' b
    rw [haway hgone, addressOf?, haddresses, Table.get?_erase]
    by_cases hid : id' = id
    · subst hid
      rw [if_pos rfl]
      exact ⟨fun hn => (nomatch hn), fun hh => absurd (h.unique hh.2 hheld) hh.1⟩
    · rw [if_neg hid]
      refine (h id' b).trans ⟨fun hh => ⟨?_, hh⟩, fun hh => hh.2⟩
      rintro rfl
      have hsame := ((holds_iff_of_get? hgone.there id').1 hh).symm.trans hactive
      exact hid (Stage.active.inj hsame)

theorem retryDue (h : w.Mapped) (now : Nat) : (w.retryDue now).1.Mapped := by
  intro id a
  unfold addressOf?
  rw [addresses_retryDue]
  refine (h id a).trans ?_
  rcases w.get?_retryDue now a with hg | ⟨e, e', hg, hdue, hg', hs'⟩
  · unfold Holds
    rw [hg]
  · obtain ⟨attempts, dueAt, hs, _⟩ := isDue_iff.1 hdue
    rw [holds_iff_of_get? hg, holds_iff_of_get? hg', hs, hs']
    exact ⟨fun hn => (nomatch hn), fun hn => (nomatch hn)⟩

theorem restartAll (w : Watches) (now : Nat) : (w.restartAll now).Mapped := by
  intro id a
  unfold addressOf?
  rw [addresses_restartAll]
  refine ⟨fun hn => (nomatch hn), ?_⟩
  rintro ⟨e, hg, hs⟩
  exact nomatch (stage_restartAll hg).symm.trans hs

end Mapped

end SwapFloor.Watches
