import Mathlib.Data.List.Perm.Basic
import SwapFloor.Proofs.Json.Leaves
import SwapFloor.Table

/-!
# Tables read back from JSON

An object lists its members by key, whatever order they were given in (`sortMembers_perm`). A
table of texts is therefore read back with the same entries in another order, which `get?` cannot
tell (`mapOf_object`).
-/

namespace SwapFloor

namespace Json

variable {α β : Type}

/-- A member under a new key only has its place among the others. -/
theorem insertMember_perm {k : String} {members : List (String × Json)} (v : Json)
    (h : k ∉ members.map Prod.fst) : (insertMember k v members).Perm ((k, v) :: members) := by
  induction members with
  | nil => exact .refl _
  | cons m members ih =>
    rw [List.map_cons, List.mem_cons, not_or] at h
    obtain ⟨k', v'⟩ := m
    rw [insertMember, if_neg h.1]
    split
    · exact .refl _
    · exact ((ih h.2).cons _).trans (.swap ..)

/-- Members of distinct keys are listed by key, each with its value. -/
theorem sortMembers_perm {members : List (String × Json)} (h : (members.map Prod.fst).Nodup) :
    (sortMembers members).Perm members := by
  have hfold : ∀ sorted : List (String × Json),
      ((sorted ++ members).map Prod.fst).Nodup →
        (members.foldl (fun acc m => insertMember m.1 m.2 acc) sorted).Perm
          (sorted ++ members) := by
    clear h
    induction members with
    | nil =>
      intro sorted _
      rw [List.foldl_nil, List.append_nil]
    | cons m members ih =>
      intro sorted hkeys
      have hfront : (sorted ++ m :: members).Perm ((m :: sorted) ++ members) :=
        List.perm_middle
      have hnew : m.1 ∉ sorted.map Prod.fst := by
        have hnodup := (hfront.map Prod.fst).nodup_iff.1 hkeys
        rw [List.cons_append, List.map_cons, List.nodup_cons, List.map_append,
          List.mem_append, not_or] at hnodup
        exact hnodup.1.1
      have hinsert := insertMember_perm m.2 hnew
      have hplaced : (insertMember m.1 m.2 sorted ++ members).Perm (sorted ++ m :: members) :=
        (hinsert.append_right members).trans hfront.symm
      rw [List.foldl_cons]
      exact (ih _ ((hplaced.map Prod.fst).nodup_iff.2 hkeys)).trans hplaced
  exact hfold [] h

/-- A table is given the entries of a list one after the other. -/
theorem get?_foldl_insert {es : List (String × β)} (hkeys : (es.map Prod.fst).Nodup) (k : String)
    (t : Table String β) (hfresh : ∀ e ∈ es, t.get? e.1 = none) :
    (es.foldl (fun t e => t.insert e.1 e.2) t).get? k = (Table.find k es).or (t.get? k) := by
  induction es generalizing t with
  | nil => rfl
  | cons e es ih =>
    rw [List.map_cons, List.nodup_cons] at hkeys
    have hlater : ∀ e' ∈ es, (t.insert e.1 e.2).get? e'.1 = none := by
      intro e' he'
      have hother : e'.1 ≠ e.1 := fun h => hkeys.1 (h ▸ List.mem_map_of_mem he')
      rw [Table.get?_insert, if_neg hother]
      exact hfresh e' (List.mem_cons_of_mem _ he')
    rw [List.foldl_cons, ih hkeys.2 _ hlater, Table.get?_insert, Table.find]
    by_cases hk : e.1 = k
    · have hnone : Table.find k es = none := Table.find_eq_none_iff.2 (hk ▸ hkeys.1)
      rw [hnone, if_pos hk.symm, if_pos hk]
      rfl
    · rw [if_neg (Ne.symm hk), if_neg hk]

theorem find_of_perm {es es' : List (String × β)} (hkeys : (es.map Prod.fst).Nodup)
    (h : es'.Perm es) (k : String) : Table.find k es' = Table.find k es := by
  have hkeys' : (es'.map Prod.fst).Nodup := (h.map Prod.fst).nodup_iff.2 hkeys
  refine Option.ext fun v => ?_
  constructor
  · intro hv
    exact Table.find_of_mem hkeys (h.mem_iff.1 (Table.mem_of_find hv))
  · intro hv
    exact Table.find_of_mem hkeys' (h.mem_iff.2 (Table.mem_of_find hv))

/-- A table written as an object is read as the list of its entries in some order. -/
theorem mapOf_object {d : Decoder β} {f : α → Json} {g : α → β} (t : Table String α)
    (h : ∀ a, d (f a) = .ok (g a)) :
    ∃ es, mapOf d (object (t.entries.map fun e => (e.1, f e.2))) = .ok es ∧
      ∀ k, (es.foldl (fun t e => t.insert e.1 e.2) (.empty : Table String β)).get? k
        = (t.get? k).map g := by
  have hkeys : ((t.entries.map fun e => (e.1, f e.2)).map Prod.fst).Nodup := by
    rw [List.map_map]
    exact t.nodup
  obtain ⟨entries, hsorted, hentries⟩ :=
    (congrFun (congrFun (List.eq_map_comp_perm fun e : String × α => (e.1, f e.2)) _) _).mpr
      (sortMembers_perm hkeys)
  have hnodup : (entries.map Prod.fst).Nodup := (hentries.map Prod.fst).nodup_iff.2 t.nodup
  refine ⟨entries.map fun e => (e.1, g e.2), ?_, ?_⟩
  · unfold object mapOf
    dsimp only
    rw [hsorted]
    exact mapM_map_eq_ok fun e _ => by rw [h]; rfl
  · intro k
    rw [get?_foldl_insert (by rwa [List.map_map]) k .empty fun _ _ => rfl,
      Table.find_map entries (fun _ a => g a) k, find_of_perm t.nodup hentries]
    exact Option.or_none

end Json

end SwapFloor
