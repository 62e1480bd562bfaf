/-!
# Tables

A table holds at most one value for each key and remembers the order in which keys were first
put. Its view is `get?`. Main statements: what `get?` finds after each operation, and that a
table has an entry exactly for the keys that `get?` finds.
-/

namespace SwapFloor

/-- A list of entries with distinct keys. -/
structure Table (κ α : Type) where
  entries : List (κ × α)
  nodup : (entries.map Prod.fst).Nodup

namespace Table

variable {κ α β : Type}

/-- No entries. -/
def empty : Table κ α := ⟨[], List.nodup_nil⟩

instance : Inhabited (Table κ α) := ⟨empty⟩

instance : EmptyCollection (Table κ α) := ⟨empty⟩

/-- A table is its entries. -/
theorem ext_entries {t t' : Table κ α} (h : t.entries = t'.entries) : t = t' := by
  cases t
  cases h
  rfl

/-- The number of entries. -/
def size (t : Table κ α) : Nat := t.entries.length

/-- Holds nothing. -/
def isEmpty (t : Table κ α) : Bool := t.entries.isEmpty

/-- The keys, first put first. -/
def keys (t : Table κ α) : List κ := t.entries.map Prod.fst

/-- The values, in the order of their keys. -/
def values (t : Table κ α) : List α := t.entries.map Prod.snd

/-- Changes every value. -/
def map (t : Table κ α) (f : κ → α → β) : Table κ β :=
  ⟨t.entries.map fun e => (e.1, f e.1 e.2), by
    have : (t.entries.map fun e => (e.1, f e.1 e.2)).map Prod.fst = t.entries.map Prod.fst := by
      simp [List.map_map, Function.comp_def]
    rw [this]
    exact t.nodup⟩

section Keyed

variable [DecidableEq κ]

/-- The value in a list of entries. -/
def find (k : κ) : List (κ × α) → Option α
  | [] => none
  | (k', v) :: rest => if k' = k then some v else find k rest

/-- Puts a value in its place, or at the end. -/
def put (k : κ) (v : α) : List (κ × α) → List (κ × α)
  | [] => [(k, v)]
  | (k', v') :: rest => if k' = k then (k, v) :: rest else (k', v') :: put k v rest

theorem mem_keys_put {k k' : κ} {v : α} {l : List (κ × α)} :
    k' ∈ (put k v l).map Prod.fst ↔ k' = k ∨ k' ∈ l.map Prod.fst := by
  induction l with
  | nil => simp [put]
  | cons e l ih =>
    obtain ⟨a, w⟩ := e
    by_cases h : a = k
    · simp [put, h]
    · simp only [put, h, if_false, List.map_cons, List.mem_cons, ih]
      grind

theorem nodup_put {k : κ} {v : α} {l : List (κ × α)} (h : (l.map Prod.fst).Nodup) :
    ((put k v l).map Prod.fst).Nodup := by
  induction l with
  | nil => simp [put]
  | cons e l ih =>
    obtain ⟨a, w⟩ := e
    simp only [List.map_cons, List.nodup_cons] at h
    by_cases hk : a = k
    · subst hk
      simpa [put] using h
    · rw [put, if_neg hk, List.map_cons, List.nodup_cons, mem_keys_put]
      exact ⟨fun hm => hm.elim hk h.1, ih h.2⟩

/-- The value of a key. -/
def get? (t : Table κ α) (k : κ) : Option α := find k t.entries

/-- Has an entry for the key. -/
def contains (t : Table κ α) (k : κ) : Bool := (t.get? k).isSome

/-- Gives a key its value. -/
def insert (t : Table κ α) (k : κ) (v : α) : Table κ α := ⟨put k v t.entries, nodup_put t.nodup⟩

/-- Keeps the entries that satisfy `p`. -/
def filter (t : Table κ α) (p : κ → α → Bool) : Table κ α :=
  ⟨t.entries.filter fun e => p e.1 e.2,
    List.Nodup.sublist (List.Sublist.map _ List.filter_sublist) t.nodup⟩

/-- Takes a key's entry away. -/
def erase (t : Table κ α) (k : κ) : Table κ α := t.filter fun k' _ => k' != k

/-- Changes the value of a key that has one. -/
def modify (t : Table κ α) (k : κ) (f : α → α) : Table κ α :=
  t.map fun k' v => if k' = k then f v else v

/-! ## What is found -/

theorem find_put_self (k : κ) (v : α) (l : List (κ × α)) : find k (put k v l) = some v := by
  induction l with
  | nil => simp [put, find]
  | cons e l ih =>
    obtain ⟨a, w⟩ := e
    by_cases h : a = k
    · simp [put, find, h]
    · simp [put, find, h, ih]

theorem find_put_other {k k' : κ} (hk : k' ≠ k) (v : α) (l : List (κ × α)) :
    find k' (put k v l) = find k' l := by
  induction l with
  | nil => simp [put, find, Ne.symm hk]
  | cons e l ih =>
    obtain ⟨a, w⟩ := e
    by_cases h : a = k
    · subst h
      simp [put, find, Ne.symm hk]
    · by_cases h' : a = k'
      · rw [put, if_neg h, find, find, if_pos h', if_pos h']
      · simp [put, find, h, h', ih]

theorem find_eq_none_iff {k : κ} {l : List (κ × α)} :
    find k l = none ↔ k ∉ l.map Prod.fst := by
  induction l with
  | nil => simp [find]
  | cons e l ih =>
    obtain ⟨a, w⟩ := e
    by_cases h : a = k
    · simp [find, h]
    · simp [find, h, ih, Ne.symm h]

theorem mem_of_find {k : κ} {v : α} {l : List (κ × α)} (h : find k l = some v) : (k, v) ∈ l := by
  induction l with
  | nil => simp [find] at h
  | cons e l ih =>
    obtain ⟨a, w⟩ := e
    by_cases ha : a = k
    · simp only [find, ha, if_true, Option.some.injEq] at h
      simp [ha, h]
    · simp only [find, ha, if_false] at h
      exact List.mem_cons_of_mem _ (ih h)

theorem find_of_mem {k : κ} {v : α} {l : List (κ × α)} (hl : (l.map Prod.fst).Nodup)
    (h : (k, v) ∈ l) : find k l = some v := by
  induction l with
  | nil => simp at h
  | cons e l ih =>
    obtain ⟨a, w⟩ := e
    simp only [List.map_cons, List.nodup_cons] at hl
    rcases List.mem_cons.1 h with he | hm
    · cases he
      simp [find]
    · have : a ≠ k := fun e => hl.1 (e ▸ List.mem_map_of_mem hm)
      simp [find, this, ih hl.2 hm]

@[simp] theorem get?_empty (k : κ) : (empty : Table κ α).get? k = none := rfl

theorem get?_insert (t : Table κ α) (k k' : κ) (v : α) :
    (t.insert k v).get? k' = if k' = k then some v else t.get? k' := by
  unfold get? insert
  split
  · rename_i h
    rw [h]
    exact find_put_self k v _
  · rename_i h
    exact find_put_other h v _

theorem put_of_find {k : κ} {v : α} {l : List (κ × α)} (h : find k l = some v) :
    put k v l = l := by
  induction l with
  | nil => cases h
  | cons e l ih =>
    obtain ⟨a, w⟩ := e
    by_cases ha : a = k
    · rw [find, if_pos ha, Option.some.injEq] at h
      rw [put, if_pos ha, ha, h]
    · rw [find, if_neg ha] at h
      rw [put, if_neg ha, ih h]

/-- A key that has its value already is given nothing new. -/
theorem insert_of_get? {t : Table κ α} {k : κ} {v : α} (h : t.get? k = some v) :
    t.insert k v = t := by
  unfold insert
  congr 1
  exact put_of_find h

theorem get?_eq_some_iff {t : Table κ α} {k : κ} {v : α} :
    t.get? k = some v ↔ (k, v) ∈ t.entries :=
  ⟨mem_of_find, find_of_mem t.nodup⟩

theorem get?_eq_none_iff {t : Table κ α} {k : κ} : t.get? k = none ↔ k ∉ t.keys :=
  find_eq_none_iff

theorem find_filter {l : List (κ × α)} (hl : (l.map Prod.fst).Nodup) (p : κ → α → Bool) (k : κ) :
    find k (l.filter fun e => p e.1 e.2) = (find k l).filter (p k) := by
  induction l with
  | nil => rfl
  | cons e l ih =>
    obtain ⟨a, w⟩ := e
    simp only [List.map_cons, List.nodup_cons] at hl
    by_cases ha : a = k
    · subst ha
      by_cases hp : p a w
      · simp [find, hp, Option.filter]
      · have hn : find a l = none := find_eq_none_iff.2 hl.1
        simp [find, hp, ih hl.2, hn, Option.filter]
    · by_cases hp : p a w
      · simp [find, hp, ha, ih hl.2]
      · simp [find, hp, ha, ih hl.2]

theorem get?_filter (t : Table κ α) (p : κ → α → Bool) (k : κ) :
    (t.filter p).get? k = (t.get? k).filter (p k) :=
  find_filter t.nodup p k

theorem get?_erase (t : Table κ α) (k k' : κ) :
    (t.erase k).get? k' = if k' = k then none else t.get? k' := by
  unfold erase
  rw [get?_filter]
  cases t.get? k' with
  | none => simp
  | some v => by_cases h : k' = k <;> simp [h]

theorem filter_eq_self {t : Table κ α} {p : κ → α → Bool}
    (h : ∀ k v, t.get? k = some v → p k v = true) : t.filter p = t :=
  ext_entries (List.filter_eq_self.2 fun e he => h e.1 e.2 (get?_eq_some_iff.2 he))

theorem erase_of_get?_eq_none {t : Table κ α} {k : κ} (h : t.get? k = none) : t.erase k = t := by
  refine filter_eq_self fun k' v hv => bne_iff_ne.2 ?_
  rintro rfl
  exact nomatch h.symm.trans hv

theorem find_map (l : List (κ × α)) (f : κ → α → β) (k : κ) :
    find k (l.map fun e => (e.1, f e.1 e.2)) = (find k l).map (f k) := by
  induction l with
  | nil => rfl
  | cons e l ih =>
    obtain ⟨a, w⟩ := e
    by_cases h : a = k
    · simp [find, h]
    · simp [find, h, ih]

theorem get?_map (t : Table κ α) (f : κ → α → β) (k : κ) :
    (t.map f).get? k = (t.get? k).map (f k) :=
  find_map t.entries f k

theorem get?_modify (t : Table κ α) (k k' : κ) (f : α → α) :
    (t.modify k f).get? k' = if k' = k then (t.get? k').map f else t.get? k' := by
  unfold modify
  rw [get?_map]
  by_cases h : k' = k
  · subst h
    simp
  · cases t.get? k' <;> simp [h]

theorem contains_iff {t : Table κ α} {k : κ} : t.contains k = true ↔ k ∈ t.keys := by
  unfold contains
  rw [Option.isSome_iff_ne_none, ne_eq, get?_eq_none_iff, Classical.not_not]

theorem mem_keys_iff {t : Table κ α} {k : κ} : k ∈ t.keys ↔ ∃ v, t.get? k = some v := by
  rw [← Option.isSome_iff_exists, ← Option.ne_none_iff_isSome, ne_eq, get?_eq_none_iff,
    Classical.not_not]

theorem mem_values_iff {t : Table κ α} {v : α} : v ∈ t.values ↔ ∃ k, t.get? k = some v := by
  unfold values
  rw [List.mem_map]
  constructor
  · rintro ⟨⟨k, _⟩, he, rfl⟩
    exact ⟨k, get?_eq_some_iff.2 he⟩
  · rintro ⟨k, hk⟩
    exact ⟨(k, v), get?_eq_some_iff.1 hk, rfl⟩

theorem isEmpty_iff {t : Table κ α} : t.isEmpty = true ↔ ∀ k, t.get? k = none := by
  unfold isEmpty
  rw [List.isEmpty_iff]
  constructor
  · intro h k
    rw [get?_eq_none_iff, keys, h]
    exact List.not_mem_nil
  · intro h
    refine List.eq_nil_iff_forall_not_mem.2 fun e he => ?_
    have := get?_eq_some_iff.2 (show (e.1, e.2) ∈ t.entries from he)
    rw [h] at this
    exact nomatch this

@[simp] theorem keys_modify (t : Table κ α) (k : κ) (f : α → α) : (t.modify k f).keys = t.keys := by
  simp [keys, modify, map, List.map_map, Function.comp_def]

end Keyed

@[simp] theorem keys_map (t : Table κ α) (f : κ → α → β) : (t.map f).keys = t.keys := by
  simp [keys, map, List.map_map, Function.comp_def]

theorem map_eq_self {t : Table κ α} {f : κ → α → α} (h : ∀ k v, f k v = v) : t.map f = t := by
  refine ext_entries ?_
  simp [map, h]

end Table

end SwapFloor
