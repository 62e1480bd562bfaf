import SwapFloor.Json.Decode

/-!
# Reading records member by member

A record is read from the members of an object in whatever order they come. As long as no key
comes twice, what is read depends only on the members that the fields name: the check of the
members passes whenever the fields can be read from their values. Both are facts about how fields
are put together, so they hold of every record that is built with `required`, `optional` and
`defaulted` (`Fields.Lawful`).

Main statement: a record is read from an object just as from the values of its members
(`Fields.ofMembers_eq`).
-/

namespace SwapFloor.Json

variable {α β : Type} {get get' : String → Option Json} {members : List (String × Json)}

/-! ## Fields -/

/-- Fields of one name each, that are read from their own values and only from those that pass
their checks. -/
class Fields.Lawful (x : Fields α) : Prop where
  single : ∀ f ∈ x.list, f.otherName = none
  reads : ∀ get get', (∀ f ∈ x.list, get f.name = get' f.name) → x.read get = x.read get'
  checks : ∀ get a, x.read get = .ok a →
    ∀ f ∈ x.list, ∀ j, get f.name = some j → f.check j = .ok ()

theorem map_unit_of_ok {d : Decoder α} {j : Json} {a : α} (h : d j = .ok a) :
    ((d j).map fun _ => ()) = .ok () := by
  rw [h]
  rfl

/-- A field that is read from its value alone, with some outcome in its absence. -/
theorem lawful_of_value {f : Field} {d : Decoder α} {absent : Except Misfit α}
    (hsingle : f.otherName = none) (hcheck : ∀ j a, d j = .ok a → f.check j = .ok ()) :
    Fields.Lawful ⟨[f], fun get => match get f.name with
      | none => absent
      | some j => d j⟩ where
  single g hg := by
    obtain rfl := List.mem_singleton.1 hg
    exact hsingle
  reads get get' h := by
    simp only [h f (List.mem_singleton.2 rfl)]
  checks get a h g hg j hj := by
    obtain rfl := List.mem_singleton.1 hg
    simp only [hj] at h
    exact hcheck j a h

instance lawful_required (name : String) (d : Decoder α) : (required name d).Lawful :=
  lawful_of_value rfl fun _ _ => map_unit_of_ok

instance lawful_optional (name : String) (d : Decoder α) : (optional name d).Lawful :=
  lawful_of_value rfl fun _ _ => map_unit_of_ok

instance lawful_defaulted (name : String) (d : Decoder α) (fallback : α) :
    (defaulted name d fallback).Lawful :=
  lawful_of_value rfl fun _ _ => map_unit_of_ok

/-- Fields of a record are read as its parts are. -/
theorem read_map (f : α → β) (x : Fields α) (get : String → Option Json) :
    (f <$> x).read get = (x.read get).map f := by
  change (x.map f).read get = _
  unfold Fields.map
  dsimp only
  cases x.read get <;> rfl

theorem read_seq (f : Fields (α → β)) (x : Fields α) (get : String → Option Json) :
    (f <*> x).read get = (f.read get).bind fun g => (x.read get).map g := by
  change (f.seq x).read get = _
  unfold Fields.seq
  dsimp only
  cases f.read get with
  | error e => rfl
  | ok g => cases x.read get <;> rfl

instance lawful_map (f : α → β) (x : Fields α) [hx : x.Lawful] : (f <$> x).Lawful where
  single := hx.single
  reads get get' h := by
    simp only [read_map]
    rw [hx.reads get get' h]
  checks get b h := by
    rw [read_map] at h
    cases ha : x.read get with
    | error e => rw [ha] at h; exact nomatch h
    | ok a => exact hx.checks get a ha

instance lawful_seq (f : Fields (α → β)) (x : Fields α) [hf : f.Lawful] [hx : x.Lawful] :
    (f <*> x).Lawful where
  single g hg := (List.mem_append.1 hg).elim (hf.single g) (hx.single g)
  reads get get' h := by
    simp only [read_seq]
    rw [hf.reads get get' fun g hg => h g (List.mem_append.2 (.inl hg)),
      hx.reads get get' fun g hg => h g (List.mem_append.2 (.inr hg))]
  checks get b h g hg := by
    rw [read_seq] at h
    cases hg' : f.read get with
    | error e => rw [hg'] at h; exact nomatch h
    | ok k =>
      cases ha : x.read get with
      | error e => rw [hg', ha] at h; exact nomatch h
      | ok a => exact (List.mem_append.1 hg).elim (hf.checks get k hg' g) (hx.checks get a ha g)

/-- The fields are read as `a` from their values. -/
def Fields.Reads (x : Fields α) (get : String → Option Json) (a : α) : Prop :=
  x.read get = .ok a

namespace Fields.Reads

variable {name : String} {d : Decoder α} {j : Json} {a : α}

theorem required (hget : get name = some j) (h : d j = .ok a) :
    (required name d).Reads get a := by
  unfold Fields.Reads Json.required
  simp only [hget, h]

theorem optional {o : Option α} (hget : get name = some j) (h : option d j = .ok o) :
    (Json.optional name d).Reads get o := by
  unfold Fields.Reads Json.optional
  simp only [hget, h]

theorem defaulted (hget : get name = some j) (h : d j = .ok a) (fallback : α) :
    (defaulted name d fallback).Reads get a := by
  unfold Fields.Reads Json.defaulted
  simp only [hget, h]

theorem absent (hget : get name = none) (fallback : α) :
    (Json.defaulted name d fallback).Reads get fallback := by
  unfold Fields.Reads Json.defaulted
  simp only [hget]

theorem map {x : Fields α} (f : α → β) (h : x.Reads get a) : (f <$> x).Reads get (f a) := by
  unfold Fields.Reads at h ⊢
  rw [read_map, h]
  rfl

theorem seq {f : Fields (α → β)} {x : Fields α} {g : α → β} (hf : f.Reads get g)
    (hx : x.Reads get a) : (f <*> x).Reads get (g a) := by
  unfold Fields.Reads at hf hx ⊢
  rw [read_seq, hf, hx]
  rfl

end Fields.Reads

/-! ## Members -/

theorem knownMembers_cons {fields : List Field} (hsingle : ∀ f ∈ fields, f.otherName = none)
    (m : String × Json) (members : List (String × Json)) :
    knownMembers fields (m :: members) =
      if ∃ f ∈ fields, f.name = m.1 then m :: knownMembers fields members
      else knownMembers fields members := by
  have hnamed : ∀ f ∈ fields, (f.isNamed m.1 = true ↔ f.name = m.1) := by
    intro f hf
    simp [Field.isNamed, hsingle f hf]
  unfold knownMembers
  rw [List.filterMap_cons]
  split
  · rename_i hnone
    rw [if_neg]
    rintro ⟨f, hf, hname⟩
    have hfind : fields.find? (·.isNamed m.1) = none := by simpa using hnone
    exact (List.find?_eq_none.1 hfind f hf) ((hnamed f hf).2 hname)
  · rename_i known hsome
    obtain ⟨f, hfind, rfl⟩ := Option.map_eq_some_iff.1 hsome
    have hf := List.mem_of_find?_eq_some hfind
    have hnames : f.isNamed m.1 = true := by simpa using List.find?_some hfind
    have hname := (hnamed f hf).1 hnames
    rw [if_pos ⟨f, hf, hname⟩, hname]

/-- The members with the name of a field are found under it. -/
theorem lookup_knownMembers {fields : List Field} (hsingle : ∀ f ∈ fields, f.otherName = none)
    {f : Field} (hf : f ∈ fields) (members : List (String × Json)) :
    (knownMembers fields members).lookup f.name = members.lookup f.name := by
  induction members with
  | nil => rfl
  | cons m members ih =>
    rw [knownMembers_cons hsingle, List.lookup_cons]
    split
    · rw [List.lookup_cons, ih]
    · rename_i hnone
      have hother : (f.name == m.1) = false := by
        simpa using fun hname => hnone ⟨f, hf, hname⟩
      rw [ih, hother]

theorem sublist_knownMembers {fields : List Field} (hsingle : ∀ f ∈ fields, f.otherName = none)
    (members : List (String × Json)) : (knownMembers fields members).Sublist members := by
  induction members with
  | nil => exact .slnil
  | cons m members ih =>
    rw [knownMembers_cons hsingle]
    split
    · exact ih.cons_cons m
    · exact ih.cons m

/-- Members of distinct keys pass, if each field passes the value under its name. -/
theorem checkMembers_eq_ok {fields : List Field} {seen : List String}
    (hkeys : (members.map Prod.fst).Nodup) (hseen : ∀ k ∈ seen, k ∉ members.map Prod.fst)
    (h : ∀ f ∈ fields, ∀ j, (f.name, j) ∈ members → f.check j = .ok ()) :
    checkMembers fields seen members = .ok () := by
  induction members generalizing seen with
  | nil => rfl
  | cons m members ih =>
    obtain ⟨k, j⟩ := m
    rw [List.map_cons, List.nodup_cons] at hkeys
    have hrest : ∀ f ∈ fields, ∀ j, (f.name, j) ∈ members → f.check j = .ok () :=
      fun f hf j hj => h f hf j (List.mem_cons_of_mem _ hj)
    have hlater : ∀ k' ∈ seen, k' ∉ members.map Prod.fst :=
      fun k' hk' hin => hseen k' hk' (List.mem_cons_of_mem _ hin)
    have hnew : seen.contains k = false := by
      simpa using fun hin => hseen k hin List.mem_cons_self
    rw [checkMembers, hnew, if_neg (by decide)]
    split
    · exact ih hkeys.2 hlater hrest
    · rename_i f hfind
      have hf := List.mem_of_find?_eq_some hfind
      have hname : f.name = k := by simpa using List.find?_some hfind
      rw [h f hf j (hname ▸ List.mem_cons_self)]
      refine ih hkeys.2 (fun k' hk' => ?_) hrest
      rcases List.mem_cons.1 hk' with rfl | hk'
      · exact hkeys.1
      · exact hlater k' hk'

theorem lookup_of_mem {k : String} {j : Json} (hkeys : (members.map Prod.fst).Nodup)
    (h : (k, j) ∈ members) : members.lookup k = some j := by
  induction members with
  | nil => cases h
  | cons m members ih =>
    rw [List.map_cons, List.nodup_cons] at hkeys
    rw [List.lookup_cons]
    rcases List.mem_cons.1 h with rfl | h
    · rw [beq_self_eq_true]
    · have hother : (k == m.1) = false := by
        simpa using fun hk : k = m.1 => hkeys.1 (hk ▸ List.mem_map_of_mem h)
      rw [hother]
      exact ih hkeys.2 h

/-- A record is read from members of distinct keys as its fields are from their values. -/
theorem Fields.ofMembers_eq (x : Fields α) [hx : x.Lawful] {a : α}
    (hkeys : (members.map Prod.fst).Nodup) (h : x.Reads (fun k => members.lookup k) a) :
    x.ofMembers members = .ok a := by
  have hknown := sublist_knownMembers hx.single members
  have hchecks : checkMembers x.list [] (knownMembers x.list members) = .ok () :=
    checkMembers_eq_ok (hkeys.sublist (hknown.map _)) (fun _ hk => nomatch hk) fun f hf j hj =>
      hx.checks _ a h f hf j (lookup_of_mem hkeys (hknown.subset hj))
  unfold Fields.ofMembers
  dsimp only
  rw [hchecks, ← show _ = _ from h]
  exact hx.reads _ _ fun f hf => lookup_knownMembers hx.single hf members

theorem record_eq {x : Fields α} [x.Lawful] {a : α} (name : String)
    (hkeys : (members.map Prod.fst).Nodup) (h : x.Reads (fun k => members.lookup k) a) :
    record name x (.obj members) = .ok a := x.ofMembers_eq hkeys h

end SwapFloor.Json
