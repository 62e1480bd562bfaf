import Mathlib.Data.List.Induction
import SwapFloor.Proofs.Fanout.Coherent

/-!
# From one hub to a later one

No operation but a registration adds a connection (`Thinned`), and none but those of the reader
takes anything out of an outbox: what is put there is put at the end (`Appends p`, if every frame
among it satisfies `p`). `Onward p` says both. It holds step by step (`Onward.refl`,
`Onward.trans`), so that an operation on many connections needs only what it does to one of them.

Main statements: `Onward` of every operation, and which connections are gone after those that end
some.
-/

namespace SwapFloor.Hub

/-- What waits for a connection, nothing if it never was one. -/
def waiting (h : Hub) (id : ConnectionId) : List Outgoing := ((h.outbox? id).map (·.waiting)).getD []

/-- From `h` to `h'` no connection was added. -/
structure Thinned (h h' : Hub) : Prop where
  coherent : h.Coherent → h'.Coherent
  /-- Who is live was live before, in the same place. -/
  live : ∀ id c', h.Coherent → h'.get? id = some c' →
    ∃ c, h.get? id = some c ∧ c.room = c'.room ∧ c.wallet = c'.wallet

/-- From `h` to `h'` outboxes grew at their ends, and every frame put there satisfies `p`. -/
def Appends (p : Frame → Prop) (h h' : Hub) : Prop :=
  ∀ id, ∃ new, h'.waiting id = h.waiting id ++ new ∧ ∀ f, Outgoing.frame f ∈ new → p f

/-- From `h` to `h'` no connection was added, and every frame put into an outbox satisfies `p`. -/
structure Onward (p : Frame → Prop) (h h' : Hub) : Prop extends Thinned h h' where
  waiting : Appends p h h'

theorem Thinned.refl (h : Hub) : Thinned h h where
  coherent hc := hc
  live _ c' _ hg := ⟨c', hg, rfl, rfl⟩

theorem Thinned.trans {h h' h'' : Hub} (h₁ : Thinned h h') (h₂ : Thinned h' h'') :
    Thinned h h'' where
  coherent hc := h₂.coherent (h₁.coherent hc)
  live id c'' hc hg := by
    obtain ⟨c', hg', hr', hw'⟩ := h₂.live id c'' (h₁.coherent hc) hg
    obtain ⟨c, hg'', hr, hw⟩ := h₁.live id c' hc hg'
    exact ⟨c, hg'', hr.trans hr', hw.trans hw'⟩

theorem Appends.refl (p : Frame → Prop) (h : Hub) : Appends p h h :=
  fun _ => ⟨[], (List.append_nil _).symm, fun _ hf => nomatch hf⟩

theorem Appends.trans {p : Frame → Prop} {h h' h'' : Hub} (h₁ : Appends p h h')
    (h₂ : Appends p h' h'') : Appends p h h'' := by
  intro id
  obtain ⟨new₁, h1, hp1⟩ := h₁ id
  obtain ⟨new₂, h2, hp2⟩ := h₂ id
  refine ⟨new₁ ++ new₂, by rw [h2, h1, List.append_assoc], fun f hf => ?_⟩
  exact (List.mem_append.1 hf).elim (hp1 f) (hp2 f)

namespace Onward

variable {p : Frame → Prop} {h h' h'' : Hub}

theorem refl (p : Frame → Prop) (h : Hub) : Onward p h h := ⟨.refl h, .refl p h⟩

theorem trans (h₁ : Onward p h h') (h₂ : Onward p h' h'') : Onward p h h'' :=
  ⟨h₁.toThinned.trans h₂.toThinned, h₁.waiting.trans h₂.waiting⟩

/-- A run over a list is onward if each of its steps is. -/
theorem foldl {α β : Type} {step : Hub × β → α → Hub × β}
    (hstep : ∀ s a, Onward p s.1 (step s a).1) (as : List α) (s : Hub × β) :
    Onward p s.1 (as.foldl step s).1 := by
  induction as generalizing s with
  | nil => exact refl p s.1
  | cons a as ih => exact (hstep s a).trans (ih (step s a))

end Onward

/-! ## Single connections -/

variable {p : Frame → Prop}

theorem onward_detach (p : Frame → Prop) (h : Hub) (id : ConnectionId) :
    Onward p h (h.detach id).1 where
  coherent hc := hc.detach id
  live id' c' _ hg := by
    rw [get?_detach] at hg
    split at hg
    · exact nomatch hg
    · exact ⟨c', hg, rfl, rfl⟩
  waiting id' := ⟨[], by simp [waiting], fun _ hf => nomatch hf⟩

theorem thinned_onOutbox (h : Hub) (id : ConnectionId) (f : Outbox → Outbox) :
    Thinned h (h.onOutbox id f) where
  coherent hc := hc.onOutbox id f
  live _ c' _ hg := ⟨c', hg, rfl, rfl⟩

/-- An outbox may change in any way in which it only grows at its end. -/
theorem onward_onOutbox (h : Hub) (id : ConnectionId) {f : Outbox → Outbox}
    (hf : ∀ o, ∃ new, (f o).waiting = o.waiting ++ new ∧ ∀ g, Outgoing.frame g ∈ new → p g) :
    Onward p h (h.onOutbox id f) where
  toThinned := thinned_onOutbox h id f
  waiting id' := by
    unfold waiting
    rw [outbox?_onOutbox]
    split
    · cases h.outbox? id' with
      | none => exact ⟨[], rfl, fun _ hm => nomatch hm⟩
      | some o => exact hf o
    · exact ⟨[], (List.append_nil _).symm, fun _ hm => nomatch hm⟩

theorem onward_cancel (p : Frame → Prop) (h : Hub) (id : ConnectionId) :
    Onward p h (h.onOutbox id .cancel) :=
  onward_onOutbox h id fun _ => ⟨[], (List.append_nil _).symm, fun _ hm => nomatch hm⟩

theorem close_waiting (p : Frame → Prop) (o : Outbox) :
    ∃ new, o.close.waiting = o.waiting ++ new ∧ ∀ f, Outgoing.frame f ∈ new → p f := by
  unfold Outbox.close
  split
  · refine ⟨[.close], rfl, fun f hf => ?_⟩
    exact nomatch List.mem_singleton.1 hf
  · exact ⟨[], (List.append_nil _).symm, fun _ hm => nomatch hm⟩

theorem onward_unregister (p : Frame → Prop) (h : Hub) (id : ConnectionId) :
    Onward p h (h.unregister id).1 := by
  have hd := onward_detach p h id
  unfold unregister
  split
  · rename_i he
    rw [he] at hd
    exact hd.trans (onward_cancel p _ id)
  · rename_i he
    rw [he] at hd
    exact hd

theorem onward_closeConnection (p : Frame → Prop) (h : Hub) (id : ConnectionId) :
    Onward p h (h.closeConnection id).1 := by
  have hd := onward_detach p h id
  unfold closeConnection
  split
  · rename_i he
    rw [he] at hd
    exact hd.trans (onward_onOutbox _ id (close_waiting p))
  · rename_i he
    rw [he] at hd
    exact hd

theorem onward_touch (p : Frame → Prop) (h : Hub) (id : ConnectionId) (now : Instant) :
    Onward p h (h.touch id now) where
  coherent hc := hc.touch id now
  live id' c' hc hg := by
    rw [get?_touch hc, Option.map_eq_some_iff] at hg
    obtain ⟨c, hg, rfl⟩ := hg
    exact ⟨c, hg, by split <;> rfl, by split <;> rfl⟩
  waiting id' := ⟨[], by simp [waiting], fun _ hm => nomatch hm⟩

theorem onward_deliver (h : Hub) (id : ConnectionId) {f : Frame} (hf : p f) :
    Onward p h (h.deliver id f).1 := by
  unfold deliver
  split
  · have hpush : ∀ o : Outbox, ∃ new, (o.push (.frame f)).waiting = o.waiting ++ new ∧
        ∀ g, Outgoing.frame g ∈ new → p g := by
      refine fun o => ⟨[.frame f], rfl, fun g hg => ?_⟩
      cases List.mem_singleton.1 hg
      exact hf
    exact onward_onOutbox h id hpush
  · exact (show Onward p h { h with failures := h.failures + 1 } from
      { coherent := fun hc => hc.of_outboxes rfl rfl rfl fun _ => rfl
        live := (Onward.refl p h).live
        waiting := (Onward.refl p h).waiting }).trans (onward_unregister p _ id)

theorem onward_send (h : Hub) (id : ConnectionId) {f : Frame} (hf : p f) :
    Onward p h (h.send id f).1 := by
  unfold send
  split
  · exact Onward.refl p h
  · exact onward_deliver h _ hf

/-! ## Many connections -/

theorem onward_fanOut (h : Hub) (ids : List ConnectionId) {f : Frame} (hf : p f) :
    Onward p h (h.fanOut ids f).1 := by
  refine Onward.foldl (fun s id => ?_) ids (h, Report.mk 0 0)
  obtain ⟨h, r⟩ := s
  have hd := onward_deliver h id hf
  dsimp only
  split <;> rename_i he <;> rw [he] at hd <;> exact hd

theorem onward_closeRoom (p : Frame → Prop) (h : Hub) (room : String) :
    Onward p h (h.closeRoom room).1 where
  coherent hc := hc.closeRoom room
  live _ c' hc hg := ⟨c', ((get?_closeRoom hc).1 hg).1, rfl, rfl⟩
  waiting id := by
    unfold waiting
    rw [outbox?_closeRoom]
    cases h.outbox? id with
    | none => exact ⟨[], rfl, fun _ hm => nomatch hm⟩
    | some o =>
      rw [Option.map_some, Option.map_some, Option.map_some, Option.getD_some, Option.getD_some]
      split
      · exact close_waiting p o
      · exact ⟨[], (List.append_nil _).symm, fun _ hm => nomatch hm⟩

theorem onward_closeRoomWith (h : Hub) (room : String) {f : Frame} (hf : p f) :
    Onward p h (h.closeRoomWith room f).1 :=
  (onward_fanOut h _ hf).trans (onward_closeRoom p _ room)

theorem onward_closeWallet (p : Frame → Prop) (h : Hub) (room wallet : String) :
    Onward p h (h.closeWallet room wallet).1 := by
  refine Onward.foldl (fun s c => ?_) _ (h, 0)
  exact onward_closeConnection p s.1 c.id

theorem onward_prune (p : Frame → Prop) (h : Hub) (maxIdleMs : Nat) (now : Instant) :
    Onward p h (h.prune maxIdleMs now).1 := by
  refine Onward.foldl (fun s c => ?_) _ (h, [])
  obtain ⟨h, removed⟩ := s
  have hu := onward_unregister p h c.id
  dsimp only
  split <;> rename_i he <;> rw [he] at hu <;> exact hu

theorem onward_toRoom (lobby : Lobby) (h : Hub) (requireRecipients : Bool) (room : String)
    {f : Frame} (hf : p f) : Onward p h (Broadcast.toRoom lobby h requireRecipients room f).1 := by
  unfold Broadcast.toRoom
  split
  · exact Onward.refl p h
  · dsimp only
    split
    · exact Onward.refl p h
    · exact onward_fanOut h _ hf

/-! ## Who is gone -/

/-- Nobody is left in a room whose connections were ended. -/
theorem room_ne_of_closeRoomWith {h : Hub} (hc : h.Coherent) {room : String} {f : Frame}
    {id : ConnectionId} {c : Connection} (hg : (h.closeRoomWith room f).1.get? id = some c) :
    c.room ≠ room :=
  ((get?_closeRoom ((onward_fanOut (p := fun _ => True) h _ trivial).coherent hc)).1 hg).2

/-- No connection is left of a wallet whose connections in the room were ended. -/
theorem not_seated_of_closeWallet {h : Hub} (hc : h.Coherent) {room wallet : String}
    {id : ConnectionId} {c : Connection} (hg : (h.closeWallet room wallet).1.get? id = some c) :
    ¬ (c.room = room ∧ c.wallet = wallet) := by
  -- Ending connections one by one leaves none of those that the list names.
  have gone : ∀ (end_ : Hub × Nat → Connection → Hub × Nat),
      (∀ s d, (end_ s d).1 = (s.1.closeConnection d.id).1) →
      ∀ (cs : List Connection) (s : Hub × Nat), id ∈ cs.map (·.id) →
        (cs.foldl end_ s).1.get? id = none := by
    intro end_ hend cs
    induction cs using List.reverseRecOn with
    | nil =>
      intro s hm
      cases hm
    | append_singleton cs d ih =>
      intro s hm
      rw [List.foldl_append, List.foldl_cons, List.foldl_nil, hend, get?_closeConnection]
      split
      · rfl
      · rename_i hne
        rw [List.map_append, List.mem_append] at hm
        exact ih s (hm.resolve_right fun h1 => hne (List.mem_singleton.1 h1))
  rintro ⟨hroom, hwallet⟩
  obtain ⟨d, hd, hdr, hdw⟩ := (onward_closeWallet (fun _ => True) h room wallet).live id c hc hg
  have hmem : id ∈ ((h.bucket room).values.filter (·.wallet == wallet)).map (·.id) := by
    obtain ⟨_, rfl⟩ := hc.get?_rooms hd
    refine List.mem_map.2 ⟨d, List.mem_filter.2 ⟨?_, ?_⟩, rfl⟩
    · exact Table.mem_values_iff.2 ⟨d.id, hc.bucket_get?_iff.2 ⟨hd, hdr.trans hroom⟩⟩
    · rw [beq_iff_eq, hdw, hwallet]
  have hnone : (h.closeWallet room wallet).1.get? id = none := by
    refine gone _ ?_ _ (h, 0) hmem
    exact fun _ _ => rfl
  cases hg.symm.trans hnone

end SwapFloor.Hub
