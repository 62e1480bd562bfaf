import Mathlib.Data.List.DropRight
import SwapFloor.Proofs.Service.Picture
import SwapFloor.Proofs.Service.Routing
import SwapFloor.Proofs.Service.Sharing

/-!
# What was shared and who was told

What someone shares is added to what was shared in the room, and it is broadcast to the connections
of the room. Whoever cannot take the broadcast is no longer connected. No other operation adds to
what was shared or tells of a share (`Reserved`). So every operation adds to both what is shared in
it and nothing else (`Posts`), and along every run a connection that is still there has been told of
just what was shared in its room since it was registered.

Main statement: `told_of_annals`.
-/

namespace SwapFloor

/-- The share that a frame tells of. -/
def Frame.share? : Frame → Option Share
  | .shared x => some x
  | _ => none

/-- What was shared in one room. -/
def Share.among (xs : List Share) (room : String) : List Share := xs.filter (·.room = room)

namespace Share

variable {xs : List Share} {room : String}

theorem among_nil (room : String) : among [] room = [] := rfl

theorem among_append (xs ys : List Share) (room : String) :
    among (xs ++ ys) room = among xs room ++ among ys room := List.filter_append ..

theorem among_singleton (x : Share) (room : String) :
    among [x] room = if x.room = room then [x] else [] := by
  unfold among
  rw [List.filter_singleton]
  by_cases h : x.room = room <;> simp [h]

end Share

namespace Hub

variable {h h' : Hub} {id : ConnectionId} {room : String} {x : Share}

/-- No share is heard of where no frame that is put into an outbox tells of one. -/
theorem filterMap_share?_heard (ha : h.Appends (fun f => f.share? = none) h') (id : ConnectionId) :
    (h.heard h' id).filterMap Frame.share? = [] := by
  obtain ⟨new, hw, hnew⟩ := ha id
  rw [heard_of_append hw, List.filterMap_eq_nil_iff]
  intro f hf
  obtain ⟨item, hitem, hframe⟩ := List.mem_filterMap.1 hf
  cases item with
  | close => exact nomatch hframe
  | frame g => exact hnew f (Option.some.inj hframe ▸ hitem)

theorem heard_of_untouched (hu : Untouched h h' id) : h.heard h' id = [] := by
  refine heard_of_length_le (Nat.le_of_eq ?_)
  unfold Hub.waiting
  rw [hu.2]

/-- Who is still there after a frame was offered has it. -/
theorem heard_of_offered {f : Frame} {c c' : Connection} (ho : Offered h h' f c)
    (hg' : h'.get? c.id = some c') : h.heard h' c.id = [f] := by
  obtain ⟨o, hbox, hbox', hget⟩ := ho
  rw [hg'] at hget
  have htakes : o.refusal? = none := by
    by_contra hr
    rw [if_neg hr] at hget
    exact nomatch hget
  have hw : h'.waiting c.id = h.waiting c.id ++ [.frame f] := by
    unfold Hub.waiting
    rw [hbox, hbox']
    unfold Outbox.offer
    rw [htakes]
    rfl
  exact heard_of_append hw

/-- Just the connections of an open room hear of what is shared there. -/
theorem filterMap_share?_toRoom (hc : h.Coherent) {l : Lobby} {e : Lobby.Entry}
    (he : l.openEntry room = .ok e) (requireRecipients : Bool) (hroom : x.room = room)
    {c c' : Connection} (hg : h.get? id = some c)
    (hg' : (Broadcast.toRoom l h requireRecipients room (.shared x)).1.get? id = some c') :
    (h.heard (Broadcast.toRoom l h requireRecipients room (.shared x)).1 id).filterMap Frame.share?
      = Share.among [x] c.room := by
  obtain ⟨_, rfl⟩ := hc.get?_rooms hg
  rw [Share.among_singleton, hroom]
  by_cases hin : c.room = room
  · rw [if_pos hin.symm, heard_of_offered (offered_toRoom hc he requireRecipients _ hg hin) hg']
    rfl
  · have helse : Untouched h (Broadcast.toRoom l h requireRecipients room (.shared x)).1 c.id :=
      toRoom_elsewhere hc l _ _ fun d hd => Option.some.inj (hg.symm.trans hd) ▸ hin
    rw [if_neg (Ne.symm hin), heard_of_untouched helse]
    rfl

/-- What belongs to a connection after a step: what did before, if it was connected, and what the
step adds. -/
def since {α : Type} (h : Hub) (id : ConnectionId) (before added : List α) : List α :=
  if (h.get? id).isSome then before ++ added else added

theorem since_of_get? {α : Type} {c : Connection} (hg : h.get? id = some c)
    (before added : List α) : h.since id before added = before ++ added := by
  unfold since
  rw [hg]
  rfl

theorem since_of_get?_eq_none {α : Type} (hg : h.get? id = none) (before added : List α) :
    h.since id before added = added := by
  unfold since
  rw [hg]
  rfl

theorem since_suffix {α : Type} {before all : List α} (hs : before <:+ all) (h : Hub)
    (id : ConnectionId) (added : List α) : h.since id before added <:+ all ++ added := by
  cases hg : h.get? id with
  | none =>
    rw [since_of_get?_eq_none hg]
    exact List.suffix_append ..
  | some c =>
    rw [since_of_get? hg]
    obtain ⟨older, rfl⟩ := hs
    exact ⟨older, (List.append_assoc ..).symm⟩

end Hub

namespace Service

/-! ## Operations and runs -/

/-- What is shared by doing what a client asks for. -/
def sharedFor (s : Service) (k : Socket) : Request → List Share
  | .share url infoType metadata =>
    ((s.share k.room k.wallet ⟨url, infoType, metadata⟩).toOption.map Prod.snd).toList
  | _ => []

/-- What is shared by what comes in over a socket. -/
def sharedBy (s : Service) (id : ConnectionId) (m : Incoming) : List Share :=
  match s.sockets.get? id, m with
  | some k, .text t => (Request.ofText t).toOption.elim [] (s.sharedFor k)
  | _, _ => []

/-- An operation, completed without a breakdown, with what is shared in it. -/
inductive Posting (s : Service) : List Share → Service → Prop
  | share {room wallet q s' x} (h : s.share room wallet q = .ok (s', x)) : Posting s [x] s'
  | receive (id : ConnectionId) (m : Incoming) : Posting s (s.sharedBy id m) (s.receive id m)
  | create {q s' r} (h : s.createRoom q = .ok (s', r)) : Posting s [] s'
  | join {room wallet password s' j} (h : s.joinRoom room wallet password = .ok (s', j)) :
    Posting s [] s'
  | leave {room wallet s' left} (h : s.leaveRoom room wallet = .ok (s', left)) : Posting s [] s'
  | close {room requester s' r} (h : s.closeRoom room requester = .ok (s', r)) : Posting s [] s'
  | reap {at_ s' n} (h : s.reapRoomsAt at_ = (s', .ok n)) : Posting s [] s'
  | connect (room wallet : String) (password : Option String) :
    Posting s [] (s.openSocket room wallet password).1
  | flush (id : ConnectionId) : Posting s [] (s.flushSocket id).1
  | send (id : ConnectionId) (n : Nat) : Posting s [] { s with hub := s.hub.onOutbox id (·.take n) }
  | abandon (id : ConnectionId) : Posting s [] { s with hub := s.hub.onOutbox id .abandon }
  | disconnect (id : ConnectionId) : Posting s [] (s.endSocket id)
  | prune (maxIdleMs : Nat) (at_ : Instant) :
    Posting s [] { s with hub := (s.hub.prune maxIdleMs at_).1 }
  | publish {room t s'} (h : s.publishTrade room t = (s', none)) : Posting s [] s'
  | process {t s' o} (h : s.processTrade t = (s', .ok o)) : Posting s [] s'
  /-- Anything else: subscriptions, rankings, limits, timers, metrics and time, and what else is
  saved. -/
  | other {s'} (hub : s'.hub = s.hub) (shares : s'.archive.shares = s.archive.shares) :
    Posting s [] s'

/-- A run with all that was shared in it, in this order, and for each connection what was shared and
which frames were put into its outbox since it was registered. -/
inductive Annals (s₀ : Service) :
    List Share → (ConnectionId → List Share) → (ConnectionId → List Frame) → Service → Prop
  | start : Annals s₀ [] (fun _ => []) (fun _ => []) s₀
  | step {all later log s xs s'} (h : Annals s₀ all later log s) (hp : Posting s xs s') :
    Annals s₀ (all ++ xs) (fun id => s.hub.since id (later id) xs)
      (fun id => s.hub.since id (log id) (s.hub.heard s'.hub id)) s'

variable {s s' s'' : Service} {room wallet : String} {id : ConnectionId} {x : Share}
  {xs : List Share}

/-! ## Operations with which nothing is shared -/

/-- Nothing is added to what was shared, no connection is added, and no frame tells of a share. -/
structure Reserved (s s' : Service) : Prop where
  shares : SameShares s s'
  hub : s.hub.Onward (fun f => f.share? = none) s'.hub

namespace Reserved

theorem refl (s : Service) : Reserved s s := ⟨.refl s, .refl _ _⟩

theorem trans (h : Reserved s s') (h' : Reserved s' s'') : Reserved s s'' :=
  ⟨h.shares.trans h'.shares, h.hub.trans h'.hub⟩

theorem of_hub {hub : Hub} (h : s.hub.Onward (fun f => f.share? = none) hub) :
    Reserved s { s with hub := hub } :=
  ⟨.refl s, h⟩

theorem of_eq (hshares : SameShares s s') (hhub : s'.hub = s.hub) : Reserved s s' :=
  ⟨hshares, hhub ▸ .refl _ _⟩

end Reserved

theorem reserved_announce (s : Service) (room : String) {f : Frame} (hf : f.share? = none) :
    Reserved s (s.announce room f) :=
  .of_hub (Hub.onward_toRoom s.lobby s.hub _ room hf)

theorem reserved_announceUpdate (s : Service) (room : String) :
    Reserved s (s.announceUpdate room) := by
  unfold announceUpdate
  split
  · exact reserved_announce s room rfl
  · exact .refl s

theorem reserved_tell (s : Service) (id : ConnectionId) {f : Frame} (hf : f.share? = none) :
    Reserved s (s.tell id f) :=
  .of_hub (Hub.onward_send s.hub id hf)

theorem reserved_createRoom {q : RoomRequest} {r : Room} (h : s.createRoom q = .ok (s', r)) :
    Reserved s s' := by
  obtain ⟨_, _, hhub, _⟩ := create_of_createRoom h
  refine .of_eq (fun room => ?_) hhub
  rw [createRoom_archive h]
  rfl

theorem reserved_joinRoom {password : Option String} {j : Lobby.Joined}
    (h : s.joinRoom room wallet password = .ok (s', j)) : Reserved s s' := by
  refine ⟨fun r => by rw [joinRoom_archive h]; rfl, ?_⟩
  obtain ⟨l, s₁, _, hside, rfl⟩ := joinRoom_eq h
  have hhub : s₁.hub = s.hub := hside.hub
  rw [← hhub]
  split
  · exact ((reserved_announce s₁ room (f := .memberJoined (.of j.member)) rfl).trans
      (reserved_announceUpdate ..)).hub
  · exact (reserved_announceUpdate s₁ room).hub

theorem reserved_leaveRoom {left : Option Member} (h : s.leaveRoom room wallet = .ok (s', left)) :
    Reserved s s' := by
  obtain ⟨l, _, heq⟩ := leaveRoom_eq h
  cases left with
  | none =>
    dsimp only at heq
    rw [heq]
    exact .of_eq (.refl s) rfl
  | some m =>
    dsimp only at heq
    rw [heq]
    have hended : Reserved s { s.saveMember m with
        lobby := l, hub := (s.hub.closeWallet room wallet).1 } :=
      ⟨.refl s, Hub.onward_closeWallet _ s.hub room wallet⟩
    exact (hended.trans (reserved_announce _ room (f := .memberLeft (.of m)) rfl)).trans
      (reserved_announceUpdate ..)

theorem reserved_finishRoom (s : Service) (r : Room) : Reserved s (s.finishRoom r) := by
  refine ⟨fun room => by rw [finishRoom_archive]; rfl, ?_⟩
  obtain ⟨_, _, _, hr, _⟩ := finishRoom_eq s r
  rw [hr]
  exact Hub.onward_closeRoomWith s.hub r.id (f := .roomUpdate (.of r [])) rfl

theorem reserved_finishRooms (rooms : List Room) (s : Service) :
    Reserved s (rooms.foldl finishRoom s) := by
  induction rooms generalizing s with
  | nil => exact .refl s
  | cons r rooms ih => exact (reserved_finishRoom s r).trans (ih _)

theorem reserved_closeRoom {requester : String} {r : Room}
    (h : s.closeRoom room requester = .ok (s', r)) : Reserved s s' := by
  obtain ⟨l, _, rfl⟩ := closeRoom_eq h
  have hlobby : Reserved s { s with lobby := l } := .of_eq (.refl s) rfl
  exact hlobby.trans (reserved_finishRoom _ r)

theorem reserved_reapRoomsAt {at_ : Instant} {n : Nat} (h : s.reapRoomsAt at_ = (s', .ok n)) :
    Reserved s s' := by
  unfold reapRoomsAt at h
  split at h
  · cases h
  · rename_i l closed _
    cases h
    have hlobby : Reserved s { s with lobby := l } := .of_eq (.refl s) rfl
    exact (hlobby.trans (reserved_finishRooms closed _)).trans (.of_eq (.refl _) rfl)

theorem reserved_answerPing (s : Service) (id : ConnectionId) (k : Socket) :
    Reserved s (s.answerPing id k) := by
  have hping : Reserved s { s with hub := s.hub.touch id s.now } :=
    .of_hub (Hub.onward_touch _ s.hub id s.now)
  unfold answerPing
  dsimp only
  split
  · rename_i l _ _
    have htouch : Reserved s { s with hub := s.hub.touch id s.now, lobby := l } :=
      hping.trans (.of_eq (.refl _) rfl)
    exact htouch.trans (reserved_tell _ id rfl)
  · exact hping.trans (reserved_tell _ id rfl)

theorem reserved_endSocket (s : Service) (id : ConnectionId) : Reserved s (s.endSocket id) :=
  ⟨.refl s, Hub.onward_unregister _ s.hub id⟩

theorem reserved_publishTrade {t : Trade} {trouble : Option Breakdown}
    (h : s.publishTrade room t = (s', trouble)) : Reserved s s' := by
  unfold publishTrade at h
  split at h
  · cases h
    exact .refl s
  · cases h
    exact .of_eq (.refl s) rfl
  · rename_i l _
    cases h
    have hcount : Reserved s { s with lobby := l } := .of_eq (.refl s) rfl
    exact hcount.trans (reserved_announce _ room rfl)

theorem reserved_publishAll {t : Trade} {rooms : List String} {trouble : Option Breakdown}
    (h : s.publishAll t rooms = (s', trouble)) : Reserved s s' := by
  induction rooms generalizing s with
  | nil =>
    cases h
    exact .refl _
  | cons room rooms ih =>
    unfold publishAll at h
    split at h
    · rename_i hp
      exact (reserved_publishTrade hp).trans (ih h)
    · rename_i hp
      cases h
      exact reserved_publishTrade hp

theorem reserved_processTrade {t : Trade} {o : Outcome} (h : s.processTrade t = (s', .ok o)) :
    Reserved s s' := by
  cases hseen : s.seen.isSeen t.signature s.elapsedMs with
  | true =>
    rw [processTrade_seen hseen] at h
    cases h
    exact .of_eq (.refl s) rfl
  | false =>
    obtain ⟨_, s₁, hp, rfl⟩ := processTrade_unseen hseen h
    have hmarked : Reserved s { s with seen := (s.seen.mark t.signature s.elapsedMs).1 } :=
      .of_eq (.refl s) rfl
    exact (hmarked.trans (reserved_publishAll hp)).trans (.of_eq (.refl _) rfl)

/-! ## What an operation adds -/

/-- From `s` to `s'` this is added to what was shared, and those who are connected have heard of it
if it was shared in their room. A new connection comes when nothing is shared. -/
structure Posts (s s' : Service) (xs : List Share) : Prop where
  coherent : s'.hub.Coherent
  shares : ∀ room, s'.archive.sharesOf room = s.archive.sharesOf room ++ Share.among xs room
  live : ∀ id c', s'.hub.get? id = some c' →
    (∃ c, s.hub.get? id = some c ∧ c.room = c'.room) ∨ s.hub.get? id = none ∧ xs = []
  heard : ∀ id c', s'.hub.get? id = some c' →
    (s.hub.heard s'.hub id).filterMap Frame.share? = Share.among xs c'.room

theorem SameShares.append_nil (h : SameShares s s') (room : String) :
    s'.archive.sharesOf room = s.archive.sharesOf room ++ Share.among [] room := by
  rw [h room, Share.among_nil, List.append_nil]

theorem Reserved.posts (h : Reserved s s') (hc : s.hub.Coherent) : Posts s s' [] where
  coherent := h.hub.coherent hc
  shares := h.shares.append_nil
  live id c' hg' := by
    obtain ⟨c, hg, hr, _⟩ := h.hub.live id c' hc hg'
    exact Or.inl ⟨c, hg, hr⟩
  heard id _ _ := Hub.filterMap_share?_heard h.hub.waiting id

/-- Nothing is heard of while outboxes are read. -/
theorem posts_of_length_le (hshares : SameShares s s') (hc : s'.hub.Coherent)
    (hlive : ∀ id c', s'.hub.get? id = some c' → ∃ c, s.hub.get? id = some c ∧ c.room = c'.room)
    (hl : ∀ id, (s'.hub.waiting id).length ≤ (s.hub.waiting id).length) : Posts s s' [] where
  coherent := hc
  shares := hshares.append_nil
  live id c' hg' := Or.inl (hlive id c' hg')
  heard id _ _ := by
    rw [Hub.heard_of_length_le (hl id)]
    rfl

theorem posts_onOutbox (hc : s.hub.Coherent) (id : ConnectionId) {f : Outbox → Outbox}
    (hf : ∀ o, (f o).waiting.length ≤ o.waiting.length) :
    Posts s { s with hub := s.hub.onOutbox id f } [] :=
  posts_of_length_le (.refl s) (hc.onOutbox id f) (fun _ c' hg => ⟨c', hg, rfl⟩)
    (waiting_onOutbox_length_le s.hub id hf)

theorem flushSocket_archive (s : Service) (id : ConnectionId) :
    (s.flushSocket id).1.archive = s.archive := by
  unfold flushSocket
  split
  · rfl
  · dsimp only
    split <;> rfl

theorem posts_flushSocket (hc : s.hub.Coherent) (id : ConnectionId) :
    Posts s (s.flushSocket id).1 [] := by
  have hthin := (calm_flushSocket s id).hub
  refine posts_of_length_le (fun r => by rw [flushSocket_archive]) (hthin.coherent hc)
    (fun id' c' hg' => ?_) (waiting_flushSocket_length_le s id)
  obtain ⟨c, hg, hr, _⟩ := hthin.live id' c' hc hg'
  exact ⟨c, hg, hr⟩

/-- A connection that is registered has heard of nothing yet. -/
theorem posts_of_withConnection (hc : s.hub.Coherent)
    (h : Reserved (s.withConnection room wallet) s') : Posts s s' [] := by
  have hreg : (s.withConnection room wallet).hub.Coherent := hc.register ..
  refine ⟨h.hub.coherent hreg, h.shares.append_nil, fun id c' hg' => ?_, fun id c' _ => ?_⟩
  · obtain ⟨c, hg, hr, _⟩ := h.hub.live id c' hreg hg'
    obtain hold | ⟨rfl, _⟩ := get?_withConnection hg
    · exact Or.inl ⟨c, hold, hr⟩
    · refine Or.inr ⟨?_, rfl⟩
      cases hnew : s.hub.get? (s.hub.lastId + 1) with
      | none => rfl
      | some d =>
        obtain ⟨o, ho⟩ := hc.exists_outbox hnew
        exact nomatch hc.outbox?_next.symm.trans ho
  · rw [← heard_withConnection hc room wallet]
    exact Hub.filterMap_share?_heard h.hub.waiting id

theorem posts_openSocket (hc : s.hub.Coherent) (room wallet : String) (password : Option String) :
    Posts s (s.openSocket room wallet password).1 [] := by
  rcases openSocket_eq s room wallet password with ⟨j, hj⟩ | ⟨f, hf⟩
  · exact posts_of_withConnection hc (reserved_joinRoom hj)
  · rw [hf]
    have htold := reserved_tell (s.withConnection room wallet) (s.hub.lastId + 1)
      (f := .ofFailure f) rfl
    exact posts_of_withConnection hc
      (htold.trans (.of_hub (Hub.onward_closeConnection _ _ (s.hub.lastId + 1))))

theorem room_of_share {q : ShareRequest} (h : s.share room wallet q = .ok (s', x)) :
    x.room = room := by
  unfold share at h
  obtain ⟨y, hprepare, h⟩ := bind_eq_ok_iff.1 h
  obtain ⟨_, _, h⟩ := bind_eq_ok_iff.1 h
  obtain ⟨_, rfl⟩ := Prod.mk.inj (Except.ok.inj h)
  unfold prepareShare at hprepare
  obtain ⟨e, _, hnew⟩ := bind_eq_ok_iff.1 hprepare
  split at hnew
  · exact (share_new_eq hnew).1
  · exact nomatch hnew

/-- What is shared goes to the archive and to the room, which is open. -/
theorem posts_share (hc : s.hub.Coherent) {q : ShareRequest}
    (h : s.share room wallet q = .ok (s', x)) : Posts s s' [x] := by
  have hroom := room_of_share h
  have hthin := (calm_share h).hub
  obtain ⟨l, htouch, rfl⟩ := share_eq h
  obtain ⟨e, he, hl⟩ := Lobby.touch_eq htouch
  -- The room is as open as before once the activity was noted.
  obtain ⟨e', he'⟩ : ∃ e', l.openEntry room = .ok e' := by
    refine ⟨_, Lobby.openEntry_eq_ok_iff.2 ⟨by rw [hl, Lobby.get?_update, if_pos rfl], ?_⟩⟩
    rw [(Lobby.Entry.touch_room e wallet _).1]
    exact (Lobby.openEntry_eq_ok_iff.1 he).2
  refine ⟨hthin.coherent hc, fun r => ?_, fun id c' hg' => ?_, fun id c' hg' => ?_⟩
  · show (s.archive.addShare x).sharesOf r = _
    rw [Archive.sharesOf_addShare, Share.among_singleton]
    by_cases hr : r = x.room
    · rw [if_pos hr, if_pos hr.symm]
    · rw [if_neg hr, if_neg (Ne.symm hr), List.append_nil]
  · obtain ⟨c, hg, hr, _⟩ := hthin.live id c' hc hg'
    exact Or.inl ⟨c, hg, hr⟩
  · obtain ⟨c, hg, hr, _⟩ := hthin.live id c' hc hg'
    rw [← hr]
    exact Hub.filterMap_share?_toRoom hc he' _ hroom hg hg'

/-! ## What comes in over a socket -/

theorem posts_fulfil (hc : s.hub.Coherent) {k : Socket} {q : Request}
    (h : s.fulfil id k q = .ok s') : Posts s s' (s.sharedFor k q) := by
  cases q with
  | join password =>
    obtain ⟨j, hj⟩ := exists_of_map_fst h
    exact (reserved_joinRoom hj).posts hc
  | leave =>
    obtain ⟨left, hl⟩ := exists_of_map_fst h
    exact (reserved_leaveRoom hl).posts hc
  | share url infoType metadata =>
    obtain ⟨x, hx⟩ := exists_of_map_fst h
    rw [sharedFor, hx]
    exact posts_share hc hx
  | ping =>
    cases h
    exact (reserved_answerPing s id k).posts hc

/-- Nothing is shared by a request that fails. -/
theorem sharedFor_of_error {k : Socket} {q : Request} {f : Failure}
    (h : s.fulfil id k q = .error f) : s.sharedFor k q = [] := by
  cases q with
  | share url infoType metadata =>
    rw [fulfil] at h
    cases hx : s.share k.room k.wallet ⟨url, infoType, metadata⟩ with
    | error f =>
      rw [sharedFor, hx]
      rfl
    | ok p =>
      rw [hx] at h
      exact nomatch h
  | join | leave | ping => rfl

theorem posts_receiveText (hc : s.hub.Coherent) (id : ConnectionId) (k : Socket) (text : String) :
    Posts s (s.receiveText id k text)
      ((Request.ofText text).toOption.elim [] (s.sharedFor k)) := by
  unfold receiveText
  cases Request.ofText text with
  | error f => exact (reserved_tell s id (f := f.frame) rfl).posts hc
  | ok q =>
    show Posts s _ (s.sharedFor k q)
    dsimp only
    split
    · rename_i hf
      exact posts_fulfil hc hf
    · rename_i f hf
      rw [sharedFor_of_error hf]
      exact (reserved_tell s id (f := .ofFailure f) rfl).posts hc

theorem posts_receive (hc : s.hub.Coherent) (id : ConnectionId) (m : Incoming) :
    Posts s (s.receive id m) (s.sharedBy id m) := by
  unfold receive sharedBy
  cases s.sockets.get? id with
  | none => exact (Reserved.refl s).posts hc
  | some k =>
    cases m with
    | text t => exact posts_receiveText hc id k t
    | binary => exact (reserved_tell s id (f := Request.binaryFrame) rfl).posts hc
    | ping => exact (Reserved.of_hub (Hub.onward_touch _ s.hub id s.now)).posts hc
    | close => exact (Reserved.of_hub (Hub.onward_unregister _ s.hub id)).posts hc

/-! ## All operations -/

theorem posts_posting (hc : s.hub.Coherent) (h : Posting s xs s') : Posts s s' xs := by
  cases h with
  | share h => exact posts_share hc h
  | receive id m => exact posts_receive hc id m
  | create h => exact (reserved_createRoom h).posts hc
  | join h => exact (reserved_joinRoom h).posts hc
  | leave h => exact (reserved_leaveRoom h).posts hc
  | close h => exact (reserved_closeRoom h).posts hc
  | reap h => exact (reserved_reapRoomsAt h).posts hc
  | connect room wallet password => exact posts_openSocket hc room wallet password
  | flush id => exact posts_flushSocket hc id
  | send id n =>
    refine posts_onOutbox hc id fun o => ?_
    exact Nat.le_trans (Nat.le_of_eq List.length_drop) (Nat.sub_le _ _)
  | abandon id => exact posts_onOutbox hc id fun _ => Nat.zero_le _
  | disconnect id => exact (reserved_endSocket s id).posts hc
  | prune maxIdleMs at_ => exact (Reserved.of_hub (Hub.onward_prune _ s.hub maxIdleMs at_)).posts hc
  | publish h => exact (reserved_publishTrade h).posts hc
  | process h => exact (reserved_processTrade h).posts hc
  | other hub shares =>
    refine (Reserved.of_eq (fun r => ?_) hub).posts hc
    unfold Archive.sharesOf
    rw [shares]

/-- Every step is such an operation, if nothing else is saved among what was shared. -/
theorem exists_posting_of_step (h : Step s s')
    (haside : Aside s s' → s'.archive.shares = s.archive.shares) : ∃ xs, Posting s xs s' := by
  cases h with
  | publish h => exact ⟨_, .publish h⟩
  | process h => exact ⟨_, .process h⟩
  | errand h =>
    cases h with
    | create h => exact ⟨_, .create h⟩
    | join h => exact ⟨_, .join h⟩
    | leave h => exact ⟨_, .leave h⟩
    | close h => exact ⟨_, .close h⟩
    | share h => exact ⟨_, .share h⟩
    | reap h => exact ⟨_, .reap h⟩
    | @connect _ _ password k _ => exact ⟨_, .connect k.room k.wallet password⟩
    | receive id m => exact ⟨_, .receive id m⟩
    | flush id => exact ⟨_, .flush id⟩
    | send id n => exact ⟨_, .send id n⟩
    | abandon id => exact ⟨_, .abandon id⟩
    | disconnect id => exact ⟨_, .disconnect id⟩
    | prune maxIdleMs at_ => exact ⟨_, .prune maxIdleMs at_⟩
    | complete | retry | resubscribe | sweep | rank | advance | setClock =>
      exact ⟨_, .other rfl rfl⟩
    | aside h => exact ⟨_, .other h.hub (haside h)⟩

/-! ## Whole runs -/

/-- The archive has all that was shared, and whoever is connected has been told of what was shared
in its room since it was registered. -/
structure Told (s : Service) (all : List Share) (later : ConnectionId → List Share)
    (log : ConnectionId → List Frame) : Prop where
  coherent : s.hub.Coherent
  shares : ∀ room, s.archive.sharesOf room = Share.among all room
  recent : ∀ id, later id <:+ all
  heard : ∀ id c, s.hub.get? id = some c →
    (log id).filterMap Frame.share? = Share.among (later id) c.room

variable {all : List Share} {later : ConnectionId → List Share} {log : ConnectionId → List Frame}

theorem told_new (settings : Settings) (draws : Draws) (looksUp : Bool) (startedAt : Instant) :
    (new settings draws looksUp startedAt).Told [] (fun _ => []) fun _ => [] where
  coherent := Hub.coherent_empty
  shares _ := rfl
  recent _ := List.suffix_rfl
  heard _ _ h := nomatch h

theorem told_step (ht : s.Told all later log) (hp : Posting s xs s') :
    s'.Told (all ++ xs) (fun id => s.hub.since id (later id) xs)
      fun id => s.hub.since id (log id) (s.hub.heard s'.hub id) := by
  have hposts := posts_posting ht.coherent hp
  refine ⟨hposts.coherent, fun room => ?_, fun id => ?_, fun id c' hg' => ?_⟩
  · rw [hposts.shares, ht.shares, Share.among_append]
  · exact Hub.since_suffix (ht.recent id) s.hub id xs
  · have hheard := hposts.heard id c' hg'
    obtain ⟨c, hg, hroom⟩ | ⟨hnew, rfl⟩ := hposts.live id c' hg'
    · rw [Hub.since_of_get? hg, Hub.since_of_get? hg, List.filterMap_append, hheard,
        ht.heard id c hg, hroom, Share.among_append]
    · rw [Hub.since_of_get?_eq_none hnew, Hub.since_of_get?_eq_none hnew, hheard]

theorem Told.annals {s₀ : Service} (ht : s₀.Told [] (fun _ => []) fun _ => [])
    (h : Annals s₀ all later log s) : s.Told all later log := by
  induction h with
  | start => exact ht
  | step _ hp ih => exact told_step ih hp

/-- The last things that were shared in a room that is there are the last ones of all that were
shared in it, in their order. Whoever is connected has been told of just what was shared in its room
since it was registered, of each once and in this order. -/
theorem told_of_annals (settings : Settings) (draws : Draws) (looksUp : Bool) (startedAt : Instant)
    (h : Annals (new settings draws looksUp startedAt) all later log s) :
    (∀ room e, s.lobby.get? room = some e →
      ∀ n, s.sharesOf room n = .ok ((Share.among all room).rtake n)) ∧
    ∀ c ∈ s.hub.all, later c.id <:+ all ∧
      (log c.id).filterMap Frame.share? = Share.among (later c.id) c.room := by
  have ht := (told_new settings draws looksUp startedAt).annals h
  refine ⟨fun room e he n => ?_, fun c hc => ?_⟩
  · unfold sharesOf Archive.lastShares
    rw [Lobby.entry_eq_ok_iff.2 he, ht.shares]
    rfl
  · exact ⟨ht.recent c.id, ht.heard c.id c (ht.coherent.mem_all.1 hc)⟩

/-- Bo, who has connected to the room, has shared an address. -/
def smallShared : Service := smallWithSocket.after (smallWithSocket.share "r" "bo" smallShare)

/-- Bo is told of it himself. -/
theorem told_small : ∃ x later log, x.url = "link" ∧ Annals small [x] later log smallShared ∧
    smallShared.hub.all.map (·.id) = [1] ∧ later 1 = [x] ∧
    (smallShared.lobby.get? "r").isSome = true ∧
    (∀ room e, smallShared.lobby.get? room = some e →
      ∀ n, smallShared.sharesOf room n = .ok ((Share.among [x] room).rtake n)) ∧
    ∀ c ∈ smallShared.hub.all, later c.id <:+ [x] ∧
      (log c.id).filterMap Frame.share? = Share.among (later c.id) c.room := by
  have hroom : Posting small [] smallWithRoom :=
    .create (show small.createRoom { creator := "ada", token := some "mint" }
      = .ok (smallWithRoom, _) from rfl)
  have hsocket : Posting smallWithRoom [] smallWithSocket := .connect "r" "bo" none
  obtain ⟨x, hx, hurl⟩ := eq_ok_after (r := smallWithSocket.share "r" "bo" smallShare)
    (f := (·.url)) (b := "link") (by decide +kernel)
  have hrun := ((Annals.start.step hroom).step hsocket).step (.share hx)
  have hconnected : (smallWithSocket.hub.get? 1).isSome = true := by decide +kernel
  have hlater : smallWithSocket.hub.since 1 (smallWithRoom.hub.since 1 (small.hub.since 1 [] []) [])
      [x] = [x] := by
    unfold Hub.since
    rw [if_pos hconnected]
    simp
  exact ⟨x, _, _, hurl, hrun, by decide +kernel, hlater, by decide +kernel,
    told_of_annals {} growingIds true ⟨0, false⟩ hrun⟩

end Service

end SwapFloor
