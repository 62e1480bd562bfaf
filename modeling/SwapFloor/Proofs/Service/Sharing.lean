import SwapFloor.Proofs.Service.Procedures
import SwapFloor.Proofs.Service.Saved

/-!
# Sharing while others act

Between the calls of someone who shares something, others join and leave, rooms are closed, and time
passes. Nothing of this touches what was shared. A share is added to its room once or not at all
(`Stage`), whatever comes in between.

It is added before it is known whether the activity of the wallet can be noted, though. If the room
has been closed by then, or is gone, the sharing fails, and the share stays (`Late`). Main statement:
this is the only way in which something stays of a sharing that has failed (`shared_of_playing`).
-/

namespace SwapFloor

/-- What is done by others, and time. -/
inductive Deed where
  | join (room wallet : String) (password : Option String)
  | leave (room wallet : String)
  | close (room requester : String)
  | reap (at_ : Instant)
  | advance (ms : Nat)
  | setClock (at_ : Instant)
  deriving DecidableEq

/-- What happens while a procedure is under way. -/
inductive Beat where
  /-- The next call of the procedure is made. -/
  | own
  | other (d : Deed)
  deriving DecidableEq

/-- The service after a deed, which may have failed. -/
def Service.undergo (s : Service) : Deed → Service
  | .join room wallet password => s.after (s.joinRoom room wallet password)
  | .leave room wallet => s.after (s.leaveRoom room wallet)
  | .close room requester => s.after (s.closeRoom room requester)
  | .reap at_ => (s.reapRoomsAt at_).1
  | .advance ms => s.advance ms
  | .setClock at_ => { s with startedAt := at_ }

/-- What a procedure has come to, if nothing more is to be done. -/
def Procedure.result? {α : Type} : Procedure α → Option (Except Failure α)
  | .done r => some r
  | .call _ _ => none

/-- The service, and what is still to be done of a procedure. -/
structure Scene (α : Type) where
  service : Service
  rest : Procedure α

namespace Scene

variable {α : Type}

/-- Makes the next call, if there is one. -/
def proceed : Scene α → Scene α
  | ⟨s, .done r⟩ => ⟨s, .done r⟩
  | ⟨s, .call act next⟩ => ⟨act s, next s⟩

def step (sc : Scene α) : Beat → Scene α
  | .own => sc.proceed
  | .other d => { sc with service := sc.service.undergo d }

/-- What comes of a procedure if things happen in this order. -/
def play (sc : Scene α) (beats : List Beat) : Scene α := beats.foldl step sc

end Scene

namespace Service

open Procedure

variable {s s' s'' : Service} {room wallet : String} {q : ShareRequest} {x : Share} {f : Failure}
  {beats : List Beat}

/-! ## What was shared -/

/-- What was shared is as it was. -/
def SameShares (s s' : Service) : Prop := ∀ r, s'.archive.sharesOf r = s.archive.sharesOf r

/-- One thing was added at the end of what was shared in a room. -/
def Adds (s s' : Service) (room : String) (x : Share) : Prop :=
  x.room = room ∧ ∀ r, s'.archive.sharesOf r
    = if r = room then s.archive.sharesOf r ++ [x] else s.archive.sharesOf r

theorem SameShares.refl (s : Service) : SameShares s s := fun _ => rfl

theorem SameShares.trans (h : SameShares s s') (h' : SameShares s' s'') : SameShares s s'' :=
  fun r => (h' r).trans (h r)

theorem Adds.then_same (h : Adds s s' room x) (h' : SameShares s' s'') : Adds s s'' room x :=
  ⟨h.1, fun r => (h' r).trans (h.2 r)⟩

theorem adds_addShare (h : SameShares s s') (hroom : x.room = room) :
    Adds s { s' with archive := s'.archive.addShare x } room x := by
  refine ⟨hroom, fun r => ?_⟩
  show (s'.archive.addShare x).sharesOf r = _
  rw [Archive.sharesOf_addShare, hroom, h r]

theorem sameShares_after {α : Type} {r : Except Failure (Service × α)}
    (h : ∀ s' a, r = .ok (s', a) → SameShares s s') : SameShares s (s.after r) := by
  cases r with
  | ok p => exact h p.1 p.2 rfl
  | error f => exact .refl s

/-- Others do not touch what was shared. -/
theorem sameShares_undergo (s : Service) (d : Deed) : SameShares s (s.undergo d) := by
  cases d with
  | join room wallet password =>
    refine sameShares_after fun s' j h r => ?_
    rw [joinRoom_archive h]
    rfl
  | leave room wallet =>
    refine sameShares_after fun s' left h r => ?_
    rw [leaveRoom_archive h]
    cases left <;> rfl
  | close room requester =>
    refine sameShares_after fun s' closed h r => ?_
    obtain ⟨l, _, rfl⟩ := closeRoom_eq h
    rw [finishRoom_archive]
    rfl
  | reap at_ =>
    intro r
    show (s.reapRoomsAt at_).1.archive.sharesOf r = _
    unfold reapRoomsAt
    split
    · rfl
    · rename_i l closed _
      show (closed.foldl finishRoom { s with lobby := l }).archive.sharesOf r = _
      rw [finishRooms_archive, Archive.saveRooms_eq]
      rfl
  | advance ms => exact .refl s
  | setClock at_ => exact .refl s

/-! ## Calls of the one who shares -/

theorem proceed_ask_bind {α β : Type} (look : Service → Except Failure α) (g : α → Procedure β)
    (s : Service) : Scene.proceed ⟨s, ask look >>= g⟩ = ⟨s, done (look s) >>= g⟩ := rfl

theorem proceed_attempt_bind {α β : Type} (change : Service → Except Failure (Service × α))
    (g : α → Procedure β) (s : Service) : Scene.proceed ⟨s, attempt change >>= g⟩
      = ⟨(outcome s (change s)).1, done (outcome s (change s)).2 >>= g⟩ := rfl

theorem proceed_sharing (s : Service) (room wallet : String) (q : ShareRequest) :
    (∃ f, Scene.proceed ⟨s, sharing room wallet q⟩ = ⟨s, done (.error f)⟩) ∨
      Scene.proceed ⟨s, sharing room wallet q⟩ = ⟨s, permitting room wallet q⟩ := by
  unfold sharing
  rw [proceed_ask_bind]
  cases s.lobby.openEntry room with
  | ok e => exact Or.inr rfl
  | error f => exact Or.inl ⟨f, rfl⟩

theorem proceed_permitting (s : Service) (room wallet : String) (q : ShareRequest) :
    (∃ f, Scene.proceed ⟨s, permitting room wallet q⟩ = ⟨s, done (.error f)⟩) ∨
      Scene.proceed ⟨s, permitting room wallet q⟩ = ⟨s, preparing room wallet q⟩ := by
  unfold permitting
  rw [proceed_ask_bind]
  cases s.lobby.isActive room wallet with
  | true => exact Or.inr rfl
  | false => exact Or.inl ⟨_, rfl⟩

theorem proceed_preparing (s : Service) (room wallet : String) (q : ShareRequest) :
    (∃ f, Scene.proceed ⟨s, preparing room wallet q⟩ = ⟨s, done (.error f)⟩) ∨
      ∃ x, x.room = room ∧ Scene.proceed ⟨s, preparing room wallet q⟩
        = ⟨{ s with drawn := s.drawn + 1 }, recording room wallet x⟩ := by
  unfold preparing
  rw [proceed_attempt_bind]
  cases hx : Share.new s.nextId room wallet q.url q.infoType q.metadata s.now with
  | ok x => exact Or.inr ⟨x, (share_new_eq hx).1, rfl⟩
  | error f => exact Or.inl ⟨f, rfl⟩

theorem proceed_recording (s : Service) (room wallet : String) (x : Share) :
    Scene.proceed ⟨s, recording room wallet x⟩
      = ⟨{ s with archive := s.archive.addShare x }, noting room wallet x⟩ := rfl

/-- A room that is not open any more cannot be touched. -/
theorem proceed_noting_of_error (h : s.lobby.openEntry room = .error f) (wallet : String)
    (x : Share) : Scene.proceed ⟨s, noting room wallet x⟩ = ⟨s, done (.error f)⟩ := by
  unfold noting touching
  rw [proceed_attempt_bind]
  unfold Lobby.touch
  rw [h]
  rfl

theorem proceed_noting_of_ok {e : Lobby.Entry} (h : s.lobby.openEntry room = .ok e)
    (wallet : String) (x : Share) : Scene.proceed ⟨s, noting room wallet x⟩
      = ⟨{ s with lobby := s.lobby.update room (e.touch wallet x.sharedAt) }, telling room x⟩ := by
  unfold noting touching
  rw [proceed_attempt_bind, Lobby.touch_of_openEntry h]
  rfl

theorem proceed_telling (s : Service) (room : String) (x : Share) :
    Scene.proceed ⟨s, telling room x⟩ = ⟨s.announce room (.shared x), done (.ok x)⟩ := rfl

/-! ## How far it has come -/

/-- What comes of a sharing if things happen in this order. -/
def playing (s : Service) (room wallet : String) (q : ShareRequest) (beats : List Beat) :
    Scene Share :=
  Scene.play ⟨s, sharing room wallet q⟩ beats

theorem playing_append (s : Service) (room wallet : String) (q : ShareRequest)
    (beats more : List Beat) : playing s room wallet q (beats ++ more)
      = (playing s room wallet q beats).play more :=
  List.foldl_append ..

/-- Something had been shared when the room was found not to be open any more. -/
def Late (s : Service) (room wallet : String) (q : ShareRequest) (beats : List Beat) (x : Share)
    (f : Failure) : Prop :=
  ∃ before later, beats = before ++ .own :: later ∧
    (playing s room wallet q before).rest = noting room wallet x ∧
    Adds s (playing s room wallet q before).service room x ∧
    (playing s room wallet q before).service.lobby.openEntry room = .error f

theorem Late.append (h : Late s room wallet q beats x f) (e : Beat) :
    Late s room wallet q (beats ++ [e]) x f := by
  obtain ⟨before, later, rfl, h⟩ := h
  exact ⟨before, later ++ [e], List.append_assoc .., h⟩

/-- How far a sharing has come after some beats, and how many of its calls are left at most. -/
inductive Stage (s : Service) (room wallet : String) (q : ShareRequest) (beats : List Beat)
    (sc : Scene Share) : Nat → Prop where
  | begun (hrest : sc.rest = sharing room wallet q) (hlog : SameShares s sc.service) :
    Stage s room wallet q beats sc 6
  | found (hrest : sc.rest = permitting room wallet q) (hlog : SameShares s sc.service) :
    Stage s room wallet q beats sc 5
  | permitted (hrest : sc.rest = preparing room wallet q) (hlog : SameShares s sc.service) :
    Stage s room wallet q beats sc 4
  | prepared {x : Share} (hrest : sc.rest = recording room wallet x) (hroom : x.room = room)
    (hlog : SameShares s sc.service) : Stage s room wallet q beats sc 3
  | recorded {x : Share} (hrest : sc.rest = noting room wallet x)
    (hlog : Adds s sc.service room x) : Stage s room wallet q beats sc 2
  | noted {x : Share} (hrest : sc.rest = telling room x) (hlog : Adds s sc.service room x) :
    Stage s room wallet q beats sc 1
  | told {x : Share} (hrest : sc.rest = done (.ok x)) (hlog : Adds s sc.service room x) :
    Stage s room wallet q beats sc 0
  | refused {f : Failure} (hrest : sc.rest = done (.error f)) (hlog : SameShares s sc.service) :
    Stage s room wallet q beats sc 0
  | late {x : Share} {f : Failure} (hrest : sc.rest = done (.error f))
    (hlate : Late s room wallet q beats x f) : Stage s room wallet q beats sc 0

namespace Stage

variable {sc : Scene Share} {n : Nat}

theorem undergo (h : Stage s room wallet q beats sc n) (d : Deed) :
    Stage s room wallet q (beats ++ [.other d]) { sc with service := sc.service.undergo d } n := by
  have hsame := sameShares_undergo sc.service d
  cases h with
  | begun hrest hlog => exact .begun hrest (hlog.trans hsame)
  | found hrest hlog => exact .found hrest (hlog.trans hsame)
  | permitted hrest hlog => exact .permitted hrest (hlog.trans hsame)
  | prepared hrest hroom hlog => exact .prepared hrest hroom (hlog.trans hsame)
  | recorded hrest hlog => exact .recorded hrest (hlog.then_same hsame)
  | noted hrest hlog => exact .noted hrest (hlog.then_same hsame)
  | told hrest hlog => exact .told hrest (hlog.then_same hsame)
  | refused hrest hlog => exact .refused hrest (hlog.trans hsame)
  | late hrest hlate => exact .late hrest (hlate.append _)

/-- A call brings it one stage further, or to its end. -/
theorem proceed (h : Stage s room wallet q beats sc n) (hsc : sc = playing s room wallet q beats) :
    ∃ m, Stage s room wallet q (beats ++ [.own]) sc.proceed m ∧ (m = 0 ∨ m + 1 = n) := by
  obtain ⟨t, rest⟩ := sc
  cases h with
  | begun hrest hlog =>
    obtain rfl : rest = sharing room wallet q := hrest
    obtain ⟨f, hnext⟩ | hnext := proceed_sharing t room wallet q
    · exact ⟨0, hnext ▸ .refused rfl hlog, Or.inl rfl⟩
    · exact ⟨5, hnext ▸ .found rfl hlog, Or.inr rfl⟩
  | found hrest hlog =>
    obtain rfl : rest = permitting room wallet q := hrest
    obtain ⟨f, hnext⟩ | hnext := proceed_permitting t room wallet q
    · exact ⟨0, hnext ▸ .refused rfl hlog, Or.inl rfl⟩
    · exact ⟨4, hnext ▸ .permitted rfl hlog, Or.inr rfl⟩
  | permitted hrest hlog =>
    obtain rfl : rest = preparing room wallet q := hrest
    obtain ⟨f, hnext⟩ | ⟨x, hroom, hnext⟩ := proceed_preparing t room wallet q
    · exact ⟨0, hnext ▸ .refused rfl hlog, Or.inl rfl⟩
    · exact ⟨3, hnext ▸ .prepared rfl hroom hlog, Or.inr rfl⟩
  | @prepared x hrest hroom hlog =>
    obtain rfl : rest = recording room wallet x := hrest
    have hadds := adds_addShare hlog hroom
    exact ⟨2, proceed_recording t room wallet x ▸ .recorded rfl hadds, Or.inr rfl⟩
  | @recorded x hrest hlog =>
    obtain rfl : rest = noting room wallet x := hrest
    -- the one call that can fail when something has been added already
    cases hopen : t.lobby.openEntry room with
    | error f =>
      have hlate : Late s room wallet q (beats ++ [.own]) x f :=
        ⟨beats, [], rfl, hsc ▸ rfl, hsc ▸ hlog, hsc ▸ hopen⟩
      exact ⟨0, proceed_noting_of_error hopen wallet x ▸ .late rfl hlate, Or.inl rfl⟩
    | ok e => exact ⟨1, proceed_noting_of_ok hopen wallet x ▸ .noted rfl hlog, Or.inr rfl⟩
  | @noted x hrest hlog =>
    obtain rfl : rest = telling room x := hrest
    exact ⟨0, proceed_telling t room x ▸ .told rfl hlog, Or.inl rfl⟩
  | @told x hrest hlog =>
    obtain rfl : rest = done (.ok x) := hrest
    exact ⟨0, .told rfl hlog, Or.inl rfl⟩
  | @refused f hrest hlog =>
    obtain rfl : rest = done (.error f) := hrest
    exact ⟨0, .refused rfl hlog, Or.inl rfl⟩
  | @late x f hrest hlate =>
    obtain rfl : rest = done (.error f) := hrest
    exact ⟨0, .late rfl (hlate.append _), Or.inl rfl⟩

end Stage

/-- Whatever happens, a sharing is at one of its stages, and each of its calls has brought it
further until it has ended. -/
theorem exists_stage (s : Service) (room wallet : String) (q : ShareRequest) (beats : List Beat) :
    ∃ n, Stage s room wallet q beats (playing s room wallet q beats) n ∧
      (n = 0 ∨ n + beats.count .own = 6) := by
  induction beats using List.reverseRecOn with
  | nil => exact ⟨6, .begun rfl (.refl s), Or.inr rfl⟩
  | append_singleton beats b ih =>
    obtain ⟨n, hstage, hn⟩ := ih
    rw [playing_append, List.count_append]
    cases b with
    | own =>
      obtain ⟨m, hnext, hm⟩ := hstage.proceed rfl
      refine ⟨m, hnext, ?_⟩
      rw [List.count_singleton_self]
      omega
    | other d =>
      refine ⟨n, hstage.undergo d, ?_⟩
      rw [List.count_singleton, if_neg (by simp)]
      exact hn

/-- What has ended stays so, and nothing is added to what was shared any more. -/
theorem play_done {α : Type} (s : Service) (r : Except Failure α) (beats : List Beat) :
    ∃ s', Scene.play ⟨s, done r⟩ beats = ⟨s', done r⟩ ∧ SameShares s s' := by
  induction beats generalizing s with
  | nil => exact ⟨s, rfl, .refl s⟩
  | cons b beats ih =>
    cases b with
    | own => exact ih s
    | other d =>
      obtain ⟨s', hplay, hsame⟩ := ih (s.undergo d)
      exact ⟨s', hplay, (sameShares_undergo s d).trans hsame⟩

/-- A sharing that comes too late fails, and what was shared stays. -/
theorem Late.ended (h : Late s room wallet q beats x f) :
    (playing s room wallet q beats).rest = done (.error f) ∧
      Adds s (playing s room wallet q beats).service room x := by
  obtain ⟨before, later, rfl, hrest, hlog, hopen⟩ := h
  rw [playing_append]
  generalize playing s room wallet q before = sc at hrest hlog hopen
  obtain ⟨t, rest⟩ := sc
  obtain rfl : rest = noting room wallet x := hrest
  obtain ⟨t', hplay, hsame⟩ := play_done t (.error f) later
  have hended : Scene.play ⟨t, noting room wallet x⟩ (.own :: later) = ⟨t', done (.error f)⟩ := by
    show Scene.play (Scene.proceed ⟨t, noting room wallet x⟩) later = _
    rw [proceed_noting_of_error hopen]
    exact hplay
  rw [hended]
  exact ⟨rfl, hlog.then_same hsame⟩

/-! ## What it comes to -/

/-- Let someone share something while others join and leave, rooms are closed or recycled and time
passes, in any order. After six calls there is a result. If it is a share, this has been added once
to what was shared in the room, and nothing else. If it is a failure, then nothing has been added,
or the room was found not to be open after something had been: then just this fails, and what was
added stays. If nobody comes in between, this is the operation. -/
theorem shared_of_playing (s : Service) (room wallet : String) (q : ShareRequest)
    (beats : List Beat) :
    (6 ≤ beats.count .own → ∃ r, (playing s room wallet q beats).rest.result? = some r) ∧
      (∀ x, (playing s room wallet q beats).rest.result? = some (.ok x) →
        Adds s (playing s room wallet q beats).service room x) ∧
      (∀ f, (playing s room wallet q beats).rest.result? = some (.error f) →
        SameShares s (playing s room wallet q beats).service ∨
          ∃ x, Late s room wallet q beats x f) ∧
      (∀ x f, Late s room wallet q beats x f →
        (playing s room wallet q beats).rest.result? = some (.error f) ∧
          Adds s (playing s room wallet q beats).service room x) ∧
      (sharing room wallet q).alone s = outcome s (s.share room wallet q) := by
  obtain ⟨n, hstage, hn⟩ := exists_stage s room wallet q beats
  refine ⟨fun hcalls => ?_, fun x hx => ?_, fun f hf => ?_, fun x f hlate => ?_,
    alone_sharing s room wallet q⟩
  · obtain rfl : n = 0 := by omega
    cases hstage with
    | told hrest _ => exact ⟨_, congrArg result? hrest⟩
    | refused hrest _ => exact ⟨_, congrArg result? hrest⟩
    | late hrest _ => exact ⟨_, congrArg result? hrest⟩
  · cases hstage with
    | told hrest hlog =>
      rw [hrest] at hx
      cases hx
      exact hlog
    | begun hrest _ | found hrest _ | permitted hrest _ | prepared hrest _ _ | recorded hrest _
    | noted hrest _ | refused hrest _ | late hrest _ =>
      rw [hrest] at hx
      cases hx
  · cases hstage with
    | refused hrest hlog => exact Or.inl hlog
    | late hrest hlate =>
      rw [hrest] at hf
      cases hf
      exact Or.inr ⟨_, hlate⟩
    | begun hrest _ | found hrest _ | permitted hrest _ | prepared hrest _ _ | recorded hrest _
    | noted hrest _ | told hrest _ =>
      rw [hrest] at hf
      cases hf
  · obtain ⟨hrest, hlog⟩ := hlate.ended
    exact ⟨congrArg result? hrest, hlog⟩

/-- Ada shares an address. -/
def smallShare : ShareRequest := { url := "link" }

/-- Bo comes in, and the room is closed after the last call. -/
def smallBeats : List Beat :=
  [.own, .other (.join "r" "bo" none), .own, .own, .own, .other (.advance 5), .own, .own,
    .other (.close "r" "ada")]

theorem shared_small : ∃ x, x.url = "link" ∧
    (playing smallWithRoom "r" "ada" smallShare smallBeats).rest.result? = some (.ok x) ∧
    Adds smallWithRoom (playing smallWithRoom "r" "ada" smallShare smallBeats).service "r" x := by
  have hurl : (playing smallWithRoom "r" "ada" smallShare smallBeats).rest.result?.map
      (fun r => r.toOption.map (·.url)) = some (some "link") := by
    decide +kernel
  obtain ⟨r, hr, hx⟩ := Option.map_eq_some_iff.1 hurl
  obtain ⟨-, hadds, -⟩ := shared_of_playing smallWithRoom "r" "ada" smallShare smallBeats
  cases r with
  | error f => cases hx
  | ok x => exact ⟨x, Option.some.inj hx, hr, hadds x hr⟩

/-- Ada closes the room when her share has been added, before her activity is noted. -/
def smallClosing : List Beat := [.own, .own, .own, .own, .other (.close "r" "ada"), .own]

/-- She is told that she has failed, and what she wanted to share is there. -/
theorem not_all_or_nothing_closing :
    ¬ ∀ f, (playing smallWithRoom "r" "ada" smallShare smallClosing).rest.result?
        = some (.error f) →
      SameShares smallWithRoom (playing smallWithRoom "r" "ada" smallShare smallClosing).service := by
  intro hall
  have hfailed : (playing smallWithRoom "r" "ada" smallShare smallClosing).rest.result?.map
      (fun r => r.toOption.isSome) = some false := by
    decide +kernel
  have hadded : ((playing smallWithRoom "r" "ada" smallShare smallClosing).service.archive.sharesOf
      "r").length = (smallWithRoom.archive.sharesOf "r").length + 1 := by
    decide +kernel
  obtain ⟨r, hr, hbad⟩ := Option.map_eq_some_iff.1 hfailed
  cases r with
  | ok x => cases hbad
  | error f =>
    rw [hall f hr "r"] at hadded
    omega

end Service

end SwapFloor
