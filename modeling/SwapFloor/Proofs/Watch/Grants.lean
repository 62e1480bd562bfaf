import Mathlib.Data.List.Induction
import SwapFloor.Proofs.Watch.Conversation

/-!
# Subscriptions that are granted

The provider grants a subscription in its answer to a call for one, and nobody but the caller learns
its number. An answer that comes when the caller's time is up is not looked at.

Main statement: on a connection that stays up, the first answer to a call makes the subscription the
caller's result just if the caller's time is not up when it arrives (`granted_iff_of_run`).
-/

namespace SwapFloor

namespace Exchange

variable {x y : Exchange} {acts more : List Act} {a : Act} {k id : Nat}
  {settings : Settings.Provider}

/-! ## How a request ends -/

theorem Run.of_snoc (h : Run x (acts ++ [a]) y) : ∃ z, Run x acts z ∧ Step z a y := by
  generalize hsplit : acts ++ [a] = all at h
  cases h with
  | nil => exact absurd hsplit (List.append_ne_nil_of_right_ne_nil _ (List.cons_ne_nil _ _))
  | snoc hrun hstep =>
    obtain ⟨rfl, hlast⟩ := List.append_inj' hsplit rfl
    obtain rfl := List.singleton_inj.1 hlast
    exact ⟨_, hrun, hstep⟩

theorem Run.of_append (h : Run x (acts ++ more) y) : ∃ z, Run x acts z ∧ Run z more y := by
  induction more using List.reverseRecOn generalizing y with
  | nil => exact ⟨y, List.append_nil acts ▸ h, .nil⟩
  | append_singleton more a ih =>
    rw [← List.append_assoc] at h
    obtain ⟨z, hrun, hstep⟩ := h.of_snoc
    obtain ⟨w, hrun', hrest⟩ := ih hrun
    exact ⟨w, hrun', hrest.snoc hstep⟩

/-- However it goes on, the request number `k` ends with this reply. -/
def Yields (x : Exchange) (k : Nat) (reply : Reply) : Prop :=
  ∀ more y, Run x more y → (∀ e ∈ y.enquiries, e.stage.reply?.isSome) →
    ∃ e, y.enquiries[k]? = some e ∧ e.stage.reply? = some reply

/-- It can go on until all callers have their replies. -/
theorem exists_rest (x : Exchange) :
    ∃ more y, Run x more y ∧ ∀ e ∈ y.enquiries, e.stage.reply?.isSome := by
  generalize hwork : x.work = n
  induction n using Nat.strongRecOn generalizing x with
  | ind n ih =>
    by_cases hall : ∀ e ∈ x.enquiries, e.stage.reply?.isSome
    · exact ⟨[], x, .nil, hall⟩
    · simp only [not_forall] at hall
      obtain ⟨e, hin, hnone⟩ := hall
      obtain ⟨k, hk⟩ := List.mem_iff_getElem?.1 hin
      obtain ⟨a, y, ha, hstep⟩ := exists_step hk (Option.not_isSome_iff_eq_none.1 hnone)
      obtain ⟨more, z, hrun, hall⟩ := ih y.work (hwork ▸ work_lt_of_step hstep ha) y rfl
      exact ⟨_, z, (Run.nil.snoc hstep).trans hrun, hall⟩

theorem since_append (h : .file k ∈ acts) (more : List Act) :
    since k (acts ++ more) = since k acts ++ more := by
  induction acts with
  | nil => cases h
  | cons b acts ih =>
    rw [List.cons_append, since, since]
    split
    · rfl
    · rename_i hne
      exact ih ((List.mem_cons.1 h).resolve_left (Ne.symm hne))

theorem mem_of_mem_since (h : a ∈ since k acts) : a ∈ acts := by
  induction acts with
  | nil => cases h
  | cons b acts ih =>
    rw [since] at h
    split at h
    · exact List.mem_cons_of_mem _ h
    · exact List.mem_cons_of_mem _ (ih h)

/-- The first news stays the first. -/
theorem news?_append {n : Option Letter} (h : news? k id acts = some n) (more : List Act) :
    news? k id (acts ++ more) = some n := by
  by_cases hin : .file k ∈ acts
  · unfold news? at h ⊢
    rw [since_append hin, List.findSome?_append, h]
    rfl
  · unfold news? at h
    rw [since_eq_nil hin] at h
    cases h

/-- A request that has filed a number and got its reply is done under this number. -/
theorem stage_of_filed {s : Stage} (hid : s.filed? = some id) (hreply : s.reply?.isSome) :
    ∃ reply, s = .done id reply := by
  cases s with
  | done i reply =>
    obtain rfl := Option.some.inj hid
    exact ⟨reply, rfl⟩
  | cleared | turnedDown | numbered => cases hid
  | filed | expired => cases hreply

/-- What a request ends with is settled by the first news. -/
theorem reply_of_news {e : Enquiry} {n : Option Letter} (h : Run (new settings) acts x)
    (hk : x.enquiries[k]? = some e) (hid : e.stage.filed? = some id)
    (hnews : news? k id acts = some n) (hrun : Run x more y)
    (hall : ∀ e ∈ y.enquiries, e.stage.reply?.isSome) :
    ∃ e' reply, y.enquiries[k]? = some e' ∧ e'.stage.reply? = some reply ∧
      match n with
      | some letter => reply = outcome e.call letter
      | none => ∃ f, reply = .error f := by
  obtain ⟨s, hk', hid'⟩ := filed?_of_run hrun hk hid
  obtain ⟨reply, rfl⟩ := stage_of_filed hid' (hall _ (List.mem_of_getElem? hk'))
  have hanswered := answered_of_run (h.trans hrun) hk' rfl
  unfold answer? at hanswered
  rw [news?_append hnews] at hanswered
  refine ⟨_, reply, hk', rfl, ?_⟩
  cases n with
  | some letter => exact hanswered
  | none =>
    obtain ⟨f, hf, -⟩ := hanswered
    exact ⟨f, hf⟩

/-! ## A connection that stays up -/

/-- The connection is up, or it has not been made and all requests have been turned down. -/
def Attached (x : Exchange) : Prop := x.link = .up ∨ ∀ e ∈ x.enquiries, e.stage = .turnedDown

theorem heard_link (x : Exchange) (text : String) : (x.heard text).link = x.link := by
  unfold heard
  split
  · split <;> rfl
  · rfl

/-- Unless it is lost, nobody is told that it is. -/
theorem Attached.step (h : x.Attached) (hsound : x.Sound acts) (hstep : Step x a y)
    (ha : a ≠ .lose) : y.Attached ∧ ∀ i, a ≠ .fail i := by
  by_cases hup : x.link = .up
  · cases hstep with
    | lose => exact absurd rfl ha
    | fail hdown => exact nomatch hup.symm.trans hdown
    | discard hdown => exact nomatch hup.symm.trans hdown
    | redial hdown => exact nomatch hup.symm.trans hdown
    | hear text => exact ⟨.inl ((heard_link x text).trans hup), nofun⟩
    | ask | number | file | post | collect | expire | withdraw | send => exact ⟨.inl hup, nofun⟩
  · have hnone := h.resolve_left hup
    have hidle : ∀ {k : Nat} {e : Enquiry}, x.enquiries[k]? = some e → e.stage = .turnedDown :=
      fun hk => hnone _ (List.mem_of_getElem? hk)
    cases hstep with
    | ask call =>
      refine ⟨.inr fun e he => ?_, nofun⟩
      rcases List.mem_append.1 he with he | he
      · exact hnone e he
      · rw [List.mem_singleton.1 he, if_neg hup]
    | number hk | file hk | post hk | collect hk | expire hk | withdraw hk => exact nomatch hidle hk
    | hear _ h | send h => exact absurd h hup
    | lose => exact absurd rfl ha
    | fail _ hfiled =>
      obtain ⟨k, e, hk, he⟩ := hsound.owned _ (.inl hfiled)
      rw [hidle hk] at he
      cases he
    | discard => exact ⟨.inr hnone, nofun⟩
    | redial => exact ⟨.inl rfl, nofun⟩

theorem attached_of_run (h : Run (new settings) acts x) (hstays : .lose ∉ acts) :
    x.Attached ∧ ∀ i, .fail i ∉ acts := by
  generalize hnew : new settings = x₀ at h
  induction h with
  | nil =>
    subst hnew
    exact ⟨.inr fun _ he => (nomatch he), fun _ => List.not_mem_nil⟩
  | @snoc acts a y z hrun hstep ih =>
    rw [List.mem_append, List.mem_singleton, not_or] at hstays
    obtain ⟨hattached, hfail⟩ := ih hstays.1
    obtain ⟨hattached', ha⟩ := hattached.step (sound_run (hnew ▸ hrun)) hstep (Ne.symm hstays.2)
    exact ⟨hattached', fun i => not_mem_snoc (hfail i) (ha i)⟩

/-- A request's time runs from its filing on. -/
theorem expire_mem_since (h : Run (new settings) acts x) (hin : .expire k ∈ acts) :
    .expire k ∈ since k acts := by
  generalize hnew : new settings = x₀ at h
  induction h with
  | nil => cases hin
  | @snoc acts a y z hrun hstep ih =>
    have hfile : .file k ∈ acts := by
      rcases List.mem_append.1 hin with hin | hin
      · refine Decidable.byContradiction fun hnot => ?_
        have hsince := ih hin
        rw [since_eq_nil hnot] at hsince
        cases hsince
      · obtain rfl := List.mem_singleton.1 hin
        cases hstep with
        | expire hk => exact ((sound_run (hnew ▸ hrun)).tells k _ hk).1
    rw [since_append hfile]
    refine List.mem_append.2 ((List.mem_append.1 hin).imp_left ih)

/-- What comes first is the end of the time or an answer. -/
theorem news?_of_attached (h : Run (new settings) acts x) (hstays : .lose ∉ acts)
    (hfirst : ∀ text, .hear text ∈ since k acts → ∀ letter, borne? text ≠ some (id, letter)) :
    news? k id acts = if .expire k ∈ acts then some none else none := by
  have hfail := (attached_of_run h hstays).2
  have hnews : ∀ b ∈ since k acts, b.news? k id = if b = .expire k then some none else none := by
    intro b hb
    cases b with
    | hear text =>
      have hnone : (borne? text).filter (fun b => b.1 == id) = none := by
        rw [Option.filter_eq_none_iff]
        rintro ⟨i, letter⟩ hborne hi
        obtain rfl : i = id := beq_iff_eq.1 hi
        exact hfirst text hb letter hborne
      simp only [Act.news?, hnone, Option.map_none, reduceCtorEq, if_false]
    | expire i => simp only [Act.news?, Act.expire.injEq]
    | fail i => exact absurd (mem_of_mem_since hb) (hfail i)
    | lose => exact absurd (mem_of_mem_since hb) hstays
    | ask | number | file | post | collect | withdraw | send | discard | redial => rfl
  by_cases hin : .expire k ∈ acts
  · rw [if_pos hin]
    cases hn : news? k id acts with
    | none =>
      have hexpire := List.findSome?_eq_none_iff.1 hn _ (expire_mem_since h hin)
      rw [hnews _ (expire_mem_since h hin), if_pos rfl] at hexpire
      cases hexpire
    | some n =>
      obtain ⟨b, hb, hsome⟩ := List.exists_of_findSome?_eq_some hn
      rw [hnews b hb] at hsome
      split at hsome
      · exact hsome.symm
      · cases hsome
  · rw [if_neg hin]
    refine List.findSome?_eq_none_iff.2 fun b hb => ?_
    rw [hnews b hb, if_neg]
    rintro rfl
    exact hin (mem_of_mem_since hb)

/-! ## What becomes of a subscription -/

/-- On a connection that stays up, the subscription that is granted in the first answer to a call
becomes the caller's result just if the caller's time has not been up before. -/
theorem granted_iff_of_run {pre post : List Act} {text : String} {address : String}
    {epoch : Nat} {s : Stage} {result : Json} {sub : SubscriptionId}
    (h : Run (new settings) (pre ++ .hear text :: post) x)
    (hstays : .lose ∉ pre ++ .hear text :: post)
    (hk : x.enquiries[k]? = some ⟨.subscribe address epoch, s⟩) (hid : s.filed? = some id)
    (hfile : .file k ∈ pre) (hborne : borne? text = some (id, .ok result))
    (hsub : Feed.uint64? result = some sub)
    (hfirst : ∀ text, .hear text ∈ since k pre → ∀ letter, borne? text ≠ some (id, letter)) :
    (∃ reply, x.Yields k reply ∧ subscription reply = .ok sub) ↔ .expire k ∉ pre := by
  obtain ⟨y, hpre, -⟩ := h.of_append
  have hnews := news?_of_attached hpre (fun hin => hstays (List.mem_append_left _ hin)) hfirst
  constructor
  · rintro ⟨reply, hyields, hok⟩ hexpire
    rw [if_pos hexpire] at hnews
    obtain ⟨more, z, hrun, hall⟩ := exists_rest x
    obtain ⟨e, he, hreply⟩ := hyields more z hrun hall
    obtain ⟨e', reply', he', hreply', f, rfl⟩ :=
      reply_of_news h hk hid (news?_append hnews _) hrun hall
    obtain rfl := Option.some.inj (he.symm.trans he')
    obtain rfl := Option.some.inj (hreply.symm.trans hreply')
    cases hok
  · intro hexpire
    rw [if_neg hexpire] at hnews
    have hheard : news? k id (pre ++ [.hear text]) = some (some (.ok result)) := by
      rw [news?_snoc hfile, hnews]
      simp [Act.news?, hborne]
    have hsettled : news? k id (pre ++ .hear text :: post) = some (some (.ok result)) := by
      rw [List.append_cons]
      exact news?_append hheard post
    refine ⟨.ok result, fun more z hrun hall => ?_, ?_⟩
    · obtain ⟨e, reply, he, hreply, rfl⟩ := reply_of_news h hk hid hsettled hrun hall
      exact ⟨e, he, hreply⟩
    · simp only [subscription, hsub]

/-- Of two subscriptions one is granted in time. -/
theorem granted_iff_smallTalk : ∃ x, Run (new {}) smallTalk x ∧
    (∃ reply, x.Yields 1 reply ∧ subscription reply = .ok 9) ∧
    ¬ ∃ reply, x.Yields 0 reply ∧ subscription reply = .ok 7 := by
  obtain ⟨x, hrun, henquiries⟩ := exists_run_smallTalk {}
  have hsecond : Run (new {}) (smallTalk.take 11 ++ .hear secondGrant :: smallTalk.drop 12) x :=
    hrun
  have hfirst : Run (new {}) (smallTalk.take 14 ++ .hear firstGrant :: smallTalk.drop 15) x :=
    hrun
  have hnone : ∀ text, .hear text ∈ since 1 (smallTalk.take 11) → ∀ letter,
      borne? text ≠ some (2, letter) := by
    intro text hin
    rw [show since 1 (smallTalk.take 11) = [.file 0, .post 0, .post 1, .send, .send]
      from rfl] at hin
    simp at hin
  have hothers : ∀ text, .hear text ∈ since 0 (smallTalk.take 14) → ∀ letter,
      borne? text ≠ some (1, letter) := by
    intro text hin letter
    rw [show since 0 (smallTalk.take 14) = [.post 0, .post 1, .send, .send, .hear secondGrant,
      .hear secondRefusal, .expire 0] from rfl] at hin
    simp only [List.mem_cons, Act.hear.injEq, reduceCtorEq, List.not_mem_nil, false_or,
      or_false] at hin
    rcases hin with rfl | rfl
    · simp [borne?_secondGrant]
    · simp [borne?_secondRefusal]
  have hzero : x.enquiries[0]? =
      some ⟨.subscribe "a" 1, .done 1 (.error (timedOut (.subscribe "a" 1)))⟩ := by
    rw [henquiries]
    rfl
  have hone : x.enquiries[1]? = some ⟨.subscribe "b" 2, .done 2 (.ok (.int 9))⟩ := by
    rw [henquiries]
    rfl
  refine ⟨x, hrun, ?_, fun hgranted => ?_⟩
  · exact (granted_iff_of_run hsecond (by decide) hone rfl (by decide) borne?_secondGrant rfl
      hnone).2 (by decide)
  · exact (granted_iff_of_run hfirst (by decide) hzero rfl (by decide) borne?_firstGrant rfl
      hothers).1 hgranted (by decide)

end Exchange

end SwapFloor
