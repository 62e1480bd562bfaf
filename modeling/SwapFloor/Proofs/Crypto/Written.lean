import Mathlib.Data.String.Basic
import SwapFloor.Room.Password

/-!
# A stored hash is read as it was written

The hash of a password is one line, in which dollar signs part the fields. No letter of a salt or a
digest is a dollar sign, so that the line is cut into the same fields again, and each of them is
read for what it was.

Main statements: a hash of a password is no malformed one (`ofText?_text_make`), and it accepts the
password that it was made of (`accepts_make`).
-/

namespace SwapFloor.Crypto

open String

/-! ## Cutting a line -/

/-- The scan of a line for one character, with `l` behind the last cut, `m` since then and `r` to
come. -/
theorem splitOnAux_eq (c : Char) (l m r : List Char) (acc : List String) :
    splitOnAux (ofList (l ++ m ++ r)) (ofList [c]) ⟨utf8Len l⟩ ⟨utf8Len l + utf8Len m⟩ 0 acc =
      acc.reverse ++ (List.splitOnPPrepend (· == c) r m.reverse).map ofList := by
  have hget : Pos.Raw.get (ofList [c]) 0 = c := get_of_valid [] [c]
  have hnext : Pos.Raw.next (ofList [c]) 0 = ⟨c.utf8Size⟩ := by simpa using next_of_valid [] c []
  have hend : (Pos.Raw.atEnd (ofList [c]) ⟨c.utf8Size⟩) = true := by
    simpa using (atEnd_of_valid [c] []).2 rfl
  have hpos : utf8Len l + utf8Len m = utf8Len (l ++ m) := (utf8Len_append l m).symm
  rw [splitOnAux]
  cases r with
  | nil =>
    rw [hpos, if_pos ((atEnd_of_valid (l ++ m) []).2 rfl), ← hpos, extract_of_valid l m []]
    simp
  | cons d r =>
    have hmore := mt (atEnd_of_valid (l ++ m) (d :: r)).1 (List.cons_ne_nil d r)
    have hsize : utf8Len (l ++ m) + d.utf8Size = utf8Len l + utf8Len (m ++ [d]) := by
      simp [Nat.add_assoc]
    rw [hpos, if_neg hmore, get_of_valid (l ++ m) (d :: r), hget, next_of_valid (l ++ m) d r, hnext,
      if_pos hend, List.splitOnPPrepend_cons_eq_if, List.headD_cons]
    by_cases hd : (d == c) = true
    · have hback : Pos.Raw.unoffsetBy ⟨utf8Len (l ++ m) + d.utf8Size⟩ ⟨c.utf8Size⟩
          = ⟨utf8Len l + utf8Len m⟩ := by
        rw [← hpos, beq_iff_eq.1 hd]
        exact congrArg Pos.Raw.mk (Nat.add_sub_cancel ..)
      have ih := splitOnAux_eq c (l ++ m ++ [d]) [] r (ofList m :: acc)
      have hlist : l ++ m ++ [d] ++ [] ++ r = l ++ m ++ d :: r := by simp
      have hlen : utf8Len (l ++ m ++ [d]) = utf8Len (l ++ m) + d.utf8Size := by
        simp [Nat.add_assoc]
      rw [hlist, utf8Len_nil, Nat.add_zero, hlen] at ih
      rw [if_pos hd, if_pos hd, hback, extract_of_valid l m (d :: r), ih]
      simp
    · have ih := splitOnAux_eq c l (m ++ [d]) r acc
      have hlist : l ++ (m ++ [d]) ++ r = l ++ m ++ d :: r := by simp
      rw [hlist, ← hsize, List.reverse_append] at ih
      have hzero : Pos.Raw.unoffsetBy ⟨utf8Len (l ++ m)⟩ 0 = ⟨utf8Len (l ++ m)⟩ := rfl
      rw [if_neg hd, if_neg hd, hzero, next_of_valid (l ++ m) d r, ih]
      rfl
termination_by r.length

/-- A line is cut at a character as the list of its characters is. -/
theorem splitOn_eq (s : String) (c : Char) :
    s.splitOn (ofList [c]) = (s.toList.splitOnP (· == c)).map ofList := by
  have h := splitOnAux_eq c [] [] s.toList []
  unfold splitOn
  rw [if_neg (by simp)]
  simpa using h

/-! ## Letters and digests -/

namespace Base64

theorem exists_letter {bytes : List UInt8} {x : Char} (h : x ∈ encode bytes) :
    ∃ n < 64, x = letter n := by
  fun_induction encode bytes with
  | case1 a b c rest n ih =>
    have ha := a.toNat_lt
    have hb := b.toNat_lt
    have hc := c.toNat_lt
    have hn : n / 262144 < 64 := by omega
    clear_value n
    simp only [List.mem_cons] at h
    obtain rfl | rfl | rfl | rfl | h := h
    · exact ⟨_, hn, rfl⟩
    · exact ⟨_, Nat.mod_lt _ (by decide), rfl⟩
    · exact ⟨_, Nat.mod_lt _ (by decide), rfl⟩
    · exact ⟨_, Nat.mod_lt _ (by decide), rfl⟩
    · exact ih h
  | case2 a b n =>
    have ha := a.toNat_lt
    have hb := b.toNat_lt
    have hn : n / 4096 < 64 := by omega
    clear_value n
    simp only [List.mem_cons, List.not_mem_nil, or_false] at h
    obtain rfl | rfl | rfl := h
    · exact ⟨_, hn, rfl⟩
    · exact ⟨_, Nat.mod_lt _ (by decide), rfl⟩
    · exact ⟨_, Nat.mod_lt _ (by decide), rfl⟩
  | case3 a =>
    have ha := a.toNat_lt
    simp only [List.mem_cons, List.not_mem_nil, or_false] at h
    obtain rfl | rfl := h
    · exact ⟨_, by omega, rfl⟩
    · exact ⟨_, Nat.mod_lt _ (by decide), rfl⟩
  | case4 => exact absurd h List.not_mem_nil

end Base64

theorem Blake2b.length_hash {size : Nat} (h : size ≤ 64) (message : List UInt8) :
    (Blake2b.hash size message).length = size := by
  have hwords : ∀ ws : List UInt64, (ws.flatMap wordBytes).length = 8 * ws.length := by
    intro ws
    induction ws with
    | nil => rfl
    | cons w ws ih =>
      rw [List.flatMap_cons, List.length_append, ih, List.length_cons]
      have : (wordBytes w).length = 8 := length_littleEndian 8 _
      omega
  unfold Blake2b.hash
  dsimp only
  rw [List.length_take, hwords, Vector.length_toList]
  omega

theorem Argon2.length_hash {p : Argon2.Params} (h : p.size ≤ 64) (password salt : List UInt8) :
    (Argon2.hash p password salt).length = p.size := by
  unfold Argon2.hash Argon2.longHash
  dsimp only
  rw [if_pos h]
  exact Blake2b.length_hash h _

namespace PasswordHash

/-! ## Fields -/

theorem isValueChar_letter {n : Nat} (h : n < 64) : isValueChar (Base64.letter n) = true := by
  have : ∀ m : Fin 64, isValueChar (Base64.letter m.val) = true := by decide
  exact this ⟨n, h⟩

theorem isValueChar_of_mem_encode {bytes : List UInt8} {c : Char} (h : c ∈ Base64.encode bytes) :
    isValueChar c = true := by
  obtain ⟨n, hn, rfl⟩ := Base64.exists_letter h
  exact isValueChar_letter hn

theorem not_mem_encode (bytes : List UInt8) : '$' ∉ Base64.encode bytes := fun h =>
  nomatch (show isValueChar '$' = false by decide).symm.trans (isValueChar_of_mem_encode h)

theorem make_eq (salt : List UInt8) (password : String) : make salt password = {
    algorithm := "argon2id"
    version := some 19
    params := [("m", "19456"), ("t", "2"), ("p", "1")]
    salt := some (Base64.encode salt)
    digest := some (Argon2.hash usual password.toUTF8.toList salt) } := by
  have hm : Text.natText usual.memory = "19456" := by decide +kernel
  have ht : Text.natText usual.passes = "2" := by decide +kernel
  have hp : Text.natText usual.lanes = "1" := by decide +kernel
  unfold make
  rw [hm, ht, hp]
  rfl

/-- What a hash of a password starts with. -/
theorem head_make (salt : List UInt8) (password : String) :
    (make salt password).head = "$argon2id$v=19$m=19456,t=2,p=1" := by
  have hclosed : (make [] "").head = "$argon2id$v=19$m=19456,t=2,p=1" := by decide +kernel
  exact hclosed

theorem param_eq {s name value : String}
    (hs : (s.toList.splitOnP (· == '=')).map String.ofList = [name, value])
    (hname : isName name = true) (hvalue : isValue value = true) :
    param? s = some (name, value) := by
  unfold param?
  rw [show s.splitOn "=" = [name, value] from (splitOn_eq s '=').trans hs]
  dsimp only
  rw [hname, hvalue]
  rfl

theorem params_usual :
    params? "m=19456,t=2,p=1" = some [("m", "19456"), ("t", "2"), ("p", "1")] := by
  have hsplit : "m=19456,t=2,p=1".splitOn "," = ["m=19456", "t=2", "p=1"] :=
    (splitOn_eq _ ',').trans (by decide +kernel)
  have hm : param? "m=19456" = some ("m", "19456") :=
    param_eq (by decide +kernel) (by decide +kernel) (by decide +kernel)
  have ht : param? "t=2" = some ("t", "2") :=
    param_eq (by decide +kernel) (by decide +kernel) (by decide +kernel)
  have hp : param? "p=1" = some ("p", "1") :=
    param_eq (by decide +kernel) (by decide +kernel) (by decide +kernel)
  unfold params?
  rw [if_neg (by decide +kernel), hsplit]
  simp only [List.mapM_cons, List.mapM_nil, hm, ht, hp]
  rfl

theorem readVersion_usual (rest : List String) :
    readVersion "argon2id" ("v=19" :: "m=19456,t=2,p=1" :: rest)
      = readEnd "argon2id" (some 19) [("m", "19456"), ("t", "2"), ("p", "1")] rest := by
  have hstart : "v=19".startsWith "v=" = true := by
    rw [String.startsWith_string_iff]
    decide +kernel
  have hcomma : "v=19".contains ',' = false := by
    rw [String.contains_char_eq]
    decide +kernel
  have hvalue : isValue (String.ofList ("v=19".toList.drop 2)) = true := by decide +kernel
  have hnumber : number? (String.ofList ("v=19".toList.drop 2)) = some 19 := by decide +kernel
  have hparams : "m=19456,t=2,p=1".contains '=' = true := by
    rw [String.contains_char_eq]
    decide +kernel
  unfold readVersion
  dsimp only
  rw [hstart, hcomma, hvalue, hnumber]
  unfold readParams
  dsimp only
  rw [hparams, params_usual]
  rfl

theorem splitOn_text_make (salt : List UInt8) (password : String) :
    (make salt password).text.splitOn "$" = ["", "argon2id", "v=19", "m=19456,t=2,p=1",
      String.ofList (Base64.encode salt),
      String.ofList (Base64.encode (Argon2.hash usual password.toUTF8.toList salt))] := by
  have htext : (make salt password).text.toList = "$argon2id$v=19$m=19456,t=2,p=1".toList ++
      '$' :: (Base64.encode salt ++
        '$' :: Base64.encode (Argon2.hash usual password.toUTF8.toList salt)) := by
    unfold text
    rw [head_make]
    simp [make]
  have hne : ∀ bytes, ∀ c ∈ Base64.encode bytes, (c == '$') = false := by
    intro bytes c hc
    exact beq_eq_false_iff_ne.2 fun he => not_mem_encode bytes (he ▸ hc)
  have hclosed : "$argon2id$v=19$m=19456,t=2,p=1".toList.splitOnP (· == '$')
      = ["".toList, "argon2id".toList, "v=19".toList, "m=19456,t=2,p=1".toList] := by
    decide +kernel
  rw [show (make salt password).text.splitOn "$" = _ from splitOn_eq _ '$', htext,
    List.splitOnP_append_cons _ _ rfl, List.splitOnP_append_cons _ _ rfl, hclosed,
    List.splitOnP_eq_singleton (hne _), List.splitOnP_eq_singleton (hne _)]
  simp

theorem salt_encode {salt : List UInt8} (h : 8 ≤ salt.length) (h' : salt.length ≤ 48) :
    salt? (String.ofList (Base64.encode salt)) = some (Base64.encode salt) := by
  have hlength := Base64.length_encode salt
  unfold salt? isValue
  rw [String.length_ofList, String.toList_ofList, if_pos]
  refine ⟨by omega, ?_⟩
  rw [Bool.and_eq_true, decide_eq_true_iff, List.all_eq_true]
  exact ⟨by omega, fun c hc => isValueChar_of_mem_encode hc⟩

theorem digest_encode {digest : List UInt8} (h : digest.length = 32) :
    digest? (String.ofList (Base64.encode digest)) = some digest := by
  unfold digest?
  rw [String.toList_ofList, Base64.decode?_encode, Option.filter_some, if_pos]
  rw [h]
  rfl

/-! ## The whole line -/

/-- A hash of a password is read as it was written. -/
theorem ofText?_text_make {salt : List UInt8} (h : 8 ≤ salt.length) (h' : salt.length ≤ 48)
    (password : String) : ofText? (make salt password).text = some (make salt password) := by
  have hdigest := Argon2.length_hash (p := usual) (by decide) password.toUTF8.toList salt
  unfold ofText?
  rw [splitOn_text_make]
  show (if isName "argon2id" then _ else none) = _
  rw [if_pos (by decide +kernel), readVersion_usual]
  show ((salt? _).bind fun s => (digest? _).bind fun d => some _) = _
  rw [salt_encode h h', digest_encode hdigest, make_eq]
  rfl

/-- A password is accepted for its own hash. -/
theorem accepts_make {salt : List UInt8} (h : 8 ≤ salt.length) (password : String) :
    (make salt password).accepts password = true := by
  have hdigest := Argon2.length_hash (p := usual) (by decide) password.toUTF8.toList salt
  have hparams : [("m", "19456"), ("t", "2"), ("p", "1")].foldlM
      (fun p e => applyParam p e.1 e.2) usual = some usual := by
    decide +kernel
  have hrecipe : (make salt password).recipe? = some (usual, salt) := by
    rw [make_eq]
    unfold recipe?
    dsimp only
    rw [show kind? "argon2id" = some .id by decide +kernel]
    simp only [Option.bind_eq_bind, Option.bind_some, Option.getD_some, hdigest]
    refine (congrArg (Option.bind · _) hparams).trans ?_
    rw [Option.bind_some, Base64.decode?_encode, Option.bind_some,
      if_pos ⟨by decide +kernel, h⟩]
    rfl
  unfold accepts
  rw [hrecipe]
  exact beq_self_eq_true _

end PasswordHash

end SwapFloor.Crypto

namespace SwapFloor.Password

open Crypto (PasswordHash)

variable {salt : List UInt8}

/-- A stored hash either accepts a password or does not. -/
theorem verify_make (h : 8 ≤ salt.length) (h' : salt.length ≤ 48) (password tried : String) :
    verify tried (PasswordHash.make salt password).text
      = if (PasswordHash.make salt password).accepts tried then .ok () else .error .wrong := by
  unfold verify
  rw [PasswordHash.ofText?_text_make h h']

/-- The hash can be read. -/
def Legible (hash : String) : Prop := ∀ p, verify p hash ≠ .error .malformedHash

theorem legible_make (h : 8 ≤ salt.length) (h' : salt.length ≤ 48) (password : String) :
    Legible (PasswordHash.make salt password).text := by
  intro p
  rw [verify_make h h']
  split
  · exact fun hc => nomatch hc
  · exact fun hc => nomatch hc

theorem verify_own (h : 8 ≤ salt.length) (h' : salt.length ≤ 48) (password : String) :
    verify password (PasswordHash.make salt password).text = .ok () := by
  rw [verify_make h h', if_pos (PasswordHash.accepts_make h password)]

/-! ## The check of a room -/

/-- A password that is not empty and gives the hash. -/
def Opens (hash : String) (password : Option String) : Prop :=
  ∃ p, password = some p ∧ p ≠ "" ∧ verify p hash = .ok ()

theorem check_eq_ok_iff {hash : String} {password : Option String} :
    check (some hash) password = .ok () ↔ Opens hash password := by
  unfold check
  cases password with
  | none => exact iff_of_false (fun h => nomatch h) fun ⟨_, hp, _⟩ => nomatch hp
  | some p =>
    dsimp only
    split
    · rename_i hempty
      refine iff_of_false (fun h => nomatch h) fun ⟨p', hp, hne, _⟩ => ?_
      exact hne (Option.some.inj hp ▸ hempty)
    · rename_i hne
      constructor
      · intro h
        refine ⟨p, rfl, hne, ?_⟩
        cases hv : verify p hash with
        | ok u => rfl
        | error e => exact nomatch hv ▸ h
      · rintro ⟨_, ⟨⟩, _, hv⟩
        rw [hv]
        rfl

/-- Whoever does not know a password is told no more than that. -/
theorem Legible.kind_of_check {hash : String} (hl : Legible hash) {password : Option String}
    {f : Failure} (h : check (some hash) password = .error f) : f.kind = .auth := by
  unfold check at h
  cases password with
  | none =>
    cases h
    rfl
  | some p =>
    dsimp only at h
    split at h
    · cases h
      rfl
    · cases hv : verify p hash with
      | ok u => exact nomatch hv ▸ h
      | error e =>
        rw [hv] at h
        cases h
        cases e with
        | wrong => rfl
        | malformedHash => exact absurd hv (hl p)

/-- A room that was asked to have a password has one. -/
theorem prepare_eq {p : String} {hash : Option String} (hne : p ≠ "")
    (h : prepare salt (some p) = .ok hash) : hash = some (PasswordHash.make salt p).text := by
  unfold prepare at h
  dsimp only at h
  rw [if_neg hne] at h
  split at h
  · cases h
  · exact (Except.ok.inj h).symm

end SwapFloor.Password
