import SwapFloor.Crypto.PasswordHash
import SwapFloor.Room.Basic

/-!
# Passwords of rooms

A room may have a password, of which only a hash is kept. An empty password is none.
-/

namespace SwapFloor.Password

open SwapFloor.Crypto (PasswordHash)

/-- The most characters of a password. -/
abbrev maxLength : Nat := 64

/-- Why a password is not accepted. -/
inductive Refusal where
  /-- It does not give the stored hash. -/
  | wrong
  /-- What is stored is no hash. -/
  | malformedHash
  deriving DecidableEq

/-- A refusal in words. -/
def Refusal.message : Refusal → String
  | .wrong => "비밀번호 검증 실패"
  | .malformedHash => "잘못된 해시 형식"

/-- A refusal as a failure of the service. -/
def Refusal.failure : Refusal → Failure
  | .wrong => ⟨.auth, "비밀번호가 일치하지 않습니다"⟩
  | .malformedHash => ⟨.internal, Refusal.malformedHash.message⟩

/-- Compares a password with a stored hash. -/
def verify (password hash : String) : Except Refusal Unit :=
  match PasswordHash.ofText? hash with
  | none => .error .malformedHash
  | some h => if h.accepts password then .ok () else .error .wrong

def tooLong : Failure := ⟨.validation, s!"비밀번호는 최대 {maxLength}자입니다"⟩

/-- A password is needed and none was given. -/
def missing : Failure := ⟨.auth, "비밀번호가 필요한 룸입니다"⟩

/-- The hash to store for a new room's password under a fresh salt; none without a password. -/
def prepare (salt : List UInt8) (password : Option String) : Except Failure (Option String) :=
  match password with
  | none => .ok none
  | some p =>
    if p = "" then .ok none
    else if maxLength < p.length then .error tooLong
    else .ok (some (PasswordHash.make salt p).text)

/-- Lets a password pass for a stored hash; without one anything passes. -/
def check (hash : Option String) (password : Option String) : Except Failure Unit :=
  match hash with
  | none => .ok ()
  | some h =>
    match password with
    | none => .error missing
    | some p => if p = "" then .error missing else (verify p h).mapError Refusal.failure

@[simp] theorem check_none (password : Option String) : check none password = .ok () := rfl

theorem prepare_eq_none_iff {salt : List UInt8} {password : Option String} :
    prepare salt password = .ok none ↔ password = none ∨ password = some "" := by
  unfold prepare
  split
  · simp
  · split
    · simp_all
    · split <;> simp_all

end SwapFloor.Password
