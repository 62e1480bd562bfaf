/-!
# Failures

What an operation of the service can refuse to do or fail at. A failure has a kind, which decides
its code and who gets to see it, and a detail, which names the case; every detail is written once,
in the constructor function of its cause.

A decimal sum that is out of range, or a span of hours that is, does not fail: it breaks the
operation off where it stands.
-/

namespace SwapFloor

inductive Failure.Kind where
  | validation
  | notFound
  | auth
  | forbidden
  | closedRoom
  | parse
  | duplicate
  | transport
  | provider
  | internal
  deriving DecidableEq

/-- A failure of some kind with its detail. -/
structure Failure where
  kind : Failure.Kind
  detail : String
  deriving DecidableEq

namespace Failure

/-- All kinds with the names they are asked for by. -/
def Kind.named : List (String × Kind) :=
  [("Validation", .validation), ("NotFound", .notFound), ("Auth", .auth),
    ("Forbidden", .forbidden), ("ClosedRoom", .closedRoom), ("Parse", .parse),
    ("Duplicate", .duplicate), ("Transport", .transport), ("Provider", .provider),
    ("Internal", .internal)]

def Kind.name : Kind → String
  | .validation => "Validation"
  | .notFound => "NotFound"
  | .auth => "Auth"
  | .forbidden => "Forbidden"
  | .closedRoom => "ClosedRoom"
  | .parse => "Parse"
  | .duplicate => "Duplicate"
  | .transport => "Transport"
  | .provider => "Provider"
  | .internal => "Internal"

/-- The code of a kind in answers. -/
def Kind.code : Kind → String
  | .validation => "VALIDATION_ERROR"
  | .notFound => "NOT_FOUND"
  | .auth => "AUTH_ERROR"
  | .forbidden => "FORBIDDEN"
  | .closedRoom => "ROOM_CLOSED"
  | .parse => "PARSE_ERROR"
  | .duplicate => "DUPLICATE"
  | .transport => "TRANSPORT_ERROR"
  | .provider => "PROVIDER_ERROR"
  | .internal => "INTERNAL_ERROR"

/-- What stands before the detail of a kind. -/
def Kind.label : Kind → String
  | .validation => "잘못된 입력"
  | .notFound => "찾을 수 없음"
  | .auth => "인증 실패"
  | .forbidden => "권한 없음"
  | .closedRoom => "종료된 룸"
  | .parse => "파싱 에러"
  | .duplicate => "중복 트랜잭션"
  | .transport => "전송 에러"
  | .provider => "프로바이더 에러"
  | .internal => "내부 에러"

/-- Breaks a rule of the service and is shown to the caller as it is. -/
def Kind.surfaced : Kind → Bool
  | .validation | .notFound | .auth | .forbidden | .closedRoom => true
  | _ => false

/-- May succeed when tried again. -/
def Kind.retryable : Kind → Bool
  | .provider | .transport => true
  | _ => false

/-- The code of a failure in answers. -/
def code (f : Failure) : String := f.kind.code

/-- The text of a failure. -/
def message (f : Failure) : String := f.kind.label ++ ": " ++ f.detail

theorem not_surfaced_of_retryable {k : Kind} (h : k.retryable = true) : k.surfaced = false := by
  cases k <;> simp_all [Kind.retryable, Kind.surfaced]

/-! ## Causes -/

def roomNotFound (id : String) : Failure := ⟨.notFound, s!"룸을 찾을 수 없습니다: {id}"⟩

def roomClosed (id : String) : Failure := ⟨.closedRoom, id⟩

/-- Someone other than its creator closes a room. -/
def notCreator (id : String) : Failure := ⟨.forbidden, s!"룸 생성자만 종료할 수 있습니다: {id}"⟩

/-- A room without a creator. -/
def blankCreator : Failure := ⟨.validation, "생성자 지갑 주소가 비어 있습니다"⟩

/-- A member without a wallet. -/
def blankWallet : Failure := ⟨.validation, "지갑 주소가 비어 있습니다"⟩

/-- Someone who is no active member acts as one. -/
def notMember (wallet : String) : Failure := ⟨.forbidden, s!"룸의 활성 멤버가 아닙니다: {wallet}"⟩

/-- Something is shared without an address. -/
def blankUrl : Failure := ⟨.validation, "공유 URL이 비어 있습니다"⟩

end Failure

/-- Why an operation broke off. -/
inductive Breakdown where
  | addition
  | subtraction
  | hours
  deriving DecidableEq

/-- The text of a breakdown. -/
def Breakdown.message : Breakdown → String
  | .addition => "Addition overflowed"
  | .subtraction => "Subtraction overflowed"
  | .hours => "TimeDelta::hours out of bounds"

/-- What keeps an operation from completing. -/
inductive Trouble where
  | failure (f : Failure)
  | breakdown (b : Breakdown)
  deriving DecidableEq

/-- What succeeds has got through its first step, and then through the rest. -/
theorem bind_eq_ok_iff {ε α β : Type} {x : Except ε α} {f : α → Except ε β} {b : β} :
    x >>= f = .ok b ↔ ∃ a, x = .ok a ∧ f a = .ok b := by
  constructor
  · intro h
    cases x with
    | error e => cases h
    | ok a => exact ⟨a, rfl, h⟩
  · rintro ⟨a, rfl, h⟩
    exact h

/-- What fails has failed at its first step or behind it. -/
theorem bind_eq_error_iff {ε α β : Type} {x : Except ε α} {f : α → Except ε β} {e : ε} :
    x >>= f = .error e ↔ x = .error e ∨ ∃ a, x = .ok a ∧ f a = .error e := by
  constructor
  · intro h
    cases x with
    | error e' => exact Or.inl (congrArg _ (Except.error.inj h))
    | ok a => exact Or.inr ⟨a, rfl, h⟩
  · rintro (rfl | ⟨a, rfl, h⟩)
    · rfl
    · exact h

end SwapFloor
