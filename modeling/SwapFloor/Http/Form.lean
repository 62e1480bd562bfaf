import SwapFloor.Http.Constraint
import SwapFloor.Http.MediaType
import SwapFloor.Http.Message
import SwapFloor.Json.TextRecord

/-!
# Forms

What a request carries in its body: a record in JSON whose fields satisfy constraints. A body is
refused because it is no such record, or because of all the constraints that its fields violate.
-/

namespace SwapFloor.Http

/-- The most bytes of a body. -/
abbrev bodyLimit : Nat := 2 * 1024 * 1024

/-- A body that is too long, in words. -/
def bodyTooLong : String := "Failed to buffer the request body: length limit exceeded"

def Request.isTooLong (r : Request) : Bool := bodyLimit < r.body.utf8ByteSize

/-- A record in the body of a request. -/
structure Form (α : Type) where
  /-- The name of the record in messages. -/
  name : String
  fields : Json.Fields α
  /-- The constraints by field, each met or violated. -/
  constraints : α → List (String × Option Violation) := fun _ => []

namespace Form

/-- Why a body is refused. -/
inductive Refusal where
  /-- It is no such record. -/
  | unreadable (message : String)
  /-- Its fields violate constraints. -/
  | invalid (violations : List (String × Violation))

/-- A fault in a text in words. -/
def faultMessage (text : String) (f : Json.Fault) : String :=
  let located := f.located text
  if f.cause.isTextual then s!"Failed to parse the request body as JSON: {located}"
  else s!"Failed to deserialize the JSON body into the target type: {located}"

/-- The record in the body of a request, whatever constraints it violates. -/
def decode {α : Type} (form : Form α) (r : Request) : Except Refusal α :=
  if !((r.visibleHeader? "content-type").map MediaType.isJson).getD false then
    .error (.unreadable "Expected request with `Content-Type: application/json`")
  else if r.isTooLong then .error (.unreadable bodyTooLong)
  else (form.fields.ofText form.name r.body).mapError fun f => .unreadable (faultMessage r.body f)

/-- The constraints that a record violates. -/
def violations {α : Type} (form : Form α) (a : α) : List (String × Violation) :=
  (form.constraints a).filterMap fun e => e.2.map fun v => (e.1, v)

/-- The record in the body of a request. -/
def read {α : Type} (form : Form α) (r : Request) : Except Refusal α := do
  let a ← form.decode r
  if (form.violations a).isEmpty then .ok a else .error (.invalid (form.violations a))

/-- A record that was read meets all constraints. -/
theorem violations_of_read {α : Type} {form : Form α} {r : Request} {a : α}
    (h : form.read r = .ok a) : form.violations a = [] := by
  unfold read at h
  cases hd : form.decode r with
  | error e => simp [hd, bind, Except.bind] at h
  | ok b =>
    simp only [hd, bind, Except.bind] at h
    split at h
    · rename_i hv
      simp only [Except.ok.injEq] at h
      subst h
      exact List.isEmpty_iff.1 hv
    · simp at h

end Form

end SwapFloor.Http
