import SwapFloor.Json.Basic
import SwapFloor.Text.Blank

/-!
# Requests and replies

A request as it comes in, with the target already cut into path and query, and the reply to it.
-/

namespace SwapFloor.Http

structure Request where
  method : String := "GET"
  /-- The path as it was written, percent signs and all. -/
  path : String
  query : String := ""
  headers : List (String × String) := []
  body : String := ""
  /-- The address and port that the request comes from. -/
  peer : Option String := none
  /-- The connection may be taken over for frames. -/
  upgradable : Bool := false

namespace Request

/-- The path and the query of a target; what follows a `#` does not count. -/
def splitTarget (target : String) : String × String :=
  let cs := target.toList.takeWhile (· != '#')
  (String.ofList (cs.takeWhile (· != '?')), String.ofList (cs.dropWhile (· != '?')).tail)

/-- The value of a header, whatever the case of its name. -/
def header? (r : Request) (name : String) : Option String :=
  (r.headers.find? fun h => Text.eqIgnoreAsciiCase h.1 name).map Prod.snd

/-- A character that may be seen in a header, or a tab. -/
def isVisible (c : Char) : Bool := c == '\t' || (' ' ≤ c && c ≤ '~')

/-- The value of a header that holds only visible ASCII. -/
def visibleHeader? (r : Request) (name : String) : Option String :=
  (r.header? name).filter fun v => v.toList.all isVisible

end Request

/-- What a reply says. -/
inductive Content where
  | empty
  | text (s : String)
  | json (j : Json)

structure Reply where
  status : Nat := 200
  content : Content
  /-- The methods that the path knows, where the one asked for is none of them. -/
  allow : Option String := none
  /-- Seconds to wait before the next request. -/
  retryAfter : Option Nat := none

namespace Reply

/-- A reply that says nothing. -/
def bare (status : Nat) : Reply := { status := status, content := .empty }

/-- A reply in plain words. -/
def plain (status : Nat) (s : String) : Reply := { status := status, content := .text s }

def value (j : Json) : Reply := { content := .json j }

/-- The same reply without what it says. -/
def head (r : Reply) : Reply := { r with content := .empty }

@[simp] theorem head_status (r : Reply) : r.head.status = r.status := rfl

end Reply

end SwapFloor.Http
