import SwapFloor.Url.Percent

/-!
# Endpoints

What the paths of the service stand for, and the methods that each of them knows. A part of a path
that names something is a single segment that is not empty; it may hide bytes behind percent signs,
which have to be UTF-8. A path with a slash at its end stands for nothing. Main statement: a path
that a name is put into stands for that name (`ofSegments_room`).
-/

namespace SwapFloor

/-- What a path stands for. -/
inductive Endpoint where
  | health
  | ready
  | rooms
  | room (id : String)
  | join (id : String)
  | leave (id : String)
  | close (id : String)
  | shares (id : String)
  | ranking
  | tags
  | tag (address : String)
  | tokens
  | resolve
  | token (mint : String)
  | webhook
  | socket (id : String)
  deriving DecidableEq

namespace Endpoint

/-- An endpoint whose name is not empty. -/
def named (e : String → Endpoint) (name : String) : Option Endpoint :=
  if name = "" then none else some (e name)

/-- The endpoint of the segments of a path, names as they were written. -/
def ofSegments : List String → Option Endpoint
  | ["health"] => some .health
  | ["health", "ready"] => some .ready
  | ["api", "v1", "rooms"] => some .rooms
  | ["api", "v1", "rooms", id] => named .room id
  | ["api", "v1", "rooms", id, "join"] => named .join id
  | ["api", "v1", "rooms", id, "leave"] => named .leave id
  | ["api", "v1", "rooms", id, "close"] => named .close id
  | ["api", "v1", "rooms", id, "shared-info"] => named .shares id
  | ["api", "v1", "ranking"] => some .ranking
  | ["api", "v1", "ranking", "smart-money"] => some .tags
  | ["api", "v1", "ranking", "smart-money", address] => named .tag address
  | ["api", "v1", "tokens"] => some .tokens
  | ["api", "v1", "tokens", "resolve"] => some .resolve
  | ["api", "v1", "tokens", mint] => named .token mint
  | ["api", "v1", "webhook"] => some .webhook
  | ["ws", "rooms", id] => named .socket id
  | _ => none

/-- The endpoint of a path, names as they were written. -/
def ofPath (path : String) : Option Endpoint :=
  match path.splitOn "/" with
  | "" :: segments => ofSegments segments
  | _ => none

/-- The methods that an endpoint knows. -/
def methods : Endpoint → List String
  | .rooms | .shares _ | .webhook => ["POST", "GET", "HEAD"]
  | .tags => ["GET", "HEAD", "POST"]
  | .join _ | .leave _ | .close _ | .tokens => ["POST"]
  | .tag _ => ["DELETE"]
  | .health | .ready | .room _ | .ranking | .resolve | .token _ | .socket _ => ["GET", "HEAD"]

/-- Answers everyone, however often they ask. -/
def isUnlimited : Endpoint → Bool
  | .health | .ready => true
  | _ => false

/-- A name behind its percent signs, or what is wrong with it. -/
def nameIn (part : String) (e : String → Endpoint) (name : String) : Except String Endpoint :=
  match Url.Percent.text? name with
  | some n => .ok (e n)
  | none => .error s!"Invalid URL: Invalid UTF-8 in `{part}`"

/-- The endpoint with its name behind the percent signs, or what is wrong with the name. -/
def decoded : Endpoint → Except String Endpoint
  | .room id => nameIn "room_id" .room id
  | .join id => nameIn "room_id" .join id
  | .leave id => nameIn "room_id" .leave id
  | .close id => nameIn "room_id" .close id
  | .shares id => nameIn "room_id" .shares id
  | .socket id => nameIn "room_id" .socket id
  | .tag address => nameIn "address" .tag address
  | .token mint => nameIn "mint" .token mint
  | e => .ok e

theorem ofSegments_room {id : String} (h : id ≠ "") :
    ofSegments ["api", "v1", "rooms", id] = some (.room id) := by
  simp [ofSegments, named, h]

theorem methods_ne_nil (e : Endpoint) : e.methods ≠ [] := by
  cases e <;> simp [methods]

end Endpoint

end SwapFloor
