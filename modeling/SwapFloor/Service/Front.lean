import SwapFloor.Service.Answers
import SwapFloor.Service.Sockets

/-!
# The front

Every request is counted when it comes in and when it is answered. In between it passes the rate
limiter, unless it asks for the health of the service, and finds its endpoint. A path that stands
for nothing and a method that its endpoint does not know are refused only behind the limiter.
-/

namespace SwapFloor

/-! ## Clients -/

/-- The host of an address, without its port and without square brackets. -/
def hostOfAddress (address : String) : String :=
  let cs := (address.toList.reverse.dropWhile (· != ':')).tail.reverse
  String.ofList (cs.filter fun c => c != '[' && c != ']')

/-- What names a client to the limiter: the first address that the request was forwarded for, else
its real address as a header gives it, else where it comes from. -/
def clientKey (r : Http.Request) : String :=
  let forwarded := (r.visibleHeader? "x-forwarded-for").map fun v =>
    Text.trim (String.ofList (v.toList.takeWhile (· != ',')))
  let real := (r.visibleHeader? "x-real-ip").map Text.trim
  match forwarded.filter (· != ""), real.filter (· != "") with
  | some key, _ => key
  | none, some key => key
  | none, none => (r.peer.map hostOfAddress).getD "unknown"

/-- The reply to a client that asks too often. -/
def limitedReply (seconds : Nat) : Http.Reply where
  status := 429
  content := .json (.obj [("code", .str "RATE_LIMITED"),
    ("message", .str "Rate limit exceeded. Please try again later."),
    ("retry_after", .nat seconds), ("success", .bool false)])
  retryAfter := some seconds

namespace Service

/-! ## Layers -/

/-- Answers a request that has come through to its path. -/
def answerPath (s : Service) (r : Http.Request) : Option Endpoint → Answered
  | none => (s, .reply (.bare 404))
  | some e =>
    if e.methods.contains r.method then
      match e.decoded with
      | .ok e => s.answerEndpoint e r
      | .error message => (s, .reply (.plain 400 message))
    else (s, .reply (.bare 405))

/-- Counts what the limiter says. -/
def countVerdict (s : Service) (status : String) : Service :=
  s.count "rate_limit_requests_total" [("status", status)] 1

/-- Lets a request pass the limiter, if there is one. -/
def answerLimited (s : Service) (r : Http.Request) (e : Option Endpoint) : Answered :=
  if !s.settings.rateLimit.enabled || (e.map (·.isUnlimited)).getD false then s.answerPath r e
  else
    match s.limiter.check (clientKey r) s.elapsedMs with
    | (limiter, .allowed) => ({ s with limiter := limiter }.countVerdict "allowed").answerPath r e
    | (limiter, .limited seconds) =>
      ({ s with limiter := limiter }.countVerdict "limited", .reply (limitedReply seconds))

/-- A reply as it goes out: with the methods of the endpoint if it does not know the one asked for,
and without content if only the head was asked for. -/
def finishReply (r : Http.Request) (e : Option Endpoint) (reply : Http.Reply) : Http.Reply :=
  let known := match e with
    | some e => if e.methods.contains r.method then none else some (String.intercalate "," e.methods)
    | none => none
  let reply := { reply with allow := known }
  if r.method = "HEAD" then reply.head else reply

/-- Counts a request that was answered with a status. -/
def countReply (s : Service) (r : Http.Request) (status : Nat) : Service :=
  s.count "http_responses_total" [("method", r.method), ("path", Metrics.pathLabel r.path),
    ("status", Text.natText status)] 1

def answer (s : Service) (r : Http.Request) : Answered :=
  let s := s.count "http_requests_total" [("method", r.method),
    ("path", Metrics.pathLabel r.path)] 1
  let e := Endpoint.ofPath r.path
  match s.answerLimited r e with
  | (s, .brokenOff b) => (s, .brokenOff b)
  | (s, .socket k password) => (s.countReply r 101, .socket k password)
  | (s, .reply reply) => (s.countReply r reply.status, .reply (finishReply r e reply))

/-- What a request for a connection gives. -/
inductive Connected where
  | opened (id : ConnectionId)
  | refused (r : Http.Reply)
  | brokenOff (b : Breakdown)

/-- Answers a request for a connection, and opens the socket if there is to be one. -/
def connect (s : Service) (r : Http.Request) : Service × Connected :=
  match s.answer r with
  | (s, .reply reply) => (s, .refused reply)
  | (s, .brokenOff b) => (s, .brokenOff b)
  | (s, .socket k password) =>
    let (s, id) := s.openSocket k.room k.wallet password
    (s, .opened id)

end Service

end SwapFloor
