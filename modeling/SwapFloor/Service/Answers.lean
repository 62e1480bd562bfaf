import SwapFloor.Http.Query
import SwapFloor.Service.Endpoint
import SwapFloor.Service.Forms
import SwapFloor.Service.Health
import SwapFloor.Service.Processing

/-!
# Answers to requests

What every endpoint answers. Whatever the service can say about a request goes into an envelope
that tells success from failure; the status of the reply is a good one all the same. A request for
a socket is checked first by its room and only then by its headers.
-/

namespace SwapFloor

/-! ## Envelopes -/

namespace Envelope

/-- The envelope of a success. -/
def ok (now : Instant) (data : Json) : Json :=
  .obj [("data", data), ("message", .str "ok"), ("success", .bool true),
    ("timestamp", .int now.seconds)]

/-- The envelope of a failure, with more about it. -/
def failed (now : Instant) (code message : String) (more : List (String × Json)) : Json :=
  .obj ([("code", .str code), ("data", .null)] ++ more ++ [("message", .str message),
    ("success", .bool false), ("timestamp", .int now.seconds)])

def ofFailure (now : Instant) (f : Failure) : Json := failed now f.code f.message []

/-- The envelope of a body that was refused. -/
def ofRefusal (now : Instant) : Http.Form.Refusal → Json
  | .unreadable message => failed now "INVALID_BODY" message []
  | .invalid violations =>
    let details := Json.obj (violations.map fun e => (e.1, .arr [e.2.toJson]))
    failed now "VALIDATION_ERROR" "잘못된 요청 파라미터" [("details", details)]

end Envelope

/-- An answer to a request. -/
inductive Answer where
  | reply (r : Http.Reply)
  /-- The connection is taken over by a socket, whose wallet comes in with a password. -/
  | socket (k : Socket) (password : Option String)
  /-- The operation broke off, and no answer comes. -/
  | brokenOff (b : Breakdown)

namespace Service

abbrev Answered := Service × Answer

def succeed (s : Service) (data : Json) : Answered := (s, .reply (.value (Envelope.ok s.now data)))

def fail (s : Service) (f : Failure) : Answered := (s, .reply (.value (Envelope.ofFailure s.now f)))

/-- Answers with what an operation gives, or with its failure. -/
def conclude {α : Type} (s : Service) (r : Except Failure (Service × α)) (f : α → Json) : Answered :=
  match r with
  | .ok (s, a) => s.succeed (f a)
  | .error e => s.fail e

/-- Answers with what a question gives, or with its failure. -/
def concludeQuestion {α : Type} (s : Service) (r : Except Failure α) (f : α → Json) : Answered :=
  s.conclude (r.map fun a => (s, a)) f

/-- Reads the body of a request first. -/
def withForm {α : Type} (s : Service) (form : Http.Form α) (r : Http.Request)
    (answer : α → Answered) : Answered :=
  match form.read r with
  | .ok a => answer a
  | .error e => (s, .reply (.value (Envelope.ofRefusal s.now e)))

/-- Reads the query of a request first. -/
def withQuery (s : Service) (known : List (String × Http.Query.Kind)) (r : Http.Request)
    (answer : List (String × String) → Answered) : Answered :=
  match Http.Query.read known r.query with
  | .ok pairs => answer pairs
  | .error f => (s, .reply (.plain 400 f.message))

/-! ## Rooms -/

/-- Answers a request for the rooms at a stage. -/
def listRooms (s : Service) (status : Option String) : Answered :=
  let answer := fun (status : Option Status) =>
    let rooms := s.lobby.list status
    s.succeed (.obj [("rooms", .arr (rooms.map (·.toJson))), ("total", .nat rooms.length)])
  match status.map Status.ofName? with
  | none => answer none
  | some (.ok status) => answer (some status)
  | some (.error f) => s.fail f

/-- What joining gave as JSON. -/
def joinedJson (j : Lobby.Joined) : Json :=
  .obj [("member", j.member.toJson), ("newlyJoined", .bool j.newly), ("room", j.room.toJson)]

/-- What leaving gave as JSON. -/
def leftJson (m : Option Member) : Json :=
  .obj [("left", .bool m.isSome), ("member", Json.ofOption (·.toJson) m)]

/-- The number of shared things that are listed: fifty unless asked otherwise, and from one to
two hundred. -/
def shareLimit (asked : Option Nat) : Nat := min (max (asked.getD 50) 1) 200

/-! ## Rankings and tags -/

/-- A limit of none. -/
def noLimit : Failure := ⟨.validation, "limit은 1 이상이어야 합니다"⟩

/-- What a request asks to be ranked, by what and how many. -/
def rankingAsked (pairs : List (String × String)) :
    Except Failure (Timeframe × Dimension × Nat) := do
  let timeframe ← match pairs.lookup "timeframe" with
    | some t => Timeframe.ofName? t
    | none => .ok .oneHour
  let dimension ← match pairs.lookup "dimension" with
    | some d => Dimension.ofName? d
    | none => .ok .count
  match Http.Query.count? pairs "limit" with
  | some 0 => .error noLimit
  | some n => .ok (timeframe, dimension, min n maxRankLimit)
  | none => .ok (timeframe, dimension, defaultRankLimit)

/-- Answers a request for a ranking. -/
def rankTokens (s : Service) (pairs : List (String × String)) : Answered :=
  match rankingAsked pairs with
  | .error f => s.fail f
  | .ok (timeframe, dimension, limit) =>
    match s.rankings.rank timeframe dimension limit s.now with
    | (rankings, .ok snapshot) => { s with rankings := rankings }.succeed snapshot.toJson
    | (rankings, .error b) => ({ s with rankings := rankings }, .brokenOff b)

def tagJson (wallet tag : String) : Json := .obj [("address", .str wallet), ("tag", .str tag)]

/-- The wallet has no tag. -/
def notTagged (wallet : String) : Failure := ⟨.notFound, s!"태그된 지갑이 아닙니다: {wallet}"⟩

/-- Answers a request to take the tag of a wallet away. -/
def untag (s : Service) (wallet : String) : Answered :=
  match s.tags.get? wallet with
  | some tag => { s with tags := s.tags.erase wallet }.succeed (tagJson wallet tag)
  | none => s.fail (notTagged wallet)

/-! ## Tokens -/

/-- No symbol was given. -/
def noSymbol : Failure := ⟨.validation, "symbol 파라미터가 필요합니다"⟩

/-- No token has this symbol. -/
def unknownSymbol (symbol : String) : Failure :=
  ⟨.notFound, s!"심볼에 해당하는 토큰이 없습니다: {symbol}"⟩

def unknownToken (mint : String) : Failure := ⟨.notFound, s!"토큰을 찾을 수 없습니다: {mint}"⟩

/-- The token that a symbol stands for among those in the archive. -/
def resolveToken (a : Archive) (symbol : String) : Except Failure Token :=
  if symbol = "" then .error noSymbol
  else
    match Token.preferred? (a.tokensOfSymbol symbol) with
    | some t => .ok t
    | none => .error (unknownSymbol symbol)

/-- The token that a symbol stands for, without the blanks around it. -/
def tokenOfSymbol (s : Service) (symbol : String) : Except Failure Token :=
  resolveToken s.archive (Text.trim symbol)

def tokenOfMint (s : Service) (mint : String) : Except Failure Token :=
  match s.archive.tokenOfMint? mint with
  | some t => .ok t
  | none => .error (unknownToken mint)

/-! ## Deliveries -/

/-- Answers the delivery of a batch; one that cannot be read is taken for an empty one. -/
def takeDelivery (s : Service) (r : Http.Request) : Answered :=
  let answer := fun (s : Service) (queued : Bool) (records : Nat) =>
    s.succeed (.obj [("queued", .bool queued), ("records", .nat records)])
  if r.isTooLong then (s, .reply (.plain 413 Http.bodyTooLong))
  else
    match Batch.fields.ofText "WebhookBatch" r.body with
    | .error _ => answer s false 0
    | .ok b =>
      if b.records.isEmpty then answer s false 0
      else
        let (s, queued) := s.submit (.batch b)
        answer s queued b.records.length

/-! ## Sockets -/

/-- No wallet was given. -/
def noWallet : Failure := ⟨.validation, "wallet 파라미터가 필요합니다"⟩

/-- Lets a wallet open a socket in a room. -/
def admitSocket (s : Service) (room wallet : String) (password : Option String) :
    Except Failure Socket := do
  let wallet := Text.trim wallet
  if wallet = "" then .error noWallet
  else
    let e ← s.lobby.openEntry room
    Password.check e.room.passwordHash password
    .ok ⟨room, wallet⟩

/-- The lower case of a header, empty in its absence. -/
def lowerHeader (r : Http.Request) (name : String) : String :=
  ((r.header? name).getD "").map Char.toLower

/-- Why the headers of a request are not those of a request for a socket. -/
def upgradeFault (r : Http.Request) : Option Http.Reply :=
  if r.method ≠ "GET" then some (.plain 405 "Request method must be `GET`")
  else if ((lowerHeader r "connection").splitOn "upgrade").length < 2 then
    some (.plain 400 "Connection header did not include 'upgrade'")
  else if lowerHeader r "upgrade" ≠ "websocket" then
    some (.plain 400 "`Upgrade` header did not include 'websocket'")
  else if (r.header? "sec-websocket-key").isNone then
    some (.plain 400 "`Sec-WebSocket-Key` header missing")
  else if (r.header? "sec-websocket-version").getD "" ≠ "13" then
    some (.plain 400 "`Sec-WebSocket-Version` header did not include '13'")
  else if !r.upgradable then
    some (.plain 426 "WebSocket request couldn't be upgraded since no upgrade state was present")
  else none

def offerSocket (s : Service) (room : String) (r : Http.Request) (pairs : List (String × String)) :
    Answered :=
  let password := pairs.lookup "password"
  match s.admitSocket room ((pairs.lookup "wallet").getD "") password with
  | .error f => s.fail f
  | .ok k =>
    match upgradeFault r with
    | some reply => (s, .reply reply)
    | none => (s, .socket k password)

/-! ## Endpoints -/

/-- Answers a request to put something to an endpoint. -/
def answerPost (s : Service) (e : Endpoint) (r : Http.Request) : Answered :=
  match e with
  | .rooms => s.withForm Forms.newRoom r fun q => s.conclude (s.createRoom q) (·.toJson)
  | .join id => s.withForm Forms.entry r fun q =>
    s.conclude (s.joinRoom id q.1 q.2) joinedJson
  | .leave id => s.withForm Forms.walletOnly r fun w => s.conclude (s.leaveRoom id w) leftJson
  | .close id => s.withForm Forms.walletOnly r fun w => s.conclude (s.closeRoom id w) (·.toJson)
  | .shares id => s.withForm Forms.share r fun q =>
    s.conclude (s.share id q.1 q.2) (·.toJson)
  | .tags => s.withForm Forms.tag r fun q =>
    { s with tags := s.tags.insert q.1 q.2 }.succeed (tagJson q.1 q.2)
  | .tokens => s.withForm Forms.token r fun t =>
    { s with archive := s.archive.saveToken t }.succeed t.toJson
  | .webhook => s.takeDelivery r
  | _ => (s, .reply (.bare 405))

def answerGet (s : Service) (e : Endpoint) (r : Http.Request) : Answered :=
  match e with
  | .health => (s, .reply (.plain 200 "OK"))
  | .ready => (s, .reply (.value (Health.report s)))
  | .rooms => s.withQuery [("status", .text)] r fun q => s.listRooms (q.lookup "status")
  | .room id => s.concludeQuestion (s.snapshot id) (·.toJson)
  | .shares id => s.withQuery [("limit", .count)] r fun q =>
    s.concludeQuestion (s.sharesOf id (shareLimit (Http.Query.count? q "limit")))
      fun shares => .arr (shares.map (·.toJson))
  | .ranking =>
    s.withQuery [("timeframe", .text), ("dimension", .text), ("limit", .count)] r s.rankTokens
  | .tags => s.succeed (.arr (s.tags.toList.map fun e => tagJson e.1 e.2))
  | .resolve => s.withQuery [("symbol", .text)] r fun q =>
    s.concludeQuestion (s.tokenOfSymbol ((q.lookup "symbol").getD "")) (·.toJson)
  | .token mint => s.concludeQuestion (s.tokenOfMint mint) (·.toJson)
  | .webhook => s.withQuery [("challenge", .text)] r fun q =>
    (s, .reply (.plain 200 ((q.lookup "challenge").getD "")))
  | .socket id => s.withQuery [("wallet", .text), ("password", .text)] r (s.offerSocket id r)
  | _ => (s, .reply (.bare 405))

/-- Answers a request with a method that the endpoint knows. -/
def answerEndpoint (s : Service) (e : Endpoint) (r : Http.Request) : Answered :=
  match e, r.method with
  | .tag address, _ => s.untag address
  | e, "POST" => s.answerPost e r
  | e, _ => s.answerGet e r

end Service

end SwapFloor
