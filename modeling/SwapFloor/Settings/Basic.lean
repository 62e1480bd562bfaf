import SwapFloor.Failure
import SwapFloor.Text.LowerCase
import SwapFloor.Trade

/-!
# Settings

The settings of the service with their defaults. Every field may be left out. A few values must
be positive; the first one that is not is named (`Settings.check`).
-/

namespace SwapFloor.Settings

/-- Where the service listens. -/
structure Server where
  host : String := "127.0.0.1"
  port : UInt16 := 3000
  requestTimeoutSecs : Nat := 30
  deriving Inhabited

/-- How many requests a client may make. -/
structure RateLimit where
  enabled : Bool := true
  /-- Requests in a full bucket. -/
  capacity : Nat := 120
  /-- Seconds after which a bucket is full again. -/
  refillSecs : Nat := 60
  /-- Seconds after which an unused bucket may be dropped. -/
  idleSecs : Nat := 3600
  /-- Seconds between two sweeps. -/
  sweepSecs : Nat := 300
  deriving Inhabited

/-- How connections are served. -/
structure Sockets where
  /-- Frames that wait for a connection. -/
  outboundBuffer : Nat := 256
  writeTimeoutMs : Nat := 5000
  /-- Seconds without a ping after which a connection is dropped. -/
  maxIdleSecs : Nat := 120
  pruneSecs : Nat := 30
  /-- A broadcast to nobody is a failure. -/
  requireRecipients : Bool := false
  deriving Inhabited

/-- How transactions are taken in. -/
structure Ingest where
  queueCapacity : Nat := 1024
  dedupRetentionSecs : Nat := 3600
  dedupSweepSecs : Nat := 60
  /-- Transactions that are fetched at the same time. -/
  enrichConcurrency : Nat := 16
  quoteMint : String := nativeMint
  deriving Inhabited

/-- How the node provider is reached. -/
structure Provider where
  wsUrl : Option String := none
  rpcUrl : Option String := none
  commitment : String := "confirmed"
  encoding : String := "jsonParsed"
  requestTimeoutMs : Nat := 10000
  retryBaseMs : Nat := 1000
  retryMaxMs : Nat := 60000
  retryIntervalSecs : Nat := 5
  deriving Inhabited

/-- How rooms are recycled. -/
structure Rooms where
  defaultRecycleHours : Int64 := 24
  reaperSecs : Nat := 60
  deriving Inhabited

/-- A wallet that is worth watching. -/
structure TaggedWallet where
  address : String
  tag : String
  deriving DecidableEq

/-- What is logged, and in which form. -/
structure Logging where
  level : String := "info"
  format : String := "pretty"
  deriving Inhabited

inductive LogFormat where
  | pretty
  | json
  | compact
  deriving DecidableEq

def LogFormat.name : LogFormat → String
  | .pretty => "Pretty"
  | .json => "Json"
  | .compact => "Compact"

/-- The form with a name, in any case. -/
def LogFormat.ofName? (s : String) : Except String LogFormat :=
  match Text.lowerCase s with
  | "pretty" => .ok .pretty
  | "json" => .ok .json
  | "compact" => .ok .compact
  | _ => .error s!"Unknown log format: {s}"

/-- The form that is used; an unknown one gives the pretty one. -/
def Logging.form (l : Logging) : LogFormat :=
  match LogFormat.ofName? l.format with
  | .ok f => f
  | .error _ => .pretty

end Settings

open Settings in
structure Settings where
  server : Server := {}
  rateLimit : RateLimit := {}
  sockets : Sockets := {}
  ingest : Ingest := {}
  provider : Provider := {}
  rooms : Rooms := {}
  smartMoney : List TaggedWallet := []
  logging : Logging := {}
  deriving Inhabited

namespace Settings

/-! ## JSON -/

open Json (Fields defaulted string boolean uint16 count option record required int64)

/-- A 32-bit count. -/
def count32 : Json.Decoder Nat := fun j => (Json.integer 0 (2 ^ 32) "u32" j).map Int.toNat

/-- The fields about listening. -/
def Server.fields : Fields Server :=
  let d : Server := {}
  Server.mk <$> defaulted "host" string d.host <*> defaulted "port" uint16 d.port
    <*> defaulted "request_timeout_secs" (count "u64") d.requestTimeoutSecs

/-- The fields about requests. -/
def RateLimit.fields : Fields RateLimit :=
  let d : RateLimit := {}
  RateLimit.mk <$> defaulted "enabled" boolean d.enabled
    <*> defaulted "capacity" count32 d.capacity
    <*> defaulted "refill_interval_secs" (count "u64") d.refillSecs
    <*> defaulted "idle_eviction_secs" (count "u64") d.idleSecs
    <*> defaulted "sweep_interval_secs" (count "u64") d.sweepSecs

/-- Limits on requests from JSON. -/
def RateLimit.decoder : Json.Decoder RateLimit := record "RateLimitSettings" RateLimit.fields

/-- The fields about connections. -/
def Sockets.fields : Fields Sockets :=
  let d : Sockets := {}
  Sockets.mk <$> defaulted "outbound_buffer" (count "usize") d.outboundBuffer
    <*> defaulted "write_timeout_ms" (count "u64") d.writeTimeoutMs
    <*> defaulted "max_idle_secs" (count "u64") d.maxIdleSecs
    <*> defaulted "prune_interval_secs" (count "u64") d.pruneSecs
    <*> defaulted "require_recipients" boolean d.requireRecipients

/-- The fields about transactions. -/
def Ingest.fields : Fields Ingest :=
  let d : Ingest := {}
  Ingest.mk <$> defaulted "queue_capacity" (count "usize") d.queueCapacity
    <*> defaulted "dedup_retention_secs" (count "u64") d.dedupRetentionSecs
    <*> defaulted "dedup_sweep_secs" (count "u64") d.dedupSweepSecs
    <*> defaulted "enrich_concurrency" (count "usize") d.enrichConcurrency
    <*> defaulted "quote_mint" string d.quoteMint

/-- The fields about the provider. -/
def Provider.fields : Fields Provider :=
  let d : Provider := {}
  Provider.mk <$> defaulted "ws_url" (option string) none
    <*> defaulted "rpc_url" (option string) none
    <*> defaulted "commitment" string d.commitment <*> defaulted "encoding" string d.encoding
    <*> defaulted "request_timeout_ms" (count "u64") d.requestTimeoutMs
    <*> defaulted "retry_base_ms" (count "u64") d.retryBaseMs
    <*> defaulted "retry_max_ms" (count "u64") d.retryMaxMs
    <*> defaulted "retry_interval_secs" (count "u64") d.retryIntervalSecs

def Provider.decoder : Json.Decoder Provider := record "ProviderConfig" Provider.fields

/-- The fields about rooms. -/
def Rooms.fields : Fields Rooms :=
  let d : Rooms := {}
  Rooms.mk <$> defaulted "default_recycle_hours" int64 d.defaultRecycleHours
    <*> defaulted "reaper_interval_secs" (count "u64") d.reaperSecs

def TaggedWallet.fields : Fields TaggedWallet :=
  TaggedWallet.mk <$> required "address" string <*> required "tag" string

/-- The fields about wallets worth watching. -/
def walletFields : Fields (List TaggedWallet) :=
  defaulted "wallets" (Json.list (record "SmartMoneyWallet" TaggedWallet.fields)) []

/-- The fields about logging. -/
def Logging.fields : Fields Logging :=
  let d : Logging := {}
  Logging.mk <$> defaulted "level" string d.level <*> defaulted "format" string d.format

def fields : Fields Settings :=
  Settings.mk <$> defaulted "server" (record "ServerConfig" Server.fields) {}
    <*> defaulted "rate_limit" RateLimit.decoder {}
    <*> defaulted "websocket" (record "WebSocketConfig" Sockets.fields) {}
    <*> defaulted "ingest" (record "IngestConfig" Ingest.fields) {}
    <*> defaulted "provider" Provider.decoder {}
    <*> defaulted "rooms" (record "RoomsConfig" Rooms.fields) {}
    <*> defaulted "smart_money" (record "SmartMoneyConfig" walletFields) []
    <*> defaulted "logging" (record "LoggingConfig" Logging.fields) {}

def decoder : Json.Decoder Settings := record "AppConfig" fields

def toJson (s : Settings) : Json :=
  .obj [
    ("ingest", .obj [("dedup_retention_secs", .nat s.ingest.dedupRetentionSecs),
      ("dedup_sweep_secs", .nat s.ingest.dedupSweepSecs),
      ("enrich_concurrency", .nat s.ingest.enrichConcurrency),
      ("queue_capacity", .nat s.ingest.queueCapacity), ("quote_mint", .str s.ingest.quoteMint)]),
    ("logging", .obj [("format", .str s.logging.format), ("level", .str s.logging.level)]),
    ("provider", .obj [("commitment", .str s.provider.commitment),
      ("encoding", .str s.provider.encoding),
      ("request_timeout_ms", .nat s.provider.requestTimeoutMs),
      ("retry_base_ms", .nat s.provider.retryBaseMs),
      ("retry_interval_secs", .nat s.provider.retryIntervalSecs),
      ("retry_max_ms", .nat s.provider.retryMaxMs), ("rpc_url", Json.optStr s.provider.rpcUrl),
      ("ws_url", Json.optStr s.provider.wsUrl)]),
    ("rate_limit", .obj [("capacity", .nat s.rateLimit.capacity),
      ("enabled", .bool s.rateLimit.enabled), ("idle_eviction_secs", .nat s.rateLimit.idleSecs),
      ("refill_interval_secs", .nat s.rateLimit.refillSecs),
      ("sweep_interval_secs", .nat s.rateLimit.sweepSecs)]),
    ("rooms", .obj [("default_recycle_hours", .int s.rooms.defaultRecycleHours.toInt),
      ("reaper_interval_secs", .nat s.rooms.reaperSecs)]),
    ("server", .obj [("host", .str s.server.host), ("port", .nat s.server.port.toNat),
      ("request_timeout_secs", .nat s.server.requestTimeoutSecs)]),
    ("smart_money", .obj [("wallets", .arr (s.smartMoney.map fun w =>
      .obj [("address", .str w.address), ("tag", .str w.tag)]))]),
    ("websocket", .obj [("max_idle_secs", .nat s.sockets.maxIdleSecs),
      ("outbound_buffer", .nat s.sockets.outboundBuffer),
      ("prune_interval_secs", .nat s.sockets.pruneSecs),
      ("require_recipients", .bool s.sockets.requireRecipients),
      ("write_timeout_ms", .nat s.sockets.writeTimeoutMs)])]

/-! ## Validity -/

def notPositive (key : String) : Failure := ⟨.validation, s!"{key}는 0보다 커야 합니다"⟩

/-- The values that must be positive, by name, in the order in which they are checked. -/
def positives (s : Settings) : List (String × Nat) :=
  [("rate_limit.capacity", s.rateLimit.capacity),
    ("rate_limit.refill_interval_secs", s.rateLimit.refillSecs),
    ("websocket.outbound_buffer", s.sockets.outboundBuffer),
    ("websocket.write_timeout_ms", s.sockets.writeTimeoutMs),
    ("ingest.queue_capacity", s.ingest.queueCapacity),
    ("ingest.dedup_retention_secs", s.ingest.dedupRetentionSecs),
    ("ingest.enrich_concurrency", s.ingest.enrichConcurrency),
    ("rooms.reaper_interval_secs", s.rooms.reaperSecs),
    ("provider.retry_base_ms", s.provider.retryBaseMs)]

/-- Refuses settings of which a value that must be positive is not. -/
def check (s : Settings) : Except Failure Unit :=
  match s.positives.find? fun e => e.2 == 0 with
  | some e => .error (notPositive e.1)
  | none =>
    if s.rooms.defaultRecycleHours ≤ 0 then .error (notPositive "rooms.default_recycle_hours")
    else .ok ()

theorem check_default : check {} = .ok () := by rfl

/-- Accepted settings have positive values wherever they have to be. -/
theorem pos_of_check {s : Settings} (h : s.check = .ok ()) : ∀ e ∈ s.positives, 0 < e.2 := by
  intro e he
  unfold check at h
  split at h
  · simp at h
  · rename_i hn
    have := List.find?_eq_none.1 hn e he
    simp only [beq_iff_eq] at this
    omega

end Settings

end SwapFloor
