import SwapFloor.Failure
import SwapFloor.Decimal.OfFloat
import SwapFloor.Json.Leaves

/-!
# Transaction records

A transaction as a node provider reports it: accounts, instructions, and the balances before and
after. An amount of a token comes in up to three representations, of which the first usable one
counts.
-/

namespace SwapFloor

/-- An account of a transaction. -/
inductive AccountKey where
  | plain (key : String)
  | parsed (key : String) (signer : Bool)
  deriving DecidableEq

namespace AccountKey

/-- The public key of an account. -/
def pubkey : AccountKey → String
  | .plain k => k
  | .parsed k _ => k

/-- The account is marked as having signed. -/
def isSigner : AccountKey → Bool
  | .plain _ => false
  | .parsed _ s => s

open Json in
/-- The fields of an account that is more than a key. -/
def fields : Fields AccountKey :=
  AccountKey.parsed <$> required "pubkey" string <*> defaulted "signer" boolean false

/-- An account from JSON: a text, or an object with a key. -/
def decoder : Json.Decoder AccountKey := fun j =>
  let misfit := .error (.reason "data did not match any variant of untagged enum AccountKey")
  match j with
  | .str s => .ok (.plain s)
  | .obj members =>
    match fields.ofMembers members with
    | .ok k => .ok k
    | .error _ => misfit
  | _ => misfit

def toJson : AccountKey → Json
  | .plain k => .str k
  | .parsed k s => .obj [("pubkey", .str k), ("signer", .bool s)]

end AccountKey

/-- An instruction of a transaction. -/
structure Instruction where
  programId : String
  accounts : List String
  deriving DecidableEq

namespace Instruction

open Json in
def fields : Fields Instruction :=
  Instruction.mk <$> required "programId" string <*> defaulted "accounts" (Json.list string) []

def decoder : Json.Decoder Instruction := Json.record "MatchedInstruction" fields

def toJson (i : Instruction) : Json :=
  .obj [("accounts", .arr (i.accounts.map .str)), ("programId", .str i.programId)]

end Instruction

/-- An amount of a token in up to three representations. -/
structure TokenAmount where
  /-- Whole units, to be divided by `10 ^ decimals`. -/
  amount : Option String
  decimals : Option UInt32
  uiAmount : Option Float
  uiAmountString : Option String

namespace TokenAmount

/-- No representation. -/
def none : TokenAmount := ⟨.none, .none, .none, .none⟩

/-- A signed number of 128 bits. -/
def int128? (s : String) : Option Int :=
  (Text.signed? s.toList).filter fun n => -2 ^ 127 ≤ n && n < 2 ^ 127

/-- The whole units with their decimals, if both are there, the decimals are within the scale of
a decimal and the units are a number of 128 bits. -/
def units? (a : TokenAmount) : Option (Int × Nat) := do
  let text ← a.amount
  let decimals ← a.decimals
  if decimals.toNat ≤ 28 then
    let n ← int128? text
    pure (n, decimals.toNat)
  else .none

/-- The amount: its text if that is a decimal; otherwise the whole units with their decimals, if
they are given, even when they do not fit a decimal; otherwise the double. -/
def toDecimal? (a : TokenAmount) : Option Decimal :=
  match a.uiAmountString.bind Decimal.ofText? with
  | some d => some d
  | .none =>
    match a.units? with
    | some (n, decimals) => Decimal.ofIntScaled? n decimals
    | .none => a.uiAmount.bind Decimal.ofFloat?

open Json in
def fields : Fields TokenAmount :=
  TokenAmount.mk <$> defaulted "amount" (option string) .none
    <*> defaulted "decimals" (option uint32) .none
    <*> defaulted "uiAmount" (option double) .none
    <*> defaulted "uiAmountString" (option string) .none

def decoder : Json.Decoder TokenAmount := Json.record "UiTokenAmount" fields

def toJson (a : TokenAmount) : Json :=
  .obj [("amount", Json.optStr a.amount),
    ("decimals", Json.ofOption (fun n => .nat n.toNat) a.decimals),
    ("uiAmount", Json.ofOption Json.ofDouble a.uiAmount),
    ("uiAmountString", Json.optStr a.uiAmountString)]

end TokenAmount

/-- What an account holds of a token. -/
structure TokenBalance where
  accountIndex : Option UInt64
  mint : String
  owner : Option String
  amount : TokenAmount

namespace TokenBalance

open Json in
def fields : Fields TokenBalance :=
  TokenBalance.mk <$> defaulted "accountIndex" (option (uint64As "usize")) none
    <*> required "mint" string <*> defaulted "owner" (option string) none
    <*> defaulted "uiTokenAmount" TokenAmount.decoder TokenAmount.none

def decoder : Json.Decoder TokenBalance := Json.record "TokenBalance" fields

def toJson (b : TokenBalance) : Json :=
  .obj [("accountIndex", Json.ofOption (fun n => .nat n.toNat) b.accountIndex),
    ("mint", .str b.mint), ("owner", Json.optStr b.owner), ("uiTokenAmount", b.amount.toJson)]

end TokenBalance

/-- A reported transaction. -/
structure TxRecord where
  signature : String
  slot : UInt64
  /-- Seconds since the start of 1970. -/
  blockTime : Option Int64
  trackedAddress : Option String
  /-- The signer, where it is given and not to be found among the accounts. -/
  signer : Option String
  accountKeys : List AccountKey
  instructions : List Instruction
  /-- Lamports by account before the transaction. -/
  preBalances : List UInt64
  /-- Lamports by account after the transaction. -/
  postBalances : List UInt64
  preTokenBalances : List TokenBalance
  postTokenBalances : List TokenBalance
  logMessages : List String

namespace TxRecord

open Json in
def fields : Fields TxRecord :=
  TxRecord.mk <$> required "signature" string <*> defaulted "slot" uint64 0
    <*> defaulted "blockTime" (option int64) none
    <*> defaulted "trackedAddress" (option string) none
    <*> defaulted "signer" (option string) none
    <*> defaulted "accountKeys" (Json.list AccountKey.decoder) []
    <*> defaulted "matchedInstructions" (Json.list Instruction.decoder) []
    <*> defaulted "preBalances" (Json.list uint64) []
    <*> defaulted "postBalances" (Json.list uint64) []
    <*> defaulted "preTokenBalances" (Json.list TokenBalance.decoder) []
    <*> defaulted "postTokenBalances" (Json.list TokenBalance.decoder) []
    <*> defaulted "logMessages" (Json.list string) []

def decoder : Json.Decoder TxRecord := Json.record "MatchedTransaction" fields

def toJson (r : TxRecord) : Json :=
  .obj [("accountKeys", .arr (r.accountKeys.map (·.toJson))),
    ("blockTime", Json.ofOption (fun n => .int n.toInt) r.blockTime),
    ("logMessages", .arr (r.logMessages.map .str)),
    ("matchedInstructions", .arr (r.instructions.map (·.toJson))),
    ("postBalances", .arr (r.postBalances.map fun n => .nat n.toNat)),
    ("postTokenBalances", .arr (r.postTokenBalances.map (·.toJson))),
    ("preBalances", .arr (r.preBalances.map fun n => .nat n.toNat)),
    ("preTokenBalances", .arr (r.preTokenBalances.map (·.toJson))),
    ("signature", .str r.signature), ("signer", Json.optStr r.signer),
    ("slot", .nat r.slot.toNat), ("trackedAddress", Json.optStr r.trackedAddress)]

/-- A record from JSON, or the failure to read it. -/
def ofJson (j : Json) : Except Failure TxRecord :=
  match decoder j with
  | .ok r => .ok r
  | .error m => .error ⟨.parse, m.message⟩

end TxRecord

/-- Records that were delivered together. -/
structure Batch where
  /-- The block time of records without one of their own. -/
  blockTime : Option Int64
  records : List Json

namespace Batch

open Json in
def fields : Fields Batch :=
  Batch.mk <$> defaulted "blockTime" (option int64) none
    <*> (defaulted "matchedTransactions" (Json.list any) []).reaching .wholeArray

def decoder : Json.Decoder Batch := Json.record "WebhookBatch" fields

def toJson (b : Batch) : Json :=
  .obj [("blockTime", Json.ofOption (fun n => .int n.toInt) b.blockTime),
    ("matchedTransactions", .arr b.records)]

end Batch

/-- The provider's word that a transaction touched a watched address. -/
structure LogNotice where
  subscription : UInt64
  slot : UInt64
  signature : String
  logs : List String
  /-- Why the transaction failed, if it did. -/
  err : Option Json

namespace LogNotice

/-- The transaction failed. -/
def isFailed (n : LogNotice) : Bool := n.err.isSome

open Json in
/-- The fields about the transaction itself. -/
def valueFields : Fields (String × List String × Option Json) :=
  (fun s l e => (s, l, e)) <$> required "signature" string
    <*> defaulted "logs" (Json.list string) [] <*> defaulted "err" (option any) none

open Json in
def resultFields : Fields (UInt64 × String × List String × Option Json) :=
  (fun c v => (c, v))
    <$> defaulted "context" (record "NotificationContext" (defaulted "slot" uint64 0)) 0
    <*> required "value" (record "NotificationValue" valueFields)

open Json in
def paramFields : Fields LogNotice :=
  (fun (slot, signature, logs, err) id => ⟨id, slot, signature, logs, err⟩)
    <$> required "result" (record "NotificationResult" resultFields)
    <*> required "subscription" uint64

open Json in
def noticeFields : Fields (String × LogNotice) :=
  (fun m p => (m, p)) <$> required "method" string
    <*> required "params" (record "NotificationParams" paramFields)

/-- A notification from JSON, none for any other message. -/
def ofJson? (j : Json) : Option LogNotice :=
  match Json.record "NotificationEnvelope" noticeFields j with
  | .ok (method, n) => if method = "logsNotification" then some n else none
  | .error _ => none

end LogNotice

end SwapFloor
