import SwapFloor.Ingest.Record
import SwapFloor.Json.TextRecord

/-!
# Looking transactions up

A notice names a transaction by its signature only; a node is asked for the rest. A node may not
know a transaction yet, so it is asked again, up to three times, and the last answer decides. A
transaction that failed counts as unknown.

Main statement: a look-up asks at least once and at most three times (`asked_pos`, `asked_le`).
-/

namespace SwapFloor.TxLookup

/-! ## Questions -/

/-- How often a node is asked for one transaction. -/
abbrev attempts : Nat := 3

/-- Question number `id`. -/
def question (commitment signature : String) (id : Nat) : Json :=
  .obj [("id", .nat id), ("jsonrpc", .str "2.0"), ("method", .str "getTransaction"),
    ("params", .arr [.str signature, .obj [("commitment", .str commitment),
      ("encoding", .str "jsonParsed"), ("maxSupportedTransactionVersion", .int 0)]])]

/-! ## Transactions as a node tells them -/

/-- What a node tells about the course of a transaction. -/
structure Course where
  err : Option Json
  preBalances : List UInt64
  postBalances : List UInt64
  preTokenBalances : List TokenBalance
  postTokenBalances : List TokenBalance
  logMessages : Option (List String)
  /-- The programs called from within instructions, by instruction. -/
  inner : Option (List (List (Option String)))

/-- A transaction as a node tells it. -/
structure Told where
  slot : UInt64
  blockTime : Option Int64
  course : Option Course
  accountKeys : List AccountKey
  /-- The program of each instruction, where it is given. -/
  programs : List (Option String)

open Json (Fields defaulted required option record string uint64 int64 any)

/-- The program of an instruction. -/
def programOf : Json.Decoder (Option String) :=
  record "RpcInstruction" (defaulted "programId" (option string) none)

/-- The fields about the course of a transaction. -/
def Course.fields : Fields Course :=
  let group := record "RpcInnerInstructions" (defaulted "instructions" (Json.list programOf) [])
  Course.mk <$> defaulted "err" (option any) none
    <*> defaulted "preBalances" (Json.list uint64) []
    <*> defaulted "postBalances" (Json.list uint64) []
    <*> defaulted "preTokenBalances" (Json.list TokenBalance.decoder) []
    <*> defaulted "postTokenBalances" (Json.list TokenBalance.decoder) []
    <*> defaulted "logMessages" (option (Json.list string)) none
    <*> defaulted "innerInstructions" (option (Json.list group)) none

/-- The fields of the message of a transaction. -/
def messageFields : Fields (List AccountKey × List (Option String)) :=
  Prod.mk <$> defaulted "accountKeys" (Json.list AccountKey.decoder) []
    <*> defaulted "instructions" (Json.list programOf) []

/-- The fields of a transaction. -/
def Told.fields : Fields Told :=
  let body := record "RpcTransactionBody" (required "message" (record "RpcMessage" messageFields))
  (fun slot time course (keys, programs) => ⟨slot, time, course, keys, programs⟩)
    <$> defaulted "slot" uint64 0 <*> defaulted "blockTime" (option int64) none
    <*> defaulted "meta" (option (record "RpcMeta" Course.fields)) none
    <*> required "transaction" body

def Told.decoder : Json.Decoder Told := record "RpcTransaction" Told.fields

/-- The record of a transaction, unless it failed or its course is not told. -/
def Told.record? (t : Told) (signature : String) : Option TxRecord :=
  match t.course with
  | none => none
  | some c =>
    if c.err.isSome then none
    else
      let programs := t.programs ++ (c.inner.getD []).flatten
      some {
        signature := signature
        slot := t.slot
        blockTime := t.blockTime
        trackedAddress := none
        signer := none
        accountKeys := t.accountKeys
        instructions := programs.filterMap fun p => p.map fun id => ⟨id, []⟩
        preBalances := c.preBalances
        postBalances := c.postBalances
        preTokenBalances := c.preTokenBalances
        postTokenBalances := c.postTokenBalances
        logMessages := c.logMessages.getD [] }

/-! ## Replies -/

/-- What a question is met with. -/
inductive Reply where
  /-- The connection was closed. -/
  | closed
  | answer (status : Nat) (body : String)

/-- Replies of these statuses have no body. -/
def isBodiless (status : Nat) : Bool := status = 204 || status = 304

/-- No reply came from an address. -/
def unanswered (url : String) : Failure :=
  ⟨.provider, s!"getTransaction 요청 실패: error sending request for url ({url})"⟩

/-- The reply from an address has the status of an error. -/
def badStatus (url : String) (status : Nat) : Failure :=
  let side := if status < 500 then "client" else "server"
  let number := Text.natText status
  ⟨.provider,
    s!"getTransaction 응답 상태 오류: HTTP status {side} error ({number}) for url ({url})"⟩

/-- The body of the reply cannot be read. -/
def badBody : Failure :=
  ⟨.parse, "getTransaction 응답 파싱 실패: error decoding response body"⟩

/-- The node says that it failed. -/
def refused (error : Json) : Failure := ⟨.provider, "getTransaction RPC 에러: " ++ error.text⟩

/-- The fields of a body: the result and the error. -/
def bodyFields : Fields (Option Json × Option Json) :=
  Prod.mk <$> (defaulted "result" (option any) none).reaching .whole
    <*> (defaulted "error" (option any) none).reaching .whole

/-- What a body says about a transaction. -/
def ofBody (signature body : String) : Except Failure (Option TxRecord) :=
  match bodyFields.ofText "RpcResponse" body with
  | .error _ => .error badBody
  | .ok (_, some e) => .error (refused e)
  | .ok (none, none) => .ok none
  | .ok (some result, none) =>
    match Told.decoder result with
    | .ok t => .ok (t.record? signature)
    | .error m => .error ⟨.parse, m.message⟩

/-- What a reply from an address says about a transaction. -/
def ofReply (url signature : String) : Reply → Except Failure (Option TxRecord)
  | .closed => .error (unanswered url)
  | .answer status body =>
    if 400 ≤ status ∧ status < 600 then .error (badStatus url status)
    else ofBody signature (if isBodiless status then "" else body)

/-! ## Asking -/

def isFound : Except Failure (Option TxRecord) → Bool
  | .ok (some _) => true
  | _ => false

/-- Asks up to `n + 1` times, from question number `id` on, until a record is found. Gives the
last answer and how often it asked. -/
def asking (answer : Nat → Except Failure (Option TxRecord)) :
    Nat → Nat → Except Failure (Option TxRecord) × Nat
  | 0, id => (answer id, 1)
  | n + 1, id =>
    let a := answer id
    if isFound a then (a, 1)
    else
      let (a, asked) := asking answer n (id + 1)
      (a, asked + 1)

/-- Looks a transaction up; `answer` says what each question is answered with. Gives the outcome
and how often it asked. -/
def lookUp (answer : Nat → Except Failure (Option TxRecord)) (id : Nat) :
    Except Failure (Option TxRecord) × Nat :=
  asking answer (attempts - 1) id

/-! ## Small lemmas -/

theorem asking_le (answer : Nat → Except Failure (Option TxRecord)) (n id : Nat) :
    (asking answer n id).2 ≤ n + 1 := by
  induction n generalizing id with
  | zero => simp [asking]
  | succ n ih =>
    unfold asking
    dsimp only
    split
    · simp
    · have := ih (id + 1)
      simp only
      omega

theorem asking_pos (answer : Nat → Except Failure (Option TxRecord)) (n id : Nat) :
    0 < (asking answer n id).2 := by
  cases n with
  | zero => simp [asking]
  | succ n =>
    unfold asking
    dsimp only
    split <;> simp

theorem asked_le (answer : Nat → Except Failure (Option TxRecord)) (id : Nat) :
    (lookUp answer id).2 ≤ attempts :=
  asking_le answer (attempts - 1) id

theorem asked_pos (answer : Nat → Except Failure (Option TxRecord)) (id : Nat) :
    0 < (lookUp answer id).2 :=
  asking_pos answer (attempts - 1) id

theorem record?_failed {t : Told} {c : Course} (h : t.course = some c) (hf : c.err.isSome)
    (signature : String) : t.record? signature = none := by
  simp [Told.record?, h, hf]

theorem signature_of_record? {t : Told} {signature : String} {r : TxRecord}
    (h : t.record? signature = some r) : r.signature = signature := by
  unfold Told.record? at h
  split at h
  · cases h
  · split at h
    · cases h
    · cases h
      rfl

theorem signature_of_ofBody {signature body : String} {r : TxRecord}
    (h : ofBody signature body = .ok (some r)) : r.signature = signature := by
  unfold ofBody at h
  split at h
  · cases h
  · cases h
  · cases h
  · split at h
    · exact signature_of_record? (Except.ok.inj h)
    · cases h

theorem signature_of_ofReply {url signature : String} {reply : Reply} {r : TxRecord}
    (h : ofReply url signature reply = .ok (some r)) : r.signature = signature := by
  cases reply with
  | closed => cases h
  | answer status body =>
    unfold ofReply at h
    dsimp only at h
    split at h
    · cases h
    · exact signature_of_ofBody h

theorem asking_fst (answer : Nat → Except Failure (Option TxRecord)) (n id : Nat) :
    ∃ k, (asking answer n id).1 = answer k := by
  induction n generalizing id with
  | zero => exact ⟨id, rfl⟩
  | succ n ih =>
    unfold asking
    dsimp only
    split
    · exact ⟨id, rfl⟩
    · exact ih (id + 1)

/-- A record that is found is the one that was looked for. -/
theorem signature_of_lookUp {url signature : String} {replies : Nat → Reply} {id : Nat}
    {r : TxRecord} (h : (lookUp (fun k => ofReply url signature (replies k)) id).1 = .ok (some r)) :
    r.signature = signature := by
  obtain ⟨k, hk⟩ := asking_fst (fun k => ofReply url signature (replies k)) (attempts - 1) id
  exact signature_of_ofReply (hk.symm.trans h)

end SwapFloor.TxLookup
