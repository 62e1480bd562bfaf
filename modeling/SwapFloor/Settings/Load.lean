import SwapFloor.Settings.Basic
import SwapFloor.Text.Double
import SwapFloor.Toml.Document

/-!
# Loading settings

Settings come from a file and from environment variables, which win. Names count in any case. The
name of a variable is a path: behind the common beginning, double underscores divide its steps.

Both sources are lenient about kinds of values: a text that reads as a number may stand for one, a
number for its text, and so on, as far as a setting needs it.
-/

namespace SwapFloor.Settings

/-! ## Trees of values -/

/-- The members of a tree, none for a single value. -/
def membersOf : Json → List (String × Json)
  | .obj ms => ms
  | _ => []

/-- Puts a member in its place, or at the end. -/
def putMember (k : String) (v : Json) (ms : List (String × Json)) : List (String × Json) :=
  if ms.any (·.1 == k) then ms.map fun m => if m.1 = k then (k, v) else m else ms ++ [(k, v)]

mutual
/-- Lays a value over what is at a place; tables are laid over each other member by member. -/
def overlay (old : Option Json) : Json → Json
  | .obj ms =>
    match old, ms with
    | some old, [] => old
    | none, [] => .obj []
    | _, ms => .obj (overlayMembers (membersOf (old.getD .null)) ms)
  | v => v

/-- Lays members over those of a table. -/
def overlayMembers (table : List (String × Json)) :
    List (String × Json) → List (String × Json)
  | [] => table
  | (k, v) :: rest =>
    let k := Text.lowerCase k
    overlayMembers (putMember k (overlay (table.lookup k) v) table) rest
end

/-- Lays a value over the one at the end of a path. -/
def overlayAt (v : Json) : List String → Json → Json
  | [], old => overlay (some old) v
  | [k], old =>
    let ms := membersOf old
    .obj (putMember k (overlay (ms.lookup k) v) ms)
  | k :: ks, old =>
    let ms := membersOf old
    .obj (putMember k (overlayAt v ks ((ms.lookup k).getD .null)) ms)

/-- A character of a step in a path. -/
def isStepChar (c : Char) : Bool := Toml.isKeyChar c

/-- The steps of a path with dots; a text that is no path is a single step. -/
def steps (path : String) : List String :=
  let parts := path.splitOn "."
  if parts.all fun s => s != "" && s.toList.all isStepChar then parts else [path]

/-- Lays a named value over a tree. -/
def addSource (tree : Json) (name : String) (v : Json) : Json :=
  overlayAt v (steps (Text.lowerCase name)) tree

/-! ## The environment -/

/-- What the names of variables begin with. -/
def variableStart : String := "traderoom__"

/-- The value of a variable: a truth value, a number, or else a text. -/
def variableValue (s : String) : Json :=
  match Text.lowerCase s with
  | "true" => .bool true
  | "false" => .bool false
  | _ =>
    match (Text.signed? s.toList).filter fun n => -2 ^ 63 ≤ n && n < 2 ^ 63 with
    | some n => .int n
    | none =>
      match Text.double? s with
      | some x => .float x
      | none => .str s

/-- The path that the name of a variable stands for, if it is one for the service. -/
def variablePath? (name : String) : Option String :=
  let name := Text.lowerCase name
  if name.startsWith variableStart then
    some (String.intercalate "."
      ((String.ofList (name.toList.drop variableStart.length)).splitOn "__"))
  else none

/-! ## Lenient kinds -/

inductive Kind where
  | truth
  | natural
  | integer
  | text
  deriving DecidableEq

/-- The texts that stand for a truth value; `digits` adds those of one digit. -/
def truthOfText? (digits : Bool) (s : String) : Option Bool :=
  match Text.lowerCase s with
  | "true" | "on" | "yes" => some true
  | "false" | "off" | "no" => some false
  | "1" => if digits then some true else none
  | "0" => if digits then some false else none
  | _ => none

/-- The integer nearest to a double, a half going away from zero. -/
def roundHalfAway (x : Float) : Float :=
  let whole := x.abs.floor
  let up := if x.abs - whole ≥ 0.5 then whole + 1.0 else whole
  if x < 0 then -up else up

/-- A value as a truth value. -/
def asTruth : Json → Option Json
  | .bool b => some (.bool b)
  | .int n => some (.bool (n != 0))
  | .float x => some (.bool (x != 0.0))
  | .str s => (truthOfText? true s).map .bool
  | _ => none

/-- A truth value as a number. -/
def ofTruth (b : Bool) : Json := .int (if b then 1 else 0)

/-- A value as a number from zero on. -/
def asNatural : Json → Option Json
  | .bool b => some (ofTruth b)
  | .int n => if 0 ≤ n then some (.int n) else none
  | .float x => some (.nat (roundHalfAway x).toUInt64.toNat)
  | .str s =>
    match truthOfText? false s with
    | some b => some (ofTruth b)
    | none => ((Text.unsigned? s.toList).filter (· < 2 ^ 64)).map .nat
  | _ => none

/-- A value as a number. -/
def asInteger : Json → Option Json
  | .bool b => some (ofTruth b)
  | .int n => some (.int n)
  | .float x => some (.int (roundHalfAway x).toInt64.toInt)
  | .str s =>
    match truthOfText? false s with
    | some b => some (ofTruth b)
    | none => ((Text.signed? s.toList).filter fun n => -2 ^ 63 ≤ n && n < 2 ^ 63).map .int
  | _ => none

/-- A value as a text. -/
def asText : Json → Option Json
  | .bool b => some (.str (if b then "true" else "false"))
  | .int n => some (.str (Text.intText n))
  | .float x => some (.str (Binary.plainText x))
  | .str s => some (.str s)
  | _ => none

/-- A value as one of a kind. -/
def Kind.read : Kind → Json → Option Json
  | .truth => asTruth
  | .natural => asNatural
  | .integer => asInteger
  | .text => asText

/-- The kinds of all settings, by group and name. -/
def kinds : List (String × List (String × Kind)) :=
  [("server", [("host", .text), ("port", .natural), ("request_timeout_secs", .natural)]),
    ("rate_limit", [("enabled", .truth), ("capacity", .natural),
      ("refill_interval_secs", .natural), ("idle_eviction_secs", .natural),
      ("sweep_interval_secs", .natural)]),
    ("websocket", [("outbound_buffer", .natural), ("write_timeout_ms", .natural),
      ("max_idle_secs", .natural), ("prune_interval_secs", .natural),
      ("require_recipients", .truth)]),
    ("ingest", [("queue_capacity", .natural), ("dedup_retention_secs", .natural),
      ("dedup_sweep_secs", .natural), ("enrich_concurrency", .natural), ("quote_mint", .text)]),
    ("provider", [("ws_url", .text), ("rpc_url", .text), ("commitment", .text),
      ("encoding", .text), ("request_timeout_ms", .natural), ("retry_base_ms", .natural),
      ("retry_max_ms", .natural), ("retry_interval_secs", .natural)]),
    ("rooms", [("default_recycle_hours", .integer), ("reaper_interval_secs", .natural)]),
    ("logging", [("level", .text), ("format", .text)])]

/-- Reads the members of a group as the kinds that they should have. -/
def readGroup (group : List (String × Kind)) (v : Json) : Option Json :=
  match v with
  | .obj ms => (ms.mapM fun (k, v) =>
      match group.lookup k with
      | some kind => (kind.read v).map fun v => (k, v)
      | none => some (k, v)).map .obj
  | _ => none

/-- Reads a tagged wallet. -/
def readWallet (v : Json) : Option Json := readGroup [("address", .text), ("tag", .text)] v

/-- Reads the group of tagged wallets. -/
def readWallets (v : Json) : Option Json :=
  match v with
  | .obj ms => (ms.mapM fun (m : String × Json) =>
      if m.1 = "wallets" then
        match m.2 with
        | .arr items => (items.mapM readWallet).map fun ws => (m.1, Json.arr ws)
        | _ => none
      else some m).map .obj
  | _ => none

def readGroups (tree : Json) : Option Json :=
  ((membersOf tree).mapM fun (k, v) =>
    if k = "smart_money" then (readWallets v).map fun v => (k, v)
    else match kinds.lookup k with
      | some group => (readGroup group v).map fun v => (k, v)
      | none => some (k, v)).map .obj

/-! ## Loading -/

/-- The sources hold no settings. -/
def unreadable : Failure := ⟨.validation, "설정 로드 실패"⟩

/-- The tree of all sources: the text of a file, if there is one, and variables. -/
def sourceTree (file : Option String) (env : List (String × String)) : Option Json := do
  let members ← match file with
    | none => some []
    | some text => (Toml.read? text).map membersOf
  let tree := members.foldl (fun tree (k, v) => addSource tree k v) (Json.obj [])
  some (env.foldl (fun tree (name, v) =>
    match variablePath? name with
    | some path => addSource tree path (variableValue v)
    | none => tree) tree)

/-- Loads settings and checks them. -/
def load (file : Option String) (env : List (String × String)) : Except Failure Settings :=
  match (sourceTree file env).bind readGroups with
  | none => .error unreadable
  | some tree =>
    match decoder tree with
    | .error _ => .error unreadable
    | .ok s => s.check.map fun () => s

/-- Loaded settings are valid. -/
theorem check_of_load {file : Option String} {env : List (String × String)} {s : Settings}
    (h : load file env = .ok s) : s.check = .ok () := by
  unfold load at h
  split at h
  · simp at h
  · split at h
    · simp at h
    · rename_i s' _
      cases hc : s'.check with
      | error e => simp [hc, Except.map] at h
      | ok u =>
        simp only [hc, Except.map, Except.ok.injEq] at h
        rw [← h]
        exact hc

end SwapFloor.Settings
