import SwapFloor.Failure
import SwapFloor.Text.LowerCase
import SwapFloor.Trade

/-!
# Rankings

Tokens are ranked over the last hour, six hours or day by the number of trades, the quote that
flowed in by buys, or the quote that flowed out by sales.
-/

namespace SwapFloor

/-- The spans of time over which tokens are ranked. -/
inductive Timeframe where
  | oneHour
  | sixHours
  | oneDay
  deriving DecidableEq

namespace Timeframe

/-- All timeframes, shortest first. -/
def all : List Timeframe := [.oneHour, .sixHours, .oneDay]

def hours : Timeframe → Nat
  | .oneHour => 1
  | .sixHours => 6
  | .oneDay => 24

/-- The length of a timeframe. -/
def span (f : Timeframe) : Int := f.hours * Instant.perHour

/-- The earliest block time that still counts. -/
def horizon (f : Timeframe) (now : Instant) : Instant := now.minus f.span

def name : Timeframe → String
  | .oneHour => "1h"
  | .sixHours => "6h"
  | .oneDay => "24h"

def ofName? : String → Except Failure Timeframe
  | "1h" => .ok .oneHour
  | "6h" => .ok .sixHours
  | "24h" => .ok .oneDay
  | other => .error ⟨.validation, s!"지원하지 않는 timeframe: {other} (1h, 6h, 24h)"⟩

def decoder : Json.Decoder Timeframe :=
  Json.constant [("1h", .oneHour), ("6h", .sixHours), ("24h", .oneDay)]

theorem ofName?_name (f : Timeframe) : ofName? f.name = .ok f := by cases f <;> rfl

end Timeframe

/-- What tokens are ranked by. -/
inductive Dimension where
  | count
  | inflow
  | outflow
  deriving DecidableEq

namespace Dimension

def all : List Dimension := [.count, .inflow, .outflow]

def name : Dimension → String
  | .count => "count"
  | .inflow => "inflow"
  | .outflow => "outflow"

/-- The dimension with a name, in any case. -/
def ofName? (s : String) : Except Failure Dimension :=
  match Text.lowerCase s with
  | "count" => .ok .count
  | "inflow" => .ok .inflow
  | "outflow" => .ok .outflow
  | other => .error ⟨.validation, s!"지원하지 않는 랭킹 기준: {other} (count, inflow, outflow)"⟩

def decoder : Json.Decoder Dimension :=
  Json.constant [("count", .count), ("inflow", .inflow), ("outflow", .outflow)]

end Dimension

/-- A trade that is counted in rankings, with the tag of the wallet that made it. -/
structure TaggedTrade where
  trade : Trade
  tag : Option String
  deriving DecidableEq

namespace TaggedTrade

/-- The tag of a wallet, as a field beside those of the trade. -/
def tagFields : Json.Fields (Option String) := Json.optional "walletTag" Json.string

/-- A tagged trade from JSON: the members of the trade and the tag side by side. -/
def decoder : Json.Decoder TaggedTrade
  | .obj members => do
    let tag ← tagFields.ofMembers members
    let trade ← Trade.fields.ofMembers members
    pure ⟨trade, tag⟩
  | j => .error (.invalidType j.found "struct SmartMoneyTransaction")

def toJson (t : TaggedTrade) : Json :=
  .obj (t.trade.members ++ [("walletTag", Json.optStr t.tag)])

end TaggedTrade

/-- The place of a token in a ranking, and what it is ranked by. -/
structure TokenRanking where
  tokenMint : String
  transactionCount : Nat
  buyCount : Nat
  sellCount : Nat
  /-- Quote spent on buys. -/
  buyVolume : Decimal
  /-- Quote received from sales. -/
  sellVolume : Decimal
  uniqueBuyers : Nat
  uniqueSellers : Nat
  /-- Counted from one. -/
  rank : Nat
  deriving DecidableEq

/-- A count of at most 96 bits as a decimal. -/
def Decimal.ofCount (n : Nat) : Decimal := (Decimal.ofInt? n).getD .zero

namespace TokenRanking

/-- The value that a dimension ranks by. -/
def metric (r : TokenRanking) : Dimension → Decimal
  | .count => .ofCount r.transactionCount
  | .inflow => r.buyVolume
  | .outflow => r.sellVolume

open Json in
/-- The fields of a place. -/
def fields : Fields TokenRanking :=
  TokenRanking.mk <$> required "tokenMint" string
    <*> required "transactionCount" (count "u64") <*> required "buyCount" (count "u64")
    <*> required "sellCount" (count "u64") <*> required "buyVolume" decimal
    <*> required "sellVolume" decimal <*> required "uniqueBuyers" (count "usize")
    <*> required "uniqueSellers" (count "usize") <*> required "rank" (count "usize")

/-- A place from JSON. -/
def decoder : Json.Decoder TokenRanking := Json.record "TokenRanking" fields

/-- A place as JSON. -/
def toJson (r : TokenRanking) : Json :=
  .obj [("buyCount", .nat r.buyCount), ("buyVolume", Json.ofDecimal r.buyVolume),
    ("rank", .nat r.rank), ("sellCount", .nat r.sellCount),
    ("sellVolume", Json.ofDecimal r.sellVolume), ("tokenMint", .str r.tokenMint),
    ("transactionCount", .nat r.transactionCount), ("uniqueBuyers", .nat r.uniqueBuyers),
    ("uniqueSellers", .nat r.uniqueSellers)]

end TokenRanking

structure RankingSnapshot where
  timeframe : Timeframe
  dimension : Dimension
  asOf : Instant
  rankings : List TokenRanking
  deriving DecidableEq

namespace RankingSnapshot

open Json in
def fields : Fields RankingSnapshot :=
  RankingSnapshot.mk <$> required "timeframe" Timeframe.decoder
    <*> required "dimension" Dimension.decoder <*> required "asOf" instant
    <*> required "rankings" (Json.list TokenRanking.decoder)

def decoder : Json.Decoder RankingSnapshot := Json.record "RankingSnapshot" fields

def toJson (s : RankingSnapshot) : Json :=
  .obj [("asOf", Json.ofInstant s.asOf), ("dimension", .str s.dimension.name),
    ("rankings", .arr (s.rankings.map (·.toJson))), ("timeframe", .str s.timeframe.name)]

end RankingSnapshot

end SwapFloor
