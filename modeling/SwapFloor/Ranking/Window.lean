import SwapFloor.Ranking.Basic
import SwapFloor.Table

/-!
# Sliding windows of trades

Each timeframe has a window of trades in the order of their arrival. A trade enters the windows
whose horizon it has not passed. From the front of a window trades are dropped whenever another
one enters it or it is ranked; a late trade behind a newer one stays, and is left out when the
window is ranked. Main statements: dropping from the front keeps every trade within the horizon
(`mem_evict_of_recent`), and no trade that is ranked lies before it.
-/

namespace SwapFloor

/-- The most places that a ranking has. -/
def maxRankLimit : Nat := 100

/-- The places of a ranking when nothing else is asked for. -/
def defaultRankLimit : Nat := 20

/-- The trades of a timeframe, the oldest arrival first. -/
abbrev Window := List TaggedTrade

namespace Window

/-- The block time lies within the horizon. -/
def isRecent (horizon : Instant) (t : TaggedTrade) : Bool := t.trade.blockTime.notBefore horizon

/-- Drops trades from the front up to the first one within the horizon. -/
def evict (w : Window) (horizon : Instant) : Window := w.dropWhile fun t => !isRecent horizon t

/-- The window after the arrival of a trade. -/
def ingest (w : Window) (t : TaggedTrade) (horizon : Instant) : Window :=
  if isRecent horizon t then w.evict horizon ++ [t] else w

theorem mem_evict_of_recent {w : Window} {horizon : Instant} {t : TaggedTrade} (ht : t ∈ w)
    (hr : isRecent horizon t) : t ∈ w.evict horizon := by
  unfold evict
  induction w with
  | nil => simp at ht
  | cons a w ih =>
    by_cases ha : isRecent horizon a
    · simpa [List.dropWhile_cons, ha] using ht
    · rcases List.mem_cons.1 ht with rfl | hm
      · exact absurd hr ha
      · simpa [List.dropWhile_cons, ha] using ih hm

theorem mem_of_mem_evict {w : Window} {horizon : Instant} {t : TaggedTrade}
    (ht : t ∈ w.evict horizon) : t ∈ w :=
  (List.dropWhile_sublist _).mem ht

end Window

/-! ## What is counted of a token -/

structure TokenCount where
  transactions : Nat
  buys : Nat
  sales : Nat
  buyVolume : Decimal
  sellVolume : Decimal
  buyers : List String
  sellers : List String

namespace TokenCount

/-- Nothing counted. -/
def empty : TokenCount := ⟨0, 0, 0, .zero, .zero, [], []⟩

/-- A name added to a list of distinct names. -/
def noteName (names : List String) (name : String) : List String :=
  if name ∈ names then names else names ++ [name]

/-- The counts with one more trade, which has the given amount of quote; none when a volume is
out of range. A swap between two tokens counts as a buy. -/
def add (c : TokenCount) (t : Trade) (quote : Decimal) : Option TokenCount :=
  match t.side with
  | .buy | .swap => (c.buyVolume.add quote).map fun v =>
    { c with
      transactions := c.transactions + 1, buys := c.buys + 1, buyVolume := v
      buyers := noteName c.buyers t.signer }
  | .sell => (c.sellVolume.add quote).map fun v =>
    { c with
      transactions := c.transactions + 1, sales := c.sales + 1, sellVolume := v
      sellers := noteName c.sellers t.signer }

/-- The place of a token with these counts, still without a rank. -/
def place (c : TokenCount) (mint : String) : TokenRanking :=
  ⟨mint, c.transactions, c.buys, c.sales, c.buyVolume, c.sellVolume, c.buyers.length,
    c.sellers.length, 0⟩

end TokenCount

/-- The counts by token with one more trade. Trades of the quote itself do not count. -/
def countTrade (quoteMint : String) (counts : Table String TokenCount) (t : TaggedTrade) :
    Option (Table String TokenCount) :=
  let mint := t.trade.tokenMint quoteMint
  if mint = quoteMint ∨ mint = "" then some counts
  else
    (((counts.get? mint).getD .empty).add t.trade (t.trade.quoteAmount quoteMint)).map fun c =>
      counts.insert mint c

/-- The counts of a list of trades by token; none when a volume is out of range. -/
def countTrades (quoteMint : String) (ts : List TaggedTrade) : Option (Table String TokenCount) :=
  ts.foldlM (countTrade quoteMint) .empty

/-- The order of a ranking: by metric, the largest first, and then by mint. -/
def rankedBefore (dimension : Dimension) (a b : TokenRanking) : Bool :=
  match (b.metric dimension).compare (a.metric dimension) with
  | .lt => true
  | .gt => false
  | .eq => a.tokenMint ≤ b.tokenMint

/-- Numbers places from a rank on. -/
def numberFrom (rank : Nat) : List TokenRanking → List TokenRanking
  | [] => []
  | p :: rest => { p with rank := rank } :: numberFrom (rank + 1) rest

/-- The first places among the tokens of a list of trades. -/
def rankTrades (quoteMint : String) (dimension : Dimension) (limit : Nat)
    (ts : List TaggedTrade) : Except Breakdown (List TokenRanking) :=
  match countTrades quoteMint ts with
  | none => .error .addition
  | some counts =>
    let places := counts.entries.map fun e => e.2.place e.1
    let sorted := places.mergeSort (rankedBefore dimension)
    .ok (numberFrom 1 (sorted.take (min limit maxRankLimit)))

/-! ## All windows -/

/-- The windows of all timeframes, and the mint that trades are quoted in. -/
structure Rankings where
  quoteMint : String
  oneHour : Window
  sixHours : Window
  oneDay : Window

namespace Rankings

def empty (quoteMint : String) : Rankings := ⟨quoteMint, [], [], []⟩

def window (r : Rankings) : Timeframe → Window
  | .oneHour => r.oneHour
  | .sixHours => r.sixHours
  | .oneDay => r.oneDay

/-- Replaces the window of a timeframe. -/
def setWindow (r : Rankings) (w : Window) : Timeframe → Rankings
  | .oneHour => { r with oneHour := w }
  | .sixHours => { r with sixHours := w }
  | .oneDay => { r with oneDay := w }

/-- The windows after the arrival of a trade. -/
def ingest (r : Rankings) (t : TaggedTrade) (now : Instant) : Rankings :=
  { r with
    oneHour := r.oneHour.ingest t (Timeframe.oneHour.horizon now)
    sixHours := r.sixHours.ingest t (Timeframe.sixHours.horizon now)
    oneDay := r.oneDay.ingest t (Timeframe.oneDay.horizon now) }

/-- Ranks the tokens of a timeframe, dropping from its window first. -/
def rank (r : Rankings) (timeframe : Timeframe) (dimension : Dimension) (limit : Nat)
    (now : Instant) : Rankings × Except Breakdown RankingSnapshot :=
  let horizon := timeframe.horizon now
  let w := (r.window timeframe).evict horizon
  let places := rankTrades r.quoteMint dimension limit (w.filter (Window.isRecent horizon))
  (r.setWindow w timeframe, places.map fun ps => ⟨timeframe, dimension, now, ps⟩)

@[simp] theorem window_ingest (r : Rankings) (t : TaggedTrade) (now : Instant) (f : Timeframe) :
    (r.ingest t now).window f = (r.window f).ingest t (f.horizon now) := by
  cases f <;> rfl

@[simp] theorem window_setWindow (r : Rankings) (w : Window) (f g : Timeframe) :
    (r.setWindow w f).window g = if g = f then w else r.window g := by
  cases f <;> cases g <;> rfl

end Rankings

end SwapFloor
