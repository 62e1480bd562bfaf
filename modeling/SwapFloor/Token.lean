import SwapFloor.Json.Leaves
import SwapFloor.Text.Blank

/-!
# Tokens

What is known of a token, and which of several tokens of one symbol is meant: the one with the
largest market cap, a known cap before an unknown one, and of equal ones the one with the
smallest mint.
-/

namespace SwapFloor

/-- What is known of a token. -/
structure Token where
  mint : String
  symbol : String
  name : String
  decimals : Option UInt8
  marketCap : Option Decimal
  deriving DecidableEq

namespace Token

/-- Order of preference: `.lt` when the first is preferred. -/
def compareByCap (a b : Token) : Ordering :=
  let byCap := match a.marketCap, b.marketCap with
    | some x, some y => y.compare x
    | some _, none => .lt
    | none, some _ => .gt
    | none, none => .eq
  byCap.then (Ord.compare a.mint b.mint)

/-- Preferred to another token, or as good. -/
def isPreferred (a b : Token) : Bool := compareByCap a b != .gt

/-- The first of the tokens to which no later one is preferred. -/
def preferred? : List Token → Option Token
  | [] => none
  | t :: ts => some (ts.foldl (fun best u => if isPreferred best u then best else u) t)

open Json in
def fields : Fields Token :=
  Token.mk <$> required "mintAddress" string <*> required "symbol" string
    <*> required "name" string <*> optional "decimals" uint8 <*> optional "marketCap" decimal

def decoder : Json.Decoder Token := Json.record "TokenInfo" fields

def toJson (t : Token) : Json :=
  .obj [("decimals", Json.ofOption (fun n => .nat n.toNat) t.decimals),
    ("marketCap", Json.ofOption Json.ofDecimal t.marketCap), ("mintAddress", .str t.mint),
    ("name", .str t.name), ("symbol", .str t.symbol)]

end Token

end SwapFloor
