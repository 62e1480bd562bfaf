import SwapFloor.Json.Leaves

/-!
# Trades

A trade is one swap by one wallet: what it spent and what it received. Seen from a quote mint it
is a buy, a sale, or a swap between two other tokens.
-/

namespace SwapFloor

/-- The mint of wrapped SOL, the usual quote. -/
def nativeMint : String := "So11111111111111111111111111111111111111112"

/-- The direction of a trade, seen from the quote mint. -/
inductive Side where
  /-- Spends the quote. -/
  | buy
  /-- Receives the quote. -/
  | sell
  /-- Neither, or both. -/
  | swap
  deriving DecidableEq

namespace Side

/-- The direction of a trade that spends `input` and receives `output`. -/
def classify (input output quote : String) : Side :=
  if input = quote ∧ output ≠ quote then .buy
  else if output = quote ∧ input ≠ quote then .sell
  else .swap

/-- The name of a direction. -/
def name : Side → String
  | .buy => "buy"
  | .sell => "sell"
  | .swap => "swap"

/-- A direction from JSON. -/
def decoder : Json.Decoder Side :=
  Json.constant [("buy", .buy), ("sell", .sell), ("swap", .swap)]

theorem classify_eq_buy_iff {i o q : String} : classify i o q = .buy ↔ i = q ∧ o ≠ q := by
  unfold classify
  grind

theorem classify_eq_sell_iff {i o q : String} : classify i o q = .sell ↔ o = q ∧ i ≠ q := by
  unfold classify
  grind

theorem classify_of_ne {i o q : String} (hi : i ≠ q) (ho : o ≠ q) : classify i o q = .swap := by
  unfold classify
  rw [if_neg fun h => hi h.1, if_neg fun h => ho h.1]

end Side

/-- An amount of a token. -/
structure Leg where
  mint : String
  amount : Decimal
  deriving DecidableEq

structure Trade where
  signature : String
  slot : UInt64
  blockTime : Instant
  /-- The platform it was made on, or `unknown`. -/
  platform : String
  programId : Option String
  spent : Leg
  received : Leg
  signer : String
  /-- The watched address under which the trade was seen. -/
  trackedAddress : Option String
  side : Side
  deriving DecidableEq

namespace Trade

/-- The token that is traded against the quote; the received one in a swap between two tokens. -/
def tokenMint (t : Trade) (quote : String) : String :=
  if t.received.mint ≠ quote then t.received.mint else t.spent.mint

/-- The amount of the quote, none in a swap between two tokens. -/
def quoteAmount? (t : Trade) (quote : String) : Option Decimal :=
  if t.spent.mint = quote then some t.spent.amount
  else if t.received.mint = quote then some t.received.amount
  else none

/-- The amount of the quote, zero in a swap between two tokens. -/
def quoteAmount (t : Trade) (quote : String) : Decimal := (t.quoteAmount? quote).getD .zero

/-- The addresses by which rooms may watch a trade, each once: where it was seen, both mints,
and the signer. -/
def routingKeys (t : Trade) : List String :=
  let candidates := t.trackedAddress.toList ++ [t.spent.mint, t.received.mint, t.signer]
  candidates.foldl (fun keys k => if k = "" ∨ k ∈ keys then keys else keys ++ [k]) []

/-- The same trade with the direction that the quote mint gives it. -/
def classified (t : Trade) (quote : String) : Trade :=
  { t with side := Side.classify t.spent.mint t.received.mint quote }

/-! ## JSON -/

/-- A trade from its parts in the order of its fields. -/
def ofParts (signature : String) (slot : UInt64) (blockTime : Instant) (platform : String)
    (programId : Option String) (inputMint : String) (inputAmount : Decimal)
    (outputMint : String) (outputAmount : Decimal) (signer : String)
    (trackedAddress : Option String) (side : Side) : Trade where
  signature := signature
  slot := slot
  blockTime := blockTime
  platform := platform
  programId := programId
  spent := ⟨inputMint, inputAmount⟩
  received := ⟨outputMint, outputAmount⟩
  signer := signer
  trackedAddress := trackedAddress
  side := side

open Json in
def fields : Fields Trade :=
  ofParts <$> required "signature" string <*> required "slot" uint64
    <*> required "blockTime" instant <*> required "platform" string
    <*> optional "programId" string <*> required "inputMint" string
    <*> required "inputAmount" decimal <*> required "outputMint" string
    <*> required "outputAmount" decimal <*> required "signer" string
    <*> optional "trackedAddress" string <*> required "side" Side.decoder

def decoder : Json.Decoder Trade := Json.record "TradeEvent" fields

def members (t : Trade) : List (String × Json) :=
  [("blockTime", Json.ofInstant t.blockTime), ("inputAmount", Json.ofDecimal t.spent.amount),
    ("inputMint", .str t.spent.mint), ("outputAmount", Json.ofDecimal t.received.amount),
    ("outputMint", .str t.received.mint), ("platform", .str t.platform),
    ("programId", Json.optStr t.programId), ("side", .str t.side.name),
    ("signature", .str t.signature), ("signer", .str t.signer), ("slot", .nat t.slot.toNat),
    ("trackedAddress", Json.optStr t.trackedAddress)]

def toJson (t : Trade) : Json := .obj t.members

/-! ## Small lemmas -/

theorem routingKeys_nodup (t : Trade) : t.routingKeys.Nodup := by
  unfold routingKeys
  have step : ∀ (cs keys : List String), keys.Nodup →
      (cs.foldl (fun keys k => if k = "" ∨ k ∈ keys then keys else keys ++ [k]) keys).Nodup := by
    intro cs
    induction cs with
    | nil => exact fun keys h => h
    | cons c cs ih =>
      intro keys h
      refine ih _ ?_
      show (if c = "" ∨ c ∈ keys then keys else keys ++ [c]).Nodup
      split
      · exact h
      · rename_i hc
        rw [List.nodup_append]
        refine ⟨h, by simp, ?_⟩
        intro a ha b hb
        simp only [List.mem_singleton] at hb
        grind
  exact step _ _ List.nodup_nil

/-- A trade is routed by the addresses it carries that are not empty. -/
theorem mem_routingKeys {t : Trade} {a : String} :
    a ∈ t.routingKeys ↔ a ≠ "" ∧
      (t.trackedAddress = some a ∨ t.spent.mint = a ∨ t.received.mint = a ∨ t.signer = a) := by
  have step : ∀ (cs keys : List String),
      a ∈ cs.foldl (fun keys k => if k = "" ∨ k ∈ keys then keys else keys ++ [k]) keys ↔
        a ∈ keys ∨ (a ≠ "" ∧ a ∈ cs) := by
    intro cs
    induction cs with
    | nil => simp
    | cons c cs ih =>
      intro keys
      rw [List.foldl_cons, ih, List.mem_cons]
      split
      · grind
      · grind
  have hlist : a ∈ t.trackedAddress.toList ++ [t.spent.mint, t.received.mint, t.signer] ↔
      t.trackedAddress = some a ∨ t.spent.mint = a ∨ t.received.mint = a ∨ t.signer = a := by
    simp only [List.mem_append, Option.mem_toList, List.mem_cons, List.not_mem_nil, or_false,
      eq_comm (a := a)]
  unfold routingKeys
  rw [step, hlist]
  simp

@[simp] theorem classified_spent (t : Trade) (q : String) : (t.classified q).spent = t.spent := rfl

@[simp] theorem classified_received (t : Trade) (q : String) :
    (t.classified q).received = t.received := rfl

section

variable {t : Trade} {q : String}

theorem side_of_classified (h : t = t.classified q) :
    t.side = Side.classify t.spent.mint t.received.mint q :=
  congrArg side h

theorem quoteAmount_of_buy (h : t = t.classified q) (hside : t.side = .buy) :
    t.quoteAmount q = t.spent.amount := by
  have hm := (Side.classify_eq_buy_iff.1 ((side_of_classified h).symm.trans hside)).1
  unfold quoteAmount quoteAmount?
  rw [if_pos hm]
  rfl

theorem quoteAmount_of_sell (h : t = t.classified q) (hside : t.side = .sell) :
    t.quoteAmount q = t.received.amount := by
  obtain ⟨hm, hne⟩ := Side.classify_eq_sell_iff.1 ((side_of_classified h).symm.trans hside)
  unfold quoteAmount quoteAmount?
  rw [if_neg hne, if_pos hm]
  rfl

end

end Trade

end SwapFloor
