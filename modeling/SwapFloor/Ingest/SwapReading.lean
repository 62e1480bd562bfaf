import SwapFloor.Ingest.Program
import SwapFloor.Ingest.Record
import SwapFloor.Table
import SwapFloor.Trade

/-!
# Reading a swap off a transaction

The signer's balances before and after a transaction tell what it swapped. Each token other than
the quote has a change; the quote's change joins lamports and wrapped tokens. A swap between two
tokens is looked for first, then a buy and a sale, so that a fee paid in the quote is no buy.
-/

namespace SwapFloor.SwapReading

/-! ## The signer -/

/-- The signer's address, and the place of its account for the change in lamports. -/
structure Signer where
  address : String
  index : Nat
  deriving DecidableEq

/-- The owners of the token balances, as far as they are named. -/
def owners (r : TxRecord) : List String :=
  (r.preTokenBalances ++ r.postTokenBalances).filterMap fun b => b.owner.filter (· ≠ "")

/-- The signer of a record: the one given, else the first account marked as having signed, else
the first account, which pays the fee. Without accounts it is the tracked address if that owns a
token balance, else the first owner of one. -/
def signer? (r : TxRecord) : Option Signer :=
  match r.signer.filter (· ≠ "") with
  | some s => some ⟨s, (r.accountKeys.findIdx? fun k => k.pubkey == s).getD 0⟩
  | none =>
    match r.accountKeys.findIdx? (·.isSigner), r.accountKeys with
    | some i, keys => (keys[i]?).map fun k => ⟨k.pubkey, i⟩
    | none, k :: _ => some ⟨k.pubkey, 0⟩
    | none, [] =>
      match r.trackedAddress.filter fun a => (owners r).contains a with
      | some a => some ⟨a, 0⟩
      | none => (owners r).head?.map fun a => ⟨a, 0⟩

/-! ## Changes of balances -/

/-- A sum that may be out of range. -/
def orBreak {α : Type} (b : Breakdown) : Option α → Except Trouble α
  | some a => .ok a
  | none => .error (.breakdown b)

/-- The amounts that an owner holds of the tokens that satisfy `p`, with their mints. -/
def amountsOf (owner : String) (p : String → Bool) (bs : List TokenBalance) :
    List (String × Decimal) :=
  bs.filterMap fun b =>
    if b.owner = some owner ∧ p b.mint then b.amount.toDecimal?.map fun d => (b.mint, d) else none

/-- Subtracts an amount from the change of its mint. -/
def spend (t : Table String Decimal) (e : String × Decimal) :
    Except Trouble (Table String Decimal) :=
  (orBreak .subtraction (((t.get? e.1).getD .zero).sub e.2)).map fun d => t.insert e.1 d

/-- Adds an amount to the change of its mint. -/
def gain (t : Table String Decimal) (e : String × Decimal) :
    Except Trouble (Table String Decimal) :=
  (orBreak .addition (((t.get? e.1).getD .zero).add e.2)).map fun d => t.insert e.1 d

/-- The changes of an owner's tokens other than the quote, by mint in ascending order, without
those that come to zero. -/
def tokenDeltas (r : TxRecord) (quote owner : String) :
    Except Trouble (List (String × Decimal)) := do
  let isToken := fun m => m != quote
  let t ← (amountsOf owner isToken r.preTokenBalances).foldlM spend .empty
  let t ← (amountsOf owner isToken r.postTokenBalances).foldlM gain t
  let kept := t.entries.filter fun e => !e.2.isZero
  pure (kept.mergeSort fun a b => a.1 ≤ b.1)

/-- The change in lamports of the account at an index, in whole units of the quote. -/
def lamportDelta (r : TxRecord) (index : Nat) : Decimal :=
  match r.preBalances[index]?, r.postBalances[index]? with
  | some pre, some post =>
    (Decimal.ofIntScaled? ((post.toNat : Int) - pre.toNat) 9).getD .zero
  | _, _ => .zero

/-- The sum of the wrapped quote that an owner holds. -/
def wrapped (quote owner : String) (bs : List TokenBalance) : Except Trouble Decimal :=
  orBreak .addition (Decimal.sum ((amountsOf owner (· == quote) bs).map Prod.snd))

/-- The change of the signer's quote. -/
def quoteDelta (r : TxRecord) (quote : String) (s : Signer) : Except Trouble Decimal := do
  let post ← wrapped quote s.address r.postTokenBalances
  let sum ← orBreak .addition ((lamportDelta r s.index).add post)
  let pre ← wrapped quote s.address r.preTokenBalances
  orBreak .subtraction (sum.sub pre)

/-! ## The legs -/

/-- The larger of two legs, the first of equal ones. -/
def larger (best : Option Leg) (l : Leg) : Option Leg :=
  match best with
  | none => some l
  | some b => if l.amount.le b.amount then some b else some l

/-- The largest of the changes with a sign, as a leg; of equal ones the one with the smallest
mint, if the changes are in order of their mints. -/
def dominant (negative : Bool) (deltas : List (String × Decimal)) : Option Leg :=
  (deltas.filter fun e => e.2.negative == negative).foldl
    (fun best e => larger best ⟨e.1, e.2.abs⟩) none

/-- What was spent and what was received. -/
def legs? (quote : String) (deltas : List (String × Decimal)) (quoteDelta : Decimal) :
    Option (Leg × Leg) :=
  match dominant true deltas, dominant false deltas with
  | some spent, some received => some (spent, received)
  | none, some received =>
    if quoteDelta.isNeg then some (⟨quote, quoteDelta.abs⟩, received) else none
  | some spent, none =>
    if quoteDelta.isPos then some (spent, ⟨quote, quoteDelta⟩) else none
  | none, none => none

/-- The platform of the first known program among the instructions and then the logs, with the
program; else the first instruction's program on no known platform. -/
def platform (r : TxRecord) : String × Option String :=
  let ids := r.instructions.map (·.programId) ++ r.logMessages.filterMap Program.ofLogLine?
  match ids.findSome? fun id => (Program.platform? id).map fun p => (p, some id) with
  | some found => found
  | none => ("unknown", r.instructions.head?.map (·.programId))

/-- The block time of a record, else of its batch; the present if there is none or it lies
outside the calendar. -/
def blockTime (r : TxRecord) (batchTime : Option Int64) (now : Instant) : Instant :=
  match r.blockTime.orElse fun _ => batchTime with
  | some s => if Calendar.coversSecond s.toInt then Instant.ofSeconds s.toInt else now
  | none => now

def noSignature : Failure := ⟨.parse, "서명이 비어 있습니다"⟩

def noSigner (signature : String) : Failure := ⟨.parse, s!"서명자를 찾을 수 없습니다: {signature}"⟩

def noSwap (signature : String) : Failure := ⟨.parse, s!"스왑을 식별할 수 없습니다: {signature}"⟩

/-- The trade that a record tells of. -/
def read (r : TxRecord) (quote : String) (batchTime : Option Int64) (now : Instant) :
    Except Trouble Trade :=
  if Text.isAllBlank r.signature then .error (.failure noSignature)
  else
    match signer? r with
    | none => .error (.failure (noSigner r.signature))
    | some s => do
      let deltas ← tokenDeltas r quote s.address
      let delta ← quoteDelta r quote s
      match legs? quote deltas delta with
      | none => .error (.failure (noSwap r.signature))
      | some (spent, received) =>
        let (name, program) := platform r
        pure {
          signature := r.signature
          slot := r.slot
          blockTime := blockTime r batchTime now
          platform := name
          programId := program
          spent := spent
          received := received
          signer := s.address
          trackedAddress := r.trackedAddress.filter (· ≠ "")
          side := Side.classify spent.mint received.mint quote }

end SwapFloor.SwapReading
