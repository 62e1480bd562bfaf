import Mathlib.Algebra.Order.Ring.Nat
import SwapFloor.Ingest.Record
import SwapFloor.Proofs.Json.Fields
import SwapFloor.Proofs.Json.Objects
import SwapFloor.Ranking.Basic
import SwapFloor.Room.Basic
import SwapFloor.Room.Stats
import SwapFloor.Share
import SwapFloor.Token

/-!
# Records read back from JSON

Every record that is written as JSON is read back from it. Decimals keep their value and their
scale; only a negative zero comes back without its sign (`Decimal.plain`). What a record needs for
that is what its values have anyway: counts of 64 bits, instants that a timestamp can show, doubles
that are finite, and metadata that is not null. A room comes back without the hash of its password,
which is never written.

Each record is shown in two steps: its fields are read from its members one by one, and a record
is read from an object as its fields are from the members.

Main statement: what is written is read back, for all kinds of records (`read_back`).
-/

namespace SwapFloor

open Json

/-! ## Trades -/

theorem Side.decoder_name (s : Side) : Side.decoder (.str s.name) = .ok s := by
  cases s <;> rfl

/-- The same leg without the sign of a zero. -/
def Leg.plain (l : Leg) : Leg := { l with amount := l.amount.plain }

namespace Trade

/-- The same trade without the signs of zeros. -/
def plain (t : Trade) : Trade := { t with spent := t.spent.plain, received := t.received.plain }

instance lawful_fields : fields.Lawful := by
  unfold fields
  infer_instance

theorem nodup_members (t : Trade) (tag : Json) :
    ((t.members ++ [("walletTag", tag)]).map Prod.fst).Nodup := by
  simp [members]

/-- The fields of a trade are read from its members, whatever follows them. -/
theorem reads_members {t : Trade} (h : Time.IsShown t.blockTime) (more : List (String × Json)) :
    fields.Reads (fun k => (t.members ++ more).lookup k) t.plain := by
  change fields.Reads _ (ofParts t.signature t.slot t.blockTime t.platform t.programId
    t.spent.mint t.spent.amount.plain t.received.mint t.received.amount.plain t.signer
    t.trackedAddress t.side)
  unfold fields
  iterate 11 refine .seq ?_ ?_
  · exact .map _ (.required rfl (string_str _))
  · exact .required rfl (uint64_nat _)
  · exact .required rfl (instant_ofInstant h)
  · exact .required rfl (string_str _)
  · exact .optional rfl (option_optStr _)
  · exact .required rfl (string_str _)
  · exact .required rfl (decimal_ofDecimal _)
  · exact .required rfl (string_str _)
  · exact .required rfl (decimal_ofDecimal _)
  · exact .required rfl (string_str _)
  · exact .optional rfl (option_optStr _)
  · exact .required rfl (Side.decoder_name _)

theorem decoder_toJson {t : Trade} (h : Time.IsShown t.blockTime) :
    decoder t.toJson = .ok t.plain := by
  have hreads := reads_members h []
  rw [List.append_nil] at hreads
  have hkeys : (t.members.map Prod.fst).Nodup :=
    (t.nodup_members .null).sublist ((List.sublist_append_left ..).map _)
  exact record_eq _ hkeys hreads

end Trade

namespace TaggedTrade

/-- The same trade without the signs of zeros. -/
def plain (t : TaggedTrade) : TaggedTrade := { t with trade := t.trade.plain }

instance lawful_tagFields : tagFields.Lawful := by
  unfold tagFields
  infer_instance

/-- The members of the trade and the tag beside them do not get in each other's way. -/
theorem decoder_toJson {t : TaggedTrade} (h : Time.IsShown t.trade.blockTime) :
    decoder t.toJson = .ok t.plain := by
  have hkeys := t.trade.nodup_members (optStr t.tag)
  have htag : tagFields.Reads
      (fun k => (t.trade.members ++ [("walletTag", optStr t.tag)]).lookup k) t.tag :=
    .optional rfl (option_optStr _)
  unfold decoder toJson
  dsimp only
  rw [tagFields.ofMembers_eq hkeys htag,
    Trade.fields.ofMembers_eq hkeys (Trade.reads_members h _)]
  rfl

end TaggedTrade

/-! ## Rankings -/

theorem Timeframe.decoder_name (f : Timeframe) : Timeframe.decoder (.str f.name) = .ok f := by
  cases f <;> rfl

theorem Dimension.decoder_name (d : Dimension) : Dimension.decoder (.str d.name) = .ok d := by
  cases d <;> rfl

namespace TokenRanking

/-- The same place without the signs of zeros. -/
def plain (r : TokenRanking) : TokenRanking :=
  { r with buyVolume := r.buyVolume.plain, sellVolume := r.sellVolume.plain }

/-- All counts of a place have 64 bits. -/
def Fits (r : TokenRanking) : Prop :=
  ∀ n ∈ [r.transactionCount, r.buyCount, r.sellCount, r.uniqueBuyers, r.uniqueSellers, r.rank],
    n < 2 ^ 64

instance lawful_fields : fields.Lawful := by
  unfold fields
  infer_instance

theorem decoder_toJson {r : TokenRanking} (h : r.Fits) : decoder r.toJson = .ok r.plain := by
  refine record_eq _ (by simp) ?_
  change fields.Reads _ (mk r.tokenMint r.transactionCount r.buyCount r.sellCount
    r.buyVolume.plain r.sellVolume.plain r.uniqueBuyers r.uniqueSellers r.rank)
  unfold fields
  iterate 8 refine .seq ?_ ?_
  · exact .map _ (.required rfl (string_str _))
  · exact .required rfl (count_nat (h _ (by simp)) _)
  · exact .required rfl (count_nat (h _ (by simp)) _)
  · exact .required rfl (count_nat (h _ (by simp)) _)
  · exact .required rfl (decimal_ofDecimal _)
  · exact .required rfl (decimal_ofDecimal _)
  · exact .required rfl (count_nat (h _ (by simp)) _)
  · exact .required rfl (count_nat (h _ (by simp)) _)
  · exact .required rfl (count_nat (h _ (by simp)) _)

end TokenRanking

namespace RankingSnapshot

/-- The same snapshot without the signs of zeros. -/
def plain (s : RankingSnapshot) : RankingSnapshot :=
  { s with rankings := s.rankings.map TokenRanking.plain }

instance lawful_fields : fields.Lawful := by
  unfold fields
  infer_instance

theorem decoder_toJson {s : RankingSnapshot} (h : Time.IsShown s.asOf)
    (hfits : ∀ r ∈ s.rankings, r.Fits) : decoder s.toJson = .ok s.plain := by
  refine record_eq _ (by simp) ?_
  change fields.Reads _ (mk s.timeframe s.dimension s.asOf (s.rankings.map TokenRanking.plain))
  unfold fields
  iterate 3 refine .seq ?_ ?_
  · exact .map _ (.required rfl (Timeframe.decoder_name _))
  · exact .required rfl (Dimension.decoder_name _)
  · exact .required rfl (instant_ofInstant h)
  · exact .required rfl (list_arr fun r hr => TokenRanking.decoder_toJson (hfits r hr))

end RankingSnapshot

/-! ## Tokens -/

namespace Token

/-- The same token without the sign of a market cap of zero. -/
def plain (t : Token) : Token := { t with marketCap := t.marketCap.map Decimal.plain }

instance lawful_fields : fields.Lawful := by
  unfold fields
  infer_instance

theorem decoder_toJson (t : Token) : decoder t.toJson = .ok t.plain := by
  refine record_eq _ (by simp) ?_
  change fields.Reads _ (mk t.mint t.symbol t.name t.decimals (t.marketCap.map Decimal.plain))
  unfold fields
  iterate 4 refine .seq ?_ ?_
  · exact .map _ (.required rfl (string_str _))
  · exact .required rfl (string_str _)
  · exact .required rfl (string_str _)
  · exact .optional rfl (option_ofOption_self (fun _ _ => Json.noConfusion) fun n _ => uint8_nat n)
  · exact .optional rfl (option_ofDecimal _)

end Token

/-! ## Rooms -/

theorem Status.decoder_name (s : Status) : Status.decoder (.str s.name) = .ok s := by
  cases s <;> rfl

namespace Room

/-- The instants that a room keeps. -/
def instants (r : Room) : List Instant := [r.createdAt, r.lastActive] ++ r.closedAt.toList

instance lawful_fields : fields.Lawful := by
  unfold fields
  infer_instance

/-- A room comes back without the hash of its password. -/
theorem decoder_toJson {r : Room} (h : ∀ t ∈ r.instants, Time.IsShown t) :
    decoder r.toJson = .ok { r with passwordHash := none } := by
  refine record_eq _ (by simp) ?_
  change fields.Reads _ (ofParts r.id r.creator r.token r.hasPassword r.recycleHours r.status
    r.createdAt r.lastActive r.closedAt r.wallets)
  unfold fields
  iterate 9 refine .seq ?_ ?_
  · exact .map _ (.required rfl (string_str _))
  · exact .required rfl (string_str _)
  · exact .optional rfl (option_optStr _)
  · exact .required rfl (boolean_bool _)
  · exact .required rfl (int64_int _)
  · exact .required rfl (Status.decoder_name _)
  · exact .required rfl (instant_ofInstant (h _ (by simp [instants])))
  · exact .required rfl (instant_ofInstant (h _ (by simp [instants])))
  · exact .optional rfl (option_ofInstant fun t ht => h t (by simp [instants, Option.mem_def.1 ht]))
  · exact .required rfl (list_string _)

/-- The hash of the password leaves no trace in what is written. -/
theorem toJson_passwordHash (r : Room) (hash : Option String) :
    ({ r with passwordHash := hash } : Room).toJson = r.toJson := rfl

end Room

namespace Member

/-- The instants that a member record keeps. -/
def instants (m : Member) : List Instant := [m.joinTime, m.lastActive] ++ m.leaveTime.toList

instance lawful_fields : fields.Lawful := by
  unfold fields
  infer_instance

theorem decoder_toJson {m : Member} (h : ∀ t ∈ m.instants, Time.IsShown t) :
    decoder m.toJson = .ok m := by
  refine record_eq _ (by simp) ?_
  change fields.Reads _ (mk m.room m.wallet m.joinTime m.lastActive m.leaveTime m.active)
  unfold fields
  iterate 5 refine .seq ?_ ?_
  · exact .map _ (.required rfl (string_str _))
  · exact .required rfl (string_str _)
  · exact .required rfl (instant_ofInstant (h _ (by simp [instants])))
  · exact .required rfl (instant_ofInstant (h _ (by simp [instants])))
  · exact .optional rfl (option_ofInstant fun t ht => h t (by simp [instants, Option.mem_def.1 ht]))
  · exact .required rfl (boolean_bool _)

end Member

namespace Share

instance lawful_fields : fields.Lawful := by
  unfold fields
  infer_instance

/-- Absent metadata is not written; only metadata of null could not be told from it. -/
theorem decoder_toJson {s : Share} (h : Time.IsShown s.sharedAt)
    (hmetadata : s.metadata ≠ some .null) : decoder s.toJson = .ok s := by
  obtain ⟨id, room, sharer, url, infoType, metadata, sharedAt⟩ := s
  obtain ⟨members, hmembers⟩ : ∃ members, members = [("id", Json.str id),
      ("infoType", .str infoType)] ++ (metadata.map fun m => ("metadata", m)).toList ++
      [("roomId", .str room), ("sharedAt", Json.ofInstant sharedAt),
        ("sharerWallet", .str sharer), ("url", .str url)] := ⟨_, rfl⟩
  have hkeys : (members.map Prod.fst).Nodup := by
    cases metadata <;> simp [hmembers]
  have hmeta : (defaulted "metadata" (option any) none).Reads (fun k => members.lookup k)
      metadata := by
    subst hmembers
    cases metadata with
    | none => exact .absent rfl none
    | some m => exact .defaulted rfl (option_of_ne_null (fun hm => hmetadata (hm ▸ rfl)) rfl) none
  have hothers : ∀ k, k ≠ "metadata" → members.lookup k =
      [("id", Json.str id), ("infoType", .str infoType), ("roomId", .str room),
        ("sharedAt", Json.ofInstant sharedAt), ("sharerWallet", .str sharer),
        ("url", .str url)].lookup k := by
    intro k hk
    have hother : (k == "metadata") = false := beq_eq_false_iff_ne.2 hk
    cases metadata <;> simp [hmembers, List.lookup_cons, hother]
  unfold decoder toJson
  rw [← hmembers]
  refine record_eq _ hkeys ?_
  unfold fields
  iterate 6 refine .seq ?_ ?_
  · exact .map _ (.required (hothers _ (by decide)) (string_str _))
  · exact .required (hothers _ (by decide)) (string_str _)
  · exact .required (hothers _ (by decide)) (string_str _)
  · exact .required (hothers _ (by decide)) (string_str _)
  · exact .required (hothers _ (by decide)) (string_str _)
  · exact hmeta
  · exact .required (hothers _ (by decide)) (instant_ofInstant h)

end Share

namespace RoomStats

/-- The same counts, up to the signs of zeros and the order of the members. -/
structure Agrees (s s' : RoomStats) : Prop where
  tradeCount : s'.tradeCount = s.tradeCount
  buyVolume : s'.buyVolume = s.buyVolume.plain
  sellVolume : s'.sellVolume = s.sellVolume.plain
  lastTradeTime : s'.lastTradeTime = s.lastTradeTime
  memberPnl : ∀ wallet, s'.memberPnl.get? wallet = (s.memberPnl.get? wallet).map Decimal.plain

instance lawful_fields : fields.Lawful := by
  unfold fields
  infer_instance

theorem decoder_toJson {s : RoomStats} (h : ∀ t ∈ s.lastTradeTime, Time.IsShown t) :
    ∃ s', decoder s.toJson = .ok s' ∧ s.Agrees s' := by
  obtain ⟨pnl, hpnl, hget⟩ := mapOf_object s.memberPnl decimal_ofDecimal
  refine ⟨ofParts s.tradeCount s.buyVolume.plain s.sellVolume.plain s.lastTradeTime pnl, ?_,
    rfl, rfl, rfl, rfl, hget⟩
  refine record_eq _ (by simp) ?_
  unfold fields
  iterate 4 refine .seq ?_ ?_
  · exact .map _ (.required rfl (uint64_nat _))
  · exact .required rfl (decimal_ofDecimal _)
  · exact .required rfl (decimal_ofDecimal _)
  · exact .optional rfl (option_ofInstant h)
  · exact .required rfl hpnl

end RoomStats

/-! ## Transactions -/

namespace AccountKey

instance lawful_fields : fields.Lawful := by
  unfold fields
  infer_instance

/-- Either form of an account comes back as itself. -/
theorem decoder_toJson (k : AccountKey) : decoder k.toJson = .ok k := by
  cases k with
  | plain key => rfl
  | parsed key signer =>
    have hreads : fields.Reads (fun k => [("pubkey", Json.str key), ("signer", .bool signer)].lookup k)
        (.parsed key signer) := by
      unfold fields
      refine .seq ?_ ?_
      · exact .map _ (.required rfl (string_str _))
      · exact .defaulted rfl (boolean_bool _) _
    unfold decoder toJson
    dsimp only
    rw [fields.ofMembers_eq (by simp) hreads]

end AccountKey

namespace Instruction

instance lawful_fields : fields.Lawful := by
  unfold fields
  infer_instance

theorem decoder_toJson (i : Instruction) : decoder i.toJson = .ok i := by
  refine record_eq _ (by simp) ?_
  change fields.Reads _ (mk i.programId i.accounts)
  unfold fields
  refine .seq ?_ ?_
  · exact .map _ (.required rfl (string_str _))
  · exact .defaulted rfl (list_string _) _

end Instruction

namespace TokenAmount

/-- The double of an amount is finite, if there is one. -/
def IsFinite (a : TokenAmount) : Prop := ∀ x ∈ a.uiAmount, (Binary.parts? x).isSome = true

instance lawful_fields : fields.Lawful := by
  unfold fields
  infer_instance

theorem decoder_toJson {a : TokenAmount} (h : a.IsFinite) : decoder a.toJson = .ok a := by
  refine record_eq _ (by simp) ?_
  change fields.Reads _ (mk a.amount a.decimals a.uiAmount a.uiAmountString)
  unfold fields
  iterate 3 refine .seq ?_ ?_
  · exact .map _ (.defaulted rfl (option_optStr _) _)
  · exact .defaulted rfl
      (option_ofOption_self (fun _ _ => Json.noConfusion) fun n _ => uint32_nat n) _
  · exact .defaulted rfl (option_ofDouble h) _
  · exact .defaulted rfl (option_optStr _) _

end TokenAmount

namespace TokenBalance

instance lawful_fields : fields.Lawful := by
  unfold fields
  infer_instance

theorem decoder_toJson {b : TokenBalance} (h : b.amount.IsFinite) : decoder b.toJson = .ok b := by
  refine record_eq _ (by simp) ?_
  change fields.Reads _ (mk b.accountIndex b.mint b.owner b.amount)
  unfold fields
  iterate 3 refine .seq ?_ ?_
  · exact .map _ (.defaulted rfl
      (option_ofOption_self (fun _ _ => Json.noConfusion) fun n _ => uint64As_nat _ n) _)
  · exact .required rfl (string_str _)
  · exact .defaulted rfl (option_optStr _) _
  · exact .defaulted rfl (TokenAmount.decoder_toJson h) _

end TokenBalance

namespace TxRecord

/-- The doubles of all balances are finite. -/
def IsFinite (r : TxRecord) : Prop :=
  ∀ b ∈ r.preTokenBalances ++ r.postTokenBalances, b.amount.IsFinite

instance lawful_fields : fields.Lawful := by
  unfold fields
  infer_instance

theorem decoder_toJson {r : TxRecord} (h : r.IsFinite) : decoder r.toJson = .ok r := by
  have hpre := fun b hb => TokenBalance.decoder_toJson (h b (List.mem_append.2 (.inl hb)))
  have hpost := fun b hb => TokenBalance.decoder_toJson (h b (List.mem_append.2 (.inr hb)))
  refine record_eq _ (by simp) ?_
  change fields.Reads _ (mk r.signature r.slot r.blockTime r.trackedAddress r.signer
    r.accountKeys r.instructions r.preBalances r.postBalances r.preTokenBalances
    r.postTokenBalances r.logMessages)
  unfold fields
  iterate 11 refine .seq ?_ ?_
  · exact .map _ (.required rfl (string_str _))
  · exact .defaulted rfl (uint64_nat _) _
  · exact .defaulted rfl
      (option_ofOption_self (fun _ _ => Json.noConfusion) fun n _ => int64_int n) _
  · exact .defaulted rfl (option_optStr _) _
  · exact .defaulted rfl (option_optStr _) _
  · exact .defaulted rfl (list_arr_self fun k _ => k.decoder_toJson) _
  · exact .defaulted rfl (list_arr_self fun i _ => i.decoder_toJson) _
  · exact .defaulted rfl (list_uint64 _) _
  · exact .defaulted rfl (list_uint64 _) _
  · exact .defaulted rfl (list_arr_self hpre) _
  · exact .defaulted rfl (list_arr_self hpost) _
  · exact .defaulted rfl (list_string _) _

end TxRecord

/-! ## All records -/

namespace Json

/-- Every kind of record is read back from the JSON that it is written as. Decimals keep their
value and scale; the counts of a room come back up to the order of the members; a room comes back
without the hash of its password, which leaves no trace in what is written. -/
theorem read_back :
    (∀ d : Decimal, d.plain.scale = d.scale ∧ d.plain.signed = d.signed) ∧
    (∀ t : Trade, Time.IsShown t.blockTime → Trade.decoder t.toJson = .ok t.plain) ∧
    (∀ t : TaggedTrade, Time.IsShown t.trade.blockTime →
      TaggedTrade.decoder t.toJson = .ok t.plain) ∧
    (∀ r : TokenRanking, r.Fits → TokenRanking.decoder r.toJson = .ok r.plain) ∧
    (∀ s : RankingSnapshot, Time.IsShown s.asOf → (∀ r ∈ s.rankings, r.Fits) →
      RankingSnapshot.decoder s.toJson = .ok s.plain) ∧
    (∀ t : Token, Token.decoder t.toJson = .ok t.plain) ∧
    (∀ m : Member, (∀ t ∈ m.instants, Time.IsShown t) → Member.decoder m.toJson = .ok m) ∧
    (∀ s : RoomStats, (∀ t ∈ s.lastTradeTime, Time.IsShown t) →
      ∃ s', RoomStats.decoder s.toJson = .ok s' ∧ s.Agrees s') ∧
    (∀ s : Share, Time.IsShown s.sharedAt → s.metadata ≠ some .null →
      Share.decoder s.toJson = .ok s) ∧
    (∀ k : AccountKey, AccountKey.decoder k.toJson = .ok k) ∧
    (∀ b : TokenBalance, b.amount.IsFinite → TokenBalance.decoder b.toJson = .ok b) ∧
    (∀ r : TxRecord, r.IsFinite → TxRecord.decoder r.toJson = .ok r) ∧
    (∀ r : Room, (∀ t ∈ r.instants, Time.IsShown t) →
      Room.decoder r.toJson = .ok { r with passwordHash := none }) ∧
    ∀ (r : Room) (hash : Option String),
      ({ r with passwordHash := hash } : Room).toJson = r.toJson := by
  refine ⟨fun d => ⟨d.plain_scale, d.plain_signed⟩, ?_⟩
  refine ⟨fun t => Trade.decoder_toJson, fun t => TaggedTrade.decoder_toJson, ?_⟩
  refine ⟨fun r => TokenRanking.decoder_toJson, fun s => RankingSnapshot.decoder_toJson, ?_⟩
  refine ⟨Token.decoder_toJson, fun m => Member.decoder_toJson, ?_⟩
  refine ⟨fun s => RoomStats.decoder_toJson, fun s => Share.decoder_toJson, ?_⟩
  refine ⟨AccountKey.decoder_toJson, fun b => TokenBalance.decoder_toJson, ?_⟩
  exact ⟨fun r => TxRecord.decoder_toJson, fun r => Room.decoder_toJson, Room.toJson_passwordHash⟩

/-! ### One record of each kind, with a leap second and a negative zero -/

def smallLeap : Instant := ⟨1483228799500000000, true⟩

theorem isShown_smallLeap : Time.IsShown smallLeap := ⟨by decide, fun _ => by decide⟩

def smallAmount : Decimal := (Decimal.ofParts? false 150 2).getD .zero

def smallZero : Decimal :=
  { smallAmount with negative := true, coeff := 0, coeff_lt := Decimal.zero.coeff_lt }

def smallTrade : Trade where
  signature := "s"
  slot := 18446744073709551615
  blockTime := smallLeap
  platform := "unknown"
  programId := none
  spent := ⟨nativeMint, smallAmount⟩
  received := ⟨"m", smallZero⟩
  signer := "w"
  trackedAddress := some "m"
  side := .buy

def smallRanking : TokenRanking := ⟨"m", 1, 1, 0, smallZero, .zero, 1, 0, 1⟩

theorem fits_smallRanking : smallRanking.Fits := by
  unfold TokenRanking.Fits
  decide

def smallStats : RoomStats :=
  ⟨1, smallZero, .zero, some smallLeap, (Table.empty.insert "w" smallZero).insert "a" .zero⟩

def smallShare : Share := ⟨"i", "r", "w", "u", "link", some (.arr [.null]), smallLeap⟩

/-- The amounts come without doubles, which cannot be computed with here. -/
def smallBalance : TokenBalance := ⟨some 1, "m", none, ⟨some "5", some 2, none, none⟩⟩

def smallRecord : TxRecord :=
  ⟨"s", 7, some (-1), none, some "w", [.plain "w", .parsed "v" true], [⟨"p", ["w", "v"]⟩], [5],
    [4, 3], [smallBalance], [], ["log"]⟩

theorem isFinite_smallBalance : smallBalance.amount.IsFinite := fun _ hx => nomatch hx

theorem isFinite_smallRecord : smallRecord.IsFinite := by
  intro b hb
  obtain rfl := List.mem_singleton.1 hb
  exact isFinite_smallBalance

def smallToken : Token := ⟨"m", "SYM", "Name", some 9, some smallZero⟩

def smallMember : Member := ⟨"r", "w", smallLeap, smallLeap, some smallLeap, false⟩

def smallRoom : Room :=
  ⟨"r", "w", none, some "hash", true, 3, .closed, smallLeap, smallLeap, some smallLeap, ["w"]⟩

theorem isShown_of_mem_small {t : Instant} (h : t ∈ [smallLeap, smallLeap, smallLeap]) :
    Time.IsShown t := by
  obtain rfl : t = smallLeap := by simpa using h
  exact isShown_smallLeap

theorem read_back_small :
    Trade.decoder smallTrade.toJson = .ok smallTrade.plain ∧
    TaggedTrade.decoder (TaggedTrade.mk smallTrade (some "whale")).toJson
      = .ok ⟨smallTrade.plain, some "whale"⟩ ∧
    TokenRanking.decoder smallRanking.toJson = .ok smallRanking.plain ∧
    RankingSnapshot.decoder (RankingSnapshot.mk .oneDay .inflow smallLeap [smallRanking]).toJson
      = .ok ⟨.oneDay, .inflow, smallLeap, [smallRanking.plain]⟩ ∧
    Token.decoder smallToken.toJson = .ok smallToken.plain ∧
    Member.decoder smallMember.toJson = .ok smallMember ∧
    (∃ s', RoomStats.decoder smallStats.toJson = .ok s' ∧ smallStats.Agrees s') ∧
    Share.decoder smallShare.toJson = .ok smallShare ∧
    AccountKey.decoder (AccountKey.parsed "v" true).toJson = .ok (.parsed "v" true) ∧
    TokenBalance.decoder smallBalance.toJson = .ok smallBalance ∧
    TxRecord.decoder smallRecord.toJson = .ok smallRecord ∧
    Room.decoder smallRoom.toJson = .ok { smallRoom with passwordHash := none } := by
  obtain ⟨-, htrade, htagged, hranking, hsnapshot, htoken, hmember, hstats, hshare, hkey,
    hbalance, hrecord, hroom, -⟩ := read_back
  have hleap := isShown_smallLeap
  refine ⟨htrade _ hleap, htagged _ hleap, hranking _ fits_smallRanking,
    hsnapshot _ hleap fun r hr => List.mem_singleton.1 hr ▸ fits_smallRanking,
    htoken smallToken, hmember _ fun t => isShown_of_mem_small, hstats _ ?_, hshare _ hleap ?_,
    hkey _, hbalance _ isFinite_smallBalance, hrecord _ isFinite_smallRecord, hroom _ fun t => isShown_of_mem_small⟩
  · intro t ht
    exact Option.mem_some.1 ht ▸ hleap
  · exact fun h => Json.noConfusion (Option.some.inj h)

end Json

end SwapFloor
