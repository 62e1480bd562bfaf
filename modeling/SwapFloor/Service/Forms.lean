import SwapFloor.Http.Form
import SwapFloor.Service.Rooms

/-!
# Forms of the service

The records that requests carry in their bodies, with the constraints on their fields.
-/

namespace SwapFloor.Forms

open Http (Form Violation Constraint.length Constraint.range Constraint.url)
open Json (defaulted int64 option required string)

/-- The constraint on the address of a wallet. -/
def wallet (s : String) : Option Violation :=
  Constraint.length (some 1) 64 "지갑 주소는 1-64자여야 합니다" s

def newRoom : Form RoomRequest where
  name := "CreateRoomRequest"
  fields := RoomRequest.mk <$> required "creatorWallet" string
    <*> defaulted "tokenAddress" (option string) none
    <*> defaulted "recycleHours" (option int64) none
    <*> defaulted "password" (option string) none
  constraints q := [("creator_wallet", wallet q.creator),
    ("token_address",
      q.token.bind (Constraint.length (some 1) 64 "토큰 주소는 1-64자여야 합니다")),
    ("recycle_hours", q.recycleHours.bind fun h =>
      Constraint.range (some 1) 720 "재활용 시간은 1-720시간이어야 합니다" h.toInt)]

/-- A wallet that comes in, with a password. -/
def entry : Form (String × Option String) where
  name := "JoinRoomRequest"
  fields := Prod.mk <$> required "wallet" string <*> defaulted "password" (option string) none
  constraints q := [("wallet", wallet q.1)]

def walletOnly : Form String where
  name := "WalletRequest"
  fields := required "wallet" string
  constraints w := [("wallet", wallet w)]

/-- Something that a wallet shares. -/
def share : Form (String × ShareRequest) where
  name := "ShareInfoRequest"
  fields := (fun wallet url infoType metadata => (wallet, ⟨url, infoType, metadata⟩))
    <$> required "wallet" string <*> required "url" string
    <*> (defaulted "infoType" string "").orNamed "type"
    <*> (defaulted "metadata" (option Json.any) none).reaching .whole
  constraints q := [("wallet", wallet q.1), ("url", Constraint.url "올바른 URL이 아닙니다" q.2.url),
    ("info_type", Constraint.length none 32 "정보 유형은 최대 32자입니다" q.2.infoType)]

/-- What is known of a token. -/
def token : Form Token where
  name := "UpsertTokenRequest"
  fields := Token.mk <$> required "mintAddress" string <*> required "symbol" string
    <*> defaulted "name" string "" <*> defaulted "decimals" (option Json.uint8) none
    <*> defaulted "marketCap" (option Json.decimal) none
  constraints t :=
    [("mint_address", Constraint.length (some 1) 64 "민트 주소는 1-64자여야 합니다" t.mint),
      ("symbol", Constraint.length (some 1) 32 "심볼은 1-32자여야 합니다" t.symbol),
      ("name", Constraint.length none 128 "이름은 최대 128자입니다" t.name),
      ("decimals", t.decimals.bind fun d =>
        Constraint.range none 18 "decimals는 18 이하여야 합니다" d.toNat)]

/-- A wallet with its tag. -/
def tag : Form (String × String) where
  name := "SmartMoneyRequest"
  fields := Prod.mk <$> required "address" string <*> required "tag" string
  constraints q := [("address", wallet q.1),
    ("tag", Constraint.length (some 1) 32 "태그는 1-32자여야 합니다" q.2)]

end SwapFloor.Forms
