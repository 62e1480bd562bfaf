import SwapFloor.Fanout.Frame
import SwapFloor.Json.TextRecord

/-!
# Requests over a connection

What a client asks for in a text frame: an envelope of a type and data, in which missing data
stands for an empty object.
-/

namespace SwapFloor

/-- A request of a client. -/
inductive Request where
  | join (password : Option String)
  | leave
  | share (url infoType : String) (metadata : Option Json)
  | ping

namespace Request

/-- Why a frame is no request. -/
inductive Fault where
  | invalid (detail : String)
  | unknownType (name : String)

/-- The code of a fault in an error frame. -/
def Fault.code : Fault → String
  | .invalid _ => "INVALID_MESSAGE"
  | .unknownType _ => "UNKNOWN_MESSAGE_TYPE"

/-- The text of a fault. -/
def Fault.message : Fault → String
  | .invalid detail => s!"잘못된 메시지 형식: {detail}"
  | .unknownType name => s!"알 수 없는 메시지 타입: {name}"

/-- The frame that tells of a fault. -/
def Fault.frame (f : Fault) : Frame := .error f.code f.message

/-- The frame that answers binary data. -/
def binaryFrame : Frame := .error "INVALID_MESSAGE" "바이너리 메시지는 지원하지 않습니다"

open Json in
def envelope : Fields (String × Json) :=
  (fun kind data => (kind, data)) <$> required "type" string
    <*> (defaulted "data" any .null).reaching .whole

open Json in
def joinFields : Fields (Option String) := defaulted "password" (option string) none

open Json in
def shareFields : Fields Request :=
  Request.share <$> required "url" string
    <*> (defaulted "infoType" string "").orNamed "type"
    <*> (defaulted "metadata" (option any) none).reaching .whole

def ofEnvelope (kind : String) (data : Json) : Except Fault Request :=
  let data := if data.isNull then .obj [] else data
  let fits := fun (r : Except Json.Misfit Request) => r.mapError fun m => Fault.invalid m.message
  match kind with
  | "join" => fits ((Json.record "JoinData" joinFields data).map .join)
  | "leave" => .ok .leave
  | "share_info" => fits (Json.record "ShareInfoData" shareFields data)
  | "ping" => .ok .ping
  | other => .error (.unknownType other)

/-- The request of a text frame. -/
def ofText (text : String) : Except Fault Request :=
  match envelope.ofText "Envelope" text with
  | .error f => .error (.invalid (f.phrase text))
  | .ok (kind, data) => ofEnvelope kind data

end Request

end SwapFloor
