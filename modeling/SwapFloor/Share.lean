import SwapFloor.Failure
import SwapFloor.Json.Leaves
import SwapFloor.Text.Blank

/-!
# Shared information

A link or the like that a member shares with a room, with free-form metadata.
-/

namespace SwapFloor

/-- Something shared in a room. -/
structure Share where
  id : String
  room : String
  sharer : String
  url : String
  /-- What it is, such as `chart`, `tweet` or `link`. -/
  infoType : String
  metadata : Option Json
  sharedAt : Instant

namespace Share

/-- Something to share; the address must not be blank, and the kind is a link unless said. -/
def new (id room sharer url infoType : String) (metadata : Option Json) (now : Instant) :
    Except Failure Share :=
  if Text.isAllBlank url then .error Failure.blankUrl
  else .ok ⟨id, room, sharer, url, if infoType = "" then "link" else infoType, metadata, now⟩

open Json in
/-- The fields of shared information. -/
def fields : Fields Share :=
  Share.mk <$> required "id" string <*> required "roomId" string
    <*> required "sharerWallet" string <*> required "url" string
    <*> required "infoType" string <*> defaulted "metadata" (option any) none
    <*> required "sharedAt" instant

def decoder : Json.Decoder Share := Json.record "SharedInfo" fields

/-- Shared information as JSON; absent metadata is left out. -/
def toJson (s : Share) : Json :=
  .obj ([("id", .str s.id), ("infoType", .str s.infoType)]
    ++ (s.metadata.map fun m => ("metadata", m)).toList
    ++ [("roomId", .str s.room), ("sharedAt", Json.ofInstant s.sharedAt),
      ("sharerWallet", .str s.sharer), ("url", .str s.url)])

end Share

end SwapFloor
