/-
**Events.**

What a ledger tells its subscribers, each kind with the fields that describe it.
-/

import Reorg.Json.Value
import Reorg.Sidechain.Error

namespace Reorg

/-- What an event is about, which is what one subscribes to. -/
inductive EventKind
  | blockConnected
  | blockDisconnected
  | sidechainUpdated
deriving DecidableEq

namespace EventKind

/-- All kinds, in the order in which they are listed. -/
def all : List EventKind := [.blockConnected, .blockDisconnected, .sidechainUpdated]

/-- The word for a kind. -/
def name : EventKind → String
  | .blockConnected => "BlockConnected"
  | .blockDisconnected => "BlockDisconnected"
  | .sidechainUpdated => "SidechainUpdated"

end EventKind

/-- What a ledger tells its subscribers. -/
inductive Event
  /-- A block was connected, and its log takes some bytes. -/
  | blockConnected (block : Digest) (height txCount undoSize : Nat)
  /-- A block was disconnected, cleanly or not. -/
  | blockDisconnected (block : Digest) (height : Nat) (clean : Bool)
  /-- A block changed a sidechain, which is there now or not. -/
  | sidechainUpdated (sidechain : SidechainId) (block : Digest) (isPresent : Bool)
    (balance : Amount) (lastEpoch : Epoch)
deriving DecidableEq

namespace Event

/-- The kind of an event. -/
def kind : Event → EventKind
  | .blockConnected _ _ _ _ => .blockConnected
  | .blockDisconnected _ _ _ => .blockDisconnected
  | .sidechainUpdated _ _ _ _ _ => .sidechainUpdated

/-- The data of an event, in the order of its JSON form. -/
def fields : Event → List (String × Json)
  | .blockConnected block height txCount undoSize =>
    [("block", .string block.toHex), ("height", .number height), ("tx_count", .number txCount),
      ("undo_size", .number undoSize)]
  | .blockDisconnected block height clean =>
    [("block", .string block.toHex), ("height", .number height), ("clean", .bool clean)]
  | .sidechainUpdated sidechain block isPresent balance lastEpoch =>
    [("sidechain", .string sidechain.toHex), ("block", .string block.toHex),
      ("exists", .bool isPresent), ("balance", .number balance),
      ("last_certificate_epoch", .number lastEpoch)]

/-- The JSON form of an event: the word for its kind beside its data. -/
def toJson (event : Event) : Json :=
  .object [("type", .string event.kind.name), ("data", .object event.fields)]

end Event

end Reorg
