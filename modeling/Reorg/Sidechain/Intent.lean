/-
**What a transaction does to sidechains.**

An intent creates a sidechain, sends it value, or asks it for a withdrawal and pays the fee.

* `Intent.validate`: an intent says something, and moves an amount that can be moved;
* `createdSidechainId`: the identifier of a created sidechain commits to the transaction and to the
  place of the intent in it.
-/

import Reorg.Sidechain.Params

namespace Reorg

/-- What a transaction does to one sidechain. -/
inductive Intent
  /-- Creates a sidechain and sends it its first value. -/
  | creation (destination : Digest) (value : Amount) (params : CreationParams)
  /-- Sends value to a sidechain. -/
  | forward (destination : Digest) (value : Amount) (sidechain : SidechainId)
  /-- Asks a sidechain for a withdrawal to an address and pays it a fee. -/
  | withdrawal (sidechain : SidechainId) (address : Address) (params : RequestParams)
deriving DecidableEq

namespace Intent

/-- The value that a sidechain receives. -/
def scopedValue : Intent → Amount
  | .creation _ value _ | .forward _ value _ => value
  | .withdrawal _ _ params => params.fee

/-- Whether every part of an intent is null. -/
def isNull : Intent → Bool
  | .creation destination value params => destination.isNull && value == 0 && params.isNull
  | .forward destination value sidechain => destination.isNull && value == 0 && sidechain.isNull
  | .withdrawal sidechain address params => sidechain.isNull && address.isNull && params.isNull

/-- The sidechain that an intent is for, unless it creates one. -/
def target? : Intent → Option SidechainId
  | .creation _ _ _ => none
  | .forward _ _ sidechain | .withdrawal sidechain _ _ => some sidechain

/-- The words for the kind of an intent. -/
def kind : Intent → String
  | .creation _ _ _ => "creation"
  | .forward _ _ _ => "forward transfer"
  | .withdrawal _ _ _ => "withdrawal request"

/-- Checks that an amount can be sent. -/
def checkSent (value : Amount) : Except StructuralError Unit :=
  if 0 < value ∧ value.inRange then .ok () else .error (.amountOutOfRange value)

/-- Checks an intent by itself: that it is not null, then its amount, then its parameters. -/
def validate (intent : Intent) : Except StructuralError Unit :=
  if intent.isNull then .error .nullIntent
  else match intent with
    | .creation _ value params => do checkSent value; params.validate
    | .forward _ value _ => checkSent value
    | .withdrawal _ _ params => params.validate

end Intent

/-- The identifier of the sidechain that the intent at a place in a transaction creates. -/
def createdSidechainId (txid : Digest) (index : Nat) : SidechainId :=
  Digest.hash (txid.bytes ++ littleEndian 4 index)

/-- The sidechain that the intent at a place in a transaction concerns. -/
def Intent.sidechainAt (intent : Intent) (txid : Digest) (index : Nat) : SidechainId :=
  intent.target?.getD (createdSidechainId txid index)

instance : Described Intent where
  describe
    | .creation destination value params => Text.record "Creation"
      [("destination", describe destination), ("value", describe value),
        ("params", describe params)]
    | .forward destination value sidechain => Text.record "ForwardTransfer"
      [("destination", describe destination), ("value", describe value),
        ("sidechain_id", describe sidechain)]
    | .withdrawal sidechain address params => Text.record "WithdrawalRequest"
      [("sidechain_id", describe sidechain), ("mc_destination", describe address),
        ("params", describe params)]

end Reorg
