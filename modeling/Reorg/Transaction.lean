/-
**Transactions and certificates.**

A transaction spends outputs, makes new ones, and may act on sidechains. A certificate pays value
out of a sidechain at the end of one of its epochs. Both are identified by the digest of a text that
describes them.

* `Transaction.preimage`, `Certificate.preimage`: the texts that identifiers commit to.
-/

import Reorg.Output
import Reorg.Sidechain.Record

namespace Reorg

/-- The place of an output: its transaction and its position there. -/
structure OutPoint where
  txid : Digest
  vout : Nat
deriving DecidableEq

namespace OutPoint

/-- The text that names a place. -/
def text (outpoint : OutPoint) : String :=
  outpoint.txid.toHex ++ s!":{outpoint.vout}"

instance : Described OutPoint where
  describe outpoint := Text.record "OutPoint"
    [("txid", describe outpoint.txid), ("vout", describe outpoint.vout)]

end OutPoint

/-- A transaction: its identifier and its content. -/
structure Transaction where
  txid : Digest
  version : Int32
  coinbase : Bool
  inputs : List OutPoint
  outputs : List Output
  intents : List Intent
deriving DecidableEq

namespace Transaction

/-- The version of a transaction that acts on no sidechain. -/
def plainVersion : Int32 := 1

/-- The version of a transaction that acts on sidechains. -/
def sidechainVersion : Int32 := -4

/-- The text that the identifier of a transaction commits to. -/
def preimage (tx : Transaction) : String :=
  describe tx.version ++ describe tx.coinbase ++ describe tx.inputs ++ describe tx.outputs ++
    describe tx.intents

/-- The identifier that the content of a transaction gives it. -/
def contentId (tx : Transaction) : Digest := Digest.hashText tx.preimage

/-- A transaction with the identifier that its content gives it. -/
def identified (tx : Transaction) : Transaction := { tx with txid := tx.contentId }

/-- The transaction that spends some outputs and makes others. -/
def transfer (version : Int32) (inputs : List OutPoint) (outputs : List Output) : Transaction :=
  identified ⟨.zero, version, false, inputs, outputs, []⟩

/-- The transaction that mints the reward of a height; its identifier commits to the height. -/
def reward (height : Nat) (outputs : List Output) : Transaction where
  txid := Digest.hashText ("coinbase" ++ describe height ++ describe outputs)
  version := plainVersion
  coinbase := true
  inputs := []
  outputs := outputs
  intents := []

/-- The transaction with given intents in place of its own. -/
def withIntents (tx : Transaction) (intents : List Intent) : Transaction :=
  identified { tx with version := sidechainVersion, intents }

instance : Described Transaction where
  describe tx := Text.record "Transaction"
    [("txid", describe tx.txid), ("version", describe tx.version),
      ("coinbase", describe tx.coinbase), ("inputs", describe tx.inputs),
      ("outputs", describe tx.outputs), ("cross_chain", describe tx.intents)]

end Transaction

/-- A certificate, which ends an epoch of a sidechain and pays out of it. -/
structure Certificate where
  id : Digest
  sidechain : SidechainId
  epoch : Epoch
  total : Amount
deriving DecidableEq

namespace Certificate

/-- The text that the identifier of a certificate commits to. -/
def preimage (sidechain : SidechainId) (epoch : Epoch) (total : Amount) : String :=
  sidechain.toHex ++ describe epoch ++ describe total

/-- The certificate with the identifier that its content gives it. -/
def create (sidechain : SidechainId) (epoch : Epoch) (total : Amount) : Certificate :=
  ⟨Digest.hashText (preimage sidechain epoch total), sidechain, epoch, total⟩

end Certificate

end Reorg
