/-
**Connecting a block.**

Transaction by transaction, inputs are spent, intents reach their sidechains, and outputs are added;
then certificates pay out, then the amounts that waited for this height join the balances. The block
is connected as a whole or not at all, and connecting it gives the log that undoes it. The outputs
of the first block of a chain are not added, so nobody can spend them.

* `CoinsView.spendAll`: the outputs that a transaction spends, with their records;
* `SidechainView.connectIntent`, `connectCertificate`, `matureAt`: what happens to sidechains;
* `ChainState.connect`: all of it, in order.
-/

import Reorg.Chain.Error
import Reorg.Chain.State
import Reorg.Undo.Block

namespace Reorg

namespace CoinsView

/-- Spends outputs in order, and gives their records in the same order. -/
def spendAll (view : CoinsView) : List OutPoint → Except ChainError (List OutputUndo × CoinsView)
  | [] => .ok ([], view)
  | outpoint :: outpoints =>
    match view.spend? outpoint with
    | none => .error (.missingInput outpoint)
    | some (undo, left) => do
      let (undos, final) ← left.spendAll outpoints
      return (undo :: undos, final)

end CoinsView

/-- The records of the sidechains that a block has paid out of or matured so far. -/
abbrev SidechainUndos := OrderedMap SidechainId SidechainUndo

namespace SidechainUndos

/-- The record of a sidechain, which is made with its present epoch if there is none. -/
def recordFor (undos : SidechainUndos) (id : SidechainId) (sidechain : Sidechain) : SidechainUndo :=
  (undos.get? id).getD ⟨0, sidechain.lastEpoch⟩

/-- Adds to the matured amount of a sidechain, whose record is made if there is none. -/
def addMatured [Arithmetic] (undos : SidechainUndos) (id : SidechainId) (sidechain : Sidechain)
    (amount : Amount) : SidechainUndos :=
  let record := undos.recordFor id sidechain
  undos.insert id { record with matured := Arithmetic.amount (record.matured + amount) }

end SidechainUndos

namespace SidechainView

/-- A sidechain that has to be known. -/
def find (view : SidechainView) (id : SidechainId) : Except ChainError Sidechain :=
  match view.get? id with
  | none => .error (.unknownSidechain id)
  | some sidechain => .ok sidechain

variable [Arithmetic]

/-- Makes a sidechain with its first value on its way. -/
def create (view : SidechainView) (maturity height : Nat) (txid : Digest) (id : SidechainId)
    (value : Amount) (params : CreationParams) : Except ChainError SidechainView :=
  if view.contains id then
    .error (.sidechainExists id)
  else
    let sidechain := Sidechain.create height txid params
    .ok (view.insert id (sidechain.addImmature (Arithmetic.height (height + maturity)) value))

/-- Puts the value of an intent on its way to a known sidechain that takes such intents. -/
def credit (view : SidechainView) (maturity height : Nat) (id : SidechainId) (intent : Intent) :
    Except ChainError SidechainView := do
  let sidechain ← view.find id
  (sidechain.accepts intent).mapError .structural
  let due := Arithmetic.height (height + maturity)
  return view.insert id (sidechain.addImmature due intent.scopedValue)

/-- Lets the intent at a place in a transaction reach its sidechain. -/
def connectIntent (maturity height : Nat) (txid : Digest) (view : SidechainView)
    (placed : Intent × Nat) : Except ChainError SidechainView := do
  placed.1.validate.mapError .structural
  match placed.1 with
  | .creation _ value params =>
    view.create maturity height txid (createdSidechainId txid placed.2) value params
  | .forward _ _ id | .withdrawal id _ _ => view.credit maturity height id placed.1

/-- Lets the intents of a transaction reach their sidechains, in order. -/
def connectIntents (view : SidechainView) (maturity height : Nat) (tx : Transaction) :
    Except ChainError SidechainView :=
  tx.intents.zipIdx.foldlM (connectIntent maturity height tx.txid) view

/-- Lets a certificate pay out of its sidechain and end the next epoch. -/
def connectCertificate (progress : SidechainView × SidechainUndos) (certificate : Certificate) :
    Except ChainError (SidechainView × SidechainUndos) := do
  let (view, undos) := progress
  let id := certificate.sidechain
  let sidechain ← view.find id
  let next := Arithmetic.epoch (sidechain.lastEpoch + 1)
  if certificate.epoch ≠ next then
    .error (.epochMismatch id next certificate.epoch)
  else if sidechain.balance < certificate.total then
    .error (.insufficientBalance id sidechain.balance certificate.total)
  else
    let paid := { sidechain with
      balance := Arithmetic.amount (sidechain.balance - certificate.total)
      lastEpoch := certificate.epoch }
    .ok (view.insert id paid, undos.insert id (undos.recordFor id sidechain))

/-- Moves the amount of a sidechain that waited for a height into its balance. -/
def matureAt (height : Nat) (progress : SidechainView × SidechainUndos) (id : SidechainId) :
    SidechainView × SidechainUndos :=
  let (view, undos) := progress
  match view.get? id with
  | none => progress
  | some sidechain =>
    match sidechain.mature? height with
    | none => progress
    | some (amount, matured) => (view.insert id matured, undos.addMatured id sidechain amount)

end SidechainView

namespace ChainState

variable [Arithmetic]

/-- Spends the inputs of a transaction, and adds their record to the log, unless it mints. -/
def connectInputs (state : ChainState) (builder : BlockUndo.Builder) (tx : Transaction) :
    Except ChainError (CoinsView × BlockUndo.Builder) :=
  if tx.coinbase then
    .ok (state.coins, builder)
  else do
    let (prevouts, coins) ← state.coins.spendAll tx.inputs
    return (coins, builder.pushTx ⟨prevouts⟩)

/-- Connects the next transaction of a block. -/
def connectTx (height : Nat) (progress : ChainState × BlockUndo.Builder) (tx : Transaction) :
    Except ChainError (ChainState × BlockUndo.Builder) := do
  let (state, builder) := progress
  let (coins, builder) ← state.connectInputs builder tx
  let sidechains ← state.sidechains.connectIntents state.maturity height tx
  let coins := if height = 0 then coins else coins.addTx tx height
  return ({ state with coins, sidechains }, builder)

/-- Connects the certificates of a block and matures what waited for its height; gives the
sidechains and their records. -/
def connectSidechains (view : SidechainView) (block : Block) :
    Except ChainError (SidechainView × SidechainUndos) := do
  let (paid, undos) ← block.certificates.foldlM SidechainView.connectCertificate (view, .empty)
  return (paid.maturingAt block.height).foldl (SidechainView.matureAt block.height) (paid, undos)

/-- Connects a block and gives the log that undoes it. -/
def connect (state : ChainState) (block : Block) : Except ChainError (ChainState × BlockUndo) := do
  let (spent, builder) ←
    block.transactions.foldlM (connectTx block.height) (state, .start state.root)
  let (sidechains, undos) ← connectSidechains spent.sidechains block
  let builder ← (builder.recordAll undos).mapError .structural
  return ({ spent with sidechains, root := block.root }, builder.build)

end ChainState

end Reorg
