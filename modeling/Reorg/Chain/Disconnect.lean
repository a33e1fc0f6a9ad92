/-
**Disconnecting a block.**

The log of a block is applied against the order in which the block was connected: the sidechains
that matured, the certificates from the last to the first, and the transactions from the last to the
first. A log that does not fit is an error; a view that is not as the log expects it makes the
disconnection unclean.

* `ChainState.disconnect`: all of it, in order;
* `touchedSidechains`: the sidechains that a block and its log concern.
-/

import Reorg.Chain.Connect

namespace Reorg

/-- Whether a disconnection found the state as its log expected it. -/
inductive DisconnectStatus
  | clean
  | unclean
deriving DecidableEq

namespace CoinsView

/-- Restores outputs from their records, the last one first, and says whether all of them found
their place as expected. -/
def restoreAll (view : CoinsView) (records : List (OutPoint × OutputUndo)) : CoinsView × Bool :=
  records.foldr (fun record progress =>
    let (restored, expected) := progress.1.restore record.1 record.2
    (restored, progress.2 && expected)) (view, true)

end CoinsView

namespace SidechainView

variable [Arithmetic]

/-- Applies the record of a sidechain. -/
def disconnectEntry (height : Nat) (view : SidechainView) (entry : SidechainId × SidechainUndo) :
    Except ChainError SidechainView := do
  let (id, undo) := entry
  let sidechain ← view.find id
  if sidechain.balance < undo.matured then
    .error (.insufficientBalance id sidechain.balance undo.matured)
  else
    .ok (view.insert id (undo.applyTo sidechain height))

/-- Pays back what a certificate paid out. -/
def disconnectCertificate (view : SidechainView) (certificate : Certificate) :
    Except ChainError SidechainView := do
  let sidechain ← view.find certificate.sidechain
  return view.insert certificate.sidechain
    { sidechain with balance := Arithmetic.amount (sidechain.balance + certificate.total) }

/-- Takes back what the intent at a place in a transaction did. -/
def disconnectIntent (maturity height : Nat) (txid : Digest) (view : SidechainView)
    (placed : Intent × Nat) : Except ChainError SidechainView := do
  let (intent, index) := placed
  let id := intent.sidechainAt txid index
  let due := Arithmetic.height (height + maturity)
  let sidechain ← view.find id
  match sidechain.removeImmature? due intent.scopedValue with
  | none => .error (.immatureMissing id due intent.scopedValue)
  | some reduced =>
    match intent with
    | .creation _ _ _ =>
      if 0 < reduced.balance then .error (.sidechainNotEmpty id reduced.balance)
      else .ok (view.erase id)
    | _ => .ok (view.insert id reduced)

/-- Takes back what the intents of a transaction did, the last one first. -/
def disconnectIntents (view : SidechainView) (maturity height : Nat) (tx : Transaction) :
    Except ChainError SidechainView :=
  tx.intents.zipIdx.reverse.foldlM (disconnectIntent maturity height tx.txid) view

end SidechainView

namespace BlockUndo

/-- Checks that a log has a record for each spending transaction of a block, with an entry for each
of its inputs. -/
def checkShape (undo : BlockUndo) (block : Block) : Except ChainError Unit :=
  if undo.txUndos.length ≠ block.spending.length then
    .error (.txCountMismatch block.spending.length undo.txUndos.length)
  else
    (block.spending.zip undo.txUndos).forM fun (tx, txUndo) =>
      if tx.inputs.length ≠ txUndo.prevouts.length then
        .error (.inputCountMismatch tx.txid tx.inputs.length txUndo.prevouts.length)
      else
        .ok ()

/-- Each transaction with the records of the outputs it spent; one that mints takes no record. -/
def assign : List Transaction → List TxUndo → List (Transaction × List OutputUndo)
  | [], _ => []
  | tx :: txs, undos =>
    if tx.coinbase then (tx, []) :: assign txs undos
    else (tx, (undos.head?.map TxUndo.prevouts).getD []) :: assign txs undos.tail

end BlockUndo

namespace ChainState

variable [Arithmetic]

/-- Disconnects the last transaction left of a block, and says whether it was clean so far. -/
def disconnectTx (height : Nat) (progress : ChainState × Bool)
    (assigned : Transaction × List OutputUndo) : Except ChainError (ChainState × Bool) := do
  let (state, clean) := progress
  let (tx, prevouts) := assigned
  let (removed, matched) :=
    if height = 0 then (state.coins, true) else state.coins.removeTx tx height
  let sidechains ← state.sidechains.disconnectIntents state.maturity height tx
  let (coins, expected) := removed.restoreAll (tx.inputs.zip prevouts)
  return ({ state with coins, sidechains }, clean && matched && expected)

/-- Takes back what a block did to sidechains by itself. -/
def disconnectSidechains (view : SidechainView) (block : Block) (undo : BlockUndo) :
    Except ChainError SidechainView := do
  let entered ← undo.sidechains.entries.foldlM (SidechainView.disconnectEntry block.height) view
  block.certificates.reverse.foldlM SidechainView.disconnectCertificate entered

/-- Disconnects a block by its log. -/
def disconnect (state : ChainState) (block : Block) (undo : BlockUndo) :
    Except ChainError (ChainState × DisconnectStatus) := do
  undo.checkShape block
  let sidechains ← disconnectSidechains state.sidechains block undo
  let (final, clean) ← (BlockUndo.assign block.transactions undo.txUndos).reverse.foldlM
    (disconnectTx block.height) ({ state with sidechains }, true)
  return ({ final with root := undo.priorRoot }, if clean then .clean else .unclean)

end ChainState

/-- The sidechains that the intents of a transaction concern. -/
def Transaction.sidechains (tx : Transaction) : List SidechainId :=
  tx.intents.zipIdx.map fun placed => placed.1.sidechainAt tx.txid placed.2

/-- The sidechains that a block and its log concern, ascending. -/
def touchedSidechains (block : Block) (undo : BlockUndo) : List SidechainId :=
  let ids := undo.sidechains.keys ++ block.certificates.map Certificate.sidechain ++
    block.transactions.flatMap Transaction.sidechains
  (OrderedMap.ofList (ids.map fun id => (id, ()))).keys

end Reorg
