import Reorg.Ledger.Node
import Reorg.Main
import Reorg.Store.Memory
import Reorg.Proofs.Coins.Entry
import Reorg.Proofs.Coins.View
import Reorg.Proofs.Block
import Reorg.Proofs.Chain.Connect
import Reorg.Proofs.Chain.Disconnect
import Reorg.Proofs.Chain.Inverse
import Reorg.Proofs.Chain.Log
import Reorg.Proofs.Ledger.Run
import Reorg.Proofs.Coins.Outputs
import Reorg.Proofs.Undo.Legacy
import Reorg.Proofs.Chain.Unspent
import Reorg.Proofs.Sidechain.Account
import Reorg.Proofs.Chain.Accounts
import Reorg.Proofs.Wire.Yields
import Reorg.Proofs.Undo.Carried
import Reorg.Proofs.Ledger.Stored
import Reorg.Proofs.Agreement
import Reorg.Proofs.Wire.Takes
import Reorg.Proofs.Script.Spelling
import Reorg.Proofs.Wire.Spelling
import Reorg.Proofs.Undo.Spelling
import Reorg.Proofs.Chain.Payout
import Reorg.Proofs.Sidechain.Touched
import Reorg.Proofs.Bus.Delivery
import Reorg.Proofs.Ledger.Mirror
import Reorg.Proofs.Text.Described
import Reorg.Proofs.Text.Digits
import Reorg.Proofs.Sidechain.Described
import Reorg.Proofs.Transaction
import Reorg.Proofs.Undo.Upgrade
import Reorg.Proofs.WireType
import Reorg.Proofs.Tool.Migration
import Reorg.Proofs.Text.Decimal
import Reorg.Proofs.Commitment
import Reorg.Proofs.Chain.Conservation
import Reorg.Proofs.Bus.Channels
import Reorg.Proofs.Bus.Traffic
import Reorg.Proofs.Sidechain.Reversal
import Reorg.Proofs.Sidechain.Origins
import Reorg.Proofs.Chain.Origins
import Reorg.Proofs.Chain.Overflow
import Reorg.Proofs.Chain.Changes
import Reorg.Proofs.Store.Directory
import Reorg.Proofs.Store.Refinement
import Reorg.Proofs.Coins.Run
import Reorg.Proofs.Undo.Order
import Reorg.Proofs.Ledger.Atomic
import Reorg.Proofs.Tool.BlockId
import Reorg.Proofs.Script.Lossless
import Reorg.Proofs.Tool.Audit
import Reorg.Proofs.Wire.Groups
import Reorg.Proofs.Wire.Widths
