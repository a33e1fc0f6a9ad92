/-
**Records of the library in JSON.**

How digests, outputs, their places and undo logs are written, and how the first three are read. A
record with named fields is written as an object, with the fields in a fixed order.
-/

import Reorg.Json.Document
import Reorg.Json.Value
import Reorg.Undo.Block

namespace Reorg

namespace Digest

/-- The JSON form of a digest: its hex digits, as a string. -/
def toJson (digest : Digest) : Json := .string digest.toHex

/-- The digest in a document, if it is a string of hex digits for one. -/
def ofDocument? (document : Document) : Option Digest :=
  document.text?.bind fun text => (ofHex text).toOption

end Digest

namespace Output

/-- The JSON form of an output. -/
def toJson (output : Output) : Json :=
  .object [("value", .number output.value), ("script_pubkey", .string (Hex.encode output.script))]

/-- The output in a document, whose value has to fit into 64 bits. -/
def ofDocument? (document : Document) : Option Output := do
  match ← document.fields? ["value", "script_pubkey"] with
  | [some value, some script] =>
    let value ← value.integer? Int64.minValue.toInt Int64.maxValue.toInt
    let text ← script.text?
    return ⟨value, ← (Hex.decode text.toUTF8.data.toList).toOption⟩
  | _ => none

end Output

namespace OutPoint

/-- The JSON form of the place of an output. -/
def toJson (outpoint : OutPoint) : Json :=
  .object [("txid", outpoint.txid.toJson), ("vout", .number outpoint.vout)]

/-- The place of an output in a document, whose position has to fit into 32 bits. -/
def ofDocument? (document : Document) : Option OutPoint := do
  match ← document.fields? ["txid", "vout"] with
  | [some txid, some vout] =>
    return ⟨← Digest.ofDocument? txid, (← vout.integer? 0 (UInt32.size - 1)).toNat⟩
  | _ => none

end OutPoint

/-- The JSON form of the undo record of an output. -/
def OutputUndo.toJson (undo : OutputUndo) : Json :=
  .object [("output", undo.output.toJson), ("coinbase", .bool undo.coinbase),
    ("height", .number undo.height), ("version", .number undo.version.toInt)]

/-- The JSON form of the undo record of a transaction. -/
def TxUndo.toJson (undo : TxUndo) : Json :=
  .object [("prevouts", .array (undo.prevouts.map OutputUndo.toJson))]

/-- The JSON form of the undo note of a sidechain. -/
def SidechainUndo.toJson (undo : SidechainUndo) : Json :=
  .object [("matured_amount", .number undo.matured),
    ("prior_certificate_epoch", .number undo.priorEpoch)]

/-- The JSON form of an undo log, with its sidechains ascending. -/
def BlockUndo.toJson (undo : BlockUndo) : Json :=
  .object [("tx_undos", .array (undo.txUndos.map TxUndo.toJson)),
    ("prior_commitment_root", undo.priorRoot.toJson),
    ("sidechain_undos",
      .object (undo.sidechains.entries.map fun entry => (entry.1.toHex, entry.2.toJson))),
    ("format", .string undo.generation.name)]

end Reorg
