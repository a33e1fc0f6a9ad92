/-
**Outputs.**

An output holds an amount and the script that locks it. On the wire the amount is packed and the
script is in its short form.
-/

import Reorg.Amount
import Reorg.Script.Wire
import Reorg.Text.Described
import Reorg.Wire.Codec

namespace Reorg

/-- An amount and the script that locks it. -/
structure Output where
  value : Amount
  script : Script
deriving DecidableEq

namespace Output

/-- The output with nothing in it. -/
def blank : Output := ⟨0, []⟩

/-- An amount as the packed word that the wire carries. -/
def packedValue (output : Output) : Nat :=
  Amount.packWord (toWord UInt64.size output.value)

instance : ToWire Output where
  toWire output := VarInt.write output.packedValue ++ Script.write output.script
  wireSize output := VarInt.size output.packedValue + Script.writtenSize output.script

/-- Reads an output: its packed value, then its script. -/
def read : Decoder Output := do
  let value := ofWord UInt64.size (Amount.unpackWord (← VarInt.read))
  return ⟨value, ← Script.read⟩

instance : FromWire Output := ⟨read⟩

instance : Described Output where
  describe output := Text.record "TxOutput"
    [("value", describe output.value), ("script_pubkey", describe output.script)]

end Output

end Reorg
