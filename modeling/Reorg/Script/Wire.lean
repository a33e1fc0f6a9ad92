/-
**The wire form of scripts.**

A script with a template is the template's number and payload. Any other is its length, raised by
the number of templates, and its bytes. A reader takes the bytes of a script that is too long to be
spent but keeps only the fact that it cannot be spent.
-/

import Reorg.Script.Template
import Reorg.Wire.VarInt

namespace Reorg.Script

/-- The bytes of a script on the wire. -/
def write (script : Script) : Bytes :=
  match Template.ofScript? script with
  | some template => template.tag :: template.payload
  | none => VarInt.write (script.length + Template.count) ++ script

/-- The number of bytes that a script takes on the wire. -/
def writtenSize (script : Script) : Nat :=
  match Template.ofScript? script with
  | some (.keyHash _) | some (.scriptHash _) => 21
  | some (.shortKey _ _) | some (.fullKey _ _) => 33
  | none => VarInt.size (script.length + Template.count) + script.length

/-- Reads the payload of the template of a given number and expands it. -/
def readTemplate (tag : Nat) : Decoder Script := do
  let payload ← Decoder.take (Template.payloadSize tag)
  match (Template.ofTag tag payload).script? with
  | some script => return script
  | none => throw .keyOffCurve

/-- Reads a script of a given length that is written out. -/
def readPlain (length : Nat) : Decoder Script := do
  let script ← Decoder.take length
  return if length > maxSize then [opReturn] else script

/-- Reads a script, either as a template or plain. -/
def read : Decoder Script := do
  let head ← VarInt.read
  if head < Template.count then readTemplate head else readPlain (head - Template.count)

end Reorg.Script
