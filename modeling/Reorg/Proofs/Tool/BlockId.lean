/-
**Naming a block on the command line.**

A block is named by the digits that show it. Reading a name is the inverse of showing a block, up to
the case of the digits, and every other text is refused for the first thing that is wrong with it:
an odd number of bytes, then a wrong number, then the first byte that is no digit.

* `parseBlockId_eq_ok_iff`, `parseBlockId_eq_error_iff`: a name is taken as the digits of a digest
  are, and refused for the same cause;
* `blockId_exact`: which texts name a block, which block, and what is wrong with the others.
-/

import Reorg.Proofs.Fallible
import Reorg.Proofs.Text.Hex
import Reorg.Tool.Command

namespace Reorg.Tool

variable {text : String} {block : Digest}

theorem parseBlockId_eq_ok_iff : parseBlockId text = .ok block ↔ Digest.ofHex text = .ok block := by
  rw [parseBlockId, Fallible.mapError_eq_ok_iff]

theorem parseBlockId_eq_error_iff {problem : ToolError} : parseBlockId text = .error problem ↔
    ∃ cause, Digest.ofHex text = .error cause ∧ .invalidBlockId text cause = problem := by
  rw [parseBlockId, Fallible.mapError_eq_error_iff]

/-- **The digits of a block are parsed exactly.** A text shows a digest when it has sixty-four
characters and all of them are digits, of either case; it is the digest whose digits are the text in
lower case, so the digits of a digest show it. Every other text is refused for the first of the
causes that `Hex.RefusedFor` lists, and only for it. A text names the block that it shows, and it
names none for the cause for which it shows none. -/
theorem blockId_exact (text : String) :
    ((∃ digest, Digest.ofHex text = .ok digest) ↔
      text.length = 64 ∧ ∀ char ∈ text.toList, Hex.IsDigit char) ∧
    (∀ digest, Digest.ofHex text = .ok digest ↔ digest.toHex = text.toLower) ∧
    (∀ digest, Digest.ofHex digest.toHex = .ok digest) ∧
    (∀ cause, Digest.ofHex text = .error cause ↔
      Hex.RefusedFor 32 text.toUTF8.data.toList cause) ∧
    (∀ digest, parseBlockId text = .ok digest ↔ Digest.ofHex text = .ok digest) ∧
    (∀ problem, parseBlockId text = .error problem ↔
      ∃ cause, Digest.ofHex text = .error cause ∧ .invalidBlockId text cause = problem) := by
  refine ⟨Digest.exists_ofHex_iff, fun digest => Digest.ofHex_eq_ok_iff, Digest.ofHex_toHex,
    fun cause => Digest.ofHex_eq_error_iff, fun digest => parseBlockId_eq_ok_iff,
    fun problem => parseBlockId_eq_error_iff⟩

end Reorg.Tool
