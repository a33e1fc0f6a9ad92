/-
**Why a value of a sidechain is refused.**

`BlobKind` lists the byte strings of fixed size; each constructor of `StructuralError` is one cause,
with its sentence in `StructuralError.message`.
-/

import Reorg.Amount
import Reorg.Hash.Digest

namespace Reorg

/-- The identifier of a sidechain. -/
abbrev SidechainId := Digest

/-- The number of a withdrawal epoch. -/
abbrev Epoch := Int

/-- The kinds of byte strings of fixed size that sidechains use. -/
inductive BlobKind
  | fieldElement
  | proof
  | verifyingKey
deriving DecidableEq

namespace BlobKind

/-- The number of bytes in a value of a kind. -/
def size : BlobKind → Nat
  | .fieldElement => 96
  | .proof => 771
  | .verifyingKey => 1544

/-- What a value of a kind is called in a sentence. -/
def noun : BlobKind → String
  | .fieldElement => "field element"
  | .proof => "proof"
  | .verifyingKey => "verification key"

/-- What a kind is called in described forms. -/
def typeName : BlobKind → String
  | .fieldElement => "FieldElement"
  | .proof => "ScProof"
  | .verifyingKey => "VerifyingKey"

end BlobKind

/-- The things whose size is checked. -/
inductive SizedItem
  | blob (kind : BlobKind)
  | constant
deriving DecidableEq

namespace SizedItem

/-- What a sized thing is called in a sentence. -/
def noun : SizedItem → String
  | .blob kind => kind.noun
  | .constant => "constant"

/-- The number of bytes that a sized thing has. -/
def size : SizedItem → Nat
  | .blob kind => kind.size
  | .constant => BlobKind.fieldElement.size

end SizedItem

/-- What the verification keys of a sidechain are for. -/
inductive KeyRole
  /-- To verify the proofs of certificates. -/
  | certificate
  /-- To verify the proofs of requests for withdrawal. -/
  | request
  /-- To verify the proofs of withdrawals from a ceased sidechain. -/
  | ceased
deriving DecidableEq

/-- What a role is called in a sentence. -/
def KeyRole.noun : KeyRole → String
  | .certificate => "certificate"
  | .request => "mbtr"
  | .ceased => "ceased sidechain"

/-- The most bytes of custom data that a sidechain may be created with. -/
def maxCustomData : Nat := 1024

/-- Why a value of a sidechain, or an entry about one, is refused. -/
inductive StructuralError
  | customDataTooLong (length : Nat)
  | invalidLength (item : SizedItem) (actual : Nat)
  | invalidEpochLength (length : Int)
  | missingKey (role : KeyRole)
  | amountOutOfRange (amount : Amount)
  | nullIntent
  | duplicateEntry (id : SidechainId)
deriving DecidableEq

/-- The word for the cause of a refusal. -/
def StructuralError.name : StructuralError → String
  | .customDataTooLong _ => "CustomDataTooLong"
  | .invalidLength _ _ => "InvalidLength"
  | .invalidEpochLength _ => "InvalidEpochLength"
  | .missingKey _ => "MissingVerificationKey"
  | .amountOutOfRange _ => "AmountOutOfRange"
  | .nullIntent => "NullIntent"
  | .duplicateEntry _ => "DuplicateSidechainUndo"

/-- The sentence shown for a refusal. -/
def StructuralError.message : StructuralError → String
  | .customDataTooLong length => s!"Custom data is {length} bytes (max: {maxCustomData})"
  | .invalidLength item actual => item.noun ++ s!" must be {item.size} bytes, got {actual}"
  | .invalidEpochLength length => s!"Withdrawal epoch length must be positive, got {length}"
  | .missingKey role => "Mandatory " ++ role.noun ++ " verification key is null"
  | .amountOutOfRange amount => s!"Amount {amount} is outside the valid money range"
  | .nullIntent => "Cross-chain output is in its null state"
  | .duplicateEntry id => "Sidechain " ++ id.toHex ++ " already has an undo entry in this block"

end Reorg
