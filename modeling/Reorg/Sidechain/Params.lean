/-
**Parameters.**

`CreationParams` is what a sidechain is created with; `RequestParams` is what comes with a request
for withdrawal.

* `CreationParams.validate`, `RequestParams.validate`: the checks, in the order in which the first
  failure is reported.
-/

import Reorg.Sidechain.Blob

namespace Reorg

/-- What a sidechain is created with. -/
structure CreationParams where
  epochLength : Int
  customData : Bytes
  constant : Constant
  certificateKey : VerifyingKey
  requestKey : Option VerifyingKey
  ceasedKey : Option VerifyingKey
deriving DecidableEq

namespace CreationParams

/-- The parameters that say nothing. -/
def null : CreationParams := ⟨-1, [], ⟨none⟩, default, none, none⟩

instance : Inhabited CreationParams := ⟨null⟩

/-- Whether the parameters are the null ones. -/
def isNull (params : CreationParams) : Bool :=
  params.epochLength == -1 && params.customData.isEmpty && params.constant.isEmpty &&
    params.certificateKey.isNull && params.requestKey.isNone && params.ceasedKey.isNone

/-- Whether a sidechain with these parameters takes requests for withdrawal. -/
def supportsRequests (params : CreationParams) : Bool := params.requestKey.isSome

/-- Checks the parameters of a new sidechain and refuses the first of them that is wrong. -/
def validate (params : CreationParams) : Except StructuralError Unit :=
  if maxCustomData < params.customData.length then
    .error (.customDataTooLong params.customData.length)
  else if params.epochLength ≤ 0 then
    .error (.invalidEpochLength params.epochLength)
  else if params.certificateKey.isNull then
    .error (.missingKey .certificate)
  else if params.requestKey.any Blob.isNull then
    .error (.missingKey .request)
  else if params.ceasedKey.any Blob.isNull then
    .error (.missingKey .ceased)
  else
    .ok ()

instance : Described CreationParams where
  describe params := Text.record "CreationParameters"
    [("withdrawal_epoch_length", describe params.epochLength),
      ("custom_data", describe params.customData),
      ("constant", describe params.constant),
      ("certificate_verification_key", describe params.certificateKey),
      ("mbtr_verification_key", describe params.requestKey),
      ("ceased_sidechain_verification_key", describe params.ceasedKey)]

end CreationParams

/-- What comes with a request for withdrawal. -/
structure RequestParams where
  fee : Amount
  utxoId : FieldElement
  proof : Proof
deriving DecidableEq

namespace RequestParams

/-- The parameters that say nothing. -/
def null : RequestParams := ⟨0, default, default⟩

instance : Inhabited RequestParams := ⟨null⟩

/-- Whether the parameters are the null ones. -/
def isNull (params : RequestParams) : Bool :=
  params.fee == 0 && params.utxoId.isNull && params.proof.isNull

/-- Checks that the fee of a request can be held. -/
def validate (params : RequestParams) : Except StructuralError Unit :=
  if params.fee.inRange then .ok () else .error (.amountOutOfRange params.fee)

instance : Described RequestParams where
  describe params := Text.record "BwtRequestParameters"
    [("fee", describe params.fee), ("sidechain_utxo_id", describe params.utxoId),
      ("proof", describe params.proof)]

end RequestParams

end Reorg
