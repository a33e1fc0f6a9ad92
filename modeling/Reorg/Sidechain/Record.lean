/-
**Sidechain records.**

A record holds the balance of a sidechain, the epoch of its last certificate, and the amounts that
are on their way: each waits for the height at which it joins the balance.

* `addImmature`, `removeImmature?`: entries of zero are never kept, so removing what was added
  restores the record;
* `mature?`: the entry of a height moves into the balance.
-/

import Reorg.Arithmetic
import Reorg.Sidechain.Intent

namespace Reorg

/-- The epoch of a sidechain that has had no certificate. -/
def noEpoch : Epoch := -1

/-- What the main chain knows about a sidechain. -/
structure Sidechain where
  creationHeight : Nat
  creationTx : Digest
  params : CreationParams
  balance : Amount
  lastEpoch : Epoch
  immature : OrderedMap Nat Amount
deriving DecidableEq

namespace Sidechain

variable [Arithmetic]

/-- The record of a new sidechain, which holds nothing. -/
def create (height : Nat) (txid : Digest) (params : CreationParams) : Sidechain :=
  ⟨height, txid, params, 0, noEpoch, .empty⟩

/-- Puts an amount on its way, to join the balance at a height. -/
def addImmature (sidechain : Sidechain) (height : Nat) (amount : Amount) : Sidechain :=
  if amount = 0 then sidechain
  else
    let waiting := (sidechain.immature.get? height).getD 0
    { sidechain with
      immature := sidechain.immature.insert height (Arithmetic.amount (waiting + amount)) }

/-- Takes back an amount that is on its way, if that much is. -/
def removeImmature? (sidechain : Sidechain) (height : Nat) (amount : Amount) : Option Sidechain :=
  if amount = 0 then some sidechain
  else match sidechain.immature.get? height with
    | none => none
    | some waiting =>
      if waiting < amount then none
      else if waiting = amount then
        some { sidechain with immature := sidechain.immature.erase height }
      else
        some { sidechain with
          immature := sidechain.immature.insert height (Arithmetic.amount (waiting - amount)) }

/-- Moves the amount that waits for a height, if any, into the balance. -/
def mature? (sidechain : Sidechain) (height : Nat) : Option (Amount × Sidechain) :=
  (sidechain.immature.get? height).map fun amount =>
    (amount, { sidechain with
      balance := Arithmetic.amount (sidechain.balance + amount)
      immature := sidechain.immature.erase height })

/-- The sum of the amounts on their way. -/
def immatureTotal (sidechain : Sidechain) : Amount :=
  Arithmetic.amount (sidechain.immature.values.foldr (· + ·) 0)

/-- Checks that a sidechain takes an intent of its kind. -/
def accepts (sidechain : Sidechain) : Intent → Except StructuralError Unit
  | .withdrawal _ _ _ =>
    if sidechain.params.supportsRequests then .ok () else .error (.missingKey .request)
  | _ => .ok ()

end Sidechain

/-- All sidechains, by identifier. -/
abbrev SidechainView := OrderedMap SidechainId Sidechain

/-- The sidechains with an amount that waits for a height. -/
def SidechainView.maturingAt (view : SidechainView) (height : Nat) : List SidechainId :=
  (view.entries.filter fun entry => entry.2.immature.contains height).map Prod.fst

end Reorg
