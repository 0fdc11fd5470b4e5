import Mathlib.Algebra.Ring.Int.Defs
import Mathlib.Data.Finset.Sort
import Mathlib.Data.List.Sort
import Mathlib.Data.String.Basic
import PocketCash.Library.KeyedList
import PocketCash.Dpc.Chain

/-!
# The unspent token register

`UnspentTokenRegister` of `dpc/wallet.py`: the receipts of a wallet, the ids it has spent and the
nonces of all records it has ever accepted. A spent token may come back, but only under a last
record whose nonce the wallet has not seen.

`save` writes the register as a JSON document with sorted keys and `load` reads it again, so a
reloaded register has its entries in another order and is otherwise the same.
-/

namespace PocketCash.Dpc

/-- Local proof that a wallet accepted a token. -/
structure Receipt where
  tokenId : String
  receivedAt : Int
  finalHop : TransferRecord
  fullChain : List TransferRecord
  isRedeemed : Bool
  token : Option Token
  deriving DecidableEq, Repr

/-- Local Unspent Token Register for wallet-owned receipts. -/
structure UnspentTokenRegister where
  walletId : String
  entries : Dict String Receipt
  spentTokenIds : Finset String
  seenNonces : Finset String
  deriving DecidableEq

/-- `records[-1]`. -/
def lastRecord (records : List TransferRecord) : Except Raised TransferRecord :=
  match records.getLast? with
  | some tip => .ok tip
  | none => .error (.py .indexError)

/-- `{record.nonce for record in records}`. -/
def nonces (records : List TransferRecord) : Finset String :=
  (records.map TransferRecord.nonce).toFinset

/-- The amount a receipt stands for. -/
def Receipt.amount (receipt : Receipt) : Int :=
  match receipt.token with
  | some token => token.amountSubunits
  | none => receipt.finalHop.amountSubunits

/-- The last record of the chain is the final hop. -/
def Receipt.EndsInFinalHop (receipt : Receipt) : Prop :=
  receipt.fullChain.getLast? = some receipt.finalHop

namespace UnspentTokenRegister

/-- Create an empty UTR. -/
def new (walletId : String) : UnspentTokenRegister := ⟨walletId, .empty, ∅, ∅⟩

/-- Return the current UTR balance. -/
def totalBalance (utr : UnspentTokenRegister) : Int :=
  (utr.entries.items.map fun e => e.2.amount).sum

/-- Add a validated receipt to the UTR. -/
def addReceipt (utr : UnspentTokenRegister) (receipt : Receipt) :
    Except Raised UnspentTokenRegister := do
  let isReturningToken := receipt.tokenId ∈ utr.spentTokenIds
  if receipt.tokenId ∈ utr.entries.keys then
    throw (.dpc .doubleSpend "Token is already unspent in this wallet")
  if isReturningToken then
    let tip ← lastRecord receipt.fullChain
    if tip.nonce ∈ utr.seenNonces then
      throw (.dpc .doubleSpend "Token was already spent by this wallet")
  let incomingNonces := nonces receipt.fullChain
  let nonceConflicts ← if isReturningToken then do
      let tip ← lastRecord receipt.fullChain
      pure ({tip.nonce} ∩ utr.seenNonces)
    else pure (utr.seenNonces ∩ incomingNonces)
  if nonceConflicts ≠ ∅ then
    throw (.dpc .doubleSpend "Replay attack: nonce already seen")
  if utr.totalBalance + receipt.amount > maxWalletBalanceSubunits then
    throw (.dpc .walletBalanceCap "Wallet balance cap would be exceeded")
  return { utr with
    entries := utr.entries.set receipt.tokenId receipt
    spentTokenIds := utr.spentTokenIds.erase receipt.tokenId
    seenNonces := utr.seenNonces ∪ incomingNonces }

/-- Remove and return a token receipt for outward transfer. -/
def spend (utr : UnspentTokenRegister) (tokenId : String) :
    Except Raised (UnspentTokenRegister × Receipt) :=
  match utr.entries.get? tokenId with
  | none =>
    .error (.dpc .walletState ("Token " ++ tokenId ++ " is not available in this wallet"))
  | some receipt =>
    .ok ({ utr with
      entries := utr.entries.pop tokenId
      spentTokenIds := insert tokenId utr.spentTokenIds }, receipt)

/-- Restore a receipt after a failed send attempt. -/
def restoreUnspent (utr : UnspentTokenRegister) (receipt : Receipt) : UnspentTokenRegister :=
  { utr with
    entries := utr.entries.set receipt.tokenId receipt
    spentTokenIds := utr.spentTokenIds.erase receipt.tokenId }

end UnspentTokenRegister

/-! ### What is admitted -/

/-- What `add_receipt` checks. -/
structure UnspentTokenRegister.Admits (utr : UnspentTokenRegister) (receipt : Receipt) : Prop where
  absent : receipt.tokenId ∉ utr.entries.keys
  returning : receipt.tokenId ∈ utr.spentTokenIds →
    ∃ tip, receipt.fullChain.getLast? = some tip ∧ tip.nonce ∉ utr.seenNonces
  unseen : receipt.tokenId ∉ utr.spentTokenIds → Disjoint utr.seenNonces (nonces receipt.fullChain)
  cap : utr.totalBalance + receipt.amount ≤ maxWalletBalanceSubunits

/-- The register after `receipt` was stored. -/
def UnspentTokenRegister.store (utr : UnspentTokenRegister) (receipt : Receipt) :
    UnspentTokenRegister :=
  { utr with
    entries := utr.entries.set receipt.tokenId receipt
    spentTokenIds := utr.spentTokenIds.erase receipt.tokenId
    seenNonces := utr.seenNonces ∪ nonces receipt.fullChain }

lemma UnspentTokenRegister.Admits.addReceipt_eq {utr : UnspentTokenRegister} {receipt : Receipt}
    (h : utr.Admits receipt) : utr.addReceipt receipt = .ok (utr.store receipt) := by
  have hcap := Int.not_lt.mpr h.cap
  rw [addReceipt]
  by_cases hspent : receipt.tokenId ∈ utr.spentTokenIds
  · obtain ⟨tip, htip, hunseen⟩ := h.returning hspent
    simp [h.absent, hspent, lastRecord, htip, hunseen, hcap, store]
  · have hdisj := Finset.disjoint_iff_inter_eq_empty.mp (h.unseen hspent)
    simp [h.absent, hspent, hdisj, hcap, store]

lemma UnspentTokenRegister.admits_of_addReceipt {utr utr' : UnspentTokenRegister}
    {receipt : Receipt} (h : utr.addReceipt receipt = .ok utr') : utr.Admits receipt := by
  rw [addReceipt] at h
  by_cases habsent : receipt.tokenId ∈ utr.entries.keys
  · simp [habsent] at h
  by_cases hspent : receipt.tokenId ∈ utr.spentTokenIds
  · cases htip : receipt.fullChain.getLast? with
    | none => simp [habsent, hspent, lastRecord, htip] at h
    | some tip =>
      by_cases hseen : tip.nonce ∈ utr.seenNonces
      · simp [habsent, hspent, lastRecord, htip, hseen] at h
      · by_cases hcap : utr.totalBalance + receipt.amount > maxWalletBalanceSubunits
        · simp [habsent, hspent, lastRecord, htip, hseen, hcap] at h
        · exact ⟨habsent, fun _ => ⟨tip, htip, hseen⟩, fun h => absurd hspent h,
            Int.not_lt.mp hcap⟩
  · by_cases hdisj : utr.seenNonces ∩ nonces receipt.fullChain = ∅
    · by_cases hcap : utr.totalBalance + receipt.amount > maxWalletBalanceSubunits
      · simp [habsent, hspent, hdisj, hcap] at h
      · exact ⟨habsent, fun h => absurd h hspent,
          fun _ => Finset.disjoint_iff_inter_eq_empty.mpr hdisj, Int.not_lt.mp hcap⟩
    · simp [habsent, hspent, hdisj] at h

/-- The specification of `add_receipt`. -/
theorem UnspentTokenRegister.addReceipt_eq_ok_iff {utr utr' : UnspentTokenRegister}
    {receipt : Receipt} :
    utr.addReceipt receipt = .ok utr' ↔ utr.Admits receipt ∧ utr' = utr.store receipt := by
  constructor
  · intro h
    have hadmits := admits_of_addReceipt h
    exact ⟨hadmits, Except.ok.inj (h.symm.trans hadmits.addReceipt_eq)⟩
  · rintro ⟨hadmits, rfl⟩
    exact hadmits.addReceipt_eq

/-- The specification of `spend`. -/
lemma UnspentTokenRegister.spend_eq_ok {utr utr' : UnspentTokenRegister} {tokenId : String}
    {receipt : Receipt} (h : utr.spend tokenId = .ok (utr', receipt)) :
    utr.entries.get? tokenId = some receipt ∧
      utr' = { utr with
        entries := utr.entries.pop tokenId, spentTokenIds := insert tokenId utr.spentTokenIds } := by
  rw [spend] at h
  split at h
  · cases h
  · rename_i hget
    cases h
    exact ⟨hget, rfl⟩

/-- The last record of an admitted receipt was not seen before, whether the token is new or comes
back. -/
lemma UnspentTokenRegister.Admits.tip_unseen {utr : UnspentTokenRegister} {receipt : Receipt}
    (h : utr.Admits receipt) {tip : TransferRecord} (htip : receipt.fullChain.getLast? = some tip) :
    tip.nonce ∉ utr.seenNonces := by
  by_cases hspent : receipt.tokenId ∈ utr.spentTokenIds
  · obtain ⟨tip', htip', hunseen⟩ := h.returning hspent
    obtain rfl := Option.some.inj (htip.symm.trans htip')
    exact hunseen
  · intro hseen
    apply Finset.disjoint_left.mp (h.unseen hspent) hseen
    simpa [nonces] using ⟨tip, List.mem_of_getLast? htip, rfl⟩

end PocketCash.Dpc
