import PocketCash.Dpc.Register

/-!
# Wallets of the `dpc` stack

`DPCWallet` of `dpc/wallet.py`. `receive_token` stores a token whose chain is valid and ends at this
wallet. `send_token` takes the receipt out of the register, appends a signed record to its chain,
and puts the receipt back if that fails with a `DPCError`.
-/

namespace PocketCash.Dpc

/-- Core DPC wallet with identity key and local UTR. -/
structure DPCWallet where
  walletId : String
  keypair : DPCKeyPair
  utr : UnspentTokenRegister

namespace DPCWallet

def publicKeyHex (c : Crypto) (w : DPCWallet) : String := w.keypair.publicKeyHex c

/-- A wallet with an empty register. -/
def new (walletId : String) (keypair : DPCKeyPair) : DPCWallet :=
  ⟨walletId, keypair, .new walletId⟩

/-- Accept a token addressed to this wallet, at time `now` and with the receipt dated
`receivedAt`. -/
def receiveToken (c : Crypto) (w : DPCWallet) (token : Token) (chain : List TransferRecord)
    (now receivedAt : Int) : Except Raised (DPCWallet × Receipt) := do
  if ← token.isExpired now then
    throw (.dpc .tokenExpired "Token has expired")
  validateIntegrity c token chain
  let tip ← lastRecord chain
  if tip.receiverPubkeyHex ≠ w.publicKeyHex c then
    throw (.dpc .walletState "Token not addressed to this wallet")
  let receipt : Receipt := ⟨token.tokenId, receivedAt, tip, chain, false, some token⟩
  let utr ← w.utr.addReceipt receipt
  return ({ w with utr := utr }, receipt)

/-- `_require_token`. -/
def requireToken (receipt : Receipt) : Except Raised Token :=
  match receipt.token with
  | some token => .ok token
  | none => .error (.dpc .walletState "Receipt does not contain token payload")

/-- The `try` block of `send_token`. -/
def transfer (c : Crypto) (keypair : DPCKeyPair) (receipt : Receipt) (receiverPubkeyHex : String)
    (now : Int) (nonce : String) : Except Raised (Token × List TransferRecord) := do
  let token ← requireToken receipt
  if ← token.isExpired now then
    throw (.dpc .tokenExpired "Token has expired")
  let amount := receipt.finalHop.amountSubunits
  if amount > maxSingleTxSubunits then
    throw (.dpc .transactionValueCap "Transaction value cap exceeded")
  validateIntegrity c token receipt.fullChain
  let existingChain := receipt.fullChain
  let tip ← lastRecord existingChain
  let priorOwners := existingChain.map TransferRecord.senderPubkeyHex
  let effectiveHopIndex := if receiverPubkeyHex ∈ priorOwners then 1 else tip.hopIndex + 1
  if effectiveHopIndex > maxOfflineHops then
    throw (.dpc .hopLimitExceeded "Offline hop limit exceeded")
  let newRecord ← TransferRecord.new c ⟨token.tokenId, effectiveHopIndex, keypair.publicKeyHex c,
    receiverPubkeyHex, amount, nonce⟩ tip.chainHash
  let signed ← newRecord.sign c keypair.privateKeyBytes
  return (token, existingChain ++ [signed])

/-- Create a signed outbound transfer. -/
def sendToken (c : Crypto) (w : DPCWallet) (tokenId receiverPubkeyHex : String) (now : Int)
    (nonce : String) : DPCWallet × Except Raised (Token × List TransferRecord) :=
  match w.utr.spend tokenId with
  | .error e => (w, .error e)
  | .ok (utr, receipt) =>
    match transfer c w.keypair receipt receiverPubkeyHex now nonce with
    | .ok sent => ({ w with utr := utr }, .ok sent)
    | .error (.dpc kind message) =>
      ({ w with utr := utr.restoreUnspent receipt }, .error (.dpc kind message))
    | .error (.py e) => ({ w with utr := utr }, .error (.py e))

/-- What `receive_token` checks before it turns to the register. -/
structure Accepts (c : Crypto) (w : DPCWallet) (token : Token) (chain : List TransferRecord)
    (now : Int) : Prop where
  issued : token.issuedAt ≤ now
  unexpired : now ≤ token.ttlExpiry
  valid : ChainValid c token chain
  addressee : ∃ tip, chain.getLast? = some tip ∧ tip.receiverPubkeyHex = w.publicKeyHex c

lemma isExpired_eq_false {token : Token} {now : Int} (h : token.isExpired now = .ok false) :
    token.issuedAt ≤ now ∧ now ≤ token.ttlExpiry := by
  rw [Token.isExpired] at h
  split_ifs at h with hclock
  simp only [Except.ok.injEq, decide_eq_false_iff_not] at h
  omega

lemma requireToken_eq_ok_iff {receipt : Receipt} {token : Token} :
    requireToken receipt = .ok token ↔ receipt.token = some token := by
  rw [requireToken]
  cases receipt.token <;> simp

lemma getLast?_of_lastRecord {records : List TransferRecord} {tip : TransferRecord}
    (h : lastRecord records = .ok tip) : records.getLast? = some tip := by
  rw [lastRecord] at h
  split at h
  · cases h
    assumption
  · cases h

/-- A `receive_token` that returns. -/
lemma receiveToken_eq_ok {c : Crypto} {w w' : DPCWallet} {token : Token}
    {chain : List TransferRecord} {now receivedAt : Int} {receipt : Receipt}
    (h : w.receiveToken c token chain now receivedAt = .ok (w', receipt)) :
    w.Accepts c token chain now ∧ w.utr.Admits receipt ∧
      w' = { w with utr := w.utr.store receipt } ∧ receipt.tokenId = token.tokenId ∧
      receipt.fullChain = chain ∧ receipt.token = some token ∧ receipt.EndsInFinalHop := by
  rw [receiveToken] at h
  obtain ⟨expired, hexpired, h⟩ := bind_eq_ok_iff.mp h
  obtain ⟨hunexpired, h⟩ := guard_eq_ok_iff.mp h
  obtain rfl := Bool.eq_false_iff.mpr hunexpired
  obtain ⟨hissued, httl⟩ := isExpired_eq_false hexpired
  obtain ⟨_, hvalid, h⟩ := bind_eq_ok_iff.mp h
  obtain ⟨tip, htip, h⟩ := bind_eq_ok_iff.mp h
  obtain ⟨haddressee, h⟩ := guard_eq_ok_iff.mp h
  obtain ⟨utr, hutr, h⟩ := bind_eq_ok_iff.mp h
  obtain ⟨hadmits, rfl⟩ := UnspentTokenRegister.addReceipt_eq_ok_iff.mp hutr
  cases h
  exact ⟨⟨hissued, httl, validateIntegrity_eq_ok_iff.mp hvalid, tip, getLast?_of_lastRecord htip,
    not_not.mp haddressee⟩, hadmits, rfl, rfl, rfl, rfl, getLast?_of_lastRecord htip⟩

/-- A `receive_token` returns if the wallet accepts the token and the register admits the receipt. -/
lemma receiveToken_of_accepts {c : Crypto} {w : DPCWallet} {token : Token}
    {chain : List TransferRecord} {now receivedAt : Int} {tip : TransferRecord}
    (h : w.Accepts c token chain now) (htip : chain.getLast? = some tip) {receipt : Receipt}
    (hreceipt : receipt = ⟨token.tokenId, receivedAt, tip, chain, false, some token⟩)
    (hadmits : w.utr.Admits receipt) :
    w.receiveToken c token chain now receivedAt
      = .ok ({ w with utr := w.utr.store receipt }, receipt) := by
  subst hreceipt
  have hexpired : token.isExpired now = .ok false := by
    rw [Token.isExpired, if_neg (Int.not_lt.mpr h.issued)]
    simp [h.unexpired]
  have hvalid := validateIntegrity_eq_ok_iff.mpr h.valid
  obtain ⟨tip', htip', howner⟩ := h.addressee
  obtain rfl := Option.some.inj (htip.symm.trans htip')
  have hlast : lastRecord chain = .ok tip := by rw [lastRecord, htip]
  simp [receiveToken, hexpired, hvalid, hlast, howner, hadmits.addReceipt_eq]

/-- What the `try` block returns is the token of the receipt with one record more. -/
lemma transfer_eq_ok {c : Crypto} {keypair : DPCKeyPair} {receipt : Receipt}
    {receiverPubkeyHex : String} {now : Int} {nonce : String} {token : Token}
    {chain : List TransferRecord}
    (h : transfer c keypair receipt receiverPubkeyHex now nonce = .ok (token, chain)) :
    receipt.token = some token ∧ ChainValid c token receipt.fullChain ∧
      ∃ tip record hopIndex, receipt.fullChain.getLast? = some tip ∧
        chain = receipt.fullChain ++ [record] ∧
        hopIndex = (if receiverPubkeyHex ∈ receipt.fullChain.map TransferRecord.senderPubkeyHex
          then 1 else tip.hopIndex + 1) ∧
        hopIndex ≤ maxOfflineHops ∧
        record.MadeFrom c ⟨token.tokenId, hopIndex, keypair.publicKeyHex c, receiverPubkeyHex,
          receipt.finalHop.amountSubunits, nonce⟩ tip.chainHash keypair.privateKeyBytes := by
  rw [transfer] at h
  obtain ⟨token', htoken, h⟩ := bind_eq_ok_iff.mp h
  obtain ⟨expired, hexpired, h⟩ := bind_eq_ok_iff.mp h
  obtain ⟨hunexpired, h⟩ := guard_eq_ok_iff.mp h
  obtain ⟨hcap, h⟩ := guard_eq_ok_iff.mp h
  obtain ⟨_, hvalid, h⟩ := bind_eq_ok_iff.mp h
  obtain ⟨tip, htip, h⟩ := bind_eq_ok_iff.mp h
  obtain ⟨hhop, h⟩ := guard_eq_ok_iff.mp h
  obtain ⟨record, hrecord, h⟩ := bind_eq_ok_iff.mp h
  obtain ⟨signed, hsigned, h⟩ := bind_eq_ok_iff.mp h
  cases h
  exact ⟨requireToken_eq_ok_iff.mp htoken, validateIntegrity_eq_ok_iff.mp hvalid, tip, signed, _,
    getLast?_of_lastRecord htip, rfl, rfl, Int.not_lt.mp hhop, TransferRecord.madeFrom_of_sign hrecord hsigned⟩

/-- The wallet that is left by a call that raises: nothing was taken out, the receipt is lost, or it
was put back. -/
inductive GaveUp (w : DPCWallet) (tokenId : String) : DPCWallet → Prop
  | refused : GaveUp w tokenId w
  | lost {utr : UnspentTokenRegister} {receipt : Receipt}
      (hspend : w.utr.spend tokenId = .ok (utr, receipt)) : GaveUp w tokenId { w with utr := utr }
  | restored {utr : UnspentTokenRegister} {receipt : Receipt}
      (hspend : w.utr.spend tokenId = .ok (utr, receipt)) :
      GaveUp w tokenId { w with utr := utr.restoreUnspent receipt }

/-- `send_token` raises and gives up, or takes the receipt out and returns its transfer. -/
lemma sendToken_cases (c : Crypto) (w : DPCWallet) (tokenId receiverPubkeyHex : String) (now : Int)
    (nonce : String) :
    (∃ w' e, w.GaveUp tokenId w' ∧
      w.sendToken c tokenId receiverPubkeyHex now nonce = (w', .error e)) ∨
    ∃ utr receipt sent, w.utr.spend tokenId = .ok (utr, receipt) ∧
      transfer c w.keypair receipt receiverPubkeyHex now nonce = .ok sent ∧
      w.sendToken c tokenId receiverPubkeyHex now nonce = ({ w with utr := utr }, .ok sent) := by
  rw [sendToken]
  cases hspend : w.utr.spend tokenId with
  | error e => exact .inl ⟨w, e, .refused, rfl⟩
  | ok spent =>
    obtain ⟨utr, receipt⟩ := spent
    cases htransfer : transfer c w.keypair receipt receiverPubkeyHex now nonce with
    | ok sent => exact .inr ⟨utr, receipt, sent, rfl, htransfer, by simp only [htransfer]⟩
    | error raised =>
      left
      cases raised with
      | dpc kind message => exact ⟨_, .dpc kind message, .restored hspend, by simp only [htransfer]⟩
      | py e => exact ⟨_, .py e, .lost hspend, by simp only [htransfer]⟩

end DPCWallet

end PocketCash.Dpc
