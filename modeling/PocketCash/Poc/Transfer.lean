import PocketCash.Poc.Handover

/-!
# Building and sending transfers

`build_transfer` and `sign_transfer` of `dpc_poc/dpc/transfer.py`, and `send_token` of
`dpc_poc/dpc/wallet.py`. The wallet writes the token back after the lifecycle reset, before
`build_transfer` can raise. Differences of times are exact.
-/

namespace PocketCash.Poc

/-- What `build_transfer` draws: `time.time()` and the bytes of `generate_nonce_hex()`. -/
structure TransferDraw where
  now : PyFloat
  nonce : Bytes

/-- `generate_nonce_hex`. -/
def TransferDraw.nonceHex (draw : TransferDraw) : String := Hex.encode draw.nonce

/-- Sign a chain hash with Ed25519 private key. -/
def signTransfer (c : Crypto) (payerPrivateKeyBytes : Bytes) (chainHashHex : String) :
    Except PyError String := do
  let chainHash ← fromhex chainHashHex
  return Hex.encode (c.sign payerPrivateKeyBytes chainHash)

/-- Build and sign a transfer of a token to a recipient. -/
def buildTransfer (c : Crypto) (token : Token) (payerPrivateKeyBytes : Bytes)
    (payerPubkeyHex recipientPubkeyHex : String) (amount : PyFloat) (policy : PolicyConfig)
    (draw : TransferDraw) : Except PyError (TransferRecord × Token) := do
  if token.ownerPubkeyHex ≠ payerPubkeyHex then throw (.valueError "Wallet does not own token")
  if token.issuedAt.toRat > draw.now.toRat then
    throw (.valueError "Invalid token: issued in the future")
  if token.hopCount ≥ policy.maxOfflineHops then throw (.valueError "Hop limit reached")
  if amount.toRat > policy.maxTransactionValueEtb then
    throw (.valueError "Transaction exceeds offline pocket cash limits")
  if amount.toRat > token.denomination.toRat then throw (.valueError "Insufficient token value")
  if draw.now.toRat - token.issuedAt.toRat > policy.tokenTtlSeconds then
    throw (.valueError "Token expired")
  let payload ← buildTxPayload c token.tokenId recipientPubkeyHex amount draw.nonceHex
  let chainHash ← computeChainHash c payload token.chainHash
  let signatureHex ← signTransfer c payerPrivateKeyBytes chainHash
  let record : TransferRecord :=
    { tokenId := token.tokenId
      prevOwnerPubkeyHex := payerPubkeyHex
      nextOwnerPubkeyHex := recipientPubkeyHex
      amount := amount
      nonceHex := draw.nonceHex
      chainHash := chainHash
      signatureHex := signatureHex
      timestamp := draw.now }
  let updated : Token :=
    { token with
      ownerPubkeyHex := recipientPubkeyHex
      hopCount := token.hopCount + 1
      transferHistory := token.transferHistory ++ [recipientPubkeyHex]
      chainHash := chainHash }
  return (record, updated)

namespace Wallet

/-- The assignment `self.state.unspent_tokens[token_id] = token`. -/
def keepToken (w : Wallet) (tokenId : String) (token : Token) : Wallet :=
  { w with state := { w.state with unspentTokens := w.state.unspentTokens.set tokenId token } }

/-- The token is deleted, and the nonce of its record added to the spent ones. -/
def dropToken (w : Wallet) (tokenId nonceHex : String) : Wallet :=
  { w with
    state := { w.state with
      unspentTokens := w.state.unspentTokens.pop tokenId
      spentNonces := insert (tokenId, nonceHex) w.state.spentNonces } }

/-- Send a token to a recipient. -/
def sendToken (c : Crypto) (w : Wallet) (tokenId recipientPubkeyHex : String) (amount : PyFloat)
    (draw : TransferDraw) : Wallet × Except PyError (TransferRecord × Token) :=
  match w.state.unspentTokens.get? tokenId with
  | none => (w, .error (.valueError "Token not found in wallet"))
  | some token =>
    let token := checkLifecycleReset token w.pubkeyHex
    let w := w.keepToken tokenId token
    match buildTransfer c token w.privateKeyBytes w.pubkeyHex recipientPubkeyHex amount
        w.state.policy draw with
    | .error e => (w, .error e)
    | .ok (record, newToken) => (w.dropToken tokenId record.nonceHex, .ok (record, newToken))

end Wallet

/-! ### What a built transfer is -/

/-- The checks of `build_transfer`. -/
structure Token.Payable (token : Token) (policy : PolicyConfig) (payerPubkeyHex : String)
    (amount : PyFloat) (now : PyFloat) : Prop where
  owner : token.ownerPubkeyHex = payerPubkeyHex
  issued : token.issuedAt.toRat ≤ now.toRat
  hops : token.hopCount < policy.maxOfflineHops
  withinPolicy : amount.toRat ≤ policy.maxTransactionValueEtb
  withinToken : amount.toRat ≤ token.denomination.toRat
  alive : now.toRat - token.issuedAt.toRat ≤ policy.tokenTtlSeconds

/-- The token in the hands of its next owner. -/
def Token.passedTo (token : Token) (recipientPubkeyHex chainHash : String) : Token :=
  { token with
    ownerPubkeyHex := recipientPubkeyHex
    hopCount := token.hopCount + 1
    transferHistory := token.transferHistory ++ [recipientPubkeyHex]
    chainHash := chainHash }

/-- The record of a transfer with the given chain hash. -/
def Token.recordOf (c : Crypto) (token : Token) (payerPrivateKeyBytes : Bytes)
    (payerPubkeyHex recipientPubkeyHex : String) (amount : PyFloat) (draw : TransferDraw)
    (digest : Bytes) : TransferRecord where
  tokenId := token.tokenId
  prevOwnerPubkeyHex := payerPubkeyHex
  nextOwnerPubkeyHex := recipientPubkeyHex
  amount := amount
  nonceHex := draw.nonceHex
  chainHash := Hex.encode digest
  signatureHex := Hex.encode (c.sign payerPrivateKeyBytes digest)
  timestamp := draw.now

lemma computeChainHash_eq_ok {c : Crypto} {payload : Bytes} {prevChainHash chainHash : String}
    (h : computeChainHash c payload prevChainHash = .ok chainHash) :
    ∃ digest, chainHash = Hex.encode digest := by
  rw [computeChainHash] at h
  split_ifs at h
  · exact ⟨_, (Except.ok.inj h).symm⟩
  · obtain ⟨prev, -, hhash⟩ := bind_eq_ok_iff.mp h
    exact ⟨_, (Except.ok.inj hhash).symm⟩

section

variable {c : Crypto} {token updated : Token} {payerPrivateKeyBytes : Bytes}
  {payerPubkeyHex recipientPubkeyHex : String} {amount : PyFloat} {policy : PolicyConfig}
  {draw : TransferDraw} {record : TransferRecord}

/-- The specification of `build_transfer`. -/
theorem buildTransfer_eq_ok_iff :
    buildTransfer c token payerPrivateKeyBytes payerPubkeyHex recipientPubkeyHex amount policy draw
        = .ok (record, updated) ↔
      token.Payable policy payerPubkeyHex amount draw.now ∧
      ∃ payload digest,
        buildTxPayload c token.tokenId recipientPubkeyHex amount draw.nonceHex = .ok payload ∧
        computeChainHash c payload token.chainHash = .ok (Hex.encode digest) ∧
        record = token.recordOf c payerPrivateKeyBytes payerPubkeyHex recipientPubkeyHex amount draw
          digest ∧
        updated = token.passedTo recipientPubkeyHex (Hex.encode digest) := by
  simp only [buildTransfer, bind_eq_ok_iff, guard_eq_ok_iff, pure_eq_ok, Except.ok.injEq,
    Prod.mk.injEq, not_not, not_lt, ge_iff_le, not_le]
  constructor
  · rintro ⟨howner, hissued, hhops, hpolicy, hvalue, halive, payload, hpayload, chainHash, hhash,
      signatureHex, hsign, rfl, rfl⟩
    obtain ⟨digest, rfl⟩ := computeChainHash_eq_ok hhash
    rw [signTransfer, fromhex_encode] at hsign
    obtain rfl := Except.ok.inj hsign
    exact ⟨⟨howner, hissued, hhops, hpolicy, hvalue, halive⟩, payload, digest, hpayload, hhash,
      rfl, rfl⟩
  · rintro ⟨⟨howner, hissued, hhops, hpolicy, hvalue, halive⟩, payload, digest, hpayload, hhash, rfl,
      rfl⟩
    refine ⟨howner, hissued, hhops, hpolicy, hvalue, halive, payload, hpayload, _, hhash,
      Hex.encode (c.sign payerPrivateKeyBytes digest), ?_, rfl, rfl⟩
    rw [signTransfer, fromhex_encode]
    rfl

end

namespace Wallet

/-- The wallet has a key pair from `generate_ed25519_keypair`. -/
def HasKeyPair (c : Crypto) (w : Wallet) : Prop :=
  ∃ pk : Bytes, pk.length = 32 ∧ w.pubkeyHex = Hex.encode pk ∧
    ∀ m, c.verify pk m (c.sign w.privateKeyBytes m) = true

lemma HasKeyPair.hexToPubkeyBytes {c : Crypto} {w : Wallet} (h : w.HasKeyPair c) :
    ∃ pk, Poc.hexToPubkeyBytes w.pubkeyHex = .ok pk ∧
      ∀ m, c.verify pk m (c.sign w.privateKeyBytes m) = true := by
  obtain ⟨pk, hlength, hhex, hverify⟩ := h
  exact ⟨pk, by rw [hhex, hexToPubkeyBytes_encode hlength], hverify⟩

end Wallet

section

variable {c : Crypto} {token updated : Token} {w : Wallet} {recipientPubkeyHex : String}
  {amount : PyFloat} {draw : TransferDraw} {digest payload : Bytes}

/-- The record of a transfer passes the check with its token, if the first transfer of the token
follows on no hash. -/
lemma verifyTransferChain_recordOf_iff (hkey : w.HasKeyPair c)
    (hpayload : buildTxPayload c token.tokenId recipientPubkeyHex amount draw.nonceHex
      = .ok payload) :
    verifyTransferChain c (token.passedTo recipientPubkeyHex (Hex.encode digest))
        (token.recordOf c w.privateKeyBytes w.pubkeyHex recipientPubkeyHex amount draw digest)
        = .ok true ↔
      (token.transferHistory.length = 1 →
        computeChainHash c payload "" = .ok (Hex.encode digest)) := by
  have hlength : (token.passedTo recipientPubkeyHex (Hex.encode digest)).transferHistory.length
      = token.transferHistory.length + 1 := List.length_append
  rw [verifyTransferChain_eq_true_iff, hlength]
  obtain ⟨pk, hpk, hverify⟩ := hkey.hexToPubkeyBytes
  constructor
  · rintro ⟨⟨payload', hpayload', hhash⟩, -⟩ hfirst
    obtain rfl := Except.ok.inj (hpayload'.symm.trans hpayload)
    exact hhash (by omega)
  · intro hfirst
    refine ⟨⟨payload, hpayload, fun hlength => hfirst (by omega)⟩, pk, digest, _, hpk,
      fromhex_encode digest, fromhex_encode _, hverify digest⟩

end

end PocketCash.Poc
