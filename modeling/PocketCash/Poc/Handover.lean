import PocketCash.Poc.Wallet

/-!
# What a received transfer record binds

`receive_token` takes a token and a transfer record. It never compares the two, and it computes the
chain hash of the record only for tokens with a history of length two. So the record of an accepted
pair may speak about another token, receiver and amount, and its nonce can always be spelled in
another way, which the register of spent nonces does not recognise.
-/

namespace PocketCash.Poc

/-- The transfer check passes if the record is read, its signature on its chain hash verifies, and
its chain hash is that of its fields in case of a first transfer. -/
lemma verifyTransferChain_eq_true_iff {c : Crypto} {token : Token} {record : TransferRecord} :
    verifyTransferChain c token record = .ok true ↔
      (∃ payload, buildTxPayload c record.tokenId record.nextOwnerPubkeyHex record.amount
          record.nonceHex = .ok payload ∧
        (token.transferHistory.length = 2 →
          computeChainHash c payload "" = .ok record.chainHash)) ∧
      ∃ pk chainHash signature, hexToPubkeyBytes record.prevOwnerPubkeyHex = .ok pk ∧
        fromhex record.chainHash = .ok chainHash ∧ fromhex record.signatureHex = .ok signature ∧
        c.verify pk chainHash signature = true := by
  rw [verifyTransferChain]
  cases buildTxPayload c record.tokenId record.nextOwnerPubkeyHex record.amount record.nonceHex with
  | error e => simp
  | ok payload =>
    simp only [computeChainHash, if_true, ok_bind, Except.ok.injEq, exists_eq_left',
      List.append_nil]
    by_cases hlength : token.transferHistory.length = 2
    · by_cases hhash : Hex.encode (c.sha256 payload) = record.chainHash
      · simp [hlength, hhash, bind_eq_ok_iff]
      · simp [hlength, hhash]
    · simp [hlength, bind_eq_ok_iff]

namespace Wallet

/-- All checks of `receive_token`, and what it stores. -/
lemma receiveToken_eq_ok_iff {c : Crypto} {w w' : Wallet} {token : Token}
    {record : TransferRecord} :
    w.receiveToken c token record = .ok w' ↔
      (token.validIssuerSignature c = .ok true ∧ verifyTransferChain c token record = .ok true ∧
        (token.tokenId, record.nonceHex) ∉ w.state.spentNonces ∧
        w.balance + token.denomination.toRat ≤ w.state.policy.maxWalletBalanceEtb ∧
        token.ownerPubkeyHex = w.pubkeyHex) ∧
      w' = { w with
        state := { w.state with
          spentNonces := insert (token.tokenId, record.nonceHex) w.state.spentNonces
          unspentTokens := w.state.unspentTokens.set token.tokenId
            (checkLifecycleReset token w.pubkeyHex) } } := by
  simp only [receiveToken, verifyIssuerSignature, bind_eq_ok_iff, guard_eq_ok_iff, pure_eq_ok,
    Except.ok.injEq]
  constructor
  · rintro ⟨authentic, hauthentic, htrue, chained, hchained, htrue', hfresh, hcap, howner, rfl⟩
    rw [Bool.not_eq_true, Bool.not_eq_false'] at htrue htrue'
    rw [htrue] at hauthentic
    rw [htrue'] at hchained
    refine ⟨⟨hauthentic, hchained, hfresh, not_lt.mp hcap, not_not.mp howner⟩, ?_⟩
    rw [checkLifecycleReset_tokenId]
  · rintro ⟨⟨hauthentic, hchained, hfresh, hcap, howner⟩, rfl⟩
    refine ⟨true, hauthentic, by simp, true, hchained, by simp, hfresh, not_lt.mpr hcap,
      not_not.mpr howner, ?_⟩
    rw [checkLifecycleReset_tokenId]

/-- The record speaks about the token it comes with, and its token id, receiver, amount and nonce
cannot be changed while its chain hash and signature stay. -/
structure SpeaksFor (c : Crypto) (w : Wallet) (token : Token) (record : TransferRecord) : Prop where
  tokenId : record.tokenId = token.tokenId
  nextOwner : record.nextOwnerPubkeyHex = token.ownerPubkeyHex
  owner : token.ownerPubkeyHex = w.pubkeyHex
  prevOwner : token.transferHistory.dropLast.getLast? = some record.prevOwnerPubkeyHex
  chainHash : record.chainHash = token.chainHash
  unalterable : ∀ tokenId nextOwner amount nonce,
    (tokenId, nextOwner, amount, nonce)
      ≠ (record.tokenId, record.nextOwnerPubkeyHex, record.amount, record.nonceHex) →
    ∃ e, w.receiveToken c token { record with
      tokenId := tokenId
      nextOwnerPubkeyHex := nextOwner
      amount := amount
      nonceHex := nonce } = .error e

section

variable {c : Crypto} {w w' : Wallet} {token : Token} {record : TransferRecord}

/-- An accepted record with other values in the four fields is accepted exactly if they are read, the
nonce is new, and in case of a first transfer the hash is the same. -/
lemma receiveToken_altered_iff (h : w.receiveToken c token record = .ok w')
    (tokenId nextOwner : String) (amount : PyFloat) (nonce : String) :
    (∃ w'', w.receiveToken c token { record with
      tokenId := tokenId
      nextOwnerPubkeyHex := nextOwner
      amount := amount
      nonceHex := nonce } = .ok w'') ↔
    (∃ payload, buildTxPayload c tokenId nextOwner amount nonce = .ok payload ∧
      (token.transferHistory.length = 2 →
        computeChainHash c payload "" = .ok record.chainHash)) ∧
    (token.tokenId, nonce) ∉ w.state.spentNonces := by
  obtain ⟨⟨hauthentic, hchained, -, hcap, howner⟩, -⟩ := receiveToken_eq_ok_iff.mp h
  obtain ⟨-, hsigned⟩ := verifyTransferChain_eq_true_iff.mp hchained
  simp only [receiveToken_eq_ok_iff, verifyTransferChain_eq_true_iff]
  constructor
  · rintro ⟨w'', ⟨-, ⟨hpayload, -⟩, hfresh, -⟩, -⟩
    exact ⟨hpayload, hfresh⟩
  · rintro ⟨hpayload, hfresh⟩
    exact ⟨_, ⟨hauthentic, ⟨hpayload, hsigned⟩, hfresh, hcap, howner⟩, rfl⟩

/-- Whenever a wallet accepts a record, it would also have accepted it with the nonce in another
spelling. -/
lemma exists_respelled_nonce (h : w.receiveToken c token record = .ok w') :
    ∃ nonce, nonce ≠ record.nonceHex ∧
      ∃ w'', w.receiveToken c token { record with nonceHex := nonce } = .ok w'' := by
  obtain ⟨⟨-, hchained, -⟩, -⟩ := receiveToken_eq_ok_iff.mp h
  obtain ⟨⟨payload, hpayload, hhash⟩, -⟩ := verifyTransferChain_eq_true_iff.mp hchained
  obtain ⟨nonce, hread, hnew⟩ := Hex.exists_respelling record.nonceHex
    (insert record.nonceHex (w.state.spentNonces.image Prod.snd))
  rw [Finset.mem_insert, not_or] at hnew
  refine ⟨nonce, hnew.1, (receiveToken_altered_iff h record.tokenId record.nextOwnerPubkeyHex
    record.amount nonce).mpr ⟨⟨payload, ?_, hhash⟩, fun hspent => hnew.2 ?_⟩⟩
  · rw [← hpayload]
    simp only [buildTxPayload, fromhex, hread]
  · exact Finset.mem_image.mpr ⟨_, hspent, rfl⟩

/-- No record that a wallet accepts is bound to its token. -/
theorem not_speaksFor_of_receiveToken (h : w.receiveToken c token record = .ok w') :
    token.ownerPubkeyHex = w.pubkeyHex ∧ ¬ SpeaksFor c w token record := by
  refine ⟨(receiveToken_eq_ok_iff.mp h).1.2.2.2.2, ?_⟩
  intro hspeaks
  obtain ⟨nonce, hne, w'', haccepted⟩ := exists_respelled_nonce h
  obtain ⟨e, hraised⟩ := hspeaks.unalterable record.tokenId record.nextOwnerPubkeyHex record.amount
    nonce fun heq => hne (congrArg (fun fields => fields.2.2.2) heq)
  cases haccepted.symm.trans hraised

end

/-! ### A record about something else -/

/-- The hex form of the key `n…n`. -/
def plainKey (n : UInt8) : String := Hex.encode (List.replicate 32 n)

/-- Bob's wallet, which is empty. -/
def plainReceiver : Wallet :=
  ⟨List.replicate 32 9, plainKey 9, ⟨plainKey 9, .empty, ∅, .default⟩⟩

/-- A token that went from the issuer to Alice and to Bob. -/
def handedToken : Token :=
  { plainToken (.ofNat 17000000007 10 (by decide)) (.ofNat 7 1 (by decide)) with
    ownerPubkeyHex := plainKey 9
    hopCount := 2
    transferHistory := [plainKey 7, plainKey 8, plainKey 9]
    chainHash := "aa" }

/-- Mallory's record of a transfer of another token to herself. -/
def strangeRecord : TransferRecord where
  tokenId := "another token"
  prevOwnerPubkeyHex := plainKey 5
  nextOwnerPubkeyHex := plainKey 5
  amount := .positive (.ofNat 1 1 one_mod_ten)
  nonceHex := "00"
  chainHash := "bb"
  signatureHex := Hex.encode (plainCrypto.sign (List.replicate 32 5) [0xbb])
  timestamp := .positive (.ofNat 17000000002 10 (by decide))

lemma receiveToken_strangeRecord :
    ∃ w', plainReceiver.receiveToken plainCrypto handedToken strangeRecord = .ok w' := by
  have hauthentic : handedToken.validIssuerSignature plainCrypto = .ok true :=
    validIssuerSignature_plainToken _ _
  have hchained : verifyTransferChain plainCrypto handedToken strangeRecord = .ok true := by
    decide +kernel
  have hcap : plainReceiver.balance + handedToken.denomination.toRat
      ≤ plainReceiver.state.policy.maxWalletBalanceEtb := by decide +kernel
  exact ⟨_, receiveToken_eq_ok_iff.mpr
    ⟨⟨hauthentic, hchained, Finset.notMem_empty _, hcap, rfl⟩, rfl⟩⟩

theorem not_speaksFor_strangeRecord :
    handedToken.ownerPubkeyHex = plainReceiver.pubkeyHex ∧
      ¬ SpeaksFor plainCrypto plainReceiver handedToken strangeRecord := by
  obtain ⟨w', h⟩ := receiveToken_strangeRecord
  exact not_speaksFor_of_receiveToken h

/-- Bob accepts his token with a record that names another token, receiver, sender and chain hash. -/
theorem receiveToken_of_strangeRecord :
    (∃ w', plainReceiver.receiveToken plainCrypto handedToken strangeRecord = .ok w') ∧
    strangeRecord.tokenId ≠ handedToken.tokenId ∧
    strangeRecord.nextOwnerPubkeyHex ≠ handedToken.ownerPubkeyHex ∧
    handedToken.transferHistory.dropLast.getLast? ≠ some strangeRecord.prevOwnerPubkeyHex ∧
    strangeRecord.chainHash ≠ handedToken.chainHash ∧
    ¬ SpeaksFor plainCrypto plainReceiver handedToken strangeRecord := by
  refine ⟨receiveToken_strangeRecord, ?_, by decide +kernel, by decide +kernel, by decide +kernel,
    ?_⟩
  · decide +kernel
  · intro h
    have hchain := h.chainHash
    exact absurd hchain (by decide +kernel)

end Wallet

end PocketCash.Poc
