import PocketCash.Poc.Channel
import PocketCash.Poc.Route

/-!
# Payments and swaps that raise

A transfer removes the token from the wallet of the payer before the payee has checked it, and a swap
is two transfers. Nothing is put back if a later check raises. So a call that raises has changed
nothing only if the payer already refuses, with a token that needs no lifecycle reset.
-/

namespace PocketCash.Poc

/-- The chain hash of a transfer of the token, after `prevChainHash`. -/
def Token.nextChainHash (c : Crypto) (token : Token) (recipientPubkeyHex : String)
    (amount : PyFloat) (nonceHex prevChainHash : String) : Except PyError String := do
  let payload ← buildTxPayload c token.tokenId recipientPubkeyHex amount nonceHex
  computeChainHash c payload prevChainHash

/-- A first transfer to a hexadecimal key has a chain hash. -/
lemma Token.exists_nextChainHash (c : Crypto) (token : Token) (pk : Bytes) (amount : PyFloat)
    (nonce : Bytes) :
    ∃ chainHash, token.nextChainHash c (Hex.encode pk) amount (Hex.encode nonce) ""
      = .ok chainHash := by
  rw [Token.nextChainHash, buildTxPayload, fromhex_encode, fromhex_encode]
  exact ⟨_, rfl⟩

namespace Wallet

/-- The payer can send the token, with the given chain hash. -/
structure Sends (c : Crypto) (payer : Wallet) (token : Token) (recipientPubkeyHex : String)
    (amount : PyFloat) (draw : TransferDraw) (chainHash : String) : Prop where
  payable : token.Payable payer.state.policy payer.pubkeyHex amount draw.now
  hash : token.nextChainHash c recipientPubkeyHex amount draw.nonceHex token.chainHash
    = .ok chainHash

/-- The payee can take the token. -/
structure Takes (c : Crypto) (payee : Wallet) (token : Token) (amount : PyFloat)
    (nonceHex chainHash : String) : Prop where
  issued : token.validIssuerSignature c = .ok true
  first : token.transferHistory.length = 1 →
    token.nextChainHash c payee.pubkeyHex amount nonceHex "" = .ok chainHash
  fresh : (token.tokenId, nonceHex) ∉ payee.state.spentNonces
  withinCap : payee.balance + token.denomination.toRat ≤ payee.state.policy.maxWalletBalanceEtb

/-- The payer can send what is stored under `tokenId`, after the lifecycle reset, and the payee can
take it. -/
structure Hands (c : Crypto) (payer payee : Wallet) (tokenId : String) (amount : PyFloat)
    (draw : TransferDraw) (token : Token) (chainHash : String) : Prop where
  found : payer.state.unspentTokens.get? tokenId = some token
  sends : payer.Sends c (checkLifecycleReset token payer.pubkeyHex) payee.pubkeyHex amount draw
    chainHash
  takes : payee.Takes c (checkLifecycleReset token payer.pubkeyHex) amount draw.nonceHex chainHash

/-- The wallet with a received token and its nonce. -/
def takeToken (w : Wallet) (token : Token) (nonceHex : String) : Wallet :=
  { w with
    state := { w.state with
      spentNonces := insert (token.tokenId, nonceHex) w.state.spentNonces
      unspentTokens := w.state.unspentTokens.set token.tokenId
        (checkLifecycleReset token w.pubkeyHex) } }

@[simp] lemma dropToken_pubkeyHex (w : Wallet) (tokenId nonceHex : String) :
    (w.dropToken tokenId nonceHex).pubkeyHex = w.pubkeyHex := rfl

@[simp] lemma takeToken_pubkeyHex (w : Wallet) (token : Token) (nonceHex : String) :
    (w.takeToken token nonceHex).pubkeyHex = w.pubkeyHex := rfl

lemma HasKeyPair.takeToken {c : Crypto} {w : Wallet} (h : w.HasKeyPair c) (token : Token)
    (nonceHex : String) : HasKeyPair c (w.takeToken token nonceHex) := h

/-- Keeping a token that is dropped next makes no difference. -/
lemma dropToken_keepToken (w : Wallet) (tokenId nonceHex : String) (token : Token) :
    (w.keepToken tokenId token).dropToken tokenId nonceHex = w.dropToken tokenId nonceHex := by
  simp only [dropToken, keepToken, Dict.set]
  rw [KeyedList.pop_put (a := (tokenId, token))]

/-- The payer after a first half. -/
lemma find?_put_dropToken_put_takeToken {wallets : KeyedList pubkeyHex} {payer payee : Wallet}
    (hne : payer.pubkeyHex ≠ payee.pubkeyHex) {tokenId nonceHex nonceHex' : String} {token : Token} :
    ((wallets.put (payer.dropToken tokenId nonceHex)).put
        (payee.takeToken token nonceHex')).find? payer.pubkeyHex
      = some (payer.dropToken tokenId nonceHex) :=
  KeyedList.find?_put_put hne

section

variable {c : Crypto} {payer payee : Wallet} {tokenId : String} {amount : PyFloat}
  {draw : TransferDraw} {token : Token} {chainHash : String}

/-- A token the payer can send has left its wallet. -/
lemma Sends.sendToken (hfound : payer.state.unspentTokens.get? tokenId = some token)
    {recipientPubkeyHex : String}
    (h : payer.Sends c (checkLifecycleReset token payer.pubkeyHex) recipientPubkeyHex amount draw
      chainHash) :
    ∃ payload digest, chainHash = Hex.encode digest ∧
      buildTxPayload c token.tokenId recipientPubkeyHex amount draw.nonceHex = .ok payload ∧
      payer.sendToken c tokenId recipientPubkeyHex amount draw =
        (payer.dropToken tokenId draw.nonceHex,
          .ok ((checkLifecycleReset token payer.pubkeyHex).recordOf c payer.privateKeyBytes
              payer.pubkeyHex recipientPubkeyHex amount draw digest,
            (checkLifecycleReset token payer.pubkeyHex).passedTo recipientPubkeyHex chainHash)) := by
  obtain ⟨payload, hpayload, hhash⟩ := bind_eq_ok_iff.mp h.hash
  obtain ⟨digest, rfl⟩ := computeChainHash_eq_ok hhash
  have hbuild : buildTransfer c (checkLifecycleReset token payer.pubkeyHex) payer.privateKeyBytes
      payer.pubkeyHex recipientPubkeyHex amount payer.state.policy draw = .ok (_, _) :=
    buildTransfer_eq_ok_iff.mpr ⟨h.payable, payload, digest, hpayload, hhash, rfl, rfl⟩
  rw [checkLifecycleReset_tokenId] at hpayload
  refine ⟨payload, digest, rfl, hpayload, ?_⟩
  rw [Wallet.sendToken, hfound]
  dsimp only [keepToken]
  rw [hbuild]
  dsimp only [Token.recordOf]
  rw [← dropToken_keepToken payer tokenId draw.nonceHex]
  rfl

/-- The payee takes what the payer has sent exactly if it can. -/
lemma receiveToken_passedTo_iff {payload : Bytes} (hkey : payer.HasKeyPair c)
    (hpayload : buildTxPayload c token.tokenId payee.pubkeyHex amount draw.nonceHex = .ok payload)
    (digest : Bytes) (payee' : Wallet) :
    payee.receiveToken c (token.passedTo payee.pubkeyHex (Hex.encode digest))
        (token.recordOf c payer.privateKeyBytes payer.pubkeyHex payee.pubkeyHex amount draw digest)
        = .ok payee' ↔
      payee.Takes c token amount draw.nonceHex (Hex.encode digest) ∧
      payee' = payee.takeToken (token.passedTo payee.pubkeyHex (Hex.encode digest))
        draw.nonceHex := by
  have hnext : token.nextChainHash c payee.pubkeyHex amount draw.nonceHex ""
      = computeChainHash c payload "" := by
    rw [Token.nextChainHash, hpayload, ok_bind]
  rw [receiveToken_eq_ok_iff, verifyTransferChain_recordOf_iff hkey hpayload]
  constructor
  · rintro ⟨⟨hissued, hfirst, hfresh, hcap, -⟩, rfl⟩
    exact ⟨⟨hissued, fun hlength => hnext.trans (hfirst hlength), hfresh, hcap⟩, rfl⟩
  · rintro ⟨⟨hissued, hfirst, hfresh, hcap⟩, rfl⟩
    exact ⟨⟨hissued, fun hlength => hnext.symm.trans (hfirst hlength), hfresh, hcap, rfl⟩, rfl⟩

end

end Wallet

/-- With the real cipher, what is transmitted arrives. -/
lemma BLEChannel.exists_transmit_bytes {s : SessionCrypto} (hs : s.Inverse) (channel : BLEChannel)
    (data : Bytes) : ∃ channel', channel.transmit s (.bytes data) = (channel', .ok data) := by
  obtain ⟨_ | ⟨sessionKey, sessionNonce12⟩, size, encryptions⟩ := channel
  · exact ⟨_, rfl⟩
  · simp only [BLEChannel.transmit, PacketData.packetBytes, hs sessionKey sessionNonce12 data]
    exact ⟨_, rfl⟩

namespace Meeting

/-- The registers of unspent tokens are the same. -/
def SameUnspent (m m' : Meeting) : Prop :=
  ∀ pk, (m'.wallets.find? pk).map (fun w => w.state.unspentTokens)
    = (m.wallets.find? pk).map fun w => w.state.unspentTokens

lemma SameUnspent.refl (m : Meeting) : m.SameUnspent m := fun _ => rfl

section

variable {c : Crypto} {s : SessionCrypto} {m : Meeting} {payer payee : Wallet}
  {payerPk payeePk tokenId : String} {amount : PyFloat} {draw : TransferDraw} {token : Token}
  {chainHash : String}

/-- If the payer can send the token, the call ends as `receive_token` of the payee does. In both
cases the token has left the payer. -/
lemma executeTransfer_of_sends (hs : s.Inverse) (hkey : payer.HasKeyPair c)
    (hne : payerPk ≠ payeePk) (hpayer : m.wallets.find? payerPk = some payer)
    (hpayee : m.wallets.find? payeePk = some payee)
    (hfound : payer.state.unspentTokens.get? tokenId = some token)
    (h : payer.Sends c (checkLifecycleReset token payer.pubkeyHex) payee.pubkeyHex amount draw
      chainHash) :
    (payee.Takes c (checkLifecycleReset token payer.pubkeyHex) amount draw.nonceHex chainHash →
      ∃ channel received, m.executeTransfer c s payerPk payeePk tokenId amount draw =
        (⟨channel, (m.wallets.put (payer.dropToken tokenId draw.nonceHex)).put
          (payee.takeToken ((checkLifecycleReset token payer.pubkeyHex).passedTo payee.pubkeyHex
            chainHash) draw.nonceHex)⟩, .ok received)) ∧
    (¬ payee.Takes c (checkLifecycleReset token payer.pubkeyHex) amount draw.nonceHex chainHash →
      ∃ channel e, m.executeTransfer c s payerPk payeePk tokenId amount draw =
        (⟨channel, m.wallets.put (payer.dropToken tokenId draw.nonceHex)⟩, .error e)) := by
  obtain ⟨payload, digest, rfl, hpayload, hsend⟩ := Wallet.Sends.sendToken hfound h
  obtain ⟨channel, htransmit⟩ := m.channel.exists_transmit_bytes hs (JsonEncoding.documentBytes (packet
    ((checkLifecycleReset token payer.pubkeyHex).recordOf c payer.privateKeyBytes payer.pubkeyHex
      payee.pubkeyHex amount draw digest)
    ((checkLifecycleReset token payer.pubkeyHex).passedTo payee.pubkeyHex (Hex.encode digest))))
  have hkeep : (m.wallets.put (payer.dropToken tokenId draw.nonceHex)).find? payeePk
      = some payee := by
    obtain ⟨-, rfl⟩ := KeyedList.find?_eq_some_iff.mp hpayer
    rw [KeyedList.find?_put, Wallet.dropToken_pubkeyHex, if_neg hne.symm, hpayee]
  rw [← checkLifecycleReset_tokenId token payer.pubkeyHex] at hpayload
  have hreceive := Wallet.receiveToken_passedTo_iff hkey hpayload digest
  simp only [executeTransfer, hpayer, hpayee, hsend, htransmit, readPacket_packet, hkeep,
    Option.getD_some]
  constructor
  · intro htakes
    rw [(hreceive _).mpr ⟨htakes, rfl⟩]
    exact ⟨_, _, rfl⟩
  · intro htakes
    split
    · exact ⟨_, _, rfl⟩
    · rename_i payee' hok
      exact absurd ((hreceive payee').mp hok).1 htakes

end

section

variable {c : Crypto} {s : SessionCrypto} {m : Meeting} {payer payee : Wallet}
  {payerPk payeePk payerTokenId : String} {owedAmount : PyFloat} {payDraw changeDraw : TransferDraw}

end

/-! ### Bob at his balance cap -/

/-- A cipher that writes the key and the nonce before the plaintext. -/
def plainSession : SessionCrypto where
  sha512 := checksum
  exchange sk pk := .ok (delimited sk ++ pk)
  hkdf salt info secret := delimited salt ++ delimited info ++ secret
  encrypt key nonce plaintext := key ++ nonce ++ plaintext
  decrypt key nonce ciphertext :=
    if (key ++ nonce).isPrefixOf ciphertext then some (ciphertext.drop (key ++ nonce).length)
    else none

lemma plainSession_inverse : plainSession.Inverse := by
  intro key nonce plaintext
  simp [plainSession]

/-- The issuer with a token of 10.0. -/
def payingIssuer : Wallet :=
  (plainIssuer.issueToken plainCrypto (.positive (.ofNat 1 2 one_mod_ten))
    ⟨"00112233445566778899aabbccddeeff", .positive (.ofNat 17 10 seventeen_mod_ten)⟩).1

/-- Bob's wallet, with a balance cap of 5. -/
def cappedReceiver : Wallet :=
  { Wallet.plainReceiver with
    state := { Wallet.plainReceiver.state with
      policy := { PolicyConfig.default with maxWalletBalanceEtb := 5 } } }

/-- The issuer and Bob on an encrypted channel. -/
def cappedMeeting : Meeting where
  channel := ⟨some ⟨List.replicate 32 1, List.replicate 12 2⟩, none, []⟩
  wallets := (KeyedList.empty.put payingIssuer).put cappedReceiver

lemma hasKeyPair_payingIssuer : payingIssuer.HasKeyPair plainCrypto :=
  Network.hasKeyPair_plainIssuer

/-- The token of 10.0. -/
def issuedToken : Token :=
  (plainIssuer.issueToken plainCrypto (.positive (.ofNat 1 2 one_mod_ten))
    ⟨"00112233445566778899aabbccddeeff", .positive (.ofNat 17 10 seventeen_mod_ten)⟩).2

lemma get?_payingIssuer :
    payingIssuer.state.unspentTokens.get? "00112233445566778899aabbccddeeff"
      = some issuedToken := by
  rw [payingIssuer, Wallet.issueToken, Dict.get?_set, if_pos rfl]
  rfl

end Meeting

end PocketCash.Poc
