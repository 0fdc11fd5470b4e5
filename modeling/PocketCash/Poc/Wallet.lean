import Mathlib.Data.Finset.Basic
import PocketCash.Library.KeyedList
import PocketCash.Poc.Token

/-!
# The wallet of the `dpc_poc` prototype

`issue_token` and `receive_token` of `dpc_poc/dpc/wallet.py`. Balances are sums of exact numbers.
-/

namespace PocketCash.Poc

structure WalletState where
  ownerPubkeyHex : String
  unspentTokens : Dict String Token
  spentNonces : Finset (String × String)
  policy : PolicyConfig

/-- DPC wallet: manages Ed25519 keypair, token unspent register (UTR), and transfer lifecycle. -/
structure Wallet where
  privateKeyBytes : Bytes
  pubkeyHex : String
  state : WalletState

/-- `_check_lifecycle_reset`: a token that comes back is treated as fresh cash. -/
def checkLifecycleReset (token : Token) (walletPubkeyHex : String) : Token :=
  if walletPubkeyHex ∈ token.transferHistory.dropLast then
    { token with hopCount := 0, chainHash := "" }
  else token

@[simp] lemma checkLifecycleReset_tokenId (token : Token) (walletPubkeyHex : String) :
    (checkLifecycleReset token walletPubkeyHex).tokenId = token.tokenId := by
  rw [checkLifecycleReset]
  split_ifs <;> rfl

@[simp] lemma checkLifecycleReset_denomination (token : Token) (walletPubkeyHex : String) :
    (checkLifecycleReset token walletPubkeyHex).denomination = token.denomination := by
  rw [checkLifecycleReset]
  split_ifs <;> rfl

namespace Wallet

/-- Sum of all token denominations in unspent register. -/
def balance (w : Wallet) : ℚ :=
  (w.state.unspentTokens.items.map fun entry => entry.2.denomination.toRat).sum

/-- Verify issuer's Ed25519 signature on token authenticity fields. -/
def verifyIssuerSignature (c : Crypto) (token : Token) : Except PyError Bool :=
  token.validIssuerSignature c

/-- Receive a token from a peer. -/
def receiveToken (c : Crypto) (w : Wallet) (token : Token) (transferRecord : TransferRecord) :
    Except PyError Wallet := do
  let authentic ← verifyIssuerSignature c token
  if !authentic then throw (.valueError "Invalid issuer signature")
  let chained ← verifyTransferChain c token transferRecord
  if !chained then throw (.valueError "Invalid transfer chain")
  if (token.tokenId, transferRecord.nonceHex) ∈ w.state.spentNonces then
    throw (.valueError "Replay detected")
  if w.balance + token.denomination.toRat > w.state.policy.maxWalletBalanceEtb then
    throw (.valueError "Exceeds max wallet balance")
  if token.ownerPubkeyHex ≠ w.pubkeyHex then
    throw (.valueError "Token owner does not match wallet")
  let token := checkLifecycleReset token w.pubkeyHex
  return { w with
    state := { w.state with
      spentNonces := insert (token.tokenId, transferRecord.nonceHex) w.state.spentNonces
      unspentTokens := w.state.unspentTokens.set token.tokenId token } }

/-- What `issue_token` draws: `secrets.token_hex(16)` and `time.time()`. -/
structure IssueDraw where
  tokenId : String
  issuedAt : PyFloat

/-- Issuer-only: mint a new token with issuer's signature. -/
def issueToken (c : Crypto) (w : Wallet) (denomination : PyFloat) (draw : IssueDraw) :
    Wallet × Token :=
  let signature := c.sign w.privateKeyBytes
    (utf8 (tokenSignatureMessage draw.tokenId w.pubkeyHex draw.issuedAt denomination))
  let token : Token :=
    { tokenId := draw.tokenId
      denomination := denomination
      issuerPubkeyHex := w.pubkeyHex
      issuedAt := draw.issuedAt
      issuerSignatureHex := Hex.encode signature
      ownerPubkeyHex := w.pubkeyHex
      hopCount := 0
      transferHistory := [w.pubkeyHex]
      chainHash := "" }
  ({ w with
      state := { w.state with unspentTokens := w.state.unspentTokens.set draw.tokenId token } },
    token)

/-- A received token is authentic. -/
lemma validIssuerSignature_of_receiveToken {c : Crypto} {w w' : Wallet} {token : Token}
    {transferRecord : TransferRecord} (h : w.receiveToken c token transferRecord = .ok w') :
    token.validIssuerSignature c = .ok true := by
  obtain ⟨authentic, hauthentic, h⟩ := bind_eq_ok_iff.mp h
  obtain ⟨htrue, -⟩ := guard_eq_ok_iff.mp h
  rw [verifyIssuerSignature] at hauthentic
  rw [hauthentic]
  simpa using htrue

end Wallet

/-! ### Tokens of a transparent backend -/

lemma one_mod_ten : 1 % 10 ≠ 0 := by decide

lemma seventeen_mod_ten : 17 % 10 ≠ 0 := by decide

/-- An issuer with the key pair `7…7`. -/
def plainIssuer : Wallet :=
  ⟨List.replicate 32 7, Hex.encode (List.replicate 32 7),
    ⟨Hex.encode (List.replicate 32 7), .empty, ∅, .default⟩⟩

def plainToken (issuedAt denomination : Decimal) : Token :=
  (plainIssuer.issueToken plainCrypto (.positive denomination)
    ⟨"00112233445566778899aabbccddeeff", .positive issuedAt⟩).2

lemma validIssuerSignature_plainToken (issuedAt denomination : Decimal) :
    (plainToken issuedAt denomination).validIssuerSignature plainCrypto = .ok true := by
  have hkey : (plainToken issuedAt denomination).issuerPubkeyHex
      = Hex.encode (List.replicate 32 7) := rfl
  have hsignature : (plainToken issuedAt denomination).issuerSignatureHex
      = Hex.encode (plainCrypto.sign (List.replicate 32 7)
        (utf8 (plainToken issuedAt denomination).signatureMessage)) := rfl
  rw [Token.validIssuerSignature_eq_true_iff, hkey, hsignature]
  exact ⟨_, _, hexToPubkeyBytes_encode List.length_replicate, fromhex_encode _,
    by simp [plainCrypto]⟩

end PocketCash.Poc
