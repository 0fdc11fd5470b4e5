import PocketCash.Library.FloatText
import PocketCash.Library.Hex
import PocketCash.Library.Python

/-!
# Tokens and transfers of the `dpc_poc` prototype

`dpc_poc/dpc/models.py`, the signature helpers of `dpc_poc/dpc/crypto.py`, and the checks of
`transfer.py` and `wallet.py` on a received token. Amounts and times are floats: they are signed by
their text and packed as eight bytes. Ed25519, SHA-256 and `struct.pack` are parameters.
-/

namespace PocketCash.Poc

/-! ### Data -/

/-- Policy limits enforced offline. -/
structure PolicyConfig where
  maxOfflineHops : Int
  maxWalletBalanceEtb : ℚ
  maxTransactionValueEtb : ℚ
  tokenTtlSeconds : Int
  deriving DecidableEq

/-- `PolicyConfig()`. -/
def PolicyConfig.default : PolicyConfig := ⟨7, 10000, 1000, 604800⟩

structure Token where
  tokenId : String
  denomination : PyFloat
  issuerPubkeyHex : String
  issuedAt : PyFloat
  issuerSignatureHex : String
  ownerPubkeyHex : String
  hopCount : Int
  transferHistory : List String
  chainHash : String
  deriving DecidableEq

structure TransferRecord where
  tokenId : String
  prevOwnerPubkeyHex : String
  nextOwnerPubkeyHex : String
  amount : PyFloat
  nonceHex : String
  chainHash : String
  signatureHex : String
  timestamp : PyFloat
  deriving DecidableEq

/-! ### Cryptography -/

/-- Ed25519 on raw keys and signatures, SHA-256 and `struct.pack(">d", x)`. -/
structure Crypto where
  sign : Bytes → Bytes → Bytes
  verify : Bytes → Bytes → Bytes → Bool
  sha256 : Bytes → Bytes
  packDouble : PyFloat → Bytes

/-- A signature verifies for one key and message only. -/
def Crypto.Binding (c : Crypto) : Prop :=
  ∀ pk pk' m m' signature, c.verify pk m signature = true → c.verify pk' m' signature = true →
    pk = pk' ∧ m = m'

/-- `bytes.fromhex`. -/
def fromhex (s : String) : Except PyError Bytes :=
  match Hex.decode s with
  | some bs => .ok bs
  | none => .error (.valueError "non-hexadecimal number found in fromhex() arg")

lemma fromhex_eq_ok_iff {s : String} {bs : Bytes} :
    fromhex s = .ok bs ↔ Hex.decode s = some bs := by
  rw [fromhex]
  cases Hex.decode s <;> simp

@[simp] lemma fromhex_encode (bs : Bytes) : fromhex (Hex.encode bs) = .ok bs :=
  fromhex_eq_ok_iff.mpr (Hex.decode_encode bs)

/-- Decode hex string to 32-byte Ed25519 public key. -/
def hexToPubkeyBytes (hexStr : String) : Except PyError Bytes := do
  let key ← fromhex hexStr
  if key.length ≠ 32 then throw (.valueError "Public key must decode to 32 bytes")
  return key

lemma hexToPubkeyBytes_encode {bs : Bytes} (h : bs.length = 32) :
    hexToPubkeyBytes (Hex.encode bs) = .ok bs := by
  rw [hexToPubkeyBytes, fromhex_encode]
  simp [h]

/-! ### Issuer signatures -/

/-- Build the message that an issuer signs over for token authenticity. -/
def tokenSignatureMessage (tokenId issuerPubkeyHex : String) (issuedAt denomination : PyFloat) :
    String :=
  tokenId ++ issuerPubkeyHex ++ issuedAt.text ++ denomination.text

/-- The signed message of a token. -/
def Token.signatureMessage (t : Token) : String :=
  tokenSignatureMessage t.tokenId t.issuerPubkeyHex t.issuedAt t.denomination

/-- `_verify_issuer_signature` of the wallet and `_valid_issuer_signature` of the ledger. -/
def Token.validIssuerSignature (c : Crypto) (t : Token) : Except PyError Bool := do
  let pk ← hexToPubkeyBytes t.issuerPubkeyHex
  let signature ← fromhex t.issuerSignatureHex
  return c.verify pk (utf8 t.signatureMessage) signature

/-- A token is valid if its signature verifies under the key it names. -/
lemma Token.validIssuerSignature_eq_true_iff {c : Crypto} {t : Token} :
    t.validIssuerSignature c = .ok true ↔
      ∃ pk signature, hexToPubkeyBytes t.issuerPubkeyHex = .ok pk ∧
        fromhex t.issuerSignatureHex = .ok signature ∧
        c.verify pk (utf8 t.signatureMessage) signature = true := by
  simp [validIssuerSignature, bind_eq_ok_iff]

/-! ### Transfers -/

/-- `build_tx_payload`. -/
def buildTxPayload (c : Crypto) (tokenId nextOwnerPubkeyHex : String) (amount : PyFloat)
    (nonceHex : String) : Except PyError Bytes := do
  let nextOwner ← fromhex nextOwnerPubkeyHex
  let nonce ← fromhex nonceHex
  return utf8 tokenId ++ nextOwner ++ c.packDouble amount ++ nonce

/-- `compute_chain_hash`. -/
def computeChainHash (c : Crypto) (txPayload : Bytes) (prevChainHash : String) :
    Except PyError String := do
  let prev ← if prevChainHash = "" then .ok [] else fromhex prevChainHash
  return Hex.encode (c.sha256 (txPayload ++ prev))

/-- Verify a transfer record against a received token. -/
def verifyTransferChain (c : Crypto) (token : Token) (transferRecord : TransferRecord) :
    Except PyError Bool := do
  let payload ← buildTxPayload c transferRecord.tokenId transferRecord.nextOwnerPubkeyHex
    transferRecord.amount transferRecord.nonceHex
  let firstTransferBroken ←
    if token.transferHistory.length = 2 then do
      let expectedHash ← computeChainHash c payload ""
      pure (decide (expectedHash ≠ transferRecord.chainHash))
    else pure false
  if firstTransferBroken then return false
  let pk ← hexToPubkeyBytes transferRecord.prevOwnerPubkeyHex
  let chainHash ← fromhex transferRecord.chainHash
  let signature ← fromhex transferRecord.signatureHex
  return c.verify pk chainHash signature

/-! ### A transparent backend -/

/-- Signatures that spell out the key and the message; a private key is its public key. -/
def plainCrypto : Crypto where
  sign sk m := delimited sk ++ m
  verify pk m signature := signature == delimited pk ++ m
  sha256 := checksum
  packDouble x := checksum (utf8 x.text) ++ checksum (utf8 x.text).reverse

lemma plainCrypto_binding : plainCrypto.Binding := by
  intro pk pk' m m' signature h h'
  rw [plainCrypto, beq_iff_eq] at h h'
  exact delimited_append_inj (h.symm.trans h')

end PocketCash.Poc
