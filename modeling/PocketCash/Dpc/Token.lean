import PocketCash.Library.Hex
import PocketCash.Library.Python

/-!
# Tokens and transfer chains of the `dpc` stack

`dpc/token_model.py`: an issuer-signed token travels with the list of its transfers. Each transfer
is linked to the one before it by a SHA-256 hash and signed over that hash. `validate_integrity`
checks such a list.

Ed25519 and SHA-256 are parameters. The JSON texts that are signed or hashed have fixed fields of
fixed types, so they are represented by these fields.
-/

namespace PocketCash.Dpc

/-! ### Constants and exceptions -/

def maxOfflineHops : Int := 7
def maxWalletBalanceSubunits : Int := 1000000
def maxSingleTxSubunits : Int := 100000
def tokenTtlSeconds : Int := 604800
def genesisHash : String := "0000000000000000000000000000000000000000000000000000000000000000"

/-- The classes of `dpc/exceptions.py` that the modelled code raises. -/
inductive DpcError
  | hopLimitExceeded
  | walletBalanceCap
  | transactionValueCap
  | tokenExpired
  | signatureVerification
  | chainIntegrity
  | doubleSpend
  | reconciliation
  | firstClaimConflict
  | walletState
  | insufficientFunds
  deriving DecidableEq, Repr

/-- A raised exception: a `DPCError` or another Python exception. -/
inductive Raised
  | dpc (kind : DpcError) (message : String)
  | py (e : PyError)
  deriving DecidableEq, Repr

/-- A Python exception raised inside this code. -/
instance : MonadLift (Except PyError) (Except Raised) where
  monadLift
    | .ok a => .ok a
    | .error e => .error (.py e)

/-- `bytes.fromhex`. -/
def fromhex (s : String) : Except Raised Bytes :=
  match Hex.decode s with
  | some bs => .ok bs
  | none => .error (.py (.valueError "non-hexadecimal number found in fromhex() arg"))

lemma fromhex_eq_ok_iff {s : String} {bs : Bytes} :
    fromhex s = .ok bs ↔ Hex.decode s = some bs := by
  rw [fromhex]
  cases Hex.decode s <;> simp

@[simp] lemma fromhex_encode (bs : Bytes) : fromhex (Hex.encode bs) = .ok bs :=
  fromhex_eq_ok_iff.mpr (Hex.decode_encode bs)

/-! ### Cryptography -/

/-- The fields of `Token.genesis_payload_bytes`. -/
structure GenesisPayload where
  tokenId : String
  issuerPubkeyHex : String
  amountSubunits : Int
  issuedAt : Int
  ttlExpiry : Int
  deriving DecidableEq, Repr

/-- The fields of `TransferRecord.payload_bytes`. -/
structure TransferPayload where
  tokenId : String
  hopIndex : Int
  senderPubkeyHex : String
  receiverPubkeyHex : String
  amountSubunits : Int
  nonce : String
  deriving DecidableEq, Repr

/-- The messages that get signed. -/
inductive Message
  | genesis (payload : GenesisPayload)
  | chainHash (digest : Bytes)
  deriving DecidableEq, Repr

/-- Ed25519 on raw keys and signatures, and SHA-256 of a payload followed by a previous hash.
`verify` fails on bytes that are no public key. -/
structure Crypto where
  publicKey : Bytes → Bytes
  sign : Bytes → Message → Bytes
  verify : Bytes → Message → Bytes → Bool
  sha256 : TransferPayload → Bytes → Bytes

namespace Crypto

/-- What a private key signs verifies under its public key. -/
def Correct (c : Crypto) : Prop := ∀ sk m, c.verify (c.publicKey sk) m (c.sign sk m) = true

/-- A signature verifies under one key only. -/
def Exclusive (c : Crypto) : Prop :=
  ∀ pk pk' m m' signature, c.verify pk m signature = true → c.verify pk' m' signature = true →
    pk = pk'

/-- `ed25519_sign`. -/
def ed25519Sign (c : Crypto) (privateKeyBytes : Bytes) (m : Message) : String :=
  Hex.encode (c.sign privateKeyBytes m)

/-- `ed25519_verify`: malformed hexadecimal text is a failed verification. -/
def ed25519Verify (c : Crypto) (publicKeyHex : String) (m : Message) (signatureHex : String) :
    Except Raised Unit :=
  match Hex.decode publicKeyHex, Hex.decode signatureHex with
  | some pk, some signature =>
    if c.verify pk m signature then .ok ()
    else .error (.dpc .signatureVerification "Ed25519 signature verification failed")
  | _, _ => .error (.dpc .signatureVerification "Ed25519 signature verification failed")

lemma ed25519Verify_eq_ok_iff {c : Crypto} {publicKeyHex signatureHex : String} {m : Message} :
    c.ed25519Verify publicKeyHex m signatureHex = .ok () ↔
      ∃ pk signature, Hex.decode publicKeyHex = some pk ∧
        Hex.decode signatureHex = some signature ∧ c.verify pk m signature = true := by
  rw [ed25519Verify]
  cases Hex.decode publicKeyHex <;> cases Hex.decode signatureHex <;> simp

end Crypto

/-- `DPCKeyPair`; the public key is the one of the private key. -/
structure DPCKeyPair where
  privateKeyBytes : Bytes
  deriving DecidableEq, Repr

def DPCKeyPair.publicKeyHex (c : Crypto) (keypair : DPCKeyPair) : String :=
  Hex.encode (c.publicKey keypair.privateKeyBytes)

/-! ### Tokens -/

/-- Issuer-signed DPC bearer token. -/
structure Token where
  tokenId : String
  issuerPubkeyHex : String
  amountSubunits : Int
  issuedAt : Int
  ttlExpiry : Int
  issuerSignature : String
  deriving DecidableEq, Repr

namespace Token

/-- Check whether this token is expired at `now`, and refuse a clock before its issuance. -/
def isExpired (token : Token) (now : Int) : Except Raised Bool :=
  if now < token.issuedAt then
    .error (.dpc .tokenExpired ("Clock rollback detected: local time " ++ toString now ++
      " precedes issuer-signed issuance timestamp " ++ toString token.issuedAt ++
      ". Transfer refused."))
  else .ok (now > token.ttlExpiry)

/-- `genesis_payload_bytes`. -/
def genesisPayload (token : Token) : GenesisPayload where
  tokenId := token.tokenId
  issuerPubkeyHex := token.issuerPubkeyHex
  amountSubunits := token.amountSubunits
  issuedAt := token.issuedAt
  ttlExpiry := token.ttlExpiry

/-- Verify the issuer signature over token genesis fields. -/
def verifyIssuerSignature (c : Crypto) (token : Token) : Except Raised Unit :=
  c.ed25519Verify token.issuerPubkeyHex (.genesis token.genesisPayload) token.issuerSignature

/-- `mint_unsigned`, with the id and the time it draws. -/
def mintUnsigned (issuerPubkeyHex : String) (amountSubunits : Int) (tokenId : String)
    (issuedAt : Int) : Token :=
  ⟨tokenId, issuerPubkeyHex, amountSubunits, issuedAt, issuedAt + tokenTtlSeconds, ""⟩

end Token

/-! ### Transfer records -/

/-- One signed hop in a DPC token transfer chain. -/
structure TransferRecord where
  tokenId : String
  hopIndex : Int
  senderPubkeyHex : String
  receiverPubkeyHex : String
  amountSubunits : Int
  nonce : String
  prevHash : String
  chainHash : String
  signature : String
  deriving DecidableEq, Repr

namespace TransferRecord

/-- `payload_bytes`. -/
def payload (r : TransferRecord) : TransferPayload where
  tokenId := r.tokenId
  hopIndex := r.hopIndex
  senderPubkeyHex := r.senderPubkeyHex
  receiverPubkeyHex := r.receiverPubkeyHex
  amountSubunits := r.amountSubunits
  nonce := r.nonce

/-- Compute the hash-linked chain digest for this record. -/
def computeChainHash (c : Crypto) (r : TransferRecord) : Except Raised String := do
  let prev ← fromhex r.prevHash
  return Hex.encode (c.sha256 r.payload prev)

/-- The constructor with `__post_init__`, for a record without a signature. -/
def new (c : Crypto) (p : TransferPayload) (prevHash : String) : Except Raised TransferRecord := do
  let record : TransferRecord := ⟨p.tokenId, p.hopIndex, p.senderPubkeyHex, p.receiverPubkeyHex,
    p.amountSubunits, p.nonce, prevHash, "", ""⟩
  let chainHash ← record.computeChainHash c
  return { record with chainHash := chainHash }

/-- Sign this transfer's chain hash. -/
def sign (c : Crypto) (r : TransferRecord) (privateKeyBytes : Bytes) :
    Except Raised TransferRecord := do
  let digest ← fromhex r.chainHash
  return { r with signature := c.ed25519Sign privateKeyBytes (.chainHash digest) }

/-- Verify this transfer's hash and Ed25519 signature. -/
def verifySignature (c : Crypto) (r : TransferRecord) : Except Raised Unit := do
  let computed ← r.computeChainHash c
  if r.chainHash ≠ computed then
    throw (.dpc .chainIntegrity "Transfer chain_hash mismatch")
  let digest ← fromhex r.chainHash
  c.ed25519Verify r.senderPubkeyHex (.chainHash digest) r.signature

/-- The record's signature on its chain hash verifies under `publicKeyHex`. -/
def SignedUnder (c : Crypto) (r : TransferRecord) (publicKeyHex : String) : Prop :=
  ∃ digest, Hex.decode r.chainHash = some digest ∧
    c.ed25519Verify publicKeyHex (.chainHash digest) r.signature = .ok ()

instance (c : Crypto) (r : TransferRecord) (publicKeyHex : String) :
    Decidable (r.SignedUnder c publicKeyHex) :=
  decidable_of_iff ((Hex.decode r.chainHash).any fun digest =>
    c.ed25519Verify publicKeyHex (.chainHash digest) r.signature = .ok ())
    (by simp [SignedUnder, Option.any_eq_true])

lemma verifySignature_eq_ok_iff {c : Crypto} {r : TransferRecord} :
    r.verifySignature c = .ok () ↔
      r.computeChainHash c = .ok r.chainHash ∧ r.SignedUnder c r.senderPubkeyHex := by
  rw [verifySignature, SignedUnder, fromhex]
  cases r.computeChainHash c with
  | error e => simp
  | ok computed =>
    by_cases hhash : r.chainHash = computed
    · cases Hex.decode r.chainHash <;> simp [hhash]
    · simp [hhash, Ne.symm hhash]

/-- The record that the constructor and `sign` make of `p`, a previous hash and a private key. -/
structure MadeFrom (c : Crypto) (r : TransferRecord) (p : TransferPayload) (prevHash : String)
    (privateKeyBytes : Bytes) : Prop where
  payload : r.payload = p
  prevHash : r.prevHash = prevHash
  chainHash : r.computeChainHash c = .ok r.chainHash
  signed : c.Correct → r.SignedUnder c (Hex.encode (c.publicKey privateKeyBytes))

lemma madeFrom_of_sign {c : Crypto} {unsigned r : TransferRecord} {p : TransferPayload}
    {prevHash : String} {privateKeyBytes : Bytes} (hnew : new c p prevHash = .ok unsigned)
    (hsign : unsigned.sign c privateKeyBytes = .ok r) : r.MadeFrom c p prevHash privateKeyBytes := by
  obtain ⟨chainHash, hhash, hunsigned⟩ := bind_eq_ok_iff.mp hnew
  cases hunsigned
  obtain ⟨digest, hdigest, hr⟩ := bind_eq_ok_iff.mp hsign
  cases hr
  refine ⟨rfl, rfl, hhash, ?_⟩
  intro hcorrect
  exact ⟨digest, fromhex_eq_ok_iff.mp hdigest, Crypto.ed25519Verify_eq_ok_iff.mpr
    ⟨_, _, Hex.decode_encode _, Hex.decode_encode _, hcorrect privateKeyBytes _⟩⟩

end TransferRecord

/-! ### A transparent backend

Concrete runs use signatures that spell out the public key and the message. -/

def textBytes (s : String) : Bytes := s.toList.map fun ch => UInt8.ofNat ch.toNat

def Message.bytes : Message → Bytes
  | .genesis p => textBytes ("/".intercalate [p.tokenId, p.issuerPubkeyHex,
      toString p.amountSubunits, toString p.issuedAt, toString p.ttlExpiry])
  | .chainHash digest => digest

def plainCrypto : Crypto where
  publicKey sk := 237 :: sk
  sign sk m := delimited (237 :: sk) ++ m.bytes
  verify pk m signature := signature == delimited pk ++ m.bytes
  sha256 p prev := checksum (textBytes ("/".intercalate [p.tokenId, toString p.hopIndex,
    p.senderPubkeyHex, p.receiverPubkeyHex, toString p.amountSubunits, p.nonce]) ++ prev)

lemma plainCrypto_correct : plainCrypto.Correct := fun sk m => by simp [plainCrypto]

lemma plainCrypto_exclusive : plainCrypto.Exclusive := by
  intro pk pk' m m' signature h h'
  rw [plainCrypto, beq_iff_eq] at h h'
  exact (delimited_append_inj (h.symm.trans h')).1

end PocketCash.Dpc
