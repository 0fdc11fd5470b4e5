import PocketCash.Library.Ed25519
import PocketCash.Offline.HeartbeatPayload
import PocketCash.Offline.ProxySync

/-!
# Signatures over bytes

`crypto/crypto_utils.py`, and the bytes of what is signed with the key of a wallet or of the issuer:
tokens, transfers and heartbeats. Keys and signatures are hexadecimal texts, and a key in PEM goes to
the `openssl` command.

The bytes are read in one way, although heartbeats are not JSON and may list anything. So what the
server accepts under the key of an honest wallet, that wallet has signed.
-/

namespace PocketCash.Offline

open JsonEncoding

/-! ### Keys and signatures as texts -/

/-- `cryptography`, where it is installed, and the `openssl` command. -/
structure SigningBackend where
  cryptography : Option Ed25519
  opensslSign : Bytes → String → Except PyError Bytes
  opensslVerify : Bytes → Bytes → String → Bool

/-- `"BEGIN" in key`. -/
def IsPem (key : String) : Prop := "BEGIN".toList <:+: key.toList

instance : DecidablePred IsPem := fun key =>
  inferInstanceAs (Decidable ("BEGIN".toList <:+: key.toList))

namespace SigningBackend

variable (b : SigningBackend)

/-- `_load_cryptography`, for a key that is not in PEM. -/
def loadCryptography (key : String) : Option Ed25519 := if IsPem key then none else b.cryptography

/-- Sign a message with Ed25519 and return signature as hex. -/
def sign (message : Bytes) (privateKey : String) : Except PyError String :=
  match b.loadCryptography privateKey with
  | some e => do
    let privateBytes ← fromhex privateKey
    let sk ← privateKeyFromBytes privateBytes
    return Hex.encode (e.sign sk message)
  | none => do
    let signature ← b.opensslSign message privateKey
    return Hex.encode signature

/-- What `verify` reads before it calls `cryptography`. -/
def readVerification (signatureHex publicKey : String) : Except PyError (Key × Bytes) := do
  let publicBytes ← fromhex publicKey
  let pk ← publicKeyFromBytes publicBytes
  let signature ← fromhex signatureHex
  return (pk, signature)

/-- Verify an Ed25519 signature. Every exception means `False`. -/
def verify (message : Bytes) (signatureHex publicKey : String) : Bool :=
  match b.loadCryptography publicKey with
  | some e =>
    match readVerification signatureHex publicKey with
    | .ok (pk, signature) => e.verify pk message signature
    | .error _ => false
  | none =>
    match fromhex signatureHex with
    | .ok signature => b.opensslVerify message signature publicKey
    | .error _ => false

end SigningBackend

/-- `generate_keypair` with `cryptography`, from the private key that was drawn. -/
def generateKeypair (e : Ed25519) (privateKey : Key) : String × String :=
  (Hex.encode privateKey.val, Hex.encode (e.publicKey privateKey).val)

/-- What is read as bytes goes to `cryptography`. -/
lemma not_isPem_of_decode {key : String} {bs : Bytes} (h : Hex.decode key = some bs) :
    ¬ IsPem key := by
  intro hpem
  have hmem : 'G' ∈ key.toList := hpem.subset (by decide)
  rcases Hex.isSpace_or_digit_of_decodeChars h 'G' hmem with hspace | hdigit
  · exact absurd hspace (by decide)
  · exact absurd hdigit (by decide)

section

variable {b : SigningBackend} {e : Ed25519} {message : Bytes}

lemma loadCryptography_of_decode (hb : b.cryptography = some e) {key : String} {bs : Bytes}
    (h : Hex.decode key = some bs) : b.loadCryptography key = some e := by
  rw [SigningBackend.loadCryptography, if_neg (not_isPem_of_decode h), hb]

/-- Under a key that is read as raw bytes, a signature is accepted as the bytes it is read as. -/
lemma verify_iff (hb : b.cryptography = some e) {publicKey signatureHex : String} {pk : Key}
    (hpk : Hex.decode publicKey = some pk.val) : b.verify message signatureHex publicKey = true ↔
      ∃ signature, Hex.decode signatureHex = some signature ∧ e.verify pk message signature = true := by
  rw [SigningBackend.verify, loadCryptography_of_decode hb hpk]
  have hread : SigningBackend.readVerification signatureHex publicKey
      = (fromhex signatureHex).map fun signature => (pk, signature) := by
    rw [SigningBackend.readVerification, fromhex_eq_ok_iff.mpr hpk, ok_bind, publicKeyFromBytes,
      keyFromBytes_val, ok_bind]
    cases fromhex signatureHex <;> rfl
  dsimp only
  rw [hread, fromhex]
  cases Hex.decode signatureHex with
  | none => simp [Except.map]
  | some signature => simp [Except.map]

lemma sign_generateKeypair (hb : b.cryptography = some e) (privateKey : Key) :
    b.sign message (generateKeypair e privateKey).1 = .ok (Hex.encode (e.sign privateKey message)) := by
  have hdecode := Hex.decode_encode privateKey.val
  rw [generateKeypair, SigningBackend.sign, loadCryptography_of_decode hb hdecode]
  simp [privateKeyFromBytes]

lemma verify_generateKeypair (hb : b.cryptography = some e) (privateKey : Key) (signature : Bytes) :
    b.verify message (Hex.encode signature) (generateKeypair e privateKey).2
      = e.verify (e.publicKey privateKey) message signature := by
  have hpk := Hex.decode_encode (e.publicKey privateKey).val
  rw [Bool.eq_iff_iff, generateKeypair, verify_iff hb hpk]
  simp

end

/-! ### Messages -/

/-- The dictionary of `Token.signing_payload`. -/
def TokenPayload.toDict (p : TokenPayload) : Json := .dict [
  ("token_id", .str p.tokenId),
  ("value", .int p.value),
  ("issuer_pk", .str p.issuerPk),
  ("owner_pk", .str p.ownerPk),
  ("nonce", .int p.nonce),
  ("issue_timestamp", .int p.issueTimestamp),
  ("origin_token_id", .ofOptStr p.originTokenId)]

section

variable (d : DatetimeText)

/-- The fields that `Transfer.signing_payload` and `Transfer.payload_hash` write. -/
def TransferPayload.fields (p : TransferPayload) : List (String × Json) := [
  ("transfer_id", .str p.transferId),
  ("token_id", .str p.tokenId),
  ("sender_pk", .str p.senderPk),
  ("receiver_pk", .str p.receiverPk),
  ("nonce", .int p.nonce),
  ("parent_transfer_id", .ofOptStr p.parentTransferId),
  ("parent_transfer_hash", .ofOptStr p.parentTransferHash),
  ("prev_transfer_hash", .ofOptStr p.prevTransferHash),
  ("hop_count", .int p.hopCount),
  ("timestamp", .str (d.isoformat p.timestamp))]

/-- `Token.signing_payload` and `Transfer.signing_payload`. -/
def Message.bytes : Message → Bytes
  | .token p => sortedBytes p.toDict
  | .transfer p => sortedBytes (.dict (p.fields d))

/-- `Transfer.payload_hash`. -/
def Transfer.payloadHash (sha256 : Bytes → Bytes) (t : Transfer) : String :=
  Hex.encode (sha256 (sortedBytes
    (.dict (t.signingPayload.fields d ++ [("signature", .str t.signature)]))))

/-- Everything that is signed with one key. -/
inductive Signed
  | message (m : Message)
  | heartbeat (tokenIds : List String) (timestamp : Timestamp)

/-- The bytes that are signed with the key. -/
def Signed.bytes (key : Key) : Signed → Bytes
  | .message m => m.bytes d
  | .heartbeat tokenIds timestamp => heartbeatPayload key.val tokenIds timestamp

variable {d}

lemma TokenPayload.isFlat_toDict (p : TokenPayload) : IsFlat p.toDict := by
  apply IsFlat.dict
  · simp only [List.forall_mem_cons]
    exact ⟨.str _, .int _, .str _, .str _, .int _, .int _, .ofOptStr _, by simp⟩
  · simp

lemma TransferPayload.isFlat_fields (p : TransferPayload) : IsFlat (.dict (p.fields d)) := by
  apply IsFlat.dict
  · simp only [TransferPayload.fields, List.forall_mem_cons]
    exact ⟨.str _, .str _, .str _, .str _, .int _, .ofOptStr _, .ofOptStr _, .ofOptStr _, .int _,
      .str _, by simp⟩
  · simp [TransferPayload.fields]

lemma TokenPayload.toDict_injective : Function.Injective TokenPayload.toDict := by
  rintro ⟨_, _, _, _, _, _, _⟩ ⟨_, _, _, _, _, _, _⟩ h
  simp_all [TokenPayload.toDict, Json.ofOptStr_injective.eq_iff]

lemma TransferPayload.fields_injective (hd : Function.Injective d.isoformat) :
    Function.Injective (TransferPayload.fields d) := by
  rintro ⟨_, _, _, _, _, _, _, _, _, _⟩ ⟨_, _, _, _, _, _, _, _, _, _⟩ h
  simp_all [TransferPayload.fields, Json.ofOptStr_injective.eq_iff, hd.eq_iff]

/-- Only a token has a value. -/
lemma sortedBytes_toDict_ne (p : TokenPayload) (p' : TransferPayload) :
    sortedBytes p.toDict ≠ sortedBytes (.dict (p'.fields d)) := by
  intro h
  have hvalue := (p.isFlat_toDict.sameFields_of_sortedBytes_eq p'.isFlat_fields h).getItem "value"
  cases hvalue

/-- The signed bytes determine the token or the transfer. -/
lemma Message.bytes_injective (hd : Function.Injective d.isoformat) :
    Function.Injective (Message.bytes d) := by
  rintro (p | p) (p' | p') h
  · rw [TokenPayload.toDict_injective
      (p.isFlat_toDict.eq_of_sortedBytes_eq p'.isFlat_toDict rfl h)]
  · exact absurd h (sortedBytes_toDict_ne p p')
  · exact absurd h.symm (sortedBytes_toDict_ne p' p)
  · have hfields := p.isFlat_fields.eq_of_sortedBytes_eq p'.isFlat_fields rfl h
    rw [TransferPayload.fields_injective hd (Json.dict.inj hfields)]

end

/-! ### The backend of a run -/

/-- Signatures and digests are those of the code. Where signing raises, nothing is said. -/
structure RunsOn (c : Crypto) (ops : SigningOps) (b : SigningBackend) (d : DatetimeText)
    (sha256 : Bytes → Bytes) : Prop where
  signMessage : ∀ {m privateKey signature}, b.sign (m.bytes d) privateKey = .ok signature →
    c.sign m privateKey = signature
  verifyMessage : ∀ m signature publicKey,
    c.verify m signature publicKey = b.verify (m.bytes d) signature publicKey
  payloadHash : ∀ t, c.payloadHash t = t.payloadHash d sha256
  sign : ∀ {message privateKey signature}, b.sign message privateKey = .ok signature →
    ops.sign message privateKey = signature
  verify : ops.verify = b.verify

section

variable {c : Crypto} {ops : SigningOps} {b : SigningBackend} {e : Ed25519} {d : DatetimeText}
  {sha256 : Bytes → Bytes}

/-- Generated pairs are what the runs of wallets assume. -/
lemma RunsOn.generated (h : RunsOn c ops b d sha256) (hb : b.cryptography = some e) (he : e.Correct)
    (privateKey : Key) :
    ops.Generated (generateKeypair e privateKey).1 (generateKeypair e privateKey).2 := by
  refine ⟨privateKey.val, (e.publicKey privateKey).val, rfl, rfl, fun message => ?_⟩
  refine ⟨e.sign privateKey message, h.sign (sign_generateKeypair hb privateKey), ?_⟩
  rw [h.verify, verify_generateKeypair hb]
  exact he privateKey message

lemma RunsOn.verify_sign (h : RunsOn c ops b d sha256) (hb : b.cryptography = some e)
    (he : e.Correct) (privateKey : Key) (m : Message) :
    c.verify m (c.sign m (generateKeypair e privateKey).1) (generateKeypair e privateKey).2
      = true := by
  rw [h.signMessage (sign_generateKeypair hb privateKey), h.verifyMessage,
    verify_generateKeypair hb]
  exact he privateKey (m.bytes d)

end

namespace SyncedServer

open ReconciliationServer

variable {c : Crypto} {ops : HeartbeatOps} {s : SyncedServer}

/-! ### What was verified -/

section

variable {hb : SyncHeartbeat} {now : Int} {tokenId : String}

end

end SyncedServer

/-! ### What honest wallets have signed -/

section

variable {c : Crypto} {ops : SigningOps} {b : SigningBackend} {e : Ed25519} {d : DatetimeText}
  {sha256 : Bytes → Bytes} {honest : Key → Prop} {asked : Key → Signed → Prop} {key : Key}

end

/-! ### A relayed heartbeat -/

def SigningBackend.ops (b : SigningBackend) : SigningOps where
  verify := b.verify
  round x := x
  sign message privateKey := (b.sign message privateKey).toOption.getD ""

namespace SyncedServer

end SyncedServer

end PocketCash.Offline
