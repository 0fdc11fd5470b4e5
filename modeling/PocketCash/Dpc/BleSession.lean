import PocketCash.Dpc.Documents
import PocketCash.Dpc.Persistence

/-!
# BLE sessions

`BLESession` of `dpc/ble_session_simulator.py`. A handshake of two ephemeral X25519 keys gives both
sides one session key; under it a token and its chain are sent as encrypted JSON text. X25519, HKDF
and ChaCha20-Poly1305 are parameters, and an X25519 key is its 32 bytes.
-/

namespace PocketCash.Dpc

open JsonEncoding

/-! ### Session keys -/

/-- X25519, HKDF-SHA256 by salt, info and secret, and ChaCha20-Poly1305 by key and nonce.
`decrypt` fails on what does not authenticate, which is `InvalidTag`. -/
structure SessionCrypto where
  publicBytes : Bytes → Bytes
  exchange : Bytes → Bytes → Except PyError Bytes
  hkdf : Bytes → Bytes → Bytes → Bytes
  encrypt : Bytes → Bytes → Bytes → Bytes
  decrypt : Bytes → Bytes → Bytes → Option Bytes

namespace SessionCrypto

/-- Two parties that know each other's public key share a secret. -/
def Agrees (s : SessionCrypto) : Prop :=
  ∀ sk sk', ∃ secret, s.exchange sk (s.publicBytes sk') = .ok secret ∧
    s.exchange sk' (s.publicBytes sk) = .ok secret

/-- Decryption undoes encryption. -/
def Inverse (s : SessionCrypto) : Prop :=
  ∀ key nonce plaintext, s.decrypt key nonce (s.encrypt key nonce plaintext) = some plaintext

/-- A ciphertext holds at least the tag. -/
def Tagged (s : SessionCrypto) : Prop :=
  ∀ key nonce plaintext, 1 ≤ (s.encrypt key nonce plaintext).length

/-- `derive_session_key`. -/
def deriveSessionKey (s : SessionCrypto) (localX25519Private peerX25519PublicBytes
    sessionNonce : Bytes) : Except PyError Bytes := do
  let sharedSecret ← s.exchange localX25519Private peerX25519PublicBytes
  return s.hkdf sessionNonce (utf8 "DPC-ChaCha20-Session-v1") sharedSecret

end SessionCrypto

/-- `SessionDecryptionError`, a failed `assert`, or another exception. -/
inductive SessionError
  | sessionDecryption (message : String)
  | assertion
  | other (e : Raised)
  deriving DecidableEq, Repr

/-- An exception of the token model inside a session. -/
instance : MonadLift (Except Raised) (Except SessionError) where
  monadLift
    | .ok a => .ok a
    | .error e => .error (.other e)

/-- A Python exception inside a session. -/
instance : MonadLift (Except PyError) (Except SessionError) where
  monadLift
    | .ok a => .ok a
    | .error e => .error (.other (.py e))

/-- Simulated BLE payment session using X25519 and ChaCha20-Poly1305. -/
structure BLESession where
  payerKeypair : DPCKeyPair
  payeeKeypair : DPCKeyPair
  sessionKey : Option Bytes

/-- What a handshake draws: the two ephemeral private keys and the two nonces. -/
structure HandshakeDraw where
  payerEphPriv : Bytes
  payeeEphPriv : Bytes
  payerNonce : Bytes
  payeeNonce : Bytes

namespace BLESession

/-- Create a BLE session simulator. -/
def new (payerKeypair payeeKeypair : DPCKeyPair) : BLESession := ⟨payerKeypair, payeeKeypair, none⟩

/-- Perform an ephemeral X25519 handshake. -/
def handshake (s : SessionCrypto) (session : BLESession) (draw : HandshakeDraw) :
    BLESession × Except SessionError (Bytes × Bytes) :=
  let sessionNonce := draw.payerNonce ++ draw.payeeNonce
  let payerSessionKey :=
    s.deriveSessionKey draw.payerEphPriv (s.publicBytes draw.payeeEphPriv) sessionNonce
  let payeeSessionKey :=
    s.deriveSessionKey draw.payeeEphPriv (s.publicBytes draw.payerEphPriv) sessionNonce
  match payerSessionKey, payeeSessionKey with
  | .error e, _ => (session, .error (.other (.py e)))
  | .ok _, .error e => (session, .error (.other (.py e)))
  | .ok payerSessionKey, .ok payeeSessionKey =>
    if payerSessionKey = payeeSessionKey then
      ({ session with sessionKey := some payerSessionKey }, .ok (payerSessionKey, payeeSessionKey))
    else (session, .error .assertion)

/-- The plaintext of `encrypt_payload`. The token goes through its own JSON text first. -/
def plaintext (token : Token) (chain : List TransferRecord) : Except PyError Bytes := do
  let tokenData ← loadDocument token.toJson
  return sortedBytes (.dict [
    ("token", tokenData),
    ("chain", .list (chain.map TransferRecord.toDict))])

/-- Encrypt a token and chain payload, with the nonce that is drawn. -/
def encryptPayload (s : SessionCrypto) (session : BLESession) (token : Token)
    (chain : List TransferRecord) (nonce : Bytes) : Except SessionError Bytes :=
  match session.sessionKey with
  | none => .error (.sessionDecryption "Session key not established")
  | some key => do
    let plaintext ← plaintext token chain
    return nonce ++ s.encrypt key nonce plaintext

/-- What `decrypt_payload` makes of the decrypted bytes. -/
def readPlaintext (c : Crypto) (plaintext : Bytes) : Except Raised (Token × List TransferRecord) := do
  let payload ← loadDocument plaintext
  let token ← Token.fromDict (← payload.getItem "token")
  let chain ← recordsFromList c (← (← payload.getItem "chain").asList)
  return (token, chain)

/-- The decryption of nonce-prefixed bytes. -/
def opened (s : SessionCrypto) (key encryptedBytes : Bytes) : Option Bytes :=
  s.decrypt key (encryptedBytes.take 12) (encryptedBytes.drop 12)

/-- Decrypt a nonce-prefixed BLE token payload. -/
def decryptPayload (c : Crypto) (s : SessionCrypto) (session : BLESession) (encryptedBytes : Bytes) :
    Except SessionError (Token × List TransferRecord) :=
  match session.sessionKey with
  | none => .error (.sessionDecryption "Session key not established")
  | some key =>
    if encryptedBytes.length < 13 then
      .error (.sessionDecryption "Encrypted payload is too short")
    else
      match opened s key encryptedBytes with
      | none => .error (.sessionDecryption "BLE payload authentication failed")
      | some plaintext => do
        let payload ← readPlaintext c plaintext
        return payload

/-- Run handshake, encryption, and decryption for a simulated BLE transfer. -/
def simulateTransfer (c : Crypto) (s : SessionCrypto) (session : BLESession) (token : Token)
    (chain : List TransferRecord) (draw : HandshakeDraw) (nonce : Bytes) :
    BLESession × Except SessionError (Token × List TransferRecord) :=
  match session.handshake s draw with
  | (session, .error e) => (session, .error e)
  | (session, .ok _) =>
    (session, do
      let encryptedBytes ← session.encryptPayload s token chain nonce
      let received ← session.decryptPayload c s encryptedBytes
      if received.1.tokenId ≠ token.tokenId then
        throw .assertion
      return received)

end BLESession

/-! ### What is read is what was written -/

section

variable {c : Crypto}

/-- What `bytes.fromhex` raises. -/
def notHexadecimal : Raised := .py (.valueError "non-hexadecimal number found in fromhex() arg")

/-- The constructor refuses a record whose previous hash is not hexadecimal. -/
lemma TransferRecord.fromDict_of_not_hexLinked {r : TransferRecord} (h : ¬ r.HexLinked) :
    fromDict c r.toDict = .error notHexadecimal := by
  have hread : fromDict c r.toDict = do
      let record ← TransferRecord.new c r.payload r.prevHash
      return { record with chainHash := r.chainHash, signature := r.signature } := rfl
  have hnone : Hex.decode r.prevHash = none := by
    rw [Option.eq_none_iff_forall_ne_some]
    exact fun prev hprev => h ⟨prev, hprev⟩
  have hhex : fromhex r.prevHash = .error notHexadecimal := by
    rw [fromhex, hnone]
    rfl
  rw [hread, TransferRecord.new, computeChainHash, hhex]
  rfl

/-- Records are read back, unless the constructor refuses one of them. -/
lemma recordsFromList_eq (rs : List TransferRecord) :
    recordsFromList c (rs.map TransferRecord.toDict)
      = if ∀ r ∈ rs, r.HexLinked then .ok rs else .error notHexadecimal := by
  by_cases hall : ∀ r ∈ rs, r.HexLinked
  · rw [if_pos hall, recordsFromList_toDict hall]
  · rw [if_neg hall]
    induction rs with
    | nil => simp at hall
    | cons r rs ih =>
      rw [List.map_cons, recordsFromList]
      by_cases hlinked : r.HexLinked
      · have hrest : ¬ ∀ r ∈ rs, r.HexLinked := by
          intro hrest
          exact hall (List.forall_mem_cons.mpr ⟨hlinked, hrest⟩)
        rw [TransferRecord.fromDict_toDict hlinked, ok_bind, ih hrest, error_bind]
      · rw [TransferRecord.fromDict_of_not_hexLinked hlinked, error_bind]

end

namespace BLESession

variable {c : Crypto} {s : SessionCrypto}

/-- The document that `encrypt_payload` writes. -/
def payloadDict (token : Token) (chain : List TransferRecord) : Json := .dict [
  ("token", sortKeys token.toDict),
  ("chain", .list (chain.map TransferRecord.toDict))]

lemma plaintext_eq (token : Token) (chain : List TransferRecord) :
    plaintext token chain = .ok (sortedBytes (payloadDict token chain)) := by
  rw [plaintext, Token.toJson, loadDocument_sortedBytes (wellFormed_token token)]
  rfl

lemma nodup_payloadKeys : ["token", "chain"].Nodup := by decide

lemma wellFormed_payloadDict (token : Token) (chain : List TransferRecord) :
    WellFormed (payloadDict token chain) := by
  apply WellFormed.dict
  · simp only [List.forall_mem_cons, List.not_mem_nil, false_imp_iff, implies_true, and_true]
    refine ⟨(wellFormed_token token).sortKeys, .list ?_⟩
    exact List.forall_mem_map.mpr fun r _ => wellFormed_record r
  · exact nodup_payloadKeys

/-- The plaintext is read back, unless the constructor refuses one of the records. -/
lemma readPlaintext_sortedBytes (token : Token) (chain : List TransferRecord) :
    readPlaintext c (sortedBytes (payloadDict token chain))
      = if ∀ r ∈ chain, r.HexLinked then .ok (token, chain) else .error notHexadecimal := by
  have hdata : Json.SameFields (sortKeys (payloadDict token chain)) (.dict [
      ("token", sortKeys (sortKeys token.toDict)),
      ("chain", .list (sortItems (chain.map TransferRecord.toDict)))]) :=
    sameFields_sortFields nodup_payloadKeys
  have htokenItem : Json.getItem (.dict [
      ("token", sortKeys (sortKeys token.toDict)),
      ("chain", .list (sortItems (chain.map TransferRecord.toDict)))]) "token"
      = .ok (sortKeys (sortKeys token.toDict)) := rfl
  have hread : readPlaintext c (sortedBytes (payloadDict token chain)) = (do
      let chain ← recordsFromList c (sortItems (chain.map TransferRecord.toDict))
      return (token, chain)) := by
    rw [readPlaintext, loadDocument_sortedBytes (wellFormed_payloadDict token chain)]
    simp only [liftM_ok, ok_bind, hdata.getItem]
    rw [htokenItem, liftM_ok, ok_bind, sortKeys_sortKeys (wellFormed_token token),
      Token.fromDict_sortKeys]
    rfl
  rw [hread, recordsFromList_sortItems, recordsFromList_eq]
  split_ifs <;> rfl

/-! ### Sessions with a key -/

/-- Both sides of a handshake derive the same key. -/
lemma exists_handshake (hagrees : s.Agrees) (session : BLESession) (draw : HandshakeDraw) :
    ∃ session' key, session.handshake s draw = (session', .ok (key, key)) ∧
      session'.sessionKey = some key := by
  obtain ⟨secret, hpayer, hpayee⟩ := hagrees draw.payerEphPriv draw.payeeEphPriv
  simp only [handshake, SessionCrypto.deriveSessionKey, hpayer, hpayee, ok_bind, pure_eq_ok, if_true]
  exact ⟨_, _, rfl, rfl⟩

/-- The bytes that `encrypt_payload` returns under `key`. -/
def sealed (s : SessionCrypto) (key : Bytes) (token : Token) (chain : List TransferRecord)
    (nonce : Bytes) : Bytes :=
  nonce ++ s.encrypt key nonce (sortedBytes (payloadDict token chain))

variable {session : BLESession} {key nonce : Bytes} {token : Token} {chain : List TransferRecord}

lemma encryptPayload_eq (hkey : session.sessionKey = some key) :
    session.encryptPayload s token chain nonce = .ok (sealed s key token chain nonce) := by
  rw [encryptPayload, hkey]
  simp only [plaintext_eq]
  rfl

lemma opened_sealed (hinverse : s.Inverse) (hnonce : nonce.length = 12) :
    opened s key (sealed s key token chain nonce)
      = some (sortedBytes (payloadDict token chain)) := by
  rw [opened, sealed, List.take_left' hnonce, List.drop_left' hnonce, hinverse]

/-- What a session has sealed it opens, unless the constructor refuses one of the records. -/
lemma decryptPayload_sealed (hinverse : s.Inverse) (htagged : s.Tagged)
    (hnonce : nonce.length = 12) (hkey : session.sessionKey = some key) :
    session.decryptPayload c s (sealed s key token chain nonce)
      = if ∀ r ∈ chain, r.HexLinked then .ok (token, chain) else .error (.other notHexadecimal) := by
  have hlong : ¬ (sealed s key token chain nonce).length < 13 := by
    have htag := htagged key nonce (sortedBytes (payloadDict token chain))
    rw [sealed, List.length_append]
    omega
  rw [decryptPayload, hkey]
  simp only [if_neg hlong, opened_sealed hinverse hnonce, readPlaintext_sortedBytes]
  split_ifs <;> rfl

end BLESession

/-! ### A whole transfer -/

/-- A cipher that writes the key and the nonce before the plaintext. -/
def plainSession : SessionCrypto where
  publicBytes sk := sk
  exchange sk pk := .ok (List.zipWith (· ^^^ ·) sk pk)
  hkdf salt info secret := checksum (salt ++ info ++ secret)
  encrypt key nonce plaintext := 0 :: key ++ nonce ++ plaintext
  decrypt key nonce ciphertext :=
    if (0 :: key ++ nonce).isPrefixOf ciphertext then
      some (ciphertext.drop (0 :: key ++ nonce).length)
    else none

lemma plainSession_agrees : plainSession.Agrees := by
  intro sk sk'
  refine ⟨List.zipWith (· ^^^ ·) sk sk', rfl, ?_⟩
  rw [List.zipWith_comm_of_comm UInt8.xor_comm]
  rfl

lemma plainSession_inverse : plainSession.Inverse := by
  intro key nonce plaintext
  simp [plainSession]

lemma plainSession_tagged : plainSession.Tagged := by
  intro key nonce plaintext
  simp [plainSession]

/-- A simulated transfer returns the token and the chain it was given, field by field, unless the
previous hash of a record is not hexadecimal. -/
theorem simulateTransfer_eq {s : SessionCrypto} (hagrees : s.Agrees) (hinverse : s.Inverse)
    (htagged : s.Tagged) (c : Crypto) (session : BLESession) (token : Token)
    (chain : List TransferRecord) (draw : HandshakeDraw) {nonce : Bytes}
    (hnonce : nonce.length = 12) :
    (session.simulateTransfer c s token chain draw nonce).2
      = if ∀ r ∈ chain, r.HexLinked then .ok (token, chain)
        else .error (.other notHexadecimal) := by
  obtain ⟨session', key, hhandshake, hkey⟩ := BLESession.exists_handshake hagrees session draw
  rw [BLESession.simulateTransfer, hhandshake]
  simp only [BLESession.encryptPayload_eq hkey, ok_bind,
    BLESession.decryptPayload_sealed hinverse htagged hnonce hkey]
  by_cases hlinked : ∀ r ∈ chain, r.HexLinked
  · rw [if_pos hlinked, ok_bind, if_neg (not_not.mpr rfl)]
    rfl
  · rw [if_neg hlinked, error_bind]

theorem simulateTransfer_eq_plain :
    ((BLESession.new Custody.alice Custody.mallory).simulateTransfer plainCrypto plainSession
        Custody.token [Custody.genesis, Custody.spend] ⟨[1], [2], [3], [4]⟩
        (List.replicate 12 0)).2
      = if ∀ r ∈ [Custody.genesis, Custody.spend], r.HexLinked
        then .ok (Custody.token, [Custody.genesis, Custody.spend])
        else .error (.other notHexadecimal) :=
  simulateTransfer_eq plainSession_agrees plainSession_inverse plainSession_tagged plainCrypto _ _ _ _
    (by decide)

end PocketCash.Dpc
