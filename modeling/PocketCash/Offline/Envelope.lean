import PocketCash.Library.JsonSorted
import PocketCash.Offline.Wallet

/-!
# Encrypted delivery

`protocol/network_simulator.py` and `crypto/session.py`. An envelope holds the JSON text of a bundle,
encrypted under a key that both wallets derive from their private keys. SHA-256, X25519,
ChaCha20-Poly1305 and the texts of `datetime` are parameters; an X25519 key is its 32 bytes.
-/

namespace PocketCash.Offline

open JsonEncoding

/-! ### Session keys -/

/-- SHA-256, X25519 and ChaCha20-Poly1305. -/
structure SessionCrypto where
  sha256 : Bytes → Bytes
  publicBytes : Bytes → Bytes
  exchange : Bytes → Bytes → Except PyError Bytes
  encrypt : Bytes → Bytes → Bytes → Bytes
  decrypt : Bytes → Bytes → Bytes → Except PyError Bytes

/-- Two parties that know each other's public key share a secret. -/
def SessionCrypto.Agrees (s : SessionCrypto) : Prop :=
  ∀ sk sk', ∃ secret, s.exchange sk (s.publicBytes sk') = .ok secret ∧
    s.exchange sk' (s.publicBytes sk) = .ok secret

/-- Decryption undoes encryption. -/
def SessionCrypto.Inverse (s : SessionCrypto) : Prop :=
  ∀ key nonce plaintext, s.decrypt key nonce (s.encrypt key nonce plaintext) = .ok plaintext

/-- `dt.isoformat()` and `datetime.fromisoformat`. -/
structure DatetimeText where
  isoformat : Datetime → String
  fromisoformat : String → Except PyError Datetime

/-- The text of a `datetime` is read back. -/
def DatetimeText.Lossless (d : DatetimeText) (dt : Datetime) : Prop :=
  d.fromisoformat (d.isoformat dt) = .ok dt

/-- `bytes.fromhex`. -/
def fromhex (s : String) : Except PyError Bytes :=
  match Hex.decode s with
  | some bs => .ok bs
  | none => .error (.valueError "non-hexadecimal number found in fromhex() arg")

lemma fromhex_eq_ok_iff {s : String} {bs : Bytes} :
    fromhex s = .ok bs ↔ Hex.decode s = some bs := by
  rw [fromhex]
  cases Hex.decode s <;> simp

@[simp] lemma fromhex_encode (bs : Bytes) : fromhex (Hex.encode bs) = .ok bs :=
  fromhex_eq_ok_iff.mpr (Hex.decode_encode bs)

/-- Derive an X25519 private key from an Ed25519 private key seed. -/
def ed25519SkToX25519Sk (s : SessionCrypto) (ed25519PrivateBytes : Bytes) :
    Except PyError Bytes := do
  if ed25519PrivateBytes.length < 32 then
    throw (.valueError "ed25519_private_bytes must contain at least 32 bytes")
  return s.sha256 (utf8 "DPC-ed25519-to-x25519-v1" ++ ed25519PrivateBytes.take 32)

/-- `derive_session_key`. -/
def deriveSessionKey (s : SessionCrypto) (sharedSecret nonceMaterial : Bytes) : Bytes :=
  s.sha256 (utf8 "DPC-session-v1" ++ sharedSecret ++ nonceMaterial)

/-! ### Bundles as JSON -/

section

variable (d : DatetimeText)

def transferToDict (transfer : Transfer) : Json := .dict [
  ("transfer_id", .str transfer.transferId),
  ("token_id", .str transfer.tokenId),
  ("sender_pk", .str transfer.senderPk),
  ("receiver_pk", .str transfer.receiverPk),
  ("nonce", .int transfer.nonce),
  ("parent_transfer_id", .ofOptStr transfer.parentTransferId),
  ("parent_transfer_hash", .ofOptStr transfer.parentTransferHash),
  ("prev_transfer_hash", .ofOptStr transfer.prevTransferHash),
  ("hop_count", .int transfer.hopCount),
  ("signature", .str transfer.signature),
  ("timestamp", .str (d.isoformat transfer.timestamp))]

def tokenToDict (token : Token) : Json := .dict [
  ("token_id", .str token.tokenId),
  ("value", .int token.value),
  ("issuer_pk", .str token.issuerPk),
  ("current_owner", .str token.currentOwner),
  ("nonce", .int token.nonce),
  ("issuer_signature", .str token.issuerSignature),
  ("last_transfer_id", .ofOptStr token.lastTransferId),
  ("last_transfer_hash", .ofOptStr token.lastTransferHash),
  ("hop_count", .int token.hopCount),
  ("issue_timestamp", .int token.issueTimestamp),
  ("created_at", .str (d.isoformat token.createdAt)),
  ("origin_token_id", .ofOptStr token.originTokenId)]

/-- `payload` of `_bundle_to_bytes`. -/
def bundleToDict (bundle : PaymentBundle) : Json := .dict [
  ("bundle_id", .str bundle.bundleId),
  ("transfers", .list (bundle.transfers.map (transferToDict d))),
  ("tokens", .dict (bundle.tokens.items.map fun entry => (entry.1, tokenToDict d entry.2)))]

def bundleToBytes (bundle : PaymentBundle) : Bytes := sortedBytes (bundleToDict d bundle)

def transferFromDict (payload : Json) : Except PyError Transfer := do
  let timestamp ← d.fromisoformat (← (← payload.getItem "timestamp").asStr)
  payload.checkKwargs ["transfer_id", "token_id", "sender_pk", "receiver_pk", "nonce",
    "parent_transfer_id", "parent_transfer_hash", "prev_transfer_hash", "hop_count", "signature",
    "timestamp"]
  let transferId ← (← payload.kwarg "transfer_id").asStr
  let tokenId ← (← payload.kwarg "token_id").asStr
  let senderPk ← (← payload.kwarg "sender_pk").asStr
  let receiverPk ← (← payload.kwarg "receiver_pk").asStr
  let nonce ← (← payload.kwarg "nonce").asInt
  let parentTransferId ← (← payload.kwarg "parent_transfer_id").asOptStr
  let parentTransferHash ← (← payload.kwarg "parent_transfer_hash").asOptStr
  let prevTransferHash ← (← payload.kwarg "prev_transfer_hash").asOptStr
  let hopCount ← (← payload.kwarg "hop_count").asInt
  let signature ← (← payload.kwarg "signature").asStr
  return ⟨transferId, tokenId, senderPk, receiverPk, nonce, parentTransferId, parentTransferHash,
    prevTransferHash, hopCount, signature, timestamp⟩

/-- `_token_from_dict`. The time is read if there is no `issue_timestamp`. -/
def tokenFromDict (now : Int) (payload : Json) : Except PyError Token := do
  let createdAt ← d.fromisoformat (← (← payload.getItem "created_at").asStr)
  payload.checkKwargs ["token_id", "value", "issuer_pk", "current_owner", "nonce",
    "issuer_signature", "last_transfer_id", "last_transfer_hash", "hop_count", "issue_timestamp",
    "created_at", "origin_token_id"]
  let tokenId ← (← payload.kwarg "token_id").asStr
  let value ← (← payload.kwarg "value").asInt
  let issuerPk ← (← payload.kwarg "issuer_pk").asStr
  let currentOwner ← (← payload.kwarg "current_owner").asStr
  let nonce ← (← payload.kwarg "nonce").asInt
  let issuerSignature ← (← payload.kwarg "issuer_signature").asStr
  let lastTransferId ← (← payload.get "last_transfer_id" .null).asOptStr
  let lastTransferHash ← (← payload.get "last_transfer_hash" .null).asOptStr
  let hopCount ← (← payload.get "hop_count" (.int 0)).asInt
  let issueTimestamp ← (← payload.get "issue_timestamp" (.int (wholeSeconds now))).asInt
  let originTokenId ← (← payload.get "origin_token_id" .null).asOptStr
  return ⟨tokenId, value, issuerPk, currentOwner, nonce, issuerSignature, lastTransferId,
    lastTransferHash, hopCount, issueTimestamp, createdAt, originTokenId⟩

def bundleFromBytes (now : Int) (payload : Bytes) : Except PyError PaymentBundle := do
  let data ← loadDocument payload
  let bundleId ← (← data.getItem "bundle_id").asStr
  let transfers ← (← (← data.getItem "transfers").asList).mapM (transferFromDict d)
  let tokens ← (← (← data.getItem "tokens").items).mapM fun entry => do
    return (entry.1, ← tokenFromDict d now entry.2)
  return ⟨bundleId, transfers, tokens.foldl KeyedList.put .empty⟩

end

/-! ### Envelopes -/

/-- Encrypted transport envelope for a serialized payment bundle. -/
structure SessionEnvelope where
  senderX25519Pk : Bytes
  nonceMaterial : Bytes
  nonce : Bytes
  ciphertext : Bytes

/-- What an encrypted delivery draws and reads: `os.urandom(12)`, and the time. -/
structure EnvelopeDraw where
  nonce : Bytes
  now : Int

/-- `_build_envelope`. -/
def buildEnvelope (s : SessionCrypto) (d : DatetimeText) (senderWallet receiverWallet : Wallet)
    (bundle : PaymentBundle) (draw : EnvelopeDraw) : Except PyError SessionEnvelope := do
  let senderX25519 ← ed25519SkToX25519Sk s (← fromhex senderWallet.privateKeyHex)
  let receiverX25519 ← ed25519SkToX25519Sk s (← fromhex receiverWallet.privateKeyHex)
  let senderX25519Pk := s.publicBytes senderX25519
  let receiverX25519Pk := s.publicBytes receiverX25519
  let nonceMaterial := senderX25519Pk ++ receiverX25519Pk
  let sharedSecret ← s.exchange senderX25519 receiverX25519Pk
  let sessionKey := deriveSessionKey s sharedSecret nonceMaterial
  return ⟨senderX25519Pk, nonceMaterial, draw.nonce,
    s.encrypt sessionKey draw.nonce (bundleToBytes d bundle)⟩

/-- `_open_envelope`. -/
def openEnvelope (s : SessionCrypto) (d : DatetimeText) (receiverWallet : Wallet)
    (envelope : SessionEnvelope) (draw : EnvelopeDraw) : Except PyError PaymentBundle := do
  let receiverX25519 ← ed25519SkToX25519Sk s (← fromhex receiverWallet.privateKeyHex)
  let sharedSecret ← s.exchange receiverX25519 envelope.senderX25519Pk
  let sessionKey := deriveSessionKey s sharedSecret envelope.nonceMaterial
  bundleFromBytes d draw.now (← s.decrypt sessionKey envelope.nonce envelope.ciphertext)

/-- Simulate offline transfer from sender to receiver. The receiver as it is after the call. -/
def sendBundle (c : Crypto) (s : SessionCrypto) (d : DatetimeText)
    (senderWallet receiverWallet : Wallet) (bundle : PaymentBundle) (encrypt : Bool)
    (draw : EnvelopeDraw) (readings : Nat → ReceiptReading) :
    Wallet × Except PyError (List (String × Bool)) :=
  let transmittedBundle :=
    if encrypt then do
      let envelope ← buildEnvelope s d senderWallet receiverWallet bundle draw
      openEnvelope s d receiverWallet envelope draw
    else .ok bundle
  match transmittedBundle with
  | .error e => (receiverWallet, .error e)
  | .ok transmittedBundle => receiverWallet.receiveBundle c transmittedBundle readings

/-! ### What is read is what was written -/

@[simp] lemma asOptStr_ofOptStr (s : Option String) : (Json.ofOptStr s).asOptStr = .ok s := by
  cases s <;> rfl

@[simp] lemma sortKeys_ofOptStr (s : Option String) : sortKeys (.ofOptStr s) = .ofOptStr s := by
  cases s <;> rfl

lemma wellFormed_ofOptStr (s : Option String) : WellFormed (.ofOptStr s) := by
  cases s with
  | none => exact .null
  | some s => exact .str s

section

variable {d : DatetimeText}

lemma transferFromDict_transferToDict {transfer : Transfer} (h : d.Lossless transfer.timestamp) :
    transferFromDict d (transferToDict d transfer) = .ok transfer := by
  have hread : transferFromDict d (transferToDict d transfer) = (do
      let timestamp ← d.fromisoformat (d.isoformat transfer.timestamp)
      let parentTransferId ← (Json.ofOptStr transfer.parentTransferId).asOptStr
      let parentTransferHash ← (Json.ofOptStr transfer.parentTransferHash).asOptStr
      let prevTransferHash ← (Json.ofOptStr transfer.prevTransferHash).asOptStr
      return { transfer with
        parentTransferId := parentTransferId
        parentTransferHash := parentTransferHash
        prevTransferHash := prevTransferHash
        timestamp := timestamp }) := rfl
  rw [hread, h]
  simp only [ok_bind, asOptStr_ofOptStr, pure_eq_ok]

lemma tokenFromDict_tokenToDict {token : Token} (h : d.Lossless token.createdAt) (now : Int) :
    tokenFromDict d now (tokenToDict d token) = .ok token := by
  have hread : tokenFromDict d now (tokenToDict d token) = (do
      let createdAt ← d.fromisoformat (d.isoformat token.createdAt)
      let lastTransferId ← (Json.ofOptStr token.lastTransferId).asOptStr
      let lastTransferHash ← (Json.ofOptStr token.lastTransferHash).asOptStr
      let originTokenId ← (Json.ofOptStr token.originTokenId).asOptStr
      return { token with
        lastTransferId := lastTransferId
        lastTransferHash := lastTransferHash
        createdAt := createdAt
        originTokenId := originTokenId }) := rfl
  rw [hread, h]
  simp only [ok_bind, asOptStr_ofOptStr, pure_eq_ok]

/-- The order of its fields does not matter for a transfer. -/
lemma transferFromDict_congr {payload payload' : Json} (h : payload.SameFields payload') :
    transferFromDict d payload = transferFromDict d payload' := by
  simp only [transferFromDict, h.getItem, h.checkKwargs, h.kwarg]

lemma tokenFromDict_congr {payload payload' : Json} (h : payload.SameFields payload') (now : Int) :
    tokenFromDict d now payload = tokenFromDict d now payload' := by
  simp only [tokenFromDict, h.getItem, h.checkKwargs, h.kwarg, h.get]

lemma sameFields_transferToDict (transfer : Transfer) :
    Json.SameFields (sortKeys (transferToDict d transfer)) (transferToDict d transfer) := by
  apply sameFields_sortKeys
  · simp only [List.forall_mem_cons, List.not_mem_nil, false_imp_iff, implies_true, and_true,
      sortKeys_ofOptStr, sortKeys]
  · simp only [List.map_cons, List.map_nil]
    decide

lemma sameFields_tokenToDict (token : Token) :
    Json.SameFields (sortKeys (tokenToDict d token)) (tokenToDict d token) := by
  apply sameFields_sortKeys
  · simp only [List.forall_mem_cons, List.not_mem_nil, false_imp_iff, implies_true, and_true,
      sortKeys_ofOptStr, sortKeys]
  · simp only [List.map_cons, List.map_nil]
    decide

lemma wellFormed_transferToDict (transfer : Transfer) : WellFormed (transferToDict d transfer) := by
  apply WellFormed.dict
  · simp only [List.forall_mem_cons, List.not_mem_nil, false_imp_iff, implies_true, and_true]
    exact ⟨.str _, .str _, .str _, .str _, .int _, wellFormed_ofOptStr _, wellFormed_ofOptStr _,
      wellFormed_ofOptStr _, .int _, .str _, .str _⟩
  · simp only [List.map_cons, List.map_nil]
    decide

lemma wellFormed_tokenToDict (token : Token) : WellFormed (tokenToDict d token) := by
  apply WellFormed.dict
  · simp only [List.forall_mem_cons, List.not_mem_nil, false_imp_iff, implies_true, and_true]
    exact ⟨.str _, .int _, .str _, .str _, .int _, .str _, wellFormed_ofOptStr _,
      wellFormed_ofOptStr _, .int _, .int _, .str _, wellFormed_ofOptStr _⟩
  · simp only [List.map_cons, List.map_nil]
    decide

lemma nodup_bundleKeys : ["bundle_id", "transfers", "tokens"].Nodup := by decide

lemma wellFormed_bundleToDict (bundle : PaymentBundle) : WellFormed (bundleToDict d bundle) := by
  apply WellFormed.dict
  · simp only [List.forall_mem_cons, List.not_mem_nil, false_imp_iff, implies_true, and_true]
    refine ⟨.str _, .list ?_, .dict ?_ ?_⟩
    · exact List.forall_mem_map.mpr fun transfer _ => wellFormed_transferToDict transfer
    · exact List.forall_mem_map.mpr fun entry _ => wellFormed_tokenToDict entry.2
    · rw [List.map_map]
      exact bundle.tokens.nodup
  · exact nodup_bundleKeys

/-- The tokens as they are written. -/
def sortedTokens (bundle : PaymentBundle) : List (String × Token) :=
  bundle.tokens.items.insertionSort fun entry entry' => entry.1 ≤ entry'.1

lemma sortedTokens_perm (bundle : PaymentBundle) :
    (sortedTokens bundle).Perm bundle.tokens.items :=
  List.perm_insertionSort _ _

lemma byKey_sortFields_tokens (bundle : PaymentBundle) :
    byKey (sortFields (bundle.tokens.items.map fun entry => (entry.1, tokenToDict d entry.2)))
      = (sortedTokens bundle).map fun entry => (entry.1, sortKeys (tokenToDict d entry.2)) := by
  rw [sortFields_eq_map, List.map_map, byKey, sortedTokens]
  symm
  apply List.map_insertionSort
  exact fun _ _ _ _ => Iff.rfl

end

/-- The bundles are equal as Python compares them: the order of the tokens does not matter. -/
structure PaymentBundle.Same (bundle bundle' : PaymentBundle) : Prop where
  bundleId : bundle'.bundleId = bundle.bundleId
  transfers : bundle'.transfers = bundle.transfers
  tokens : bundle'.tokens.items.Perm bundle.tokens.items

/-- All times of the bundle have a text that is read back. -/
structure PaymentBundle.Lossless (d : DatetimeText) (bundle : PaymentBundle) : Prop where
  transfers : ∀ transfer ∈ bundle.transfers, d.Lossless transfer.timestamp
  tokens : ∀ entry ∈ bundle.tokens.items, d.Lossless entry.2.createdAt

/-- `_bundle_from_bytes` undoes `_bundle_to_bytes`. -/
theorem exists_bundleFromBytes_bundleToBytes {d : DatetimeText} {bundle : PaymentBundle}
    (h : bundle.Lossless d) (now : Int) :
    ∃ bundle', bundleFromBytes d now (bundleToBytes d bundle) = .ok bundle' ∧
      bundle.Same bundle' := by
  have hdata : Json.SameFields (sortKeys (bundleToDict d bundle)) (.dict [
      ("bundle_id", .str bundle.bundleId),
      ("transfers", .list (sortItems (bundle.transfers.map (transferToDict d)))),
      ("tokens", .dict (byKey (sortFields
        (bundle.tokens.items.map fun entry => (entry.1, tokenToDict d entry.2)))))]) :=
    ⟨_, _, rfl, rfl, byKey_perm _, ((byKey_perm _).map Prod.fst).nodup_iff.mpr nodup_bundleKeys⟩
  have htransfers : (sortItems (bundle.transfers.map (transferToDict d))).mapM (transferFromDict d)
      = .ok bundle.transfers := by
    rw [sortItems_eq_map, List.map_map]
    refine mapM_map_eq_self fun transfer htransfer => ?_
    exact (transferFromDict_congr (sameFields_transferToDict transfer)).trans
      (transferFromDict_transferToDict (h.transfers transfer htransfer))
  have htokens : (byKey (sortFields (bundle.tokens.items.map fun entry =>
      (entry.1, tokenToDict d entry.2)))).mapM (fun entry => do
        return (entry.1, ← tokenFromDict d now entry.2)) = .ok (sortedTokens bundle) := by
    rw [byKey_sortFields_tokens]
    refine mapM_map_eq_self fun entry hentry => ?_
    have hmem := (sortedTokens_perm bundle).mem_iff.mp hentry
    dsimp only
    rw [tokenFromDict_congr (sameFields_tokenToDict entry.2),
      tokenFromDict_tokenToDict (h.tokens entry hmem)]
    rfl
  have hread : bundleFromBytes d now (bundleToBytes d bundle) = (do
      let transfers ← (sortItems (bundle.transfers.map (transferToDict d))).mapM (transferFromDict d)
      let tokens ← (byKey (sortFields (bundle.tokens.items.map fun entry =>
        (entry.1, tokenToDict d entry.2)))).mapM (fun entry => do
          return (entry.1, ← tokenFromDict d now entry.2))
      return ⟨bundle.bundleId, transfers, tokens.foldl KeyedList.put .empty⟩) := by
    rw [bundleFromBytes, bundleToBytes, loadDocument_sortedBytes (wellFormed_bundleToDict bundle),
      ok_bind, hdata.getItem, hdata.getItem, hdata.getItem]
    rfl
  rw [htransfers, htokens] at hread
  refine ⟨_, hread, rfl, rfl, ?_⟩
  rw [KeyedList.items_foldl_put]
  · exact sortedTokens_perm bundle
  · exact ((sortedTokens_perm bundle).map Prod.fst).nodup_iff.mpr bundle.tokens.nodup

/-! ### Both ways of delivery -/

/-- A receiver does not see the order of the tokens. -/
lemma PaymentBundle.Same.receiveBundle {bundle bundle' : PaymentBundle} (h : bundle.Same bundle')
    (c : Crypto) (w : Wallet) (readings : Nat → ReceiptReading) :
    w.receiveBundle c bundle' readings = w.receiveBundle c bundle readings := by
  have hnext : Receiving.next c bundle'.tokens = Receiving.next c bundle.tokens := by
    funext loop handled
    rw [Receiving.next, Receiving.next, Dict.get?_perm h.tokens]
  simp only [Wallet.receiveBundle, Wallet.receiveBundleWithReasons, hnext, h.transfers]

/-- The private key is at least 32 bytes in hexadecimal form. -/
def Wallet.HasRawHexKey (w : Wallet) : Prop :=
  ∃ bs, Hex.decode w.privateKeyHex = some bs ∧ 32 ≤ bs.length

lemma Wallet.HasRawHexKey.exists_x25519Sk {w : Wallet} (h : w.HasRawHexKey) (s : SessionCrypto) :
    ∃ bs sk, fromhex w.privateKeyHex = .ok bs ∧ ed25519SkToX25519Sk s bs = .ok sk := by
  obtain ⟨bs, hdecode, hlength⟩ := h
  refine ⟨bs, s.sha256 (utf8 "DPC-ed25519-to-x25519-v1" ++ bs.take 32),
    fromhex_eq_ok_iff.mpr hdecode, ?_⟩
  rw [ed25519SkToX25519Sk]
  exact guard_eq_ok_iff.mpr ⟨not_lt.mpr hlength, rfl⟩

section

variable {s : SessionCrypto} {senderWallet receiverWallet : Wallet}

/-- The receiver derives the key of the sender, and decrypts what the sender has encrypted. -/
lemma openEnvelope_buildEnvelope (hagrees : s.Agrees) (hinverse : s.Inverse)
    (hsender : senderWallet.HasRawHexKey) (hreceiver : receiverWallet.HasRawHexKey)
    (d : DatetimeText) (bundle : PaymentBundle) (draw : EnvelopeDraw) :
    (do
      let envelope ← buildEnvelope s d senderWallet receiverWallet bundle draw
      openEnvelope s d receiverWallet envelope draw)
      = bundleFromBytes d draw.now (bundleToBytes d bundle) := by
  obtain ⟨senderBytes, senderX25519, hsenderHex, hsenderSk⟩ := hsender.exists_x25519Sk s
  obtain ⟨receiverBytes, receiverX25519, hreceiverHex, hreceiverSk⟩ := hreceiver.exists_x25519Sk s
  obtain ⟨secret, hsenderSecret, hreceiverSecret⟩ := hagrees senderX25519 receiverX25519
  simp only [buildEnvelope, openEnvelope, hsenderHex, hsenderSk, hreceiverHex, hreceiverSk, ok_bind,
    hsenderSecret, pure_eq_ok, hreceiverSecret, hinverse _ _ _]

/-- Encrypted and plain delivery give the same results and leave the same receiver. What is
transmitted is the bundle, and its transfers have the same signing payloads and payload hashes. -/
theorem sendBundle_encrypt_eq {d : DatetimeText} {bundle : PaymentBundle} (hagrees : s.Agrees)
    (hinverse : s.Inverse) (hsender : senderWallet.HasRawHexKey)
    (hreceiver : receiverWallet.HasRawHexKey) (hlossless : bundle.Lossless d) (c : Crypto)
    (draw : EnvelopeDraw) (readings : Nat → ReceiptReading) :
    sendBundle c s d senderWallet receiverWallet bundle true draw readings
      = sendBundle c s d senderWallet receiverWallet bundle false draw readings ∧
    ∃ bundle', bundleFromBytes d draw.now (bundleToBytes d bundle) = .ok bundle' ∧
      bundle.Same bundle' ∧
      bundle'.transfers.map Transfer.signingPayload = bundle.transfers.map Transfer.signingPayload ∧
      bundle'.transfers.map c.payloadHash = bundle.transfers.map c.payloadHash := by
  obtain ⟨bundle', hread, hsame⟩ := exists_bundleFromBytes_bundleToBytes hlossless draw.now
  refine ⟨?_, bundle', hread, hsame, by rw [hsame.transfers], by rw [hsame.transfers]⟩
  have hopen := openEnvelope_buildEnvelope hagrees hinverse hsender hreceiver d bundle draw
  rw [hread] at hopen
  simp only [sendBundle, if_true, Bool.false_eq_true, if_false, hopen]
  exact hsame.receiveBundle c receiverWallet readings

end

/-! ### A delivery from Alice to Bob -/

/-- A cipher that writes the key and the nonce before the plaintext. -/
def plainSession : SessionCrypto where
  sha256 := checksum
  publicBytes sk := sk
  exchange sk pk := .ok (List.zipWith (· ^^^ ·) sk pk)
  encrypt key nonce plaintext := key ++ nonce ++ plaintext
  decrypt key nonce ciphertext :=
    if (key ++ nonce).isPrefixOf ciphertext then .ok (ciphertext.drop (key ++ nonce).length)
    else .error (.valueError "InvalidTag")

lemma plainSession_agrees : plainSession.Agrees := by
  intro sk sk'
  refine ⟨List.zipWith (· ^^^ ·) sk sk', rfl, ?_⟩
  rw [List.zipWith_comm_of_comm UInt8.xor_comm]
  rfl

lemma plainSession_inverse : plainSession.Inverse := by
  intro key nonce plaintext
  simp [plainSession]

/-- The texts of two instants. -/
def plainDatetimes : DatetimeText where
  isoformat dt :=
    if dt = ⟨1001000000, some 0⟩ then "1970-01-01T00:16:41+00:00" else "1970-01-01T00:16:40+00:00"
  fromisoformat text :=
    if text = "1970-01-01T00:16:41+00:00" then .ok ⟨1001000000, some 0⟩
    else if text = "1970-01-01T00:16:40+00:00" then .ok ⟨1000000000, some 0⟩
    else .error (.valueError "Invalid isoformat string")

/-- A new wallet with the private key `1…1`. -/
def rawWallet (publicKeyHex : String) : Wallet :=
  .new (Hex.encode (List.replicate 32 1)) publicKeyHex .default

lemma hasRawHexKey_rawWallet (publicKeyHex : String) : (rawWallet publicKeyHex).HasRawHexKey :=
  ⟨List.replicate 32 1, Hex.decode_encode _, by simp⟩

/-- Alice's payment of her token. -/
def rawPayment : PaymentBundle :=
  plainBundle [plainTransfer "x1" "t1" "alice" "bob"] [plainToken "t1" "bob"]

lemma lossless_rawPayment : rawPayment.Lossless plainDatetimes where
  transfers := by
    intro transfer htransfer
    rw [List.mem_singleton.mp htransfer]
    rfl
  tokens := by
    intro entry hentry
    rw [List.mem_singleton.mp (show entry ∈ [("t1", plainToken "t1" "bob")] from hentry)]
    rfl

theorem sendBundle_encrypt_eq_rawPayment :
    sendBundle plainCrypto plainSession plainDatetimes (rawWallet "alice") (rawWallet "bob")
        rawPayment true ⟨List.replicate 12 2, 0⟩ (fun _ => ⟨1002000000, 1002000000⟩)
      = sendBundle plainCrypto plainSession plainDatetimes (rawWallet "alice") (rawWallet "bob")
        rawPayment false ⟨List.replicate 12 2, 0⟩ (fun _ => ⟨1002000000, 1002000000⟩) ∧
    (sendBundle plainCrypto plainSession plainDatetimes (rawWallet "alice") (rawWallet "bob")
        rawPayment false ⟨List.replicate 12 2, 0⟩ (fun _ => ⟨1002000000, 1002000000⟩)).2
      = .ok [("x1", true)] :=
  ⟨(sendBundle_encrypt_eq plainSession_agrees plainSession_inverse (hasRawHexKey_rawWallet "alice")
    (hasRawHexKey_rawWallet "bob") lossless_rawPayment plainCrypto _ _).1, by decide +kernel⟩

end PocketCash.Offline
