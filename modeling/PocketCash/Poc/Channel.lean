import Mathlib.Data.List.MinMax
import PocketCash.Library.FloatRead
import PocketCash.Library.JsonFormat
import PocketCash.Poc.Transfer

/-!
# The BLE channel of the `dpc_poc` prototype

`dpc_poc/dpc/ble_sim.py`, `get_token_for_swap` of `wallet.py`, and the session keys of `crypto.py`.
A channel draws one nonce and derives one session key when it is made. A transfer removes the token
from the wallet of the sender, transmits it, and then hands it to the wallet of the recipient.
-/

namespace PocketCash.Poc

open JsonEncoding

/-! ### Session keys -/

/-- SHA-512, the X25519 exchange of a private and a public key, HKDF-SHA256 with a salt, an info and
a secret, and ChaCha20-Poly1305 with a key and a nonce. -/
structure SessionCrypto where
  sha512 : Bytes → Bytes
  exchange : Bytes → Bytes → Except PyError Bytes
  hkdf : Bytes → Bytes → Bytes → Bytes
  encrypt : Bytes → Bytes → Bytes → Bytes
  decrypt : Bytes → Bytes → Bytes → Option Bytes

/-- Decryption undoes encryption. -/
def SessionCrypto.Inverse (s : SessionCrypto) : Prop :=
  ∀ key nonce plaintext, s.decrypt key nonce (s.encrypt key nonce plaintext) = some plaintext

/-- The prime `P`. -/
def fieldPrime : ℕ := 2 ^ 255 - 19

/-- `int.from_bytes(bs, "little")`. -/
def ofLittleEndian (bs : Bytes) : ℕ := bs.foldr (fun b n => b.toNat + 256 * n) 0

/-- `n.to_bytes(length, "little")`. -/
def toLittleEndian (length n : ℕ) : Bytes :=
  (List.range length).map fun i => UInt8.ofNat (n / 256 ^ i)

/-- Convert Ed25519 private key to X25519 via SHA-512 hash and clamping. -/
def ed25519ToX25519Private (s : SessionCrypto) (ed25519PrivateBytes : Bytes) : Bytes :=
  (((s.sha512 ed25519PrivateBytes).take 32).modify 0 (· &&& 248)).modify 31
    fun b => b &&& 127 ||| 64

/-- Convert Ed25519 public key to X25519 via Montgomery ladder equivalence. -/
def ed25519ToX25519Public (ed25519PublicBytes : Bytes) : Except PyError Bytes := do
  if ed25519PublicBytes.length ≠ 32 then
    throw (.valueError "Ed25519 public key must be 32 bytes")
  let y := ofLittleEndian (ed25519PublicBytes.modify 31 (· &&& 0x7f))
  if y ≥ fieldPrime then throw (.valueError "Invalid Ed25519 public key")
  if Int.gcd (1 - y) fieldPrime ≠ 1 then
    throw (.valueError "base is not invertible for the given modulus")
  let u := (1 + y) * Int.gcdA (1 - y) fieldPrime % fieldPrime
  return toLittleEndian 32 u.toNat

/-- Derive 32-byte session key via X25519 ECDH + HKDF-SHA256. -/
def deriveSessionKey (s : SessionCrypto) (myEd25519Private peerEd25519Public nonce : Bytes) :
    Except PyError Bytes := do
  let xPublic ← ed25519ToX25519Public peerEd25519Public
  let sharedSecret ← s.exchange (ed25519ToX25519Private s myEd25519Private) xPublic
  return s.hkdf nonce (utf8 "DPC-session") sharedSecret

/-! ### Packets -/

/-- `asdict(record)`. -/
def TransferRecord.asdict (record : TransferRecord) : Json := .dict [
  ("token_id", .str record.tokenId),
  ("prev_owner_pubkey_hex", .str record.prevOwnerPubkeyHex),
  ("next_owner_pubkey_hex", .str record.nextOwnerPubkeyHex),
  ("amount", .float record.amount.text),
  ("nonce_hex", .str record.nonceHex),
  ("chain_hash", .str record.chainHash),
  ("signature_hex", .str record.signatureHex),
  ("timestamp", .float record.timestamp.text)]

/-- `asdict(token)`. -/
def Token.asdict (token : Token) : Json := .dict [
  ("token_id", .str token.tokenId),
  ("denomination", .float token.denomination.text),
  ("issuer_pubkey_hex", .str token.issuerPubkeyHex),
  ("issued_at", .float token.issuedAt.text),
  ("issuer_signature_hex", .str token.issuerSignatureHex),
  ("owner_pubkey_hex", .str token.ownerPubkeyHex),
  ("hop_count", .int token.hopCount),
  ("transfer_history", .list (token.transferHistory.map .str)),
  ("chain_hash", .str token.chainHash)]

/-- A field of the type `float`. -/
def asFloat : Json → Except PyError PyFloat
  | .float text =>
    match PyFloat.read text with
    | some x => .ok x
    | none => .error (.valueError "could not convert string to float")
  | _ => .error .typeError

/-- `TransferRecord(**data)`. -/
def TransferRecord.ofKwargs (data : Json) : Except PyError TransferRecord := do
  data.checkKwargs ["token_id", "prev_owner_pubkey_hex", "next_owner_pubkey_hex", "amount",
    "nonce_hex", "chain_hash", "signature_hex", "timestamp"]
  let tokenId ← (← data.kwarg "token_id").asStr
  let prevOwnerPubkeyHex ← (← data.kwarg "prev_owner_pubkey_hex").asStr
  let nextOwnerPubkeyHex ← (← data.kwarg "next_owner_pubkey_hex").asStr
  let amount ← asFloat (← data.kwarg "amount")
  let nonceHex ← (← data.kwarg "nonce_hex").asStr
  let chainHash ← (← data.kwarg "chain_hash").asStr
  let signatureHex ← (← data.kwarg "signature_hex").asStr
  let timestamp ← asFloat (← data.kwarg "timestamp")
  return ⟨tokenId, prevOwnerPubkeyHex, nextOwnerPubkeyHex, amount, nonceHex, chainHash,
    signatureHex, timestamp⟩

/-- `Token(**data)`. -/
def Token.ofKwargs (data : Json) : Except PyError Token := do
  data.checkKwargs ["token_id", "denomination", "issuer_pubkey_hex", "issued_at",
    "issuer_signature_hex", "owner_pubkey_hex", "hop_count", "transfer_history", "chain_hash"]
  let tokenId ← (← data.kwarg "token_id").asStr
  let denomination ← asFloat (← data.kwarg "denomination")
  let issuerPubkeyHex ← (← data.kwarg "issuer_pubkey_hex").asStr
  let issuedAt ← asFloat (← data.kwarg "issued_at")
  let issuerSignatureHex ← (← data.kwarg "issuer_signature_hex").asStr
  let ownerPubkeyHex ← (← data.kwarg "owner_pubkey_hex").asStr
  let hopCount ← (← data.get "hop_count" (.int 0)).asInt
  let transferHistory ← (← (← data.get "transfer_history" (.list [])).asList).mapM Json.asStr
  let chainHash ← (← data.get "chain_hash" (.str "")).asStr
  return ⟨tokenId, denomination, issuerPubkeyHex, issuedAt, issuerSignatureHex, ownerPubkeyHex,
    hopCount, transferHistory, chainHash⟩

/-- `{"record": asdict(record), "token": asdict(new_token)}`. -/
def packet (record : TransferRecord) (newToken : Token) : Json :=
  .dict [("record", record.asdict), ("token", newToken.asdict)]

/-- What the recipient reads from a packet. -/
def readPacket (received : Bytes) : Except PyError (TransferRecord × Token) := do
  let data ← loadDocument received
  let receivedRecord ← TransferRecord.ofKwargs (← data.getItem "record")
  let receivedToken ← Token.ofKwargs (← data.getItem "token")
  return (receivedRecord, receivedToken)

/-! ### The channel -/

/-- The key and the nonce of a channel that encrypts. -/
structure BLESession where
  sessionKey : Bytes
  sessionNonce12 : Bytes

/-- Simulates a BLE link between two wallets with optional session encryption. There is no `session`
if `encrypt` is `False`. Besides the fields of the source, `encryptions` lists the key and the nonce
of every encryption. -/
structure BLEChannel where
  session : Option BLESession
  previousPacketSize : Option ℕ
  encryptions : List (Bytes × Bytes)

/-- The argument of `transmit`; `json.dumps` raises `TypeError` for some objects. -/
inductive PacketData
  | bytes (data : Bytes)
  | str (data : String)
  | json (data : Json)
  | unserializable

/-- `packet_bytes`. -/
def PacketData.packetBytes : PacketData → Except PyError Bytes
  | .bytes data => .ok data
  | .str data => .ok (utf8 data)
  | .json data => .ok (documentBytes data)
  | .unserializable => .error .typeError

namespace BLEChannel

/-- Initialize BLE channel between two wallets. `nonce12` is `os.urandom(12)`. -/
def create (s : SessionCrypto) (walletA walletB : Wallet) (encrypt : Bool) (nonce12 : Bytes) :
    Except PyError BLEChannel :=
  if encrypt then do
    let peer ← hexToPubkeyBytes walletB.pubkeyHex
    let sessionKey ← deriveSessionKey s walletA.privateKeyBytes peer nonce12
    return ⟨some ⟨sessionKey, nonce12⟩, none, []⟩
  else .ok ⟨none, none, []⟩

/-- Transmit packet data over BLE. -/
def transmit (s : SessionCrypto) (channel : BLEChannel) (packetData : PacketData) :
    BLEChannel × Except PyError Bytes :=
  match packetData.packetBytes with
  | .error e => (channel, .error e)
  | .ok packetBytes =>
    let channel := { channel with previousPacketSize := some packetBytes.length }
    match channel.session with
    | none => (channel, .ok packetBytes)
    | some ⟨sessionKey, sessionNonce12⟩ =>
      let encrypted := s.encrypt sessionKey sessionNonce12 packetBytes
      let channel :=
        { channel with encryptions := channel.encryptions ++ [(sessionKey, sessionNonce12)] }
      match s.decrypt sessionKey sessionNonce12 encrypted with
      | none => (channel, .error (.valueError "BLE session authentication failed"))
      | some received => (channel, .ok received)

end BLEChannel

/-- Coin selection: find smallest UTR token with denomination >= amount. -/
def Wallet.getTokenForSwap (w : Wallet) (amount : ℚ) : Option Token :=
  ((w.state.unspentTokens.items.map Prod.snd).filter fun token =>
    token.denomination.toRat ≥ amount).argmin fun token => token.denomination.toRat

/-- A channel and the wallets. -/
structure Meeting where
  channel : BLEChannel
  wallets : KeyedList Wallet.pubkeyHex

namespace Meeting

/-- Full BLE payment handshake. Wallets are named by their public key; without two such wallets there
is no call. -/
def executeTransfer (c : Crypto) (s : SessionCrypto) (m : Meeting)
    (senderPk recipientPk tokenId : String) (amount : PyFloat) (draw : TransferDraw) :
    Meeting × Except PyError (TransferRecord × Token) :=
  match m.wallets.find? senderPk, m.wallets.find? recipientPk with
  | some senderWallet, some recipientWallet =>
    match senderWallet.sendToken c tokenId recipientWallet.pubkeyHex amount draw with
    | (senderWallet, .error e) => ({ m with wallets := m.wallets.put senderWallet }, .error e)
    | (senderWallet, .ok (record, newToken)) =>
      let wallets := m.wallets.put senderWallet
      match m.channel.transmit s (.bytes (documentBytes (packet record newToken))) with
      | (channel, .error e) => (⟨channel, wallets⟩, .error e)
      | (channel, .ok received) =>
        match readPacket received with
        | .error e => (⟨channel, wallets⟩, .error e)
        | .ok (receivedRecord, receivedToken) =>
          -- the recipient may be the sender, whose register has changed
          let recipientWallet := (wallets.find? recipientPk).getD recipientWallet
          match recipientWallet.receiveToken c receivedToken receivedRecord with
          | .error e => (⟨channel, wallets⟩, .error e)
          | .ok recipientWallet =>
            (⟨channel, wallets.put recipientWallet⟩, .ok (receivedRecord, receivedToken))
  | _, _ => (m, .error .attributeError)

/-- Swap protocol for peer-to-peer change generation. -/
def executeSwap (c : Crypto) (s : SessionCrypto) (m : Meeting)
    (payerPk payeePk payerTokenId : String) (owedAmount : PyFloat) (payDraw changeDraw : TransferDraw) :
    Meeting × Except PyError Unit :=
  match m.wallets.find? payerPk, m.wallets.find? payeePk with
  | some payerWallet, some payeeWallet =>
    match payerWallet.state.unspentTokens.get? payerTokenId with
    | none => (m, .error (.keyError payerTokenId))
    | some payerToken =>
      let changeAmount := payerToken.denomination.toRat - owedAmount.toRat
      let changeToken := payeeWallet.getTokenForSwap changeAmount
      if changeAmount < 0 then (m, .error (.valueError "Insufficient token value"))
      else if changeAmount > 0 ∧ changeToken = none then
        (m, .error (.valueError "Insufficient change tokens for swap"))
      else
        match m.executeTransfer c s payerPk payeePk payerTokenId payerToken.denomination
            payDraw with
        | (m, .error e) => (m, .error e)
        | (m, .ok _) =>
          match changeToken with
          | none => (m, .ok ())
          | some changeToken =>
            if changeAmount > 0 then
              let result := m.executeTransfer c s payeePk payerPk changeToken.tokenId
                changeToken.denomination changeDraw
              (result.1, result.2.map fun _ => ())
            else (m, .ok ())
  | _, _ => (m, .error .attributeError)

end Meeting

/-! ### Round trips -/

lemma asFloat_text (x : PyFloat) : asFloat (.float x.text) = .ok x := by
  rw [asFloat, PyFloat.read_text]

lemma TransferRecord.ofKwargs_asdict (record : TransferRecord) :
    ofKwargs record.asdict = .ok record := by
  have hread : ofKwargs record.asdict = (do
      let amount ← asFloat (.float record.amount.text)
      let timestamp ← asFloat (.float record.timestamp.text)
      return { record with amount := amount, timestamp := timestamp }) := rfl
  rw [hread, asFloat_text, asFloat_text]
  rfl

lemma Token.ofKwargs_asdict (token : Token) : ofKwargs token.asdict = .ok token := by
  have hread : ofKwargs token.asdict = (do
      let denomination ← asFloat (.float token.denomination.text)
      let issuedAt ← asFloat (.float token.issuedAt.text)
      let transferHistory ← (token.transferHistory.map Json.str).mapM Json.asStr
      return { token with
        denomination := denomination
        issuedAt := issuedAt
        transferHistory := transferHistory }) := rfl
  rw [hread, asFloat_text, asFloat_text, mapM_asStr]
  rfl

lemma TransferRecord.wellFormed_asdict (record : TransferRecord) :
    JsonEncoding.WellFormed record.asdict := by
  apply JsonEncoding.WellFormed.dict
  · simp only [List.forall_mem_cons, List.not_mem_nil, false_imp_iff, implies_true, and_true]
    exact ⟨.str _, .str _, .str _, wellFormed_float _, .str _, .str _, .str _, wellFormed_float _⟩
  · simp only [List.map_cons, List.map_nil]
    decide

lemma Token.wellFormed_asdict (token : Token) : JsonEncoding.WellFormed token.asdict := by
  apply JsonEncoding.WellFormed.dict
  · simp only [List.forall_mem_cons, List.not_mem_nil, false_imp_iff, implies_true, and_true]
    refine ⟨.str _, wellFormed_float _, .str _, wellFormed_float _, .str _, .str _, .int _, ?_,
      .str _⟩
    exact .list (List.forall_mem_map.mpr fun _ _ => .str _)
  · simp only [List.map_cons, List.map_nil]
    decide

/-- The recipient reads what the sender has written. -/
theorem readPacket_packet (record : TransferRecord) (newToken : Token) :
    readPacket (documentBytes (packet record newToken)) = .ok (record, newToken) := by
  have hwell : WellFormed (packet record newToken) := by
    apply WellFormed.dict
    · simp only [List.forall_mem_cons, List.not_mem_nil, false_imp_iff, implies_true, and_true]
      exact ⟨record.wellFormed_asdict, newToken.wellFormed_asdict⟩
    · simp only [List.map_cons, List.map_nil]
      decide
  have hrecord : (packet record newToken).getItem "record" = .ok record.asdict := rfl
  have htoken : (packet record newToken).getItem "token" = .ok newToken.asdict := rfl
  rw [readPacket, loadDocument_documentBytes hwell, ok_bind, hrecord, ok_bind,
    TransferRecord.ofKwargs_asdict, ok_bind, htoken, ok_bind, Token.ofKwargs_asdict]
  rfl

end PocketCash.Poc
