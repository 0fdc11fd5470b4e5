import PocketCash.Library.KeyedList
import PocketCash.Library.Python

/-!
# Tokens, transfers and the issuer of the offline system

`digital_token/poc_models.py`, `protocol/policy.py` and `issuer/issuer.py`. Instants are integers:
microseconds for a `datetime`, whole seconds for `issue_timestamp`. Ed25519 and SHA-256 are
parameters, and what is signed or hashed is represented by the fields of its JSON text.
-/

namespace PocketCash.Offline

/-- A `datetime`: its microseconds since the epoch (of the wall clock if it is naive) and its UTC
offset, which a naive one does not have. -/
structure Datetime where
  micros : Int
  utcOffset : Option Int
  deriving DecidableEq, Repr

/-- `a >= b` for an aware `b`; comparing with a naive one raises `TypeError`. -/
def Datetime.notBefore (a : Datetime) (b : Int) : Except PyError Bool :=
  match a.utcOffset with
  | some _ => .ok (a.micros ≥ b)
  | none => .error .typeError

/-- `a - b` in microseconds for an aware `b`; subtracting it from a naive one raises `TypeError`. -/
def Datetime.since (a : Datetime) (b : Int) : Except PyError Int :=
  match a.utcOffset with
  | some _ => .ok (a.micros - b)
  | none => .error .typeError

/-- `int(dt.timestamp())`, and `int(time.time())`. -/
def wholeSeconds (micros : Int) : Int := micros.tdiv 1000000

lemma lt_of_wholeSeconds_le {micros seconds : Int} (h : wholeSeconds micros ≤ seconds) :
    micros < (seconds + 1) * 1000000 := by
  have hlt := Int.lt_tdiv_add_one_mul_self micros (show (0 : Int) < 1000000 by decide)
  exact Int.lt_of_lt_of_le hlt (by unfold wholeSeconds at h; omega)

/-- Configurable policy caps, after `__post_init__`. -/
structure PolicyConfig where
  maxTxValue : Int
  maxHops : Int
  maxBalance : Int
  tokenExpirySeconds : Int
  deriving DecidableEq, Repr

/-- `PolicyConfig()`. -/
def PolicyConfig.default : PolicyConfig := ⟨1000, 7, 10000, 604800⟩

/-! ### Tokens and transfers -/

/-- Bearer token representation. -/
structure Token where
  tokenId : String
  value : Int
  issuerPk : String
  currentOwner : String
  nonce : Int
  issuerSignature : String
  lastTransferId : Option String
  lastTransferHash : Option String
  hopCount : Int
  issueTimestamp : Int
  createdAt : Datetime
  originTokenId : Option String
  deriving DecidableEq, Repr

/-- The fields of `Token.signing_payload`. -/
structure TokenPayload where
  tokenId : String
  value : Int
  issuerPk : String
  ownerPk : String
  nonce : Int
  issueTimestamp : Int
  originTokenId : Option String
  deriving DecidableEq, Repr

def Token.signingPayload (t : Token) : TokenPayload where
  tokenId := t.tokenId
  value := t.value
  issuerPk := t.issuerPk
  ownerPk := t.currentOwner
  nonce := t.nonce
  issueTimestamp := t.issueTimestamp
  originTokenId := t.originTokenId

/-- `token.origin_token_id or token.token_id`: the empty string counts as no origin. -/
def Token.origin (t : Token) : String :=
  match t.originTokenId with
  | some origin => if origin = "" then t.tokenId else origin
  | none => t.tokenId

/-- Token transfer event between wallets. -/
structure Transfer where
  transferId : String
  tokenId : String
  senderPk : String
  receiverPk : String
  nonce : Int
  parentTransferId : Option String
  parentTransferHash : Option String
  prevTransferHash : Option String
  hopCount : Int
  signature : String
  timestamp : Datetime
  deriving DecidableEq, Repr

/-- The fields of `Transfer.signing_payload`. -/
structure TransferPayload where
  transferId : String
  tokenId : String
  senderPk : String
  receiverPk : String
  nonce : Int
  parentTransferId : Option String
  parentTransferHash : Option String
  prevTransferHash : Option String
  hopCount : Int
  timestamp : Datetime
  deriving DecidableEq, Repr

def Transfer.signingPayload (t : Transfer) : TransferPayload where
  transferId := t.transferId
  tokenId := t.tokenId
  senderPk := t.senderPk
  receiverPk := t.receiverPk
  nonce := t.nonce
  parentTransferId := t.parentTransferId
  parentTransferHash := t.parentTransferHash
  prevTransferHash := t.prevTransferHash
  hopCount := t.hopCount
  timestamp := t.timestamp

/-- Collection of transfers exchanged atomically in offline mode. -/
structure PaymentBundle where
  bundleId : String
  transfers : List Transfer
  tokens : Dict String Token

/-! ### Cryptography -/

/-- The messages that get signed. -/
inductive Message
  | token (payload : TokenPayload)
  | transfer (payload : TransferPayload)
  deriving DecidableEq, Repr

/-- `crypto/crypto_utils.py`, and `Transfer.payload_hash`. -/
structure Crypto where
  sign : Message → String → String
  verify : Message → String → String → Bool
  payloadHash : Transfer → String

/-! ### The issuer -/

/-- Minting authority that signs root tokens. -/
structure Issuer where
  privateKeyHex : String
  publicKeyHex : String
  issuedTokens : KeyedList Token.tokenId

/-- What `mint_token` draws: `uuid.uuid4()`, `time.time()` and the time of creation. -/
structure MintDraw where
  tokenId : String
  time : Int
  now : Int
  deriving DecidableEq, Repr

namespace Issuer

/-- `Token.new_unsigned`. -/
def newUnsigned (value : Int) (issuerPk ownerPk : String) (draw : MintDraw) : Token where
  tokenId := draw.tokenId
  value := value
  issuerPk := issuerPk
  currentOwner := ownerPk
  nonce := 0
  issuerSignature := ""
  lastTransferId := none
  lastTransferHash := none
  hopCount := 0
  issueTimestamp := wholeSeconds draw.time
  createdAt := ⟨draw.now, some 0⟩
  originTokenId := some draw.tokenId

/-- The token `mint_token` signs and returns. -/
def mintedToken (c : Crypto) (issuer : Issuer) (ownerPk : String) (value : Int)
    (draw : MintDraw) : Token :=
  let token := newUnsigned value issuer.publicKeyHex ownerPk draw
  { token with issuerSignature := c.sign (.token token.signingPayload) issuer.privateKeyHex }

/-- Mint and sign a token for an owner wallet. -/
def mintToken (c : Crypto) (issuer : Issuer) (ownerPk : String) (value : Int) (draw : MintDraw) :
    Issuer × Token :=
  let token := mintedToken c issuer ownerPk value draw
  ({ issuer with issuedTokens := issuer.issuedTokens.put token }, token)

section mintToken

variable {c : Crypto} {issuer : Issuer} {ownerPk : String} {value : Int} {draw : MintDraw}

@[simp] lemma mintedToken_tokenId :
    (issuer.mintedToken c ownerPk value draw).tokenId = draw.tokenId := rfl

@[simp] lemma mintedToken_currentOwner :
    (issuer.mintedToken c ownerPk value draw).currentOwner = ownerPk := rfl

/-- A token with a new id goes to the end of the table. -/
lemma items_mintToken (hnew : draw.tokenId ∉ issuer.issuedTokens.keys) :
    (issuer.mintToken c ownerPk value draw).1.issuedTokens.items
      = issuer.issuedTokens.items ++ [issuer.mintedToken c ownerPk value draw] :=
  KeyedList.items_put_of_notMem hnew

end mintToken

end Issuer

/-! ### A signature scheme in plain text -/

/-- The fields of a message in one text. -/
def Message.text : Message → String
  | .token p => "/".intercalate ["token", p.tokenId, toString p.value, p.issuerPk, p.ownerPk,
      toString p.nonce, toString p.issueTimestamp, p.originTokenId.getD ""]
  | .transfer p => "/".intercalate ["transfer", p.transferId, p.tokenId, p.senderPk, p.receiverPk,
      toString p.nonce, p.parentTransferId.getD "", p.parentTransferHash.getD "",
      p.prevTransferHash.getD "", toString p.hopCount, toString p.timestamp.micros]

/-- Signatures in plain text: the private key of `pk` is `sk:pk`. -/
def plainCrypto : Crypto where
  sign m privateKey := privateKey ++ " signs " ++ m.text
  verify m signature publicKey := signature == "sk:" ++ publicKey ++ " signs " ++ m.text
  payloadHash t := "digest of " ++ (Message.transfer t.signingPayload).text ++ t.signature

def plainIssuer : Issuer := ⟨"sk:bank", "bank", .empty⟩

/-- The token of value 100 that the bank mints for `ownerPk` at second 1000. -/
def plainToken (tokenId ownerPk : String) : Token :=
  plainIssuer.mintedToken plainCrypto ownerPk 100 ⟨tokenId, 1000000000, 1000000000⟩

/-- The first transfer of a token, made a second later. -/
def plainTransfer (transferId tokenId senderPk receiverPk : String) : Transfer :=
  let unsigned : Transfer :=
    ⟨transferId, tokenId, senderPk, receiverPk, 0, none, none, none, 1, "", ⟨1001000000, some 0⟩⟩
  { unsigned with
    signature := plainCrypto.sign (.transfer unsigned.signingPayload) ("sk:" ++ senderPk) }

def plainBundle (transfers : List Transfer) (tokens : List Token) : PaymentBundle :=
  ⟨"bundle", transfers, tokens.foldl (fun d token => d.set token.tokenId token) .empty⟩

end PocketCash.Offline
