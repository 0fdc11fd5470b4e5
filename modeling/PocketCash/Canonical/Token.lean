import PocketCash.Library.Python

/-!
# Tokens and their transfer chains

`digital_token/transfer_chain.py` and `digital_token/token_model.py`: a token carries the issuer's
signature over its issuance fields and the list of transfers it went through. Each transfer is
signed by the owner who gives the token away and names the transfer before it by its id and by the
SHA-256 digest of its serialisation.

The signature backend and SHA-256 are parameters. What is signed or hashed is the JSON text of a
dictionary with fixed fields of fixed types, so it is represented by the fields.
-/

namespace PocketCash.Canonical

/-! ### Transfer records -/

/-- A single transfer event in a token's custody chain. -/
structure TransferRecord where
  transferId : String
  tokenId : String
  senderPk : String
  receiverPk : String
  nonce : Int
  parentTransferId : Option String
  prevTransferHash : Option String
  timestamp : String
  signature : String
  deriving DecidableEq, Repr

/-- `TransferRecord.signing_dict`: every field but the signature. -/
structure SigningDict where
  transferId : String
  tokenId : String
  senderPk : String
  receiverPk : String
  nonce : Int
  parentTransferId : Option String
  prevTransferHash : Option String
  timestamp : String
  deriving DecidableEq, Repr

/-- `Token.issuance_dict`. -/
structure IssuanceDict where
  tokenId : String
  value : Int
  issuerPk : String
  ownerPk : String
  expiry : String
  deriving DecidableEq, Repr

/-- The messages that get signed. -/
inductive Message
  | issuance (payload : IssuanceDict)
  | transfer (payload : SigningDict)
  deriving DecidableEq, Repr

/-- `crypto/signatures.py` and `hashlib`. `signMessage` raises on unusable key material;
`payloadDigest` is the SHA-256 hex digest of `payload_bytes()`. -/
structure Crypto where
  signMessage : String → Message → Except PyError String
  verifySignature : String → Message → String → Bool
  payloadDigest : TransferRecord → String

/-- What `TransferRecord.create` draws from its environment: `uuid.uuid4()` and the current time
in ISO format. -/
structure Stamp where
  transferId : String
  timestamp : String
  deriving DecidableEq, Repr

namespace TransferRecord

def signingDict (r : TransferRecord) : SigningDict where
  transferId := r.transferId
  tokenId := r.tokenId
  senderPk := r.senderPk
  receiverPk := r.receiverPk
  nonce := r.nonce
  parentTransferId := r.parentTransferId
  prevTransferHash := r.prevTransferHash
  timestamp := r.timestamp

/-- Create and sign a transfer record. -/
def create (c : Crypto) (stamp : Stamp) (tokenId senderSk senderPk receiverPk : String)
    (nonce : Int) (previousTransfer : Option TransferRecord) : Except PyError TransferRecord := do
  let transfer : TransferRecord := {
    transferId := stamp.transferId
    tokenId := tokenId
    senderPk := senderPk
    receiverPk := receiverPk
    nonce := nonce
    parentTransferId := previousTransfer.map TransferRecord.transferId
    prevTransferHash := previousTransfer.map c.payloadDigest
    timestamp := stamp.timestamp
    signature := "" }
  let signature ← c.signMessage senderSk (.transfer transfer.signingDict)
  return { transfer with signature := signature }

/-- Verify this transfer record's sender signature. -/
def verify (c : Crypto) (r : TransferRecord) : Bool :=
  c.verifySignature r.senderPk (.transfer r.signingDict) r.signature

/-- `TransferRecord.to_dict`. -/
def toDict (r : TransferRecord) : Json := .dict [
  ("transfer_id", .str r.transferId),
  ("token_id", .str r.tokenId),
  ("sender_pk", .str r.senderPk),
  ("receiver_pk", .str r.receiverPk),
  ("nonce", .int r.nonce),
  ("parent_transfer_id", Json.ofOptStr r.parentTransferId),
  ("prev_transfer_hash", Json.ofOptStr r.prevTransferHash),
  ("timestamp", .str r.timestamp),
  ("signature", .str r.signature)]

end TransferRecord

/-! ### Tokens -/

/-- Bearer token with issuer signature and an auditable transfer chain. -/
structure Token where
  tokenId : String
  value : Int
  issuerPk : String
  ownerPk : String
  expiry : String
  issuerSignature : String
  transferChain : List TransferRecord
  deriving DecidableEq, Repr

namespace Token

/-- The issuance fields, as they were when `issuedOwnerPk` owned the token. -/
def issuanceDict (t : Token) (issuedOwnerPk : String) : IssuanceDict where
  tokenId := t.tokenId
  value := t.value
  issuerPk := t.issuerPk
  ownerPk := issuedOwnerPk
  expiry := t.expiry

/-- Append a transfer signed by the owner and hand the token to `receiverPk`. -/
def appendTransfer (c : Crypto) (stamp : Stamp) (t : Token) (senderSk receiverPk : String) :
    Except PyError Token := do
  let prevTransfer := t.transferChain.getLast?
  let nonce : Int := match prevTransfer with
    | none => 1
    | some prev => prev.nonce + 1
  let transfer ← TransferRecord.create c stamp t.tokenId senderSk t.ownerPk receiverPk nonce
    prevTransfer
  return { t with transferChain := t.transferChain ++ [transfer], ownerPk := receiverPk }

/-- The parent fields of a transfer name the transfer before it, and are `None` in the first. -/
def linksTo (c : Crypto) (transfer : TransferRecord) : Option TransferRecord → Bool
  | none => transfer.parentTransferId == none && transfer.prevTransferHash == none
  | some previous => transfer.parentTransferId == some previous.transferId
      && transfer.prevTransferHash == some (c.payloadDigest previous)

/-- The loop of `validate_chain`, with its variables `owner_pk`, `previous_transfer` and
`expected_nonce`. -/
def validateTransfers (c : Crypto) (t : Token) (ownerPk : String)
    (previousTransfer : Option TransferRecord) (expectedNonce : Int) :
    List TransferRecord → Bool
  | [] => ownerPk == t.ownerPk
  | transfer :: rest =>
    if transfer.tokenId ≠ t.tokenId then false
    else if !transfer.verify c then false
    else if transfer.senderPk ≠ ownerPk then false
    else if transfer.nonce ≠ expectedNonce then false
    else if !linksTo c transfer previousTransfer then false
    else validateTransfers c t transfer.receiverPk (some transfer) (expectedNonce + 1) rest

/-- Validate issuer signature and each transfer continuity/signature. -/
def validateChain (c : Crypto) (t : Token) (issuerPk : String) : Bool :=
  if issuerPk ≠ t.issuerPk then false
  else
    let issuedOwnerPk := match t.transferChain with
      | [] => t.ownerPk
      | first :: _ => first.senderPk
    if !c.verifySignature t.issuerPk (.issuance (t.issuanceDict issuedOwnerPk))
        t.issuerSignature then false
    else validateTransfers c t issuedOwnerPk none 1 t.transferChain

/-- `Token.to_ordered_dict`. -/
def toOrderedDict (t : Token) : Json := .dict [
  ("token_id", .str t.tokenId),
  ("value", .int t.value),
  ("issuer_pk", .str t.issuerPk),
  ("owner_pk", .str t.ownerPk),
  ("expiry", .str t.expiry),
  ("issuer_signature", .str t.issuerSignature),
  ("transfer_chain", .list (t.transferChain.map TransferRecord.toDict))]

/-- `Token.to_json`. -/
def toJson (t : Token) : JsonText := t.toOrderedDict.dumps

end Token

/-- What a transfer adds to a token, whoever signed it: the new token is the old one with one more
record in its chain, and belongs to `receiverPk`. -/
structure Token.Extends (t t' : Token) (receiverPk : String) : Prop where
  eq : ∃ record : TransferRecord,
    t' = { t with transferChain := t.transferChain ++ [record], ownerPk := receiverPk }

namespace Token.Extends

variable {t t' : Token} {receiverPk : String}

lemma tokenId_eq (h : t.Extends t' receiverPk) : t'.tokenId = t.tokenId := by
  obtain ⟨_, rfl⟩ := h.eq
  rfl

lemma value_eq (h : t.Extends t' receiverPk) : t'.value = t.value := by
  obtain ⟨_, rfl⟩ := h.eq
  rfl

lemma ownerPk_eq (h : t.Extends t' receiverPk) : t'.ownerPk = receiverPk := by
  obtain ⟨_, rfl⟩ := h.eq
  rfl

end Token.Extends

/-- Everything `append_transfer` changes. -/
lemma Token.extends_of_appendTransfer {c : Crypto} {stamp : Stamp} {t t' : Token}
    {senderSk receiverPk : String} (h : t.appendTransfer c stamp senderSk receiverPk = .ok t') :
    t.Extends t' receiverPk := by
  simp only [appendTransfer, TransferRecord.create] at h
  cases hsign : c.signMessage senderSk (.transfer _) with
  | error e =>
    rw [hsign] at h
    cases h
  | ok signature =>
    rw [hsign] at h
    cases h
    exact ⟨⟨_, rfl⟩⟩

/-! ### Reading a payload back -/

/-- The record at position `index` of a payload's `transfer_chain`. -/
def recordFromDict (index : Nat) (record : Json) : Except PyError TransferRecord := do
  let transferId ← (← record.getItem "transfer_id").asStr
  let tokenId ← (← record.getItem "token_id").asStr
  let senderPk ← (← record.getItem "sender_pk").asStr
  let receiverPk ← (← record.getItem "receiver_pk").asStr
  let nonce ← (← record.get "nonce" (.int (index + 1))).asInt
  let parentTransferId ← (← record.get "parent_transfer_id" .null).asOptStr
  let prevTransferHash ← (← record.get "prev_transfer_hash" .null).asOptStr
  let timestamp ← (← record.getItem "timestamp").asStr
  let signature ← (← record.getItem "signature").asStr
  return ⟨transferId, tokenId, senderPk, receiverPk, nonce, parentTransferId, prevTransferHash,
    timestamp, signature⟩

/-- The comprehension over `enumerate(data.get("transfer_chain", []))`. -/
def recordsFromList : Nat → List Json → Except PyError (List TransferRecord)
  | _, [] => .ok []
  | index, record :: rest => do
    let r ← recordFromDict index record
    let rs ← recordsFromList (index + 1) rest
    return r :: rs

/-- `_token_from_payload` of `wallet/wallet.py`, with its older field names as fallbacks. -/
def tokenFromPayload (payload : JsonText) : Except PyError Token := do
  let data ← payload.loads
  let transferChain ← recordsFromList 0 (← (← data.get "transfer_chain" (.list [])).asList)
  let tokenId ← (← data.getItem "token_id").asStr
  let value ← (← data.getItem "value").asInt
  let issuerPk ← (← data.getItem "issuer_pk").asStr
  let ownerPk ← (← data.get "owner_pk" (← data.get "current_owner_pk" .null)).asStr
  let expiry ← (← data.getItem "expiry").asStr
  let issuerSignature ←
    (← data.get "issuer_signature" (← data.get "issuer_sig" (.str ""))).asStr
  return ⟨tokenId, value, issuerPk, ownerPk, expiry, issuerSignature, transferChain⟩

lemma recordFromDict_toDict (index : Nat) (r : TransferRecord) :
    recordFromDict index r.toDict = .ok r := by
  obtain ⟨_, _, _, _, _, parent, prev, _, _⟩ := r
  cases parent <;> cases prev <;> rfl

lemma recordsFromList_map_toDict (index : Nat) (rs : List TransferRecord) :
    recordsFromList index (rs.map TransferRecord.toDict) = .ok rs := by
  induction rs generalizing index with
  | nil => rfl
  | cons r rs ih =>
    rw [List.map_cons, recordsFromList, recordFromDict_toDict, ih]
    rfl

/-- A token's payload reads back as the token. -/
theorem tokenFromPayload_toJson (t : Token) : tokenFromPayload t.toJson = .ok t := by
  have hchain := recordsFromList_map_toDict 0 t.transferChain
  have hread : tokenFromPayload t.toJson = do
      let transferChain ← recordsFromList 0 (t.transferChain.map TransferRecord.toDict)
      return { t with transferChain := transferChain } := rfl
  rw [hread, hchain]
  rfl

/-! ### A transparent backend

Concrete sessions are run with signatures that are readable texts. The key pairs are `sk:name` with
`name`, and a signature is accepted exactly if it was made with the private key of the pair on the
same message. -/

def TransferRecord.text (r : TransferRecord) : String :=
  "/".intercalate [r.transferId, r.tokenId, r.senderPk, r.receiverPk, toString r.nonce,
    r.parentTransferId.getD "", r.prevTransferHash.getD "", r.timestamp, r.signature]

def Message.text : Message → String
  | .issuance d => "/".intercalate [d.tokenId, toString d.value, d.issuerPk, d.ownerPk, d.expiry]
  | .transfer d => "/".intercalate [d.transferId, d.tokenId, d.senderPk, d.receiverPk,
      toString d.nonce, d.parentTransferId.getD "", d.prevTransferHash.getD "", d.timestamp]

def plainCrypto : Crypto where
  signMessage privateKey m := .ok (privateKey ++ " signs " ++ m.text)
  verifySignature publicKey m signature := signature == "sk:" ++ publicKey ++ " signs " ++ m.text
  payloadDigest r := "digest of " ++ r.text

/-- A token as the issuer `bank` hands it to its first owner. -/
def plainToken (tokenId : String) (value : Int) (ownerPk : String) : Token :=
  let unsigned : Token := ⟨tokenId, value, "bank", ownerPk, "2030-01-01T00:00:00+00:00", "", []⟩
  { unsigned with
    issuerSignature := "sk:bank signs " ++ (Message.issuance (unsigned.issuanceDict ownerPk)).text }

def plainStamp (party : String) (i : Nat) : Stamp := ⟨party ++ toString i, "2026-03-01T09:00:00"⟩

/-- The token after `giver` has sent it to `taker`, as the first token of that call. -/
def plainTransfer (t : Token) (giver taker : String) : Token :=
  (t.appendTransfer plainCrypto (plainStamp giver 0) ("sk:" ++ giver) taker).toOption.getD t

end PocketCash.Canonical
