import PocketCash.Dpc.Register

/-!
# Saving and reloading a register

`UnspentTokenRegister.save` and `load` of `dpc/wallet.py`, with the dictionary forms of tokens,
records and receipts they use. A saved register loads as a register with the same wallet id, the
same receipts under the same ids, and the same sets.
-/

namespace PocketCash.Dpc

/-! ### Dictionary forms -/

/-- `asdict(token)`. -/
def Token.toDict (token : Token) : Json := .dict [
  ("token_id", .str token.tokenId),
  ("issuer_pubkey_hex", .str token.issuerPubkeyHex),
  ("amount_subunits", .int token.amountSubunits),
  ("issued_at", .int token.issuedAt),
  ("ttl_expiry", .int token.ttlExpiry),
  ("issuer_signature", .str token.issuerSignature)]

/-- `Token(**data)`. -/
def Token.fromDict (data : Json) : Except PyError Token := do
  data.checkKwargs ["token_id", "issuer_pubkey_hex", "amount_subunits", "issued_at", "ttl_expiry",
    "issuer_signature"]
  let tokenId ← (← data.kwarg "token_id").asStr
  let issuerPubkeyHex ← (← data.kwarg "issuer_pubkey_hex").asStr
  let amountSubunits ← (← data.kwarg "amount_subunits").asInt
  let issuedAt ← (← data.kwarg "issued_at").asInt
  let ttlExpiry ← (← data.kwarg "ttl_expiry").asInt
  let issuerSignature ← (← data.kwarg "issuer_signature").asStr
  return ⟨tokenId, issuerPubkeyHex, amountSubunits, issuedAt, ttlExpiry, issuerSignature⟩

/-- `asdict(record)`. -/
def TransferRecord.toDict (r : TransferRecord) : Json := .dict [
  ("token_id", .str r.tokenId),
  ("hop_index", .int r.hopIndex),
  ("sender_pubkey_hex", .str r.senderPubkeyHex),
  ("receiver_pubkey_hex", .str r.receiverPubkeyHex),
  ("amount_subunits", .int r.amountSubunits),
  ("nonce", .str r.nonce),
  ("prev_hash", .str r.prevHash),
  ("chain_hash", .str r.chainHash),
  ("signature", .str r.signature)]

/-- `TransferRecord.from_dict`: the constructor computes the chain hash, and the stored one then
replaces it. -/
def TransferRecord.fromDict (c : Crypto) (d : Json) : Except Raised TransferRecord := do
  let tokenId ← (← d.getItem "token_id").asStr
  let hopIndex ← (← d.getItem "hop_index").asInt
  let senderPubkeyHex ← (← d.getItem "sender_pubkey_hex").asStr
  let receiverPubkeyHex ← (← d.getItem "receiver_pubkey_hex").asStr
  let amountSubunits ← (← d.getItem "amount_subunits").asInt
  let nonce ← (← d.getItem "nonce").asStr
  let prevHash ← (← d.getItem "prev_hash").asStr
  let record ← TransferRecord.new c
    ⟨tokenId, hopIndex, senderPubkeyHex, receiverPubkeyHex, amountSubunits, nonce⟩ prevHash
  let chainHash ← (← d.getItem "chain_hash").asStr
  let signature ← (← d.getItem "signature").asStr
  return { record with chainHash := chainHash, signature := signature }

def recordsFromList (c : Crypto) : List Json → Except Raised (List TransferRecord)
  | [] => .ok []
  | item :: rest => do
    let record ← TransferRecord.fromDict c item
    let records ← recordsFromList c rest
    return record :: records

/-- The document of `Receipt.to_json`. -/
def Receipt.toDict (receipt : Receipt) : Json := .dict [
  ("token_id", .str receipt.tokenId),
  ("received_at", .int receipt.receivedAt),
  ("final_hop", receipt.finalHop.toDict),
  ("full_chain", .list (receipt.fullChain.map TransferRecord.toDict)),
  ("is_redeemed", .bool receipt.isRedeemed),
  ("token", match receipt.token with
    | some token => token.toDict
    | none => .null)]

/-- `Receipt.from_json`, on the parsed document. -/
def Receipt.fromDict (c : Crypto) (d : Json) : Except Raised Receipt := do
  let token ← match ← d.get "token" .null with
    | .null => pure none
    | data => do
      let token ← Token.fromDict data
      pure (some token)
  let fullChain ← recordsFromList c (← (← d.getItem "full_chain").asList)
  let tokenId ← (← d.getItem "token_id").asStr
  let receivedAt ← (← d.getItem "received_at").asInt
  let finalHop ← TransferRecord.fromDict c (← d.getItem "final_hop")
  let isRedeemed ← (← d.getItem "is_redeemed").asBool
  return ⟨tokenId, receivedAt, finalHop, fullChain, isRedeemed, token⟩

/-! ### The file -/

namespace UnspentTokenRegister

/-- The entries in the order of their ids, as `sort_keys` writes them. -/
def sortedEntries (utr : UnspentTokenRegister) : List (String × Receipt) :=
  utr.entries.items.insertionSort fun e e' => e.1 ≤ e'.1

def strings (s : Finset String) : Json := .list ((s.sort (· ≤ ·)).map .str)

/-- Persist the UTR to JSON. -/
def save (utr : UnspentTokenRegister) (savedAt : String) : JsonText :=
  Json.dumps (.dict [
    ("data", .dict [
      ("entries", .dict (utr.sortedEntries.map fun e => (e.1, e.2.toDict))),
      ("seen_nonces", strings utr.seenNonces),
      ("spent_token_ids", strings utr.spentTokenIds),
      ("wallet_id", .str utr.walletId)]),
    ("dpc_version", .str "1.0"),
    ("saved_at", .str savedAt)])

/-- The comprehension that reads the entries. -/
def loadEntries (c : Crypto) :
    Dict String Receipt → List (String × Json) → Except Raised (Dict String Receipt)
  | entries, [] => .ok entries
  | entries, (tokenId, receiptData) :: rest => do
    let receipt ← Receipt.fromDict c receiptData
    loadEntries c (entries.set tokenId receipt) rest

def loadStrings (data : Json) : Except PyError (Finset String) := do
  let texts ← (← data.asList).mapM Json.asStr
  return texts.toFinset

/-- Load a UTR from JSON. -/
def load (c : Crypto) (file : JsonText) : Except Raised UnspentTokenRegister := do
  let payload ← file.loads
  if !(← payload.get "dpc_version" .null).isStr "1.0" then
    throw (.dpc .walletState "Unsupported UTR version")
  let data ← payload.getItem "data"
  let walletId ← (← data.getItem "wallet_id").asStr
  let entries ← loadEntries c .empty (← (← data.getItem "entries").items)
  let spentTokenIds ← loadStrings (← data.getItem "spent_token_ids")
  let seenNonces ← loadStrings (← data.getItem "seen_nonces")
  return ⟨walletId, entries, spentTokenIds, seenNonces⟩

end UnspentTokenRegister

/-! ### Round trips -/

lemma TransferRecord.eq_of_fromDict {c : Crypto} {r r' : TransferRecord}
    (h : fromDict c r.toDict = .ok r') : r' = r := by
  have hread : fromDict c r.toDict = do
      let record ← TransferRecord.new c r.payload r.prevHash
      return { record with chainHash := r.chainHash, signature := r.signature } := rfl
  rw [hread] at h
  obtain ⟨record, hnew, hrecord⟩ := bind_eq_ok_iff.mp h
  obtain ⟨chainHash, -, hunsigned⟩ := bind_eq_ok_iff.mp hnew
  cases hunsigned
  cases hrecord
  rfl

lemma eq_of_recordsFromList {c : Crypto} {rs rs' : List TransferRecord}
    (h : recordsFromList c (rs.map TransferRecord.toDict) = .ok rs') : rs' = rs := by
  induction rs generalizing rs' with
  | nil =>
    cases h
    rfl
  | cons r rs ih =>
    rw [List.map_cons, recordsFromList] at h
    obtain ⟨record, hrecord, h⟩ := bind_eq_ok_iff.mp h
    obtain ⟨records, hrecords, h⟩ := bind_eq_ok_iff.mp h
    cases h
    rw [TransferRecord.eq_of_fromDict hrecord, ih hrecords]

lemma Receipt.eq_of_fromDict {c : Crypto} {receipt receipt' : Receipt}
    (h : fromDict c receipt.toDict = .ok receipt') : receipt' = receipt := by
  have hread : fromDict c receipt.toDict = do
      let fullChain ← recordsFromList c (receipt.fullChain.map TransferRecord.toDict)
      let finalHop ← TransferRecord.fromDict c receipt.finalHop.toDict
      return ⟨receipt.tokenId, receipt.receivedAt, finalHop, fullChain, receipt.isRedeemed,
        receipt.token⟩ := by
    obtain ⟨_, _, _, _, _, token⟩ := receipt
    cases token <;> rfl
  rw [hread] at h
  obtain ⟨fullChain, hchain, h⟩ := bind_eq_ok_iff.mp h
  obtain ⟨finalHop, hhop, h⟩ := bind_eq_ok_iff.mp h
  cases h
  rw [eq_of_recordsFromList hchain, TransferRecord.eq_of_fromDict hhop]

namespace UnspentTokenRegister

lemma eq_of_loadEntries {c : Crypto} {entries entries' : Dict String Receipt}
    {saved : List (String × Receipt)}
    (h : loadEntries c entries (saved.map fun e => (e.1, e.2.toDict)) = .ok entries') :
    entries' = saved.foldl KeyedList.put entries := by
  induction saved generalizing entries with
  | nil =>
    cases h
    rfl
  | cons e saved ih =>
    rw [List.map_cons, loadEntries] at h
    obtain ⟨receipt, hreceipt, h⟩ := bind_eq_ok_iff.mp h
    rw [Receipt.eq_of_fromDict hreceipt] at h
    exact ih h

lemma loadStrings_strings (s : Finset String) : loadStrings (strings s) = .ok s := by
  rw [loadStrings, strings, Json.asList, ok_bind, mapM_asStr]
  simp

/-- A register that loads from its own save is the saved one up to the order of its entries. -/
theorem eq_of_load_save {c : Crypto} {utr utr' : UnspentTokenRegister} {savedAt : String}
    (h : load c (utr.save savedAt) = .ok utr') :
    utr'.walletId = utr.walletId ∧ utr'.entries.items.Perm utr.entries.items ∧
      utr'.spentTokenIds = utr.spentTokenIds ∧ utr'.seenNonces = utr.seenNonces := by
  have hread : load c (utr.save savedAt) = do
      let entries ← loadEntries c .empty (utr.sortedEntries.map fun e => (e.1, e.2.toDict))
      let spentTokenIds ← loadStrings (strings utr.spentTokenIds)
      let seenNonces ← loadStrings (strings utr.seenNonces)
      return ⟨utr.walletId, entries, spentTokenIds, seenNonces⟩ := rfl
  rw [hread, loadStrings_strings, loadStrings_strings] at h
  obtain ⟨entries, hentries, h⟩ := bind_eq_ok_iff.mp h
  cases h
  have hperm : utr.sortedEntries.Perm utr.entries.items := List.perm_insertionSort _ _
  refine ⟨rfl, ?_, rfl, rfl⟩
  rw [eq_of_loadEntries hentries, KeyedList.items_foldl_put]
  · exact hperm
  · exact (hperm.map Prod.fst).nodup_iff.mpr utr.entries.nodup

end UnspentTokenRegister

end PocketCash.Dpc
