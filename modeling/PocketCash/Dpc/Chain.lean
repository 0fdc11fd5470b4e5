import PocketCash.Dpc.Token

/-!
# Chain validation

`TransferChain.validate_integrity` of `dpc/token_model.py` accepts a list of records exactly if it
is non-empty, its records speak about the token, are hash-linked from the genesis hash, have
admissible hop indices and are each signed by the sender they name.

It does not ask whether the sender a record names is the receiver of the record before it.
-/

namespace PocketCash.Dpc

/-! ### The validator -/

/-- The loop of `validate_integrity`, with its variables `position`, `previous_hash` and
`previous_hop`. -/
def validateRecords (c : Crypto) (token : Token) :
    Nat → String → Int → List TransferRecord → Except Raised Unit
  | _, _, _, [] => .ok ()
  | position, previousHash, previousHop, record :: rest =>
    if record.tokenId ≠ token.tokenId then
      .error (.dpc .chainIntegrity "Transfer token_id does not match token")
    else if record.amountSubunits ≠ token.amountSubunits then
      .error (.dpc .chainIntegrity "Transfer amount does not match token amount")
    else if record.prevHash ≠ previousHash then
      .error (.dpc .chainIntegrity "Transfer prev_hash does not link to prior chain_hash")
    else if position = 0 ∧ record.hopIndex ≠ 0 then
      .error (.dpc .chainIntegrity "Genesis transfer must have hop_index 0")
    else if position > 0 ∧ record.hopIndex ≠ previousHop + 1 ∧ record.hopIndex ≠ 1 then
      .error (.dpc .chainIntegrity "Transfer hop_index sequence is invalid")
    else
      match record.verifySignature c with
      | .error e => .error e
      | .ok () => validateRecords c token (position + 1) record.chainHash record.hopIndex rest

/-- Validate chain ordering, hash links, signatures, token id, amount, and hop count. -/
def validateIntegrity (c : Crypto) (token : Token) (records : List TransferRecord) :
    Except Raised Unit :=
  match token.verifyIssuerSignature c with
  | .error e => .error e
  | .ok () =>
    match records.getLast? with
    | none => .error (.dpc .chainIntegrity "Transfer chain is empty")
    | some tip =>
      if tip.hopIndex > maxOfflineHops then
        .error (.dpc .hopLimitExceeded "Offline hop limit exceeded")
      else validateRecords c token 0 genesisHash (-1) records

/-! ### What it accepts -/

/-- The checks made on the record at `position`. -/
structure RecordValid (c : Crypto) (token : Token) (position : Nat) (previousHash : String)
    (previousHop : Int) (record : TransferRecord) : Prop where
  tokenId : record.tokenId = token.tokenId
  amount : record.amountSubunits = token.amountSubunits
  prevHash : record.prevHash = previousHash
  genesisHop : position = 0 → record.hopIndex = 0
  nextHop : 0 < position → record.hopIndex = previousHop + 1 ∨ record.hopIndex = 1
  chainHash : record.computeChainHash c = .ok record.chainHash
  signed : record.SignedUnder c record.senderPubkeyHex

/-- The checks made on the records from `position` on. -/
def RecordsValid (c : Crypto) (token : Token) : Nat → String → Int → List TransferRecord → Prop
  | _, _, _, [] => True
  | position, previousHash, previousHop, record :: rest =>
    RecordValid c token position previousHash previousHop record ∧
      RecordsValid c token (position + 1) record.chainHash record.hopIndex rest

lemma validateRecords_eq_ok_iff {c : Crypto} {token : Token} {records : List TransferRecord}
    {position : Nat} {previousHash : String} {previousHop : Int} :
    validateRecords c token position previousHash previousHop records = .ok () ↔
      RecordsValid c token position previousHash previousHop records := by
  induction records generalizing position previousHash previousHop with
  | nil => exact iff_of_true rfl trivial
  | cons record rest ih =>
    rw [validateRecords, RecordsValid]
    constructor
    · intro h
      split_ifs at h with hid hamount hprev hgenesis hnext
      cases hsig : record.verifySignature c with
      | error e => simp [hsig] at h
      | ok u =>
        obtain ⟨hhash, hsigned⟩ := TransferRecord.verifySignature_eq_ok_iff.mp hsig
        rw [hsig] at h
        exact ⟨⟨not_not.mp hid, not_not.mp hamount, not_not.mp hprev, by tauto, by tauto, hhash,
          hsigned⟩, ih.mp h⟩
    · rintro ⟨hrecord, hrest⟩
      have hsig := TransferRecord.verifySignature_eq_ok_iff.mpr
        ⟨hrecord.chainHash, hrecord.signed⟩
      have hgenesis := hrecord.genesisHop
      have hnext := hrecord.nextHop
      rw [if_neg (not_not.mpr hrecord.tokenId), if_neg (not_not.mpr hrecord.amount),
        if_neg (not_not.mpr hrecord.prevHash), if_neg (by tauto), if_neg (by tauto), hsig]
      exact ih.mpr hrest

/-- A token and a chain that `validate_integrity` accepts. -/
structure ChainValid (c : Crypto) (token : Token) (records : List TransferRecord) : Prop where
  issuer : token.verifyIssuerSignature c = .ok ()
  tip : ∃ tip, records.getLast? = some tip ∧ tip.hopIndex ≤ maxOfflineHops
  records : RecordsValid c token 0 genesisHash (-1) records

/-- The specification of `validate_integrity`. -/
theorem validateIntegrity_eq_ok_iff {c : Crypto} {token : Token} {records : List TransferRecord} :
    validateIntegrity c token records = .ok () ↔ ChainValid c token records := by
  rw [validateIntegrity]
  constructor
  · intro h
    cases hissuer : token.verifyIssuerSignature c with
    | error e => simp [hissuer] at h
    | ok u =>
      cases htip : records.getLast? with
      | none => simp [hissuer, htip] at h
      | some tip =>
        rw [hissuer, htip] at h
        dsimp only at h
        split_ifs at h with hhop
        exact ⟨hissuer, ⟨tip, htip, Int.not_lt.mp hhop⟩, validateRecords_eq_ok_iff.mp h⟩
  · rintro ⟨hissuer, ⟨tip, htip, hhop⟩, hrecords⟩
    rw [hissuer, htip]
    dsimp only
    rw [if_neg (Int.not_lt.mpr hhop)]
    exact validateRecords_eq_ok_iff.mpr hrecords

/-- Each record of an accepted chain is signed by the sender it names. -/
lemma RecordsValid.signed {c : Crypto} {token : Token} {records : List TransferRecord}
    {position : Nat} {previousHash : String} {previousHop : Int}
    (h : RecordsValid c token position previousHash previousHop records) :
    ∀ r ∈ records, r.SignedUnder c r.senderPubkeyHex := by
  induction records generalizing position previousHash previousHop with
  | nil => simp
  | cons record rest ih =>
    rintro r (_ | ⟨_, hr⟩)
    · exact h.1.signed
    · exact ih h.2 r hr

/-- Each record of an accepted chain has the amount of the token. -/
lemma RecordsValid.amount {c : Crypto} {token : Token} {records : List TransferRecord}
    {position : Nat} {previousHash : String} {previousHop : Int}
    (h : RecordsValid c token position previousHash previousHop records) :
    ∀ r ∈ records, r.amountSubunits = token.amountSubunits := by
  induction records generalizing position previousHash previousHop with
  | nil => simp
  | cons record rest ih =>
    rintro r (_ | ⟨_, hr⟩)
    · exact h.1.amount
    · exact ih h.2 r hr

/-- An accepted chain may be continued by a record that links to its last. -/
lemma RecordsValid.concat {c : Crypto} {token : Token} {records : List TransferRecord}
    {position : Nat} {previousHash : String} {previousHop : Int}
    (h : RecordsValid c token position previousHash previousHop records) {tip r : TransferRecord}
    (htip : records.getLast? = some tip)
    (hr : ∀ position, 0 < position → RecordValid c token position tip.chainHash tip.hopIndex r) :
    RecordsValid c token position previousHash previousHop (records ++ [r]) := by
  induction records generalizing position previousHash previousHop with
  | nil => cases htip
  | cons record rest ih =>
    refine ⟨h.1, ?_⟩
    cases rest with
    | nil =>
      obtain rfl := Option.some.inj htip
      exact ⟨hr _ (Nat.succ_pos _), trivial⟩
    | cons second rest => exact ih h.2 (by simpa using htip)

/-- A record made for `token` with a key is valid where its hop index is. -/
lemma TransferRecord.MadeFrom.recordValid {c : Crypto} (hcorrect : c.Correct) {r : TransferRecord}
    {token : Token} {hopIndex : Int} {receiverPubkeyHex nonce prevHash : String}
    {privateKeyBytes : Bytes}
    (h : r.MadeFrom c ⟨token.tokenId, hopIndex, Hex.encode (c.publicKey privateKeyBytes),
      receiverPubkeyHex, token.amountSubunits, nonce⟩ prevHash privateKeyBytes) {position : Nat}
    {previousHop : Int} (hgenesis : position = 0 → hopIndex = 0)
    (hnext : 0 < position → hopIndex = previousHop + 1 ∨ hopIndex = 1) :
    RecordValid c token position prevHash previousHop r := by
  have hhop : r.hopIndex = hopIndex := congrArg TransferPayload.hopIndex h.payload
  have hsender : r.senderPubkeyHex = Hex.encode (c.publicKey privateKeyBytes) :=
    congrArg TransferPayload.senderPubkeyHex h.payload
  exact ⟨congrArg TransferPayload.tokenId h.payload, congrArg TransferPayload.amountSubunits h.payload,
    h.prevHash, fun hposition => hhop.trans (hgenesis hposition),
    fun hposition => hhop ▸ hnext hposition, h.chainHash, hsender ▸ h.signed hcorrect⟩

/-! ### Custody -/

/-- The records with the key that held the token before each of them: `holder` before the first,
and then the receiver of the record before. -/
def withHolders : String → List TransferRecord → List (String × TransferRecord)
  | _, [] => []
  | holder, record :: rest => (holder, record) :: withHolders record.receiverPubkeyHex rest

lemma mem_of_mem_withHolders {holder : String} {records : List TransferRecord}
    {q : String × TransferRecord} (h : q ∈ withHolders holder records) : q.2 ∈ records := by
  induction records generalizing holder with
  | nil => cases h
  | cons record rest ih =>
    rcases List.mem_cons.mp h with rfl | h
    · exact List.mem_cons_self
    · exact List.mem_cons_of_mem _ (ih h)

/-- Each record is sent by the holder of the token, the issuer being the first. -/
def IsCustodyChain (token : Token) (records : List TransferRecord) : Prop :=
  ∀ q ∈ withHolders token.issuerPubkeyHex records, q.2.senderPubkeyHex = q.1

/-- Each record carries a signature of the key that held the token, and does not name that key in
another hexadecimal spelling. -/
def SignedByHolders (c : Crypto) (token : Token) (records : List TransferRecord) : Prop :=
  ∀ q ∈ withHolders token.issuerPubkeyHex records, q.2.SignedUnder c q.1 ∧
    (Hex.decode q.2.senderPubkeyHex = Hex.decode q.1 → q.2.senderPubkeyHex = q.1)

lemma TransferRecord.SignedUnder.decode_eq {c : Crypto} (hc : c.Exclusive) {r : TransferRecord}
    {key key' : String} (h : r.SignedUnder c key) (h' : r.SignedUnder c key') :
    Hex.decode key = Hex.decode key' := by
  obtain ⟨digest, hdigest, hverify⟩ := h
  obtain ⟨digest', hdigest', hverify'⟩ := h'
  obtain ⟨pk, signature, hpk, hsignature, hok⟩ := Crypto.ed25519Verify_eq_ok_iff.mp hverify
  obtain ⟨pk', signature', hpk', hsignature', hok'⟩ := Crypto.ed25519Verify_eq_ok_iff.mp hverify'
  obtain rfl := Option.some.inj (hsignature.symm.trans hsignature')
  rw [hpk, hpk', hc _ _ _ _ _ hok hok']

/-- An accepted chain is a custody chain exactly if each of its records was signed by the key that
held the token. -/
theorem isCustodyChain_iff {c : Crypto} (hc : c.Exclusive) {token : Token}
    {records : List TransferRecord} (h : validateIntegrity c token records = .ok ()) :
    IsCustodyChain token records ↔ SignedByHolders c token records := by
  have hsigned := (validateIntegrity_eq_ok_iff.mp h).records.signed
  constructor
  · intro hcustody q hq
    have hsender := hcustody q hq
    exact ⟨hsender ▸ hsigned q.2 (mem_of_mem_withHolders hq), fun _ => hsender⟩
  · intro hholders q hq
    obtain ⟨hholder, hspelling⟩ := hholders q hq
    exact hspelling ((hsigned q.2 (mem_of_mem_withHolders hq)).decode_eq hc hholder)

/-! The keys of an issuer, Alice and Mallory, and a token issued to Alice. -/

namespace Custody

def issuer : DPCKeyPair := ⟨[1]⟩
def alice : DPCKeyPair := ⟨[2]⟩
def mallory : DPCKeyPair := ⟨[3]⟩

/-- A token signed by `keypair`. -/
def plainToken (keypair : DPCKeyPair) (tokenId : String) (amount issuedAt : Int) : Token :=
  let unsigned := Token.mintUnsigned (keypair.publicKeyHex plainCrypto) amount tokenId issuedAt
  { unsigned with issuerSignature :=
      plainCrypto.ed25519Sign keypair.privateKeyBytes (.genesis unsigned.genesisPayload) }

/-- The record of `sender` that hands `token` to `receiver`. -/
def plainRecord (sender receiver : DPCKeyPair) (token : Token) (hopIndex : Int)
    (nonce prevHash : String) : TransferRecord :=
  let unsigned := (TransferRecord.new plainCrypto ⟨token.tokenId, hopIndex,
    sender.publicKeyHex plainCrypto, receiver.publicKeyHex plainCrypto, token.amountSubunits, nonce⟩
    prevHash).toOption
  let signed := unsigned.bind fun r => (r.sign plainCrypto sender.privateKeyBytes).toOption
  signed.getD ⟨"", 0, "", "", 0, "", "", "", ""⟩

def token : Token := plainToken issuer "t1" 500 1000
def genesis : TransferRecord := plainRecord issuer alice token 0 "n0" genesisHash
def spend : TransferRecord := plainRecord alice mallory token 1 "n1" genesis.chainHash
def theft : TransferRecord := plainRecord mallory mallory token 1 "n1" genesis.chainHash

end Custody

theorem isCustodyChain_spend : IsCustodyChain Custody.token [Custody.genesis, Custody.spend] := by
  apply (isCustodyChain_iff plainCrypto_exclusive (by decide +kernel)).mpr
  rw [SignedByHolders]
  decide +kernel

/-- Mallory, who never held the token, passes it on to herself. -/
theorem validateIntegrity_accepts_theft :
    validateIntegrity plainCrypto Custody.token [Custody.genesis, Custody.theft] = .ok () ∧
      ¬ IsCustodyChain Custody.token [Custody.genesis, Custody.theft] := by
  refine ⟨by decide +kernel, ?_⟩
  intro h
  have hsender := h (Custody.genesis.receiverPubkeyHex, Custody.theft) (by simp [withHolders])
  revert hsender
  decide +kernel

end PocketCash.Dpc
