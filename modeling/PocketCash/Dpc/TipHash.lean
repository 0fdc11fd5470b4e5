import PocketCash.Library.HashLinked
import PocketCash.Library.JsonEncoding
import PocketCash.Dpc.Chain

/-!
# The hash of the tip

The chain hash of a record is the SHA-256 digest of the JSON text of its payload followed, without
a separator, by the bytes of the previous hash. The text is self-delimiting, so if SHA-256 is
injective, the hash of the last record of an accepted chain fixes the payloads and the previous
hashes of all of them. The hop index of a record tells whether it is the first, so that the chains
are equally long; the signatures and the token are outside the hash.
-/

namespace PocketCash.Dpc

open JsonEncoding

/-- The dictionary that `payload_bytes` writes, with its keys sorted. -/
def TransferPayload.fields (p : TransferPayload) : List (String × Scalar) := [
  ("amount_subunits", .int p.amountSubunits),
  ("hop_index", .int p.hopIndex),
  ("nonce", .str p.nonce),
  ("receiver_pubkey_hex", .str p.receiverPubkeyHex),
  ("sender_pubkey_hex", .str p.senderPubkeyHex),
  ("token_id", .str p.tokenId)]

/-- `payload_bytes`. -/
def TransferPayload.bytes (p : TransferPayload) : Bytes := objectBytes p.fields

lemma TransferPayload.fields_injective : Function.Injective fields := by
  rintro ⟨_, _, _, _, _, _⟩ ⟨_, _, _, _, _, _⟩ h
  simp_all [fields]

/-- The backend hashes the payload bytes followed by the previous hash with `sha`. -/
def Crypto.HashesWith (c : Crypto) (sha : Bytes → Bytes) : Prop :=
  ∀ p prev, c.sha256 p prev = sha (p.bytes ++ prev)

/-- What the chain hash of a record depends on. -/
def TransferRecord.content (r : TransferRecord) : TransferPayload × String := (r.payload, r.prevHash)

/-- The chain hash of a content, if it has one. -/
def contentHash (c : Crypto) (content : TransferPayload × String) : Option String :=
  (Hex.decode content.2).map fun prev => Hex.encode (c.sha256 content.1 prev)

/-- The hash that a content points back to; the first record points to none. -/
def contentParent (content : TransferPayload × String) : Option (Option String) :=
  if content.1.hopIndex = 0 then none else some (some content.2)

lemma contentParent_content (r : TransferRecord) :
    contentParent r.content = if r.hopIndex = 0 then none else some (some r.prevHash) := rfl

lemma contentHash_of_computeChainHash {c : Crypto} {r : TransferRecord} {chainHash : String}
    (h : r.computeChainHash c = .ok chainHash) :
    contentHash c r.content = some chainHash ∧ Hex.Canonical chainHash := by
  obtain ⟨prev, hprev, hhash⟩ := bind_eq_ok_iff.mp h
  cases hhash
  refine ⟨?_, ⟨_, rfl⟩⟩
  rw [contentHash, TransferRecord.content, fromhex_eq_ok_iff.mp hprev, Option.map_some]

/-- Contents with one hash are equal if they spell their previous hashes canonically. -/
lemma contentHash_inj {c : Crypto} {sha : Bytes → Bytes} (hc : c.HashesWith sha)
    (hsha : Function.Injective sha) {content content' : TransferPayload × String}
    (hcanonical : Hex.Canonical content.2) (hcanonical' : Hex.Canonical content'.2)
    (h : contentHash c content = contentHash c content') : content = content' := by
  obtain ⟨p, s⟩ := content
  obtain ⟨p', s'⟩ := content'
  obtain ⟨prev, rfl⟩ := hcanonical
  obtain ⟨prev', rfl⟩ := hcanonical'
  simp only [contentHash, Hex.decode_encode, Option.map_some, Option.some.injEq] at h
  have hdigest := Hex.encode_injective h
  rw [hc, hc] at hdigest
  obtain ⟨hfields, rfl⟩ := objectBytes_append_inj (hsha hdigest)
  rw [TransferPayload.fields_injective hfields]

/-- An accepted chain is hash-linked. -/
lemma RecordsValid.hashLinked {c : Crypto} {token : Token} {records : List TransferRecord}
    {position : Nat} {previousHash : String} {previousHop : Int}
    (h : RecordsValid c token position previousHash previousHop records)
    (hhop : 0 < position → 0 ≤ previousHop) :
    HashLinked (contentHash c) contentParent
      (if position = 0 then none else some (some previousHash))
      (records.map TransferRecord.content) := by
  induction records generalizing position previousHash previousHop with
  | nil => trivial
  | cons record rest ih =>
    obtain ⟨hrecord, hrest⟩ := h
    constructor
    · rw [contentParent_content, hrecord.prevHash]
      by_cases hposition : position = 0
      · rw [if_pos (hrecord.genesisHop hposition), if_pos hposition]
      · have hprevious := hhop (Nat.pos_of_ne_zero hposition)
        have hlater : record.hopIndex ≠ 0 := by
          rcases hrecord.nextHop (Nat.pos_of_ne_zero hposition) with hnext | hone <;> omega
        rw [if_neg hlater, if_neg hposition]
    · rw [(contentHash_of_computeChainHash hrecord.chainHash).1]
      have hlinked := ih hrest
      rw [if_neg (Nat.succ_ne_zero position)] at hlinked
      apply hlinked
      intro _
      rcases Nat.eq_zero_or_pos position with hposition | hposition
      · rw [hrecord.genesisHop hposition]
      · have hprevious := hhop hposition
        rcases hrecord.nextHop hposition with hnext | hone <;> omega

/-- The previous hashes in an accepted chain are spelled canonically. -/
lemma RecordsValid.canonical {c : Crypto} {token : Token} {records : List TransferRecord}
    {position : Nat} {previousHash : String} {previousHop : Int}
    (h : RecordsValid c token position previousHash previousHop records)
    (hprevious : Hex.Canonical previousHash) : ∀ r ∈ records, Hex.Canonical r.prevHash := by
  induction records generalizing position previousHash previousHop with
  | nil => exact List.forall_mem_nil _
  | cons record rest ih =>
    have hhash := contentHash_of_computeChainHash h.1.chainHash
    exact List.forall_mem_cons.mpr ⟨h.1.prevHash ▸ hprevious, ih h.2 hhash.2⟩

lemma RecordsValid.contentHash {c : Crypto} {token : Token} {records : List TransferRecord}
    {position : Nat} {previousHash : String} {previousHop : Int}
    (h : RecordsValid c token position previousHash previousHop records) :
    ∀ r ∈ records, contentHash c r.content = some r.chainHash := by
  induction records generalizing position previousHash previousHop with
  | nil => exact List.forall_mem_nil _
  | cons record rest ih =>
    exact List.forall_mem_cons.mpr ⟨(contentHash_of_computeChainHash h.1.chainHash).1, ih h.2⟩

lemma genesisHash_eq : genesisHash = Hex.encode (List.replicate 32 0) := by decide

lemma canonical_genesisHash : Hex.Canonical genesisHash := ⟨_, genesisHash_eq⟩

/-- Two records speak of the same hand-over: they differ at most in their hash and signature. -/
structure SameTransfer (r r' : TransferRecord) : Prop where
  tokenId : r.tokenId = r'.tokenId
  hopIndex : r.hopIndex = r'.hopIndex
  sender : r.senderPubkeyHex = r'.senderPubkeyHex
  receiver : r.receiverPubkeyHex = r'.receiverPubkeyHex
  amount : r.amountSubunits = r'.amountSubunits
  nonce : r.nonce = r'.nonce
  prevHash : r.prevHash = r'.prevHash

lemma sameTransfer_iff {r r' : TransferRecord} : SameTransfer r r' ↔ r.content = r'.content := by
  constructor
  · rintro ⟨_, _, _, _, _, _, _⟩
    simp_all [TransferRecord.content, TransferRecord.payload]
  · intro h
    simp only [TransferRecord.content, TransferRecord.payload, Prod.mk.injEq,
      TransferPayload.mk.injEq] at h
    obtain ⟨⟨_, _, _, _, _, _⟩, _⟩ := h
    constructor <;> assumption

/-- The tip hash fixes the history: two accepted chains whose last records have the same chain hash
are equally long and record the same hand-overs. -/
theorem sameTransfers_of_tipHash {c : Crypto} {sha : Bytes → Bytes} (hc : c.HashesWith sha)
    (hsha : Function.Injective sha) {token token' : Token} {records records' : List TransferRecord}
    (h : validateIntegrity c token records = .ok ())
    (h' : validateIntegrity c token' records' = .ok ()) {tip tip' : TransferRecord}
    (htip : records.getLast? = some tip) (htip' : records'.getLast? = some tip')
    (hhash : tip.chainHash = tip'.chainHash) :
    records.length = records'.length ∧ ∀ (i : Nat) (r r' : TransferRecord),
      records[i]? = some r → records'[i]? = some r' → SameTransfer r r' := by
  have hvalid := (validateIntegrity_eq_ok_iff.mp h).records
  have hvalid' := (validateIntegrity_eq_ok_iff.mp h').records
  have hcontents : records.map TransferRecord.content = records'.map TransferRecord.content := by
    apply HashLinked.eq_of_getLast? _ (hvalid.hashLinked (by simp)) (hvalid'.hashLinked (by simp))
    · rw [List.getLast?_map, List.getLast?_map, htip, htip']
      have htipHash := hvalid.contentHash tip (List.mem_of_getLast? htip)
      have htipHash' := hvalid'.contentHash tip' (List.mem_of_getLast? htip')
      simp only [Option.map_some, htipHash, htipHash', hhash]
    · intro content hcontent content' hcontent'
      obtain ⟨r, hr, rfl⟩ := List.mem_map.mp hcontent
      obtain ⟨r', hr', rfl⟩ := List.mem_map.mp hcontent'
      exact contentHash_inj hc hsha (hvalid.canonical canonical_genesisHash r hr)
        (hvalid'.canonical canonical_genesisHash r' hr')
  constructor
  · simpa using congrArg List.length hcontents
  · intro i r r' hr hr'
    rw [sameTransfer_iff]
    have hi := congrArg (fun l => l[i]?) hcontents
    simpa [hr, hr'] using hi

namespace TipHash

open Custody

/-- A backend in which the digest of a text is the text. -/
def textCrypto : Crypto := { plainCrypto with sha256 := fun p prev => p.bytes ++ prev }

/-- The record of `sender` with its hash and signature, behind a record with the digest `prev`. -/
def textRecord (sender receiver : DPCKeyPair) (hopIndex : Int) (nonce : String) (prev : Bytes) :
    TransferRecord :=
  let p : TransferPayload := ⟨token.tokenId, hopIndex, sender.publicKeyHex textCrypto,
    receiver.publicKeyHex textCrypto, token.amountSubunits, nonce⟩
  let digest := textCrypto.sha256 p prev
  ⟨p.tokenId, p.hopIndex, p.senderPubkeyHex, p.receiverPubkeyHex, p.amountSubunits, p.nonce,
    Hex.encode prev, Hex.encode digest,
    textCrypto.ed25519Sign sender.privateKeyBytes (.chainHash digest)⟩

/-- The record is valid for every token of this id and amount. -/
lemma textRecord_valid {t : Token} (hid : token.tokenId = t.tokenId)
    (hamount : token.amountSubunits = t.amountSubunits) (sender receiver : DPCKeyPair)
    {position : Nat} {previousHop hopIndex : Int} (hgenesis : position = 0 → hopIndex = 0)
    (hnext : 0 < position → hopIndex = previousHop + 1 ∨ hopIndex = 1) (nonce : String)
    (prev : Bytes) : RecordValid textCrypto t position (Hex.encode prev) previousHop
      (textRecord sender receiver hopIndex nonce prev) where
  tokenId := hid
  amount := hamount
  prevHash := rfl
  genesisHop := hgenesis
  nextHop := hnext
  chainHash := by
    rw [TransferRecord.computeChainHash]
    simp only [textRecord, fromhex_encode]
    rfl
  signed := ⟨_, Hex.decode_encode _, Crypto.ed25519Verify_eq_ok_iff.mpr
    ⟨_, _, Hex.decode_encode _, Hex.decode_encode _, beq_self_eq_true _⟩⟩

/-- A chain of two records. -/
def textChain : List TransferRecord :=
  let genesis := textRecord issuer alice 0 "n0" (List.replicate 32 0)
  [genesis, textRecord alice mallory 1 "n1"
    (textCrypto.sha256 genesis.payload (List.replicate 32 0))]

/-- The chain is accepted for every signed token of this id and amount. -/
lemma validateIntegrity_textChain {t : Token} (hissuer : t.verifyIssuerSignature textCrypto = .ok ())
    (hid : token.tokenId = t.tokenId) (hamount : token.amountSubunits = t.amountSubunits) :
    validateIntegrity textCrypto t textChain = .ok () := by
  have hgenesis : RecordValid textCrypto t 0 (Hex.encode (List.replicate 32 0)) (-1) _ :=
    textRecord_valid hid hamount issuer alice (fun _ => rfl)
      (fun hposition => absurd hposition (Nat.lt_irrefl 0)) "n0" _
  rw [← genesisHash_eq] at hgenesis
  have hspend : ∀ prev, RecordValid textCrypto t 1 (Hex.encode prev) 0
      (textRecord alice mallory 1 "n1" prev) := fun prev =>
    textRecord_valid hid hamount alice mallory (fun hposition => absurd hposition Nat.one_ne_zero)
      (fun _ => .inr rfl) "n1" prev
  exact validateIntegrity_eq_ok_iff.mpr
    ⟨hissuer, ⟨_, rfl, by decide⟩, hgenesis, hspend _, trivial⟩

end TipHash

/-- A chain that is accepted for two tokens. -/
theorem sameTransfers_of_tipHash_textChain :
    TipHash.textChain.length = TipHash.textChain.length ∧ ∀ (i : Nat) (r r' : TransferRecord),
      TipHash.textChain[i]? = some r → TipHash.textChain[i]? = some r' → SameTransfer r r' := by
  have hc : TipHash.textCrypto.HashesWith id := fun _ _ => rfl
  exact sameTransfers_of_tipHash hc Function.injective_id
    (TipHash.validateIntegrity_textChain (t := Custody.token) (by decide +kernel) rfl rfl)
    (TipHash.validateIntegrity_textChain (t := Custody.plainToken Custody.issuer "t1" 500 2000)
      (by decide +kernel) rfl rfl) rfl rfl rfl

end PocketCash.Dpc
