import PocketCash.Library.Base64
import PocketCash.Library.Ed25519
import PocketCash.Library.JsonSorted
import PocketCash.Canonical.History

/-!
# Signatures over bytes

`crypto/signatures.py`, and the bytes that tokens and transfers sign and hash. Keys and signatures
are base64 texts, messages are JSON texts. Ed25519 over raw bytes and SHA-256 are parameters.

The bytes determine the message, so what an accepted token shows under the key of an honest signer,
that signer has signed.
-/

namespace PocketCash.Canonical

/-! ### Keys and signatures as texts -/

section

variable (e : Ed25519)

/-- Generate an Ed25519 keypair in base64 format, from the private key that was drawn. -/
def generateKeypair (privateKey : Key) : String × String :=
  (Base64.encode privateKey.val, Base64.encode (e.publicKey privateKey).val)

/-- Sign a message with an Ed25519 private key. -/
def signMessage (sk : String) (message : Bytes) : Except PyError String := do
  let privateBytes ← Base64.decode sk
  let privateKey ← privateKeyFromBytes privateBytes
  return Base64.encode (e.sign privateKey message)

/-- The body of `verify_signature` up to the signature check. -/
def readVerification (pk sig : String) : Except PyError (Key × Bytes) := do
  let publicBytes ← Base64.decode pk
  let signatureBytes ← Base64.decode sig
  let publicKey ← publicKeyFromBytes publicBytes
  return (publicKey, signatureBytes)

/-- Verify an Ed25519 signature. Every exception on the way is a `ValueError`. -/
def verifySignature (pk : String) (message : Bytes) (sig : String) : Bool :=
  match readVerification pk sig with
  | .ok (publicKey, signatureBytes) => e.verify publicKey message signatureBytes
  | .error _ => false

variable {e} {pk sig : String} {message : Bytes}

lemma readVerification_eq_ok_iff {publicKey : Key} {signature : Bytes} :
    readVerification pk sig = .ok (publicKey, signature) ↔
      Base64.decode pk = .ok publicKey.val ∧ Base64.decode sig = .ok signature := by
  simp only [readVerification, bind_eq_ok_iff, publicKeyFromBytes, keyFromBytes_eq_ok_iff,
    pure_eq_ok, Except.ok.injEq, Prod.mk.injEq]
  constructor
  · rintro ⟨_, hpk, _, hsig, key, rfl, rfl, rfl⟩
    exact ⟨hpk, hsig⟩
  · rintro ⟨hpk, hsig⟩
    exact ⟨_, hpk, _, hsig, _, rfl, rfl, rfl⟩

/-- A signature is accepted as the bytes it is read as, under the key that the text is read as. -/
lemma verifySignature_iff : verifySignature e pk message sig = true ↔
    ∃ (publicKey : Key) (signature : Bytes), Base64.decode pk = .ok publicKey.val ∧
      Base64.decode sig = .ok signature ∧ e.verify publicKey message signature = true := by
  rw [verifySignature]
  constructor
  · intro h
    split at h
    · rename_i publicKey signature hread
      obtain ⟨hpk, hsig⟩ := readVerification_eq_ok_iff.mp hread
      exact ⟨publicKey, signature, hpk, hsig, h⟩
    · cases h
  · rintro ⟨publicKey, signature, hpk, hsig, hverify⟩
    rw [readVerification_eq_ok_iff.mpr ⟨hpk, hsig⟩]
    exact hverify

lemma signMessage_generateKeypair (privateKey : Key) (message : Bytes) :
    signMessage e (generateKeypair e privateKey).1 message
      = .ok (Base64.encode (e.sign privateKey message)) := by
  simp [signMessage, generateKeypair, privateKeyFromBytes]

lemma verifySignature_generateKeypair (privateKey : Key) (signature : Bytes) :
    verifySignature e (generateKeypair e privateKey).2 message (Base64.encode signature)
      = e.verify (e.publicKey privateKey) message signature := by
  have hread := readVerification_eq_ok_iff.mpr
    ⟨Base64.decode_encode (e.publicKey privateKey).val, Base64.decode_encode signature⟩
  rw [verifySignature, generateKeypair, hread]

end

/-! ### Messages -/

open JsonEncoding

/-- The dictionary of `Token.issuance_dict`. -/
def IssuanceDict.toDict (d : IssuanceDict) : Json := .dict [
  ("token_id", .str d.tokenId),
  ("value", .int d.value),
  ("issuer_pk", .str d.issuerPk),
  ("owner_pk", .str d.ownerPk),
  ("expiry", .str d.expiry)]

/-- The dictionary of `TransferRecord.signing_dict`. -/
def SigningDict.toDict (d : SigningDict) : Json := .dict [
  ("transfer_id", .str d.transferId),
  ("token_id", .str d.tokenId),
  ("sender_pk", .str d.senderPk),
  ("receiver_pk", .str d.receiverPk),
  ("nonce", .int d.nonce),
  ("parent_transfer_id", Json.ofOptStr d.parentTransferId),
  ("prev_transfer_hash", Json.ofOptStr d.prevTransferHash),
  ("timestamp", .str d.timestamp)]

/-- `Token.issuance_payload` and `TransferRecord.signing_payload`. -/
def Message.bytes : Message → Bytes
  | .issuance payload => sortedBytes payload.toDict
  | .transfer payload => documentBytes payload.toDict

/-- `TransferRecord.payload_bytes`. -/
def TransferRecord.payloadBytes (r : TransferRecord) : Bytes := documentBytes r.toDict

/-- The backend with its texts and bytes. -/
def Crypto.ofEd25519 (e : Ed25519) (sha256 : Bytes → Bytes) : Crypto where
  signMessage sk m := Canonical.signMessage e sk m.bytes
  verifySignature pk m sig := Canonical.verifySignature e pk m.bytes sig
  payloadDigest r := Hex.encode (sha256 r.payloadBytes)

lemma IssuanceDict.isFlat_toDict (d : IssuanceDict) : IsFlat d.toDict := by
  apply IsFlat.dict
  · simp only [List.forall_mem_cons]
    exact ⟨.str _, .int _, .str _, .str _, .str _, by simp⟩
  · simp

lemma SigningDict.isFlat_toDict (d : SigningDict) : IsFlat d.toDict := by
  apply IsFlat.dict
  · simp only [List.forall_mem_cons]
    exact ⟨.str _, .str _, .str _, .str _, .int _, .ofOptStr _, .ofOptStr _, .str _, by simp⟩
  · simp

lemma IssuanceDict.toDict_injective : Function.Injective IssuanceDict.toDict := by
  rintro ⟨_, _, _, _, _⟩ ⟨_, _, _, _, _⟩ h
  simp_all [IssuanceDict.toDict]

lemma SigningDict.toDict_injective : Function.Injective SigningDict.toDict := by
  rintro ⟨_, _, _, _, _, _, _, _⟩ ⟨_, _, _, _, _, _, _, _⟩ h
  simp_all [SigningDict.toDict, Json.ofOptStr_injective.eq_iff]

/-- Only what an issuer signs has an expiry. -/
lemma sortKeys_toDict_ne (d : IssuanceDict) (d' : SigningDict) : sortKeys d.toDict ≠ d'.toDict := by
  intro h
  have hitem := d.isFlat_toDict.sameFields_sortKeys.getItem "expiry"
  rw [h] at hitem
  cases hitem

/-- The signed bytes determine the message. -/
lemma Message.bytes_injective : Function.Injective Message.bytes := by
  rintro (d | d) (d' | d') h
  · rw [IssuanceDict.toDict_injective
      (d.isFlat_toDict.eq_of_sortedBytes_eq d'.isFlat_toDict rfl h)]
  · exact absurd (documentBytes_inj d.isFlat_toDict.wellFormed.sortKeys d'.isFlat_toDict.wellFormed h)
      (sortKeys_toDict_ne d d')
  · exact absurd
      (documentBytes_inj d.isFlat_toDict.wellFormed d'.isFlat_toDict.wellFormed.sortKeys h).symm
      (sortKeys_toDict_ne d' d)
  · rw [SigningDict.toDict_injective
      (documentBytes_inj d.isFlat_toDict.wellFormed d'.isFlat_toDict.wellFormed h)]

/-! ### Generated keys -/

/-- `DictKeyStore.add_keypair`. -/
def addKeypair (keys : Dict String String) (privateKey publicKey : String) : Dict String String :=
  keys.set publicKey privateKey

section

/-- A key store with the pairs generated from `privateKeys`. -/
def generatedKeys (e : Ed25519) (privateKeys : List Key) : Dict String String :=
  privateKeys.foldl (fun keys privateKey =>
    addKeypair keys (generateKeypair e privateKey).1 (generateKeypair e privateKey).2) .empty

variable {e : Ed25519} {sha256 : Bytes → Bytes} {privateKeys : List Key}

/-- What a generated private key signs verifies under its public key. -/
lemma keyPair_generateKeypair (he : e.Correct) (privateKey : Key) :
    (Crypto.ofEd25519 e sha256).KeyPair (generateKeypair e privateKey).1
      (generateKeypair e privateKey).2 := by
  intro m
  refine ⟨_, signMessage_generateKeypair privateKey m.bytes, ?_⟩
  exact (verifySignature_generateKeypair privateKey _).trans (he privateKey m.bytes)

/-- All pairs in the key store were generated together. -/
lemma exists_of_mem_generatedKeys {publicKey sk : String}
    (h : (publicKey, sk) ∈ (generatedKeys e privateKeys).items) :
    ∃ privateKey, generateKeypair e privateKey = (sk, publicKey) := by
  have hkept : ∀ entry ∈ (generatedKeys e privateKeys).items,
      ∃ privateKey, generateKeypair e privateKey = (entry.2, entry.1) := by
    apply runFrom_invariant (I := fun keys : Dict String String =>
      ∀ entry ∈ keys.items, ∃ privateKey, generateKeypair e privateKey = (entry.2, entry.1))
    · intro keys privateKey hkeys
      exact KeyedList.forall_mem_put hkeys ⟨privateKey, rfl⟩
    · simp [KeyedList.empty]
  exact hkept _ h

/-- Every generated pair is in the key store. -/
lemma mem_generatedKeys {privateKey : Key} (h : privateKey ∈ privateKeys) :
    (generateKeypair e privateKey).2 ∈ (generatedKeys e privateKeys).keys := by
  rw [generatedKeys]
  generalize (KeyedList.empty : Dict String String) = keys
  induction privateKeys generalizing keys with
  | nil => cases h
  | cons first rest ih =>
    rw [List.foldl_cons]
    rcases List.mem_cons.mp h with rfl | hrest
    · -- later pairs only add keys
      apply runFrom_invariant (I := fun keys : Dict String String =>
        (generateKeypair e privateKey).2 ∈ keys.keys)
      · intro keys _ hkeys
        exact Dict.mem_keys_set.mpr (.inr hkeys)
      · exact Dict.mem_keys_set.mpr (.inl rfl)
    · exact ih hrest _

lemma keyPair_generatedKeys (he : e.Correct) {publicKey : String}
    (h : publicKey ∈ (generatedKeys e privateKeys).keys) :
    ∃ sk, dictKeyStore (generatedKeys e privateKeys) publicKey = .ok sk ∧
      (Crypto.ofEd25519 e sha256).KeyPair sk publicKey := by
  obtain ⟨sk, hsk⟩ := Dict.mem_keys_iff_get?.mp h
  obtain ⟨privateKey, hpair⟩ := exists_of_mem_generatedKeys (Dict.get?_eq_some_iff.mp hsk)
  have hkey := @keyPair_generateKeypair e sha256 he privateKey
  rw [hpair] at hkey
  exact ⟨sk, by rw [dictKeyStore, hsk], hkey⟩

end

/-! ### From the mint through many hands -/

/-- `mint` of `scripts/run_demo.py`. -/
def mint (c : Crypto) (issuerSk issuerPk ownerPk tokenId : String) (value : Int) :
    Except PyError Token := do
  let token : Token := ⟨tokenId, value, issuerPk, ownerPk, "2030-01-01T00:00:00+00:00", "", []⟩
  let issuerSignature ← c.signMessage issuerSk (.issuance (token.issuanceDict token.ownerPk))
  return { token with issuerSignature := issuerSignature }

/-- The token goes from hand to hand: each owner looks up the private key and appends a transfer to
the next one. -/
def handAlong (c : Crypto) (keystore : KeyStore) (t : Token) :
    List (Stamp × String) → Except PyError Token
  | [] => .ok t
  | (stamp, receiverPk) :: rest => do
    let senderSk ← keystore t.ownerPk
    let t' ← t.appendTransfer c stamp senderSk receiverPk
    handAlong c keystore t' rest

/-- What becomes of a token on its way: only its owner and its chain change, and the chain lists
those that it was handed to. -/
structure Token.HandedAlong (t t' : Token) (receivers : List String) : Prop where
  tokenId : t'.tokenId = t.tokenId
  value : t'.value = t.value
  issuerPk : t'.issuerPk = t.issuerPk
  transferChain : t'.transferChain.map TransferRecord.receiverPk
    = t.transferChain.map TransferRecord.receiverPk ++ receivers
  ownerPk : t'.ownerPk = receivers.getLastD t.ownerPk

lemma exists_mint {c : Crypto} {issuerSk issuerPk : String} (hkey : c.KeyPair issuerSk issuerPk)
    (ownerPk tokenId : String) (value : Int) :
    ∃ t, mint c issuerSk issuerPk ownerPk tokenId value = .ok t ∧
      t.validateChain c issuerPk = true ∧ t.tokenId = tokenId ∧ t.value = value ∧
      t.ownerPk = ownerPk ∧ t.transferChain = [] := by
  let token : Token := ⟨tokenId, value, issuerPk, ownerPk, "2030-01-01T00:00:00+00:00", "", []⟩
  obtain ⟨signature, hsign, hverify⟩ := hkey (.issuance (token.issuanceDict token.ownerPk))
  refine ⟨{ token with issuerSignature := signature }, ?_, ?_, rfl, rfl, rfl, rfl⟩
  · rw [mint, hsign]
    rfl
  · rw [Token.validateChain_eq_true_iff]
    exact ⟨hverify, beq_self_eq_true _⟩

/-- Along any way a valid token stays valid. -/
lemma exists_handAlong {c : Crypto} {keystore : KeyStore} {hops : List (Stamp × String)} {t : Token}
    {issuerPk : String} (hvalid : t.validateChain c issuerPk = true)
    (hgivers : ∀ giver ∈ (t.ownerPk :: hops.map Prod.snd).dropLast,
      ∃ sk, keystore giver = .ok sk ∧ c.KeyPair sk giver) :
    ∃ t', handAlong c keystore t hops = .ok t' ∧ t'.validateChain c issuerPk = true ∧
      t.HandedAlong t' (hops.map Prod.snd) := by
  induction hops generalizing t with
  | nil => exact ⟨t, rfl, hvalid, rfl, rfl, rfl, by simp, rfl⟩
  | cons hop rest ih =>
    obtain ⟨stamp, receiverPk⟩ := hop
    simp only [List.map_cons, List.dropLast_cons_cons, List.forall_mem_cons] at hgivers
    obtain ⟨⟨sk, hsk, hkey⟩, hgivers⟩ := hgivers
    obtain ⟨t₁, happend, hvalid₁⟩ :=
      Token.exists_valid_appendTransfer hkey hvalid stamp receiverPk
    obtain ⟨record, hrecord⟩ := (Token.extends_of_appendTransfer happend).eq
    have howner : t₁.ownerPk = receiverPk := by rw [hrecord]
    obtain ⟨t', hrest, hvalid', hhanded⟩ := ih hvalid₁ (howner ▸ hgivers)
    refine ⟨t', ?_, hvalid', ?_⟩
    · rw [handAlong, hsk, ok_bind, happend, ok_bind, hrest]
    · subst hrecord
      obtain ⟨htoken, hvalue, hissuer, hchain, hlast⟩ := hhanded
      refine ⟨htoken, hvalue, hissuer, ?_, ?_⟩
      · have hreceiver : record.receiverPk = receiverPk := by
          simpa using (Token.validateChain_iff.mp hvalid₁).owner record
        rw [hchain, List.map_append, List.map_singleton, hreceiver, List.append_assoc]
        rfl
      · rw [hlast, List.map_cons, List.getLastD_cons]

/-- Signing and verifying agree over whole histories: a token that is minted with a generated key
and goes on through any number of generated owners is accepted at the end, names all of them in
order, and belongs to the last one. -/
theorem handAlong_generated {e : Ed25519} (he : e.Correct) (sha256 : Bytes → Bytes)
    (privateKeys : List Key) (issuer : Key) (ownerPk tokenId : String) (value : Int)
    (hops : List (Stamp × String))
    (hgivers : ∀ giver ∈ (ownerPk :: hops.map Prod.snd).dropLast,
      giver ∈ (generatedKeys e privateKeys).keys) :
    let c := Crypto.ofEd25519 e sha256
    let issuerPk := (generateKeypair e issuer).2
    ∃ minted t, mint c (generateKeypair e issuer).1 issuerPk ownerPk tokenId value = .ok minted ∧
      handAlong c (dictKeyStore (generatedKeys e privateKeys)) minted hops = .ok t ∧
      t.validateChain c issuerPk = true ∧ t.tokenId = tokenId ∧ t.value = value ∧
      t.transferChain.map TransferRecord.receiverPk = hops.map Prod.snd ∧
      t.ownerPk = (hops.map Prod.snd).getLastD ownerPk := by
  intro c issuerPk
  obtain ⟨minted, hmint, hvalid, rfl, rfl, rfl, hchain⟩ :=
    exists_mint (keyPair_generateKeypair he issuer) ownerPk tokenId value
  obtain ⟨t, halong, hvalid', hhanded⟩ := exists_handAlong hvalid
    fun giver hgiver => keyPair_generatedKeys he (hgivers giver hgiver)
  have hreceivers := hhanded.transferChain
  rw [hchain] at hreceivers
  exact ⟨minted, t, hmint, halong, hvalid', hhanded.tokenId, hhanded.value, hreceivers,
    hhanded.ownerPk⟩

def plainPk (b : UInt8) : String := (generateKeypair .plain (rawKey b)).2

/-- The note of one holder goes to another one and on to a third. -/
theorem handAlong_generated_note :
    let c := Crypto.ofEd25519 .plain List.reverse
    ∃ minted t, mint c (generateKeypair .plain (rawKey 9)).1 (plainPk 9) (plainPk 1) "a-10" 10
        = .ok minted ∧
      handAlong c (dictKeyStore (generatedKeys .plain [rawKey 1, rawKey 2])) minted
        [(plainStamp "t" 0, plainPk 2), (plainStamp "t" 1, plainPk 3)] = .ok t ∧
      t.validateChain c (plainPk 9) = true ∧ t.tokenId = "a-10" ∧ t.value = 10 ∧
      t.transferChain.map TransferRecord.receiverPk = [plainPk 2, plainPk 3] ∧
      t.ownerPk = plainPk 3 :=
  handAlong_generated Ed25519.plain_correct List.reverse [rawKey 1, rawKey 2] (rawKey 9)
    (plainPk 1) "a-10" 10 [(plainStamp "t" 0, plainPk 2), (plainStamp "t" 1, plainPk 3)]
    (List.forall_mem_cons.mpr ⟨mem_generatedKeys (by simp),
      List.forall_mem_cons.mpr ⟨mem_generatedKeys (by simp), by simp⟩⟩)

/-! ### What honest signers have signed -/

lemma asked_of_verifySignature {e : Ed25519} {sha256 : Bytes → Bytes} {honest : Key → Prop}
    {asked : Key → Message → Prop} (he : e.Unforgeable (fun _ => Message.bytes) honest asked)
    {key : Key} {pk sig : String} {m : Message} (hpk : Base64.decode pk = .ok key.val)
    (hkey : honest key) (h : (Crypto.ofEd25519 e sha256).verifySignature pk m sig = true) :
    asked key m := by
  obtain ⟨key', signature, hpk', -, hverify⟩ := verifySignature_iff.mp h
  rw [hpk] at hpk'
  obtain rfl : key = key' := Subtype.ext (Except.ok.inj hpk')
  exact he.asked hkey Message.bytes_injective hverify

/-- The backend in which the holders of the keys have signed what the table says. -/
def tableCrypto (table : List (Key × Message)) : Crypto :=
  .ofEd25519 (.ofTable (fun _ => Message.bytes) table) List.reverse

lemma verifySignature_tableCrypto {table : List (Key × Message)} {key : Key} {m : Message}
    {pk sig : String} (h : (key, m) ∈ table) (hpk : Base64.decode pk = .ok key.val)
    (hsig : Base64.decode sig = .ok m.bytes) :
    (tableCrypto table).verifySignature pk m sig = true :=
  verifySignature_iff.mpr ⟨key, m.bytes, hpk, hsig, Ed25519.verify_ofTable h⟩

lemma decode_plainPk (b : UInt8) :
    Base64.decode (plainPk b) = .ok (Ed25519.plain.publicKey (rawKey b)).val :=
  Base64.decode_encode _

namespace SignedNote

variable (issuerPk ownerPk receiverPk : String)

def issuance : IssuanceDict :=
  ⟨"tok-s", 10, issuerPk, ownerPk, "2030-01-01T00:00:00+00:00"⟩

def transfer : SigningDict :=
  ⟨"t0", "tok-s", ownerPk, receiverPk, 1, none, none, "2026-03-01T09:00:00"⟩

def record : TransferRecord :=
  ⟨"t0", "tok-s", ownerPk, receiverPk, 1, none, none, "2026-03-01T09:00:00",
    Base64.encode (Message.transfer (transfer ownerPk receiverPk)).bytes⟩

/-- A note that its first owner has passed on. -/
def note : Token :=
  ⟨"tok-s", 10, issuerPk, receiverPk, "2030-01-01T00:00:00+00:00",
    Base64.encode (Message.issuance (issuance issuerPk ownerPk)).bytes,
    [record ownerPk receiverPk]⟩

/-- The issuer signs the issuance, and the owner the transfer. -/
def table (issuer owner : Key) : List (Key × Message) :=
  [(issuer, .issuance (issuance issuerPk ownerPk)), (owner, .transfer (transfer ownerPk receiverPk))]

variable {issuerPk ownerPk receiverPk}

lemma validateChain_note {issuer owner : Key} (hissuer : Base64.decode issuerPk = .ok issuer.val)
    (howner : Base64.decode ownerPk = .ok owner.val) :
    (note issuerPk ownerPk receiverPk).validateChain
      (tableCrypto (table issuerPk ownerPk receiverPk issuer owner)) issuerPk = true := by
  apply Token.validateChain_iff.mpr
  refine ⟨rfl, ?_, ?_, ?_⟩
  · exact verifySignature_tableCrypto List.mem_cons_self hissuer (Base64.decode_encode _)
  · intro i r hr
    obtain ⟨rfl, rfl⟩ : i = 0 ∧ r = record ownerPk receiverPk := by
      cases i with
      | zero => exact ⟨rfl, (Option.some.inj hr).symm⟩
      | succ i => cases hr
    have hmem : (owner, .transfer (transfer ownerPk receiverPk))
        ∈ table issuerPk ownerPk receiverPk issuer owner :=
      List.mem_cons_of_mem _ List.mem_cons_self
    have hsigned := verifySignature_tableCrypto hmem howner (Base64.decode_encode _)
    exact ⟨rfl, rfl, hsigned, by simp [Token.previousTransfer], rfl, rfl⟩
  · intro last hlast
    cases hlast
    rfl

end SignedNote

/-- An accepted token is what honest signers made it: an honest issuer was asked to sign its
issuance, and each honest sender in its chain to sign just that transfer, not another message with
the same bytes. -/
theorem asked_of_validateChain {e : Ed25519} {honest : Key → Prop} {asked : Key → Message → Prop}
    (he : e.Unforgeable (fun _ => Message.bytes) honest asked) (sha256 : Bytes → Bytes) {t : Token}
    {issuerPk : String}
    (hvalid : t.validateChain (Crypto.ofEd25519 e sha256) issuerPk = true) :
    (∀ key : Key, Base64.decode issuerPk = .ok key.val → honest key →
      asked key (.issuance (t.issuanceDict t.issuedOwnerPk))) ∧
    ∀ r ∈ t.transferChain, ∀ key : Key, Base64.decode r.senderPk = .ok key.val → honest key →
      asked key (.transfer r.signingDict) := by
  obtain ⟨rfl, hissuance, htransfers, -⟩ := Token.validateChain_iff.mp hvalid
  constructor
  · intro key hpk hkey
    exact asked_of_verifySignature he hpk hkey hissuance
  · intro r hr key hpk hkey
    obtain ⟨i, hi⟩ := List.getElem?_of_mem hr
    exact asked_of_verifySignature he hpk hkey (htransfers i r hi).signed

/-- The first owner of a note was asked for the transfer in it. -/
theorem asked_of_validateChain_signedNote :
    let note := SignedNote.note (plainPk 9) (plainPk 1) (plainPk 2)
    let table := SignedNote.table (plainPk 9) (plainPk 1) (plainPk 2)
      (Ed25519.plain.publicKey (rawKey 9)) (Ed25519.plain.publicKey (rawKey 1))
    (∀ key : Key, Base64.decode (plainPk 9) = .ok key.val → True →
      (key, Message.issuance (note.issuanceDict note.issuedOwnerPk)) ∈ table) ∧
    ∀ r ∈ note.transferChain, ∀ key : Key, Base64.decode r.senderPk = .ok key.val → True →
      (key, Message.transfer r.signingDict) ∈ table :=
  asked_of_validateChain (Ed25519.ofTable_unforgeable _ _) List.reverse
    (SignedNote.validateChain_note (decode_plainPk 9) (decode_plainPk 1))

end PocketCash.Canonical
