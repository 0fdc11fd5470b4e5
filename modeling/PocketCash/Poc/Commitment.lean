import PocketCash.Poc.Transfer

/-!
# What a chain hash commits to

`build_tx_payload` and `compute_chain_hash` write five parts one after the other, without their
lengths. So the hash commits to the byte string and not to the places where it is cut: the previous
hash may be read as the end of the nonce. Parts of the same lengths are bound, but not the way in which
they are spelled.
-/

namespace PocketCash

/-- A text of zeros. -/
def zeros (n : ℕ) : String := String.ofList (List.replicate n '0')

lemma utf8_zeros (n : ℕ) : utf8 (zeros n) = List.replicate n 0x30 := by
  induction n with
  | zero => rfl
  | succ n ih =>
    have hcons : zeros (n + 1) = "0" ++ zeros n := by simp [zeros, List.replicate_succ]
    rw [hcons, utf8_append, ih]
    rfl

namespace Poc

/-! ### The parts -/

/-- The arguments of `build_tx_payload` and `compute_chain_hash`. -/
structure HashedTransfer where
  tokenId : String
  nextOwnerPubkeyHex : String
  amount : PyFloat
  nonceHex : String
  prevChainHash : String
  deriving DecidableEq

/-- `compute_chain_hash(build_tx_payload(...), prev_chain_hash)`. -/
def HashedTransfer.chainHash (c : Crypto) (x : HashedTransfer) : Except PyError String := do
  let payload ← buildTxPayload c x.tokenId x.nextOwnerPubkeyHex x.amount x.nonceHex
  computeChainHash c payload x.prevChainHash

/-- The arguments with their hexadecimal texts decoded. -/
structure TransferParts where
  tokenId : String
  nextOwner : Bytes
  amount : PyFloat
  nonce : Bytes
  prev : Bytes
  deriving DecidableEq

/-- How many bytes the parts have, and whether there is a previous hash. -/
structure TransferShape where
  tokenId : ℕ
  nextOwner : ℕ
  nonce : ℕ
  later : Bool
  deriving DecidableEq

/-- The bytes of the parts, without the eight of the amount. -/
def TransferShape.size (shape : TransferShape) : ℕ :=
  shape.tokenId + shape.nextOwner + shape.nonce + if shape.later then 32 else 0

namespace TransferParts

/-- What is hashed. -/
def bytes (c : Crypto) (p : TransferParts) : Bytes :=
  utf8 p.tokenId ++ p.nextOwner ++ c.packDouble p.amount ++ p.nonce ++ p.prev

def shape (p : TransferParts) : TransferShape where
  tokenId := (utf8 p.tokenId).length
  nextOwner := p.nextOwner.length
  nonce := p.nonce.length
  later := p.prev ≠ []

/-- The amount is a double, and the previous hash is empty or a digest. -/
structure WellFormed (doubles : Set PyFloat) (p : TransferParts) : Prop where
  amount : p.amount ∈ doubles
  prev : p.prev = [] ∨ p.prev.length = 32

/-- One byte string that is cut at different places. -/
def Recut (c : Crypto) (p p' : TransferParts) : Prop := p.shape ≠ p'.shape ∧ p.bytes c = p'.bytes c

/-- The parts as `bytes.hex` writes them. -/
def written (p : TransferParts) : HashedTransfer :=
  ⟨p.tokenId, Hex.encode p.nextOwner, p.amount, Hex.encode p.nonce, Hex.encode p.prev⟩

end TransferParts

/-- The parts that are read from the arguments. -/
def HashedTransfer.parts? (x : HashedTransfer) : Option TransferParts := do
  let nextOwner ← Hex.decode x.nextOwnerPubkeyHex
  let nonce ← Hex.decode x.nonceHex
  let prev ← Hex.decode x.prevChainHash
  return ⟨x.tokenId, nextOwner, x.amount, nonce, prev⟩

/-- Two spellings of the same parts, in upper and lower case or with white space. -/
def HashedTransfer.Respelled (x y : HashedTransfer) : Prop := x ≠ y ∧ x.parts? = y.parts?

/-- `struct.pack(">d", x)` writes doubles as eight bytes, different ones differently, and one of them as
eight times the digit zero. -/
structure Crypto.PacksDoubles (c : Crypto) (doubles : Set PyFloat) : Prop where
  length : ∀ x ∈ doubles, (c.packDouble x).length = 8
  injOn : Set.InjOn c.packDouble doubles
  digits : ∃ x ∈ doubles, c.packDouble x = List.replicate 8 0x30

variable {c : Crypto} {doubles : Set PyFloat} {x y : HashedTransfer} {p p' : TransferParts}

lemma parts?_written (p : TransferParts) : p.written.parts? = some p := by
  simp [HashedTransfer.parts?, TransferParts.written]

/-- The chain hash is that of the bytes. -/
lemma chainHash_of_parts (h : x.parts? = some p) :
    x.chainHash c = .ok (Hex.encode (c.sha256 (p.bytes c))) := by
  simp only [HashedTransfer.parts?, Option.bind_eq_bind, Option.bind_eq_some_iff, Option.pure_def,
    Option.some.injEq] at h
  obtain ⟨nextOwner, hnextOwner, nonce, hnonce, prev, hprev, rfl⟩ := h
  have hhash : ∀ payload, computeChainHash c payload x.prevChainHash
      = .ok (Hex.encode (c.sha256 (payload ++ prev))) := by
    intro payload
    rw [computeChainHash]
    split_ifs with hnone
    · rw [hnone] at hprev
      obtain rfl : [] = prev := Option.some.inj hprev
      rfl
    · rw [fromhex_eq_ok_iff.mpr hprev]
      rfl
  simp only [HashedTransfer.chainHash, buildTxPayload, fromhex_eq_ok_iff.mpr hnextOwner,
    fromhex_eq_ok_iff.mpr hnonce, ok_bind, pure_eq_ok, hhash]
  rfl

lemma chainHash_eq_iff (hsha : Function.Injective c.sha256) (hx : x.parts? = some p)
    (hy : y.parts? = some p') : x.chainHash c = y.chainHash c ↔ p.bytes c = p'.bytes c := by
  rw [chainHash_of_parts hx, chainHash_of_parts hy, Except.ok.injEq, Hex.encode_injective.eq_iff,
    hsha.eq_iff]

/-! ### Shapes -/

lemma length_prev (h : p.WellFormed doubles) :
    p.prev.length = if p.shape.later then 32 else 0 := by
  rcases h.prev with hempty | hdigest
  · simp [TransferParts.shape, hempty]
  · have hne : p.prev ≠ [] := fun hempty => by simp [hempty] at hdigest
    simp [TransferParts.shape, hne, hdigest]

lemma length_bytes (hpacks : c.PacksDoubles doubles) (h : p.WellFormed doubles) :
    (p.bytes c).length = p.shape.size + 8 := by
  simp only [TransferParts.bytes, List.length_append, length_prev h, hpacks.length _ h.amount]
  simp only [TransferShape.size, TransferParts.shape]
  omega

/-- Parts of the same lengths are bound by what is hashed. -/
lemma eq_of_bytes_eq (hpacks : c.PacksDoubles doubles) (h : p.WellFormed doubles)
    (h' : p'.WellFormed doubles) (hshape : p.shape = p'.shape) (hbytes : p.bytes c = p'.bytes c) :
    p = p' := by
  have hprev : p.prev.length = p'.prev.length := by rw [length_prev h, length_prev h', hshape]
  have hlengths := hshape
  simp only [TransferParts.shape, TransferShape.mk.injEq] at hlengths
  obtain ⟨htokenId, hnextOwner, hnonce, -⟩ := hlengths
  have hamount : (c.packDouble p.amount).length = (c.packDouble p'.amount).length := by
    rw [hpacks.length _ h.amount, hpacks.length _ h'.amount]
  obtain ⟨hfour, hprevs⟩ := List.append_inj' hbytes hprev
  obtain ⟨hthree, hnonces⟩ := List.append_inj' hfour hnonce
  obtain ⟨htwo, hamounts⟩ := List.append_inj' hthree hamount
  obtain ⟨htokenIds, hnextOwners⟩ := List.append_inj' htwo hnextOwner
  obtain ⟨tokenId, nextOwner, amount, nonce, prev⟩ := p
  obtain ⟨tokenId', nextOwner', amount', nonce', prev'⟩ := p'
  obtain rfl : tokenId = tokenId' := utf8_injective htokenIds
  obtain rfl : amount = amount' := hpacks.injOn h.amount h'.amount hamounts
  obtain rfl : nextOwner = nextOwner' := hnextOwners
  obtain rfl : nonce = nonce' := hnonces
  obtain rfl : prev = prev' := hprevs
  rfl

/-- The parts of a shape that are all zeros. -/
def zeroParts (amount : PyFloat) (shape : TransferShape) : TransferParts where
  tokenId := zeros shape.tokenId
  nextOwner := List.replicate shape.nextOwner 0x30
  amount := amount
  nonce := List.replicate shape.nonce 0x30
  prev := List.replicate (if shape.later then 32 else 0) 0x30

lemma shape_zeroParts (amount : PyFloat) (shape : TransferShape) :
    (zeroParts amount shape).shape = shape := by
  obtain ⟨tokenId, nextOwner, nonce, later⟩ := shape
  cases later <;> simp [TransferParts.shape, zeroParts, utf8_zeros, List.replicate_succ]

lemma wellFormed_zeroParts {amount : PyFloat} (hamount : amount ∈ doubles) (shape : TransferShape) :
    (zeroParts amount shape).WellFormed doubles := by
  refine ⟨hamount, ?_⟩
  obtain ⟨tokenId, nextOwner, nonce, later⟩ := shape
  cases later <;> simp [zeroParts]

lemma bytes_zeroParts {amount : PyFloat} (hamount : c.packDouble amount = List.replicate 8 0x30)
    (shape : TransferShape) :
    (zeroParts amount shape).bytes c = List.replicate (shape.size + 8) 0x30 := by
  simp only [TransferParts.bytes, zeroParts, utf8_zeros, hamount, List.replicate_append_replicate,
    TransferShape.size]
  congr 1
  omega

/-- A byte string of two shapes exists exactly if they are of one size. -/
lemma exists_recut_iff (hpacks : c.PacksDoubles doubles) (shape shape' : TransferShape) :
    (∃ p p' : TransferParts, p.WellFormed doubles ∧ p'.WellFormed doubles ∧ p.shape = shape ∧
      p'.shape = shape' ∧ p.Recut c p') ↔ shape ≠ shape' ∧ shape.size = shape'.size := by
  constructor
  · rintro ⟨p, p', h, h', rfl, rfl, hne, hbytes⟩
    have hlength := congrArg List.length hbytes
    rw [length_bytes hpacks h, length_bytes hpacks h'] at hlength
    exact ⟨hne, by omega⟩
  · rintro ⟨hne, hsize⟩
    obtain ⟨amount, hamount, hdigits⟩ := hpacks.digits
    refine ⟨zeroParts amount shape, zeroParts amount shape', wellFormed_zeroParts hamount shape,
      wellFormed_zeroParts hamount shape', shape_zeroParts _ _, shape_zeroParts _ _, ?_, ?_⟩
    · rwa [shape_zeroParts, shape_zeroParts]
    · rw [bytes_zeroParts hdigits, bytes_zeroParts hdigits, hsize]

/-- Two transfers with one chain hash agree in every field exactly if their bytes are not one string cut
at different places and they are not two spellings of the same parts. Shapes that admit no string that
is cut into both are those that are equal or of different sizes. -/
theorem chainHash_commits_iff (hsha : Function.Injective c.sha256)
    (hpacks : c.PacksDoubles doubles) :
    (∀ (x y : HashedTransfer) (p p' : TransferParts), x.parts? = some p → y.parts? = some p' →
      p.WellFormed doubles → p'.WellFormed doubles →
      ((x.chainHash c = y.chainHash c → x = y) ↔ ¬ p.Recut c p' ∧ ¬ x.Respelled y)) ∧
    ∀ shape shape' : TransferShape,
      (∀ p p' : TransferParts, p.WellFormed doubles → p'.WellFormed doubles → p.shape = shape →
        p'.shape = shape' → ¬ p.Recut c p') ↔ shape = shape' ∨ shape.size ≠ shape'.size := by
  constructor
  · intro x y p p' hx hy h h'
    rw [chainHash_eq_iff hsha hx hy]
    constructor
    · refine fun hcommits => ⟨fun hrecut => hrecut.1 ?_, fun hspelled => hspelled.1 ?_⟩
      · rw [hcommits hrecut.2, hy] at hx
        rw [Option.some.inj hx]
      · have hparts := hspelled.2
        rw [hx, hy] at hparts
        exact hcommits (congrArg _ (Option.some.inj hparts))
    · rintro ⟨hcut, hspelled⟩ hbytes
      by_contra hne
      by_cases hshape : p.shape = p'.shape
      · have hparts := eq_of_bytes_eq hpacks h h' hshape hbytes
        exact hspelled ⟨hne, by rw [hx, hy, hparts]⟩
      · exact hcut ⟨hshape, hbytes⟩
  · intro shape shape'
    have hexists := exists_recut_iff hpacks shape shape'
    constructor
    · intro hnone
      by_contra hsome
      rw [not_or, not_not] at hsome
      obtain ⟨p, p', h, h', hshape, hshape', hrecut⟩ := hexists.mpr hsome
      exact hnone p p' h h' hshape hshape' hrecut
    · intro hshapes p p' h h' hshape hshape' hrecut
      obtain ⟨hne, hsize⟩ := hexists.mp ⟨p, p', h, h', hshape, hshape', hrecut⟩
      exact hshapes.elim hne fun hsizes => hsizes hsize

/-! ### Later hops read as first ones -/

/-- The previous hash is read as the end of the nonce. -/
def TransferParts.asFirst (p : TransferParts) : TransferParts :=
  { p with nonce := p.nonce ++ p.prev, prev := [] }

lemma chainHash_asFirst (p : TransferParts) :
    p.asFirst.written.chainHash c = p.written.chainHash c := by
  rw [chainHash_of_parts (parts?_written _), chainHash_of_parts (parts?_written _)]
  simp [TransferParts.bytes, TransferParts.asFirst]

/-- The parts in a transfer record, with the keys, hash, signature and time of `r`. -/
def TransferParts.recorded (p : TransferParts) (r : TransferRecord) : TransferRecord :=
  { r with
    tokenId := p.tokenId
    nextOwnerPubkeyHex := Hex.encode p.nextOwner
    amount := p.amount
    nonceHex := Hex.encode p.nonce }

/-- A record of a later hop passes the check of a first transfer once it is read in this way. -/
lemma verifyTransferChain_asFirst {token later : Token} {r : TransferRecord}
    (hhash : p.written.chainHash c = .ok r.chainHash)
    (hlater : verifyTransferChain c later (p.recorded r) = .ok true) :
    verifyTransferChain c token (p.asFirst.recorded r) = .ok true := by
  rw [verifyTransferChain_eq_true_iff] at hlater ⊢
  rw [← chainHash_asFirst] at hhash
  obtain ⟨payload, hpayload, hfirst⟩ := bind_eq_ok_iff.mp hhash
  exact ⟨⟨payload, hpayload, fun _ => hfirst⟩, hlater.2⟩

/-- The number 100. -/
def hundred : PyFloat := .positive (.ofNat 1 3 one_mod_ten)

/-- The number 1.398043286095289e-76. -/
def eightZeros : PyFloat := .positive (.ofNat 1398043286095289 (-75) (by decide))

/-- A hash without collisions, and two doubles as they are packed. -/
def textCrypto : Crypto where
  sign := plainCrypto.sign
  verify := plainCrypto.verify
  sha256 bs := bs
  packDouble x := if x = hundred then [0x40, 0x59, 0, 0, 0, 0, 0, 0] else List.replicate 8 0x30

lemma packDouble_hundred : textCrypto.packDouble hundred = [0x40, 0x59, 0, 0, 0, 0, 0, 0] := by
  decide

lemma packDouble_eightZeros : textCrypto.packDouble eightZeros = List.replicate 8 0x30 := by
  decide

lemma packsDoubles_textCrypto : textCrypto.PacksDoubles {hundred, eightZeros} := by
  refine ⟨?_, ?_, eightZeros, .inr rfl, packDouble_eightZeros⟩
  · rintro x (rfl | rfl)
    · rw [packDouble_hundred]
      rfl
    · rw [packDouble_eightZeros]
      rfl
  · rintro x (rfl | rfl) y (rfl | rfl) h
    · rfl
    · rw [packDouble_hundred, packDouble_eightZeros] at h
      cases h
    · rw [packDouble_hundred, packDouble_eightZeros] at h
      cases h
    · rfl

/-- Bob's transfer of a token to Carol, after a transfer to Bob. -/
def laterParts : TransferParts where
  tokenId := "00112233445566778899aabbccddeeff"
  nextOwner := List.replicate 32 0xca
  amount := hundred
  nonce := List.replicate 16 0x11
  prev := List.replicate 32 0xdd

/-- With the lengths that `issue_token` and `send_token` produce, a later transfer and a first one have
different hashes. -/
theorem chainHash_commits_iff_sent :
    ¬ laterParts.Recut textCrypto { laterParts with prev := [] } :=
  ((chainHash_commits_iff (fun _ _ h => h) packsDoubles_textCrypto).2
    ⟨32, 32, 16, true⟩ ⟨32, 32, 16, false⟩).mpr (.inr (by decide)) _ _
      ⟨.inl rfl, .inr rfl⟩ ⟨.inl rfl, .inl rfl⟩ (by decide) (by decide)

/-- Bob's key, the chain hash and Bob's signature. -/
def laterRecord : TransferRecord where
  tokenId := ""
  prevOwnerPubkeyHex := Hex.encode (List.replicate 32 0xb0)
  nextOwnerPubkeyHex := ""
  amount := hundred
  nonceHex := ""
  chainHash := Hex.encode (laterParts.bytes textCrypto)
  signatureHex := Hex.encode (delimited (List.replicate 32 0xb0) ++ laterParts.bytes textCrypto)
  timestamp := hundred

/-- The token with Bob as the first and only payer. -/
def tokenFromBob (history : List String) : Token where
  tokenId := laterParts.tokenId
  denomination := hundred
  issuerPubkeyHex := Hex.encode (List.replicate 32 0xb0)
  issuedAt := hundred
  issuerSignatureHex := ""
  ownerPubkeyHex := Hex.encode laterParts.nextOwner
  hopCount := 1
  transferHistory := history
  chainHash := laterRecord.chainHash

lemma chainHash_laterParts : laterParts.written.chainHash textCrypto = .ok laterRecord.chainHash :=
  chainHash_of_parts (parts?_written _)

lemma verifyTransferChain_laterRecord :
    verifyTransferChain textCrypto (tokenFromBob ["issuer", "bob", "carol"])
      (laterParts.recorded laterRecord) = .ok true := by
  obtain ⟨payload, hpayload, -⟩ := bind_eq_ok_iff.mp chainHash_laterParts
  exact verifyTransferChain_eq_true_iff.mpr
    ⟨⟨payload, hpayload, fun hfirst => absurd hfirst (by decide)⟩, _, _, _,
      hexToPubkeyBytes_encode List.length_replicate, fromhex_encode _, fromhex_encode _,
      beq_self_eq_true _⟩

/-- The previous hash is moved to the end of the nonce, and the record passes the check of a first
transfer. -/
theorem one_hash_first_and_later :
    let later := laterParts.written
    let first := laterParts.asFirst.written
    Function.Injective textCrypto.sha256 ∧ later.prevChainHash ≠ first.prevChainHash ∧
      later.chainHash textCrypto = .ok laterRecord.chainHash ∧
      first.chainHash textCrypto = .ok laterRecord.chainHash ∧
      verifyTransferChain textCrypto (tokenFromBob ["bob", "carol"])
        (laterParts.asFirst.recorded laterRecord) = .ok true := by
  have hfirst := (chainHash_asFirst (c := textCrypto) laterParts).trans chainHash_laterParts
  refine ⟨fun _ _ h => h, by decide +kernel, chainHash_laterParts, hfirst, ?_⟩
  exact verifyTransferChain_asFirst chainHash_laterParts verifyTransferChain_laterRecord

end Poc

end PocketCash
