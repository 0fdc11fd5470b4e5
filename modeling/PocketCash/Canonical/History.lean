import PocketCash.Library.HashLinked
import PocketCash.Library.JsonEncoding
import PocketCash.Canonical.Registers

/-!
# The custody history of a token

`Token.validate_chain` accepts exactly the well-formed custody chains: the issuer signed for the
first owner, and every transfer is signed by the receiver of the one before it, numbered from one
and linked to it by id and digest. What the owner appends to such a chain is accepted again.

The digest of the last transfer fixes the whole chain.
-/

namespace PocketCash.Canonical

/-- A property of every position, at the first and at the others. -/
lemma forall_getElem?_cons {α : Type*} {P : Nat → α → Prop} {a : α} {l : List α} :
    (∀ (i : Nat) (r : α), (a :: l)[i]? = some r → P i r) ↔
      P 0 a ∧ ∀ (i : Nat) (r : α), l[i]? = some r → P (i + 1) r := by
  rw [← Nat.and_forall_add_one]
  simp

/-- A transfer with number `nonce` that follows `previous` in the chain of `t`. -/
structure TransferValid (c : Crypto) (t : Token) (previous : Option TransferRecord) (nonce : Int)
    (r : TransferRecord) : Prop where
  tokenId : r.tokenId = t.tokenId
  nonce : r.nonce = nonce
  signed : r.verify c = true
  sender : ∀ p, previous = some p → r.senderPk = p.receiverPk
  parentTransferId : r.parentTransferId = previous.map TransferRecord.transferId
  prevTransferHash : r.prevTransferHash = previous.map c.payloadDigest

/-- `senderSk` signs every message for `senderPk`. -/
def Crypto.KeyPair (c : Crypto) (senderSk senderPk : String) : Prop :=
  ∀ m, ∃ signature, c.signMessage senderSk m = .ok signature ∧
    c.verifySignature senderPk m signature = true

lemma Crypto.KeyPair.signsFor {c : Crypto} {senderSk senderPk : String}
    (h : c.KeyPair senderSk senderPk) : c.SignsFor senderSk senderPk := by
  intro m signature hsign
  obtain ⟨signature', hsign', hverify⟩ := h m
  rw [hsign] at hsign'
  cases hsign'
  exact hverify

namespace Token

variable {c : Crypto} {t t' : Token} {issuerPk : String}

/-- The transfer before the one at `index`. -/
def previousTransfer (t : Token) : Nat → Option TransferRecord
  | 0 => none
  | index + 1 => t.transferChain[index]?

/-- A well-formed custody chain. -/
structure WellFormed (c : Crypto) (t : Token) (issuerPk : String) : Prop where
  issuer : issuerPk = t.issuerPk
  issuance : c.verifySignature issuerPk (.issuance (t.issuanceDict t.issuedOwnerPk))
    t.issuerSignature = true
  transfers : ∀ (i : Nat) (r : TransferRecord), t.transferChain[i]? = some r →
    TransferValid c t (t.previousTransfer i) (i + 1) r
  owner : ∀ last, t.transferChain.getLast? = some last → last.receiverPk = t.ownerPk

/-! ### The loop -/

lemma linksTo_iff {r : TransferRecord} {previous : Option TransferRecord} :
    linksTo c r previous = true ↔ r.parentTransferId = previous.map TransferRecord.transferId ∧
      r.prevTransferHash = previous.map c.payloadDigest := by
  cases previous <;> simp [linksTo]

/-- One round of the loop. -/
lemma validateTransfers_cons {ownerPk : String} {previous : Option TransferRecord}
    (howner : ∀ p, previous = some p → ownerPk = p.receiverPk) {nonce : Int} {r : TransferRecord}
    {rest : List TransferRecord} : t.validateTransfers c ownerPk previous nonce (r :: rest) = true ↔
      (r.senderPk = ownerPk ∧ TransferValid c t previous nonce r) ∧
        t.validateTransfers c r.receiverPk (some r) (nonce + 1) rest = true := by
  rw [validateTransfers]
  constructor
  · intro h
    split_ifs at h with hid hsigned hsender hnonce hlinks
    obtain ⟨hparent, hprev⟩ := linksTo_iff.mp (by simpa using hlinks)
    exact ⟨⟨not_not.mp hsender, not_not.mp hid, not_not.mp hnonce, by simpa using hsigned,
      fun p hp => (not_not.mp hsender).trans (howner p hp), hparent, hprev⟩, h⟩
  · rintro ⟨⟨hsender, hvalid⟩, hrest⟩
    have hlinks := linksTo_iff.mpr ⟨hvalid.parentTransferId, hvalid.prevTransferHash⟩
    rw [if_neg (not_not.mpr hvalid.tokenId), if_neg (by simp [hvalid.signed]),
      if_neg (not_not.mpr hsender), if_neg (not_not.mpr hvalid.nonce), if_neg (by simp [hlinks])]
    exact hrest

/-- The rounds after the first. -/
lemma validateTransfers_iff {p : TransferRecord} {nonce : Int} {records : List TransferRecord} :
    t.validateTransfers c p.receiverPk (some p) nonce records = true ↔
      (∀ (i : Nat) (r : TransferRecord), records[i]? = some r →
        TransferValid c t (p :: records)[i]? (nonce + i) r) ∧
      ∀ last, (p :: records).getLast? = some last → last.receiverPk = t.ownerPk := by
  induction records generalizing p nonce with
  | nil => simp [validateTransfers]
  | cons r rest ih =>
    rw [validateTransfers_cons (by simp), ih, List.getLast?_cons_cons, ← and_assoc]
    apply and_congr_left'
    -- the transfer at hand, and then those behind it
    rw [forall_getElem?_cons]
    apply and_congr
    · simpa using fun hvalid : TransferValid c t (some p) nonce r => hvalid.sender p rfl
    · apply forall_congr'
      intro i
      rw [List.getElem?_cons_succ, Nat.cast_succ, add_right_comm, add_assoc]

/-- `validate_chain` accepts exactly the well-formed chains. -/
lemma validateChain_iff : t.validateChain c issuerPk = true ↔ t.WellFormed c issuerPk := by
  have hissuer : t.validateChain c issuerPk = true → issuerPk = t.issuerPk := by
    intro h
    by_contra hne
    rw [validateChain, if_pos hne] at h
    cases h
  have hloop : t.validateTransfers c t.issuedOwnerPk none 1 t.transferChain = true ↔
      (∀ (i : Nat) (r : TransferRecord), t.transferChain[i]? = some r →
        TransferValid c t (t.previousTransfer i) (i + 1) r) ∧
      ∀ last, t.transferChain.getLast? = some last → last.receiverPk = t.ownerPk := by
    rw [issuedOwnerPk]
    unfold previousTransfer
    cases t.transferChain with
    | nil => simp [validateTransfers]
    | cons first rest =>
      rw [validateTransfers_cons (by simp), validateTransfers_iff, ← and_assoc]
      apply and_congr_left'
      rw [forall_getElem?_cons]
      apply and_congr
      · simp
      · apply forall_congr'
        intro i
        rw [Nat.cast_succ, add_comm (1 + 1 : Int), add_assoc]
  constructor
  · intro h
    obtain rfl := hissuer h
    obtain ⟨hissuance, hrecords⟩ := validateChain_eq_true_iff.mp h
    obtain ⟨htransfers, howner⟩ := hloop.mp hrecords
    exact ⟨rfl, hissuance, htransfers, howner⟩
  · rintro ⟨rfl, hissuance, htransfers, howner⟩
    exact validateChain_eq_true_iff.mpr ⟨hissuance, hloop.mpr ⟨htransfers, howner⟩⟩

/-! ### Appending -/

lemma exists_appendTransfer {senderSk : String} (hkey : c.KeyPair senderSk t.ownerPk)
    (stamp : Stamp) (receiverPk : String) :
    ∃ t', t.appendTransfer c stamp senderSk receiverPk = .ok t' := by
  simp only [appendTransfer, TransferRecord.create]
  obtain ⟨signature, hsign, -⟩ := hkey (.transfer _)
  rw [hsign]
  exact ⟨_, rfl⟩

/-- What the owner appends to an accepted chain is accepted. -/
lemma exists_valid_appendTransfer {senderSk : String} (hkey : c.KeyPair senderSk t.ownerPk)
    (hvalid : t.validateChain c issuerPk = true) (stamp : Stamp) (receiverPk : String) :
    ∃ t', t.appendTransfer c stamp senderSk receiverPk = .ok t' ∧
      t'.validateChain c issuerPk = true := by
  obtain ⟨t', happend⟩ := exists_appendTransfer hkey stamp receiverPk
  have hkept : t'.issuerPk = t.issuerPk := by
    obtain ⟨record, rfl⟩ := (extends_of_appendTransfer happend).eq
    rfl
  obtain rfl := (validateChain_iff.mp hvalid).issuer
  have hvalid' := validateChain_of_appendTransfer hkey.signsFor hvalid happend
  exact ⟨t', happend, hkept ▸ hvalid'⟩

/-- `validate_chain` accepts exactly the well-formed custody chains, and what the owner appends to
an accepted chain is accepted. -/
theorem validateChain_exact (c : Crypto) :
    (∀ (t : Token) (issuerPk : String),
      t.validateChain c issuerPk = true ↔ t.WellFormed c issuerPk) ∧
    ∀ (t : Token) (issuerPk senderSk receiverPk : String) (stamp : Stamp),
      c.KeyPair senderSk t.ownerPk → t.validateChain c issuerPk = true →
        ∃ t', t.appendTransfer c stamp senderSk receiverPk = .ok t' ∧
          t'.validateChain c issuerPk = true :=
  ⟨fun _ _ => validateChain_iff,
    fun _ _ _ receiverPk stamp hkey hvalid => exists_valid_appendTransfer hkey hvalid stamp receiverPk⟩

/-- Alice hands her note on to Bob. -/
theorem validateChain_exact_aliceNote : ∃ t,
    Wallet.aliceNote.appendTransfer plainCrypto (plainStamp "alice" 0) "sk:alice" "bob" = .ok t ∧
      t.validateChain plainCrypto "bank" = true :=
  (validateChain_exact plainCrypto).2 Wallet.aliceNote "bank" "sk:alice" "bob" _
    (fun _ => ⟨_, rfl, beq_self_eq_true _⟩) (by decide +kernel)

/-! ### The last digest -/

lemma hashLinked_of_validateTransfers {records : List TransferRecord} {ownerPk : String}
    {previous : Option TransferRecord} (howner : ∀ p, previous = some p → ownerPk = p.receiverPk)
    {nonce : Int} (h : t.validateTransfers c ownerPk previous nonce records = true) :
    HashLinked c.payloadDigest TransferRecord.prevTransferHash (previous.map c.payloadDigest)
      records := by
  induction records generalizing ownerPk previous nonce with
  | nil => trivial
  | cons r rest ih =>
    obtain ⟨⟨-, hvalid⟩, hrest⟩ := (validateTransfers_cons howner).mp h
    exact ⟨hvalid.prevTransferHash, ih (by simp) hrest⟩

lemma hashLinked_of_validateChain (h : t.validateChain c issuerPk = true) :
    HashLinked c.payloadDigest TransferRecord.prevTransferHash none t.transferChain := by
  obtain rfl := (validateChain_iff.mp h).issuer
  exact hashLinked_of_validateTransfers (by simp) (validateChain_eq_true_iff.mp h).2

/-- The digest of the last transfer fixes the history: two accepted tokens whose last transfers have
one digest have the same transfers. -/
theorem transferChain_eq_of_payloadDigest (hdigest : Function.Injective c.payloadDigest)
    {issuerPk' : String} (h : t.validateChain c issuerPk = true)
    (h' : t'.validateChain c issuerPk' = true) {last last' : TransferRecord}
    (hlast : t.transferChain.getLast? = some last)
    (hlast' : t'.transferChain.getLast? = some last')
    (hhash : c.payloadDigest last = c.payloadDigest last') :
    t.transferChain = t'.transferChain := by
  apply HashLinked.eq_of_getLast? (fun _ _ _ _ heq => hdigest heq)
    (hashLinked_of_validateChain h) (hashLinked_of_validateChain h')
  rw [hlast, hlast', Option.map_some, Option.map_some, hhash]

end Token

/-! Notes of Carol that Alice got from the bank, in a backend whose digests are JSON texts. -/

namespace History

open JsonEncoding

/-- The dictionary that `payload_bytes` writes. -/
def fields (r : TransferRecord) : List (String × Scalar) := [
  ("transfer_id", .str r.transferId),
  ("token_id", .str r.tokenId),
  ("sender_pk", .str r.senderPk),
  ("receiver_pk", .str r.receiverPk),
  ("nonce", .int r.nonce),
  ("parent_transfer_id", .ofOptStr r.parentTransferId),
  ("prev_transfer_hash", .ofOptStr r.prevTransferHash),
  ("timestamp", .str r.timestamp),
  ("signature", .str r.signature)]

def textCrypto : Crypto :=
  { plainCrypto with payloadDigest := fun r => String.ofList (objectText (fields r)) }

lemma fields_injective : Function.Injective fields := by
  rintro ⟨_, _, _, _, _, _, _, _, _⟩ ⟨_, _, _, _, _, _, _, _, _⟩ h
  simp_all [fields, Scalar.ofOptStr_injective.eq_iff]

lemma payloadDigest_injective : Function.Injective textCrypto.payloadDigest := by
  intro r r' h
  have htext := String.ofList_injective h
  have hrest := congrArg (· ++ []) htext
  exact fields_injective (objectText_append_inj hrest).1

/-- The token after `giver` has appended a transfer to `taker`. -/
def handOn (t : Token) (giver taker : String) : Token :=
  (t.appendTransfer textCrypto (plainStamp giver 0) ("sk:" ++ giver) taker).toOption.getD t

lemma validateChain_handOn {t : Token} {issuerPk : String} (taker : String)
    (h : t.validateChain textCrypto issuerPk = true) :
    (handOn t t.ownerPk taker).validateChain textCrypto issuerPk = true := by
  obtain ⟨t', happend, hvalid⟩ := Token.exists_valid_appendTransfer
    (fun _ => ⟨_, rfl, beq_self_eq_true _⟩) h (plainStamp t.ownerPk 0) taker
  rw [handOn, happend]
  exact hvalid

/-- A note of the bank that went from Alice over Bob to Carol. -/
def carolNote (value : Int) : Token :=
  handOn (handOn (plainToken "tok-h" value "alice") "alice" "bob") "bob" "carol"

lemma validateChain_carolNote (value : Int)
    (h : (plainToken "tok-h" value "alice").validateChain textCrypto "bank" = true) :
    (carolNote value).validateChain textCrypto "bank" = true :=
  validateChain_handOn "carol" (validateChain_handOn "bob" h)

end History

/-- Two notes of different value may have the same transfers. -/
theorem Token.transferChain_eq_of_payloadDigest_carolNote :
    (History.carolNote 20).transferChain = (History.carolNote 50).transferChain :=
  Token.transferChain_eq_of_payloadDigest History.payloadDigest_injective
    (History.validateChain_carolNote 20 (by decide +kernel))
    (History.validateChain_carolNote 50 (by decide +kernel)) rfl rfl rfl

end PocketCash.Canonical
