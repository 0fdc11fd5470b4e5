import Mathlib.Data.List.ModifyLast
import PocketCash.Canonical.Signatures

/-!
# Two histories of one token

Two accepted tokens with one id have the same history as far as both go, unless the issuer signed
two issuances or a holder signed two transfers with one number. The one thing that nobody signs is
the text of the last signature: it has many spellings, and `validate_chain` accepts them all.
-/

namespace PocketCash.Canonical

/-! ### Spellings of a signature -/

lemma verifySignature_congr {e : Ed25519} {pk sig sig' : String} {message : Bytes}
    (h : Base64.decode sig = Base64.decode sig') :
    verifySignature e pk message sig = verifySignature e pk message sig' := by
  rw [verifySignature, verifySignature, readVerification, readVerification, h]

namespace TransferRecord

/-- The record with another text for its signature. -/
def respelled (r : TransferRecord) (signature : String) : TransferRecord :=
  { r with signature := signature }

@[simp] lemma respelled_senderPk (r : TransferRecord) (signature : String) :
    (r.respelled signature).senderPk = r.senderPk := rfl

@[simp] lemma respelled_signature (r : TransferRecord) (signature : String) :
    (r.respelled signature).signature = signature := rfl

@[simp] lemma respelled_signingDict (r : TransferRecord) (signature : String) :
    (r.respelled signature).signingDict = r.signingDict := rfl

end TransferRecord

namespace Token

/-- The token with other texts for the issuer's signature and for the last one in its chain. -/
def respelled (t : Token) (issuerSignature lastSignature : String) : Token :=
  ⟨t.tokenId, t.value, t.issuerPk, t.ownerPk, t.expiry, issuerSignature,
    t.transferChain.modifyLast fun last => last.respelled lastSignature⟩

variable {c : Crypto} {t t' : Token} {issuerPk : String}

/-- Only the id and the owner of the token matter to the loop. -/
lemma validateTransfers_congr (hid : t.tokenId = t'.tokenId) (howner : t.ownerPk = t'.ownerPk)
    {ownerPk : String} {previous : Option TransferRecord} {nonce : Int}
    {records : List TransferRecord} :
    t.validateTransfers c ownerPk previous nonce records
      = t'.validateTransfers c ownerPk previous nonce records := by
  induction records generalizing ownerPk previous nonce with
  | nil => rw [validateTransfers, validateTransfers, howner]
  | cons r rest ih => simp only [validateTransfers, hid, ih]

/-- No record is linked to the last one. -/
lemma validateTransfers_respelled {last : TransferRecord} {signature : String}
    (hverify : (last.respelled signature).verify c = last.verify c) {ownerPk : String}
    {previous : Option TransferRecord} {nonce : Int} {before : List TransferRecord} :
    t.validateTransfers c ownerPk previous nonce (before ++ [last.respelled signature])
      = t.validateTransfers c ownerPk previous nonce (before ++ [last]) := by
  induction before generalizing ownerPk previous nonce with
  | nil =>
    simp only [List.nil_append, validateTransfers, hverify]
    cases previous <;> rfl
  | cons r rest ih => simp only [List.cons_append, validateTransfers, ih]

/-- The texts that are read as the same signatures are accepted alike. -/
lemma validateChain_respelled {e : Ed25519} {sha256 : Bytes → Bytes}
    {issuerSignature lastSignature : String}
    (hissuer : Base64.decode issuerSignature = Base64.decode t.issuerSignature)
    (hlast : ∀ last, t.transferChain.getLast? = some last →
      Base64.decode lastSignature = Base64.decode last.signature) :
    (t.respelled issuerSignature lastSignature).validateChain (Crypto.ofEd25519 e sha256) issuerPk
      = t.validateChain (Crypto.ofEd25519 e sha256) issuerPk := by
  have hissued : (t.respelled issuerSignature lastSignature).issuedOwnerPk = t.issuedOwnerPk := by
    rw [issuedOwnerPk, issuedOwnerPk, respelled]
    rcases t.transferChain.eq_nil_or_concat with hchain | ⟨before, last, hchain⟩
    · rw [hchain]
      rfl
    · rw [hchain, List.concat_eq_append, List.modifyLast_concat]
      cases before <;> rfl
  have hloop : ∀ ownerPk, (t.respelled issuerSignature lastSignature).validateTransfers
      (Crypto.ofEd25519 e sha256) ownerPk none 1
        (t.respelled issuerSignature lastSignature).transferChain
      = t.validateTransfers (Crypto.ofEd25519 e sha256) ownerPk none 1 t.transferChain := by
    intro ownerPk
    rw [respelled]
    rcases t.transferChain.eq_nil_or_concat with hchain | ⟨before, last, hchain⟩
    · rw [hchain]
      apply validateTransfers_congr <;> rfl
    · rw [List.concat_eq_append] at hchain
      have hverify : (last.respelled lastSignature).verify (Crypto.ofEd25519 e sha256)
          = last.verify (Crypto.ofEd25519 e sha256) :=
        verifySignature_congr (hlast last (by rw [hchain, List.getLast?_concat]))
      rw [hchain, List.modifyLast_concat, validateTransfers_respelled hverify]
      apply validateTransfers_congr <;> rfl
  have hissuance : (Crypto.ofEd25519 e sha256).verifySignature t.issuerPk
        (.issuance ((t.respelled issuerSignature lastSignature).issuanceDict t.issuedOwnerPk))
        issuerSignature
      = (Crypto.ofEd25519 e sha256).verifySignature t.issuerPk
        (.issuance (t.issuanceDict t.issuedOwnerPk)) t.issuerSignature :=
    verifySignature_congr hissuer
  rw [Bool.eq_iff_iff]
  by_cases hpk : issuerPk = t.issuerPk
  · subst hpk
    have hiff := validateChain_eq_true_iff (c := Crypto.ofEd25519 e sha256)
      (t := t.respelled issuerSignature lastSignature)
    rw [hissued, hloop] at hiff
    rw [validateChain_eq_true_iff, ← hissuance]
    exact hiff
  · have hpk' : issuerPk ≠ (t.respelled issuerSignature lastSignature).issuerPk := hpk
    rw [validateChain, validateChain, if_pos hpk, if_pos hpk']

end Token

/-- `validate_chain` looks at the issuer's signature and at the last one in the chain only as the
bytes that they are read as, and each of them can be written in infinitely many ways: whoever has an
accepted token can make others that are accepted, without any key. -/
theorem Token.validateChain_spellings (e : Ed25519) (sha256 : Bytes → Bytes) (t : Token) :
    (∀ issuerPk issuerSignature lastSignature : String,
      Base64.decode issuerSignature = Base64.decode t.issuerSignature →
      (∀ last, t.transferChain.getLast? = some last →
        Base64.decode lastSignature = Base64.decode last.signature) →
      (t.respelled issuerSignature lastSignature).validateChain (Crypto.ofEd25519 e sha256) issuerPk
        = t.validateChain (Crypto.ofEd25519 e sha256) issuerPk) ∧
    ∀ avoid : Finset String, ∃ issuerSignature ∉ avoid, ∃ lastSignature ∉ avoid, ∀ issuerPk,
      (t.respelled issuerSignature lastSignature).validateChain (Crypto.ofEd25519 e sha256) issuerPk
        = t.validateChain (Crypto.ofEd25519 e sha256) issuerPk := by
  refine ⟨fun _ _ _ hissuer hlast => validateChain_respelled hissuer hlast, fun avoid => ?_⟩
  obtain ⟨issuerSignature, hissuer, hnew⟩ := Base64.exists_respelling t.issuerSignature avoid
  obtain ⟨lastSignature, hlast, hnew'⟩ := Base64.exists_respelling
    ((t.transferChain.getLast?.map TransferRecord.signature).getD "") avoid
  refine ⟨issuerSignature, hnew, lastSignature, hnew', fun issuerPk => ?_⟩
  apply validateChain_respelled hissuer
  intro last heq
  rw [hlast, heq]
  rfl

/-- A blank before each of the signatures on a note. -/
theorem Token.validateChain_spellings_signedNote :
    let c := Crypto.ofEd25519 .plain List.reverse
    let note := SignedNote.note (plainPk 9) (plainPk 1) (plainPk 2)
    (note.respelled (Hex.indented 1 note.issuerSignature) (Hex.indented 1
        (SignedNote.record (plainPk 1) (plainPk 2)).signature)).validateChain c (plainPk 9)
      = note.validateChain c (plainPk 9) :=
  (Token.validateChain_spellings .plain List.reverse _).1 _ _ _ (Base64.decode_indented 1 _)
    fun _ hlast => Option.some.inj hlast ▸ Base64.decode_indented 1 _

namespace Token

variable {c : Crypto} {t t' : Token} {issuerPk : String}

/-! ### The history up to the last signature -/

/-- The transfers of one history up to where the other ends, or the other way round. Only the text
of the last signature may be another. -/
structure Agrees (t t' : Token) : Prop where
  signed : ∀ (i : Nat) (r r' : TransferRecord), t.transferChain[i]? = some r →
    t'.transferChain[i]? = some r' → r.signingDict = r'.signingDict
  continued : ∀ (i : Nat) (r r' : TransferRecord), t.transferChain[i]? = some r →
    t'.transferChain[i]? = some r' → i + 1 < t.transferChain.length →
    i + 1 < t'.transferChain.length → r = r'
  owner : t.transferChain.length = t'.transferChain.length → t.ownerPk = t'.ownerPk

/-- What shows that the histories were not made honestly. -/
inductive Convicts (c : Crypto) (t t' : Token) : Prop
  /-- The issuer signed two issuances of one token. -/
  | issuer (hissuance : t.issuanceDict t.issuedOwnerPk ≠ t'.issuanceDict t'.issuedOwnerPk)
  /-- A holder signed two transfers of one token with one number. -/
  | holder (r r' : TransferRecord) (hr : r ∈ t.transferChain) (hr' : r' ∈ t'.transferChain)
    (hsender : r.senderPk = r'.senderPk) (htoken : r.tokenId = r'.tokenId)
    (hnonce : r.nonce = r'.nonce) (hsigned : r.verify c = true) (hsigned' : r'.verify c = true)
    (hne : r.signingDict ≠ r'.signingDict)
  /-- Two records that differ in their signatures have one digest. -/
  | collision (r r' : TransferRecord) (hr : r ∈ t.transferChain) (hr' : r' ∈ t'.transferChain)
    (hne : r ≠ r') (hdigest : c.payloadDigest r = c.payloadDigest r')

/-- The sender of a transfer is who owned the token before it. -/
lemma WellFormed.senderPk_eq (h : t.WellFormed c issuerPk) {i : Nat} {r : TransferRecord}
    (hr : t.transferChain[i]? = some r) :
    r.senderPk = ((t.previousTransfer i).map TransferRecord.receiverPk).getD t.issuedOwnerPk := by
  cases i with
  | zero =>
    obtain ⟨rest, hchain⟩ : ∃ rest, t.transferChain = r :: rest := by
      rw [← List.head?_eq_some_iff, List.head?_eq_getElem?, hr]
    rw [previousTransfer, issuedOwnerPk, hchain]
    rfl
  | succ i =>
    have hprevious : ∃ p, t.previousTransfer (i + 1) = some p := by
      obtain ⟨hlt, -⟩ := List.getElem?_eq_some_iff.mp hr
      exact ⟨_, List.getElem?_eq_getElem (Nat.lt_of_succ_lt hlt)⟩
    obtain ⟨p, hp⟩ := hprevious
    rw [(h.transfers _ r hr).sender p hp, hp]
    rfl

variable {t₁ t₂ : Token}

/-- Transfers at one place of two histories are signed by one holder only if they are the same. -/
lemma signingDict_eq_of_senderPk_eq (h₁ : t₁.WellFormed c issuerPk) (h₂ : t₂.WellFormed c issuerPk)
    (htoken : t₁.tokenId = t₂.tokenId) (hhonest : ¬ Convicts c t₁ t₂) {i : Nat}
    {r₁ r₂ : TransferRecord} (hr₁ : t₁.transferChain[i]? = some r₁)
    (hr₂ : t₂.transferChain[i]? = some r₂) (hsender : r₁.senderPk = r₂.senderPk) :
    r₁.signingDict = r₂.signingDict := by
  have hvalid₁ := h₁.transfers i r₁ hr₁
  have hvalid₂ := h₂.transfers i r₂ hr₂
  by_contra hne
  apply hhonest
  apply Convicts.holder r₁ r₂ (List.mem_of_getElem? hr₁) (List.mem_of_getElem? hr₂) hsender
  · rw [hvalid₁.tokenId, hvalid₂.tokenId, htoken]
  · rw [hvalid₁.nonce, hvalid₂.nonce]
  · exact hvalid₁.signed
  · exact hvalid₂.signed
  · exact hne

lemma issuedOwnerPk_eq (hhonest : ¬ Convicts c t₁ t₂) : t₁.issuedOwnerPk = t₂.issuedOwnerPk := by
  have hissuance : t₁.issuanceDict t₁.issuedOwnerPk = t₂.issuanceDict t₂.issuedOwnerPk := by
    by_contra hne
    exact hhonest (.issuer hne)
  exact congrArg IssuanceDict.ownerPk hissuance

/-- Transfer by transfer, the histories are signed alike. -/
lemma signingDict_eq (h₁ : t₁.WellFormed c issuerPk) (h₂ : t₂.WellFormed c issuerPk)
    (htoken : t₁.tokenId = t₂.tokenId) (hhonest : ¬ Convicts c t₁ t₂) (i : Nat)
    {r₁ r₂ : TransferRecord} (hr₁ : t₁.transferChain[i]? = some r₁)
    (hr₂ : t₂.transferChain[i]? = some r₂) : r₁.signingDict = r₂.signingDict := by
  -- the sender is the receiver of the transfer before
  induction i generalizing r₁ r₂ with
  | zero =>
    apply signingDict_eq_of_senderPk_eq h₁ h₂ htoken hhonest hr₁ hr₂
    rw [h₁.senderPk_eq hr₁, h₂.senderPk_eq hr₂]
    exact issuedOwnerPk_eq hhonest
  | succ i ih =>
    have hlt₁ := Nat.lt_of_succ_lt (List.getElem?_eq_some_iff.mp hr₁).1
    have hlt₂ := Nat.lt_of_succ_lt (List.getElem?_eq_some_iff.mp hr₂).1
    have hp₁ := List.getElem?_eq_getElem hlt₁
    have hp₂ := List.getElem?_eq_getElem hlt₂
    apply signingDict_eq_of_senderPk_eq h₁ h₂ htoken hhonest hr₁ hr₂
    rw [h₁.senderPk_eq hr₁, h₂.senderPk_eq hr₂, previousTransfer, previousTransfer, hp₁, hp₂]
    exact congrArg SigningDict.receiverPk (ih hp₁ hp₂)

/-- A record that the next one is linked to is the same in both histories. -/
lemma record_eq (h₁ : t₁.WellFormed c issuerPk) (h₂ : t₂.WellFormed c issuerPk)
    (htoken : t₁.tokenId = t₂.tokenId) (hhonest : ¬ Convicts c t₁ t₂) {i : Nat}
    {r₁ r₂ : TransferRecord} (hr₁ : t₁.transferChain[i]? = some r₁)
    (hr₂ : t₂.transferChain[i]? = some r₂) (hlt₁ : i + 1 < t₁.transferChain.length)
    (hlt₂ : i + 1 < t₂.transferChain.length) : r₁ = r₂ := by
  have hnext₁ := List.getElem?_eq_getElem hlt₁
  have hnext₂ := List.getElem?_eq_getElem hlt₂
  have hnext := signingDict_eq h₁ h₂ htoken hhonest (i + 1) hnext₁ hnext₂
  have hhash := congrArg SigningDict.prevTransferHash hnext
  have hprev₁ := (h₁.transfers _ _ hnext₁).prevTransferHash
  have hprev₂ := (h₂.transfers _ _ hnext₂).prevTransferHash
  rw [previousTransfer, hr₁] at hprev₁
  rw [previousTransfer, hr₂] at hprev₂
  have hdigest : c.payloadDigest r₁ = c.payloadDigest r₂ :=
    Option.some.inj (hprev₁.symm.trans (hhash.trans hprev₂))
  by_contra hne
  exact hhonest (.collision r₁ r₂ (List.mem_of_getElem? hr₁) (List.mem_of_getElem? hr₂) hne hdigest)

lemma ownerPk_eq (h₁ : t₁.WellFormed c issuerPk) (h₂ : t₂.WellFormed c issuerPk)
    (htoken : t₁.tokenId = t₂.tokenId) (hhonest : ¬ Convicts c t₁ t₂)
    (hlength : t₁.transferChain.length = t₂.transferChain.length) : t₁.ownerPk = t₂.ownerPk := by
  have howner₁ := h₁.owner
  have howner₂ := h₂.owner
  cases hlast₁ : t₁.transferChain.getLast? with
  | none =>
    have hnil₁ := List.getLast?_eq_none_iff.mp hlast₁
    have hnil₂ : t₂.transferChain = [] := by
      rw [← List.length_eq_zero_iff, ← hlength, hnil₁, List.length_nil]
    have hissued := issuedOwnerPk_eq hhonest
    rwa [issuedOwnerPk, issuedOwnerPk, hnil₁, hnil₂] at hissued
  | some last₁ =>
    have hindex₁ := List.getLast?_eq_getElem? ▸ hlast₁
    obtain ⟨hlt, -⟩ := List.getElem?_eq_some_iff.mp hindex₁
    rw [hlength] at hlt
    have hindex₂ := List.getElem?_eq_getElem hlt
    have hlast₂ := List.getLast?_eq_getElem? ▸ hindex₂
    rw [← howner₁ last₁ hlast₁, ← howner₂ _ hlast₂]
    rw [hlength] at hindex₁
    exact congrArg SigningDict.receiverPk (signingDict_eq h₁ h₂ htoken hhonest _ hindex₁ hindex₂)

/-- Two accepted tokens with one id have one history up to the last signature of the shorter one,
and one owner if neither is shorter. Otherwise the two tokens convict the issuer or a holder, or
their digests collide. -/
theorem agrees_or_convicts (h₁ : t₁.validateChain c issuerPk = true)
    (h₂ : t₂.validateChain c issuerPk = true) (htoken : t₁.tokenId = t₂.tokenId) :
    Agrees t₁ t₂ ∨ Convicts c t₁ t₂ := by
  rw [validateChain_iff] at h₁ h₂
  by_cases hhonest : Convicts c t₁ t₂
  · exact .inr hhonest
  · refine .inl ⟨?_, ?_, ?_⟩
    · intro i r r' hr hr'
      exact signingDict_eq h₁ h₂ htoken hhonest i hr hr'
    · intro i r r' hr hr' hlt hlt'
      exact record_eq h₁ h₂ htoken hhonest hr hr' hlt hlt'
    · exact ownerPk_eq h₁ h₂ htoken hhonest

end Token

/-- A note on its way from Alice to Bob, and the same note when Bob has passed it on. -/
theorem Token.agrees_or_convicts_passedOn :
    let atBob := plainTransfer Wallet.aliceNote "alice" "bob"
    let atCarol := plainTransfer atBob "bob" "carol"
    Agrees atBob atCarol ∨ Convicts plainCrypto atBob atCarol :=
  @Token.agrees_or_convicts plainCrypto "bank" _ _ (by decide +kernel) (by decide +kernel) rfl

end PocketCash.Canonical
