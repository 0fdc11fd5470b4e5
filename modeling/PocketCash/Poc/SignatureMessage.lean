import PocketCash.Poc.IssuerLedger
import PocketCash.Poc.Wallet

/-!
# What an issuer signature says

The issuer signs the token id, its key, the time and the denomination one after the other. The id
and the key have fixed lengths, but nothing stands between the two numbers: the first digits of a
denomination can be read as the last digits of the time. `signature_binds_iff` says that this is the
only way in which one signature fits two tokens.
-/

namespace PocketCash.Poc

namespace Token

/-- A token as `issue_token` makes it: an id of 32 and a key of 64 characters, and positive
numbers. -/
structure WellFormed (t : Token) : Prop where
  tokenId : t.tokenId.length = 32
  issuerPubkeyHex : t.issuerPubkeyHex.length = 64
  issuedAt : ∃ x, t.issuedAt = .positive x
  denomination : ∃ x, t.denomination = .positive x

/-- The four signed fields are the same. -/
def SameSigned (t t' : Token) : Prop :=
  t.tokenId = t'.tokenId ∧ t.issuerPubkeyHex = t'.issuerPubkeyHex ∧ t.issuedAt = t'.issuedAt ∧
    t.denomination = t'.denomination

/-- The second token has the digits at the front of the first one's denomination at the end of its
time. -/
def DigitsMoved (t t' : Token) : Prop :=
  t.tokenId = t'.tokenId ∧ t.issuerPubkeyHex = t'.issuerPubkeyHex ∧
    ∃ time amount time' amount', t.issuedAt = .positive time ∧ t.denomination = .positive amount ∧
      t'.issuedAt = .positive time' ∧ t'.denomination = .positive amount' ∧
      NumberText.Moved time.printed amount.printed time'.printed amount'.printed

lemma DigitsMoved.issuedAt_ne {t t' : Token} (h : DigitsMoved t t') : t.issuedAt ≠ t'.issuedAt := by
  obtain ⟨-, -, time, amount, time', amount', htime, -, htime', -, ds, hds, hsnoc, -⟩ := h
  intro heq
  rw [htime, htime'] at heq
  obtain rfl : time = time' := by injection heq
  exact NumberText.snoc_ne hds hsnoc.symm

lemma toList_signatureMessage {t : Token} {time amount : Decimal}
    (htime : t.issuedAt = .positive time) (hamount : t.denomination = .positive amount) :
    t.signatureMessage.toList
      = t.tokenId.toList ++ (t.issuerPubkeyHex.toList ++ (time.text ++ amount.text)) := by
  simp [signatureMessage, tokenSignatureMessage, htime, hamount]

lemma DigitsMoved.signatureMessage_eq {t t' : Token} (h : DigitsMoved t t') :
    t.signatureMessage = t'.signatureMessage := by
  obtain ⟨hid, hkey, time, amount, time', amount', htime, hamount, htime', hamount', hmoved⟩ := h
  have htext : time.text ++ amount.text = time'.text ++ amount'.text :=
    NumberText.append_text_eq_iff.mpr (.inr (.inl hmoved))
  apply String.toList_injective
  rw [toList_signatureMessage htime hamount, toList_signatureMessage htime' hamount', hid, hkey,
    htext]

/-- Two tokens have one message exactly if the signed fields are equal or digits were moved. -/
theorem signatureMessage_eq_iff {t t' : Token} (ht : t.WellFormed) (ht' : t'.WellFormed) :
    t.signatureMessage = t'.signatureMessage ↔
      t.SameSigned t' ∨ DigitsMoved t t' ∨ DigitsMoved t' t := by
  obtain ⟨time, htime⟩ := ht.issuedAt
  obtain ⟨amount, hamount⟩ := ht.denomination
  obtain ⟨time', htime'⟩ := ht'.issuedAt
  obtain ⟨amount', hamount'⟩ := ht'.denomination
  constructor
  · intro h
    have hlist := congrArg String.toList h
    rw [toList_signatureMessage htime hamount, toList_signatureMessage htime' hamount'] at hlist
    obtain ⟨hid, hlist⟩ := List.append_inj hlist
      (by rw [String.length_toList, String.length_toList, ht.tokenId, ht'.tokenId])
    obtain ⟨hkey, htext⟩ := List.append_inj hlist
      (by rw [String.length_toList, String.length_toList, ht.issuerPubkeyHex, ht'.issuerPubkeyHex])
    have hid := String.toList_injective hid
    have hkey := String.toList_injective hkey
    rcases NumberText.append_text_eq_iff.mp htext with ⟨hprinted, hprinted'⟩ | hmoved | hmoved
    · rw [Decimal.printed_injective hprinted, ← htime'] at htime
      rw [Decimal.printed_injective hprinted', ← hamount'] at hamount
      exact .inl ⟨hid, hkey, htime, hamount⟩
    · exact .inr (.inl ⟨hid, hkey, _, _, _, _, htime, hamount, htime', hamount', hmoved⟩)
    · exact .inr (.inr ⟨hid.symm, hkey.symm, _, _, _, _, htime', hamount', htime, hamount, hmoved⟩)
  · rintro (⟨hid, hkey, hissuedAt, hdenomination⟩ | hmoved | hmoved)
    · rw [signatureMessage, signatureMessage, hid, hkey, hissuedAt, hdenomination]
    · exact hmoved.signatureMessage_eq
    · exact hmoved.signatureMessage_eq.symm

/-- The token is validated by a wallet or by a ledger. -/
def Validated (c : Crypto) (t : Token) : Prop :=
  (∃ (w w' : Wallet) (transferRecord : TransferRecord),
      w.receiveToken c t transferRecord = .ok w') ∨
    ∃ (ledger ledger' : IssuerLedger) (submitterPubkeyHex : String) (result : Submission),
      ledger.submitToken c t submitterPubkeyHex = .ok (ledger', result) ∧ result.accepted = true

/-- A token can be validated exactly if its issuer signature verifies. -/
lemma validated_iff {c : Crypto} {t : Token} :
    t.Validated c ↔ t.validIssuerSignature c = .ok true := by
  constructor
  · rintro (⟨w, w', transferRecord, h⟩ | ⟨ledger, ledger', submitter, result, h, haccepted⟩)
    · exact Wallet.validIssuerSignature_of_receiveToken h
    · exact IssuerLedger.validIssuerSignature_of_submitToken h haccepted
  · intro h
    have hnew : IssuerLedger.new.registry.get? t.tokenId = none := rfl
    have hsubmit := IssuerLedger.submitToken_of_new h hnew ""
    exact .inr ⟨_, _, _, _, hsubmit, rfl⟩

/-- With one signature, two tokens with one message are authentic together. -/
lemma validIssuerSignature_congr {c : Crypto} {t t' : Token}
    (hkey : t.issuerPubkeyHex = t'.issuerPubkeyHex)
    (hsignature : t.issuerSignatureHex = t'.issuerSignatureHex)
    (hmessage : t.signatureMessage = t'.signatureMessage) :
    t.validIssuerSignature c = t'.validIssuerSignature c := by
  rw [validIssuerSignature, validIssuerSignature, hkey, hsignature, hmessage]

/-- The signed message determines the token, and one signature validates one time and denomination,
exactly if the tokens do not arise from each other by moving digits. -/
theorem signature_binds_iff {c : Crypto} (hbinding : c.Binding) {t t' : Token}
    (ht : t.WellFormed) (ht' : t'.WellFormed) :
    ((t.signatureMessage = t'.signatureMessage → t.SameSigned t') ↔
        ¬ (DigitsMoved t t' ∨ DigitsMoved t' t)) ∧
      (t.issuerSignatureHex = t'.issuerSignatureHex → t.Validated c →
        ((t'.Validated c → t.denomination = t'.denomination ∧ t.issuedAt = t'.issuedAt) ↔
          ¬ (DigitsMoved t t' ∨ DigitsMoved t' t))) := by
  have hne : DigitsMoved t t' ∨ DigitsMoved t' t → t.issuedAt ≠ t'.issuedAt := by
    rintro (hmoved | hmoved)
    · exact hmoved.issuedAt_ne
    · exact hmoved.issuedAt_ne.symm
  have hsame : ¬ (DigitsMoved t t' ∨ DigitsMoved t' t) →
      t.signatureMessage = t'.signatureMessage → t.SameSigned t' := fun hnot hmessage =>
    ((signatureMessage_eq_iff ht ht').mp hmessage).resolve_right hnot
  refine ⟨⟨fun h hmoved => ?_, hsame⟩, fun hsignature hvalid => ⟨fun h hmoved => ?_, fun hnot h => ?_⟩⟩
  · have hmessage := (signatureMessage_eq_iff ht ht').mpr (.inr hmoved)
    exact hne hmoved (h hmessage).2.2.1
  · have hmessage := (signatureMessage_eq_iff ht ht').mpr (.inr hmoved)
    have hkey : t.issuerPubkeyHex = t'.issuerPubkeyHex := by
      rcases hmoved with hmoved | hmoved
      · exact hmoved.2.1
      · exact hmoved.2.1.symm
    rw [validated_iff, validIssuerSignature_congr hkey hsignature hmessage, ← validated_iff] at hvalid
    exact hne hmoved (h hvalid).2
  · rw [validated_iff, validIssuerSignature_eq_true_iff] at hvalid h
    obtain ⟨pk, signature, -, hdecode, hverify⟩ := hvalid
    obtain ⟨pk', signature', -, hdecode', hverify'⟩ := h
    rw [hsignature, hdecode'] at hdecode
    obtain rfl := Except.ok.inj hdecode
    have hmessage := utf8_injective (hbinding _ _ _ _ _ hverify hverify').2
    obtain ⟨-, -, hissuedAt, hdenomination⟩ := hsame hnot hmessage
    exact ⟨hdenomination, hissuedAt⟩

/-- The time 1700000000.1 and the denomination 150.0. -/
def honest : Token :=
  plainToken (.ofNat 17000000001 10 (by decide)) (.ofNat 15 3 (by decide))

/-- The time 1700000000.11 and the denomination 50.0, under the same signature. -/
def reread : Token :=
  { honest with
    issuedAt := .positive (.ofNat 170000000011 10 (by decide))
    denomination := .positive (.ofNat 5 2 (by decide)) }

lemma wellFormed_honest : honest.WellFormed :=
  ⟨by decide, by decide, ⟨_, rfl⟩, ⟨_, rfl⟩⟩

lemma wellFormed_reread : reread.WellFormed :=
  ⟨by decide, by decide, ⟨_, rfl⟩, ⟨_, rfl⟩⟩

theorem signature_binds_iff_reread :
    ((honest.signatureMessage = reread.signatureMessage → honest.SameSigned reread) ↔
        ¬ (DigitsMoved honest reread ∨ DigitsMoved reread honest)) ∧
      ((reread.Validated plainCrypto →
          honest.denomination = reread.denomination ∧ honest.issuedAt = reread.issuedAt) ↔
        ¬ (DigitsMoved honest reread ∨ DigitsMoved reread honest)) := by
  have hiff := signature_binds_iff plainCrypto_binding wellFormed_honest wellFormed_reread
  exact ⟨hiff.1, hiff.2 rfl (validated_iff.mpr (validIssuerSignature_plainToken _ _))⟩

/-- One signature validates both tokens. -/
theorem one_signature_two_denominations :
    honest.WellFormed ∧ reread.WellFormed ∧
      honest.signatureMessage = reread.signatureMessage ∧
      honest.issuerSignatureHex = reread.issuerSignatureHex ∧
      honest.Validated plainCrypto ∧ reread.Validated plainCrypto ∧
      (honest.issuedAt.text, honest.denomination.text) = ("1700000000.1", "150.0") ∧
      (reread.issuedAt.text, reread.denomination.text) = ("1700000000.11", "50.0") := by
  have hmoved : DigitsMoved honest reread :=
    ⟨rfl, rfl, _, _, _, _, rfl, rfl, rfl, rfl, [1], by decide, by decide, by decide⟩
  have hmessage := hmoved.signatureMessage_eq
  have hvalid : honest.validIssuerSignature plainCrypto = .ok true :=
    validIssuerSignature_plainToken _ _
  refine ⟨wellFormed_honest, wellFormed_reread, hmessage, rfl, validated_iff.mpr hvalid,
    validated_iff.mpr ?_, by decide +kernel, by decide +kernel⟩
  rw [← hvalid]
  exact (validIssuerSignature_congr rfl rfl hmessage).symm

end Token

end PocketCash.Poc
