import PocketCash.Offline.Wallet

/-!
# The token half of an offline payment

The receiver of a payment verifies the signature of the transfer, and compares the transfer with the
token in the link fields only. It never looks at the issuer's signature on the token, nor at the
token id in the transfer. So a token that comes with a signed transfer can be replaced by one with
other contents, as long as it has the same links, is not expired and fits under the balance cap.
-/

namespace PocketCash.Offline

namespace Wallet

/-- The tokens differ in one of the fields that drive identity, balance, expiry and hop limits. -/
def Altered (token token' : Token) : Prop :=
  (token'.tokenId, token'.value, token'.issueTimestamp, token'.nonce, token'.hopCount)
    ≠ (token.tokenId, token.value, token.issueTimestamp, token.nonce, token.hopCount)
  deriving Decidable

/-- The wallet does not accept the pair: it answers with another reason, or raises. -/
def Rejects (c : Crypto) (w : Wallet) (transfer : Transfer) (token : Token)
    (reading : ReceiptReading) : Prop :=
  ∀ w' reason, w.applyTransferWithReason c transfer token reading ≠ .ok (w', true, reason)

/-- What the receiver notices about a token that comes in place of `token`. -/
def Notices (w : Wallet) (token token' : Token) (reading : ReceiptReading) : Prop :=
  token'.lastTransferId ≠ token.lastTransferId ∨
  token'.lastTransferHash ≠ token.lastTransferHash ∨
  isNotExpired token'.createdAt w.policy.tokenExpirySeconds reading.expiryNow ≠ .ok true ∨
  wholeSeconds reading.epochNow - token'.issueTimestamp > w.policy.tokenExpirySeconds ∨
  w.balance + token'.value > w.policy.maxBalance

lemma rejects_iff {c : Crypto} {w : Wallet} {transfer : Transfer} {token : Token}
    {reading : ReceiptReading} :
    w.Rejects c transfer token reading ↔ ¬ w.Receives c transfer token reading := by
  constructor
  · intro h hreceives
    exact h _ _ (applyTransferWithReason_eq_true_iff.mpr ⟨hreceives, rfl, rfl⟩)
  · intro h w' reason happly
    exact h (applyTransferWithReason_eq_true_iff.mp happly).1

/-- With another token, an acceptable transfer stays acceptable unless the receiver notices. -/
lemma Receives.replace_iff {c : Crypto} {w : Wallet} {transfer : Transfer} {token token' : Token}
    {reading reading' : ReceiptReading} (h : w.Receives c transfer token reading) :
    w.Receives c transfer token' reading' ↔ ¬ w.Notices token token' reading' := by
  simp only [Notices, not_or, ne_eq, not_not, Int.not_lt]
  constructor
  · intro h'
    exact ⟨h'.parent.symm.trans h.parent, h'.parentHash.symm.trans h.parentHash, h'.created,
      h'.unexpired, h'.balance⟩
  · rintro ⟨hid, hhash, hcreated, hunexpired, hbalance⟩
    exact { h with
      parent := h.parent.trans hid.symm
      parentHash := h.parentHash.trans hhash.symm
      prevHash := h.prevHash.trans hhash.symm
      created := hcreated
      unexpired := hunexpired
      balance := hbalance }

/-- A token that comes in place of an accepted one is rejected exactly if the receiver notices its
links, its age or the balance. -/
theorem rejects_altered_iff {c : Crypto} {w w' : Wallet} {transfer : Transfer}
    {token token' : Token} {reading reading' : ReceiptReading} {reason : ReceiptReason}
    (haccepted : w.applyTransferWithReason c transfer token reading = .ok (w', true, reason)) :
    w.Rejects c transfer token' reading' ↔ w.Notices token token' reading' := by
  have hreceives := (applyTransferWithReason_eq_true_iff.mp haccepted).1
  rw [rejects_iff, hreceives.replace_iff, not_not]

/-! ### A payment of 100 -/

/-- Bob's wallet, which is empty. -/
def plainReceiver : Wallet := .new "sk:bob" "bob" .default

/-- Two seconds after the token was issued. -/
def plainReading : ReceiptReading := ⟨1002000000, 1002000000⟩

/-- The token as Alice hands it over. -/
def handedToken : Token := outboundToken "bob" (plainToken "t1" "alice")

lemma receives_handedToken : plainReceiver.Receives plainCrypto
    (plainTransfer "x1" "t1" "alice" "bob") handedToken plainReading := by
  constructor <;> decide

/-- A token that is too old is noticed. -/
theorem rejects_expiredToken :
    plainReceiver.Rejects plainCrypto (plainTransfer "x1" "t1" "alice" "bob")
        { handedToken with issueTimestamp := 0 } ⟨1002000000, 604801000000⟩ ↔
      plainReceiver.Notices handedToken { handedToken with issueTimestamp := 0 }
        ⟨1002000000, 604801000000⟩ :=
  rejects_altered_iff (applyTransferWithReason_eq_true_iff.mpr ⟨receives_handedToken, rfl, rfl⟩)

/-- Bob accepts Alice's transfer of a token of 100 also with another token, of 10000. -/
theorem receives_inflatedToken :
    let inflated := { handedToken with tokenId := "t2", value := 10000 }
    (∃ w' reason, plainReceiver.applyTransferWithReason plainCrypto
      (plainTransfer "x1" "t1" "alice" "bob") handedToken plainReading = .ok (w', true, reason)) ∧
    Altered handedToken inflated ∧
    ¬ plainReceiver.Rejects plainCrypto (plainTransfer "x1" "t1" "alice" "bob") inflated
      plainReading := by
  intro inflated
  refine ⟨⟨_, _, applyTransferWithReason_eq_true_iff.mpr ⟨receives_handedToken, rfl, rfl⟩⟩,
    by decide +kernel, ?_⟩
  rw [rejects_iff, not_not, receives_handedToken.replace_iff]
  rintro (h | h | h | h | h) <;> exact absurd h (by decide +kernel)

end Wallet

end PocketCash.Offline
