import PocketCash.Library.KeyedTotal
import PocketCash.Canonical.Selection

/-!
# What a canonical wallet is paid

`receive_token` looks for the id of the token in the STR, and stores the token over the one that the
UTR holds under this id. So a payload that is delivered twice, or a fork of a held token, is
acknowledged again, and adds the difference to the token it replaces only.
-/

namespace PocketCash.Canonical

namespace Wallet

/-- `True` says that the value of the token was added to the UTR, and `False` that both registers
are as before. -/
structure PaidFor (c : Crypto) (w : Wallet) (payload : JsonText) : Prop where
  acknowledged : (w.receiveToken c payload).2 = true →
    ∃ token, tokenFromPayload payload = .ok token ∧
      totalValue (w.receiveToken c payload).1.utr.items = totalValue w.utr.items + token.value
  refused : (w.receiveToken c payload).2 = false →
    (w.receiveToken c payload).1.utr = w.utr ∧ (w.receiveToken c payload).1.str = w.str

/-- A token is not acknowledged while its id is held. -/
def RefusesHeld (c : Crypto) (w : Wallet) (payload : JsonText) : Prop :=
  ∀ token, tokenFromPayload payload = .ok token → token.tokenId ∈ w.utr.keys →
    (w.receiveToken c payload).2 = false

section

variable {c : Crypto} {w : Wallet} {payload : JsonText} {token : Token}

lemma receiveToken_of_accepts (hread : tokenFromPayload payload = .ok token)
    (haccepts : w.Accepts c token) :
    w.receiveToken c payload = ({ w with utr := w.utr.put token }, true) := by
  rcases receiveToken_cases c w payload with ⟨token', hread', -, hreceive⟩ | ⟨hrefused, -⟩
  · obtain rfl := Except.ok.inj (hread.symm.trans hread')
    exact hreceive
  · exact absurd haccepts (hrefused token hread)

lemma receiveToken_of_not_accepts
    (hrefused : ∀ token, tokenFromPayload payload = .ok token → ¬ w.Accepts c token) :
    w.receiveToken c payload = (w, false) := by
  rcases receiveToken_cases c w payload with ⟨token, hread, haccepts, -⟩ | ⟨-, hreceive⟩
  · exact absurd haccepts (hrefused token hread)
  · exact hreceive

/-- Storing a token adds its value and takes away that of the one it replaces. -/
lemma totalValue_put (utr : Register) (token : Token) :
    totalValue (utr.put token).items
      = totalValue utr.items + token.value - utr.totalAt Token.value token.tokenId :=
  utr.total_put token

lemma totalAt_eq_zero_iff {utr : Register} {tokenId : String} :
    utr.totalAt Token.value tokenId = 0 ↔ ∀ held, utr.find? tokenId = some held → held.value = 0 := by
  rw [KeyedList.totalAt]
  cases utr.find? tokenId with
  | none => simp
  | some held => simp

lemma paidFor_of_accepts_iff (hread : tokenFromPayload payload = .ok token)
    (haccepts : w.Accepts c token) :
    w.PaidFor c payload ↔ w.utr.totalAt Token.value token.tokenId = 0 := by
  have hreceive := receiveToken_of_accepts hread haccepts
  have htotal := totalValue_put w.utr token
  constructor
  · intro hpaid
    obtain ⟨token', hread', hpays⟩ := hpaid.acknowledged (by rw [hreceive])
    obtain rfl := Except.ok.inj (hread.symm.trans hread')
    rw [hreceive, htotal] at hpays
    omega
  · intro hzero
    refine ⟨fun _ => ⟨token, hread, ?_⟩, fun hfalse => ?_⟩
    · rw [hreceive, htotal, hzero, sub_zero]
    · rw [hreceive] at hfalse
      cases hfalse

end

/-- A wallet is paid for what it acknowledges exactly if nothing of value is replaced; in addition it
refuses tokens it holds exactly if nothing is replaced. -/
theorem receiveToken_paidFor_iff (c : Crypto) (w : Wallet) (payload : JsonText) :
    (w.PaidFor c payload ↔ ∀ token, tokenFromPayload payload = .ok token → w.Accepts c token →
      ∀ held, w.utr.find? token.tokenId = some held → held.value = 0) ∧
    (w.PaidFor c payload ∧ w.RefusesHeld c payload ↔
      ∀ token, tokenFromPayload payload = .ok token → w.Accepts c token →
        token.tokenId ∉ w.utr.keys) := by
  by_cases hrefused : ∀ token, tokenFromPayload payload = .ok token → ¬ w.Accepts c token
  · have hreceive := receiveToken_of_not_accepts hrefused
    have hpaid : w.PaidFor c payload := by
      refine ⟨fun htrue => ?_, fun _ => ?_⟩
      · rw [hreceive] at htrue
        cases htrue
      · rw [hreceive]
        exact ⟨rfl, rfl⟩
    have hheld : w.RefusesHeld c payload := fun _ _ _ => by rw [hreceive]
    exact ⟨iff_of_true hpaid fun token hread haccepts => absurd haccepts (hrefused token hread),
      iff_of_true ⟨hpaid, hheld⟩ fun token hread haccepts => absurd haccepts (hrefused token hread)⟩
  · push Not at hrefused
    obtain ⟨token, hread, haccepts⟩ := hrefused
    have hreceive := receiveToken_of_accepts hread haccepts
    have hpaid := paidFor_of_accepts_iff hread haccepts
    simp only [hread, Except.ok.injEq, forall_eq', haccepts, forall_const]
    refine ⟨hpaid.trans totalAt_eq_zero_iff, ?_⟩
    constructor
    · rintro ⟨-, hheld⟩ hmem
      have hfalse := hheld token hread hmem
      rw [hreceive] at hfalse
      cases hfalse
    · intro hfree
      refine ⟨hpaid.mpr (KeyedList.totalAt_of_notMem hfree), fun token' hread' hmem => ?_⟩
      obtain rfl := Except.ok.inj (hread.symm.trans hread')
      exact absurd hmem hfree

/-- A replay is answered as the first delivery was, and changes nothing. -/
theorem receiveToken_replay (c : Crypto) (w : Wallet) (payload : JsonText) :
    (w.receiveToken c payload).1.receiveToken c payload = w.receiveToken c payload := by
  rcases receiveToken_cases c w payload with ⟨token, hread, haccepts, hreceive⟩ | ⟨-, hreceive⟩
  · have hagain : Accepts c { w with utr := w.utr.put token } token :=
      ⟨haccepts.owner, haccepts.chain, haccepts.notSpent⟩
    rw [hreceive, receiveToken_of_accepts hread hagain, KeyedList.put_put rfl]
  · rw [hreceive, hreceive]

/-- A note of the bank for Bob. -/
def bobNote : Token := plainToken "tok-w1" 50 "bob"

/-- Bob is sent his note, and sent it again. -/
theorem receiveToken_bobNote_twice :
    let w := ((plainWallet "bob" []).receiveToken plainCrypto bobNote.toJson).1
    totalValue w.utr.items = 50 ∧ (w.receiveToken plainCrypto bobNote.toJson).2 = true ∧
      ¬ w.PaidFor plainCrypto bobNote.toJson ∧ ¬ w.RefusesHeld plainCrypto bobNote.toJson := by
  have hread := tokenFromPayload_toJson bobNote
  have haccepts : (plainWallet "bob" []).Accepts plainCrypto bobNote :=
    ⟨rfl, by decide +kernel, by decide⟩
  have hfirst := receiveToken_of_accepts hread haccepts
  have hsecond := receiveToken_replay plainCrypto (plainWallet "bob" []) bobNote.toJson
  dsimp only
  rw [hsecond, hfirst]
  rw [hfirst] at hsecond
  refine ⟨rfl, rfl, fun hpaid => ?_, fun hheld => ?_⟩
  · obtain ⟨token, hread', hpays⟩ := hpaid.acknowledged (by rw [hsecond])
    obtain rfl := Except.ok.inj (hread.symm.trans hread')
    rw [hsecond] at hpays
    revert hpays
    decide
  · have hfalse := hheld bobNote hread (by decide)
    rw [hsecond] at hfalse
    cases hfalse

end Wallet

end PocketCash.Canonical
