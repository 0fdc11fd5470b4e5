import PocketCash.Offline.Receiving

/-!
# The balance cap

A wallet takes a token if its balance and the value of the token together are within
`MAX_BALANCE`. The balance it adds to includes the token that the new one replaces when both have
the same id. Values are not checked, so a token of negative value makes room for more than the
cap, and the room remains when the token is replaced.

A run of `receive_token`, `receive_bundle` and `create_payment` stays within the cap exactly if no
receipt replaces a token of negative value by one that does not fit beside the rest of the wallet.
-/

namespace PocketCash.Offline

namespace Wallet

/-- The balance is within the cap. -/
def UnderCap (w : Wallet) : Prop := w.balance ≤ w.policy.maxBalance

/-- If the token replaces one of negative value, it fits into the wallet without that one. -/
def ReplacesWithin (w : Wallet) (token : Token) : Prop :=
  ∀ held, w.utr.find? token.tokenId = some held → held.value < 0 →
    w.balance + token.value - held.value ≤ w.policy.maxBalance

/-! ### One token -/

/-- The balance with a token in place of the one that has its id. -/
lemma balance_put (w : Wallet) (token : Token) :
    balance { w with utr := w.utr.put token } = w.balance + token.value
      - ((w.utr.find? token.tokenId).map Token.value).getD 0 :=
  w.utr.total_put token

/-- A token that passes the check keeps the balance within the cap, unless it replaces one of
negative value. -/
lemma underCap_put_iff {w : Wallet} {token : Token}
    (hcap : w.balance + token.value ≤ w.policy.maxBalance) :
    UnderCap { w with utr := w.utr.put token } ↔ w.ReplacesWithin token := by
  rw [UnderCap, ReplacesWithin, balance_put]
  cases w.utr.find? token.tokenId with
  | none => simpa using hcap
  | some held =>
    constructor
    · rintro h _ hheld -
      cases hheld
      exact h
    · intro h
      by_cases hnegative : held.value < 0
      · exact h held rfl hnegative
      · simp only [Option.map_some, Option.getD_some]
        omega

/-! ### Calls -/

/-- A call that changes the unspent tokens. -/
inductive Call
  | receiveToken (token : Token)
  | receiveBundle (bundle : PaymentBundle) (readings : Nat → ReceiptReading)
  | createPayment (receiverPk : String) (amount : Int) (draw : PaymentDraw)

/-- The wallet after a call, which may have raised. -/
def call (c : Crypto) (w : Wallet) : Call → Wallet
  | .receiveToken token =>
    match w.receiveToken token with
    | .error _ => w
    | .ok w' => w'
  | .receiveBundle bundle readings => (w.receiveBundle c bundle readings).1
  | .createPayment receiverPk amount draw => (w.createPayment c receiverPk amount draw).1

/-- The wallet after a run. -/
def afterCalls (c : Crypto) (privateKeyHex publicKeyHex : String) (policy : PolicyConfig)
    (es : List Call) : Wallet :=
  runFrom (call c) (new privateKeyHex publicKeyHex policy) es

/-- The balance is within the cap after each transfer of a bundle. -/
def UnderCapWithin (c : Crypto) (w : Wallet) : Call → Prop
  | .receiveBundle bundle readings => ∀ before, before <+: rounds bundle readings →
      (runFrom (Receiving.next c bundle.tokens) ⟨w, [], none⟩ before).wallet.UnderCap
  | _ => True

/-- If the loop accepts the transfer, its token fits in place of one of negative value. -/
def RoundKeepsCap (c : Crypto) (tokens : Dict String Token) (loop : Receiving)
    (handled : Transfer × ReceiptReading) : Prop :=
  loop.raised = none → ∀ token, tokens.get? handled.1.tokenId = some token →
    loop.wallet.Receives c handled.1 token handled.2 → loop.wallet.ReplacesWithin token

/-- Each token that the call takes fits in place of one of negative value. -/
def KeepsCap (c : Crypto) (w : Wallet) : Call → Prop
  | .receiveToken token => token.currentOwner = w.publicKeyHex →
      w.balance + token.value ≤ w.policy.maxBalance → w.ReplacesWithin token
  | .receiveBundle bundle readings =>
      Along (Receiving.next c bundle.tokens) (RoundKeepsCap c bundle.tokens) ⟨w, [], none⟩
        (rounds bundle readings)
  | .createPayment .. => True

/-- One transfer of a bundle. -/
lemma underCap_next_iff {c : Crypto} {tokens : Dict String Token} {loop : Receiving}
    {handled : Transfer × ReceiptReading} (h : loop.wallet.UnderCap) :
    (loop.next c tokens handled).wallet.UnderCap ↔ RoundKeepsCap c tokens loop handled := by
  rw [Receiving.next, RoundKeepsCap]
  cases hraised : loop.raised with
  | some e => simpa using h
  | none =>
    cases htoken : tokens.get? handled.1.tokenId with
    | none => simpa using h
    | some token =>
      by_cases hreceives : loop.wallet.Receives c handled.1 token handled.2
      · have happly : loop.wallet.applyTransferWithReason c handled.1 token handled.2
            = .ok (loop.wallet.receive c handled.1 token, true, .accepted) :=
          applyTransferWithReason_eq_true_iff.mpr ⟨hreceives, rfl, rfl⟩
        have hput : (loop.wallet.receive c handled.1 token).UnderCap ↔
            loop.wallet.ReplacesWithin token := underCap_put_iff hreceives.balance
        simp [happly, hput, hreceives]
      · have hrefused : ∀ w' ok reason, loop.wallet.applyTransferWithReason c handled.1 token
            handled.2 = .ok (w', ok, reason) → w' = loop.wallet := by
          intro w' ok reason happly
          cases ok with
          | false => exact applyTransferWithReason_eq_false happly
          | true => exact absurd (applyTransferWithReason_eq_true_iff.mp happly).1 hreceives
        simp only [Option.some.injEq, forall_eq', hreceives, false_implies, imp_true_iff, iff_true]
        split
        · exact h
        · rename_i happly
          rw [hrefused _ _ _ happly]
          exact h

/-- A bundle. -/
lemma keepsCap_receiveBundle_iff {c : Crypto} {w : Wallet} (h : w.UnderCap)
    {bundle : PaymentBundle} {readings : Nat → ReceiptReading} :
    w.KeepsCap c (.receiveBundle bundle readings) ↔
      w.UnderCapWithin c (.receiveBundle bundle readings) :=
  Along.iff_forall_prefix (I := fun loop : Receiving => loop.wallet.UnderCap)
    (fun _ _ hloop => underCap_next_iff hloop) h

/-- A payment takes tokens of positive total value out of the wallet. -/
lemma UnderCap.createPayment {w : Wallet} (h : w.UnderCap) (c : Crypto) (receiverPk : String)
    (amount : Int) (draw : PaymentDraw) :
    (w.createPayment c receiverPk amount draw).1.UnderCap := by
  rcases createPayment_cases c w receiverPk amount draw with
    ⟨e, syncRequired, hraise⟩ | ⟨w', bundle, selected, hreturn, hpays⟩
  · rw [hraise]
    exact h
  · have htotal := (hpays.perm.map Token.value).sum_eq
    have hpositive := hpays.positive
    have hcovers := hpays.covers
    rw [List.map_append, List.sum_append] at htotal
    rw [UnderCap, balance, htotal] at h
    rw [hreturn, UnderCap, balance]
    simp only [hpays.policy]
    omega

/-- One call. -/
lemma underCap_call_iff {c : Crypto} {w : Wallet} (h : w.UnderCap) (e : Call) :
    (w.call c e).UnderCap ∧ w.UnderCapWithin c e ↔ w.KeepsCap c e := by
  cases e with
  | receiveToken token =>
    have hwithin : w.UnderCapWithin c (.receiveToken token) := trivial
    rw [and_iff_left hwithin, call, receiveToken, KeepsCap]
    split_ifs with howner hcap
    · exact iff_of_true h fun howner' => absurd howner' howner
    · exact iff_of_true h fun _ hcap' => absurd hcap' (Int.not_le.mpr hcap)
    · rw [← underCap_put_iff (Int.not_lt.mp hcap)]
      exact ⟨fun hput _ _ => hput, fun hput => hput (not_not.mp howner) (Int.not_lt.mp hcap)⟩
  | receiveBundle bundle readings =>
    rw [keepsCap_receiveBundle_iff h, and_iff_right_iff_imp]
    intro hrounds
    rw [call, receiveBundle_fst]
    exact hrounds _ (List.prefix_refl _)
  | createPayment receiverPk amount draw =>
    exact iff_of_true ⟨h.createPayment c receiverPk amount draw, trivial⟩ trivial

/-- The balance is within the cap in every state of a run exactly if every token that is received
in place of one of negative value fits without it. -/
theorem balance_le_maxBalance_iff {c : Crypto} {privateKeyHex publicKeyHex : String}
    {policy : PolicyConfig} {es : List Call} :
    ((∀ before, before <+: es →
        let w := afterCalls c privateKeyHex publicKeyHex policy before
        w.balance ≤ w.policy.maxBalance) ∧
      Along (call c) (UnderCapWithin c) (new privateKeyHex publicKeyHex policy) es) ↔
    0 ≤ policy.maxBalance ∧
      Along (call c) (KeepsCap c) (new privateKeyHex publicKeyHex policy) es := by
  have hrun : UnderCap (new privateKeyHex publicKeyHex policy) →
      (Along (call c) (KeepsCap c) (new privateKeyHex publicKeyHex policy) es ↔
        (∀ before, before <+: es →
          UnderCap (afterCalls c privateKeyHex publicKeyHex policy before)) ∧
        Along (call c) (UnderCapWithin c) (new privateKeyHex publicKeyHex policy) es) :=
    fun hstart => Along.iff_forall_prefix_and (I := UnderCap) (g := UnderCapWithin c)
      (fun _ e h => underCap_call_iff h e) hstart
  constructor
  · intro h
    have hstart := h.1 [] List.nil_prefix
    exact ⟨hstart, (hrun hstart).mpr h⟩
  · rintro ⟨hstart, h⟩
    exact (hrun hstart).mp h

/-- A bundle with which Mallory sends Bob a token `t1` of the given value. -/
def malloryBundle (transferId : String) (value : Int) : PaymentBundle :=
  plainBundle [plainTransfer transferId "t1" "mallory" "bob"]
    [{ plainToken "t1" "bob" with value := value }]

/-- Mallory sends Bob a token of -10000 and then one of 20000 with the same id. Bob's cap is
10000. -/
theorem balance_replacing_negative :
    let w := afterCalls plainCrypto "sk:bob" "bob" .default
      [.receiveBundle (malloryBundle "x1" (-10000)) fun _ => ⟨1002000000, 1002000000⟩,
        .receiveBundle (malloryBundle "x2" 20000) fun _ => ⟨1002000000, 1002000000⟩]
    w.policy.maxBalance = 10000 ∧ w.balance = 20000 := by
  decide +kernel

end Wallet

end PocketCash.Offline
