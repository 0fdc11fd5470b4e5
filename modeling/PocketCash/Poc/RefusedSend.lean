import PocketCash.Library.Run
import PocketCash.Poc.Transfer

/-!
# Refused sends

`send_token` writes the token back after the lifecycle reset, before `build_transfer` checks anything.
This changes nothing if the reset leaves the token as it is, and the reset leaves every token as it is
that any of the four operations has put into the register.
-/

namespace PocketCash.Poc

/-- A second reset changes nothing. -/
@[simp] lemma checkLifecycleReset_idem (token : Token) (walletPubkeyHex : String) :
    checkLifecycleReset (checkLifecycleReset token walletPubkeyHex) walletPubkeyHex
      = checkLifecycleReset token walletPubkeyHex := by
  rw [checkLifecycleReset, checkLifecycleReset]
  split_ifs <;> rfl

namespace Wallet

/-- `Wallet(policy)` with the given key pair. -/
def new (privateKeyBytes : Bytes) (pubkeyHex : String) (policy : PolicyConfig) : Wallet :=
  ⟨privateKeyBytes, pubkeyHex, ⟨pubkeyHex, .empty, ∅, policy⟩⟩

/-- Remove token from wallet for reconciliation submission. -/
def depositToIssuer (w : Wallet) (tokenId : String) : Wallet × Except PyError Token :=
  match w.state.unspentTokens.get? tokenId with
  | none => (w, .error (.valueError "Token not found in wallet"))
  | some token =>
    ({ w with state := { w.state with unspentTokens := w.state.unspentTokens.pop tokenId } },
      .ok token)

/-- A call of a wallet's owner, or a transfer that arrives. -/
inductive Event
  | issue (denomination : PyFloat) (draw : IssueDraw)
  | receive (token : Token) (transferRecord : TransferRecord)
  | send (tokenId recipientPubkeyHex : String) (amount : PyFloat) (draw : TransferDraw)
  | deposit (tokenId : String)

/-- One event. A call that raises keeps what it changed before. -/
def step (c : Crypto) (w : Wallet) : Event → Wallet
  | .issue denomination draw => (w.issueToken c denomination draw).1
  | .receive token transferRecord =>
    match w.receiveToken c token transferRecord with
    | .error _ => w
    | .ok w' => w'
  | .send tokenId recipientPubkeyHex amount draw =>
    (w.sendToken c tokenId recipientPubkeyHex amount draw).1
  | .deposit tokenId => (w.depositToIssuer tokenId).1

/-- The reset leaves every held token as it is. -/
def ResetDone (w : Wallet) : Prop :=
  ∀ tokenId token, w.state.unspentTokens.get? tokenId = some token →
    checkLifecycleReset token w.pubkeyHex = token

variable {c : Crypto} {w w' : Wallet} {tokenId : String}

namespace ResetDone

lemma new (privateKeyBytes : Bytes) (pubkeyHex : String) (policy : PolicyConfig) :
    (Wallet.new privateKeyBytes pubkeyHex policy).ResetDone := by
  intro tokenId token hget
  cases hget

lemma set (h : w.ResetDone) {token : Token} (htoken : checkLifecycleReset token w.pubkeyHex = token)
    (hpubkey : w'.pubkeyHex = w.pubkeyHex)
    (htokens : w'.state.unspentTokens = w.state.unspentTokens.set tokenId token) :
    w'.ResetDone := by
  intro tokenId' token' hget
  rw [htokens, Dict.get?_set] at hget
  rw [hpubkey]
  split_ifs at hget
  · cases hget
    exact htoken
  · exact h tokenId' token' hget

lemma pop (h : w.ResetDone) (hpubkey : w'.pubkeyHex = w.pubkeyHex)
    (htokens : w'.state.unspentTokens = KeyedList.pop w.state.unspentTokens tokenId) :
    w'.ResetDone := by
  intro tokenId' token' hget
  rw [htokens, Dict.get?_pop] at hget
  rw [hpubkey]
  split_ifs at hget
  exact h tokenId' token' hget

/-- Writing a held token back after the reset changes nothing. -/
lemma keepToken_eq (h : w.ResetDone) {token : Token}
    (hget : w.state.unspentTokens.get? tokenId = some token) :
    w.keepToken tokenId (checkLifecycleReset token w.pubkeyHex) = w := by
  rw [h tokenId token hget, keepToken, Dict.set_of_get? hget]

/-- What `send_token` does with a register of tokens that the reset leaves as they are. -/
lemma sendToken_cases (h : w.ResetDone) (c : Crypto) (tokenId recipientPubkeyHex : String)
    (amount : PyFloat) (draw : TransferDraw) :
    (∃ e, w.sendToken c tokenId recipientPubkeyHex amount draw = (w, .error e)) ∨
      ∃ record newToken, w.sendToken c tokenId recipientPubkeyHex amount draw
        = (w.dropToken tokenId record.nonceHex, .ok (record, newToken)) := by
  rw [sendToken]
  cases hget : w.state.unspentTokens.get? tokenId with
  | none => exact .inl ⟨_, rfl⟩
  | some token =>
    dsimp only
    rw [h.keepToken_eq hget]
    cases buildTransfer c (checkLifecycleReset token w.pubkeyHex) w.privateKeyBytes w.pubkeyHex
        recipientPubkeyHex amount w.state.policy draw with
    | error e => exact .inl ⟨e, rfl⟩
    | ok transfer => exact .inr ⟨transfer.1, transfer.2, rfl⟩

lemma receiveToken (h : w.ResetDone) {token : Token} {transferRecord : TransferRecord}
    (hreceive : w.receiveToken c token transferRecord = .ok w') : w'.ResetDone := by
  simp only [Wallet.receiveToken, bind_eq_ok_iff, guard_eq_ok_iff, pure_eq_ok] at hreceive
  obtain ⟨authentic, -, -, chained, -, -, -, -, -, hstored⟩ := hreceive
  cases hstored
  exact h.set (checkLifecycleReset_idem token w.pubkeyHex) rfl rfl

/-- Each of the four operations puts only tokens into the register that the reset leaves as they
are. -/
lemma step (h : w.ResetDone) (c : Crypto) (e : Event) : (w.step c e).ResetDone := by
  cases e with
  | issue denomination draw => exact h.set (if_neg (by simp)) rfl rfl
  | receive token transferRecord =>
    rw [Wallet.step]
    split
    · exact h
    · rename_i w' hreceive
      exact h.receiveToken hreceive
  | send tokenId recipientPubkeyHex amount draw =>
    rw [Wallet.step]
    rcases h.sendToken_cases c tokenId recipientPubkeyHex amount draw with
      ⟨e, hraised⟩ | ⟨record, newToken, hsent⟩
    · rwa [hraised]
    · rw [hsent]
      exact h.pop rfl rfl
  | deposit tokenId =>
    rw [Wallet.step, depositToIssuer]
    split
    · exact h
    · exact h.pop rfl rfl

end ResetDone

/-- Whatever a wallet has issued, received, sent and deposited before, a send that raises leaves it as
it is. -/
theorem sendToken_refused_same {privateKeyBytes : Bytes} {pubkeyHex : String} {policy : PolicyConfig}
    {es : List Event} {recipientPubkeyHex : String} {amount : PyFloat} {draw : TransferDraw}
    {e : PyError}
    (hw : runFrom (step c) (new privateKeyBytes pubkeyHex policy) es = w)
    (hraised : w.sendToken c tokenId recipientPubkeyHex amount draw = (w', .error e)) :
    w'.state.unspentTokens = w.state.unspentTokens ∧ w'.state.spentNonces = w.state.spentNonces := by
  have hreset : w.ResetDone := by
    rw [← hw]
    exact runFrom_invariant (fun _ e h => h.step c e) (.new privateKeyBytes pubkeyHex policy) es
  rcases hreset.sendToken_cases c tokenId recipientPubkeyHex amount draw with
    ⟨e', hsame⟩ | ⟨record, newToken, hsent⟩
  · rw [hsame] at hraised
    cases hraised
    exact ⟨rfl, rfl⟩
  · rw [hsent] at hraised
    cases hraised

/-- An issuer with a token of 10000.0. -/
def richIssuer : Wallet :=
  runFrom (step plainCrypto) plainIssuer
    [.issue (.positive (.ofNat 1 5 one_mod_ten)) ⟨"t1", .zero false⟩]

/-- A payment above the limit is refused. -/
theorem sendToken_refused_same_richIssuer :
    let w' := (richIssuer.sendToken plainCrypto "t1" "" (.positive (.ofNat 1 5 one_mod_ten))
      ⟨.zero false, []⟩).1
    w'.state.unspentTokens = richIssuer.state.unspentTokens ∧
      w'.state.spentNonces = richIssuer.state.spentNonces := by
  have hraised : (richIssuer.sendToken plainCrypto "t1" "" (.positive (.ofNat 1 5 one_mod_ten))
      ⟨.zero false, []⟩).2
      = .error (.valueError "Transaction exceeds offline pocket cash limits") := by
    decide +kernel
  exact sendToken_refused_same rfl (Prod.ext rfl hraised)

end Wallet

end PocketCash.Poc
