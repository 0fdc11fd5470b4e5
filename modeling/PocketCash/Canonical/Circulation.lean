import PocketCash.Canonical.Network
import PocketCash.Canonical.PaymentSession

/-!
# Circulation and settlement

Wallets exchange tokens by single payloads and by payment sessions, and a holder submits a token to
the reconciliation engine. A wallet stores a token only after it has validated the chain, so the
engine has no objection to the chain either. It also counts the transfers, which no wallet does.
-/

namespace PocketCash.Canonical

/-! ### What sending and receiving keep -/

namespace Wallet

/-- `P` is kept by every call of `send_tokens` and `receive_token`. -/
structure Closed (c : Crypto) (P : Wallet → Prop) : Prop where
  send : ∀ w stamp receiverPk tokens, P w → P (w.sendTokens c stamp receiverPk tokens).1
  receive : ∀ w payload, P w → P (w.receiveToken c payload).1

namespace Closed

variable {c : Crypto} {P : Wallet → Prop} {w : Wallet}

/-- It is enough that `P` is kept when a token leaves the UTR, when its new version is then put into
the STR, and when an acceptable token is put into the UTR. -/
lemma of_moves (hpop : ∀ w k, P w → P { w with utr := w.utr.pop k })
    (hpark : ∀ w (token sent : Token) receiverPk, P w → token.Extends sent receiverPk →
      P { w with utr := w.utr.pop token.tokenId, str := w.str.put sent })
    (hstore : ∀ w token, P w → w.Accepts c token → P { w with utr := w.utr.put token }) :
    Closed c P := by
  have hloop : ∀ stamp senderSk receiverPk tokens i w, P w →
      P (sendLoop c stamp senderSk receiverPk i w tokens).1 := by
    intro stamp senderSk receiverPk tokens
    induction tokens with
    | nil => exact fun _ _ h => h
    | cons token rest ih =>
      intro i w h
      rw [sendLoop]
      split
      · exact h
      · rename_i localToken hfind
        obtain ⟨-, hid⟩ := KeyedList.find?_eq_some_iff.mp hfind
        dsimp only
        split
        · exact hpop w _ h
        · rename_i sent happend
          have hparked := hpark w localToken sent receiverPk h
            (Token.extends_of_appendTransfer happend)
          rw [hid] at hparked
          have hrest := ih (i + 1) _ hparked
          split <;> rename_i hsent <;> rw [hsent] at hrest <;> exact hrest
  constructor
  · intro w stamp receiverPk tokens h
    rw [sendTokens]
    split
    · exact h
    · exact hloop _ _ _ _ _ _ h
  · intro w payload h
    rcases w.receiveToken_cases c payload with ⟨token, -, haccepts, hreceive⟩ | ⟨-, hreceive⟩
    · rw [hreceive]
      exact hstore w token h haccepts
    · rw [hreceive]
      exact h

lemma and {Q : Wallet → Prop} (hP : Closed c P) (hQ : Closed c Q) :
    Closed c fun w => P w ∧ Q w where
  send w stamp receiverPk tokens h :=
    ⟨hP.send w stamp receiverPk tokens h.1, hQ.send w stamp receiverPk tokens h.2⟩
  receive w payload h := ⟨hP.receive w payload h.1, hQ.receive w payload h.2⟩

/-- The owner and the key store of a wallet never change. -/
lemma identity (c : Crypto) (ownerPk : String) (keystore : KeyStore) :
    Closed c fun w => w.ownerPk = ownerPk ∧ w.keystore = keystore :=
  of_moves (fun _ _ h => h) (fun _ _ _ _ h _ => h) fun _ _ h _ => h

lemma initiatePayment (hP : Closed c P) (h : P w) (stamp : Nat → Stamp) (price : Int)
    (receiverPk : String) : P (w.initiatePayment c stamp price receiverPk).1 := by
  rw [Wallet.initiatePayment]
  split
  · exact h
  · exact hP.send _ _ _ _ h

lemma receiveAll (hP : Closed c P) (h : P w) (refusal : String) (payloads : List JsonText) :
    P (w.receiveAll c refusal payloads).1 := by
  induction payloads generalizing w with
  | nil => exact h
  | cons payload rest ih =>
    have hreceived := hP.receive w payload h
    rw [Wallet.receiveAll]
    split <;> rename_i hreceive <;> rw [hreceive] at hreceived
    · exact ih hreceived
    · exact hreceived

lemma attempt_sender (hP : Closed c P) {p : PaymentSession} (h : P p.senderWallet)
    (payStamp changeStamp : Nat → Stamp) :
    P (p.attempt c payStamp changeStamp).1.senderWallet := by
  have hpaid := hP.initiatePayment h payStamp p.price p.receiverWallet.ownerPk
  rw [PaymentSession.attempt]
  split <;> rename_i hpay <;> rw [hpay] at hpaid
  · exact hpaid
  · split
    · exact hpaid
    · split
      · exact hpaid
      · split
        · exact hpaid
        · split
          · exact hpaid
          · rename_i changePayloads _
            have hback := hP.receiveAll hpaid "sender rejected change token" changePayloads
            split <;> rename_i hreceive <;> rw [hreceive] at hback <;> exact hback

lemma attempt_receiver (hP : Closed c P) {p : PaymentSession} (h : P p.receiverWallet)
    (payStamp changeStamp : Nat → Stamp) :
    P (p.attempt c payStamp changeStamp).1.receiverWallet := by
  rw [PaymentSession.attempt]
  split
  · exact h
  · rename_i sender paymentPayloads _
    have hreceived := hP.receiveAll h "receiver rejected payment token" paymentPayloads
    split <;> rename_i hreceive <;> rw [hreceive] at hreceived
    · exact hreceived
    · split
      · exact hreceived
      · split
        · exact hreceived
        · rename_i changeTokens _
          have hsent := hP.send _ changeStamp sender.ownerPk changeTokens hreceived
          split <;> rename_i hsend <;> rw [hsend] at hsent
          · exact hsent
          · split <;> exact hsent

/-- Both registers are put back. -/
lemma eq_of_restored {w' : Wallet} (h : w'.ownerPk = w.ownerPk ∧ w'.keystore = w.keystore) :
    { w' with utr := w.utr, str := w.str } = w := by
  obtain ⟨howner, hkeystore⟩ := h
  rw [howner, hkeystore]

/-- A session keeps `P` of the sender: if it raises, the wallet is as it was. -/
lemma execute_sender (hP : Closed c P) {p : PaymentSession} (h : P p.senderWallet)
    (payStamp changeStamp : Nat → Stamp) :
    P (p.execute c payStamp changeStamp).1.senderWallet := by
  have hkept := hP.attempt_sender h payStamp changeStamp
  have hidentity :=
    (identity c p.senderWallet.ownerPk p.senderWallet.keystore).attempt_sender ⟨rfl, rfl⟩
      payStamp changeStamp
  rw [PaymentSession.execute]
  split <;> rename_i hattempt <;> rw [hattempt] at hkept hidentity
  · exact hkept
  · exact (eq_of_restored hidentity).symm ▸ h

/-- A session keeps `P` of the receiver: if it raises, the wallet is as it was. -/
lemma execute_receiver (hP : Closed c P) {p : PaymentSession} (h : P p.receiverWallet)
    (payStamp changeStamp : Nat → Stamp) :
    P (p.execute c payStamp changeStamp).1.receiverWallet := by
  have hkept := hP.attempt_receiver h payStamp changeStamp
  have hidentity :=
    (identity c p.receiverWallet.ownerPk p.receiverWallet.keystore).attempt_receiver ⟨rfl, rfl⟩
      payStamp changeStamp
  rw [PaymentSession.execute]
  split <;> rename_i hattempt <;> rw [hattempt] at hkept hidentity
  · exact hkept
  · exact (eq_of_restored hidentity).symm ▸ h

end Closed

/-! ### Wallets hold valid tokens -/

/-- Every unspent token of the wallet has a valid chain. -/
def Sound (c : Crypto) (w : Wallet) : Prop :=
  ∀ t ∈ w.utr.items, t.validateChain c t.issuerPk = true

namespace Sound

variable {c : Crypto} {w w' : Wallet}

lemma of_subset (h : w.Sound c) (hutr : ∀ t ∈ w'.utr.items, t ∈ w.utr.items) : w'.Sound c :=
  fun t ht => h t (hutr t ht)

lemma put (h : w.Sound c) {token : Token} (hvalid : token.validateChain c token.issuerPk = true) :
    Sound c { w with utr := w.utr.put token } := by
  intro t ht
  rcases KeyedList.mem_put.mp ht with rfl | ⟨ht, -⟩
  · exact hvalid
  · exact h t ht

lemma addToken (h : w.Sound c) {token : Token} (hadd : w.addToken c token = .ok w') :
    w'.Sound c := by
  rw [Wallet.addToken] at hadd
  split_ifs at hadd with howner hchain
  obtain rfl := Except.ok.inj hadd
  exact h.put (by simpa using hchain)

lemma closed (c : Crypto) : Closed c (Sound c) := by
  apply Closed.of_moves
  · exact fun w k h => h.of_subset fun t ht => (KeyedList.mem_pop.mp ht).1
  · exact fun w token sent receiverPk h _ => h.of_subset fun t ht => (KeyedList.mem_pop.mp ht).1
  · exact fun w token h haccepts => h.put haccepts.chain

end Sound

end Wallet

/-! ### Runs with payment sessions -/

/-- An event of the network, or a payment session between two of its wallets. -/
inductive CirculationEvent
  | network (e : Network.Event)
  | session (sender receiver : String) (hne : sender ≠ receiver) (price : Int)
      (payStamp changeStamp : Nat → Stamp)

namespace Network

/-- One event. A session that raises leaves its wallets as `execute` rolls them back. -/
def circulate (c : Crypto) (fromIsoformat : IsoReader) (n : Network) : CirculationEvent → Network
  | .network e => n.step c fromIsoformat e
  | .session sender receiver _ price payStamp changeStamp =>
    match n.wallets.find? sender, n.wallets.find? receiver with
    | some senderWallet, some receiverWallet =>
      let p := ((⟨senderWallet, receiverWallet, price⟩ : PaymentSession).execute c payStamp
        changeStamp).1
      { n with wallets := (n.wallets.put p.senderWallet).put p.receiverWallet }
    | _, _ => n

/-- Every unspent token in the network has a valid chain. -/
def Sound (c : Crypto) (n : Network) : Prop := ∀ w ∈ n.wallets.items, w.Sound c

lemma Start.sound {n : Network} (h : n.Start) (c : Crypto) : n.Sound c := by
  intro w hw t ht
  rw [(h.empty w hw).1] at ht
  cases ht

lemma sound_put {c : Crypto} {wallets : KeyedList Wallet.ownerPk} {w : Wallet}
    (h : ∀ v ∈ wallets.items, v.Sound c) (hw : w.Sound c) :
    ∀ v ∈ (wallets.put w).items, v.Sound c := by
  intro v hv
  rcases KeyedList.mem_put.mp hv with rfl | ⟨hv, -⟩
  · exact hw
  · exact h v hv

lemma Sound.step {c : Crypto} {n : Network} (h : n.Sound c) (fromIsoformat : IsoReader) (e : Event) :
    (n.step c fromIsoformat e).Sound c := by
  have hfound : ∀ {owner w}, n.wallets.find? owner = some w → w.Sound c := fun hfind =>
    h _ (KeyedList.find?_eq_some_iff.mp hfind).1
  cases e with
  | add owner token =>
    rw [Network.step]
    split
    · exact h
    · rename_i w hfind
      split
      · exact h
      · rename_i w' hadd
        exact sound_put h ((hfound hfind).addToken hadd)
  | send owner receiverPk tokens stamp =>
    rw [Network.step]
    split
    · exact h
    · rename_i w hfind
      have hsent := (Wallet.Sound.closed c).send w stamp receiverPk tokens (hfound hfind)
      split <;> rename_i hsend <;> rw [hsend] at hsent
      · exact sound_put h hsent
      · exact sound_put h hsent
  | deliver owner payload =>
    rw [Network.step]
    split
    · exact h
    · rename_i w hfind
      exact sound_put h ((Wallet.Sound.closed c).receive w payload (hfound hfind))
  | submit source token atTime => exact h
  | sync owner settledTokenIds =>
    rw [Network.step]
    split
    · exact h
    · rename_i w hfind
      exact sound_put h ((hfound hfind).of_subset fun t ht => ht)

lemma Sound.circulate {c : Crypto} {n : Network} (h : n.Sound c) (fromIsoformat : IsoReader)
    (e : CirculationEvent) : (n.circulate c fromIsoformat e).Sound c := by
  cases e with
  | network e => exact h.step fromIsoformat e
  | session sender receiver hne price payStamp changeStamp =>
    rw [Network.circulate]
    split
    · rename_i senderWallet receiverWallet hsender hreceiver
      have hfound := h _ (KeyedList.find?_eq_some_iff.mp hsender).1
      have hfound' := h _ (KeyedList.find?_eq_some_iff.mp hreceiver).1
      exact sound_put
        (sound_put h ((Wallet.Sound.closed c).execute_sender
          (p := ⟨senderWallet, receiverWallet, price⟩) hfound payStamp changeStamp))
        ((Wallet.Sound.closed c).execute_receiver
          (p := ⟨senderWallet, receiverWallet, price⟩) hfound' payStamp changeStamp)
    · exact h

lemma Sound.run {c : Crypto} {n : Network} (h : n.Sound c) (fromIsoformat : IsoReader)
    (es : List CirculationEvent) : (runFrom (Network.circulate c fromIsoformat) n es).Sound c :=
  runFrom_invariant (I := fun n => Sound c n) (fun _ e h => Sound.circulate h fromIsoformat e) h es

/-! ### Settling what a wallet holds -/

/-- A token in an unspent register that has not expired and is not settled yet is accepted exactly if
it made at most seven hops. -/
theorem submit_held_iff {c : Crypto} {fromIsoformat : IsoReader} {n : Network} (hstart : n.Start)
    {es : List CirculationEvent} {w : Wallet}
    (hw : w ∈ (runFrom (circulate c fromIsoformat) n es).wallets.items) {t : Token}
    (ht : t ∈ w.utr.items) {source : String} {expiry atTime : Int}
    (hread : fromIsoformat t.expiry = .ok expiry) (hnotExpired : atTime ≤ expiry)
    (hunsettled : t.tokenId ∉
      (runFrom (circulate c fromIsoformat) n es).engine.acceptedByTokenId.keys) :
    ReconciliationEngine.accepted ((runFrom (circulate c fromIsoformat) n es).engine.submit c
        fromIsoformat source t atTime).2 = true ↔ t.transferChain.length ≤ maxHops := by
  have hchain : t.validateChain c t.issuerPk = true :=
    Sound.run (hstart.sound c) fromIsoformat es w hw t ht
  have hexpiry := isNotExpired_eq_true_iff.mpr ⟨expiry, hread, hnotExpired⟩
  rcases ReconciliationEngine.submit_cases c fromIsoformat
    (runFrom (circulate c fromIsoformat) n es).engine source t atTime with
    ⟨hsettles, hsubmit⟩ | ⟨hnot, answer, hanswer, hsubmit⟩
  · rw [hsubmit]
    exact iff_of_true rfl hsettles.1.hops
  · rw [hsubmit, hanswer]
    exact iff_of_false (by simp) fun hhops => hnot ⟨⟨hchain, hexpiry, hhops⟩, hunsettled⟩

/-- The transparent backend with short digests. -/
def shortCrypto : Crypto :=
  { plainCrypto with payloadDigest := fun r => "digest of " ++ r.transferId }

namespace Route

/-- A note of 50 as the `k`-th holder has it. -/
def note : Nat → Token
  | 0 => plainToken "tok-w1" 50 "holder0"
  | k + 1 =>
    ((note k).appendTransfer shortCrypto (plainStamp ("holder" ++ toString k) 0)
      ("sk:holder" ++ toString k) ("holder" ++ toString (k + 1))).toOption.getD (note k)

/-- Nine wallets. -/
def network : Network where
  wallets := (List.range 9).foldl
    (fun ws k => ws.put (plainWallet ("holder" ++ toString k) [])) .empty
  emitted := []
  issued := []
  engine := .new

lemma start_network : network.Start where
  empty := by
    have hempty : ∀ w ∈ network.wallets.items, w.utr.items = [] ∧ w.str.items = [] := by
      decide
    exact fun w hw => ⟨KeyedList.ext (hempty w hw).1, KeyedList.ext (hempty w hw).2⟩
  emitted := rfl
  issued := rfl
  engine := rfl

/-- The note is issued to the first holder and handed on `hops` times. -/
def hops (count : Nat) : List CirculationEvent :=
  .network (.add "holder0" (note 0)) :: (List.range count).flatMap fun k =>
    [.network (.send ("holder" ++ toString k) ("holder" ++ toString (k + 1)) [note k]
        (plainStamp ("holder" ++ toString k))),
      .network (.deliver ("holder" ++ toString (k + 1)) (note (k + 1)).toJson)]

end Route

theorem submit_held_after_one_hop :
    ∃ w ∈ (runFrom (circulate shortCrypto plainIso) Route.network (Route.hops 1)).wallets.items,
      Route.note 1 ∈ w.utr.items ∧
        ReconciliationEngine.accepted ((runFrom (circulate shortCrypto plainIso) Route.network
          (Route.hops 1)).engine.submit shortCrypto plainIso "holder1" (Route.note 1)
            1772355600000000).2 = true := by
  have hheld : ∃ w ∈ (runFrom (circulate shortCrypto plainIso) Route.network
      (Route.hops 1)).wallets.items, Route.note 1 ∈ w.utr.items := by decide +kernel
  obtain ⟨w, hw, ht⟩ := hheld
  exact ⟨w, hw, ht, (submit_held_iff Route.start_network hw ht rfl
    (show (1772355600000000 : Int) ≤ 1893456000000000 by decide) (by decide +kernel)).mpr (by decide +kernel)⟩

/-- The ninth holder's note made eight honest hops and is refused. -/
theorem submit_held_after_eight_hops :
    Route.network.Start ∧
    (runFrom (circulate shortCrypto plainIso) Route.network (Route.hops 8)).messages
      = ((List.range 8).map fun k => Route.note (k + 1)).reverse ∧
    (∃ w ∈ (runFrom (circulate shortCrypto plainIso) Route.network (Route.hops 8)).wallets.items,
      Route.note 8 ∈ w.utr.items) ∧
    (Route.note 8).tokenId ∉ (runFrom (circulate shortCrypto plainIso) Route.network
      (Route.hops 8)).engine.acceptedByTokenId.keys ∧
    plainIso (Route.note 8).expiry = .ok 1893456000000000 ∧
    ((runFrom (circulate shortCrypto plainIso) Route.network (Route.hops 8)).engine.submit
        shortCrypto plainIso "holder8" (Route.note 8) 1772355600000000).2
      = .ok ⟨"holder8", "tok-w1", .rejected, .maxHopsExceeded⟩ :=
  ⟨Route.start_network, by decide +kernel, by decide +kernel, by decide +kernel, rfl,
    by decide +kernel⟩

end Network

end PocketCash.Canonical
