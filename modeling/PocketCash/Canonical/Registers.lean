import Mathlib.Data.String.Basic
import PocketCash.Canonical.Circulation

/-!
# The registers of one wallet

All calls that write the two registers of a wallet, in any order: its own methods, and payment
sessions in either role, with any other wallet or with itself. A session does nothing but send and
receive, and puts both registers back if it raises, so what sending and receiving keep, a session
keeps.

The unspent tokens are valid, and so is what is sent. The two registers have no id in common unless
`add_token` stores a token that the wallet has spent, which it does not look up.
-/

namespace PocketCash.Canonical

/-! ### What a token becomes when it is sent -/

/-- What `senderSk` signs verifies under `senderPk`. -/
def Crypto.SignsFor (c : Crypto) (senderSk senderPk : String) : Prop :=
  ∀ m signature, c.signMessage senderSk m = .ok signature →
    c.verifySignature senderPk m signature = true

namespace Token

variable {c : Crypto} {t t' : Token} {stamp : Stamp} {senderSk receiverPk : String}

/-- The record that `append_transfer` adds, before it is signed. -/
def nextTransfer (c : Crypto) (stamp : Stamp) (t : Token) (receiverPk : String) :
    TransferRecord where
  transferId := stamp.transferId
  tokenId := t.tokenId
  senderPk := t.ownerPk
  receiverPk := receiverPk
  nonce := (t.transferChain.getLast?.map fun previous => previous.nonce + 1).getD 1
  parentTransferId := t.transferChain.getLast?.map TransferRecord.transferId
  prevTransferHash := t.transferChain.getLast?.map c.payloadDigest
  timestamp := stamp.timestamp
  signature := ""

/-- The token with one more transfer. -/
def extended (t : Token) (record : TransferRecord) : Token :=
  { t with transferChain := t.transferChain ++ [record], ownerPk := record.receiverPk }

@[simp] lemma extended_tokenId (t : Token) (record : TransferRecord) :
    (t.extended record).tokenId = t.tokenId := rfl

@[simp] lemma extended_ownerPk (t : Token) (record : TransferRecord) :
    (t.extended record).ownerPk = record.receiverPk := rfl

/-- The token with its next transfer and the signature on it. -/
def sentTo (c : Crypto) (stamp : Stamp) (t : Token) (receiverPk signature : String) : Token :=
  t.extended { t.nextTransfer c stamp receiverPk with signature := signature }

/-- `append_transfer` signs the record, and adds it. -/
lemma appendTransfer_eq (c : Crypto) (stamp : Stamp) (t : Token) (senderSk receiverPk : String) :
    t.appendTransfer c stamp senderSk receiverPk = do
      let signature ← c.signMessage senderSk
        (.transfer (t.nextTransfer c stamp receiverPk).signingDict)
      return t.sentTo c stamp receiverPk signature := by
  simp only [appendTransfer, sentTo, nextTransfer]
  generalize t.transferChain.getLast? = previous
  cases previous <;> exact bind_assoc _ _ _

/-- A list of transfers and one more by its last receiver are valid if the list is and the record
is signed. -/
lemma validateTransfers_append_iff {record : TransferRecord} (hid : record.tokenId = t.tokenId)
    (hsender : record.senderPk = t.ownerPk) {records : List TransferRecord} {ownerPk : String}
    {previous : Option TransferRecord} {expectedNonce : Int}
    (hnonce : record.nonce
      = (records.getLast?.map fun previous => previous.nonce + 1).getD expectedNonce)
    (hlinks : linksTo c record (records.getLast?.or previous) = true) :
    (t.extended record).validateTransfers c ownerPk previous expectedNonce (records ++ [record])
        = true ↔
      t.validateTransfers c ownerPk previous expectedNonce records = true ∧
        record.verify c = true := by
  induction records generalizing ownerPk previous expectedNonce with
  | nil =>
    have hnonce' : record.nonce = expectedNonce := hnonce
    have hlinks' : linksTo c record previous = true := hlinks
    rw [List.nil_append]
    by_cases howner : ownerPk = t.ownerPk
    · simp [validateTransfers, hid, hsender, hnonce', hlinks', howner]
    · simp [validateTransfers, hsender, howner, Ne.symm howner]
  | cons first rest ih =>
    have hnonce' : record.nonce
        = (rest.getLast?.map fun previous => previous.nonce + 1).getD (first.nonce + 1) := by
      rw [hnonce, List.getLast?_cons]
      cases rest.getLast? <;> rfl
    have hlinks' : linksTo c record (rest.getLast?.or (some first)) = true := by
      rw [List.getLast?_cons] at hlinks
      cases hlast : rest.getLast? <;> rwa [hlast] at hlinks
    rw [List.cons_append, validateTransfers, validateTransfers, extended_tokenId]
    split_ifs with hfirst hsigned howner hexpected hlinked
    iterate 5 simp
    rw [← not_not.mp hexpected]
    exact ih hnonce' hlinks'

/-- The owner the issuer signed for. -/
def issuedOwnerPk (t : Token) : String :=
  (t.transferChain.head?.map TransferRecord.senderPk).getD t.ownerPk

lemma validateChain_eq_true_iff : t.validateChain c t.issuerPk = true ↔
    c.verifySignature t.issuerPk (.issuance (t.issuanceDict t.issuedOwnerPk)) t.issuerSignature
        = true ∧
      t.validateTransfers c t.issuedOwnerPk none 1 t.transferChain = true := by
  rw [validateChain, issuedOwnerPk]
  cases t.transferChain <;> simp

/-- A token with one more transfer is valid exactly if it was valid and the transfer is signed. -/
lemma validateChain_sentTo_iff {signature : String} :
    (t.sentTo c stamp receiverPk signature).validateChain c t.issuerPk = true ↔
      t.validateChain c t.issuerPk = true ∧
      c.verifySignature t.ownerPk (.transfer (t.nextTransfer c stamp receiverPk).signingDict)
        signature = true := by
  have hissued : (t.sentTo c stamp receiverPk signature).issuedOwnerPk = t.issuedOwnerPk := by
    simp only [issuedOwnerPk, sentTo, extended]
    cases t.transferChain <;> rfl
  have hlinks : linksTo c { t.nextTransfer c stamp receiverPk with signature := signature }
      (t.transferChain.getLast?.or none) = true := by
    rw [Option.or_none, nextTransfer]
    cases t.transferChain.getLast? <;> simp [linksTo]
  change (t.sentTo c stamp receiverPk signature).validateChain c
    (t.sentTo c stamp receiverPk signature).issuerPk = true ↔ _
  rw [validateChain_eq_true_iff, validateChain_eq_true_iff, hissued, and_assoc]
  apply and_congr Iff.rfl
  exact validateTransfers_append_iff rfl rfl rfl hlinks

/-- Handing on a valid token gives a valid token. -/
lemma validateChain_of_appendTransfer (hkey : c.SignsFor senderSk t.ownerPk)
    (hvalid : t.validateChain c t.issuerPk = true)
    (h : t.appendTransfer c stamp senderSk receiverPk = .ok t') :
    t'.validateChain c t'.issuerPk = true := by
  rw [appendTransfer_eq] at h
  obtain ⟨signature, hsign, ht'⟩ := bind_eq_ok_iff.mp h
  cases ht'
  exact validateChain_sentTo_iff.mpr ⟨hvalid, hkey _ _ hsign⟩

end Token

/-! ### Invariants of the registers -/

namespace Wallet

variable {c : Crypto} {w w' : Wallet}

/-- Every unspent token belongs to the wallet. -/
def Owned (w : Wallet) : Prop := ∀ t ∈ w.utr.items, t.ownerPk = w.ownerPk

lemma Owned.put (h : w.Owned) {token : Token} (howner : token.ownerPk = w.ownerPk) :
    Owned { w with utr := w.utr.put token } := by
  intro t ht
  rcases KeyedList.mem_put.mp ht with rfl | ⟨ht, -⟩
  · exact howner
  · exact h t ht

lemma Owned.closed (c : Crypto) : Closed c Owned := by
  apply Closed.of_moves
  · exact fun w k h t ht => h t (KeyedList.mem_pop.mp ht).1
  · exact fun w token sent receiverPk h _ t ht => h t (KeyedList.mem_pop.mp ht).1
  · exact fun w token h haccepts => h.put haccepts.owner

/-- No token id is in both registers. -/
def Apart (w : Wallet) : Prop := ∀ k ∈ w.utr.keys, k ∉ w.str.keys
  deriving Decidable

lemma Apart.put (h : w.Apart) {token : Token} (hnew : token.tokenId ∉ w.str.keys) :
    Apart { w with utr := w.utr.put token } := by
  intro k hk
  rcases KeyedList.mem_keys_put.mp hk with rfl | hk
  · exact hnew
  · exact h k hk

lemma Apart.closed (c : Crypto) : Closed c Apart := by
  apply Closed.of_moves
  · exact fun w k h k' hk' => h k' (KeyedList.mem_keys_pop.mp hk').1
  · intro w token sent receiverPk h hextends k hk hspent
    obtain ⟨hutr, hne⟩ := KeyedList.mem_keys_pop.mp hk
    rcases KeyedList.mem_keys_put.mp hspent with hsent | hstr
    · exact hne (hsent.trans hextends.tokenId_eq)
    · exact h k hutr hstr
  · exact fun w token h haccepts => h.put haccepts.notSpent

/-- An honest wallet selects no token it has spent. -/
lemma Apart.selectTokens (h : w.Apart) {amount : Int} {tokens : List Token}
    (hselect : w.selectTokens amount = .ok tokens) : ∀ t ∈ tokens, t.tokenId ∉ w.str.keys := by
  intro t ht
  exact h _ (KeyedList.key_mem_keys ((selectTokens_cases hselect).1.subset ht))

lemma mem_keys_sync {settledTokenIds : List String} {k : String}
    (hk : k ∈ (w.sync settledTokenIds).str.keys) : k ∈ w.str.keys := by
  have hpops : ∀ (ids : List String) (d : Register), k ∈ (ids.foldl KeyedList.pop d).keys →
      k ∈ d.keys := by
    intro ids
    induction ids with
    | nil => exact fun _ h => h
    | cons id ids ih => exact fun d h => (KeyedList.mem_keys_pop.mp (ih _ h)).1
  exact hpops settledTokenIds w.str hk

/-! ### What is sent -/

lemma toJson_injective : Function.Injective Token.toJson := by
  intro t t' h
  have hread := tokenFromPayload_toJson t
  rw [h, tokenFromPayload_toJson] at hread
  exact (Except.ok.inj hread).symm

/-- The payloads of a send are valid tokens of the receiver. -/
lemma valid_of_sendLoop {stamp : Nat → Stamp} {senderSk receiverPk : String} {i : Nat}
    {tokens : List Token} {payloads : List JsonText} (hkey : c.SignsFor senderSk w.ownerPk)
    (howned : w.Owned) (hsound : w.Sound c)
    (h : sendLoop c stamp senderSk receiverPk i w tokens = (w', .ok payloads)) :
    ∀ payload ∈ payloads, ∃ t : Token, payload = t.toJson ∧ t.ownerPk = receiverPk ∧
      t.validateChain c t.issuerPk = true := by
  induction tokens generalizing i w payloads with
  | nil =>
    cases h
    simp
  | cons token rest ih =>
    rw [sendLoop] at h
    split at h
    · cases h
    · rename_i localToken hfind
      obtain ⟨hlocal, -⟩ := KeyedList.find?_eq_some_iff.mp hfind
      split at h
      · cases h
      · rename_i sent happend
        dsimp only at h
        split at h
        · cases h
        · rename_i rests hrest
          cases h
          rw [List.forall_mem_cons]
          have hvalid := Token.validateChain_of_appendTransfer (howned _ hlocal ▸ hkey)
            (hsound _ hlocal) happend
          refine ⟨⟨sent, rfl, (Token.extends_of_appendTransfer happend).ownerPk_eq, hvalid⟩, ?_⟩
          apply ih (w := { w with utr := w.utr.pop token.tokenId, str := w.str.put sent }) hkey
            _ _ hrest
          · exact fun t ht => howned t (KeyedList.mem_pop.mp ht).1
          · exact hsound.of_subset fun t ht => (KeyedList.mem_pop.mp ht).1

/-- Each payload of a send reads as a valid token of the receiver, a copy of which is in the STR. A
wallet of the receiver takes it unless it has spent the id. -/
lemma deliverable_of_sendTokens {stamp : Nat → Stamp} {receiverPk : String} {tokens : List Token}
    {payloads : List JsonText}
    (hkey : ∀ senderSk, w.keystore w.ownerPk = .ok senderSk → c.SignsFor senderSk w.ownerPk)
    (howned : w.Owned) (hsound : w.Sound c)
    (h : w.sendTokens c stamp receiverPk tokens = (w', .ok payloads)) :
    ∀ payload ∈ payloads, ∃ t, tokenFromPayload payload = .ok t ∧
      w'.str.find? t.tokenId = some t ∧ t.ownerPk = receiverPk ∧
      t.validateChain c t.issuerPk = true ∧
      ∀ receiver : Wallet, receiver.ownerPk = receiverPk →
        ((receiver.receiveToken c payload).2 = true ↔ t.tokenId ∉ receiver.str.keys) := by
  intro payload hpayload
  obtain ⟨moved, hsends, hpayloads, -⟩ := sends_of_sendTokens h
  have hvalid : ∃ t : Token, payload = t.toJson ∧ t.ownerPk = receiverPk ∧
      t.validateChain c t.issuerPk = true := by
    rw [sendTokens] at h
    split at h
    · cases h
    · rename_i senderSk hsk
      exact valid_of_sendLoop (hkey senderSk hsk) howned hsound h payload hpayload
  obtain ⟨t, rfl, howner, hchain⟩ := hvalid
  rw [hpayloads, List.map_map] at hpayload
  obtain ⟨p, hp, hjson⟩ := List.mem_map.mp hpayload
  obtain rfl := toJson_injective hjson
  refine ⟨p.2, tokenFromPayload_toJson _, hsends.find?_str p hp, howner, hchain, ?_⟩
  intro receiver hreceiver
  rcases receiver.receiveToken_toJson c p.2 with ⟨haccepts, hreceive⟩ | ⟨hrefused, hreceive⟩
  · rw [hreceive]
    exact iff_of_true rfl haccepts.notSpent
  · rw [hreceive]
    exact iff_of_false Bool.false_ne_true fun hnot =>
      hrefused ⟨howner.trans hreceiver.symm, hchain, hnot⟩

/-! ### Runs -/

/-- A wallet before its first call. -/
def new (ownerPk : String) (keystore : KeyStore) : Wallet := ⟨ownerPk, keystore, .empty, .empty⟩

/-- Send one token by moving it UTR->STR and appending a signed transfer record. -/
def sendToken (c : Crypto) (stamp : Nat → Stamp) (w : Wallet) (receiverPk : String) :
    Wallet × Except PyError JsonText :=
  match (w.utr.keys.insertionSort (· ≤ ·)).head? with
  | none => (w, .error (.valueError "no tokens available to send"))
  | some tokenId =>
    match w.utr.find? tokenId with
    | none => (w, .error (.keyError tokenId))
    | some token =>
      match w.sendTokens c stamp receiverPk [token] with
      | (w', .error e) => (w', .error e)
      | (w', .ok payloads) =>
        match payloads.head? with
        | none => (w', .error .indexError)
        | some payload => (w', .ok payload)

/-- The `try` block of `PaymentSession.execute` when the sender and the receiver are the same
wallet. -/
def attemptWithItself (c : Crypto) (payStamp changeStamp : Nat → Stamp) (w : Wallet) (price : Int) :
    Wallet × Except PyError (List JsonText × List JsonText) :=
  match w.initiatePayment c payStamp price w.ownerPk with
  | (paying, .error e) => (paying, .error e)
  | (paying, .ok paymentPayloads) =>
    match paying.receiveAll c "receiver rejected payment token" paymentPayloads with
    | (paid, .error e) => (paid, .error e)
    | (paid, .ok ()) =>
      match paymentPayloads.mapM tokenFromJson with
      | .error e => (paid, .error e)
      | .ok inboundTokens =>
        match paid.processPayment inboundTokens price with
        | .error e => (paid, .error e)
        | .ok changeTokens =>
          match paid.sendTokens c changeStamp paid.ownerPk changeTokens with
          | (changing, .error e) => (changing, .error e)
          | (changing, .ok changePayloads) =>
            match changing.receiveAll c "sender rejected change token" changePayloads with
            | (changed, .error e) => (changed, .error e)
            | (changed, .ok ()) => (changed, .ok (paymentPayloads, changePayloads))

/-- `PaymentSession.execute` when the sender and the receiver are the same wallet. -/
def executeWithItself (c : Crypto) (payStamp changeStamp : Nat → Stamp) (w : Wallet)
    (price : Int) : Wallet × Except PyError (List JsonText × List JsonText) :=
  match w.attemptWithItself c payStamp changeStamp price with
  | (w', .ok payloads) => (w', .ok payloads)
  | (w', .error e) => ({ w' with utr := w.utr, str := w.str }, .error e)

namespace Closed

variable {P : Wallet → Prop}

lemma sendToken (hP : Closed c P) (h : P w) (stamp : Nat → Stamp) (receiverPk : String) :
    P (w.sendToken c stamp receiverPk).1 := by
  rw [Wallet.sendToken]
  split
  · exact h
  · split
    · exact h
    · rename_i token _
      have hsent := hP.send w stamp receiverPk [token] h
      split <;> rename_i hsend <;> rw [hsend] at hsent
      · exact hsent
      · split <;> exact hsent

lemma attemptWithItself (hP : Closed c P) (h : P w) (payStamp changeStamp : Nat → Stamp)
    (price : Int) : P (w.attemptWithItself c payStamp changeStamp price).1 := by
  have hpaid := hP.initiatePayment h payStamp price w.ownerPk
  rw [Wallet.attemptWithItself]
  split <;> rename_i hpay <;> rw [hpay] at hpaid
  · exact hpaid
  · rename_i paymentPayloads
    have hreceived := hP.receiveAll hpaid "receiver rejected payment token" paymentPayloads
    split <;> rename_i hreceive <;> rw [hreceive] at hreceived
    · exact hreceived
    · rename_i paid
      split
      · exact hreceived
      · split
        · exact hreceived
        · rename_i changeTokens _
          have hsent := hP.send paid changeStamp paid.ownerPk changeTokens hreceived
          split <;> rename_i hsend <;> rw [hsend] at hsent
          · exact hsent
          · rename_i changePayloads
            have hback := hP.receiveAll hsent "sender rejected change token" changePayloads
            split <;> rename_i hreceive <;> rw [hreceive] at hback <;> exact hback

lemma executeWithItself (hP : Closed c P) (h : P w) (payStamp changeStamp : Nat → Stamp)
    (price : Int) : P (w.executeWithItself c payStamp changeStamp price).1 := by
  have hkept := hP.attemptWithItself h payStamp changeStamp price
  have hidentity :=
    (identity c w.ownerPk w.keystore).attemptWithItself ⟨rfl, rfl⟩ payStamp changeStamp price
  rw [Wallet.executeWithItself]
  split <;> rename_i hattempt <;> rw [hattempt] at hkept hidentity
  · exact hkept
  · exact (eq_of_restored hidentity).symm ▸ h

end Closed

/-- A call that writes the registers. -/
inductive Call
  | addToken (token : Token)
  | sendTokens (receiverPk : String) (tokens : List Token) (stamp : Nat → Stamp)
  | sendToken (receiverPk : String) (stamp : Nat → Stamp)
  | initiatePayment (price : Int) (receiverPk : String) (stamp : Nat → Stamp)
  | receiveToken (payload : JsonText)
  | sync (settledTokenIds : List String)
  | pay (receiver : Wallet) (price : Int) (payStamp changeStamp : Nat → Stamp)
  | bePaid (sender : Wallet) (price : Int) (payStamp changeStamp : Nat → Stamp)
  | payItself (price : Int) (payStamp changeStamp : Nat → Stamp)

/-- The wallet after a call, which may have raised. -/
def call (c : Crypto) (w : Wallet) : Call → Wallet
  | .addToken token =>
    match w.addToken c token with
    | .error _ => w
    | .ok w' => w'
  | .sendTokens receiverPk tokens stamp => (w.sendTokens c stamp receiverPk tokens).1
  | .sendToken receiverPk stamp => (w.sendToken c stamp receiverPk).1
  | .initiatePayment price receiverPk stamp => (w.initiatePayment c stamp price receiverPk).1
  | .receiveToken payload => (w.receiveToken c payload).1
  | .sync settledTokenIds => w.sync settledTokenIds
  | .pay receiver price payStamp changeStamp =>
    (PaymentSession.execute c payStamp changeStamp ⟨w, receiver, price⟩).1.senderWallet
  | .bePaid sender price payStamp changeStamp =>
    (PaymentSession.execute c payStamp changeStamp ⟨sender, w, price⟩).1.receiverWallet
  | .payItself price payStamp changeStamp =>
    (w.executeWithItself c payStamp changeStamp price).1

/-- The wallet after a run. -/
def afterCalls (c : Crypto) (ownerPk : String) (keystore : KeyStore) (es : List Call) : Wallet :=
  runFrom (call c) (new ownerPk keystore) es

/-- What sending and receiving keep, a call keeps that does not add a token. -/
lemma Closed.call {P : Wallet → Prop} (hP : Closed c P) (h : P w) {e : Call}
    (hadd : ∀ token, e = .addToken token → token.ownerPk = w.ownerPk →
      token.validateChain c token.issuerPk = true → P { w with utr := w.utr.put token })
    (hsync : ∀ settledTokenIds, P (w.sync settledTokenIds)) : P (w.call c e) := by
  cases e with
  | addToken token =>
    rw [Wallet.call, Wallet.addToken]
    split_ifs with howner hchain
    · exact h
    · exact h
    · exact hadd token rfl (not_not.mp howner) (by simpa using hchain)
  | sendTokens receiverPk tokens stamp => exact hP.send _ _ _ _ h
  | sendToken receiverPk stamp => exact hP.sendToken h stamp receiverPk
  | initiatePayment price receiverPk stamp => exact hP.initiatePayment h stamp price receiverPk
  | receiveToken payload => exact hP.receive _ _ h
  | sync settledTokenIds => exact hsync settledTokenIds
  | pay receiver price payStamp changeStamp =>
    exact hP.execute_sender (p := ⟨w, receiver, price⟩) h payStamp changeStamp
  | bePaid sender price payStamp changeStamp =>
    exact hP.execute_receiver (p := ⟨sender, w, price⟩) h payStamp changeStamp
  | payItself price payStamp changeStamp =>
    exact hP.executeWithItself h payStamp changeStamp price

/-! ### What every run keeps -/

/-- After every run the UTR holds valid tokens of the wallet under their ids, and the payloads of a
send are tokens that a wallet of the receiver takes unless it has spent them. -/
theorem valid_and_deliverable {ownerPk : String} {keystore : KeyStore}
    (hkey : ∀ senderSk, keystore ownerPk = .ok senderSk → c.SignsFor senderSk ownerPk)
    (es : List Call) :
    let w := afterCalls c ownerPk keystore es
    (∀ k t, w.utr.find? k = some t →
      t.tokenId = k ∧ t.ownerPk = w.ownerPk ∧ t.validateChain c t.issuerPk = true) ∧
    ∀ stamp receiverPk tokens w' payloads,
      w.sendTokens c stamp receiverPk tokens = (w', .ok payloads) →
      ∀ payload ∈ payloads, ∃ t, tokenFromPayload payload = .ok t ∧
        w'.str.find? t.tokenId = some t ∧ t.ownerPk = receiverPk ∧
        t.validateChain c t.issuerPk = true ∧
        ∀ receiver : Wallet, receiver.ownerPk = receiverPk →
          ((receiver.receiveToken c payload).2 = true ↔ t.tokenId ∉ receiver.str.keys) := by
  intro w
  have hclosed := (Closed.identity c ownerPk keystore).and ((Owned.closed c).and (Sound.closed c))
  have hkept : (w.ownerPk = ownerPk ∧ w.keystore = keystore) ∧ w.Owned ∧ w.Sound c := by
    refine runFrom_invariant (I := fun w : Wallet =>
      (w.ownerPk = ownerPk ∧ w.keystore = keystore) ∧ w.Owned ∧ w.Sound c) ?_ ?_ es
    · intro w e h
      apply hclosed.call h
      · intro token _ howner hchain
        exact ⟨h.1, h.2.1.put howner, h.2.2.put hchain⟩
      · exact fun _ => h
    · exact ⟨⟨rfl, rfl⟩, List.forall_mem_nil _, List.forall_mem_nil _⟩
  obtain ⟨⟨howner, hkeystore⟩, howned, hsound⟩ := hkept
  constructor
  · intro k t hfind
    obtain ⟨ht, hid⟩ := KeyedList.find?_eq_some_iff.mp hfind
    exact ⟨hid, howned t ht, hsound t ht⟩
  · intro stamp receiverPk tokens w' payloads hsend
    apply deliverable_of_sendTokens _ howned hsound hsend
    rw [howner, hkeystore]
    exact hkey

/-- The key store of the transparent backend. -/
def plainKeystore : KeyStore := fun publicKey => .ok ("sk:" ++ publicKey)

lemma signsFor_plainKeystore {ownerPk senderSk : String} (h : plainKeystore ownerPk = .ok senderSk) :
    plainCrypto.SignsFor senderSk ownerPk := by
  intro m signature hsign
  cases h
  cases hsign
  exact beq_self_eq_true _

/-- A note of Alice. -/
def aliceNote : Token := plainToken "tok-r1" 20 "alice"

/-- Bob takes the note that Alice sends him. -/
theorem valid_and_deliverable_aliceNote :
    ((new "bob" plainKeystore).receiveToken plainCrypto
      (plainTransfer aliceNote "alice" "bob").toJson).2 = true := by
  have hsend : ((afterCalls plainCrypto "alice" plainKeystore [.addToken aliceNote]).sendTokens
      plainCrypto (plainStamp "alice") "bob" [aliceNote]).2
      = .ok [(plainTransfer aliceNote "alice" "bob").toJson] := by rfl
  obtain ⟨t, hread, -, howner, -, htakes⟩ := (valid_and_deliverable
    (fun _ => signsFor_plainKeystore) [.addToken aliceNote]).2 (plainStamp "alice") "bob"
      [aliceNote] _ _ (Prod.ext rfl hsend) _ List.mem_cons_self
  exact (htakes (new "bob" plainKeystore) rfl).mpr List.not_mem_nil

/-- The call does not add a token that the wallet has spent. -/
def AddsUnspent (c : Crypto) (w : Wallet) : Call → Prop
  | .addToken token => token.ownerPk = w.ownerPk → token.validateChain c token.issuerPk = true →
      token.tokenId ∉ w.str.keys
  | _ => True

lemma Apart.call_iff (h : w.Apart) (e : Call) : (w.call c e).Apart ↔ w.AddsUnspent c e := by
  constructor
  · intro hnext
    cases e with
    | addToken token =>
      intro howner hchain
      have hcall : w.call c (.addToken token) = { w with utr := w.utr.put token } := by
        rw [Wallet.call, Wallet.addToken, if_neg (not_not.mpr howner), if_neg (by simp [hchain])]
      rw [hcall] at hnext
      exact hnext _ (KeyedList.mem_keys_put.mpr (.inl rfl))
    | _ => trivial
  · intro hadds
    apply (Apart.closed c).call h
    · rintro token rfl howner hchain
      exact h.put (hadds howner hchain)
    · exact fun settledTokenIds k hk hspent => h k hk (mem_keys_sync hspent)

/-- The registers stay disjoint, and no token in the STR is ever selected, exactly in the runs in
which `add_token` is not given a token that the wallet has spent. -/
theorem registers_disjoint_iff {ownerPk : String} {keystore : KeyStore} {es : List Call} :
    (∀ before, before <+: es →
      let w := afterCalls c ownerPk keystore before
      (∀ k ∈ w.utr.keys, k ∉ w.str.keys) ∧
        ∀ amount tokens, w.selectTokens amount = .ok tokens → ∀ t ∈ tokens, t.tokenId ∉ w.str.keys) ↔
    Along (call c) (AddsUnspent c) (new ownerPk keystore) es := by
  have hiff : Along (call c) (AddsUnspent c) (new ownerPk keystore) es ↔
      ∀ before, before <+: es → (afterCalls c ownerPk keystore before).Apart :=
    Along.iff_forall_prefix (fun w e h => h.call_iff e) (List.forall_mem_nil _)
  rw [hiff]
  constructor
  · exact fun h before hbefore => (h before hbefore).1
  · intro h before hbefore
    exact ⟨h before hbefore, fun amount tokens => (h before hbefore).selectTokens⟩

/-- Alice sends her note to Bob and adds it again. Then it is in both registers, and she selects it
for a payment. -/
theorem addToken_after_sendTokens :
    let w := afterCalls plainCrypto "alice" plainKeystore
      [.addToken aliceNote, .sendTokens "bob" [aliceNote] (plainStamp "alice"), .addToken aliceNote]
    "tok-r1" ∈ w.utr.keys ∧ "tok-r1" ∈ w.str.keys ∧
      w.selectTokens 20 = .ok [aliceNote] := by
  decide +kernel

end Wallet

end PocketCash.Canonical
