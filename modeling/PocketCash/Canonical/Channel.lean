import PocketCash.Canonical.Registers

/-!
# Transfers over a channel

`protocol/transfer_protocol.py`: the parties open a session, the sender puts a token into the
channel, and the receiver takes it out. The sender has moved the token from its UTR to its STR by
then, and no later step puts it back. So a transfer that is refused loses the token.
-/

namespace PocketCash.Canonical

/-- Discovery exchange carrying sender/receiver identities and a session id. -/
structure DiscoveryMessage where
  senderPk : String
  receiverPk : String
  sessionId : String
  deriving DecidableEq, Repr

/-- Transfer payload sent after discovery negotiation. -/
structure TransferPayload where
  sessionId : String
  nonce : Int
  tokenJson : JsonText
  transferSignature : String

/-- In-memory transport simulator for discovery and transfer phases. -/
structure Channel where
  discoveries : Dict String DiscoveryMessage
  payloads : Dict String TransferPayload

namespace Channel

/-- Phase 1: exchange public keys and return a new session, with the id that is drawn for it. -/
def openSession (channel : Channel) (sessionId senderPk receiverPk : String) :
    Channel × DiscoveryMessage :=
  let session : DiscoveryMessage := ⟨senderPk, receiverPk, sessionId⟩
  ({ channel with discoveries := channel.discoveries.set session.sessionId session }, session)

/-- Phase 2: store transfer payload for an already opened session. -/
def sendTransferPayload (channel : Channel) (payload : TransferPayload) :
    Except PyError Channel :=
  match channel.discoveries.get? payload.sessionId with
  | none => .error (.valueError "unknown session")
  | some _ =>
    if payload.nonce ≤ 0 then .error (.valueError "nonce must be positive")
    else .ok { channel with payloads := channel.payloads.set payload.sessionId payload }

/-- Receive transfer payload for a receiver bound to the session. -/
def receiveTransferPayload (channel : Channel) (sessionId receiverPk : String) :
    Except PyError TransferPayload :=
  match channel.discoveries.get? sessionId with
  | none => .error (.valueError "unknown session")
  | some discovery =>
    if discovery.receiverPk ≠ receiverPk then
      .error (.valueError "receiver public key mismatch")
    else
      match channel.payloads.get? sessionId with
      | none => .error (.valueError "payload not available")
      | some payload => .ok payload

end Channel

/-- Build protocol payload from a wallet `send_token` JSON blob. -/
def buildPayloadFromWalletSend (sessionId : String) (nonce : Int) (tokenJson : JsonText) :
    Except PyError TransferPayload := do
  let data ← tokenJson.loads
  let transferChain ← (← data.get "transfer_chain" (.list [])).asList
  match transferChain.getLast? with
  | none => throw (.valueError "token payload missing transfer chain")
  | some last =>
    let transferSignature ← (← last.getItem "signature").asStr
    return ⟨sessionId, nonce, tokenJson, transferSignature⟩

/-- Two wallets and the channel between them. -/
structure Meeting where
  senderWallet : Wallet
  receiverWallet : Wallet
  channel : Channel

namespace Meeting

/-- Execute discovery + transfer phases between two wallets over a channel. -/
def transferOverChannel (c : Crypto) (stamp : Nat → Stamp) (sessionId : String) (m : Meeting)
    (nonce : Int) : Meeting × Except PyError Bool :=
  let (channel, discovery) := m.channel.openSession sessionId m.senderWallet.ownerPk
    m.receiverWallet.ownerPk
  match m.senderWallet.sendToken c stamp discovery.receiverPk with
  | (sender, .error e) => (⟨sender, m.receiverWallet, channel⟩, .error e)
  | (sender, .ok tokenJson) =>
    match buildPayloadFromWalletSend discovery.sessionId nonce tokenJson with
    | .error e => (⟨sender, m.receiverWallet, channel⟩, .error e)
    | .ok payload =>
      match channel.sendTransferPayload payload with
      | .error e => (⟨sender, m.receiverWallet, channel⟩, .error e)
      | .ok channel =>
        match channel.receiveTransferPayload discovery.sessionId m.receiverWallet.ownerPk with
        | .error e => (⟨sender, m.receiverWallet, channel⟩, .error e)
        | .ok inbound =>
          let (receiver, received) := m.receiverWallet.receiveToken c inbound.tokenJson
          (⟨sender, receiver, channel⟩, .ok received)

end Meeting

/-! ### The steps of a transfer -/

/-- The token with the first id, which `send_token` sends. -/
def Wallet.chosen (w : Wallet) : Option Token :=
  (w.utr.keys.insertionSort (· ≤ ·)).head?.bind w.utr.find?

lemma Wallet.find?_of_chosen {w : Wallet} {token : Token} (h : w.chosen = some token) :
    w.utr.find? token.tokenId = some token := by
  obtain ⟨tokenId, -, hfind⟩ := Option.bind_eq_some_iff.mp h
  rwa [(KeyedList.find?_eq_some_iff.mp hfind).2]

@[simp] lemma Token.sentTo_tokenId (c : Crypto) (stamp : Stamp) (token : Token)
    (receiverPk signature : String) :
    (token.sentTo c stamp receiverPk signature).tokenId = token.tokenId := rfl

/-- A token that is sent leaves the UTR before its transfer is signed. -/
lemma Wallet.sendTokens_singleton (c : Crypto) (stamp : Nat → Stamp) {w : Wallet}
    (receiverPk : String) {token : Token} (hfind : w.utr.find? token.tokenId = some token) :
    w.sendTokens c stamp receiverPk [token] =
      match w.keystore w.ownerPk with
      | .error e => (w, .error e)
      | .ok senderSk =>
        match c.signMessage senderSk
            (.transfer (token.nextTransfer c (stamp 0) receiverPk).signingDict) with
        | .error e => ({ w with utr := w.utr.pop token.tokenId }, .error e)
        | .ok signature =>
          let sent := token.sentTo c (stamp 0) receiverPk signature
          ({ w with utr := w.utr.pop token.tokenId, str := w.str.put sent },
            .ok [sent.toJson]) := by
  simp only [sendTokens]
  cases w.keystore w.ownerPk with
  | error e => rfl
  | ok senderSk =>
    simp only [sendLoop, hfind, Token.appendTransfer_eq]
    cases c.signMessage senderSk _ <;> rfl

/-- What `send_token` does. -/
lemma Wallet.sendToken_eq (c : Crypto) (stamp : Nat → Stamp) (w : Wallet) (receiverPk : String) :
    w.sendToken c stamp receiverPk =
      match w.chosen with
      | none => (w, .error (.valueError "no tokens available to send"))
      | some token =>
        match w.sendTokens c stamp receiverPk [token] with
        | (w', .error e) => (w', .error e)
        | (w', .ok payloads) =>
          match payloads.head? with
          | none => (w', .error .indexError)
          | some payload => (w', .ok payload) := by
  rw [sendToken, chosen]
  cases hfirst : (w.utr.keys.insertionSort (· ≤ ·)).head? with
  | none => rfl
  | some tokenId =>
    have hkey : tokenId ∈ w.utr.keys :=
      (List.mem_insertionSort _).mp (List.mem_of_head? hfirst)
    obtain ⟨token, hfind⟩ := KeyedList.mem_keys_iff_find?.mp hkey
    dsimp only [Option.bind_some]
    generalize w.utr.find? tokenId = found at hfind ⊢
    subst hfind
    rfl

/-- A payload that was sent in an open session is received. -/
lemma Channel.sendTransferPayload_openSession (channel : Channel) (sessionId senderPk receiverPk : String)
    (payload : TransferPayload) (hsession : payload.sessionId = sessionId) :
    let opened := (channel.openSession sessionId senderPk receiverPk).1
    (payload.nonce ≤ 0 ∧
      opened.sendTransferPayload payload = .error (.valueError "nonce must be positive")) ∨
    (0 < payload.nonce ∧ ∃ sent, opened.sendTransferPayload payload = .ok sent ∧
      sent.receiveTransferPayload sessionId receiverPk = .ok payload) := by
  intro opened
  have hopened : opened.discoveries.get? sessionId = some ⟨senderPk, receiverPk, sessionId⟩ := by
    change (channel.discoveries.set sessionId _).get? sessionId = _
    rw [Dict.get?_set, if_pos rfl]
  rw [sendTransferPayload, hsession, hopened]
  by_cases hnonce : payload.nonce ≤ 0
  · exact .inl ⟨hnonce, if_pos hnonce⟩
  · refine .inr ⟨Int.not_le.mp hnonce, _, if_neg hnonce, ?_⟩
    rw [receiveTransferPayload, hopened]
    simp [Dict.get?_set]

/-- The payload of a sent token. -/
lemma buildPayloadFromWalletSend_sentTo (c : Crypto) (stamp : Stamp) (token : Token)
    (receiverPk signature sessionId : String) (nonce : Int) :
    let sent := token.sentTo c stamp receiverPk signature
    buildPayloadFromWalletSend sessionId nonce sent.toJson
      = .ok ⟨sessionId, nonce, sent.toJson, signature⟩ := by
  intro sent
  have hread : buildPayloadFromWalletSend sessionId nonce sent.toJson =
      match (sent.transferChain.map TransferRecord.toDict).getLast? with
      | none => throw (.valueError "token payload missing transfer chain")
      | some last => do
        let transferSignature ← (← last.getItem "signature").asStr
        return ⟨sessionId, nonce, sent.toJson, transferSignature⟩ := rfl
  rw [hread, List.getLast?_map]
  have hlast : sent.transferChain.getLast?
      = some { token.nextTransfer c stamp receiverPk with signature := signature } :=
    List.getLast?_concat
  rw [hlast]
  rfl

/-! ### What a transfer leaves behind -/

namespace Meeting

variable {c : Crypto} {stamp : Nat → Stamp} {sessionId : String} {m : Meeting} {nonce : Int}

/-- The registers of both wallets are those of `m`. -/
structure SameRegisters (m m' : Meeting) : Prop where
  senderUtr : m'.senderWallet.utr = m.senderWallet.utr
  senderStr : m'.senderWallet.str = m.senderWallet.str
  receiverUtr : m'.receiverWallet.utr = m.receiverWallet.utr
  receiverStr : m'.receiverWallet.str = m.receiverWallet.str

/-- The token has gone from the sender to the receiver. -/
structure HandedTo (token : Token) (m' : Meeting) : Prop where
  removed : token.tokenId ∉ m'.senderWallet.utr.keys
  spent : token.tokenId ∈ m'.senderWallet.str.keys
  held : token.tokenId ∈ m'.receiverWallet.utr.keys

/-- No token is lost: `True` means that the chosen token was handed over, and any other outcome that
nothing has changed. -/
def NeverLoses (m : Meeting) (outcome : Meeting × Except PyError Bool) : Prop :=
  (outcome.2 = .ok true ∧
    ∃ token, m.senderWallet.chosen = some token ∧ HandedTo token outcome.1) ∨
  (outcome.2 ≠ .ok true ∧ m.SameRegisters outcome.1)

/-- Nothing stops the transfer once the token has left the UTR: the key signs for the owner of the
token, the nonce is positive, and the receiver accepts the chain and has not spent the token. -/
structure Undisturbed (c : Crypto) (stamp : Nat → Stamp) (m : Meeting) (nonce : Int)
    (token : Token) (senderSk : String) : Prop where
  signs : ∃ signature,
    c.signMessage senderSk
        (.transfer (token.nextTransfer c (stamp 0) m.receiverWallet.ownerPk).signingDict)
      = .ok signature ∧
    c.verifySignature token.ownerPk
        (.transfer (token.nextTransfer c (stamp 0) m.receiverWallet.ownerPk).signingDict) signature
      = true
  nonce : 0 < nonce
  chain : token.validateChain c token.issuerPk = true
  notSpent : token.tokenId ∉ m.receiverWallet.str.keys

/-- The receiver takes the sent token exactly if the chain was valid, the new transfer is signed and
the token was not spent before. -/
lemma accepts_sentTo_iff {receiver : Wallet} {token : Token} {stamp : Stamp} {signature : String} :
    receiver.Accepts c (token.sentTo c stamp receiver.ownerPk signature) ↔
      (token.validateChain c token.issuerPk = true ∧
        c.verifySignature token.ownerPk
          (.transfer (token.nextTransfer c stamp receiver.ownerPk).signingDict) signature = true) ∧
      token.tokenId ∉ receiver.str.keys := by
  rw [← Token.validateChain_sentTo_iff]
  exact ⟨fun h => ⟨h.chain, h.notSpent⟩, fun h => ⟨rfl, h.1, h.2⟩⟩

/-- If the key signs, nothing stops the transfer exactly if the nonce is positive and the receiver takes
the sent token. -/
lemma undisturbed_iff {token : Token} {senderSk signature : String}
    (hsign : c.signMessage senderSk
        (.transfer (token.nextTransfer c (stamp 0) m.receiverWallet.ownerPk).signingDict)
      = .ok signature) :
    m.Undisturbed c stamp nonce token senderSk ↔ 0 < nonce ∧
      m.receiverWallet.Accepts c
        (token.sentTo c (stamp 0) m.receiverWallet.ownerPk signature) := by
  rw [accepts_sentTo_iff]
  constructor
  · intro h
    obtain ⟨signature', hsigns, hverify⟩ := h.signs
    rw [hsign] at hsigns
    cases hsigns
    exact ⟨h.nonce, ⟨h.chain, hverify⟩, h.notSpent⟩
  · rintro ⟨hnonce, ⟨hchain, hverify⟩, hnot⟩
    exact ⟨⟨signature, hsign, hverify⟩, hnonce, hchain, hnot⟩

/-- What is left of a transfer whose `send_token` raises. -/
lemma transferOverChannel_of_raised {sender : Wallet} {e : PyError}
    (hsend : m.senderWallet.sendToken c stamp m.receiverWallet.ownerPk = (sender, .error e)) :
    let outcome := m.transferOverChannel c stamp sessionId nonce
    outcome.1.senderWallet = sender ∧ outcome.1.receiverWallet = m.receiverWallet ∧
      outcome.2 = .error e := by
  simp only [transferOverChannel, Channel.openSession, hsend, and_self]

/-- What happens once the token has been sent. -/
lemma transferOverChannel_of_sendToken {sender : Wallet} {token : Token} {signature : String}
    (hsend : m.senderWallet.sendToken c stamp m.receiverWallet.ownerPk
      = (sender, .ok (token.sentTo c (stamp 0) m.receiverWallet.ownerPk signature).toJson)) :
    let outcome := m.transferOverChannel c stamp sessionId nonce
    let received := m.receiverWallet.receiveToken c
      (token.sentTo c (stamp 0) m.receiverWallet.ownerPk signature).toJson
    outcome.1.senderWallet = sender ∧
      ((nonce ≤ 0 ∧ outcome.2 ≠ .ok true) ∨
        (0 < nonce ∧ outcome.1.receiverWallet = received.1 ∧ outcome.2 = .ok received.2)) := by
  intro outcome received
  have hbuild := buildPayloadFromWalletSend_sentTo c (stamp 0) token m.receiverWallet.ownerPk
    signature sessionId nonce
  have houtcome : outcome = m.transferOverChannel c stamp sessionId nonce := rfl
  simp only [transferOverChannel, Channel.openSession, hsend, hbuild] at houtcome
  rcases m.channel.sendTransferPayload_openSession sessionId m.senderWallet.ownerPk
    m.receiverWallet.ownerPk ⟨sessionId, nonce, _, signature⟩ rfl with
    ⟨hnonce, hrefused⟩ | ⟨hnonce, channel, hsent, hreceived⟩
  · simp only [Channel.openSession] at hrefused
    rw [hrefused] at houtcome
    rw [houtcome]
    exact ⟨rfl, .inl ⟨hnonce, by simp⟩⟩
  · simp only [Channel.openSession] at hsent
    rw [hsent] at houtcome
    dsimp only at houtcome
    rw [hreceived] at houtcome
    rw [houtcome]
    exact ⟨rfl, .inr ⟨hnonce, rfl, rfl⟩⟩

/-- The outcomes of a transfer. -/
lemma transferOverChannel_cases (c : Crypto) (stamp : Nat → Stamp) (sessionId : String)
    (m : Meeting) (nonce : Int) :
    let outcome := m.transferOverChannel c stamp sessionId nonce
    ((∀ token senderSk, m.senderWallet.chosen = some token →
        m.senderWallet.keystore m.senderWallet.ownerPk ≠ .ok senderSk) ∧
      outcome.2 ≠ .ok true ∧ m.SameRegisters outcome.1) ∨
    ∃ token senderSk, m.senderWallet.chosen = some token ∧
      m.senderWallet.keystore m.senderWallet.ownerPk = .ok senderSk ∧
      outcome.1.senderWallet.utr = m.senderWallet.utr.pop token.tokenId ∧
      ((¬ m.Undisturbed c stamp nonce token senderSk ∧ outcome.2 ≠ .ok true) ∨
        (m.Undisturbed c stamp nonce token senderSk ∧ outcome.2 = .ok true ∧
          HandedTo token outcome.1)) := by
  intro outcome
  have hsend := m.senderWallet.sendToken_eq c stamp m.receiverWallet.ownerPk
  have hsame : ∀ e, m.senderWallet.sendToken c stamp m.receiverWallet.ownerPk
      = (m.senderWallet, .error e) → outcome.2 ≠ .ok true ∧ m.SameRegisters outcome.1 := by
    intro e hraises
    obtain ⟨hsender, hreceiver, hresult⟩ :=
      @transferOverChannel_of_raised c stamp sessionId m nonce _ _ hraises
    exact ⟨by simp [outcome, hresult], by rw [hsender], by rw [hsender], by rw [hreceiver],
      by rw [hreceiver]⟩
  cases htoken : m.senderWallet.chosen with
  | none =>
    rw [htoken] at hsend
    exact .inl ⟨by simp, hsame _ hsend⟩
  | some token =>
    rw [htoken] at hsend
    dsimp only at hsend
    rw [Wallet.sendTokens_singleton c stamp _ (Wallet.find?_of_chosen htoken)] at hsend
    cases hsk : m.senderWallet.keystore m.senderWallet.ownerPk with
    | error e =>
      rw [hsk] at hsend
      exact .inl ⟨by simp, hsame _ hsend⟩
    | ok senderSk =>
      refine .inr ⟨token, senderSk, rfl, rfl, ?_⟩
      rw [hsk] at hsend
      dsimp only at hsend
      cases hsign : c.signMessage senderSk
          (.transfer (token.nextTransfer c (stamp 0) m.receiverWallet.ownerPk).signingDict) with
      | error e =>
        rw [hsign] at hsend
        obtain ⟨hsender, -, hresult⟩ :=
          @transferOverChannel_of_raised c stamp sessionId m nonce _ _ hsend
        refine ⟨by rw [hsender], .inl ⟨?_, by simp [outcome, hresult]⟩⟩
        intro h
        obtain ⟨signature, hsigns, -⟩ := h.signs
        rw [hsign] at hsigns
        cases hsigns
      | ok signature =>
        rw [hsign] at hsend
        have hgoes := @undisturbed_iff c stamp m nonce token senderSk signature hsign
        obtain ⟨hsender, hresult⟩ := transferOverChannel_of_sendToken hsend
        refine ⟨by rw [hsender], ?_⟩
        rcases hresult with ⟨hnonce, hresult⟩ | ⟨hnonce, hreceiver, hresult⟩
        · exact .inl ⟨fun h => absurd h.nonce (Int.not_lt.mpr hnonce), hresult⟩
        · rcases m.receiverWallet.receiveToken_toJson c
            (token.sentTo c (stamp 0) m.receiverWallet.ownerPk signature) with
            ⟨haccepts, hreceive⟩ | ⟨hrefused, hreceive⟩ <;> rw [hreceive] at hreceiver hresult
          · refine .inr ⟨hgoes.mpr ⟨hnonce, haccepts⟩, hresult, ?_, ?_, ?_⟩
            · rw [hsender]
              exact fun hkey => (KeyedList.mem_keys_pop.mp hkey).2 rfl
            · rw [hsender]
              exact KeyedList.mem_keys_put.mpr (.inl rfl)
            · rw [hreceiver]
              exact KeyedList.mem_keys_put.mpr (.inl rfl)
          · exact .inl ⟨fun h => hrefused (hgoes.mp h).2,
              fun htrue => by cases hresult.symm.trans htrue⟩

/-- A transfer loses no token exactly if it cannot start, or nothing stops it. -/
theorem neverLoses_iff : m.NeverLoses (m.transferOverChannel c stamp sessionId nonce) ↔
    ∀ token senderSk, m.senderWallet.chosen = some token →
      m.senderWallet.keystore m.senderWallet.ownerPk = .ok senderSk →
        m.Undisturbed c stamp nonce token senderSk := by
  rcases transferOverChannel_cases c stamp sessionId m nonce with
    ⟨hnone, houtcome, hsame⟩ | ⟨token, senderSk, htoken, hsk, hpopped, hresult⟩
  · exact iff_of_true (.inr ⟨houtcome, hsame⟩) fun token senderSk htoken hsk =>
      absurd hsk (hnone token senderSk htoken)
  · have hforall : (∀ token senderSk, m.senderWallet.chosen = some token →
        m.senderWallet.keystore m.senderWallet.ownerPk = .ok senderSk →
          m.Undisturbed c stamp nonce token senderSk) ↔
        m.Undisturbed c stamp nonce token senderSk := by
      constructor
      · exact fun h => h token senderSk htoken hsk
      · intro h token' senderSk' htoken' hsk'
        rw [htoken] at htoken'
        rw [hsk] at hsk'
        cases htoken'
        cases hsk'
        exact h
    rw [hforall]
    rcases hresult with ⟨hstopped, houtcome⟩ | ⟨hgone, houtcome, hhanded⟩
    · refine iff_of_false ?_ hstopped
      rintro (⟨htrue, -⟩ | ⟨-, hsame⟩)
      · exact houtcome htrue
      · -- the token has left the UTR
        have hkey := KeyedList.mem_keys_iff_find?.mpr ⟨token, Wallet.find?_of_chosen htoken⟩
        rw [← hsame.senderUtr, hpopped] at hkey
        exact (KeyedList.mem_keys_pop.mp hkey).2 rfl
    · exact iff_of_true (.inl ⟨houtcome, token, htoken, hhanded⟩) hgone

/-- Alice with a note, and Bob with an empty wallet. -/
def plainMeeting : Meeting where
  senderWallet := Wallet.afterCalls plainCrypto "alice" Wallet.plainKeystore
    [.addToken Wallet.aliceNote]
  receiverWallet := Wallet.new "bob" Wallet.plainKeystore
  channel := ⟨.empty, .empty⟩

/-- The meeting after Alice's note went to Bob, with Bob as the sender. -/
def plainReturn : Meeting :=
  let m := (plainMeeting.transferOverChannel plainCrypto (plainStamp "alice") "s1" 1).1
  ⟨m.receiverWallet, m.senderWallet, m.channel⟩

/-- Bob gives the note back to Alice, who refuses it because she has spent it before. It is gone
from both wallets. -/
theorem not_neverLoses_plainReturn :
    let outcome := plainReturn.transferOverChannel plainCrypto (plainStamp "bob") "s2" 1
    outcome.2 = .ok false ∧ plainReturn.senderWallet.utr.keys = ["tok-r1"] ∧
      outcome.1.senderWallet.utr.keys = [] ∧ outcome.1.receiverWallet.utr.keys = [] ∧
      ¬ plainReturn.NeverLoses outcome := by
  intro outcome
  have hfalse : outcome.2 = .ok false := by decide +kernel
  have hheld : plainReturn.senderWallet.utr.keys = ["tok-r1"] := by decide +kernel
  have hgone : outcome.1.senderWallet.utr.keys = [] := by decide +kernel
  refine ⟨hfalse, hheld, hgone, by decide +kernel, ?_⟩
  rintro (⟨htrue, -⟩ | ⟨-, hsame⟩)
  · rw [hfalse] at htrue
    cases htrue
  · rw [hsame.senderUtr, hheld] at hgone
    cases hgone

end Meeting

end PocketCash.Canonical
