import PocketCash.Library.Run
import PocketCash.Poc.Atomicity

/-!
# The nonces of a channel

A channel draws its nonce when it is made, together with the session key that is derived with it, and
encrypts every packet under these two. So a channel may send one packet: the second one, which is
already the second half of a swap, reuses the nonce.
-/

namespace PocketCash.Poc

namespace Meeting

/-- What can be done with a channel, between any of the wallets. -/
inductive Event
  | transmit (packetData : PacketData)
  | transfer (senderPk recipientPk tokenId : String) (amount : PyFloat) (draw : TransferDraw)
  | swap (payerPk payeePk payerTokenId : String) (owedAmount : PyFloat)
      (payDraw changeDraw : TransferDraw)

/-- One event. A call that raises keeps what it changed before. -/
def step (c : Crypto) (s : SessionCrypto) (m : Meeting) : Event → Meeting
  | .transmit packetData => { m with channel := (m.channel.transmit s packetData).1 }
  | .transfer senderPk recipientPk tokenId amount draw =>
    (m.executeTransfer c s senderPk recipientPk tokenId amount draw).1
  | .swap payerPk payeePk payerTokenId owedAmount payDraw changeDraw =>
    (m.executeSwap c s payerPk payeePk payerTokenId owedAmount payDraw changeDraw).1

/-! ### Packets -/

/-- A transfer sends a packet if `send_token` returns. -/
def transferPackets (c : Crypto) (m : Meeting) (senderPk recipientPk tokenId : String)
    (amount : PyFloat) (draw : TransferDraw) : ℕ :=
  match m.wallets.find? senderPk, m.wallets.find? recipientPk with
  | some senderWallet, some recipientWallet =>
    if (senderWallet.sendToken c tokenId recipientWallet.pubkeyHex amount draw).2.isOk then 1 else 0
  | _, _ => 0

/-- A swap that starts sends the packet of its first half. If change is due and the first half
completes, it sends the packet of its second half. -/
def swapPackets (c : Crypto) (s : SessionCrypto) (m : Meeting) (payerPk payeePk payerTokenId : String)
    (owedAmount : PyFloat) (payDraw changeDraw : TransferDraw) : ℕ :=
  match m.wallets.find? payerPk, m.wallets.find? payeePk with
  | some payerWallet, some payeeWallet =>
    match payerWallet.state.unspentTokens.get? payerTokenId with
    | none => 0
    | some payerToken =>
      let changeAmount := payerToken.denomination.toRat - owedAmount.toRat
      let changeToken := payeeWallet.getTokenForSwap changeAmount
      if changeAmount < 0 then 0
      else if changeAmount > 0 ∧ changeToken = none then 0
      else
        let first := m.executeTransfer c s payerPk payeePk payerTokenId payerToken.denomination payDraw
        m.transferPackets c payerPk payeePk payerTokenId payerToken.denomination payDraw +
          match changeToken with
          | none => 0
          | some changeToken =>
            if changeAmount > 0 ∧ first.2.isOk then
              first.1.transferPackets c payeePk payerPk changeToken.tokenId changeToken.denomination
                changeDraw
            else 0
  | _, _ => 0

/-- The number of packets that an event sends. -/
def packets (c : Crypto) (s : SessionCrypto) (m : Meeting) : Event → ℕ
  | .transmit packetData => if packetData.packetBytes.isOk then 1 else 0
  | .transfer senderPk recipientPk tokenId amount draw =>
    m.transferPackets c senderPk recipientPk tokenId amount draw
  | .swap payerPk payeePk payerTokenId owedAmount payDraw changeDraw =>
    m.swapPackets c s payerPk payeePk payerTokenId owedAmount payDraw changeDraw

/-- The number of packets along a run. -/
def totalPackets (c : Crypto) (s : SessionCrypto) : Meeting → List Event → ℕ
  | _, [] => 0
  | m, e :: es => m.packets c s e + totalPackets c s (m.step c s e) es

end Meeting

/-! ### One key and one nonce -/

/-- `channel'` is `channel` after `n` more packets, encrypted under the key and the nonce of the
session. -/
structure BLEChannel.After (n : ℕ) (session : BLESession) (channel channel' : BLEChannel) : Prop where
  session_eq : channel'.session = some session
  encryptions_eq : channel'.encryptions = channel.encryptions
    ++ List.replicate n (session.sessionKey, session.sessionNonce12)

namespace BLEChannel.After

variable {session : BLESession} {channel channel' channel'' : BLEChannel} {n n' : ℕ}

lemma refl (h : channel.session = some session) : After 0 session channel channel :=
  ⟨h, by simp⟩

lemma trans (h : After n session channel channel') (h' : After n' session channel' channel'') :
    After (n + n') session channel channel'' := by
  refine ⟨h'.session_eq, ?_⟩
  rw [h'.encryptions_eq, h.encryptions_eq, List.append_assoc, List.replicate_append_replicate]

end BLEChannel.After

section

variable {c : Crypto} {s : SessionCrypto} {session : BLESession} {m : Meeting}

/-- Every packet goes out under the key and the nonce of the session. -/
lemma BLEChannel.after_transmit {channel : BLEChannel} (h : channel.session = some session)
    (packetData : PacketData) :
    After (if packetData.packetBytes.isOk then 1 else 0) session channel
      (channel.transmit s packetData).1 := by
  rw [transmit]
  cases hbytes : packetData.packetBytes with
  | error e => exact .refl h
  | ok packetBytes =>
    simp only [h]
    rcases s.decrypt session.sessionKey session.sessionNonce12
      (s.encrypt session.sessionKey session.sessionNonce12 packetBytes) with _ | received
    · exact ⟨rfl, rfl⟩
    · exact ⟨rfl, rfl⟩

lemma BLEChannel.after_transmit_bytes {channel : BLEChannel} (h : channel.session = some session)
    (packetBytes : Bytes) :
    After 1 session channel (channel.transmit s (.bytes packetBytes)).1 :=
  after_transmit h (.bytes packetBytes)

namespace Meeting

lemma after_executeTransfer (h : m.channel.session = some session)
    (senderPk recipientPk tokenId : String) (amount : PyFloat) (draw : TransferDraw) :
    BLEChannel.After (m.transferPackets c senderPk recipientPk tokenId amount draw) session m.channel
      (m.executeTransfer c s senderPk recipientPk tokenId amount draw).1.channel := by
  cases hsender : m.wallets.find? senderPk with
  | none =>
    simp only [executeTransfer, transferPackets, hsender]
    exact .refl h
  | some senderWallet =>
    cases hrecipient : m.wallets.find? recipientPk with
    | none =>
      simp only [executeTransfer, transferPackets, hsender, hrecipient]
      exact .refl h
    | some recipientWallet =>
      simp only [executeTransfer, transferPackets, hsender, hrecipient]
      rcases senderWallet.sendToken c tokenId recipientWallet.pubkeyHex amount draw with
        ⟨senderWallet', e | ⟨record, newToken⟩⟩
      · exact .refl h
      · have hafter := BLEChannel.after_transmit_bytes (s := s) h
          (JsonEncoding.documentBytes (packet record newToken))
        simp only [Except.isOk, Except.toBool, if_true]
        rcases htransmit : m.channel.transmit s (.bytes (JsonEncoding.documentBytes (packet record
          newToken))) with ⟨channel, e | received⟩ <;> rw [htransmit] at hafter
        · exact hafter
        · dsimp only
          rcases readPacket received with e | ⟨receivedRecord, receivedToken⟩
          · exact hafter
          · dsimp only
            rcases Wallet.receiveToken c (((m.wallets.put senderWallet').find? recipientPk).getD
              recipientWallet) receivedToken receivedRecord with e | recipientWallet'
            · exact hafter
            · exact hafter

lemma after_executeSwap (h : m.channel.session = some session)
    (payerPk payeePk payerTokenId : String) (owedAmount : PyFloat)
    (payDraw changeDraw : TransferDraw) :
    BLEChannel.After
      (m.swapPackets c s payerPk payeePk payerTokenId owedAmount payDraw changeDraw) session m.channel
      (m.executeSwap c s payerPk payeePk payerTokenId owedAmount payDraw changeDraw).1.channel := by
  cases hpayer : m.wallets.find? payerPk with
  | none =>
    simp only [executeSwap, swapPackets, hpayer]
    exact .refl h
  | some payerWallet =>
    cases hpayee : m.wallets.find? payeePk with
    | none =>
      simp only [executeSwap, swapPackets, hpayer, hpayee]
      exact .refl h
    | some payeeWallet =>
      cases hfound : payerWallet.state.unspentTokens.get? payerTokenId with
      | none =>
        simp only [executeSwap, swapPackets, hpayer, hpayee, hfound]
        exact .refl h
      | some payerToken =>
        simp only [executeSwap, swapPackets, hpayer, hpayee, hfound]
        generalize payerToken.denomination.toRat - owedAmount.toRat = changeAmount
        by_cases hneg : changeAmount < 0
        · simp only [if_pos hneg]
          exact .refl h
        simp only [if_neg hneg]
        by_cases hnone : changeAmount > 0 ∧ payeeWallet.getTokenForSwap changeAmount = none
        · simp only [if_pos hnone]
          exact .refl h
        simp only [if_neg hnone]
        have hfirst := after_executeTransfer (c := c) (s := s) h payerPk payeePk payerTokenId
          payerToken.denomination payDraw
        -- the call ends here, unless the first half completes and change is due
        have hend := hfirst.trans (.refl hfirst.session_eq)
        rcases hrun : m.executeTransfer c s payerPk payeePk payerTokenId payerToken.denomination
          payDraw with ⟨m₁, e | received⟩ <;> rw [hrun] at hfirst hend
        · rcases payeeWallet.getTokenForSwap changeAmount with _ | changeToken
          · exact hend
          · simp only [Except.isOk, Except.toBool, Bool.false_eq_true, and_false, if_false]
            exact hend
        · rcases payeeWallet.getTokenForSwap changeAmount with _ | changeToken
          · exact hend
          · by_cases hpos : changeAmount > 0
            · simp only [Except.isOk, Except.toBool, hpos, and_true, if_true]
              exact hfirst.trans (after_executeTransfer hfirst.session_eq _ _ _ _ _)
            · simp only [hpos, false_and, if_false]
              exact hend

/-- The step lemma: what an event sends goes out under one key and one nonce. -/
lemma after_step (h : m.channel.session = some session) (e : Event) :
    BLEChannel.After (m.packets c s e) session m.channel (m.step c s e).channel := by
  cases e with
  | transmit packetData => exact BLEChannel.after_transmit h packetData
  | transfer senderPk recipientPk tokenId amount draw =>
    exact after_executeTransfer h senderPk recipientPk tokenId amount draw
  | swap payerPk payeePk payerTokenId owedAmount payDraw changeDraw =>
    exact after_executeSwap h payerPk payeePk payerTokenId owedAmount payDraw changeDraw

/-- The run lemma. -/
lemma after_run (h : m.channel.session = some session) (es : List Event) :
    BLEChannel.After (m.totalPackets c s es) session m.channel
      (runFrom (step c s) m es).channel := by
  induction es generalizing m with
  | nil => exact .refl h
  | cons e es ih =>
    have hstep := after_step (c := c) (s := s) h e
    exact hstep.trans (ih hstep.session_eq)

/-- All packets of a channel are encrypted alike. -/
lemma exists_encryptions_eq_replicate {walletA walletB : Wallet} {nonce12 : Bytes}
    {channel : BLEChannel} (h : BLEChannel.create s walletA walletB true nonce12 = .ok channel)
    (c : Crypto) (wallets : KeyedList Wallet.pubkeyHex) (es : List Event) :
    ∃ sessionKey, (runFrom (step c s) ⟨channel, wallets⟩ es).channel.encryptions
      = List.replicate (totalPackets c s ⟨channel, wallets⟩ es) (sessionKey, nonce12) := by
  obtain ⟨peer, -, hkey⟩ := bind_eq_ok_iff.mp h
  obtain ⟨sessionKey, -, hchannel⟩ := bind_eq_ok_iff.mp hkey
  obtain rfl := Except.ok.inj hchannel
  refine ⟨sessionKey, ?_⟩
  have hsession : (⟨some ⟨sessionKey, nonce12⟩, none, []⟩ : BLEChannel).session
      = some ⟨sessionKey, nonce12⟩ := rfl
  have hafter := after_run (c := c) (s := s) (m := ⟨_, wallets⟩) hsession es
  exact hafter.encryptions_eq.trans (List.nil_append _)

/-- The keys and nonces of an encrypting channel are pairwise distinct exactly in the runs with at
most one packet. -/
theorem encryptions_nodup_iff {walletA walletB : Wallet} {nonce12 : Bytes} {channel : BLEChannel}
    (h : BLEChannel.create s walletA walletB true nonce12 = .ok channel)
    (wallets : KeyedList Wallet.pubkeyHex) (es : List Event) :
    (runFrom (step c s) ⟨channel, wallets⟩ es).channel.encryptions.Nodup ↔
      totalPackets c s ⟨channel, wallets⟩ es ≤ 1 := by
  obtain ⟨sessionKey, hencryptions⟩ := exists_encryptions_eq_replicate h c wallets es
  rw [hencryptions, List.nodup_replicate]

/-! ### Two packets to Bob -/

/-- The key `9…9` is one that `derive_session_key` takes. -/
lemma exists_ed25519ToX25519Public_nine :
    ∃ xPublic, ed25519ToX25519Public (List.replicate 32 9) = .ok xPublic := by
  rw [ed25519ToX25519Public]
  exact ⟨_, guard_eq_ok_iff.mpr ⟨by decide, guard_eq_ok_iff.mpr ⟨by decide,
    guard_eq_ok_iff.mpr ⟨by decide, rfl⟩⟩⟩⟩

lemma exists_create_channel :
    ∃ channel, BLEChannel.create plainSession payingIssuer cappedReceiver true
      (List.replicate 12 2) = .ok channel := by
  obtain ⟨xPublic, hpublic⟩ := exists_ed25519ToX25519Public_nine
  have hpeer : hexToPubkeyBytes cappedReceiver.pubkeyHex = .ok (List.replicate 32 9) :=
    hexToPubkeyBytes_encode List.length_replicate
  simp only [BLEChannel.create, hpeer, deriveSessionKey, hpublic, if_true, ok_bind, plainSession]
  exact ⟨_, rfl⟩

/-- The second packet goes out under the nonce of the first. -/
theorem transmit_twice_reuses_nonce :
    ∃ channel, BLEChannel.create plainSession payingIssuer cappedReceiver true
        (List.replicate 12 2) = .ok channel ∧
      ¬ (runFrom (step plainCrypto plainSession) ⟨channel, cappedMeeting.wallets⟩
        [.transmit (.bytes [1]), .transmit (.bytes [2])]).channel.encryptions.Nodup := by
  obtain ⟨channel, hcreate⟩ := exists_create_channel
  refine ⟨channel, hcreate, ?_⟩
  obtain ⟨sessionKey, hencryptions⟩ := exists_encryptions_eq_replicate hcreate plainCrypto
    cappedMeeting.wallets [.transmit (.bytes [1]), .transmit (.bytes [2])]
  rw [hencryptions, List.nodup_replicate]
  exact of_decide_eq_false rfl

theorem encryptions_nodup_single :
    ∃ channel, BLEChannel.create plainSession payingIssuer cappedReceiver true
        (List.replicate 12 2) = .ok channel ∧
      (runFrom (step plainCrypto plainSession) ⟨channel, cappedMeeting.wallets⟩
        [.transmit (.str "ping")]).channel.encryptions.Nodup := by
  obtain ⟨channel, hcreate⟩ := exists_create_channel
  refine ⟨channel, hcreate, ?_⟩
  rw [encryptions_nodup_iff hcreate cappedMeeting.wallets [.transmit (.str "ping")]]
  exact le_rfl

end Meeting

end

end PocketCash.Poc
