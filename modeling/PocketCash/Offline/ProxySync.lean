import Mathlib.Data.String.Basic
import PocketCash.Offline.Envelope
import PocketCash.Offline.Network
import PocketCash.Offline.Relay

/-!
# Proxy synchronisation of what a wallet holds

`create_heartbeat` of `protocol/proxy_sync.py` and `simulate_proxy_sync` of
`protocol/network_simulator.py`. The heartbeat lists what the wallet holds, and the server goes by the
owner that the token was minted to. A payment moves the token and leaves that owner as it is.
-/

namespace PocketCash.Offline

/-- `sign` on a text of bytes as well. -/
structure SigningOps extends HeartbeatOps where
  sign : Bytes → String → String

/-- A pair of `generate_keypair`: two texts of raw bytes, with signatures that are texts of bytes and
verify. -/
def SigningOps.Generated (ops : SigningOps) (privateKeyHex publicKeyHex : String) : Prop :=
  ∃ sk pk, privateKeyHex = Hex.encode sk ∧ publicKeyHex = Hex.encode pk ∧
    ∀ message, ∃ signature, ops.sign message privateKeyHex = Hex.encode signature ∧
      ops.verify message (Hex.encode signature) publicKeyHex = true

/-- Wallet owner creates and signs a heartbeat, at the time `timestamp`. -/
def createHeartbeat (ops : SigningOps) (walletSk walletPk : Bytes) (tokenIds : List String)
    (timestamp : Timestamp) : Except PyError SyncHeartbeat := do
  let payload := heartbeatPayload walletPk tokenIds timestamp
  let signature ← fromhex (ops.sign payload (Hex.encode walletSk))
  return ⟨walletPk, tokenIds, timestamp, signature⟩

namespace SyncedServer

/-- Relay a signed sync heartbeat from an offline wallet through an online peer. -/
def simulateProxySync (ops : SigningOps) (s : SyncedServer) (offlineWallet _onlineWallet : Wallet)
    (timestamp : Timestamp) (clock : RelayClock) :
    Except PyError (SyncedServer × RelayStatus × List String) := do
  let tokenIds := offlineWallet.utr.keys.insertionSort (· ≤ ·)
  let walletSk ← fromhex offlineWallet.privateKeyHex
  let walletPk ← fromhex offlineWallet.publicKeyHex
  let heartbeat ← createHeartbeat ops walletSk walletPk tokenIds timestamp
  return s.relayHeartbeat ops.toHeartbeatOps heartbeat clock

/-- The wallet's heartbeat reaches the server as the wallet made it. -/
lemma exists_heartbeat {ops : SigningOps} {w : Wallet}
    (hkeys : ops.Generated w.privateKeyHex w.publicKeyHex) (timestamp : Timestamp) :
    ∃ hb : SyncHeartbeat, Hex.encode hb.walletPk = w.publicKeyHex ∧ hb.timestamp = timestamp ∧
      (∀ id, id ∈ hb.tokenIds ↔ id ∈ w.utr.keys) ∧
      verifyHeartbeat ops.toHeartbeatOps hb = true ∧
      ∀ (s : SyncedServer) (online : Wallet) (clock : RelayClock),
        s.simulateProxySync ops w online timestamp clock
          = .ok (s.relayHeartbeat ops.toHeartbeatOps hb clock) := by
  obtain ⟨sk, pk, hsk, hpk, hsigns⟩ := hkeys
  obtain ⟨signature, hsign, hverify⟩ :=
    hsigns (heartbeatPayload pk (w.utr.keys.insertionSort (· ≤ ·)) timestamp)
  refine ⟨⟨pk, w.utr.keys.insertionSort (· ≤ ·), timestamp, signature⟩, hpk.symm, rfl,
    fun id => List.mem_insertionSort _, ?_, ?_⟩
  · rw [verifyHeartbeat, ← hpk]
    exact hverify
  · intro s online clock
    rw [hsk] at hsign
    simp only [simulateProxySync, createHeartbeat, hsk, hpk, fromhex_encode, hsign, ok_bind, pure_eq_ok]

end SyncedServer

namespace Network

variable {c : Crypto} {n : Network} {members : Dict String (String × PolicyConfig)}

/-! ### The keys of the wallets -/

/-- The wallets are those of the members. -/
def OfMembers (members : Dict String (String × PolicyConfig)) (n : Network) : Prop :=
  ∀ w ∈ n.wallets.items, (w.publicKeyHex, w.privateKeyHex, w.policy) ∈ members.items

lemma OfMembers.step (h : n.OfMembers members) (e : NetworkEvent) :
    (n.step c e).OfMembers members := by
  have hmember : ∀ w pk, n.wallets.find? pk = some w →
      (w.publicKeyHex, w.privateKeyHex, w.policy) ∈ members.items := fun w _ hw =>
    h w (KeyedList.find?_eq_some_iff.mp hw).1
  cases e with
  | mint ownerPk value draw => exact h
  | hand tokenId =>
    rcases n.step_hand_cases c tokenId with hsame | ⟨token, w, w', -, hw, rfl, hstep⟩
    · rwa [hsame]
    · rw [hstep]
      exact KeyedList.forall_mem_put h (hmember w _ hw)
  | pay senderPk receiverPk amount draw =>
    rcases n.step_pay_cases c senderPk receiverPk amount draw with
      hsame | ⟨w, w', hw, ⟨syncRequired, rfl, hstep⟩ | ⟨bundle, selected, hpays, hstep⟩⟩
    · rwa [hsame]
    · rw [hstep]
      exact KeyedList.forall_mem_put h (hmember w _ hw)
    · rw [hstep]
      refine KeyedList.forall_mem_put h ?_
      rw [hpays.publicKeyHex, hpays.privateKeyHex, hpays.policy]
      exact hmember w _ hw
  | deliver index receiverPk readings =>
    refine deliver_invariant (I := OfMembers members) h ?_ ?_ index receiverPk readings
    · exact fun w hw => KeyedList.forall_mem_put h (hmember w _ hw)
    · intro n' w bundle t token reading h' hw _ _ _ _
      exact KeyedList.forall_mem_put h' (h' w (KeyedList.find?_eq_some_iff.mp hw).1)

/-- No call changes the keys of a wallet. -/
lemma ofMembers_runFrom (c : Crypto) (issuer : Issuer)
    (members : Dict String (String × PolicyConfig)) (es : List NetworkEvent) :
    (runFrom (step c) (start issuer members) es).OfMembers members := by
  refine runFrom_invariant (I := OfMembers members) (fun n e h => h.step e) ?_ es
  intro w hw
  obtain ⟨m, hm, rfl⟩ := List.mem_map.mp hw
  exact hm

/-! ### What a proxy sync refreshes -/

/-- The answer is ok, every token of the wallet is refreshed, and none that another wallet holds. -/
def ProxySyncs (n : Network) (w : Wallet) (s : SyncedServer)
    (answer : Except PyError (SyncedServer × RelayStatus × List String)) (now : Int) : Prop :=
  ∃ s' refreshed, answer = .ok (s', .ok, refreshed) ∧
    (∀ id ∈ w.utr.keys, id ∈ refreshed ∧ s'.lastSync.get? id = some now) ∧
    ∀ v ∈ n.wallets.items, v ≠ w → ∀ id ∈ v.utr.keys,
      id ∉ refreshed ∧ s'.lastSync.get? id = s.lastSync.get? id

/-- In every run, a proxy sync refreshes what the wallet holds, and nothing that another wallet holds,
exactly if the heartbeat is young enough when it is relayed and, for each held token, it is so when it
is applied as well and the token was minted to this wallet. -/
theorem proxySyncs_iff {ops : SigningOps} {issuer : Issuer} {es : List NetworkEvent}
    (hkeys : ∀ m ∈ members.items, ops.Generated m.2.1 m.1)
    (hrun : Along (step c) (DistinctIds c) (start issuer members) es) {w : Wallet}
    (hw : w ∈ (runFrom (step c) (start issuer members) es).wallets.items) {s : SyncedServer}
    (hissuer : s.run.server.issuer = (runFrom (step c) (start issuer members) es).issuer)
    (online : Wallet) (timestamp : Timestamp) (clock : RelayClock) :
    let n := runFrom (step c) (start issuer members) es
    let isOld := fun now =>
      timestamp.olderThan ops.toHeartbeatOps now s.run.server.policy.tokenExpirySeconds
    n.ProxySyncs w s (s.simulateProxySync ops w online timestamp clock) clock.applied ↔
      isOld clock.relayed = false ∧ ∀ id ∈ w.utr.keys, isOld clock.applied = false ∧
        ∃ token, n.issuer.issuedTokens.find? id = some token ∧
          token.currentOwner = w.publicKeyHex := by
  intro n isOld
  obtain ⟨hb, hpk, rfl, hlisted, hverify, hanswer⟩ :=
    SyncedServer.exists_heartbeat (hkeys _ (ofMembers_runFrom c issuer members es w hw)) timestamp
  rw [hanswer, SyncedServer.relayHeartbeat_of_verified hverify]
  have hrefreshable : ∀ id, id ∈ s.refreshable hb ↔ id ∈ w.utr.keys ∧
      ∃ token, n.issuer.issuedTokens.find? id = some token ∧
        token.currentOwner = w.publicKeyHex := by
    intro id
    rw [SyncedServer.mem_refreshable, hlisted, SyncedServer.IssuedTo, hissuer, hpk]
  constructor
  · rintro ⟨s', refreshed, hanswer, hheld, -⟩
    split_ifs at hanswer with hrelayed happlied
    · cases hanswer
    · cases hanswer
      exact ⟨by simpa using hrelayed, fun id hid => absurd (hheld id hid).1 List.not_mem_nil⟩
    · cases hanswer
      refine ⟨by simpa using hrelayed, fun id hid => ⟨by simpa using happlied, ?_⟩⟩
      exact ((hrefreshable id).mp (hheld id hid).1).2
  · rintro ⟨hrelayed, hheld⟩
    rw [if_neg (by simpa using hrelayed)]
    split_ifs with happlied
    · refine ⟨s, [], rfl, fun id hid => ?_, fun _ _ _ _ _ => ⟨List.not_mem_nil, rfl⟩⟩
      exact absurd (hheld id hid).1 (by simpa using happlied)
    · refine ⟨_, _, rfl, fun id hid => ?_, fun v hv hne id hid => ?_⟩
      · have hmem := (hrefreshable id).mpr ⟨hid, (hheld id hid).2⟩
        exact ⟨hmem, by rw [SyncedServer.refresh, Dict.get?_foldl_set, if_pos hmem]⟩
      · -- a token is in one purse only
        have hnot : id ∉ s.refreshable hb := fun hmem =>
          hne ((one_purse hrun).1 v hv w hw id hid ((hrefreshable id).mp hmem).1)
        exact ⟨hnot, by rw [SyncedServer.refresh, Dict.get?_foldl_set, if_neg hnot]⟩

/-- Keys and signatures in plain bytes. -/
def hexCrypto : Crypto where
  sign m privateKey := privateKey ++ " signs " ++ m.text
  verify m signature publicKey := signature == "5e" ++ publicKey ++ " signs " ++ m.text
  payloadHash := plainCrypto.payloadHash

def hexOps : SigningOps where
  sign message privateKey := Hex.encode (utf8 (privateKey ++ " signs ") ++ message)
  verify message signature publicKey :=
    signature == Hex.encode (utf8 ("5e" ++ publicKey ++ " signs ") ++ message)
  round x := x

/-- Two wallets with the private keys `5e…`. -/
def hexMembers : Dict String (String × PolicyConfig) where
  items := ["a1", "b0"].map fun pk => (pk, "5e" ++ pk, .default)
  nodup := by decide

lemma generated_hexMembers : ∀ m ∈ hexMembers.items, hexOps.Generated m.2.1 m.1 := by
  have hsigns : ∀ pk message, ∃ signature, hexOps.sign message ("5e" ++ pk) = Hex.encode signature ∧
      hexOps.verify message (Hex.encode signature) pk = true := fun pk message =>
    ⟨utf8 ("5e" ++ pk ++ " signs ") ++ message, rfl, by simp [hexOps]⟩
  intro m hm
  obtain ⟨pk, hpk, rfl⟩ := List.mem_map.mp hm
  rcases List.mem_pair.mp hpk with rfl | rfl
  · exact ⟨[0x5e, 0xa1], [0xa1], by decide, by decide, hsigns "a1"⟩
  · exact ⟨[0x5e, 0xb0], [0xb0], by decide, by decide, hsigns "b0"⟩

/-- The wallet `a1` gets a token and pays `b0` with it. -/
def tokenPassedOn : List NetworkEvent :=
  [.mint "a1" 100 ⟨"t1", 1000000000, 1000000000⟩, .hand "t1",
    plainPayment "a1" "b0" "x1", plainDelivery 0 "b0"]

/-- Second 1003. -/
def laterThatDay : Timestamp := .number (.positive (.ofNat 1003 4 (by decide)))

theorem proxySyncs_iff_tokenPassedOn :
    let n := runFrom (step hexCrypto) (start plainIssuer hexMembers) tokenPassedOn
    let s := SyncedServer.start n.issuer .default 0
    let isOld := fun now => laterThatDay.olderThan hexOps.toHeartbeatOps now 604800
    ∃ w, n.wallets.find? "b0" = some w ∧
      (n.ProxySyncs w s
          (s.simulateProxySync hexOps w w laterThatDay ⟨1003000000, 1003000000⟩) 1003000000 ↔
        isOld 1003000000 = false ∧ ∀ id ∈ w.utr.keys, isOld 1003000000 = false ∧
          ∃ token, n.issuer.issuedTokens.find? id = some token ∧
            token.currentOwner = w.publicKeyHex) := by
  intro n s isOld
  have hrun : Along (step hexCrypto) (DistinctIds hexCrypto) (start plainIssuer hexMembers)
      tokenPassedOn ∧ (n.wallets.find? "b0").isSome = true := by
    decide +kernel
  obtain ⟨w, hw⟩ := Option.isSome_iff_exists.mp hrun.2
  exact ⟨w, hw, proxySyncs_iff generated_hexMembers hrun.1 (KeyedList.find?_eq_some_iff.mp hw).1 rfl
    w laterThatDay ⟨1003000000, 1003000000⟩⟩

/-- The payee syncs, and the token that it holds is not refreshed. -/
theorem not_proxySyncs_tokenPassedOn :
    let n := runFrom (step hexCrypto) (start plainIssuer hexMembers) tokenPassedOn
    let s := SyncedServer.start n.issuer .default 0
    Along (step hexCrypto) (DistinctIds hexCrypto) (start plainIssuer hexMembers) tokenPassedOn ∧
      (n.wallets.find? "b0").isSome = true ∧
      ∀ w ∈ n.wallets.find? "b0", w.utr.keys = ["t1"] ∧
        (s.simulateProxySync hexOps w w laterThatDay ⟨1003000000, 1003000000⟩).map Prod.snd
          = .ok (.ok, []) := by
  decide +kernel

end Network

end PocketCash.Offline
