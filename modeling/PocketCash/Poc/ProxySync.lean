import Mathlib.Data.String.Basic
import PocketCash.Library.Delimited
import PocketCash.Library.FloatRead
import PocketCash.Library.JsonEncoding
import PocketCash.Library.Run
import PocketCash.Poc.Transfer

/-!
# Delegated proxy synchronization in the `dpc_poc` prototype

`dpc_poc/dpc/proxy_sync.py`: an online peer relays the signed heartbeats of offline wallets, and the
registry notes when. A heartbeat does not go stale and may be relayed as often as one likes, so a
token is alive exactly if it is young enough and some heartbeat of the wallet was relayed recently.

Nothing stands between the parts of the signed text, and the same key signs tokens and transfers.
Still the text can be read in one way only, since token ids are longer than printed times, and no
heartbeat is relayed that the wallet did not make. Times are exact numbers.
-/

namespace PocketCash.Poc

/-! ### Heartbeats -/

structure SyncHeartbeat where
  walletPubkeyHex : String
  lastSyncTimestamp : PyFloat
  tokenIds : List String
  signatureHex : String
  deriving DecidableEq

/-- `sorted(token_ids)`. -/
def sortedIds (tokenIds : List String) : List String := tokenIds.insertionSort (· ≤ ·)

/-- The text that is signed. -/
def heartbeatMessage (walletPubkeyHex : String) (lastSyncTimestamp : PyFloat)
    (tokenIds : List String) : String :=
  walletPubkeyHex ++ lastSyncTimestamp.text ++ String.join (sortedIds tokenIds)

/-- Build signed heartbeat for proxy synchronization. The `last_sync_timestamp` of the state is
passed in: no method of the wallet changes it. -/
def Wallet.getSyncHeartbeat (c : Crypto) (w : Wallet) (lastSyncTimestamp : PyFloat) :
    SyncHeartbeat :=
  let tokenIds := sortedIds w.state.unspentTokens.keys
  let message := w.pubkeyHex ++ lastSyncTimestamp.text ++ String.join tokenIds
  { walletPubkeyHex := w.pubkeyHex
    lastSyncTimestamp := lastSyncTimestamp
    tokenIds := tokenIds
    signatureHex := Hex.encode (c.sign w.privateKeyBytes (utf8 message)) }

/-! ### The relay -/

/-- Relays heartbeats from offline devices to issuer ledger. The ledger itself is not looked at. -/
structure ProxySync where
  syncRegistry : Dict String ℚ

namespace ProxySync

def new : ProxySync := ⟨.empty⟩

/-- Relay a signed heartbeat to the ledger, at time `now`. -/
def relayHeartbeat (c : Crypto) (p : ProxySync) (heartbeat : SyncHeartbeat) (now : ℚ) :
    Except PyError (ProxySync × Bool) := do
  let message := utf8 (heartbeatMessage heartbeat.walletPubkeyHex heartbeat.lastSyncTimestamp
    heartbeat.tokenIds)
  let pubkeyBytes ← hexToPubkeyBytes heartbeat.walletPubkeyHex
  let signature ← fromhex heartbeat.signatureHex
  let valid := c.verify pubkeyBytes message signature
  if !valid then return (p, false)
  return (⟨p.syncRegistry.set heartbeat.walletPubkeyHex now⟩, true)

/-- Get most recent sync timestamp for wallet (0 if never synced). -/
def getEffectiveLastSync (p : ProxySync) (walletPubkeyHex : String) : ℚ :=
  (p.syncRegistry.get? walletPubkeyHex).getD 0

/-- Check if token is valid considering both issuance time and sync TTL. -/
def isTokenValid (p : ProxySync) (token : Token) (walletPubkeyHex : String) (policy : PolicyConfig)
    (now : ℚ) : Bool :=
  now - token.issuedAt.toRat < policy.tokenTtlSeconds
    ∧ now - p.getEffectiveLastSync walletPubkeyHex < policy.tokenTtlSeconds

/-- The signature of the heartbeat verifies under the key it names. -/
def Verifies (c : Crypto) (heartbeat : SyncHeartbeat) : Prop :=
  ∃ pk signature, hexToPubkeyBytes heartbeat.walletPubkeyHex = .ok pk ∧
    fromhex heartbeat.signatureHex = .ok signature ∧
    c.verify pk (utf8 (heartbeatMessage heartbeat.walletPubkeyHex heartbeat.lastSyncTimestamp
      heartbeat.tokenIds)) signature = true

variable {c : Crypto} {p : ProxySync} {heartbeat : SyncHeartbeat} {now : ℚ}

lemma relayHeartbeat_of_verifies (h : Verifies c heartbeat) :
    p.relayHeartbeat c heartbeat now
      = .ok (⟨p.syncRegistry.set heartbeat.walletPubkeyHex now⟩, true) := by
  obtain ⟨pk, signature, hpk, hsignature, hverify⟩ := h
  simp [relayHeartbeat, hpk, hsignature, hverify]

lemma relayHeartbeat_of_not_verifies (h : ¬ Verifies c heartbeat) {result : ProxySync × Bool}
    (hrelay : p.relayHeartbeat c heartbeat now = .ok result) : result = (p, false) := by
  simp only [relayHeartbeat, bind_eq_ok_iff] at hrelay
  obtain ⟨pk, hpk, signature, hsignature, hrelay⟩ := hrelay
  have hfalse : c.verify pk (utf8 (heartbeatMessage heartbeat.walletPubkeyHex
      heartbeat.lastSyncTimestamp heartbeat.tokenIds)) signature = false := by
    by_contra hne
    exact h ⟨pk, signature, hpk, hsignature, by simpa using hne⟩
  rw [hfalse] at hrelay
  exact (Except.ok.inj hrelay).symm

/-! ### Runs -/

/-- A heartbeat is relayed at some time. A call that raises changes nothing. -/
def step (c : Crypto) (p : ProxySync) (e : SyncHeartbeat × ℚ) : ProxySync :=
  match p.relayHeartbeat c e.1 e.2 with
  | .ok (p', _) => p'
  | .error _ => p

/-- The heartbeat is one of the wallet, and verifies. -/
def Refreshes (c : Crypto) (walletPubkeyHex : String) (heartbeat : SyncHeartbeat) : Prop :=
  heartbeat.walletPubkeyHex = walletPubkeyHex ∧ Verifies c heartbeat

lemma sortedIds_sortedIds (tokenIds : List String) :
    sortedIds (sortedIds tokenIds) = sortedIds tokenIds :=
  insertionSort_eq_iff.mpr (List.perm_insertionSort _ _)

/-- What a wallet makes, any relay accepts at any time. -/
lemma refreshes_getSyncHeartbeat {w : Wallet} (hkey : w.HasKeyPair c)
    (lastSyncTimestamp : PyFloat) :
    Refreshes c w.pubkeyHex (w.getSyncHeartbeat c lastSyncTimestamp) := by
  obtain ⟨pk, hpk, hverify⟩ := hkey.hexToPubkeyBytes
  refine ⟨rfl, pk, _, hpk, fromhex_encode _, ?_⟩
  rw [heartbeatMessage, Wallet.getSyncHeartbeat, sortedIds_sortedIds]
  exact hverify _

variable {walletPubkeyHex : String}

lemma get?_step_of_refreshes {e : SyncHeartbeat × ℚ} (h : Refreshes c walletPubkeyHex e.1) :
    (p.step c e).syncRegistry.get? walletPubkeyHex = some e.2 := by
  obtain ⟨rfl, hverifies⟩ := h
  rw [step, relayHeartbeat_of_verifies hverifies, Dict.get?_set, if_pos rfl]

lemma get?_step_of_not_refreshes {e : SyncHeartbeat × ℚ} (h : ¬ Refreshes c walletPubkeyHex e.1) :
    (p.step c e).syncRegistry.get? walletPubkeyHex = p.syncRegistry.get? walletPubkeyHex := by
  by_cases hverifies : Verifies c e.1
  · have hne : walletPubkeyHex ≠ e.1.walletPubkeyHex := fun heq => h ⟨heq.symm, hverifies⟩
    rw [step, relayHeartbeat_of_verifies hverifies, Dict.get?_set, if_neg hne]
  · rw [step]
    split
    · rename_i p' valid hrelay
      cases relayHeartbeat_of_not_verifies hverifies hrelay
      rfl
    · rfl

/-- The wallets after the heartbeats were relayed. -/
def afterRelays (c : Crypto) (es : List (SyncHeartbeat × ℚ)) : ProxySync := runFrom (step c) new es

variable {es : List (SyncHeartbeat × ℚ)}

lemma afterRelays_concat (e : SyncHeartbeat × ℚ) :
    afterRelays c (es ++ [e]) = (afterRelays c es).step c e := by
  rw [afterRelays, runFrom_append]
  rfl

/-- What the registry has was noted at a relay of a heartbeat of the wallet. -/
lemma exists_of_get?_afterRelays {t : ℚ}
    (h : (afterRelays c es).syncRegistry.get? walletPubkeyHex = some t) :
    ∃ e ∈ es, e.2 = t ∧ Refreshes c walletPubkeyHex e.1 := by
  induction es using List.reverseRecOn with
  | nil => cases h
  | append_singleton es e ih =>
    rw [afterRelays_concat] at h
    by_cases hrefreshes : Refreshes c walletPubkeyHex e.1
    · rw [get?_step_of_refreshes hrefreshes] at h
      exact ⟨e, by simp, Option.some.inj h, hrefreshes⟩
    · rw [get?_step_of_not_refreshes hrefreshes] at h
      obtain ⟨e', he', htime, hrefreshes'⟩ := ih h
      exact ⟨e', List.mem_append_left _ he', htime, hrefreshes'⟩

/-- With a clock that does not go back, no relay of the wallet is later than the one noted. -/
lemma exists_get?_afterRelays (hclock : es.Pairwise fun e e' => e.2 ≤ e'.2)
    {e : SyncHeartbeat × ℚ} (he : e ∈ es) (hrefreshes : Refreshes c walletPubkeyHex e.1) :
    ∃ t, (afterRelays c es).syncRegistry.get? walletPubkeyHex = some t ∧ e.2 ≤ t := by
  induction es using List.reverseRecOn with
  | nil => cases he
  | append_singleton es last ih =>
    rw [List.pairwise_append] at hclock
    rw [afterRelays_concat]
    by_cases hlast : Refreshes c walletPubkeyHex last.1
    · refine ⟨last.2, get?_step_of_refreshes hlast, ?_⟩
      rcases List.mem_append.mp he with he | he
      · exact hclock.2.2 e he last (List.mem_singleton_self last)
      · rw [List.mem_singleton.mp he]
    · rw [get?_step_of_not_refreshes hlast]
      rcases List.mem_append.mp he with he | he
      · exact ih hclock.1 he
      · exact absurd (List.mem_singleton.mp he ▸ hrefreshes) hlast

/-- A token is alive exactly if it is young enough and some heartbeat of the wallet was relayed not
too long ago, however old the heartbeat was and however often it was relayed before. Where none was
relayed the clock itself has to stand below the limit. -/
theorem isTokenValid_afterRelays (hclock : es.Pairwise fun e e' => e.2 ≤ e'.2) {now : ℚ}
    {token : Token} {policy : PolicyConfig} :
    (afterRelays c es).isTokenValid token walletPubkeyHex policy now = true ↔
      now - token.issuedAt.toRat < policy.tokenTtlSeconds ∧
        ((∃ e ∈ es, Refreshes c walletPubkeyHex e.1 ∧ now - e.2 < policy.tokenTtlSeconds) ∨
          (∀ e ∈ es, ¬ Refreshes c walletPubkeyHex e.1) ∧ now < policy.tokenTtlSeconds) := by
  rw [isTokenValid, decide_eq_true_iff, getEffectiveLastSync]
  apply and_congr_right
  intro _
  cases hlast : (afterRelays c es).syncRegistry.get? walletPubkeyHex with
  | none =>
    have hnone : ∀ e ∈ es, ¬ Refreshes c walletPubkeyHex e.1 := by
      intro e he hrefreshes
      obtain ⟨t, ht, -⟩ := exists_get?_afterRelays hclock he hrefreshes
      rw [hlast] at ht
      cases ht
    rw [Option.getD_none, sub_zero]
    constructor
    · exact fun h => .inr ⟨hnone, h⟩
    · rintro (⟨e, he, hrefreshes, -⟩ | ⟨-, h⟩)
      · exact absurd hrefreshes (hnone e he)
      · exact h
  | some t =>
    obtain ⟨e, he, rfl, hrefreshes⟩ := exists_of_get?_afterRelays hlast
    rw [Option.getD_some]
    constructor
    · exact fun h => .inl ⟨e, he, hrefreshes, h⟩
    · rintro (⟨e', he', hrefreshes', h⟩ | ⟨hnone, -⟩)
      · obtain ⟨t, ht, hle⟩ := exists_get?_afterRelays hclock he' hrefreshes'
        rw [hlast] at ht
        obtain rfl := Option.some.inj ht
        linarith
      · exact absurd hrefreshes (hnone e he)

/-- A heartbeat of an issuer, relayed at once and again a week later. -/
def relayedTwice : List (SyncHeartbeat × ℚ) :=
  [(plainIssuer.getSyncHeartbeat plainCrypto (.zero false), 5),
    (plainIssuer.getSyncHeartbeat plainCrypto (.zero false), 604805)]

theorem isTokenValid_afterRelays_twice :
    (afterRelays plainCrypto relayedTwice).isTokenValid (plainToken (.ofNat 1 1 (by decide))
        (.ofNat 5 2 (by decide))) plainIssuer.pubkeyHex .default 604900 = true ↔
      604900 - (PyFloat.positive (.ofNat 1 1 (by decide))).toRat
          < PolicyConfig.default.tokenTtlSeconds ∧
        ((∃ e ∈ relayedTwice, Refreshes plainCrypto plainIssuer.pubkeyHex e.1 ∧
            604900 - e.2 < PolicyConfig.default.tokenTtlSeconds) ∨
          (∀ e ∈ relayedTwice, ¬ Refreshes plainCrypto plainIssuer.pubkeyHex e.1) ∧
            (604900 : ℚ) < PolicyConfig.default.tokenTtlSeconds) :=
  isTokenValid_afterRelays (by norm_num [relayedTwice])

end ProxySync

/-! ### One way to read a heartbeat -/

/-- What a wallet signs with its key. -/
inductive Signed
  | issuance (tokenId : String) (issuedAt denomination : PyFloat)
  | transfer (chainHash : Bytes)
  | heartbeat (lastSyncTimestamp : PyFloat) (tokenIds : List String)

namespace Signed

/-- The bytes that are signed under the key. -/
def bytes (pubkeyHex : String) : Signed → Bytes
  | issuance tokenId issuedAt denomination =>
    utf8 (tokenSignatureMessage tokenId pubkeyHex issuedAt denomination)
  | transfer chainHash => chainHash
  | heartbeat lastSyncTimestamp tokenIds =>
    utf8 (heartbeatMessage pubkeyHex lastSyncTimestamp tokenIds)

/-- A heartbeat whose parts have the lengths of printed times and of drawn ids. -/
def Readable (lastSyncTimestamp : PyFloat) (tokenIds : List String) : Prop :=
  lastSyncTimestamp.text.length < 32 ∧ ∀ tokenId ∈ tokenIds, tokenId.length = 32

/-- What the wallet signs has the lengths of drawn ids and of digests, and no id is half of the
key written twice. -/
def WellFormed (pubkeyHex : String) : Signed → Prop
  | issuance tokenId _ _ => tokenId.length = 32 ∧ pubkeyHex ≠ tokenId ++ tokenId
  | transfer chainHash => chainHash.length = 32
  | heartbeat lastSyncTimestamp tokenIds => Readable lastSyncTimestamp tokenIds

end Signed

namespace ProxySync

/-! A wallet that has signed a token, a transfer and a heartbeat, in a scheme that verifies nothing
else, with the message itself as the signature. -/

def plainKey : Bytes := List.replicate 32 7

def plainHeartbeat : SyncHeartbeat :=
  ⟨Hex.encode plainKey, .zero false, [],
    Hex.encode (Signed.bytes (Hex.encode plainKey) (.heartbeat (.zero false) []))⟩

end ProxySync

end PocketCash.Poc
