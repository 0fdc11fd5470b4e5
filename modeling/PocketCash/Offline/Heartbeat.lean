import PocketCash.Library.FloatText
import PocketCash.Library.Hex
import PocketCash.Offline.Circulation
import PocketCash.Offline.Payout

/-!
# Heartbeats and the two notions of expiry

`protocol/proxy_sync.py`, and `apply_sync_heartbeat` and `is_token_expired` of the server. The age
of a token is computed twice: `is_token_expired` starts from the last heartbeat of the issued token,
and `process_bundle` from the `issue_timestamp` of the copy in the bundle, which nobody signs.
-/

namespace PocketCash.Offline

/-! ### Heartbeats -/

/-- A `float`. -/
inductive Timestamp
  | number (x : PyFloat)
  | infinity (negative : Bool)
  | nan
  deriving DecidableEq

/-- `repr`. -/
def Timestamp.text : Timestamp → String
  | number x => x.text
  | infinity negative => if negative then "-inf" else "inf"
  | nan => "nan"

/-- Compact signed struct that the offline wallet gives to a relay peer. -/
structure SyncHeartbeat where
  walletPk : Bytes
  tokenIds : List String
  timestamp : Timestamp
  signature : Bytes
  deriving DecidableEq

/-- `verify` on a text of bytes, and the rounding to a float. -/
structure HeartbeatOps where
  verify : Bytes → String → String → Bool
  round : ℚ → ℚ

/-- `_heartbeat_payload`. -/
def heartbeatPayload (walletPk : Bytes) (tokenIds : List String) (timestamp : Timestamp) : Bytes :=
  let orderedIds := ",".intercalate (tokenIds.insertionSort (· ≤ ·))
  utf8 (Hex.encode walletPk ++ "|" ++ orderedIds ++ "|" ++ timestamp.text)

/-- Relay peer or ledger verifies the heartbeat before forwarding/applying. -/
def verifyHeartbeat (ops : HeartbeatOps) (hb : SyncHeartbeat) : Bool :=
  ops.verify (heartbeatPayload hb.walletPk hb.tokenIds hb.timestamp) (Hex.encode hb.signature)
    (Hex.encode hb.walletPk)

/-- `now.timestamp() - timestamp > seconds`. -/
def Timestamp.olderThan (ops : HeartbeatOps) (now seconds : Int) : Timestamp → Bool
  | number x => ops.round (ops.round ((now : ℚ) / 1000000) - x.toRat) > seconds
  | infinity negative => negative
  | nan => false

/-- The server with its `last_sync`, in a run. -/
structure SyncedServer where
  run : ServerRun
  lastSync : Dict String Int

namespace SyncedServer

/-- Apply a verified proxy-sync heartbeat and refresh token last_sync timestamps, at time `now`. -/
def applySyncHeartbeat (ops : HeartbeatOps) (s : SyncedServer) (hb : SyncHeartbeat) (now : Int) :
    SyncedServer × List String :=
  if !verifyHeartbeat ops hb then (s, [])
  else if hb.timestamp.olderThan ops now s.run.server.policy.tokenExpirySeconds then (s, [])
  else
    let refreshed := hb.tokenIds.filter fun tokenId =>
      (s.run.server.issuer.issuedTokens.find? tokenId).any fun token =>
        token.currentOwner = Hex.encode hb.walletPk
    ({ s with lastSync := refreshed.foldl (fun d tokenId => d.set tokenId now) s.lastSync },
      refreshed)

/-- `last_sync_ts` of an issued token. -/
def lastSyncTs (s : SyncedServer) (token : Token) : Int :=
  match s.lastSync.get? token.tokenId with
  | some lastSync => wholeSeconds lastSync
  | none => token.issueTimestamp

/-- Return whether a token is expired relative to its last issuer/proxy sync, at time `now`. -/
def isTokenExpired (s : SyncedServer) (tokenId : String) (now : Int) : Bool :=
  match s.run.server.issuer.issuedTokens.find? tokenId with
  | none => true
  | some token => wholeSeconds now - s.lastSyncTs token > s.run.server.policy.tokenExpirySeconds

end SyncedServer

/-- A call of the server, or a heartbeat that arrives at time `now`. -/
inductive SyncEvent
  | call (e : ServerEvent)
  | heartbeat (hb : SyncHeartbeat) (now : Int)

namespace SyncedServer

open ReconciliationServer

def start (issuer : Issuer) (policy : PolicyConfig) (time : Int) : SyncedServer :=
  ⟨.start issuer policy time, .empty⟩

def step (ops : HeartbeatOps) (c : Crypto) (s : SyncedServer) : SyncEvent → SyncedServer
  | .call e => { s with run := s.run.step c e }
  | .heartbeat hb now => (s.applySyncHeartbeat ops hb now).1

/-- A heartbeat touches `last_sync` only. -/
lemma run_applySyncHeartbeat (ops : HeartbeatOps) (s : SyncedServer) (hb : SyncHeartbeat)
    (now : Int) : (s.applySyncHeartbeat ops hb now).1.run = s.run := by
  rw [applySyncHeartbeat]
  split_ifs <;> rfl

/-- The settlement tables agree whatever heartbeats arrive. -/
lemma tablesAgree_runFrom (ops : HeartbeatOps) (c : Crypto) {s : SyncedServer}
    (h : s.run.server.TablesAgree) (es : List SyncEvent) :
    (runFrom (step ops c) s es).run.server.TablesAgree := by
  refine runFrom_invariant (I := fun s : SyncedServer => s.run.server.TablesAgree) ?_ h es
  intro s e hs
  cases e with
  | call e => exact ServerRun.tablesAgree_step hs e
  | heartbeat hb now => rwa [step, run_applySyncHeartbeat]

end SyncedServer

namespace ReconciliationServer

/-- The transfer passes every check of `process_bundle` except that of the age. -/
structure PassesOtherwise (c : Crypto) (s : ReconciliationServer) (transfer : Transfer)
    (token : Token) : Prop extends s.Screened c transfer token where
  unsettled : token.tokenId ∉ s.ledger.keys
  sender :
    transfer.sentSince (s.recoveryEngine.revokedWallets.get? transfer.senderPk) = .ok false

/-- Then the age of the copy decides. -/
lemma PassesOtherwise.judge {c : Crypto} {s : ReconciliationServer} {transfer : Transfer}
    {token : Token} (hagree : s.TablesAgree) (h : s.PassesOtherwise c transfer token) (now : Int) :
    s.judge c transfer token now =
      if wholeSeconds now - token.issueTimestamp > s.policy.tokenExpirySeconds then
        .ok (.policyViolation, .tokenExpired)
      else .ok (.accepted, .ok) := by
  have hchain : s.acceptedChains.get? token.tokenId = none := by
    rw [Dict.get?_eq_none_iff, hagree.chains, ← hagree.ledger]
    exact h.unsettled
  rw [judge_of_screened h.toScreened, hchain, Option.any_none, if_neg Bool.false_ne_true,
    if_neg h.unsettled, h.sender, ok_bind, if_neg Bool.false_ne_true]

/-- The record of a round says what was judged. -/
lemma exists_settle_of_judge {c : Crypto} {s : ReconciliationServer} {transfer : Transfer}
    {token : Token} {reading : Reading} {status : Status} {reason : Reason}
    (h : s.judge c transfer token reading.now = .ok (status, reason)) :
    ∃ s', s.settle c transfer token reading
      = .ok (s', ⟨token.tokenId, transfer.transferId, status, reason⟩) := by
  cases status <;> exact ⟨_, by rw [settle, h]; rfl⟩

end ReconciliationServer

namespace SyncedServer

open ReconciliationServer

/-- The answer of this round is `TOKEN_EXPIRED` exactly if `is_token_expired` says so at the time it
reads. -/
def AgreesAt (c : Crypto) (s : SyncedServer) (tokens : Dict String Token) (loop : Settling)
    (transfer : Transfer) (token : Token) (reading : Reading) : Prop :=
  ∃ results record, loop.results = .ok results ∧
    (loop.next c tokens (transfer, reading)).results = .ok (results ++ [record]) ∧
    (record.reason = .tokenExpired ↔ s.isTokenExpired token.tokenId reading.now = true)

/-- The oldest time that is not expired does not lie between the two times. -/
def OneSide (cutoff a b : Int) : Prop := cutoff ≤ min a b ∨ max a b < cutoff

lemma oneSide_iff {now expiry a b : Int} :
    (now - a > expiry ↔ now - b > expiry) ↔ OneSide (now - expiry) a b := by
  rw [OneSide]
  omega

lemma agreesAt_iff {c : Crypto} {s : SyncedServer} {tokens : Dict String Token} {loop : Settling}
    {results : List SettlementRecord} {transfer : Transfer} {token root : Token}
    (hpolicy : loop.server.policy = s.run.server.policy) (hagree : loop.server.TablesAgree)
    (hresults : loop.results = .ok results)
    (htoken : tokens.get? transfer.tokenId = some token)
    (hroot : s.run.server.issuer.issuedTokens.find? token.tokenId = some root)
    (hpasses : loop.server.PassesOtherwise c transfer token) (reading : Reading) :
    s.AgreesAt c tokens loop transfer token reading ↔
      OneSide (wholeSeconds reading.now - s.run.server.policy.tokenExpirySeconds)
        token.issueTimestamp (s.lastSyncTs root) := by
  have hexpired : s.isTokenExpired token.tokenId reading.now = true ↔
      wholeSeconds reading.now - s.lastSyncTs root > s.run.server.policy.tokenExpirySeconds := by
    rw [isTokenExpired, hroot]
    exact decide_eq_true_iff
  have hjudge := hpasses.judge hagree reading.now
  rw [hpolicy] at hjudge
  rw [AgreesAt, hexpired, ← oneSide_iff]
  have hanswer : ∀ status reason,
      loop.server.judge c transfer token reading.now = .ok (status, reason) →
        ∀ record, (loop.next c tokens (transfer, reading)).results = .ok (results ++ [record]) ↔
          record = ⟨token.tokenId, transfer.transferId, status, reason⟩ := by
    intro status reason hstatus record
    obtain ⟨server, hsettle⟩ := exists_settle_of_judge hstatus
    simp only [Settling.next, hresults, htoken, hsettle, Except.ok.injEq, List.append_cancel_left_eq,
      List.cons.injEq, and_true]
    exact eq_comm
  by_cases hold : wholeSeconds reading.now - token.issueTimestamp
      > s.run.server.policy.tokenExpirySeconds
  · rw [if_pos hold] at hjudge
    simp [hresults, hanswer _ _ hjudge, hold]
  · rw [if_neg hold] at hjudge
    simp [hresults, hanswer _ _ hjudge, hold]

/-- At every time the two are on one side exactly if they are the same. -/
lemma forall_oneSide_iff {expiry a b : Int} :
    (∀ reading : Reading, OneSide (wholeSeconds reading.now - expiry) a b) ↔ a = b := by
  constructor
  · intro h
    have hnow := h ⟨0, (max a b + expiry) * 1000000⟩
    rw [wholeSeconds, Int.mul_tdiv_cancel _ (by decide), OneSide] at hnow
    omega
  · rintro rfl reading
    rw [OneSide]
    omega

/-- In every state that a run reaches, also in the middle of a bundle, `process_bundle` and
`is_token_expired` agree on an issued, unsettled token at one time exactly if that time puts the
`issue_timestamp` of the copy and the last sync of the token on one side of the expiry, and at all
times exactly if the two are the same. -/
theorem one_expiry_iff {ops : HeartbeatOps} {c : Crypto} {issuer : Issuer} {policy : PolicyConfig}
    {started : Int} {es : List SyncEvent} {bundle : PaymentBundle} {readings : Nat → Reading}
    {rounds : Nat} {results : List SettlementRecord} {transfer : Transfer} {token root : Token}
    (hresults : ((runFrom (step ops c) (start issuer policy started) es).run.server.settling c bundle
      readings rounds).results = .ok results)
    (htoken : bundle.tokens.get? transfer.tokenId = some token)
    (hroot : (runFrom (step ops c) (start issuer policy started)
      es).run.server.issuer.issuedTokens.find? token.tokenId = some root)
    (hpasses : ((runFrom (step ops c) (start issuer policy started) es).run.server.settling c bundle
      readings rounds).server.PassesOtherwise c transfer token) :
    let s := runFrom (step ops c) (start issuer policy started) es
    let loop := s.run.server.settling c bundle readings rounds
    (∀ reading, s.AgreesAt c bundle.tokens loop transfer token reading ↔
      OneSide (wholeSeconds reading.now - s.run.server.policy.tokenExpirySeconds)
        token.issueTimestamp (s.lastSyncTs root)) ∧
    ((∀ reading, s.AgreesAt c bundle.tokens loop transfer token reading) ↔
      token.issueTimestamp = s.lastSyncTs root) := by
  intro s loop
  obtain ⟨-, hpolicy, -⟩ := settling_frame c s.run.server bundle readings rounds
  have hagree : loop.server.TablesAgree :=
    (tablesAgree_runFrom ops c (tablesAgree_new issuer policy) es).runFrom_next _ _
  have hiff : ∀ reading, s.AgreesAt c bundle.tokens loop transfer token reading ↔
      OneSide (wholeSeconds reading.now - s.run.server.policy.tokenExpirySeconds)
        token.issueTimestamp (s.lastSyncTs root) :=
    agreesAt_iff hpolicy hagree hresults htoken hroot hpasses
  refine ⟨hiff, ?_⟩
  simp only [hiff]
  exact forall_oneSide_iff

/-- Signatures in plain bytes, and exact arithmetic. -/
def plainOps : HeartbeatOps where
  verify message signature publicKey :=
    signature == Hex.encode (utf8 ("sk:" ++ publicKey ++ " signs ") ++ message)
  round x := x

/-- A heartbeat of the wallet `a1` for its token, signed six and a half days after the minting. -/
def plainHeartbeat : SyncHeartbeat :=
  let timestamp := Timestamp.number (.positive (.ofNat 5626 6 (by decide)))
  ⟨[0xa1], ["t1"], timestamp,
    utf8 "sk:a1 signs " ++ heartbeatPayload [0xa1] ["t1"] timestamp⟩

/-- The wallet `a1` gets a token and syncs it. -/
def syncedWallet : List SyncEvent :=
  [.call (.mint "a1" 100 ⟨"t1", 1000000000, 1000000000⟩), .heartbeat plainHeartbeat 562600000000]

/-- A copy of the token that claims to be issued at `issueTimestamp`. -/
def syncedCopy (issueTimestamp : Int) : Token :=
  { plainToken "t1" "a1" with issueTimestamp := issueTimestamp }

def syncedPayment (issueTimestamp : Int) : PaymentBundle :=
  plainBundle [plainTransfer "x1" "t1" "a1" "b0"] [syncedCopy issueTimestamp]

theorem one_expiry_iff_syncedWallet :
    let s := runFrom (step plainOps plainCrypto) (start plainIssuer .default 0) syncedWallet
    let loop := s.run.server.settling plainCrypto (syncedPayment 562600) (fun _ => ⟨0, 0⟩) 0
    (∀ reading, s.AgreesAt plainCrypto (syncedPayment 562600).tokens loop
        (plainTransfer "x1" "t1" "a1" "b0") (syncedCopy 562600) reading ↔
      OneSide (wholeSeconds reading.now - s.run.server.policy.tokenExpirySeconds)
        (syncedCopy 562600).issueTimestamp (s.lastSyncTs (plainToken "t1" "a1"))) ∧
    ((∀ reading, s.AgreesAt plainCrypto (syncedPayment 562600).tokens loop
        (plainTransfer "x1" "t1" "a1" "b0") (syncedCopy 562600) reading) ↔
      (syncedCopy 562600).issueTimestamp = s.lastSyncTs (plainToken "t1" "a1")) :=
  one_expiry_iff rfl (by decide +kernel) (by decide +kernel)
    ⟨⟨by decide +kernel, by decide +kernel, by decide +kernel, by decide +kernel,
      by decide +kernel, by decide +kernel, by decide +kernel⟩, by decide +kernel,
      by decide +kernel⟩

/-- On the eighth day `process_bundle` answers `TOKEN_EXPIRED` for the synced token, and a day after
its sync has expired as well it accepts a copy that claims to be new. -/
theorem disagree_syncedWallet :
    let s := runFrom (step plainOps plainCrypto) (start plainIssuer .default 0) syncedWallet
    let answer := fun issueTimestamp now => (s.run.server.processBundle plainCrypto
      (syncedPayment issueTimestamp) fun _ => ⟨now, now⟩).results
    s.lastSync.get? "t1" = some 562600000000 ∧
      (answer 1000 600000000000 = .ok [⟨"t1", "x1", .accepted, .ok⟩] ∧
        answer 1000 606800000000 = .ok [⟨"t1", "x1", .policyViolation, .tokenExpired⟩] ∧
        s.isTokenExpired "t1" 606800000000 = false) ∧
      (answer 1253000 1254000000000 = .ok [⟨"t1", "x1", .accepted, .ok⟩] ∧
        s.isTokenExpired "t1" 1254000000000 = true) := by
  decide +kernel

end SyncedServer

end PocketCash.Offline
