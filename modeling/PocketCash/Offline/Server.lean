import Mathlib.Algebra.Ring.Int.Defs
import Mathlib.Data.Finset.Basic
import PocketCash.Library.Run
import PocketCash.Offline.Models

/-!
# The reconciliation server

`issuer/reconciliation_server.py`: settlement of bundles, and the recovery of what a lost wallet
held. Clock readings are arguments. The tables of the server are keyed by what the bundle says (the
token id and the transfer id), while the authenticity of a token is that of the issued token its
`origin_token_id` names.
-/

namespace PocketCash.Offline

/-! ### Answers -/

/-- `status` of a settlement record. -/
inductive Status
  | accepted
  | doubleSpend
  | policyViolation
  deriving DecidableEq, Repr

/-- `reason` of a settlement record. -/
inductive Reason
  | ok
  | badTransferSig
  | badIssuerSig
  | maxHopsExceeded
  | brokenParentLink
  | brokenParentHashLink
  | brokenHashLink
  | conflictingChain
  | tokenAlreadySettled
  | revokedSender
  | tokenExpired
  deriving DecidableEq, Repr

structure SettlementRecord where
  tokenId : String
  transferId : String
  status : Status
  reason : Reason
  deriving DecidableEq, Repr

/-! ### State -/

/-- Tracks revoked wallets and computes safe balance re-issuance. -/
structure RecoveryEngine where
  policy : PolicyConfig
  revokedWallets : Dict String Int
  recoveryReissued : Finset (String × String)

/-- Validates bundles, detects double spends, and keeps settlement ledger. -/
structure ReconciliationServer where
  issuer : Issuer
  policy : PolicyConfig
  ledger : Dict String SettlementRecord
  acceptedChains : Dict String (Option String × Option String × Int)
  transferHashes : Dict String String
  acceptedTransfers : List (Transfer × Token)
  acceptedTransferTimes : Dict String Int
  recoveryEngine : RecoveryEngine

/-- `RecoveryEngine.wait_elapsed` at time `now`. -/
def RecoveryEngine.waitElapsed (engine : RecoveryEngine) (publicKey : String) (now : Datetime) :
    Except PyError Bool :=
  match engine.revokedWallets.get? publicKey with
  | none => .ok false
  | some revokedAt => do
    let elapsed ← now.since revokedAt
    return elapsed > engine.policy.tokenExpirySeconds * 1000000

/-- `revoked_at is not None and transfer.timestamp >= revoked_at`. -/
def Transfer.sentSince (transfer : Transfer) :
    Option Int → Except PyError Bool
  | none => .ok false
  | some revokedAt => transfer.timestamp.notBefore revokedAt

/-- The clock readings made while one transfer is handled. -/
structure Reading where
  settledAt : Int
  now : Int
  deriving DecidableEq, Repr

/-- The clock readings of `reissue_recovered_balance` if no `at_time` is given: by `wait_elapsed`
and by `reconstruct_recovery`. -/
structure RecoveryClock where
  waitNow : Int
  snapshotNow : Int
  deriving DecidableEq, Repr

namespace RecoveryClock

/-- The time `wait_elapsed` computes with. -/
def waitTime (clock : RecoveryClock) (atTime : Option Datetime) : Datetime :=
  atTime.getD ⟨clock.waitNow, some 0⟩

/-- The time `reconstruct_recovery` computes with. -/
def snapshotTime (clock : RecoveryClock) (atTime : Option Datetime) : Int :=
  (atTime.map Datetime.micros).getD clock.snapshotNow

/-- The times of a call before it mints. -/
def evaluationTimes (clock : RecoveryClock) : Option Datetime → List Int
  | some atTime => [atTime.micros]
  | none => [clock.waitNow, clock.snapshotNow]

lemma waitTime_mem (clock : RecoveryClock) (atTime : Option Datetime) :
    (clock.waitTime atTime).micros ∈ clock.evaluationTimes atTime := by
  cases atTime <;> simp [waitTime, evaluationTimes]

lemma snapshotTime_mem (clock : RecoveryClock) (atTime : Option Datetime) :
    clock.snapshotTime atTime ∈ clock.evaluationTimes atTime := by
  cases atTime <;> simp [snapshotTime, evaluationTimes]

end RecoveryClock

namespace ReconciliationServer

/-- A server before its first call. -/
def new (issuer : Issuer) (policy : PolicyConfig) : ReconciliationServer where
  issuer := issuer
  policy := policy
  ledger := .empty
  acceptedChains := .empty
  transferHashes := .empty
  acceptedTransfers := []
  acceptedTransferTimes := .empty
  recoveryEngine := ⟨policy, .empty, ∅⟩

/-- The tables that `process_bundle` writes. -/
def tables (s : ReconciliationServer) : Dict String SettlementRecord ×
    Dict String (Option String × Option String × Int) × Dict String String ×
    List (Transfer × Token) × Dict String Int :=
  (s.ledger, s.acceptedChains, s.transferHashes, s.acceptedTransfers, s.acceptedTransferTimes)

/-! ### Settlement -/

/-- `_verify_issuer_root`. -/
def verifyIssuerRoot (c : Crypto) (s : ReconciliationServer) (token : Token) : Bool :=
  match s.issuer.issuedTokens.find? token.origin with
  | none => false
  | some root =>
    c.verify (.token root.signingPayload) root.issuerSignature s.issuer.publicKeyHex

lemma exists_root_of_verify {c : Crypto} {s : ReconciliationServer} {token : Token}
    (h : s.verifyIssuerRoot c token = true) :
    ∃ root, s.issuer.issuedTokens.find? token.origin = some root := by
  rw [verifyIssuerRoot] at h
  split at h
  · cases h
  · exact ⟨_, by assumption⟩

/-- `_verify_transfer`. -/
def verifyTransfer (c : Crypto) (transfer : Transfer) : Bool :=
  c.verify (.transfer transfer.signingPayload) transfer.signature transfer.senderPk

/-- The branches of the loop of `process_bundle`: the status and reason of the answer. -/
def judge (c : Crypto) (s : ReconciliationServer) (transfer : Transfer) (token : Token)
    (now : Int) : Except PyError (Status × Reason) := do
  let expectedPrevHash := token.lastTransferHash
  let chainKey := (transfer.parentTransferId, transfer.prevTransferHash, transfer.hopCount)
  let revokedAt := s.recoveryEngine.revokedWallets.get? transfer.senderPk
  if !verifyTransfer c transfer then return (.policyViolation, .badTransferSig)
  else if !s.verifyIssuerRoot c token then return (.policyViolation, .badIssuerSig)
  else if transfer.hopCount > s.policy.maxHops then return (.policyViolation, .maxHopsExceeded)
  else if transfer.nonce > s.policy.maxHops then return (.policyViolation, .maxHopsExceeded)
  else if transfer.parentTransferId ≠ token.lastTransferId then
    return (.policyViolation, .brokenParentLink)
  else if transfer.parentTransferHash ≠ expectedPrevHash then
    return (.policyViolation, .brokenParentHashLink)
  else if transfer.prevTransferHash ≠ expectedPrevHash then
    return (.policyViolation, .brokenHashLink)
  else if (s.acceptedChains.get? token.tokenId).any fun chain => chain ≠ chainKey then
    return (.doubleSpend, .conflictingChain)
  else if token.tokenId ∈ s.ledger.keys then return (.doubleSpend, .tokenAlreadySettled)
  else
    let sentRevoked ← transfer.sentSince revokedAt
    if sentRevoked then return (.policyViolation, .revokedSender)
    else if wholeSeconds now - token.issueTimestamp > s.policy.tokenExpirySeconds then
      return (.policyViolation, .tokenExpired)
    else return (.accepted, .ok)

/-- The tables after a transfer was accepted. -/
def accept (c : Crypto) (s : ReconciliationServer) (transfer : Transfer) (token : Token)
    (settledAt : Int) : ReconciliationServer :=
  { s with
    ledger := s.ledger.set token.tokenId ⟨token.tokenId, transfer.transferId, .accepted, .ok⟩
    acceptedChains := s.acceptedChains.set token.tokenId
      (transfer.parentTransferId, transfer.prevTransferHash, transfer.hopCount)
    transferHashes := s.transferHashes.set transfer.transferId (c.payloadHash transfer)
    acceptedTransfers := s.acceptedTransfers ++ [(transfer, token)]
    acceptedTransferTimes := s.acceptedTransferTimes.set transfer.transferId settledAt }

/-- One round of the loop of `process_bundle`, for a transfer whose token is in the bundle. -/
def settle (c : Crypto) (s : ReconciliationServer) (transfer : Transfer) (token : Token)
    (reading : Reading) : Except PyError (ReconciliationServer × SettlementRecord) := do
  let (status, reason) ← s.judge c transfer token reading.now
  let record : SettlementRecord := ⟨token.tokenId, transfer.transferId, status, reason⟩
  match status with
  | .accepted => return (s.accept c transfer token reading.settledAt, record)
  | _ => return (s, record)

/-- What a transfer passed before it was accepted. -/
structure Accepts (c : Crypto) (s : ReconciliationServer) (transfer : Transfer) (token : Token)
    (now : Int) : Prop where
  signed : verifyTransfer c transfer = true
  root : s.verifyIssuerRoot c token = true
  hops : transfer.hopCount ≤ s.policy.maxHops
  nonce : transfer.nonce ≤ s.policy.maxHops
  parent : transfer.parentTransferId = token.lastTransferId
  parentHash : transfer.parentTransferHash = token.lastTransferHash
  prevHash : transfer.prevTransferHash = token.lastTransferHash
  unsettled : token.tokenId ∉ s.ledger.keys
  sender :
    transfer.sentSince (s.recoveryEngine.revokedWallets.get? transfer.senderPk) = .ok false
  unexpired : wholeSeconds now - token.issueTimestamp ≤ s.policy.tokenExpirySeconds

lemma accepts_of_judge {c : Crypto} {s : ReconciliationServer} {transfer : Transfer}
    {token : Token} {now : Int} {reason : Reason}
    (h : s.judge c transfer token now = .ok (.accepted, reason)) :
    s.Accepts c transfer token now ∧ reason = .ok := by
  simp only [judge, pure_eq_ok] at h
  obtain ⟨hsigned, h⟩ := of_ite_eq_ok (by simp) h
  obtain ⟨hroot, h⟩ := of_ite_eq_ok (by simp) h
  obtain ⟨hhops, h⟩ := of_ite_eq_ok (by simp) h
  obtain ⟨hnonce, h⟩ := of_ite_eq_ok (by simp) h
  obtain ⟨hparent, h⟩ := of_ite_eq_ok (by simp) h
  obtain ⟨hparentHash, h⟩ := of_ite_eq_ok (by simp) h
  obtain ⟨hprevHash, h⟩ := of_ite_eq_ok (by simp) h
  obtain ⟨-, h⟩ := of_ite_eq_ok (by simp) h
  obtain ⟨hunsettled, h⟩ := of_ite_eq_ok (by simp) h
  obtain ⟨revoked, hrevoked, h⟩ := bind_eq_ok_iff.mp h
  obtain ⟨hsender, h⟩ := of_ite_eq_ok (by simp) h
  obtain ⟨hunexpired, h⟩ := of_ite_eq_ok (by simp) h
  refine ⟨⟨by simpa using hsigned, by simpa using hroot, Int.not_lt.mp hhops, Int.not_lt.mp hnonce,
    not_not.mp hparent, not_not.mp hparentHash, not_not.mp hprevHash, hunsettled, ?_,
    Int.not_lt.mp hunexpired⟩, by simpa using h.symm⟩
  rw [hrevoked, eq_false_of_ne_true hsender]

/-- A round leaves the server as it is, or accepts the transfer. -/
lemma settle_cases {c : Crypto} {s s' : ReconciliationServer} {transfer : Transfer}
    {token : Token} {reading : Reading} {record : SettlementRecord}
    (h : s.settle c transfer token reading = .ok (s', record)) :
    (s' = s ∧ record.status ≠ .accepted) ∨
      (s.Accepts c transfer token reading.now ∧ s' = s.accept c transfer token reading.settledAt ∧
        record = ⟨token.tokenId, transfer.transferId, .accepted, .ok⟩) := by
  obtain ⟨⟨status, reason⟩, hjudge, h⟩ := bind_eq_ok_iff.mp h
  cases status with
  | accepted =>
    obtain ⟨haccepts, rfl⟩ := accepts_of_judge hjudge
    cases h
    exact .inr ⟨haccepts, rfl, rfl⟩
  | doubleSpend =>
    cases h
    exact .inl ⟨rfl, by simp⟩
  | policyViolation =>
    cases h
    exact .inl ⟨rfl, by simp⟩

end ReconciliationServer

/-- The state of the loop of `process_bundle`: the server, and the results so far or the exception
that ended the loop. -/
structure Settling where
  server : ReconciliationServer
  results : Except PyError (List SettlementRecord)

/-- One round of the loop of `process_bundle`. -/
def Settling.next (c : Crypto) (tokens : Dict String Token) (loop : Settling)
    (handled : Transfer × Reading) : Settling :=
  match loop.results with
  | .error _ => loop
  | .ok results =>
    match tokens.get? handled.1.tokenId with
    | none => { loop with results := .error (.keyError handled.1.tokenId) }
    | some token =>
      match loop.server.settle c handled.1 token handled.2 with
      | .error e => { loop with results := .error e }
      | .ok (server, record) => ⟨server, .ok (results ++ [record])⟩

/-- A condition on the server, the transfer and its token in each round that handles a token. -/
def OnToken (g : ReconciliationServer → Transfer → Token → Prop) (tokens : Dict String Token)
    (loop : Settling) (handled : Transfer × Reading) : Prop :=
  loop.results.isOk → ∀ token ∈ tokens.get? handled.1.tokenId, g loop.server handled.1 token

instance (g : ReconciliationServer → Transfer → Token → Prop) [∀ s t k, Decidable (g s t k)]
    (tokens : Dict String Token) (loop : Settling) (handled : Transfer × Reading) :
    Decidable (OnToken g tokens loop handled) :=
  inferInstanceAs (Decidable (loop.results.isOk → ∀ token ∈ tokens.get? handled.1.tokenId,
    g loop.server handled.1 token))

lemma Settling.next_server {c : Crypto} {tokens : Dict String Token} {loop : Settling}
    {handled : Transfer × Reading} {g : ReconciliationServer → Transfer → Token → Prop}
    (hg : OnToken g tokens loop handled) :
    (loop.next c tokens handled).server = loop.server ∨
      ∃ token, g loop.server handled.1 token ∧
        loop.server.Accepts c handled.1 token handled.2.now ∧
        (loop.next c tokens handled).server
          = loop.server.accept c handled.1 token handled.2.settledAt := by
  rw [Settling.next]
  split
  · exact .inl rfl
  · rename_i results hresults
    split
    · exact .inl rfl
    · rename_i token htoken
      split
      · exact .inl rfl
      · rename_i server record hsettle
        rcases ReconciliationServer.settle_cases hsettle with ⟨rfl, -⟩ | ⟨haccepts, rfl, -⟩
        · exact .inl rfl
        · exact .inr ⟨token, hg (by rw [hresults]; rfl) token htoken, haccepts, rfl⟩

/-- The transfers of a bundle in order, with the clock readings made for each. -/
def PaymentBundle.handled (bundle : PaymentBundle) (readings : Nat → Reading) :
    List (Transfer × Reading) :=
  bundle.transfers.mapIdx fun i transfer => (transfer, readings i)

namespace ReconciliationServer

/-- Process a payment bundle and return settlement records; `readings i` are those made for the
`i`-th transfer. -/
def processBundle (c : Crypto) (s : ReconciliationServer) (bundle : PaymentBundle)
    (readings : Nat → Reading) : Settling :=
  runFrom (Settling.next c bundle.tokens) ⟨s, .ok []⟩ (bundle.handled readings)

/-- `g` holds of every token handled while the bundle is processed. -/
def BundleMeets (c : Crypto) (g : ReconciliationServer → Transfer → Token → Prop)
    (s : ReconciliationServer) (bundle : PaymentBundle) (readings : Nat → Reading) : Prop :=
  Along (Settling.next c bundle.tokens) (OnToken g bundle.tokens) ⟨s, .ok []⟩
    (bundle.handled readings)

instance (c : Crypto) (g : ReconciliationServer → Transfer → Token → Prop)
    [∀ s t k, Decidable (g s t k)] (s : ReconciliationServer) (bundle : PaymentBundle)
    (readings : Nat → Reading) : Decidable (s.BundleMeets c g bundle readings) :=
  Along.decidable _ _ _ _

/-- The invariant rule for bundles: what accepting a transfer keeps, `process_bundle` keeps. -/
theorem processBundle_invariant {c : Crypto} {g : ReconciliationServer → Transfer → Token → Prop}
    {I : ReconciliationServer → Prop} {s : ReconciliationServer} {bundle : PaymentBundle}
    {readings : Nat → Reading} (hmeets : s.BundleMeets c g bundle readings) (hs : I s)
    (haccept : ∀ s, ∀ handled ∈ bundle.handled readings, ∀ token, I s → g s handled.1 token →
      s.Accepts c handled.1 token handled.2.now →
      I (s.accept c handled.1 token handled.2.settledAt)) :
    I (s.processBundle c bundle readings).server := by
  have hmem : Along (Settling.next c bundle.tokens) (fun _ h => h ∈ bundle.handled readings)
      ⟨s, .ok []⟩ (bundle.handled readings) := .of_forall_mem fun _ => id
  refine Along.invariant (I := fun loop => I loop.server) ?_ (hmeets.and hmem) hs
  rintro loop handled ⟨hguard, hhandled⟩ hI
  rcases Settling.next_server (c := c) hguard with hsame | ⟨token, hg, haccepts, haccept'⟩
  · rwa [hsame]
  · rw [haccept']
    exact haccept _ _ hhandled _ hI hg haccepts

/-- `process_bundle` does not touch the issuer, the policy and the recovery engine. -/
theorem processBundle_frame (c : Crypto) (s : ReconciliationServer) (bundle : PaymentBundle)
    (readings : Nat → Reading) :
    (s.processBundle c bundle readings).server.issuer = s.issuer ∧
      (s.processBundle c bundle readings).server.policy = s.policy ∧
      (s.processBundle c bundle readings).server.recoveryEngine = s.recoveryEngine :=
  processBundle_invariant (g := fun _ _ _ => True)
    (I := fun s' => s'.issuer = s.issuer ∧ s'.policy = s.policy ∧
      s'.recoveryEngine = s.recoveryEngine)
    (.of_forall fun _ _ _ _ _ => trivial) ⟨rfl, rfl, rfl⟩
    fun _ _ _ _ h _ _ => h

/-- The transfers accepted since `s` and the results with status `ACCEPTED` are the same. -/
def Reported (s : ReconciliationServer) (loop : Settling) : Prop :=
  ∀ results, loop.results = .ok results →
    loop.server.acceptedTransfers.map (fun q => (q.2.tokenId, q.1.transferId))
      = s.acceptedTransfers.map (fun q => (q.2.tokenId, q.1.transferId)) ++
        (results.filter fun record => record.status = .accepted).map
          fun record => (record.tokenId, record.transferId)

lemma Reported.next {c : Crypto} {s : ReconciliationServer} {loop : Settling}
    {tokens : Dict String Token} {handled : Transfer × Reading} (h : s.Reported loop) :
    s.Reported (loop.next c tokens handled) := by
  intro results hresults
  rw [Settling.next] at hresults ⊢
  split at hresults
  · rename_i e herror
    rw [herror] at hresults
    cases hresults
  · rename_i before hbefore
    split at hresults
    · cases hresults
    · split at hresults
      · cases hresults
      · rename_i server record hsettle
        cases hresults
        rcases settle_cases hsettle with ⟨rfl, hstatus⟩ | ⟨-, rfl, rfl⟩
        · simpa [hstatus] using h before hbefore
        · simp [accept, h before hbefore]

/-- `process_bundle` reports exactly the transfers it accepts. -/
theorem reported_processBundle (c : Crypto) (s : ReconciliationServer) (bundle : PaymentBundle)
    (readings : Nat → Reading) : s.Reported (s.processBundle c bundle readings) :=
  Along.invariant (g := fun _ _ => True) (fun _ _ _ => Reported.next)
    (.of_forall fun _ _ => trivial) (by rintro results ⟨⟩; simp)

/-! ### Recovery -/

/-- Revoke a lost/stolen wallet identity, at time `now`. -/
def revokeWallet (s : ReconciliationServer) (publicKey : String) (now : Int) :
    ReconciliationServer :=
  { s with
    recoveryEngine := { s.recoveryEngine with
      revokedWallets := s.recoveryEngine.revokedWallets.set publicKey now } }

/-- The result of `reconstruct_recovery`. -/
structure Recovery where
  issuedTotal : Int
  claimedTotal : Int
  safeBalance : Int
  safeTokenIds : List String
  deriving DecidableEq, Repr

/-- The tokens issued to a wallet. -/
def issuedForWallet (s : ReconciliationServer) (publicKey : String) : List Token :=
  s.issuer.issuedTokens.items.filter fun token => token.currentOwner = publicKey

/-- The latest settlement time that counts as a claim. -/
def claimCutoff (s : ReconciliationServer) (publicKey : String) (now : Int) : Int :=
  match s.recoveryEngine.revokedWallets.get? publicKey with
  | none => now
  | some revokedAt => min now (revokedAt + s.policy.tokenExpirySeconds * 1000000)

/-- The ids of the wallet's tokens that were deposited by somebody else before the cutoff. -/
def externallyDeposited (s : ReconciliationServer) (publicKey : String) (now : Int) :
    List String :=
  let revokedOriginIds := (s.issuedForWallet publicKey).map Token.tokenId
  (s.acceptedTransfers.filter fun q =>
    q.2.origin ∈ revokedOriginIds ∧ q.1.receiverPk ≠ publicKey ∧
      (s.acceptedTransferTimes.get? q.1.transferId).getD now ≤ s.claimCutoff publicKey now).map
    fun q => q.2.origin

/-- `safe_tokens` of `reconstruct_recovery`. -/
def safeTokens (s : ReconciliationServer) (publicKey : String) (now : Int) : List Token :=
  (s.issuedForWallet publicKey).filter fun token =>
    token.tokenId ∉ s.externallyDeposited publicKey now

def totalValue (tokens : List Token) : Int := (tokens.map Token.value).sum

/-- Deterministically compute issued, claimed, and safe balances for a revoked wallet. -/
def reconstructRecovery (s : ReconciliationServer) (publicKey : String) (now : Int) : Recovery :=
  let issuedTotal := totalValue (s.issuedForWallet publicKey)
  let safeBalance := totalValue (s.safeTokens publicKey now)
  { issuedTotal := issuedTotal
    claimedTotal := issuedTotal - safeBalance
    safeBalance := safeBalance
    safeTokenIds := (s.safeTokens publicKey now).map Token.tokenId }

/-- The loop of `reissue_recovered_balance`; `draws i` is what the `i`-th `mint_token` draws. -/
def mintReplacements (c : Crypto) (newPublicKey : String) (draws : Nat → MintDraw) :
    Nat → Issuer → List Token → Issuer × List Token
  | _, issuer, [] => (issuer, [])
  | i, issuer, safeToken :: rest =>
    let (issuer', replacement) := issuer.mintToken c newPublicKey safeToken.value (draws i)
    let (issuer'', replacements) := mintReplacements c newPublicKey draws (i + 1) issuer' rest
    (issuer'', replacement :: replacements)

/-- The tokens `reissue_recovered_balance` replaces: those issued to the wallet whose id is among
the `safe_token_ids` of the snapshot. -/
def recoverable (s : ReconciliationServer) (publicKey : String) (now : Int) : List Token :=
  let safeTokenIds := (s.reconstructRecovery publicKey now).safeTokenIds
  (s.issuedForWallet publicKey).filter fun token => token.tokenId ∈ safeTokenIds

/-- The ids in the snapshot select the safe tokens. -/
lemma recoverable_eq (s : ReconciliationServer) (publicKey : String) (now : Int) :
    s.recoverable publicKey now = s.safeTokens publicKey now := by
  apply List.filter_congr
  intro token htoken
  apply decide_eq_decide.mpr
  simp only [reconstructRecovery, List.mem_map]
  constructor
  · rintro ⟨safe, hsafe, hid⟩
    rw [← hid]
    exact of_decide_eq_true (List.mem_filter.mp hsafe).2
  · intro hnot
    exact ⟨token, List.mem_filter.mpr ⟨htoken, decide_eq_true hnot⟩, rfl⟩

lemma mem_recoverable {s : ReconciliationServer} {publicKey : String} {now : Int} {token : Token} :
    token ∈ s.recoverable publicKey now ↔
      token ∈ s.issuer.issuedTokens.items ∧ token.currentOwner = publicKey ∧
        token.tokenId ∉ s.externallyDeposited publicKey now := by
  rw [recoverable_eq, safeTokens, issuedForWallet, List.mem_filter, List.mem_filter,
    decide_eq_true_eq, decide_eq_true_eq, and_assoc]

lemma recoverable_nodup (s : ReconciliationServer) (publicKey : String) (now : Int) :
    ((s.recoverable publicKey now).map Token.tokenId).Nodup :=
  s.issuer.issuedTokens.nodup.sublist
    ((List.filter_sublist.trans List.filter_sublist).map Token.tokenId)

/-- Each replacement has the value of the token it replaces. -/
lemma mintReplacements_values (c : Crypto) (newPublicKey : String) (draws : Nat → MintDraw) (i : Nat)
    (issuer : Issuer) (tokens : List Token) :
    (mintReplacements c newPublicKey draws i issuer tokens).2.map Token.value
      = tokens.map Token.value := by
  induction tokens generalizing i issuer with
  | nil => rfl
  | cons token tokens ih => exact congrArg₂ List.cons rfl (ih _ _)

/-- Minting under new ids keeps every entry of the issuer's table, and adds tokens of the new
owner only. -/
lemma mintReplacements_issued {c : Crypto} {newPublicKey : String} {draws : Nat → MintDraw} {i : Nat}
    {issuer : Issuer} {tokens : List Token}
    (hfresh : (issuer.issuedTokens.keys ++
      (List.range' i tokens.length).map fun j => (draws j).tokenId).Nodup) :
    ∃ minted, (mintReplacements c newPublicKey draws i issuer tokens).1.issuedTokens.items
        = issuer.issuedTokens.items ++ minted ∧
      ∀ token ∈ minted, token.currentOwner = newPublicKey := by
  induction tokens generalizing i issuer with
  | nil => exact ⟨[], by simp [mintReplacements], by simp⟩
  | cons token tokens ih =>
    have hnot : (draws i).tokenId ∉ issuer.issuedTokens.keys := fun hmem =>
      (List.nodup_append.mp hfresh).2.2 _ hmem _ (by simp [List.range'_succ]) rfl
    have hitems : (issuer.mintToken c newPublicKey token.value (draws i)).1.issuedTokens.items
        = issuer.issuedTokens.items ++
          [issuer.mintedToken c newPublicKey token.value (draws i)] := Issuer.items_mintToken hnot
    have hrest : ((issuer.mintToken c newPublicKey token.value (draws i)).1.issuedTokens.keys ++
        (List.range' (i + 1) tokens.length).map fun j => (draws j).tokenId).Nodup := by
      simpa [KeyedList.keys, hitems, List.range'_succ] using hfresh
    obtain ⟨minted, hminted, howner⟩ := ih hrest
    refine ⟨issuer.mintedToken c newPublicKey token.value (draws i) :: minted, ?_, ?_⟩
    · rw [mintReplacements, hminted, hitems, List.append_assoc]
      rfl
    · rw [List.forall_mem_cons]
      exact ⟨rfl, howner⟩

/-- `reissue_recovered_balance` after its two guards, at the time `now` of the snapshot. -/
def mintSafeTokens (c : Crypto) (s : ReconciliationServer) (revokedPublicKey newPublicKey : String)
    (now : Int) (draws : Nat → MintDraw) : ReconciliationServer × List Token :=
  let minted := mintReplacements c newPublicKey draws 0 s.issuer (s.recoverable revokedPublicKey now)
  ({ s with
      issuer := minted.1
      recoveryEngine := { s.recoveryEngine with
        recoveryReissued :=
          insert (revokedPublicKey, newPublicKey) s.recoveryEngine.recoveryReissued } },
    minted.2)

/-- The replacements are worth the safe balance. -/
lemma totalValue_mintSafeTokens (c : Crypto) (s : ReconciliationServer)
    (revokedPublicKey newPublicKey : String) (now : Int) (draws : Nat → MintDraw) :
    totalValue (s.mintSafeTokens c revokedPublicKey newPublicKey now draws).2
      = (s.reconstructRecovery revokedPublicKey now).safeBalance := by
  rw [mintSafeTokens, totalValue, mintReplacements_values, recoverable_eq]
  rfl

/-- Every token of the safe list has one replacement. -/
lemma length_mintSafeTokens (c : Crypto) (s : ReconciliationServer)
    (revokedPublicKey newPublicKey : String) (now : Int) (draws : Nat → MintDraw) :
    (s.mintSafeTokens c revokedPublicKey newPublicKey now draws).2.length
      = (s.recoverable revokedPublicKey now).length := by
  have hvalues := mintReplacements_values c newPublicKey draws 0 s.issuer
    (s.recoverable revokedPublicKey now)
  simpa [mintSafeTokens] using congrArg List.length hvalues

/-- Mint replacement tokens after waiting window passes. -/
def reissueRecoveredBalance (c : Crypto) (s : ReconciliationServer)
    (revokedPublicKey newPublicKey : String) (atTime : Option Datetime) (clock : RecoveryClock)
    (draws : Nat → MintDraw) : ReconciliationServer × Except PyError (List Token) :=
  match s.recoveryEngine.waitElapsed revokedPublicKey (clock.waitTime atTime) with
  | .error e => (s, .error e)
  | .ok false => (s, .error (.valueError "RECOVERY_WAIT_NOT_ELAPSED"))
  | .ok true =>
    if (revokedPublicKey, newPublicKey) ∈ s.recoveryEngine.recoveryReissued then (s, .ok [])
    else
      let (s', reissued) := s.mintSafeTokens c revokedPublicKey newPublicKey
        (clock.snapshotTime atTime) draws
      (s', .ok reissued)

/-- A call of `reissue_recovered_balance` changes nothing, or the wait has elapsed and the pair of
keys is new. -/
lemma reissueRecoveredBalance_cases (c : Crypto) (s : ReconciliationServer)
    (revokedPublicKey newPublicKey : String) (atTime : Option Datetime) (clock : RecoveryClock)
    (draws : Nat → MintDraw) :
    (∃ e, s.reissueRecoveredBalance c revokedPublicKey newPublicKey atTime clock draws
        = (s, .error e)) ∨
      ((revokedPublicKey, newPublicKey) ∈ s.recoveryEngine.recoveryReissued ∧
        s.reissueRecoveredBalance c revokedPublicKey newPublicKey atTime clock draws
          = (s, .ok [])) ∨
      (s.recoveryEngine.waitElapsed revokedPublicKey (clock.waitTime atTime)
          = .ok true ∧
        (revokedPublicKey, newPublicKey) ∉ s.recoveryEngine.recoveryReissued ∧
        s.reissueRecoveredBalance c revokedPublicKey newPublicKey atTime clock draws
          = ((s.mintSafeTokens c revokedPublicKey newPublicKey (clock.snapshotTime atTime) draws).1,
            .ok (s.mintSafeTokens c revokedPublicKey newPublicKey (clock.snapshotTime atTime)
              draws).2)) := by
  rw [reissueRecoveredBalance]
  split
  · exact .inl ⟨_, rfl⟩
  · exact .inl ⟨_, rfl⟩
  · rename_i hwait
    split_ifs with hpair
    · exact .inr (.inl ⟨hpair, rfl⟩)
    · exact .inr (.inr ⟨hwait, hpair, rfl⟩)

end ReconciliationServer

/-- The wait has elapsed exactly for a revoked wallet, more than the expiry after its revocation. -/
lemma RecoveryEngine.waitElapsed_eq_true {engine : RecoveryEngine} {publicKey : String}
    {now : Datetime} (h : engine.waitElapsed publicKey now = .ok true) :
    ∃ revokedAt, engine.revokedWallets.get? publicKey = some revokedAt ∧
      revokedAt + engine.policy.tokenExpirySeconds * 1000000 < now.micros := by
  rw [waitElapsed] at h
  split at h
  · cases h
  · rename_i revokedAt hrevoked
    obtain ⟨elapsed, hsince, h⟩ := bind_eq_ok_iff.mp h
    have helapsed : elapsed = now.micros - revokedAt := by
      rw [Datetime.since] at hsince
      split at hsince
      · exact (Except.ok.inj hsince).symm
      · cases hsince
    have hlong := of_decide_eq_true (Except.ok.inj h)
    exact ⟨revokedAt, hrevoked, by omega⟩

end PocketCash.Offline
