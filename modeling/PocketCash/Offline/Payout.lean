import Mathlib.Data.List.Pairwise
import PocketCash.Offline.Run

/-!
# No double payout after a loss

A token of a revoked wallet may be replaced once its settlement period is over: the wait is counted
from the revocation, and a transfer of the token is accepted only until the token expires. The two
fit together if the token was issued in an earlier second than the revocation, and if the submitted
token, whose fields nobody signs, does not claim to be younger than the issued one.
-/

namespace PocketCash.Offline

namespace ServerRun

open ReconciliationServer

/-- Every accepted transfer of a token that was replaced is a payment to the revoked key. -/
def PaidOnce (run : ServerRun) : Prop :=
  ∀ r ∈ run.reissues, ∀ p ∈ r.replaced, ∀ q ∈ run.server.acceptedTransfers,
    q.2.origin = p.1.tokenId → q.1.receiverPk = r.revokedPublicKey
  deriving Decidable

/-- The clock does not go back. -/
def ClockForward (run : ServerRun) (e : ServerEvent) : Prop :=
  (run.time :: run.readings e).Pairwise (· ≤ ·)
  deriving Decidable

/-- The ids drawn for new tokens. -/
def drawnIds (run : ServerRun) : ServerEvent → List String
  | .mint _ _ draw => [draw.tokenId]
  | .reissue revokedPublicKey _ atTime clock draws =>
    (List.range' 0 (run.server.recoverable revokedPublicKey
      (clock.snapshotTime atTime)).length).map fun i => (draws i).tokenId
  | _ => []

/-- `uuid.uuid4()` draws new ids. -/
def FreshIds (run : ServerRun) (e : ServerEvent) : Prop :=
  (run.server.issuer.issuedTokens.keys ++ run.drawnIds e).Nodup
  deriving Decidable

/-- What was issued stays issued. -/
lemma find?_step {c : Crypto} {run : ServerRun} {e : ServerEvent} (hfresh : run.FreshIds e)
    {id : String} {root : Token} (h : run.server.issuer.issuedTokens.find? id = some root) :
    (run.step c e).server.issuer.issuedTokens.find? id = some root := by
  cases e with
  | mint ownerPk value draw =>
    have hnew : draw.tokenId ∉ run.server.issuer.issuedTokens.keys := fun hmem =>
      (List.nodup_append.mp hfresh).2.2 _ hmem _ (by simp [drawnIds]) rfl
    exact KeyedList.find?_of_items_append (Issuer.items_mintToken hnew) h
  | bundle bundle readings =>
    have hissuer := (run.server.processBundle_frame c bundle readings).1
    exact (congrArg (fun issuer => issuer.issuedTokens.find? id) hissuer).trans h
  | revoke publicKey now => exact h
  | reissue revokedPublicKey newPublicKey atTime clock draws =>
    rw [step]
    rcases run.serve_reissue_cases c revokedPublicKey newPublicKey atTime clock draws with
      hserve | ⟨minted, rfl, -, -, hserve⟩
    · rw [hserve]
      exact h
    · rw [hserve]
      obtain ⟨minted, hitems, -⟩ := @mintReplacements_issued c newPublicKey _ _ _ _ hfresh
      exact KeyedList.find?_of_items_append hitems h

/-- The submitted token is no younger than the issued one it resolves to, if it is paid to somebody
else than its first owner; and its transfer has an id of its own. -/
def FairlyDated (s : ReconciliationServer) (transfer : Transfer) (token : Token) : Prop :=
  (∀ root ∈ s.issuer.issuedTokens.find? token.origin, transfer.receiverPk ≠ root.currentOwner →
    token.issueTimestamp ≤ root.issueTimestamp) ∧
  ∀ q ∈ s.acceptedTransfers, q.1.transferId = transfer.transferId → q.2.tokenId = token.tokenId
  deriving Decidable

/-- No token is issued to a revoked key, and none in the second of its revocation. -/
def IssuedBeforeRevocation (run : ServerRun) : ServerEvent → Prop
  | .mint ownerPk _ _ => ownerPk ∉ run.server.recoveryEngine.revokedWallets.keys
  | .reissue _ newPublicKey _ _ _ => newPublicKey ∉ run.server.recoveryEngine.revokedWallets.keys
  | .revoke publicKey now => ∀ token ∈ run.server.issuer.issuedTokens.items,
    token.currentOwner = publicKey → (token.issueTimestamp + 1) * 1000000 ≤ now
  | .bundle _ _ => True

instance (run : ServerRun) : DecidablePred run.IssuedBeforeRevocation
  | .mint ownerPk _ _ =>
    inferInstanceAs (Decidable (ownerPk ∉ run.server.recoveryEngine.revokedWallets.keys))
  | .reissue _ newPublicKey _ _ _ =>
    inferInstanceAs (Decidable (newPublicKey ∉ run.server.recoveryEngine.revokedWallets.keys))
  | .revoke publicKey now =>
    inferInstanceAs (Decidable (∀ token ∈ run.server.issuer.issuedTokens.items,
      token.currentOwner = publicKey → (token.issueTimestamp + 1) * 1000000 ≤ now))
  | .bundle _ _ => .isTrue trivial

/-- The moment from which a token issued in a given second is expired. -/
def expiryOf (policy : PolicyConfig) (token : Token) : Int :=
  (policy.tokenExpirySeconds + token.issueTimestamp + 1) * 1000000

lemma settledAt_lt_expiryOf {policy : PolicyConfig} {token root : Token} {now : Int}
    (hunexpired : wholeSeconds now - token.issueTimestamp ≤ policy.tokenExpirySeconds)
    (hdate : token.issueTimestamp ≤ root.issueTimestamp) : now < expiryOf policy root := by
  have hseconds : wholeSeconds now ≤ policy.tokenExpirySeconds + root.issueTimestamp := by omega
  exact lt_of_wholeSeconds_le hseconds

/-- What a run keeps, for a server whose accepted transfers were settled up to the time `latest`
and whose reissues were made before the time `before`. -/
structure PayoutInv (s : ReconciliationServer) (reissues : List Reissue) (before latest : Int) :
    Prop where
  policy : s.recoveryEngine.policy = s.policy
  recorded : ∀ q ∈ s.acceptedTransfers, q.2.tokenId ∈ s.ledger.keys
  settled : ∀ q ∈ s.acceptedTransfers, ∃ root settledAt,
    s.issuer.issuedTokens.find? q.2.origin = some root ∧
      s.acceptedTransferTimes.get? q.1.transferId = some settledAt ∧ settledAt ≤ latest ∧
      (q.1.receiverPk ≠ root.currentOwner → settledAt < expiryOf s.policy root)
  issued : ∀ token ∈ s.issuer.issuedTokens.items, ∀ revokedAt,
    s.recoveryEngine.revokedWallets.get? token.currentOwner = some revokedAt →
      (token.issueTimestamp + 1) * 1000000 ≤ revokedAt
  replaced : ∀ r ∈ reissues, ∀ p ∈ r.replaced,
    s.issuer.issuedTokens.find? p.1.tokenId = some p.1 ∧ p.1.currentOwner = r.revokedPublicKey ∧
      expiryOf s.policy p.1 < before
  paid : ∀ r ∈ reissues, ∀ p ∈ r.replaced, ∀ q ∈ s.acceptedTransfers,
    q.2.origin = p.1.tokenId → q.1.receiverPk = r.revokedPublicKey

/-! ### Steps -/

/-- The bounds on the two times may be relaxed. -/
lemma PayoutInv.mono {s : ReconciliationServer} {reissues : List Reissue}
    {before before' latest latest' : Int} (h : PayoutInv s reissues before latest)
    (hbefore : before ≤ before') (hlatest : latest ≤ latest') :
    PayoutInv s reissues before' latest' where
  policy := h.policy
  recorded := h.recorded
  settled := fun q hq => by
    obtain ⟨root, settledAt, hroot, htime, hle, hlt⟩ := h.settled q hq
    exact ⟨root, settledAt, hroot, htime, hle.trans hlatest, hlt⟩
  issued := h.issued
  replaced := fun r hr p hp => by
    obtain ⟨hissued, howner, hlt⟩ := h.replaced r hr p hp
    exact ⟨hissued, howner, hlt.trans_le hbefore⟩
  paid := h.paid

lemma PayoutInv.accept {c : Crypto} {s : ReconciliationServer} {reissues : List Reissue}
    {before latest settledAt now : Int} {transfer : Transfer} {token : Token}
    (h : PayoutInv s reissues before latest) (hfair : FairlyDated s transfer token)
    (haccepts : s.Accepts c transfer token now) (hbefore : before ≤ settledAt)
    (hnow : settledAt ≤ now) (hlatest : now ≤ latest) :
    PayoutInv (s.accept c transfer token settledAt) reissues before latest := by
  obtain ⟨root, hroot⟩ := exists_root_of_verify haccepts.root
  have hexpiry : transfer.receiverPk ≠ root.currentOwner → settledAt < expiryOf s.policy root :=
    fun hother => hnow.trans_lt
      (settledAt_lt_expiryOf haccepts.unexpired (hfair.1 root hroot hother))
  -- the time of an earlier transfer is not overwritten
  have hkeep : ∀ q ∈ s.acceptedTransfers, q.1.transferId ≠ transfer.transferId := fun q hq hid =>
    haccepts.unsettled (hfair.2 q hq hid ▸ h.recorded q hq)
  refine ⟨h.policy, ?_, ?_, h.issued, h.replaced, ?_⟩
  · simp only [ReconciliationServer.accept, List.forall_mem_append, List.forall_mem_singleton,
      Dict.mem_keys_set]
    exact ⟨fun q hq => .inr (h.recorded q hq), .inl trivial⟩
  · simp only [ReconciliationServer.accept, List.forall_mem_append, List.forall_mem_singleton,
      Dict.get?_set]
    refine ⟨?_, root, settledAt, hroot, if_pos trivial, hnow.trans hlatest, hexpiry⟩
    intro q hq
    rw [if_neg (hkeep q hq)]
    exact h.settled q hq
  · simp only [ReconciliationServer.accept, List.forall_mem_append, List.forall_mem_singleton]
    refine fun r hr p hp => ⟨h.paid r hr p hp, fun horigin => ?_⟩
    -- the replaced token was expired before this transfer was settled
    obtain ⟨hissued, howner, hexpired⟩ := h.replaced r hr p hp
    rw [← horigin, hroot] at hissued
    obtain rfl := Option.some.inj hissued
    by_contra hother
    have hlt := hexpiry (howner ▸ hother)
    omega

/-- Revoking a wallet whose tokens were all issued in earlier seconds. -/
lemma PayoutInv.revoke {s : ReconciliationServer} {reissues : List Reissue} {before latest now : Int}
    {publicKey : String} (h : PayoutInv s reissues before latest)
    (hissued : ∀ token ∈ s.issuer.issuedTokens.items, token.currentOwner = publicKey →
      (token.issueTimestamp + 1) * 1000000 ≤ now) :
    PayoutInv (s.revokeWallet publicKey now) reissues before latest := by
  refine ⟨h.policy, h.recorded, h.settled, ?_, h.replaced, h.paid⟩
  intro token htoken revokedAt hrevoked
  simp only [revokeWallet, Dict.get?_set] at hrevoked
  split_ifs at hrevoked with howner
  · obtain rfl := Option.some.inj hrevoked
    exact hissued token htoken howner
  · exact h.issued token htoken revokedAt hrevoked

/-- Minting new tokens for a key that is not revoked. -/
lemma PayoutInv.issue {s s' : ReconciliationServer} {reissues : List Reissue} {before latest : Int}
    {ownerPk : String} {minted : List Token} (h : PayoutInv s reissues before latest)
    (hitems : s'.issuer.issuedTokens.items = s.issuer.issuedTokens.items ++ minted)
    (howner : ∀ token ∈ minted, token.currentOwner = ownerPk)
    (hrevoked : ownerPk ∉ s.recoveryEngine.revokedWallets.keys)
    (hframe : s' = { s with
      issuer := s'.issuer
      recoveryEngine := { s.recoveryEngine with
        recoveryReissued := s'.recoveryEngine.recoveryReissued } }) :
    PayoutInv s' reissues before latest := by
  have hkeep : ∀ id root, s.issuer.issuedTokens.find? id = some root →
      s'.issuer.issuedTokens.find? id = some root := fun _ _ =>
    KeyedList.find?_of_items_append hitems
  have hissued : ∀ token ∈ s'.issuer.issuedTokens.items, ∀ revokedAt,
      s.recoveryEngine.revokedWallets.get? token.currentOwner = some revokedAt →
        (token.issueTimestamp + 1) * 1000000 ≤ revokedAt := by
    intro token htoken revokedAt hat
    rw [hitems, List.mem_append] at htoken
    rcases htoken with hold | hnew
    · exact h.issued token hold revokedAt hat
    · rw [howner token hnew] at hat
      exact absurd (Dict.mem_keys_iff_get?.mpr ⟨_, hat⟩) hrevoked
  rw [hframe]
  refine ⟨h.policy, h.recorded, ?_, hissued, ?_, h.paid⟩
  · intro q hq
    obtain ⟨root, settledAt, hroot, hrest⟩ := h.settled q hq
    exact ⟨root, settledAt, hkeep _ _ hroot, hrest⟩
  · intro r hr p hp
    obtain ⟨hroot, hrest⟩ := h.replaced r hr p hp
    exact ⟨hkeep _ _ hroot, hrest⟩

/-- A token that may be replaced is expired, and nobody else was paid with it. -/
lemma PayoutInv.recoverable {s : ReconciliationServer} {reissues : List Reissue}
    {before latest wait now : Int} {publicKey : String} {token : Token}
    (h : PayoutInv s reissues before latest) (hnow : latest ≤ now)
    (hwait : ∃ revokedAt, s.recoveryEngine.revokedWallets.get? publicKey = some revokedAt ∧
      revokedAt + s.recoveryEngine.policy.tokenExpirySeconds * 1000000 < wait)
    (htoken : token ∈ s.recoverable publicKey now) :
    expiryOf s.policy token < wait ∧
      ∀ q ∈ s.acceptedTransfers, q.2.origin = token.tokenId → q.1.receiverPk = publicKey := by
  obtain ⟨revokedAt, hrevoked, hlong⟩ := hwait
  obtain ⟨hmem, rfl, hnotDeposited⟩ := mem_recoverable.mp htoken
  have hissued := h.issued token hmem revokedAt hrevoked
  rw [h.policy] at hlong
  have hexpiry : expiryOf s.policy token
      ≤ revokedAt + s.policy.tokenExpirySeconds * 1000000 := by
    rw [expiryOf]
    omega
  refine ⟨hexpiry.trans_lt hlong, ?_⟩
  intro q hq horigin
  -- paid to somebody else, it was settled before the cutoff, so it counts as deposited
  by_contra hother
  obtain ⟨root, settledAt, hroot, htime, hle, hlt⟩ := h.settled q hq
  rw [horigin, show s.issuer.issuedTokens.find? token.tokenId = some token from
    KeyedList.find?_of_mem hmem] at hroot
  obtain rfl := Option.some.inj hroot
  refine hnotDeposited (List.mem_map.mpr ⟨q, List.mem_filter.mpr ⟨hq, ?_⟩, horigin⟩)
  have hcutoff : settledAt ≤ s.claimCutoff token.currentOwner now := by
    rw [claimCutoff, hrevoked]
    exact le_min (hle.trans hnow) ((hlt hother).le.trans hexpiry)
  have howned : token.tokenId ∈ (s.issuedForWallet token.currentOwner).map Token.tokenId :=
    List.mem_map_of_mem (List.mem_filter.mpr ⟨hmem, decide_eq_true rfl⟩)
  exact decide_eq_true ⟨horigin ▸ howned, hother, by rwa [htime]⟩

/-- Replacing the safe tokens of a wallet after the wait. -/
lemma PayoutInv.reissue {c : Crypto} {s : ReconciliationServer} {reissues : List Reissue}
    {time later wait now : Int} {revokedPublicKey newPublicKey : String} {draws : Nat → MintDraw}
    (h : PayoutInv s reissues time time) (hlater : time ≤ later) (hwait : wait ≤ later)
    (hnow : time ≤ now)
    (helapsed : ∃ revokedAt, s.recoveryEngine.revokedWallets.get? revokedPublicKey = some revokedAt ∧
      revokedAt + s.recoveryEngine.policy.tokenExpirySeconds * 1000000 < wait)
    (hfresh : (s.issuer.issuedTokens.keys ++ (List.range' 0
      (s.recoverable revokedPublicKey now).length).map fun i => (draws i).tokenId).Nodup)
    (hrevoked : newPublicKey ∉ s.recoveryEngine.revokedWallets.keys) :
    PayoutInv (s.mintSafeTokens c revokedPublicKey newPublicKey now draws).1
      (reissues ++ [reissueRecord s revokedPublicKey newPublicKey now
        (s.mintSafeTokens c revokedPublicKey newPublicKey now draws).2]) later later := by
  obtain ⟨minted, hitems, howner⟩ := mintReplacements_issued (c := c) hfresh
  have hold : PayoutInv (s.mintSafeTokens c revokedPublicKey newPublicKey now draws).1 reissues
      later later := (h.issue hitems howner hrevoked rfl).mono hlater hlater
  have hsafe : ∀ p ∈ (s.recoverable revokedPublicKey now).zip
      (s.mintSafeTokens c revokedPublicKey newPublicKey now draws).2,
      p.1 ∈ s.recoverable revokedPublicKey now := fun p hp => (List.of_mem_zip hp).1
  refine ⟨hold.policy, hold.recorded, hold.settled, hold.issued, ?_, ?_⟩
  · simp only [List.forall_mem_append, List.forall_mem_singleton]
    refine ⟨hold.replaced, ?_⟩
    intro p hp
    obtain ⟨hmem, howned, -⟩ := mem_recoverable.mp (hsafe p hp)
    refine ⟨?_, howned, (h.recoverable hnow helapsed (hsafe p hp)).1.trans_le hwait⟩
    exact KeyedList.find?_eq_some_iff.mpr ⟨hitems ▸ List.mem_append_left _ hmem, rfl⟩
  · simp only [List.forall_mem_append, List.forall_mem_singleton]
    exact ⟨hold.paid, fun p hp => (h.recoverable hnow helapsed (hsafe p hp)).2⟩

/-- The readings of a call lie between the times of the run before and after it. -/
lemma ClockForward.bounds {run : ServerRun} {e : ServerEvent} (h : run.ClockForward e)
    (c : Crypto) : run.time ≤ (run.step c e).time ∧
      ∀ t ∈ run.readings e, run.time ≤ t ∧ t ≤ (run.step c e).time := by
  have hlast : ∀ t ∈ run.time :: run.readings e, t ≤ (run.step c e).time := by
    intro t ht
    have hle := List.Pairwise.rel_getLast h ht
    rwa [List.getLast_eq_getLastD] at hle
  exact ⟨hlast _ List.mem_cons_self, fun t ht =>
    ⟨(List.pairwise_cons.mp h).1 t ht, hlast _ (List.mem_cons_of_mem _ ht)⟩⟩

lemma payoutInv_step {c : Crypto} {run : ServerRun} {e : ServerEvent}
    (hclock : run.ClockForward e) (hfresh : run.FreshIds e)
    (hfair : run.OnTokens c FairlyDated e) (hissued : run.IssuedBeforeRevocation e)
    (h : PayoutInv run.server run.reissues run.time run.time) :
    PayoutInv (run.step c e).server (run.step c e).reissues (run.step c e).time
      (run.step c e).time := by
  obtain ⟨hforward, hreadings⟩ := hclock.bounds c
  cases e with
  | mint ownerPk value draw =>
    have hnew : draw.tokenId ∉ run.server.issuer.issuedTokens.keys := fun hmem =>
      (List.nodup_append.mp hfresh).2.2 _ hmem _ (List.mem_singleton_self _) rfl
    exact (h.issue (Issuer.items_mintToken hnew) (by simp) hissued rfl).mono hforward hforward
  | revoke publicKey now => exact (h.revoke hissued).mono hforward hforward
  | bundle bundle readings =>
    refine (processBundle_invariant (I := fun s => PayoutInv s run.reissues run.time _) hfair
      (h.mono le_rfl hforward) fun s handled hhandled token hs hg haccepts => ?_).mono hforward le_rfl
    have hsorted := List.pairwise_flatMap.mp (List.pairwise_cons.mp hclock).2
    have hmem : ∀ t ∈ [handled.2.settledAt, handled.2.now], t ∈ run.readings (.bundle bundle readings) :=
      fun t ht => List.mem_flatMap.mpr ⟨handled, hhandled, ht⟩
    exact hs.accept hg haccepts (hreadings _ (hmem _ (by simp))).1
      (List.rel_of_pairwise_cons (hsorted.1 handled hhandled) (by simp))
      (hreadings _ (hmem _ (by simp))).2
  | reissue revokedPublicKey newPublicKey atTime clock draws =>
    have hwaitTime := List.mem_append_left ((List.range (run.server.recoverable revokedPublicKey
      (clock.snapshotTime atTime)).length).flatMap fun i => [(draws i).time, (draws i).now])
      (clock.waitTime_mem atTime)
    have hsnapshotTime := List.mem_append_left ((List.range (run.server.recoverable revokedPublicKey
      (clock.snapshotTime atTime)).length).flatMap fun i => [(draws i).time, (draws i).now])
      (clock.snapshotTime_mem atTime)
    rcases run.serve_reissue_cases c revokedPublicKey newPublicKey atTime clock draws with
      hserve | ⟨minted, rfl, hwait, -, hserve⟩
    · have hserver : (run.step c (.reissue revokedPublicKey newPublicKey atTime clock draws)).server
          = run.server := congrArg Prod.fst hserve
      have hreissues : (run.step c
          (.reissue revokedPublicKey newPublicKey atTime clock draws)).reissues
          = run.reissues := congrArg Prod.snd hserve
      rw [hserver, hreissues]
      exact h.mono hforward hforward
    · rw [step, hserve]
      exact h.reissue hforward (hreadings _ hwaitTime).2 (hreadings _ hsnapshotTime).1
        (RecoveryEngine.waitElapsed_eq_true hwait) hfresh hissued

lemma payoutInv_start (issuer : Issuer) (policy : PolicyConfig) (time : Int) :
    PayoutInv (start issuer policy time).server [] time time where
  policy := rfl
  recorded := by simp [start, new]
  settled := by simp [start, new]
  issued := by simp [start, new]
  replaced := by simp
  paid := by simp

/-- No token of a revoked key is both replaced and paid to somebody else, provided that submitted
tokens are fairly dated and that wallets are revoked after the seconds in which their tokens were
issued. -/
theorem paid_once {c : Crypto} {issuer : Issuer} {policy : PolicyConfig} {time : Int}
    {es : List ServerEvent}
    (hclock : Along (step c) ClockForward (start issuer policy time) es)
    (hfresh : Along (step c) FreshIds (start issuer policy time) es)
    (hfair : Along (step c) (OnTokens c FairlyDated) (start issuer policy time) es)
    (hissued : Along (step c) IssuedBeforeRevocation (start issuer policy time) es) :
    (runFrom (step c) (start issuer policy time) es).PaidOnce := by
  have hrun := (hclock.and hfresh).and (hfair.and hissued)
  exact (Along.invariant (I := fun run => PayoutInv run.server run.reissues run.time run.time)
    (fun run e hstep h => payoutInv_step hstep.1.1 hstep.1.2 hstep.2.1 hstep.2.2 h) hrun
    (payoutInv_start issuer policy time)).paid

/-- Alice pays Bob with one of two tokens, loses her wallet, and has the other one replaced a week
later; then `late` is deposited. -/
def plainRecovery (late : Token) : List ServerEvent :=
  [.mint "alice" 100 ⟨"t1", 1000000000, 1000000000⟩,
    .mint "alice" 100 ⟨"t2", 1000000000, 1000000000⟩,
    .bundle (plainBundle [plainTransfer "x1" "t1" "alice" "bob"] [plainToken "t1" "alice"])
      fun _ => ⟨1001000000, 1001000000⟩,
    .revoke "alice" 2000000000,
    .reissue "alice" "alice2" none ⟨606801000000, 606801000000⟩
      fun _ => ⟨"t3", 606801000000, 606801000000⟩,
    .bundle (plainBundle [plainTransfer "x2" "t2" "alice" "bob"] [late])
      fun _ => ⟨606802000000, 606802000000⟩]

theorem paid_once_plainRecovery :
    (runFrom (step plainCrypto) (start plainIssuer .default 0)
      (plainRecovery (plainToken "t2" "alice"))).PaidOnce :=
  paid_once (by decide +kernel) (by decide +kernel) (by decide +kernel) (by decide +kernel)

/-- Bob's copy of the replaced token claims to be issued a second ago, and is accepted. -/
theorem paid_twice_plainRecovery :
    let late := { plainToken "t2" "alice" with issueTimestamp := 606801 }
    let run := runFrom (step plainCrypto) (start plainIssuer .default 0) (plainRecovery late)
    Along (step plainCrypto) ClockForward (start plainIssuer .default 0) (plainRecovery late) ∧
      Along (step plainCrypto) FreshIds (start plainIssuer .default 0) (plainRecovery late) ∧
      (run.reissues.map fun r => r.replaced.map fun p => p.1.tokenId) = [["t2"]] ∧
      run.server.acceptedTransfers.map (fun q => (q.2.origin, q.1.receiverPk))
        = [("t1", "bob"), ("t2", "bob")] ∧
      ¬ run.PaidOnce := by
  decide +kernel

end ServerRun

end PocketCash.Offline
