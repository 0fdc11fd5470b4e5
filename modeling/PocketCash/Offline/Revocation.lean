import PocketCash.Offline.Payout
import PocketCash.Offline.Tables

/-!
# Revocation over a run

The table of revoked wallets is read when a transfer is settled and when recovery is asked for.
`revoke_wallet` writes the time of the call, also for a key that is revoked already. A heartbeat
writes none of the fields that matter here.
-/

namespace PocketCash.Offline

/-- A sender who was revoked sent the transfer before. -/
lemma Transfer.lt_of_sentSince {transfer : Transfer} {revokedAt : Int}
    (h : transfer.sentSince (some revokedAt) = .ok false) :
    transfer.timestamp.micros < revokedAt := by
  rw [sentSince, Datetime.notBefore] at h
  split at h
  · exact Int.not_le.mp (of_decide_eq_false (Except.ok.inj h))
  · cases h

/-- After more than the expiry since the revocation, the wait has elapsed. -/
lemma RecoveryEngine.waitElapsed_of_lt {engine : RecoveryEngine} {publicKey : String}
    {revokedAt : Int} {now : Datetime}
    (hrevoked : engine.revokedWallets.get? publicKey = some revokedAt)
    (haware : now.utcOffset.isSome = true)
    (hlong : revokedAt + engine.policy.tokenExpirySeconds * 1000000 < now.micros) :
    engine.waitElapsed publicKey now = .ok true := by
  obtain ⟨offset, hoffset⟩ := Option.isSome_iff_exists.mp haware
  have helapsed : engine.policy.tokenExpirySeconds * 1000000 < now.micros - revokedAt := by omega
  simp only [waitElapsed, hrevoked, Datetime.since, hoffset, ok_bind, pure_eq_ok]
  exact congrArg Except.ok (decide_eq_true helapsed)

namespace ReconciliationServer

/-- The key counts as revoked since `time`: no round of `process_bundle` accepts a transfer that it
sent at that time or later, and the waiting window ends `TOKEN_EXPIRY_SECONDS` after it at the
latest. -/
structure RevokedSince (c : Crypto) (s : ReconciliationServer) (publicKey : String) (time : Int) :
    Prop where
  refuses : ∀ bundle readings rounds, ∀ handled ∈ PaymentBundle.handled bundle readings,
    ∀ results record,
      (s.settling c bundle readings rounds).results = .ok results →
      ((s.settling c bundle readings rounds).next c bundle.tokens handled).results
        = .ok (results ++ [record]) →
      handled.1.senderPk = publicKey → time ≤ handled.1.timestamp.micros →
      record.status ≠ .accepted
  waits : ∀ now : Datetime, now.utcOffset.isSome = true →
    time + s.recoveryEngine.policy.tokenExpirySeconds * 1000000 < now.micros →
      s.recoveryEngine.waitElapsed publicKey now = .ok true

/-- The recorded time of revocation is not after `time`. -/
def RevokedBy (s : ReconciliationServer) (publicKey : String) (time : Int) : Prop :=
  ∃ revokedAt, s.recoveryEngine.revokedWallets.get? publicKey = some revokedAt ∧ revokedAt ≤ time

/-- Both bounds are bounds on the recorded time. -/
lemma revokedSince_iff {c : Crypto} {s : ReconciliationServer} {publicKey : String} {time : Int} :
    s.RevokedSince c publicKey time ↔ s.RevokedBy publicKey time := by
  constructor
  · intro h
    let limit := time + s.recoveryEngine.policy.tokenExpirySeconds * 1000000 + 1
    obtain ⟨revokedAt, hrevoked, hlong⟩ :=
      RecoveryEngine.waitElapsed_eq_true (h.waits ⟨limit, some 0⟩ rfl (Int.lt_add_one_of_le le_rfl))
    exact ⟨revokedAt, hrevoked, by simp only [limit] at hlong; omega⟩
  · rintro ⟨revokedAt, hrevoked, hle⟩
    constructor
    · intro bundle readings rounds handled _ results record hresults hnext hsender hsent haccepted
      obtain ⟨token, hsettle⟩ := Settling.exists_settle hresults hnext
      rcases settle_cases hsettle with ⟨-, hrefused⟩ | ⟨haccepts, -, -⟩
      · exact hrefused haccepted
      · have hunrevoked := haccepts.sender
        rw [(settling_frame c s bundle readings rounds).2.2, hsender, hrevoked] at hunrevoked
        have hbefore := Transfer.lt_of_sentSince hunrevoked
        omega
    · intro now haware hlong
      exact RecoveryEngine.waitElapsed_of_lt hrevoked haware (by omega)

end ReconciliationServer

namespace ServerRun

open ReconciliationServer

/-- A call that revokes the key does so at `time` or earlier. -/
def RevokesBy (publicKey : String) (time : Int) (e : ServerEvent) : Prop :=
  ∀ now, e = .revoke publicKey now → now ≤ time

/-- Only `revoke_wallet` writes the table of revoked wallets. -/
lemma step_revokedWallets (c : Crypto) (run : ServerRun) {e : ServerEvent}
    (hother : ∀ publicKey now, e ≠ .revoke publicKey now) :
    (run.step c e).server.recoveryEngine.revokedWallets
      = run.server.recoveryEngine.revokedWallets := by
  cases e with
  | mint ownerPk value draw => rfl
  | bundle bundle readings =>
    exact congrArg RecoveryEngine.revokedWallets
      (run.server.processBundle_frame c bundle readings).2.2
  | revoke publicKey now => exact absurd rfl (hother publicKey now)
  | reissue revokedPublicKey newPublicKey atTime clock draws =>
    rw [step]
    rcases run.serve_reissue_cases c revokedPublicKey newPublicKey atTime clock draws with
      hserve | ⟨minted, rfl, -, -, hserve⟩
    · rw [hserve]
    · rw [hserve]
      rfl

lemma revokedBy_revoke_iff {c : Crypto} {run : ServerRun} {publicKey : String} {time now : Int} :
    (run.step c (.revoke publicKey now)).server.RevokedBy publicKey time ↔ now ≤ time := by
  simp [RevokedBy, step, serve, revokeWallet, Dict.get?_set]

/-- A call keeps the bound exactly if it does not revoke the key later. -/
lemma revokedBy_step_iff {c : Crypto} {run : ServerRun} {e : ServerEvent} {publicKey : String}
    {time : Int} (h : run.server.RevokedBy publicKey time) :
    (run.step c e).server.RevokedBy publicKey time ↔ RevokesBy publicKey time e := by
  by_cases hrevoke : ∃ revoked now, e = .revoke revoked now
  · obtain ⟨revoked, now, rfl⟩ := hrevoke
    by_cases hsame : revoked = publicKey
    · subst hsame
      rw [revokedBy_revoke_iff]
      simp [RevokesBy]
    · refine iff_of_true ?_ ?_
      · obtain ⟨revokedAt, hrevoked, hle⟩ := h
        refine ⟨revokedAt, ?_, hle⟩
        rw [step, serve, revokeWallet, Dict.get?_set, if_neg (Ne.symm hsame)]
        exact hrevoked
      · rintro now' heq
        cases heq
        exact absurd rfl hsame
  · push Not at hrevoke
    refine iff_of_true ?_ fun now heq => absurd heq (hrevoke publicKey now)
    rwa [RevokedBy, step_revokedWallets c run hrevoke]

/-- A revocation at the time `time` is never weakened, after any further calls, exactly if the key
is not revoked again at a later time. -/
theorem revokedSince_iff_forall_revoke (c : Crypto) (issuer : Issuer) (policy : PolicyConfig)
    (started : Int) (before after : List ServerEvent) (publicKey : String) (time : Int) :
    (∀ calls, calls <+: after →
      (runFrom (step c) (start issuer policy started)
        (before ++ .revoke publicKey time :: calls)).server.RevokedSince c publicKey time) ↔
      ∀ now, .revoke publicKey now ∈ after → now ≤ time := by
  have hrevoked : ((runFrom (step c) (start issuer policy started) before).step c
      (.revoke publicKey time)).server.RevokedBy publicKey time := revokedBy_revoke_iff.mpr le_rfl
  simp only [revokedSince_iff, runFrom_append, runFrom_cons]
  rw [← Along.iff_forall_prefix (I := fun run : ServerRun => run.server.RevokedBy publicKey time)
    (fun _ _ => revokedBy_step_iff) hrevoked, Along.iff_forall_mem]
  constructor
  · intro h now hmem
    exact h _ hmem now rfl
  · rintro h e he now rfl
    exact h now he

/-- Alice's key is revoked twice. Between the two calls her finder pays Bob with it, and Bob submits
the bundle after the second. -/
def revokedTwice : List ServerEvent :=
  [.mint "alice" 100 ⟨"t1", 900000000, 900000000⟩, .revoke "alice" 1000000000,
    .revoke "alice" 1500000000]

def latePayment : PaymentBundle :=
  plainBundle [plainTransfer "x1" "t1" "alice" "bob"] [plainToken "t1" "alice"]

/-- The server accepts what the revoked key signed a second after its revocation, and the waiting
window ends later. -/
theorem accepted_after_revokedTwice :
    let run := runFrom (step plainCrypto) (start plainIssuer .default 0) revokedTwice
    Along (step plainCrypto) ClockForward (start plainIssuer .default 0) revokedTwice ∧
      (run.server.processBundle plainCrypto latePayment fun _ => ⟨1501000000, 1501000000⟩).results
        = .ok [⟨"t1", "x1", .accepted, .ok⟩] ∧
      (latePayment.transfers.map fun t => (t.senderPk, t.timestamp.micros))
        = [("alice", 1001000000)] ∧
      run.server.recoveryEngine.waitElapsed "alice" ⟨605900000000, some 0⟩ = .ok false ∧
      ¬ run.server.RevokedSince plainCrypto "alice" 1000000000 := by
  intro run
  have hrun : Along (step plainCrypto) ClockForward (start plainIssuer .default 0) revokedTwice ∧
      (run.server.processBundle plainCrypto latePayment fun _ => ⟨1501000000, 1501000000⟩).results
        = .ok [⟨"t1", "x1", .accepted, .ok⟩] ∧
      (latePayment.transfers.map fun t => (t.senderPk, t.timestamp.micros))
        = [("alice", 1001000000)] ∧
      run.server.recoveryEngine.waitElapsed "alice" ⟨605900000000, some 0⟩ = .ok false ∧
      run.server.recoveryEngine.policy.tokenExpirySeconds = 604800 := by
    decide +kernel
  obtain ⟨hclock, haccepted, hsent, hwait, hexpiry⟩ := hrun
  refine ⟨hclock, haccepted, hsent, hwait, ?_⟩
  intro hsince
  have helapsed := hsince.waits ⟨605900000000, some 0⟩ rfl (by rw [hexpiry]; decide)
  rw [hwait] at helapsed
  exact absurd helapsed (by decide)

end ServerRun

end PocketCash.Offline
