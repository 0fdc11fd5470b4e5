import PocketCash.Offline.Server

/-!
# Runs of the reconciliation server

The events of a run are the calls of `mint_token`, `process_bundle`, `revoke_wallet` and
`reissue_recovered_balance`, in any order and with any arguments. A run also records the time of
the last clock reading and which tokens were replaced by which.
-/

namespace PocketCash.Offline

/-- A call of `reissue_recovered_balance` that minted: the snapshot's safe balance, and each safe
token with its replacement. -/
structure Reissue where
  revokedPublicKey : String
  newPublicKey : String
  safeBalance : Int
  replaced : List (Token × Token)
  deriving DecidableEq, Repr

structure ServerRun where
  server : ReconciliationServer
  time : Int
  reissues : List Reissue

/-- One call. -/
inductive ServerEvent
  | mint (ownerPk : String) (value : Int) (draw : MintDraw)
  | bundle (bundle : PaymentBundle) (readings : Nat → Reading)
  | revoke (publicKey : String) (now : Int)
  | reissue (revokedPublicKey newPublicKey : String) (atTime : Option Datetime)
      (clock : RecoveryClock) (draws : Nat → MintDraw)

namespace ServerRun

/-- The clock readings of a call, in order. A given `at_time` counts as one. -/
def readings (run : ServerRun) : ServerEvent → List Int
  | .mint _ _ draw => [draw.time, draw.now]
  | .bundle bundle readings =>
    (bundle.handled readings).flatMap fun handled => [handled.2.settledAt, handled.2.now]
  | .revoke _ now => [now]
  | .reissue revokedPublicKey _ atTime clock draws =>
    let replaced := run.server.recoverable revokedPublicKey (clock.snapshotTime atTime)
    clock.evaluationTimes atTime ++
      (List.range replaced.length).flatMap fun i => [(draws i).time, (draws i).now]

/-- The record of a call that minted `replacements`. -/
def reissueRecord (s : ReconciliationServer) (revokedPublicKey newPublicKey : String) (now : Int)
    (replacements : List Token) : Reissue where
  revokedPublicKey := revokedPublicKey
  newPublicKey := newPublicKey
  safeBalance := (s.reconstructRecovery revokedPublicKey now).safeBalance
  replaced := (s.recoverable revokedPublicKey now).zip replacements

/-- What a call does to the server and to the record of replacements. -/
def serve (c : Crypto) (run : ServerRun) :
    ServerEvent → ReconciliationServer × List Reissue
  | .mint ownerPk value draw =>
    ({ run.server with issuer := (run.server.issuer.mintToken c ownerPk value draw).1 },
      run.reissues)
  | .bundle bundle readings => ((run.server.processBundle c bundle readings).server, run.reissues)
  | .revoke publicKey now => (run.server.revokeWallet publicKey now, run.reissues)
  | .reissue revokedPublicKey newPublicKey atTime clock draws =>
    let before := run.server.recoveryEngine.recoveryReissued
    match run.server.reissueRecoveredBalance c revokedPublicKey newPublicKey atTime clock draws with
    | (server, .error _) => (server, run.reissues)
    | (server, .ok replacements) =>
      (server,
        if (revokedPublicKey, newPublicKey) ∈ before then run.reissues
        else run.reissues ++ [reissueRecord run.server revokedPublicKey newPublicKey
          (clock.snapshotTime atTime) replacements])

def step (c : Crypto) (run : ServerRun) (e : ServerEvent) : ServerRun where
  server := (run.serve c e).1
  reissues := (run.serve c e).2
  time := (run.readings e).getLastD run.time

/-- A new server, started at `time`. -/
def start (issuer : Issuer) (policy : PolicyConfig) (time : Int) : ServerRun :=
  ⟨.new issuer policy, time, []⟩

/-- `g` holds of every token handled in a call of `process_bundle`. -/
def OnTokens (c : Crypto) (g : ReconciliationServer → Transfer → Token → Prop) (run : ServerRun) :
    ServerEvent → Prop
  | .bundle bundle readings => run.server.BundleMeets c g bundle readings
  | _ => True

instance (c : Crypto) (g : ReconciliationServer → Transfer → Token → Prop)
    [∀ s t k, Decidable (g s t k)] (run : ServerRun) : DecidablePred (run.OnTokens c g)
  | .bundle bundle readings =>
    inferInstanceAs (Decidable (run.server.BundleMeets c g bundle readings))
  | .mint .. => .isTrue trivial
  | .revoke .. => .isTrue trivial
  | .reissue .. => .isTrue trivial

/-- A call of `reissue_recovered_balance` changes nothing, or the wait has elapsed, the pair of keys
is new, and the safe tokens are replaced. -/
lemma serve_reissue_cases (c : Crypto) (run : ServerRun) (revokedPublicKey newPublicKey : String)
    (atTime : Option Datetime) (clock : RecoveryClock) (draws : Nat → MintDraw) :
    run.serve c (.reissue revokedPublicKey newPublicKey atTime clock draws)
        = (run.server, run.reissues) ∨
      ∃ minted, minted = run.server.mintSafeTokens c revokedPublicKey newPublicKey
          (clock.snapshotTime atTime) draws ∧
        run.server.recoveryEngine.waitElapsed revokedPublicKey (clock.waitTime atTime) = .ok true ∧
        (revokedPublicKey, newPublicKey) ∉ run.server.recoveryEngine.recoveryReissued ∧
        run.serve c (.reissue revokedPublicKey newPublicKey atTime clock draws)
          = (minted.1, run.reissues ++ [reissueRecord run.server revokedPublicKey newPublicKey
              (clock.snapshotTime atTime) minted.2]) := by
  rcases run.server.reissueRecoveredBalance_cases c revokedPublicKey newPublicKey atTime clock draws
    with ⟨e, hcall⟩ | ⟨hpair, hcall⟩ | ⟨hwait, hpair, hcall⟩
  · exact .inl (by simp [serve, hcall])
  · exact .inl (by simp [serve, hcall, hpair])
  · exact .inr ⟨_, rfl, hwait, hpair, by simp [serve, hcall, hpair]⟩

/-- Only `process_bundle` writes the settlement tables. -/
lemma step_tables (c : Crypto) (run : ServerRun) (e : ServerEvent) :
    (run.step c e).server.tables = run.server.tables ∨
      ∃ bundle readings, e = .bundle bundle readings ∧
        (run.step c e).server = (run.server.processBundle c bundle readings).server := by
  cases e with
  | mint ownerPk value draw => exact .inl rfl
  | revoke publicKey now => exact .inl rfl
  | bundle bundle readings => exact .inr ⟨bundle, readings, rfl, rfl⟩
  | reissue revokedPublicKey newPublicKey atTime clock draws =>
    left
    rw [step]
    rcases run.serve_reissue_cases c revokedPublicKey newPublicKey atTime clock draws with
      hserve | ⟨minted, rfl, -, -, hserve⟩
    · rw [hserve]
    · rw [hserve]
      rfl

/-- The invariant rule for the settlement tables: what accepting a transfer keeps, a run keeps. -/
theorem tables_invariant {c : Crypto} {g : ReconciliationServer → Transfer → Token → Prop}
    {I : ReconciliationServer → Prop} {run : ServerRun} {es : List ServerEvent}
    (hrun : Along (step c) (OnTokens c g) run es) (h : I run.server)
    (hframe : ∀ s s', s'.tables = s.tables → I s → I s')
    (haccept : ∀ s transfer token (reading : Reading), I s → g s transfer token →
      s.Accepts c transfer token reading.now → I (s.accept c transfer token reading.settledAt)) :
    I (runFrom (step c) run es).server := by
  refine Along.invariant (I := fun run => I run.server) ?_ hrun h
  intro run e hg hI
  rcases run.step_tables c e with hsame | ⟨bundle, readings, rfl, hbundle⟩
  · exact hframe _ _ hsame hI
  · rw [hbundle]
    exact ReconciliationServer.processBundle_invariant hg hI fun s handled _ token =>
      haccept s handled.1 token handled.2

end ServerRun

end PocketCash.Offline
