import PocketCash.Offline.Revocation

/-!
# Recorded claims on the tokens of a lost wallet

`reconstruct_recovery` does not count a token as safe if a transfer of it to somebody else was
accepted by the cutoff. The list of accepted transfers only grows, but the time of acceptance is
looked up under the id of the transfer, which its sender chose.
-/

namespace PocketCash.Offline

namespace ReconciliationServer

variable {c : Crypto} {s : ReconciliationServer} {publicKey id : String} {now now' : Int}

/-- The accepted transfers that claim the token `id` of the key when recovery is evaluated at time
`now`. -/
def claims (s : ReconciliationServer) (publicKey id : String) (now : Int) :
    List (Transfer × Token) :=
  s.acceptedTransfers.filter fun q => q.2.origin = id ∧ q.1.receiverPk ≠ publicKey ∧
    (s.acceptedTransferTimes.get? q.1.transferId).getD now ≤ s.claimCutoff publicKey now

lemma mem_externallyDeposited : id ∈ s.externallyDeposited publicKey now ↔
    id ∈ (s.issuedForWallet publicKey).map Token.tokenId ∧
      ∃ q, q ∈ s.claims publicKey id now := by
  simp only [externallyDeposited, claims, List.mem_map, List.mem_filter, decide_eq_true_eq]
  constructor
  · rintro ⟨q, ⟨hq, howned, hother, htime⟩, rfl⟩
    exact ⟨howned, q, hq, rfl, hother, htime⟩
  · rintro ⟨howned, q, hq, rfl, hother, htime⟩
    exact ⟨q, ⟨hq, howned, hother, htime⟩, rfl⟩

/-- A token that was deposited by somebody else is not safe. -/
lemma notMem_safeTokenIds (h : id ∈ s.externallyDeposited publicKey now) :
    id ∉ (s.reconstructRecovery publicKey now).safeTokenIds := by
  simp only [reconstructRecovery, safeTokens, List.mem_map, List.mem_filter, decide_eq_true_eq]
  rintro ⟨token, ⟨-, hsafe⟩, rfl⟩
  exact hsafe h

/-- The cutoff does not go back. -/
lemma claimCutoff_mono (hlater : now ≤ now') :
    s.claimCutoff publicKey now ≤ s.claimCutoff publicKey now' := by
  rw [claimCutoff, claimCutoff]
  split
  · exact hlater
  · exact min_le_min_right _ hlater

/-- Every accepted transfer has a time, so its claim counts at later times as well. -/
lemma TablesAgree.claims_mono (h : s.TablesAgree) (hlater : now ≤ now') {q : Transfer × Token}
    (hq : q ∈ s.claims publicKey id now) : q ∈ s.claims publicKey id now' := by
  simp only [claims, List.mem_filter, decide_eq_true_eq] at hq ⊢
  obtain ⟨hmem, horigin, hother, htime⟩ := hq
  obtain ⟨settledAt, hsettled⟩ := Dict.mem_keys_iff_get?.mp ((h.times _).mpr ⟨q, hmem, rfl⟩)
  rw [hsettled] at htime ⊢
  exact ⟨hmem, horigin, hother, htime.trans (claimCutoff_mono hlater)⟩

/-! ### What an accepted transfer does to the claims -/

section accept

variable {transfer : Transfer} {token : Token} {settledAt : Int}

/-- The acceptance leaves a claim on the token `id`: it is settled by the cutoff, or it leaves the
time of some claim alone. -/
def LeavesClaim (s : ReconciliationServer) (publicKey id : String) (now : Int) (transfer : Transfer)
    (settledAt : Int) : Prop :=
  settledAt ≤ s.claimCutoff publicKey now ∨
    ∃ q ∈ s.claims publicKey id now, q.1.transferId ≠ transfer.transferId
  deriving Decidable

/-- A claim after the acceptance is an earlier claim under another transfer id, or it was settled
now. -/
lemma mem_claims_accept {q : Transfer × Token} :
    q ∈ (s.accept c transfer token settledAt).claims publicKey id now ↔
      (q ∈ s.claims publicKey id now ∧ q.1.transferId ≠ transfer.transferId) ∨
        (q ∈ s.acceptedTransfers ++ [(transfer, token)] ∧ q.2.origin = id ∧
          q.1.receiverPk ≠ publicKey ∧ q.1.transferId = transfer.transferId ∧
          settledAt ≤ s.claimCutoff publicKey now) := by
  have hcutoff : (s.accept c transfer token settledAt).claimCutoff publicKey now
      = s.claimCutoff publicKey now := rfl
  simp only [claims, List.mem_filter, decide_eq_true_eq, hcutoff]
  simp only [accept, Dict.get?_set]
  by_cases hsame : q.1.transferId = transfer.transferId
  · simp [hsame]
  · have hnew : q ≠ (transfer, token) := fun hq => hsame (congrArg (fun q => q.1.transferId) hq)
    simp [hsame, hnew]

/-- A claim on the token is left exactly if the acceptance leaves one. -/
lemma exists_mem_claims_accept_iff (h : ∃ q, q ∈ s.claims publicKey id now) :
    (∃ q, q ∈ (s.accept c transfer token settledAt).claims publicKey id now) ↔
      s.LeavesClaim publicKey id now transfer settledAt := by
  constructor
  · rintro ⟨q, hq⟩
    rcases mem_claims_accept.mp hq with ⟨hclaim, hother⟩ | ⟨-, -, -, -, hsettled⟩
    · exact .inr ⟨q, hclaim, hother⟩
    · exact .inl hsettled
  · rintro (hsettled | ⟨q, hclaim, hother⟩)
    · obtain ⟨q, hclaim⟩ := h
      by_cases hsame : q.1.transferId = transfer.transferId
      · simp only [claims, List.mem_filter, decide_eq_true_eq] at hclaim
        obtain ⟨hmem, horigin, hreceiver, -⟩ := hclaim
        exact ⟨q, mem_claims_accept.mpr
          (.inr ⟨List.mem_append_left _ hmem, horigin, hreceiver, hsame, hsettled⟩)⟩
      · exact ⟨q, mem_claims_accept.mpr (.inl ⟨hclaim, hsame⟩)⟩
    · exact ⟨q, mem_claims_accept.mpr (.inl ⟨hclaim, hother⟩)⟩

end accept

end ReconciliationServer

/-! ### Runs of submissions -/

/-- The token of the transfer, if this round of `process_bundle` accepts it. -/
def Settling.acceptedToken (c : Crypto) (tokens : Dict String Token) (loop : Settling)
    (handled : Transfer × Reading) : Option Token :=
  match loop.results, tokens.get? handled.1.tokenId with
  | .ok _, some token =>
    if loop.server.judge c handled.1 token handled.2.now = .ok (.accepted, .ok) then some token
    else none
  | _, _ => none

/-- A round writes the tables exactly if it accepts its transfer. -/
lemma Settling.server_next (c : Crypto) (tokens : Dict String Token) (loop : Settling)
    (handled : Transfer × Reading) :
    (loop.next c tokens handled).server =
      match loop.acceptedToken c tokens handled with
      | none => loop.server
      | some token => loop.server.accept c handled.1 token handled.2.settledAt := by
  rw [Settling.next, Settling.acceptedToken]
  cases hresults : loop.results with
  | error e => rfl
  | ok results =>
    cases htoken : tokens.get? handled.1.tokenId with
    | none => rfl
    | some token =>
      cases hjudge : loop.server.judge c handled.1 token handled.2.now with
      | error e => simp [ReconciliationServer.settle, hjudge]
      | ok answer =>
        obtain ⟨status, reason⟩ := answer
        cases status with
        | accepted =>
          obtain ⟨-, rfl⟩ := ReconciliationServer.accepts_of_judge hjudge
          simp [ReconciliationServer.settle, hjudge]
        | doubleSpend => simp [ReconciliationServer.settle, hjudge]
        | policyViolation => simp [ReconciliationServer.settle, hjudge]

namespace ReconciliationServer

/-- One call of `process_bundle`. -/
def submit (c : Crypto) (s : ReconciliationServer)
    (submission : PaymentBundle × (Nat → Reading)) : ReconciliationServer :=
  (s.processBundle c submission.1 submission.2).server

/-- What this round accepts leaves a claim on the token `id`. -/
def RoundLeavesClaim (c : Crypto) (publicKey id : String) (now : Int) (tokens : Dict String Token)
    (loop : Settling) (handled : Transfer × Reading) : Prop :=
  ∀ token ∈ loop.acceptedToken c tokens handled,
    loop.server.LeavesClaim publicKey id now handled.1 handled.2.settledAt
  deriving Decidable

/-- What the submission gets accepted leaves a claim on the token `id` in each round. -/
def SubmissionLeavesClaim (c : Crypto) (publicKey id : String) (now : Int)
    (s : ReconciliationServer) (submission : PaymentBundle × (Nat → Reading)) : Prop :=
  Along (Settling.next c submission.1.tokens)
    (RoundLeavesClaim c publicKey id now submission.1.tokens) ⟨s, .ok []⟩
    (submission.1.handled submission.2)
  deriving Decidable

variable {c : Crypto} {publicKey id : String} {now : Int}

/-- A round leaves a claim on the token exactly if what it accepts does. -/
lemma exists_mem_claims_next_iff {tokens : Dict String Token} {loop : Settling}
    {handled : Transfer × Reading} (h : ∃ q, q ∈ loop.server.claims publicKey id now) :
    (∃ q, q ∈ (loop.next c tokens handled).server.claims publicKey id now) ↔
      RoundLeavesClaim c publicKey id now tokens loop handled := by
  rw [Settling.server_next, RoundLeavesClaim]
  cases loop.acceptedToken c tokens handled with
  | none => simpa using h
  | some token => simpa using exists_mem_claims_accept_iff h

/-- `process_bundle` does not change to whom a token was issued. -/
lemma issuedForWallet_submit (s : ReconciliationServer)
    (submission : PaymentBundle × (Nat → Reading)) :
    (s.submit c submission).issuedForWallet publicKey = s.issuedForWallet publicKey := by
  rw [issuedForWallet, submit, (processBundle_frame c s submission.1 submission.2).1]
  rfl

/-- A claim that counts at one time is left by submissions that leave one. -/
lemma externallyDeposited_runFrom {s : ReconciliationServer}
    {submissions : List (PaymentBundle × (Nat → Reading))}
    (hleft : Along (submit c) (SubmissionLeavesClaim c publicKey id now) s submissions)
    (h : id ∈ s.externallyDeposited publicKey now) :
    id ∈ (runFrom (submit c) s submissions).externallyDeposited publicKey now := by
  refine Along.invariant
    (I := fun s : ReconciliationServer => id ∈ s.externallyDeposited publicKey now) ?_ hleft h
  intro s submission hsubmission h
  rw [mem_externallyDeposited] at h ⊢
  rw [issuedForWallet_submit]
  refine ⟨h.1, Along.invariant
    (I := fun loop : Settling => ∃ q, q ∈ loop.server.claims publicKey id now) ?_ hsubmission h.2⟩
  intro loop handled hround hclaim
  exact (exists_mem_claims_next_iff hclaim).mpr hround

/-- A submission of one transfer leaves a claim on the token exactly if it meets the condition. -/
lemma mem_externallyDeposited_single_iff {s : ReconciliationServer} {bundle : PaymentBundle}
    {transfer : Transfer} {readings : Nat → Reading} (hsingle : bundle.transfers = [transfer])
    (h : id ∈ s.externallyDeposited publicKey now) :
    id ∈ (s.submit c (bundle, readings)).externallyDeposited publicKey now ↔
      SubmissionLeavesClaim c publicKey id now s (bundle, readings) := by
  have hhandled : bundle.handled readings = [(transfer, readings 0)] := by
    rw [PaymentBundle.handled, hsingle]
    rfl
  rw [mem_externallyDeposited] at h
  have hround : (∃ q, q ∈ ((⟨s, .ok []⟩ : Settling).next c bundle.tokens
      (transfer, readings 0)).server.claims publicKey id now) ↔
      RoundLeavesClaim c publicKey id now bundle.tokens ⟨s, .ok []⟩ (transfer, readings 0) :=
    exists_mem_claims_next_iff h.2
  rw [mem_externallyDeposited, issuedForWallet_submit, submit, processBundle, SubmissionLeavesClaim,
    hhandled, Along.cons_iff, runFrom_cons, runFrom_nil, hround]
  simp [h.1]

end ReconciliationServer

namespace ServerRun

open ReconciliationServer

/-- A token that is not safe because somebody else deposited it is not safe at a later time either,
if every transfer accepted in between leaves a claim on it; a submission of one transfer keeps it so
only then. -/
theorem deposited_of_run {c : Crypto} {issuer : Issuer} {policy : PolicyConfig} {started : Int}
    {es : List ServerEvent} {publicKey id : String} {now now' : Int}
    {submissions : List (PaymentBundle × (Nat → Reading))} (hlater : now ≤ now')
    (hdeposited : id ∈ (runFrom (step c) (start issuer policy started)
      es).server.externallyDeposited publicKey now)
    (hleft : Along (submit c) (SubmissionLeavesClaim c publicKey id now')
      (runFrom (step c) (start issuer policy started) es).server submissions) :
    let s := runFrom (submit c) (runFrom (step c) (start issuer policy started) es).server submissions
    id ∉ (s.reconstructRecovery publicKey now').safeTokenIds ∧
      id ∈ s.externallyDeposited publicKey now' ∧
      ∀ bundle readings transfer, bundle.transfers = [transfer] →
        (id ∈ (s.submit c (bundle, readings)).externallyDeposited publicKey now' ↔
          SubmissionLeavesClaim c publicKey id now' s (bundle, readings)) := by
  intro s
  have hagree := tablesAgree_runFrom c issuer policy started es
  have hcounts : id ∈ (runFrom (step c) (start issuer policy started)
      es).server.externallyDeposited publicKey now' := by
    rw [mem_externallyDeposited] at hdeposited ⊢
    obtain ⟨howned, q, hclaim⟩ := hdeposited
    exact ⟨howned, q, hagree.claims_mono hlater hclaim⟩
  have hkept := externallyDeposited_runFrom hleft hcounts
  exact ⟨notMem_safeTokenIds hkept, hkept, fun bundle readings transfer hsingle =>
    mem_externallyDeposited_single_iff hsingle hkept⟩

/-- Bob deposits a token of Alice, who then loses her wallet; Mallory gets a token of her own. -/
def depositedLoss : List ServerEvent :=
  [.mint "alice" 100 ⟨"t1", 1000000000, 1000000000⟩,
    .bundle (plainBundle [plainTransfer "x1" "t1" "alice" "bob"] [plainToken "t1" "alice"])
      fun _ => ⟨1100000000, 1100000000⟩,
    .revoke "alice" 1200000000, .mint "mallory" 100 ⟨"t2", 1400000000, 1400000000⟩]

/-- Mallory pays Carol under the transfer id of Alice's payment, and submits this at time `now`. -/
def collision (now : Int) : PaymentBundle × (Nat → Reading) :=
  let unsigned : Transfer :=
    ⟨"x1", "t2", "mallory", "carol", 1, none, none, none, 1, "", ⟨1401000000, some 0⟩⟩
  let transfer := { unsigned with
    signature := plainCrypto.sign (.transfer unsigned.signingPayload) "sk:mallory" }
  let token := plainIssuer.mintedToken plainCrypto "mallory" 100 ⟨"t2", 1400000000, 1400000000⟩
  (plainBundle [transfer] [token], fun _ => ⟨now, now⟩)

theorem deposited_of_run_collision :
    let s := runFrom (submit plainCrypto) (runFrom (step plainCrypto)
      (start plainIssuer .default 0) depositedLoss).server [collision 1500000000]
    "t1" ∉ (s.reconstructRecovery "alice" 606200000000).safeTokenIds ∧
      "t1" ∈ s.externallyDeposited "alice" 606200000000 ∧
      ∀ bundle readings transfer, bundle.transfers = [transfer] →
        ("t1" ∈ (s.submit plainCrypto (bundle, readings)).externallyDeposited "alice"
            606200000000 ↔
          SubmissionLeavesClaim plainCrypto "alice" "t1" 606200000000 s (bundle, readings)) :=
  have hdeposited : "t1" ∈ (runFrom (step plainCrypto) (start plainIssuer .default 0)
      depositedLoss).server.externallyDeposited "alice" 1450000000 := by decide +kernel
  deposited_of_run (by decide) hdeposited (by decide +kernel)

/-- Submitted after the cutoff, it makes the deposited token safe again. -/
theorem safe_again_collision :
    let run := runFrom (step plainCrypto) (start plainIssuer .default 0) depositedLoss
    let later := collision 606100000000
    Along (step plainCrypto) ClockForward (start plainIssuer .default 0)
        (depositedLoss ++ [.bundle later.1 later.2]) ∧
      "t1" ∈ run.server.externallyDeposited "alice" 1450000000 ∧
      (run.server.reconstructRecovery "alice" 1450000000).safeTokenIds = [] ∧
      (run.server.processBundle plainCrypto later.1 later.2).results
        = .ok [⟨"t2", "x1", .accepted, .ok⟩] ∧
      ((run.server.submit plainCrypto later).reconstructRecovery "alice"
        606200000000).safeTokenIds = ["t1"] := by
  decide +kernel

end ServerRun

end PocketCash.Offline
