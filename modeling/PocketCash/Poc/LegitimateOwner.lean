import PocketCash.Poc.Batch

/-!
# Who may claim a token first

The ledger registers the first submitter of an authentic token, whoever that is: it compares the
submitter neither with the owner that the token names nor with the last entry of its history. So the
registered owner is the named one exactly if nobody else submits the token first.
-/

namespace PocketCash.Poc

/-- The submitter is the owner that the token names. -/
def Claim.ByOwner (claim : Claim) : Prop := claim.submitterPubkeyHex = claim.token.ownerPubkeyHex

/-- The claims that reach the ledger: those of a batch up to its first unreadable token. -/
def Call.submitted (e : Call) : List Claim := e.claims.takeWhile fun claim => claim.token.Readable

namespace IssuerLedger

/-- Every registered owner is the one that the accepted token names. -/
def OwnersNamed (ledger : IssuerLedger) : Prop :=
  ∀ tokenId owner, ledger.registry.get? tokenId = some owner →
    ∃ token, ledger.acceptedTokens.get? tokenId = some token ∧ owner = token.ownerPubkeyHex

variable {c : Crypto} {ledger : IssuerLedger} {standing : KeyedList Claim.object}

lemma Refines.ownersNamed_iff (h : ledger.Refines standing) :
    ledger.OwnersNamed ↔ ∀ claim ∈ standing.items, claim.ByOwner := by
  constructor
  · intro hnamed claim hclaim
    have hfind : standing.find? claim.object = some claim := KeyedList.find?_of_mem hclaim
    have howner : ledger.registry.get? claim.object = some claim.submitterPubkeyHex := by
      rw [h.owner, hfind]
      rfl
    obtain ⟨token, htoken, hsame⟩ := hnamed _ _ howner
    rw [get?_of_items_eq h.acceptedTokens, hfind] at htoken
    cases htoken
    exact hsame
  · intro hby tokenId owner howner
    rw [h.owner] at howner
    obtain ⟨claim, hfind, rfl⟩ := Option.map_eq_some_iff.mp howner
    refine ⟨claim.token, ?_, hby claim (KeyedList.find?_eq_some_iff.mp hfind).1⟩
    rw [get?_of_items_eq h.acceptedTokens, hfind]
    rfl

/-- A batch files the claims up to its first unreadable token, whether it returns or not. -/
lemma Refines.submitBatch (h : ledger.Refines standing) (c : Crypto) (tokens : List Token)
    (submitterPubkeyHex : String) :
    (ledger.submitBatch c tokens submitterPubkeyHex).1.Refines
      (runFrom (fileClaim (Claim.Valid c)) standing
        (Call.batch tokens submitterPubkeyHex).submitted) := by
  induction tokens generalizing ledger standing with
  | nil => exact h
  | cons token tokens ih =>
    by_cases hreadable : token.Readable
    · have hsubmitted : (Call.batch (token :: tokens) submitterPubkeyHex).submitted
          = ⟨token, submitterPubkeyHex⟩ :: (Call.batch tokens submitterPubkeyHex).submitted :=
        List.takeWhile_cons_of_pos (decide_eq_true hreadable)
      have hwell : Claim.WellFormed ⟨token, submitterPubkeyHex⟩ := Token.readable_iff.mp hreadable
      obtain ⟨ledger₁, result, hsubmit, hrefines, -⟩ := h.submitToken (c := c) hwell
      have hrest := ih hrefines
      rw [hsubmitted, runFrom_cons, submitBatch_of_submitToken hsubmit]
      exact hrest
    · have hsubmitted : (Call.batch (token :: tokens) submitterPubkeyHex).submitted = [] :=
        List.takeWhile_cons_of_neg (by simpa using hreadable)
      obtain ⟨e, hraised⟩ := @submitToken_of_unreadable c ledger token submitterPubkeyHex hreadable
      rw [hsubmitted, submitBatch_of_raised hraised]
      exact h

end IssuerLedger

namespace LedgerRun

variable {c : Crypto}

lemma call_submit {run : LedgerRun} {token : Token} {submitterPubkeyHex : String}
    {ledger : IssuerLedger} {result : Submission}
    (h : run.ledger.submitToken c token submitterPubkeyHex = .ok (ledger, result)) :
    run.call c (.submit token submitterPubkeyHex)
      = ⟨ledger, run.journal ++ [(⟨token, submitterPubkeyHex⟩, result)]⟩ := by
  rw [LedgerRun.call, h]

lemma ledger_call_batch (c : Crypto) (run : LedgerRun) (tokens : List Token)
    (submitterPubkeyHex : String) :
    (run.call c (.batch tokens submitterPubkeyHex)).ledger
      = (run.ledger.submitBatch c tokens submitterPubkeyHex).1 := by
  rw [LedgerRun.call]
  rcases run.ledger.submitBatch c tokens submitterPubkeyHex with ⟨ledger, e | results⟩ <;> rfl

/-- A single submission leaves the ledger as a batch of one token does. -/
lemma ledger_call_submit (c : Crypto) (run : LedgerRun) (token : Token)
    (submitterPubkeyHex : String) :
    (run.call c (.submit token submitterPubkeyHex)).ledger
      = (run.ledger.submitBatch c [token] submitterPubkeyHex).1 := by
  cases hsubmit : run.ledger.submitToken c token submitterPubkeyHex with
  | error e => rw [LedgerRun.call, hsubmit, IssuerLedger.submitBatch_of_raised hsubmit]
  | ok submitted =>
    rw [call_submit hsubmit, IssuerLedger.submitBatch_of_submitToken hsubmit]
    rfl

/-- One call, on whatever tokens. -/
lemma refines_call {run : LedgerRun} {standing : KeyedList Claim.object}
    (h : run.ledger.Refines standing) (c : Crypto) (e : Call) :
    (run.call c e).ledger.Refines (runFrom (fileClaim (Claim.Valid c)) standing e.submitted) := by
  cases e with
  | submit token submitterPubkeyHex =>
    rw [ledger_call_submit]
    exact h.submitBatch c [token] submitterPubkeyHex
  | batch tokens submitterPubkeyHex =>
    rw [ledger_call_batch]
    exact h.submitBatch c tokens submitterPubkeyHex

/-- The ledger after any calls. -/
lemma refines_afterCalls (c : Crypto) (calls : List Call) :
    (afterCalls c calls).ledger.Refines
      (standing Claim.object (Claim.Valid c) (calls.flatMap Call.submitted)) := by
  have hflat : ∀ (d : KeyedList Claim.object), runFrom
      (fun d e => runFrom (fileClaim (Claim.Valid c)) d (Call.submitted e)) d calls
        = runFrom (fileClaim (Claim.Valid c)) d (calls.flatMap Call.submitted) := by
    intro d
    induction calls generalizing d with
    | nil => rfl
    | cons e calls ih => rw [runFrom_cons, ih, List.flatMap_cons, runFrom_append]
  rw [standing, ← hflat]
  exact runFrom_simulates (R := fun run d => IssuerLedger.Refines (ledger run) d)
    (fun e _ _ _ h => refines_call h c e) ⟨rfl, rfl, rfl⟩

/-- In the states that a run reaches, the registered owners are the named ones exactly if the first
authentic submission of each token id is made by the owner that its token names. -/
theorem owners_named_iff (c : Crypto) (calls : List Call) :
    (afterCalls c calls).ledger.OwnersNamed ↔
      ∀ tokenId claim,
        ((calls.flatMap Call.submitted).find? fun claim =>
          claim.Valid c ∧ claim.object = tokenId) = some claim → claim.ByOwner := by
  rw [(refines_afterCalls c calls).ownersNamed_iff]
  constructor
  · intro hby tokenId claim hfirst
    rw [← find?_standing] at hfirst
    exact hby claim (KeyedList.find?_eq_some_iff.mp hfirst).1
  · intro hfirst claim hclaim
    apply hfirst claim.object
    rw [← find?_standing]
    exact KeyedList.find?_of_mem hclaim

/-- A token of the issuer. -/
def seenToken : Token := plainToken (.ofNat 1 10 one_mod_ten) (.ofNat 1 2 one_mod_ten)

/-- Mallory, who has seen the token, submits it before its owner does. -/
def outsiderCalls : List Call :=
  [.submit seenToken "mallory", .submit seenToken plainIssuer.pubkeyHex]

/-- Mallory is registered, and the owner is turned down and flagged. -/
theorem outsider_registered :
    seenToken.ownerPubkeyHex = plainIssuer.pubkeyHex ∧
      ¬ (afterCalls plainCrypto outsiderCalls).ledger.OwnersNamed ∧
      (afterCalls plainCrypto outsiderCalls).ledger.submissionLog
        = [⟨seenToken.tokenId, true, some "mallory", "accepted"⟩,
          ⟨seenToken.tokenId, false, some "mallory", "Token already spent"⟩] ∧
      plainIssuer.pubkeyHex ∈ (afterCalls plainCrypto outsiderCalls).ledger.suspiciousKeys := by
  have hvalid : seenToken.validIssuerSignature plainCrypto = .ok true :=
    validIssuerSignature_plainToken _ _
  have hne : "mallory" ≠ plainIssuer.pubkeyHex := by decide
  have hregistered : (IssuerLedger.new.registry.set seenToken.tokenId "mallory").get?
      seenToken.tokenId = some "mallory" := Dict.get?_set.trans (if_pos rfl)
  have haccepted : (IssuerLedger.new.acceptedTokens.set seenToken.tokenId seenToken).get?
      seenToken.tokenId = some seenToken := Dict.get?_set.trans (if_pos rfl)
  rw [afterCalls, outsiderCalls, runFrom_cons, runFrom_cons, runFrom_nil,
    call_submit (IssuerLedger.submitToken_of_new hvalid (Dict.get?_empty _) "mallory"),
    call_submit (IssuerLedger.submitToken_of_conflict hvalid hregistered hne)]
  refine ⟨rfl, ?_, rfl, Finset.mem_insert_self _ _⟩
  intro hnamed
  obtain ⟨named, hnamedToken, hsame⟩ := hnamed seenToken.tokenId "mallory" hregistered
  obtain rfl := Option.some.inj (haccepted.symm.trans hnamedToken)
  exact hne hsame

end LedgerRun

end PocketCash.Poc
