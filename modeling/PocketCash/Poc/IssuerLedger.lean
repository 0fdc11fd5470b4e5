import Mathlib.Data.Finset.Basic
import PocketCash.Library.KeyedList
import PocketCash.Poc.Token

/-!
# The issuer ledger of the `dpc_poc` prototype

`dpc_poc/dpc/reconciliation.py`: the first submission of a token whose issuer signature verifies
registers its submitter as the owner.
-/

namespace PocketCash.Poc

/-- A result of `submit_token`, and an entry of the log. -/
structure Submission where
  tokenId : String
  accepted : Bool
  owner : Option String
  reason : String
  deriving DecidableEq

/-- Issuer's central ledger for CBDC reconciliation. -/
structure IssuerLedger where
  registry : Dict String String
  tokenValues : Dict String PyFloat
  acceptedTokens : Dict String Token
  suspiciousKeys : Finset String
  submissionLog : List Submission

namespace IssuerLedger

/-- `IssuerLedger()`. -/
def new : IssuerLedger := ⟨.empty, .empty, .empty, ∅, []⟩

/-- Verify issuer's Ed25519 signature for token authenticity. -/
def validIssuerSignature (c : Crypto) (token : Token) : Except PyError Bool :=
  token.validIssuerSignature c

/-- `transfer_history[-2]`, if there are two entries. -/
def previousOwner (token : Token) : List String :=
  match token.transferHistory.reverse with
  | _ :: previous :: _ => [previous]
  | _ => []

/-- Process a token submission for reconciliation. -/
def submitToken (c : Crypto) (ledger : IssuerLedger) (token : Token) (submitterPubkeyHex : String) :
    Except PyError (IssuerLedger × Submission) := do
  let valid ← validIssuerSignature c token
  let (ledger', result) : IssuerLedger × Submission :=
    if !valid then (ledger, ⟨token.tokenId, false, none, "invalid signature"⟩)
    else
      match ledger.registry.get? token.tokenId with
      | none =>
        ({ ledger with
            registry := ledger.registry.set token.tokenId submitterPubkeyHex
            tokenValues := ledger.tokenValues.set token.tokenId token.denomination
            acceptedTokens := ledger.acceptedTokens.set token.tokenId token },
          ⟨token.tokenId, true, some submitterPubkeyHex, "accepted"⟩)
      | some owner =>
        if owner = submitterPubkeyHex then
          (ledger, ⟨token.tokenId, true, some submitterPubkeyHex, "accepted"⟩)
        else
          ({ ledger with
              suspiciousKeys := insert submitterPubkeyHex
                (ledger.suspiciousKeys ∪ (previousOwner token).toFinset) },
            ⟨token.tokenId, false, some owner, "Token already spent"⟩)
  return ({ ledger' with submissionLog := ledger'.submissionLog ++ [result] }, result)

section submitToken

variable {c : Crypto} {ledger : IssuerLedger} {token : Token} {submitterPubkeyHex owner : String}

/-- `self.submission_log.append(result)`. -/
def log (ledger : IssuerLedger) (result : Submission) : IssuerLedger :=
  { ledger with submissionLog := ledger.submissionLog ++ [result] }

lemma submitToken_of_invalid (h : token.validIssuerSignature c = .ok false) :
    ledger.submitToken c token submitterPubkeyHex
      = .ok (ledger.log ⟨token.tokenId, false, none, "invalid signature"⟩,
          ⟨token.tokenId, false, none, "invalid signature"⟩) := by
  rw [submitToken, validIssuerSignature, h]
  rfl

lemma submitToken_of_new (hvalid : token.validIssuerSignature c = .ok true)
    (hnew : ledger.registry.get? token.tokenId = none) (submitterPubkeyHex : String) :
    ledger.submitToken c token submitterPubkeyHex
      = .ok (log { ledger with
            registry := ledger.registry.set token.tokenId submitterPubkeyHex
            tokenValues := ledger.tokenValues.set token.tokenId token.denomination
            acceptedTokens := ledger.acceptedTokens.set token.tokenId token }
            ⟨token.tokenId, true, some submitterPubkeyHex, "accepted"⟩,
          ⟨token.tokenId, true, some submitterPubkeyHex, "accepted"⟩) := by
  rw [submitToken, validIssuerSignature, hvalid]
  simp only [ok_bind, hnew]
  rfl

lemma submitToken_of_owner (hvalid : token.validIssuerSignature c = .ok true)
    (howner : ledger.registry.get? token.tokenId = some submitterPubkeyHex) :
    ledger.submitToken c token submitterPubkeyHex
      = .ok (ledger.log ⟨token.tokenId, true, some submitterPubkeyHex, "accepted"⟩,
          ⟨token.tokenId, true, some submitterPubkeyHex, "accepted"⟩) := by
  rw [submitToken, validIssuerSignature, hvalid]
  simp only [ok_bind, howner, if_true]
  rfl

lemma submitToken_of_conflict (hvalid : token.validIssuerSignature c = .ok true)
    (howner : ledger.registry.get? token.tokenId = some owner) (hne : owner ≠ submitterPubkeyHex) :
    ledger.submitToken c token submitterPubkeyHex
      = .ok (log { ledger with
            suspiciousKeys := insert submitterPubkeyHex
              (ledger.suspiciousKeys ∪ (previousOwner token).toFinset) }
            ⟨token.tokenId, false, some owner, "Token already spent"⟩,
          ⟨token.tokenId, false, some owner, "Token already spent"⟩) := by
  rw [submitToken, validIssuerSignature, hvalid]
  simp only [ok_bind, howner, if_neg hne]
  rfl

end submitToken

/-- Submit multiple tokens at once. -/
def submitBatch (c : Crypto) : IssuerLedger → List Token → String →
    IssuerLedger × Except PyError (List Submission)
  | ledger, [], _ => (ledger, .ok [])
  | ledger, token :: rest, submitterPubkeyHex =>
    match ledger.submitToken c token submitterPubkeyHex with
    | .error e => (ledger, .error e)
    | .ok (ledger', result) =>
      match submitBatch c ledger' rest submitterPubkeyHex with
      | (ledger'', .error e) => (ledger'', .error e)
      | (ledger'', .ok results) => (ledger'', .ok (result :: results))

section submitBatch

variable {c : Crypto} {ledger ledger' : IssuerLedger} {token : Token} {submitterPubkeyHex : String}

/-- A submission that raises ends the batch. -/
lemma submitBatch_of_raised {e : PyError}
    (h : ledger.submitToken c token submitterPubkeyHex = .error e) (rest : List Token) :
    ledger.submitBatch c (token :: rest) submitterPubkeyHex = (ledger, .error e) := by
  rw [submitBatch, h]

/-- After a submission that returns, the rest is submitted to the ledger that it leaves. -/
lemma submitBatch_of_submitToken {result : Submission}
    (h : ledger.submitToken c token submitterPubkeyHex = .ok (ledger', result))
    (rest : List Token) :
    ledger.submitBatch c (token :: rest) submitterPubkeyHex
      = (ledger'.submitBatch c rest submitterPubkeyHex).map id (Except.map (result :: ·)) := by
  rw [submitBatch, h]
  dsimp only
  rcases ledger'.submitBatch c rest submitterPubkeyHex with ⟨ledger'', e | results⟩ <;> rfl

end submitBatch

/-- `self.token_values[token_id]`. -/
def tokenValue (ledger : IssuerLedger) (tokenId : String) : Except PyError ℚ :=
  match ledger.tokenValues.get? tokenId with
  | some denomination => .ok denomination.toRat
  | none => .error (.keyError tokenId)

/-- Get total balance of tokens owned by a pubkey in the registry. -/
def getBalance (ledger : IssuerLedger) (ownerPubkeyHex : String) : Except PyError ℚ := do
  let owned := ledger.registry.items.filter fun entry => entry.2 = ownerPubkeyHex
  let values ← owned.mapM fun entry => ledger.tokenValue entry.1
  return values.sum

/-- Check if a pubkey is flagged for suspicious activity. -/
def isFlagged (ledger : IssuerLedger) (pubkeyHex : String) : Bool :=
  pubkeyHex ∈ ledger.suspiciousKeys

/-- An accepted token is authentic. -/
lemma validIssuerSignature_of_submitToken {c : Crypto} {ledger ledger' : IssuerLedger}
    {token : Token} {submitterPubkeyHex : String} {result : Submission}
    (h : ledger.submitToken c token submitterPubkeyHex = .ok (ledger', result))
    (haccepted : result.accepted = true) : token.validIssuerSignature c = .ok true := by
  obtain ⟨valid, hvalid, h⟩ := bind_eq_ok_iff.mp h
  cases valid with
  | true => exact hvalid
  | false =>
    cases h
    cases haccepted

end IssuerLedger

end PocketCash.Poc
