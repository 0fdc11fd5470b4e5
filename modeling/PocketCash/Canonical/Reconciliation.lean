import PocketCash.Library.KeyedList
import PocketCash.Canonical.Token

/-!
# Reconciliation of submitted tokens

`issuer/reconciliation.py`: the engine settles a token id on the first submission whose chain is
valid, not expired and not too long, and refuses every later submission of the id.
-/

namespace PocketCash.Canonical

/-- `datetime.fromisoformat`, as an instant in microseconds; a text without an offset is read as
UTC, and a text it cannot read raises `ValueError`. -/
abbrev IsoReader := String → Except PyError Int

/-- `status` of a reconciliation result. -/
inductive Status
  | accepted
  | rejected
  deriving DecidableEq, Repr

/-- `reason` of a reconciliation result. -/
inductive Reason
  | ok
  | invalidChain
  | expired
  | maxHopsExceeded
  | duplicateTokenId
  deriving DecidableEq, Repr

/-- Settlement outcome for a submitted token. -/
structure ReconciliationResult where
  source : String
  tokenId : String
  status : Status
  reason : Reason
  deriving DecidableEq, Repr

/-- Validates submitted tokens and rejects double-spends by token id. -/
structure ReconciliationEngine where
  acceptedByTokenId : Dict String Int

/-- Return True when token expiry is at or after settlement time. -/
def isNotExpired (fromIsoformat : IsoReader) (expiry : String) (atTime : Int) :
    Except PyError Bool := do
  let expiryDt ← fromIsoformat expiry
  return expiryDt ≥ atTime

lemma isNotExpired_eq_true_iff {fromIsoformat : IsoReader} {expiry : String} {atTime : Int} :
    isNotExpired fromIsoformat expiry atTime = .ok true ↔
      ∃ instant, fromIsoformat expiry = .ok instant ∧ atTime ≤ instant := by
  simp [isNotExpired, bind_eq_ok_iff]

/-- The default of `policy.get("max_hops", 7)`: a token has no attribute `policy`. -/
def maxHops : Nat := 7

namespace ReconciliationEngine

/-- The engine before its first submission. -/
def new : ReconciliationEngine := ⟨.empty⟩

/-- Validate a single token submission, settled `atTime`, and return settlement result. -/
def submit (c : Crypto) (fromIsoformat : IsoReader) (engine : ReconciliationEngine)
    (source : String) (token : Token) (atTime : Int) :
    ReconciliationEngine × Except PyError ReconciliationResult :=
  let rejected (reason : Reason) : ReconciliationResult :=
    ⟨source, token.tokenId, .rejected, reason⟩
  if !token.validateChain c token.issuerPk then (engine, .ok (rejected .invalidChain))
  else
    match isNotExpired fromIsoformat token.expiry atTime with
    | .error e => (engine, .error e)
    | .ok false => (engine, .ok (rejected .expired))
    | .ok true =>
      if token.transferChain.length > maxHops then (engine, .ok (rejected .maxHopsExceeded))
      else if (engine.acceptedByTokenId.get? token.tokenId).isSome then
        (engine, .ok (rejected .duplicateTokenId))
      else
        ({ engine with
            acceptedByTokenId := engine.acceptedByTokenId.set token.tokenId atTime },
          .ok ⟨source, token.tokenId, .accepted, .ok⟩)

/-- The answer is a result with status `ACCEPTED`. -/
def accepted : Except PyError ReconciliationResult → Bool
  | .ok result => result.status = .accepted
  | .error _ => false

/-- What a submission must satisfy by itself to settle its token id. -/
structure Valid (c : Crypto) (fromIsoformat : IsoReader) (token : Token) (atTime : Int) :
    Prop where
  chain : token.validateChain c token.issuerPk = true
  notExpired : isNotExpired fromIsoformat token.expiry atTime = .ok true
  hops : token.transferChain.length ≤ maxHops

instance (c : Crypto) (fromIsoformat : IsoReader) (token : Token) (atTime : Int) :
    Decidable (Valid c fromIsoformat token atTime) :=
  decidable_of_iff (token.validateChain c token.issuerPk = true ∧
      isNotExpired fromIsoformat token.expiry atTime = .ok true ∧
      token.transferChain.length ≤ maxHops)
    ⟨fun ⟨hchain, hexpiry, hhops⟩ => ⟨hchain, hexpiry, hhops⟩, fun h => ⟨h.chain, h.notExpired, h.hops⟩⟩

/-- With a readable expiry, a submission is answered. -/
lemma exists_submit_eq_ok {c : Crypto} {fromIsoformat : IsoReader} (engine : ReconciliationEngine)
    (source : String) {token : Token} {instant : Int}
    (hread : fromIsoformat token.expiry = .ok instant) (atTime : Int) :
    ∃ result, (engine.submit c fromIsoformat source token atTime).2 = .ok result := by
  have hexpiry : isNotExpired fromIsoformat token.expiry atTime = .ok (decide (instant ≥ atTime)) := by
    rw [isNotExpired, hread]
    rfl
  rw [submit, hexpiry]
  by_cases hchain : token.validateChain c token.issuerPk = true
  · rw [hchain]
    cases decide (instant ≥ atTime) with
    | false => exact ⟨_, rfl⟩
    | true =>
      simp only [Bool.not_true, Bool.false_eq_true, if_false]
      split_ifs <;> exact ⟨_, rfl⟩
  · rw [eq_false_of_ne_true hchain]
    exact ⟨_, rfl⟩

/-- A submission is accepted and settles its token id, or leaves the engine as it was. -/
theorem submit_cases (c : Crypto) (fromIsoformat : IsoReader) (engine : ReconciliationEngine)
    (source : String) (token : Token) (atTime : Int) :
    ((Valid c fromIsoformat token atTime ∧ token.tokenId ∉ engine.acceptedByTokenId.keys) ∧
      engine.submit c fromIsoformat source token atTime
        = (⟨engine.acceptedByTokenId.set token.tokenId atTime⟩,
          .ok ⟨source, token.tokenId, .accepted, .ok⟩)) ∨
    (¬ (Valid c fromIsoformat token atTime ∧ token.tokenId ∉ engine.acceptedByTokenId.keys) ∧
      ∃ answer, accepted answer = false ∧
        engine.submit c fromIsoformat source token atTime = (engine, answer)) := by
  rw [submit]
  by_cases hchain : token.validateChain c token.issuerPk = true
  swap
  · exact .inr ⟨fun h => hchain h.1.chain, _, rfl, by simp only [hchain]; rfl⟩
  cases hexpiry : isNotExpired fromIsoformat token.expiry atTime with
  | error e =>
    refine .inr ⟨fun h => ?_, .error e, rfl, by simp [hchain]⟩
    cases hexpiry.symm.trans h.1.notExpired
  | ok notExpired =>
    cases notExpired with
    | false =>
      refine .inr ⟨fun h => ?_, _, rfl, by simp only [hchain]; rfl⟩
      cases hexpiry.symm.trans h.1.notExpired
    | true =>
      by_cases hhops : token.transferChain.length ≤ maxHops
      swap
      · refine .inr ⟨fun h => hhops h.1.hops,
          .ok ⟨source, token.tokenId, .rejected, .maxHopsExceeded⟩, rfl, ?_⟩
        simp [hchain, Nat.not_le.mp hhops]
      cases hget : engine.acceptedByTokenId.get? token.tokenId with
      | none =>
        refine .inl ⟨⟨⟨hchain, hexpiry, hhops⟩, Dict.get?_eq_none_iff.mp hget⟩, ?_⟩
        simp [hchain, hhops]
      | some settledAt =>
        refine .inr ⟨fun h => ?_,
          .ok ⟨source, token.tokenId, .rejected, .duplicateTokenId⟩, rfl, ?_⟩
        · rw [Dict.get?_eq_none_iff.mpr h.2] at hget
          cases hget
        · simp [hchain, Nat.not_lt.mpr hhops]

end ReconciliationEngine

end PocketCash.Canonical
