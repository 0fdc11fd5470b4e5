import Mathlib.Algebra.BigOperators.Group.List.Basic
import Mathlib.Algebra.Field.Rat
import PocketCash.Library.FirstClaim
import PocketCash.Poc.IssuerLedger
import PocketCash.Poc.Wallet

/-!
# Runs of the issuer ledger

Tokens are submitted one by one or in batches. A submission is a claim of its submitter to a token
id, valid if the issuer signature of the token verifies. The registry, the values and the accepted
tokens list the claims that stand, so that the first valid claim decides who owns an id and what it
is worth, whatever denomination or history a later submission of the id carries.
-/

namespace PocketCash.Poc

/-- A submitted token with the key that submits it. -/
structure Claim where
  token : Token
  submitterPubkeyHex : String
  deriving DecidableEq

namespace Claim

/-- The token id that is claimed. -/
def object (claim : Claim) : String := claim.token.tokenId

/-- The issuer signature of the token verifies. -/
def Valid (c : Crypto) (claim : Claim) : Prop := claim.token.validIssuerSignature c = .ok true
  deriving Decidable

/-- The hex fields `submit_token` reads are well-formed. -/
def WellFormed (claim : Claim) : Prop :=
  (∃ pk, hexToPubkeyBytes claim.token.issuerPubkeyHex = .ok pk) ∧
    ∃ signature, fromhex claim.token.issuerSignatureHex = .ok signature

lemma WellFormed.validIssuerSignature_eq {claim : Claim} (h : claim.WellFormed) (c : Crypto) :
    claim.token.validIssuerSignature c = .ok (decide (claim.Valid c)) := by
  obtain ⟨⟨pk, hpk⟩, signature, hsignature⟩ := h
  have hread : claim.token.validIssuerSignature c
      = .ok (c.verify pk (utf8 claim.token.signatureMessage) signature) := by
    rw [Token.validIssuerSignature, hpk, hsignature]
    rfl
  rw [hread]
  simp [Valid, hread]

/-- The hex fields of a valid token are well-formed. -/
lemma Valid.wellFormed {c : Crypto} {claim : Claim} (h : claim.Valid c) : claim.WellFormed := by
  obtain ⟨pk, signature, hpk, hsignature, -⟩ := Token.validIssuerSignature_eq_true_iff.mp h
  exact ⟨⟨pk, hpk⟩, signature, hsignature⟩

end Claim

/-! ### One submission -/

namespace IssuerLedger

/-- The registry against the claims that stand. -/
structure Refines (ledger : IssuerLedger) (standing : KeyedList Claim.object) : Prop where
  registry : ledger.registry.items
    = standing.items.map fun claim => (claim.object, claim.submitterPubkeyHex)
  tokenValues : ledger.tokenValues.items
    = standing.items.map fun claim => (claim.object, claim.token.denomination)
  acceptedTokens : ledger.acceptedTokens.items
    = standing.items.map fun claim => (claim.object, claim.token)

lemma get?_of_items_eq {ν : Type} {d : Dict String ν} {standing : KeyedList Claim.object}
    {f : Claim → ν} (h : d.items = standing.items.map fun claim => (claim.object, f claim))
    (k : String) : d.get? k = (standing.find? k).map f := by
  rw [Dict.get?, KeyedList.find?, KeyedList.find?, h, List.find?_map, Option.map_map]
  rfl

/-- A claim to a new id goes to the end of each table. -/
lemma items_set_of_items_eq {ν : Type} {d : Dict String ν} {standing : KeyedList Claim.object}
    {f : Claim → ν} (h : d.items = standing.items.map fun claim => (claim.object, f claim))
    {claim : Claim} (hnew : claim.object ∉ standing.keys) :
    (d.set claim.object (f claim)).items
      = (standing.items ++ [claim]).map fun claim => (claim.object, f claim) := by
  have hkey : claim.object ∉ d.keys := by
    rw [← Dict.get?_eq_none_iff, get?_of_items_eq h, KeyedList.find?_eq_none_iff.mpr hnew]
    rfl
  rw [List.map_append, ← h]
  exact KeyedList.items_put_of_notMem hkey

lemma Refines.owner {ledger : IssuerLedger} {standing : KeyedList Claim.object}
    (h : ledger.Refines standing) (k : String) :
    ledger.registry.get? k = (standing.find? k).map Claim.submitterPubkeyHex :=
  get?_of_items_eq h.registry k

/-- The ids without an owner are those nobody has a standing claim to. -/
lemma Refines.owner_eq_none_iff {ledger : IssuerLedger} {standing : KeyedList Claim.object}
    (h : ledger.Refines standing) {k : String} :
    ledger.registry.get? k = none ↔ k ∉ standing.keys := by
  rw [h.owner, Option.map_eq_none_iff, KeyedList.find?_eq_none_iff]

/-- What a submission of a well-formed token does: it is filed as a claim, its result is logged and
returned, and it is accepted if it is valid and its submitter owns the id afterwards. -/
lemma Refines.submitToken {c : Crypto} {ledger : IssuerLedger}
    {standing : KeyedList Claim.object} (h : ledger.Refines standing) {claim : Claim}
    (hwell : claim.WellFormed) :
    ∃ ledger' result, ledger.submitToken c claim.token claim.submitterPubkeyHex
        = .ok (ledger', result) ∧
      ledger'.Refines (fileClaim (Claim.Valid c) standing claim) ∧
      ledger'.submissionLog = ledger.submissionLog ++ [result] ∧
      ledger.suspiciousKeys ⊆ ledger'.suspiciousKeys ∧
      result.tokenId = claim.object ∧
      (result.accepted = true ↔ claim.Valid c ∧
        ledger'.registry.get? claim.object = some claim.submitterPubkeyHex) := by
  by_cases hvalid : claim.Valid c
  swap
  · -- invalid signature
    have hfile : fileClaim (Claim.Valid c) standing claim = standing :=
      fileClaim_of_turnedDown fun hstands => hvalid hstands.1
    have hinvalid := hwell.validIssuerSignature_eq c
    rw [decide_eq_false hvalid] at hinvalid
    refine ⟨_, _, submitToken_of_invalid hinvalid, ?_, rfl, subset_rfl, rfl, ?_⟩
    · rw [hfile]
      exact ⟨h.registry, h.tokenValues, h.acceptedTokens⟩
    · exact iff_of_false Bool.false_ne_true fun hboth => hvalid hboth.1
  cases howner : ledger.registry.get? claim.object with
  | none =>
    -- a new id
    have hnew : claim.object ∉ standing.keys := h.owner_eq_none_iff.mp howner
    have hitems : (fileClaim (Claim.Valid c) standing claim).items = standing.items ++ [claim] :=
      fileClaim_of_stands ⟨hvalid, hnew⟩
    refine ⟨_, _, submitToken_of_new hvalid howner _, ⟨?_, ?_, ?_⟩, rfl, subset_rfl, rfl, ?_⟩
    · rw [hitems]
      exact items_set_of_items_eq h.registry hnew
    · rw [hitems]
      exact items_set_of_items_eq h.tokenValues hnew
    · rw [hitems]
      exact items_set_of_items_eq h.acceptedTokens hnew
    · exact iff_of_true rfl ⟨hvalid, Dict.get?_set.trans (if_pos rfl)⟩
  | some owner =>
    have hfile : fileClaim (Claim.Valid c) standing claim = standing := by
      apply fileClaim_of_turnedDown
      intro hstands
      rw [← h.owner_eq_none_iff, howner] at hstands
      cases hstands.2
    rw [hfile]
    by_cases hsame : owner = claim.submitterPubkeyHex
    · -- the owner again
      rw [hsame] at howner
      exact ⟨_, _, submitToken_of_owner hvalid howner, ⟨h.registry, h.tokenValues,
        h.acceptedTokens⟩, rfl, subset_rfl, rfl, iff_of_true rfl ⟨hvalid, howner⟩⟩
    · -- somebody else
      refine ⟨_, _, submitToken_of_conflict hvalid howner hsame, ⟨h.registry, h.tokenValues,
        h.acceptedTokens⟩, rfl, ?_, rfl, ?_⟩
      · exact fun pk hpk => Finset.mem_insert_of_mem (Finset.mem_union_left _ hpk)
      · apply iff_of_false Bool.false_ne_true
        intro hboth
        apply hsame
        exact Option.some.inj (howner.symm.trans hboth.2)

/-! ### Balances -/

/-- Adding up by groups. -/
lemma sum_groups {α : Type} (owner : α → String) (value : α → ℚ) {owners : List String}
    (hnodup : owners.Nodup) {l : List α} (hmem : ∀ a ∈ l, owner a ∈ owners) :
    (owners.map fun o => ((l.filter fun a => owner a = o).map value).sum).sum
      = (l.map value).sum := by
  induction l with
  | nil => simp
  | cons a l ih =>
    rw [List.forall_mem_cons] at hmem
    have hhead : ∀ o, (((a :: l).filter fun b => owner b = o).map value).sum
        = (if o = owner a then value a else 0)
          + ((l.filter fun b => owner b = o).map value).sum := by
      intro o
      by_cases ho : owner a = o
      · simp [ho]
      · simp [ho, Ne.symm ho]
    have hone : (owners.map fun o => if o = owner a then value a else 0).sum = value a := by
      rw [List.sum_map_ite_eq, hnodup.count, if_pos hmem.1, one_nsmul]
      simp
    simp only [hhead]
    rw [List.sum_map_add, hone, ih hmem.2, List.map_cons, List.sum_cons]

/-- The balance of an owner is what its standing claims are worth. -/
lemma Refines.getBalance {ledger : IssuerLedger} {standing : KeyedList Claim.object}
    (h : ledger.Refines standing) (ownerPubkeyHex : String) :
    ledger.getBalance ownerPubkeyHex
      = .ok ((standing.items.filter fun claim => claim.submitterPubkeyHex = ownerPubkeyHex).map
          fun claim => claim.token.denomination.toRat).sum := by
  have hvalues : ∀ l : List Claim, l ⊆ standing.items →
      (l.map fun claim => (claim.object, claim.submitterPubkeyHex)).mapM
        (fun entry => ledger.tokenValue entry.1)
        = .ok (l.map fun claim => claim.token.denomination.toRat) := by
    intro l hl
    apply mapM_map_eq_ok
    intro claim hclaim
    dsimp only
    rw [tokenValue, get?_of_items_eq h.tokenValues, KeyedList.find?_of_mem (hl hclaim)]
    rfl
  rw [IssuerLedger.getBalance, h.registry, List.filter_map]
  exact congrArg (· >>= fun values => .ok values.sum) (hvalues _ (List.filter_subset_self _))

end IssuerLedger

/-! ### Runs -/

/-- A call of `submit_token` or of `submit_batch`. -/
inductive Call
  | submit (token : Token) (submitterPubkeyHex : String)
  | batch (tokens : List Token) (submitterPubkeyHex : String)

/-- The claims a call makes. -/
def Call.claims : Call → List Claim
  | submit token submitterPubkeyHex => [⟨token, submitterPubkeyHex⟩]
  | batch tokens submitterPubkeyHex => tokens.map fun token => ⟨token, submitterPubkeyHex⟩

/-- The ledger, and the claims made so far with the results they were answered with. -/
structure LedgerRun where
  ledger : IssuerLedger
  journal : List (Claim × Submission)

namespace LedgerRun

/-- One call. A call that raises keeps what it changed before. -/
def call (c : Crypto) (run : LedgerRun) : Call → LedgerRun
  | .submit token submitterPubkeyHex =>
    match run.ledger.submitToken c token submitterPubkeyHex with
    | .error _ => run
    | .ok (ledger, result) => ⟨ledger, run.journal ++ [(⟨token, submitterPubkeyHex⟩, result)]⟩
  | .batch tokens submitterPubkeyHex =>
    match run.ledger.submitBatch c tokens submitterPubkeyHex with
    | (ledger, .error _) => { run with ledger := ledger }
    | (ledger, .ok results) =>
      ⟨ledger, run.journal ++ (tokens.map fun token => ⟨token, submitterPubkeyHex⟩).zip results⟩

/-- The submitter of the first valid claim to a token id. -/
def firstSubmitter (c : Crypto) (claims : List Claim) (tokenId : String) : Option String :=
  (claims.find? fun claim => claim.Valid c ∧ claim.object = tokenId).map Claim.submitterPubkeyHex

/-- The run against its claims. -/
structure Tracks (c : Crypto) (run : LedgerRun) (claims : List Claim) : Prop where
  refines : run.ledger.Refines (standing Claim.object (Claim.Valid c) claims)
  claimed : run.journal.map Prod.fst = claims
  logged : run.ledger.submissionLog = run.journal.map Prod.snd
  results : ∀ before entry after, run.journal = before ++ entry :: after →
    entry.2.tokenId = entry.1.object ∧
      (entry.2.accepted = true ↔ entry.1.Valid c ∧
        firstSubmitter c (before.map Prod.fst ++ [entry.1]) entry.1.object
          = some entry.1.submitterPubkeyHex)

variable {c : Crypto}

lemma Tracks.owner {run : LedgerRun} {claims : List Claim} (h : run.Tracks c claims) (k : String) :
    run.ledger.registry.get? k = firstSubmitter c claims k := by
  rw [h.refines.owner, find?_standing]
  rfl

/-- One submission of a well-formed token. -/
lemma Tracks.submit {run : LedgerRun} {claims : List Claim} (h : run.Tracks c claims)
    {claim : Claim} (hwell : claim.WellFormed) :
    ∃ ledger result, run.ledger.submitToken c claim.token claim.submitterPubkeyHex
        = .ok (ledger, result) ∧
      run.ledger.suspiciousKeys ⊆ ledger.suspiciousKeys ∧
      Tracks c ⟨ledger, run.journal ++ [(claim, result)]⟩ (claims ++ [claim]) := by
  obtain ⟨ledger, result, hsubmit, hrefines, hlog, hsuspicious, hid, haccepted⟩ :=
    h.refines.submitToken hwell
  rw [← standing_concat] at hrefines
  refine ⟨ledger, result, hsubmit, hsuspicious, hrefines, ?_, ?_, ?_⟩
  · rw [List.map_append, h.claimed]
    rfl
  · rw [hlog, h.logged, List.map_append]
    rfl
  · refine forall_split_concat h.results ⟨hid, ?_⟩
    rw [haccepted, hrefines.owner, find?_standing, h.claimed]
    rfl

/-- A batch of well-formed tokens. -/
lemma Tracks.batch {run : LedgerRun} {claims : List Claim} (h : run.Tracks c claims)
    {submitterPubkeyHex : String} {tokens : List Token}
    (hwell : ∀ token ∈ tokens, Claim.WellFormed ⟨token, submitterPubkeyHex⟩) :
    ∃ ledger results, run.ledger.submitBatch c tokens submitterPubkeyHex = (ledger, .ok results) ∧
      run.ledger.suspiciousKeys ⊆ ledger.suspiciousKeys ∧
      Tracks c
        ⟨ledger, run.journal ++ (tokens.map fun token => ⟨token, submitterPubkeyHex⟩).zip results⟩
        (claims ++ tokens.map fun token => ⟨token, submitterPubkeyHex⟩) := by
  induction tokens generalizing run claims with
  | nil =>
    refine ⟨run.ledger, [], rfl, subset_rfl, ?_⟩
    simpa using h
  | cons token tokens ih =>
    rw [List.forall_mem_cons] at hwell
    obtain ⟨ledger, result, hsubmit, hsuspicious, htracks⟩ := h.submit hwell.1
    obtain ⟨ledger', results, hbatch, hsuspicious', htracks'⟩ := ih htracks hwell.2
    refine ⟨ledger', result :: results, ?_, hsuspicious.trans hsuspicious', ?_⟩
    · rw [IssuerLedger.submitBatch_of_submitToken hsubmit, hbatch]
      rfl
    · rw [List.append_assoc, List.append_assoc] at htracks'
      exact htracks'

/-- One call on well-formed tokens. -/
lemma Tracks.call {run : LedgerRun} {claims : List Claim} (h : run.Tracks c claims) {e : Call}
    (hwell : ∀ claim ∈ e.claims, claim.WellFormed) :
    (run.call c e).Tracks c (claims ++ e.claims) ∧
      run.ledger.suspiciousKeys ⊆ (run.call c e).ledger.suspiciousKeys := by
  cases e with
  | submit token submitterPubkeyHex =>
    obtain ⟨ledger, result, hsubmit, hsuspicious, htracks⟩ :=
      h.submit (hwell ⟨token, submitterPubkeyHex⟩ List.mem_cons_self)
    rw [LedgerRun.call, hsubmit]
    exact ⟨htracks, hsuspicious⟩
  | batch tokens submitterPubkeyHex =>
    obtain ⟨ledger, results, hbatch, hsuspicious, htracks⟩ :=
      h.batch fun token htoken => hwell _ (List.mem_map_of_mem htoken)
    rw [LedgerRun.call, hbatch]
    exact ⟨htracks, hsuspicious⟩

/-- A new ledger after `calls`. -/
def afterCalls (c : Crypto) (calls : List Call) : LedgerRun := runFrom (call c) ⟨.new, []⟩ calls

/-- A run on well-formed tokens. -/
lemma tracks_afterCalls {calls : List Call}
    (hwell : ∀ e ∈ calls, ∀ claim ∈ e.claims, claim.WellFormed) :
    (afterCalls c calls).Tracks c (calls.flatMap Call.claims) := by
  have hclaims : runFrom (fun claims e => claims ++ Call.claims e) [] calls
      = calls.flatMap Call.claims := by
    rw [runFrom, List.foldl_append_eq_append, List.nil_append]
    rfl
  rw [← hclaims]
  exact runFrom_simulates (R := Tracks c) (fun e he _ _ h => (h.call (hwell e he)).1)
    ⟨⟨rfl, rfl, rfl⟩, rfl, rfl, by simp⟩

/-- The first valid claim to an id decides its owner and its value, every later one is accepted
exactly if it is valid and made by the owner, all are logged in order, and the balances of the
registered owners add up to what the first valid claims are worth. -/
theorem first_claim_owns {c : Crypto} {calls later : List Call}
    (hwell : ∀ e ∈ calls ++ later, ∀ claim ∈ e.claims, claim.WellFormed) :
    (∀ k, (afterCalls c calls).ledger.registry.get? k
      = firstSubmitter c (calls.flatMap Call.claims) k) ∧
    (∀ k owner, (afterCalls c calls).ledger.registry.get? k = some owner →
      (afterCalls c (calls ++ later)).ledger.registry.get? k = some owner) ∧
    (afterCalls c calls).journal.map Prod.fst = calls.flatMap Call.claims ∧
    (afterCalls c calls).ledger.submissionLog = (afterCalls c calls).journal.map Prod.snd ∧
    (∀ before entry after, (afterCalls c calls).journal = before ++ entry :: after →
      entry.2.tokenId = entry.1.token.tokenId ∧
        (entry.2.accepted = true ↔ entry.1.Valid c ∧
          firstSubmitter c (before.map Prod.fst ++ [entry.1]) entry.1.token.tokenId
            = some entry.1.submitterPubkeyHex)) ∧
    (afterCalls c calls).ledger.suspiciousKeys
      ⊆ (afterCalls c (calls ++ later)).ledger.suspiciousKeys ∧
    ∃ balance : String → ℚ,
      (∀ owner, (afterCalls c calls).ledger.getBalance owner = .ok (balance owner)) ∧
      (((afterCalls c calls).ledger.registry.items.map Prod.snd).dedup.map balance).sum
        = ((standing Claim.object (Claim.Valid c) (calls.flatMap Call.claims)).items.map
            fun claim => claim.token.denomination.toRat).sum := by
  have hcalls : ∀ e ∈ calls, ∀ claim ∈ e.claims, claim.WellFormed := fun e he =>
    hwell e (List.mem_append_left _ he)
  have htracks := tracks_afterCalls (c := c) hcalls
  have hlater := tracks_afterCalls (c := c) hwell
  refine ⟨htracks.owner, ?_, htracks.claimed, htracks.logged, htracks.results, ?_, _,
    htracks.refines.getBalance, ?_⟩
  · intro k owner howner
    rw [htracks.refines.owner] at howner
    obtain ⟨claim, hclaim, rfl⟩ := Option.map_eq_some_iff.mp howner
    rw [hlater.refines.owner, List.flatMap_append, find?_standing_append hclaim]
    rfl
  · rw [afterCalls, afterCalls, runFrom_append, ← afterCalls]
    refine (Along.invariant (g := fun _ e => ∀ claim ∈ Call.claims e, claim.WellFormed)
      (I := fun run => (∃ claims, Tracks c run claims) ∧
        (afterCalls c calls).ledger.suspiciousKeys ⊆ run.ledger.suspiciousKeys)
      ?_ (.of_forall_mem fun e he => hwell e (List.mem_append_right _ he))
      ⟨⟨_, htracks⟩, subset_rfl⟩).2
    rintro run e hwelle ⟨⟨claims, hrun⟩, hgrown⟩
    obtain ⟨hnext, hsuspicious⟩ := hrun.call hwelle
    exact ⟨⟨_, hnext⟩, hgrown.trans hsuspicious⟩
  · rw [htracks.refines.registry, List.map_map]
    exact IssuerLedger.sum_groups Claim.submitterPubkeyHex _ (List.nodup_dedup _)
      fun claim hclaim => List.mem_dedup.mpr (List.mem_map_of_mem hclaim)

/-- Alice submits a token of 8 and Bob submits it in a batch with an inflated copy. -/
def plainCalls : List Call :=
  [.submit (plainToken (.ofNat 17000000003 10 (by decide)) (.ofNat 8 1 (by decide))) "alice",
    .batch [plainToken (.ofNat 17000000003 10 (by decide)) (.ofNat 8 1 (by decide)),
      plainToken (.ofNat 17000000003 10 (by decide)) (.ofNat 8 3 (by decide))] "bob"]

theorem first_claim_owns_plainCalls :
    (afterCalls plainCrypto plainCalls).ledger.registry.get? "00112233445566778899aabbccddeeff"
      = firstSubmitter plainCrypto (plainCalls.flatMap Call.claims)
          "00112233445566778899aabbccddeeff" ∧
    ∃ balance : String → ℚ, ∀ owner,
      (afterCalls plainCrypto plainCalls).ledger.getBalance owner = .ok (balance owner) := by
  have hvalid : ∀ issuedAt denomination submitter,
      Claim.WellFormed ⟨plainToken issuedAt denomination, submitter⟩ := fun issuedAt denomination _ =>
    Claim.Valid.wellFormed (validIssuerSignature_plainToken issuedAt denomination)
  have hwell : ∀ e ∈ plainCalls ++ [], ∀ claim ∈ e.claims, claim.WellFormed := by
    simp [plainCalls, Call.claims, hvalid]
  obtain ⟨howner, -, -, -, -, -, balance, hbalance, -⟩ := @first_claim_owns plainCrypto _ _ hwell
  exact ⟨howner _, balance, hbalance⟩

end LedgerRun

end PocketCash.Poc
