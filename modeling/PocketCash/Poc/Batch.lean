import PocketCash.Poc.FirstClaim

/-!
# Malformed tokens in a batch

A batch is submitted token by token, and the first token whose key or signature field cannot be read
raises an exception. The results of the tokens before it are lost, though they are registered and
logged, and the tokens after it are not submitted at all.
-/

namespace PocketCash.Poc

/-- The key and signature fields can be read: the key is 32 bytes in hexadecimal, the signature
hexadecimal. -/
def Token.Readable (t : Token) : Prop :=
  (hexToPubkeyBytes t.issuerPubkeyHex).isOk = true ∧ (fromhex t.issuerSignatureHex).isOk = true
  deriving Decidable

lemma Token.readable_iff {t : Token} {submitterPubkeyHex : String} :
    t.Readable ↔ Claim.WellFormed ⟨t, submitterPubkeyHex⟩ := by
  have hisOk : ∀ x : Except PyError Bytes, x.isOk = true ↔ ∃ bs, x = .ok bs := by
    intro x
    cases x <;> simp [Except.isOk, Except.toBool]
  rw [Readable, hisOk, hisOk]
  rfl

/-- The signature of an unreadable token cannot be checked. -/
lemma Token.validIssuerSignature_of_unreadable {t : Token} (h : ¬ t.Readable) (c : Crypto) :
    ∃ e, t.validIssuerSignature c = .error e := by
  rw [validIssuerSignature]
  rw [Readable, not_and] at h
  cases hkey : hexToPubkeyBytes t.issuerPubkeyHex with
  | error e => exact ⟨e, rfl⟩
  | ok pk =>
    cases hsignature : fromhex t.issuerSignatureHex with
    | error e => exact ⟨e, rfl⟩
    | ok signature =>
      rw [hkey, hsignature] at h
      exact absurd rfl (h rfl)

namespace IssuerLedger

/-- A batch is answered with one result for each token, in order, each of which is logged, and the
readable tokens get the results they get in a batch without the others. -/
structure Unblocked (c : Crypto) (ledger : IssuerLedger) (tokens : List Token)
    (submitterPubkeyHex : String) (ledger' : IssuerLedger) (results : List Submission) : Prop where
  returns : ledger.submitBatch c tokens submitterPubkeyHex = (ledger', .ok results)
  inOrder : results.map Submission.tokenId = tokens.map Token.tokenId
  logged : ledger'.submissionLog = ledger.submissionLog ++ results
  alike : (ledger.submitBatch c (tokens.filter fun t => t.Readable) submitterPubkeyHex).2
    = .ok (((tokens.zip results).filter fun p => p.1.Readable).map Prod.snd)

variable {c : Crypto} {ledger : IssuerLedger} {token : Token} {submitterPubkeyHex : String}

lemma submitToken_of_unreadable (h : ¬ token.Readable) :
    ∃ e, ledger.submitToken c token submitterPubkeyHex = .error e := by
  obtain ⟨e, hraised⟩ := token.validIssuerSignature_of_unreadable h c
  exact ⟨e, by rw [submitToken, validIssuerSignature, hraised]; rfl⟩

/-- A readable token gets a result, which is logged. -/
lemma submitToken_of_readable (h : token.Readable) (c : Crypto) (ledger : IssuerLedger)
    (submitterPubkeyHex : String) :
    ∃ ledger' result, ledger.submitToken c token submitterPubkeyHex = .ok (ledger', result) ∧
      result.tokenId = token.tokenId ∧
      ledger'.submissionLog = ledger.submissionLog ++ [result] := by
  have hwell : Claim.WellFormed ⟨token, submitterPubkeyHex⟩ := Token.readable_iff.mp h
  have hread := hwell.validIssuerSignature_eq c
  by_cases hvalid : Claim.Valid c ⟨token, submitterPubkeyHex⟩
  · cases howner : ledger.registry.get? token.tokenId with
    | none => exact ⟨_, _, submitToken_of_new hvalid howner _, rfl, rfl⟩
    | some owner =>
      by_cases hsame : owner = submitterPubkeyHex
      · exact ⟨_, _, submitToken_of_owner hvalid (hsame ▸ howner), rfl, rfl⟩
      · exact ⟨_, _, submitToken_of_conflict hvalid howner hsame, rfl, rfl⟩
  · rw [decide_eq_false hvalid] at hread
    exact ⟨_, _, submitToken_of_invalid hread, rfl, rfl⟩

/-- A batch of readable tokens. -/
lemma submitBatch_of_readable {tokens : List Token} (h : ∀ token ∈ tokens, token.Readable)
    (c : Crypto) (ledger : IssuerLedger) (submitterPubkeyHex : String) :
    ∃ ledger' results, ledger.submitBatch c tokens submitterPubkeyHex = (ledger', .ok results) ∧
      results.map Submission.tokenId = tokens.map Token.tokenId ∧
      ledger'.submissionLog = ledger.submissionLog ++ results := by
  induction tokens generalizing ledger with
  | nil => exact ⟨ledger, [], rfl, rfl, (List.append_nil _).symm⟩
  | cons token tokens ih =>
    obtain ⟨hhead, htail⟩ := List.forall_mem_cons.mp h
    obtain ⟨ledger₁, result, hsubmit, hid, hlog⟩ :=
      submitToken_of_readable hhead c ledger submitterPubkeyHex
    obtain ⟨ledger₂, results, hbatch, hids, hlogs⟩ := ih htail ledger₁
    refine ⟨ledger₂, result :: results, ?_, ?_, ?_⟩
    · rw [submitBatch_of_submitToken hsubmit, hbatch]
      rfl
    · rw [List.map_cons, List.map_cons, hid, hids]
    · rw [hlogs, hlog, List.append_assoc, List.singleton_append]

/-- A batch that returns holds readable tokens only. -/
lemma readable_of_submitBatch {tokens : List Token} {ledger' : IssuerLedger}
    {results : List Submission}
    (h : ledger.submitBatch c tokens submitterPubkeyHex = (ledger', .ok results)) :
    ∀ token ∈ tokens, token.Readable := by
  induction tokens generalizing ledger ledger' results with
  | nil => exact List.forall_mem_nil _
  | cons token tokens ih =>
    by_cases hreadable : token.Readable
    · obtain ⟨ledger₁, result, hsubmit, -⟩ :=
        submitToken_of_readable hreadable c ledger submitterPubkeyHex
      rw [submitBatch_of_submitToken hsubmit] at h
      cases hbatch : ledger₁.submitBatch c tokens submitterPubkeyHex with
      | mk ledger₂ answer =>
        rw [hbatch] at h
        cases answer with
        | error e => cases h
        | ok results' => exact List.forall_mem_cons.mpr ⟨hreadable, ih hbatch⟩
    · obtain ⟨e, hraised⟩ := @submitToken_of_unreadable c ledger token submitterPubkeyHex hreadable
      rw [submitBatch_of_raised hraised] at h
      cases h

/-- A batch goes through exactly if all its tokens can be read. -/
theorem submitBatch_unblocked_iff (c : Crypto) (ledger : IssuerLedger) (tokens : List Token)
    (submitterPubkeyHex : String) :
    (∃ ledger' results, ledger.Unblocked c tokens submitterPubkeyHex ledger' results) ↔
      ∀ token ∈ tokens, token.Readable := by
  constructor
  · rintro ⟨ledger', results, h⟩
    exact readable_of_submitBatch h.returns
  · intro h
    obtain ⟨ledger', results, hbatch, hids, hlogs⟩ :=
      submitBatch_of_readable h c ledger submitterPubkeyHex
    refine ⟨ledger', results, hbatch, hids, hlogs, ?_⟩
    have hall : tokens.filter (fun t => t.Readable) = tokens :=
      List.filter_eq_self.mpr fun t ht => decide_eq_true (h t ht)
    have hzip : (tokens.zip results).filter (fun p => p.1.Readable) = tokens.zip results :=
      List.filter_eq_self.mpr fun p hp => decide_eq_true (h p.1 (List.of_mem_zip hp).1)
    have hlength : results.length = tokens.length := by
      simpa using congrArg List.length hids
    rw [hall, hzip, hbatch, List.map_snd_zip hlength.le]

/-- A token whose signature field is no hexadecimal text. -/
def unreadableToken : Token :=
  { plainToken (.ofNat 1 10 one_mod_ten) (.ofNat 1 2 one_mod_ten) with
    tokenId := "t2", issuerSignatureHex := "not hex" }

/-- An authentic token before an unreadable one is registered and logged without being answered, and
behind it is not submitted. -/
theorem submitBatch_blocked :
    let token := plainToken (.ofNat 1 10 one_mod_ten) (.ofNat 1 2 one_mod_ten)
    (¬ ∃ ledger' results,
      Unblocked plainCrypto .new [token, unreadableToken] "alice" ledger' results) ∧
    (submitBatch plainCrypto .new [token] "alice").2
      = .ok [⟨token.tokenId, true, some "alice", "accepted"⟩] ∧
    (submitBatch plainCrypto .new [token, unreadableToken] "alice").2.isOk = false ∧
    (submitBatch plainCrypto .new [token, unreadableToken] "alice").1.submissionLog
      = [⟨token.tokenId, true, some "alice", "accepted"⟩] ∧
    (submitBatch plainCrypto .new [unreadableToken, token] "alice").1.submissionLog = [] := by
  intro token
  have hvalid : token.validIssuerSignature plainCrypto = .ok true :=
    validIssuerSignature_plainToken _ _
  have hunreadable : ¬ unreadableToken.Readable := by decide
  have hnew : IssuerLedger.new.registry.get? token.tokenId = none := rfl
  have hfirst := submitToken_of_new hvalid hnew "alice"
  have hblocked : ∀ (ledger : IssuerLedger) (rest : List Token), ∃ e,
      ledger.submitBatch plainCrypto (unreadableToken :: rest) "alice" = (ledger, .error e) := by
    intro ledger rest
    obtain ⟨e, hraised⟩ := submitToken_of_unreadable hunreadable
    exact ⟨e, submitBatch_of_raised hraised rest⟩
  refine ⟨?_, ?_, ?_, ?_, ?_⟩
  · rintro ⟨ledger', results, hunblocked⟩
    exact hunreadable (readable_of_submitBatch hunblocked.returns _ (by simp))
  · rw [submitBatch_of_submitToken hfirst]
    rfl
  · obtain ⟨e, hraised⟩ := hblocked _ []
    rw [submitBatch_of_submitToken hfirst, hraised]
    rfl
  · obtain ⟨e, hraised⟩ := hblocked _ []
    rw [submitBatch_of_submitToken hfirst, hraised]
    rfl
  · obtain ⟨e, hraised⟩ := hblocked .new [token]
    rw [hraised]
    rfl

end IssuerLedger

end PocketCash.Poc
