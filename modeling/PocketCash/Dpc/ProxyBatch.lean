import PocketCash.Dpc.Conflicts

/-!
# Batches of a proxy

`proxy_sync` settles its submissions one after the other. If one of them raises, those before it stay
settled, and their claimers have to submit them again to see the results.
-/

namespace PocketCash.Dpc

namespace IssuerLedger

/-- The settlement of a first claim. -/
def Submission.settlement (s : Submission) : Settlement :=
  ⟨s.token.tokenId, s.claimerPubkeyHex, s.chain.length, s.now⟩

/-- The settlement of the first submission that claims a token id. -/
def firstSettlement (submissions : List Submission) (tokenId : String) : Option Settlement :=
  (submissions.find? fun s => s.token.tokenId = tokenId).map Submission.settlement

/-- The table has what it had before, and the first claims to other ids. -/
def Adds (ledger ledger' : IssuerLedger) (submissions : List Submission) : Prop :=
  ∀ tokenId, ledger'.settled.get? tokenId
    = (ledger.settled.get? tokenId).or (firstSettlement submissions tokenId)

variable {c : Crypto} {ledger ledger' : IssuerLedger} {proxyPubkeyHex : String}
  {submissions : List Submission}

lemma settled_of_settleToken_eq_error {s : Submission} {e : Raised}
    (h : ledger.settleToken c s.claimerPubkeyHex s.token s.chain s.now = (ledger', .error e)) :
    ledger'.settled = ledger.settled := by
  rcases ledger.settleToken_cases c s.claimerPubkeyHex s.token s.chain s.now with
    ⟨e', heq⟩ | ⟨existing, -, -, heq⟩ | ⟨existing, -, -, heq⟩ | ⟨-, -, heq⟩ <;>
    rw [heq] at h <;> cases h <;> rfl

lemma firstSettlement_cons (s : Submission) (rest : List Submission) (tokenId : String) :
    firstSettlement (s :: rest) tokenId
      = if s.token.tokenId = tokenId then some s.settlement else firstSettlement rest tokenId := by
  rw [firstSettlement, List.find?_cons]
  by_cases hid : s.token.tokenId = tokenId <;> simp [hid, firstSettlement]

lemma Adds.trans {ledger'' : IssuerLedger} {s : Submission} {rest : List Submission}
    (h : ledger.Adds ledger' [s]) (h' : ledger'.Adds ledger'' rest) :
    ledger.Adds ledger'' (s :: rest) := by
  intro tokenId
  rw [h', h, Option.or_assoc, firstSettlement_cons, firstSettlement_cons]
  split_ifs <;> rfl

/-- What is added is in the table. -/
lemma Adds.mem_keys (h : ledger.Adds ledger' submissions) {s : Submission} (hs : s ∈ submissions) :
    s.token.tokenId ∈ ledger'.settled.keys := by
  by_contra hnot
  rw [← Dict.get?_eq_none_iff, h, Option.or_eq_none_iff, firstSettlement, Option.map_eq_none_iff,
    List.find?_eq_none] at hnot
  exact hnot.2 s hs (decide_eq_true rfl)

/-- The answer to a submission that is settled: the entry of the table, which names the claimer. -/
structure Answers (ledger : IssuerLedger) (proxyPubkeyHex : String) (s : Submission)
    (result : Settlement × String) : Prop where
  proxy : result.2 = proxyPubkeyHex
  settled : ledger.settled.get? s.token.tokenId = some result.1
  claimer : result.1.claimerPubkey = s.claimerPubkeyHex

lemma Answers.of_adds {s : Submission} {result : Settlement × String} {added : List Submission}
    (h : ledger.Answers proxyPubkeyHex s result) (hadds : ledger.Adds ledger' added) :
    ledger'.Answers proxyPubkeyHex s result :=
  ⟨h.proxy, by rw [hadds, h.settled, Option.some_or], h.claimer⟩

/-- One submission that is settled. -/
lemma settled_of_settleToken_eq_ok {s : Submission} {result : Settlement}
    (h : ledger.settleToken c s.claimerPubkeyHex s.token s.chain s.now = (ledger', .ok result)) :
    ledger.Adds ledger' [s] ∧ ledger'.Answers proxyPubkeyHex s (result, proxyPubkeyHex) ∧
      (s.token.tokenId ∈ ledger.settled.keys → ledger'.settled = ledger.settled) := by
  rcases ledger.settleToken_cases c s.claimerPubkeyHex s.token s.chain s.now with
    ⟨e', heq⟩ | ⟨existing, hsettled, hclaimer, heq⟩ | ⟨existing, -, -, heq⟩ | ⟨-, hnew, heq⟩
  · rw [heq] at h
    cases h
  · -- the same claim again
    rw [heq] at h
    cases h
    refine ⟨fun tokenId => ?_, ⟨rfl, hsettled, hclaimer⟩, fun _ => rfl⟩
    rw [firstSettlement_cons]
    split_ifs with hid
    · rw [← hid, hsettled, Option.some_or]
    · exact Option.or_none.symm
  · rw [heq] at h
    cases h
  · -- a first claim
    rw [heq] at h
    cases h
    refine ⟨fun tokenId => ?_, ⟨rfl, Dict.get?_set.trans (if_pos rfl), rfl⟩, fun hkey => ?_⟩
    · rw [firstSettlement_cons, Dict.get?_set]
      by_cases hid : s.token.tokenId = tokenId
      · rw [if_pos hid, if_pos hid.symm, ← hid, hnew, Option.none_or]
        rfl
      · rw [if_neg hid, if_neg (Ne.symm hid)]
        exact Option.or_none.symm
    · exact absurd hkey (Dict.get?_eq_none_iff.mp hnew)

lemma proxySync_cons_eq_ok_iff {s : Submission} {results : List (Settlement × String)} :
    proxySync c proxyPubkeyHex ledger (s :: submissions) = (ledger', .ok results) ↔
      ∃ ledger₁ result results',
        ledger.settleToken c s.claimerPubkeyHex s.token s.chain s.now = (ledger₁, .ok result) ∧
        proxySync c proxyPubkeyHex ledger₁ submissions = (ledger', .ok results') ∧
        results = (result, proxyPubkeyHex) :: results' := by
  rw [proxySync]
  rcases ledger.settleToken c s.claimerPubkeyHex s.token s.chain s.now with ⟨ledger₁, e | result⟩
  · simp
  · dsimp only
    rcases hrest : proxySync c proxyPubkeyHex ledger₁ submissions with ⟨ledger₂, e | results'⟩ <;>
      simp [hrest, eq_comm]

lemma proxySync_cons_eq_error_iff {s : Submission} {e : Raised} :
    proxySync c proxyPubkeyHex ledger (s :: submissions) = (ledger', .error e) ↔
      ledger.settleToken c s.claimerPubkeyHex s.token s.chain s.now = (ledger', .error e) ∨
      ∃ ledger₁ result,
        ledger.settleToken c s.claimerPubkeyHex s.token s.chain s.now = (ledger₁, .ok result) ∧
        proxySync c proxyPubkeyHex ledger₁ submissions = (ledger', .error e) := by
  rw [proxySync]
  rcases ledger.settleToken c s.claimerPubkeyHex s.token s.chain s.now with ⟨ledger₁, e | result⟩
  · simp
  · dsimp only
    rcases hrest : proxySync c proxyPubkeyHex ledger₁ submissions with ⟨ledger₂, e | results'⟩ <;>
      simp [hrest]

/-- A batch that returns: one answer for each submission, in order. -/
lemma settled_of_proxySync_eq_ok {results : List (Settlement × String)}
    (h : proxySync c proxyPubkeyHex ledger submissions = (ledger', .ok results)) :
    ledger.Adds ledger' submissions ∧
      List.Forall₂ (ledger'.Answers proxyPubkeyHex) submissions results ∧
      ((∀ s ∈ submissions, s.token.tokenId ∈ ledger.settled.keys) →
        ledger'.settled = ledger.settled) := by
  induction submissions generalizing ledger results with
  | nil =>
    cases h
    exact ⟨fun tokenId => Option.or_none.symm, .nil, fun _ => rfl⟩
  | cons s rest ih =>
    obtain ⟨ledger₁, result, results', hsettle, hrest, rfl⟩ := proxySync_cons_eq_ok_iff.mp h
    obtain ⟨hadds, hanswers, hsame⟩ := settled_of_settleToken_eq_ok hsettle
    obtain ⟨haddsRest, hanswersRest, hsameRest⟩ := ih hrest
    refine ⟨hadds.trans haddsRest, .cons (hanswers.of_adds haddsRest) hanswersRest, ?_⟩
    intro hkeys
    obtain ⟨hkey, hkeysRest⟩ := List.forall_mem_cons.mp hkeys
    rw [← hsame hkey] at hkeysRest ⊢
    exact hsameRest hkeysRest

/-- A batch that raises has settled the submissions before the one that raised. -/
lemma exists_split_of_proxySync_eq_error {e : Raised}
    (h : proxySync c proxyPubkeyHex ledger submissions = (ledger', .error e)) :
    ∃ done failed rest ledger₁ results, submissions = done ++ failed :: rest ∧
      proxySync c proxyPubkeyHex ledger done = (ledger₁, .ok results) ∧
      ledger₁.settleToken c failed.claimerPubkeyHex failed.token failed.chain failed.now
        = (ledger', .error e) := by
  induction submissions generalizing ledger with
  | nil => cases h
  | cons s rest ih =>
    rcases proxySync_cons_eq_error_iff.mp h with hsettle | ⟨ledger₁, result, hsettle, hrest⟩
    · exact ⟨[], s, rest, ledger, [], rfl, rfl, hsettle⟩
    · obtain ⟨done, failed, rest', ledger₂, results, rfl, hdone, hfailed⟩ := ih hrest
      exact ⟨s :: done, failed, rest', ledger₂, (result, proxyPubkeyHex) :: results, rfl,
        proxySync_cons_eq_ok_iff.mpr ⟨ledger₁, result, results, hsettle, hdone, rfl⟩, hfailed⟩

/-- If `proxy_sync` raises, the submissions before the one that raised are settled and nothing else
is, so that the table is as before exactly if their ids had been settled. If it returns, there is one
answer for each submission, in order, and each token is settled to its claimer. -/
theorem proxySync_settles (c : Crypto) (proxyPubkeyHex : String) (ledger : IssuerLedger)
    (submissions : List Submission) :
    (∀ ledger' e, proxySync c proxyPubkeyHex ledger submissions = (ledger', .error e) →
      ∃ done failed rest ledger₁ results, submissions = done ++ failed :: rest ∧
        proxySync c proxyPubkeyHex ledger done = (ledger₁, .ok results) ∧
        ledger₁.settleToken c failed.claimerPubkeyHex failed.token failed.chain failed.now
          = (ledger', .error e) ∧
        ledger.Adds ledger' done ∧
        (ledger'.settled = ledger.settled ↔
          ∀ s ∈ done, s.token.tokenId ∈ ledger.settled.keys)) ∧
    (∀ ledger' results, proxySync c proxyPubkeyHex ledger submissions = (ledger', .ok results) →
      ledger.Adds ledger' submissions ∧
        List.Forall₂ (ledger'.Answers proxyPubkeyHex) submissions results) := by
  constructor
  · intro ledger' e hraised
    obtain ⟨done, failed, rest, ledger₁, results, hsplit, hdone, hfailed⟩ :=
      exists_split_of_proxySync_eq_error hraised
    obtain ⟨hadds, -, hsame⟩ := settled_of_proxySync_eq_ok hdone
    have hkept := settled_of_settleToken_eq_error hfailed
    refine ⟨done, failed, rest, ledger₁, results, hsplit, hdone, hfailed, ?_, ?_, ?_⟩
    · rwa [Adds, hkept]
    · intro hunchanged s hs
      rw [← hunchanged, hkept]
      exact hadds.mem_keys hs
    · intro hkeys
      rw [hkept, hsame hkeys]
  · intro ledger' results hreturns
    obtain ⟨hadds, hanswers, -⟩ := settled_of_proxySync_eq_ok hreturns
    exact ⟨hadds, hanswers⟩

/-- A ledger that has minted Alice's token. -/
def mintedLedger : IssuerLedger :=
  { new with minted := Dict.set .empty "t1" (mintRecord Custody.token) }

/-- Alice's claim, and a claim to an id that was never minted. -/
def mixedSubmissions : List Submission :=
  [⟨Custody.alice.publicKeyHex plainCrypto, Custody.token, [Custody.genesis], 2000⟩,
    ⟨Custody.alice.publicKeyHex plainCrypto, { Custody.token with tokenId := "t2" }, [], 2000⟩]

/-- `proxy_sync` raises for the second claim, and the first stays settled. -/
theorem proxySync_not_atomic :
    (proxySync plainCrypto "proxy" mintedLedger mixedSubmissions).2
        = .error (.dpc .reconciliation "Token was not minted by this issuer") ∧
      mintedLedger.settled.keys = [] ∧
      (proxySync plainCrypto "proxy" mintedLedger mixedSubmissions).1.settled.keys = ["t1"] := by
  decide +kernel

end IssuerLedger

end PocketCash.Dpc
