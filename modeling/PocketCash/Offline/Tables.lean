import PocketCash.Offline.Run

/-!
# The settlement tables agree

The server writes five tables in one branch of the loop of `process_bundle`, keyed by the token id
and by the transfer id, and reads them again in later rounds of the same loop.
-/

namespace PocketCash.Offline

/-- The `chain_key` of a transfer. -/
def Transfer.chainKey (transfer : Transfer) : Option String × Option String × Int :=
  (transfer.parentTransferId, transfer.prevTransferHash, transfer.hopCount)

namespace ReconciliationServer

/-- The token ids of the accepted transfers, in the order of acceptance. -/
def acceptedIds (s : ReconciliationServer) : List String :=
  s.acceptedTransfers.map fun q => q.2.tokenId

/-- The tables hold the same transfers, one for each token. -/
structure TablesAgree (s : ReconciliationServer) : Prop where
  once : s.acceptedIds.Nodup
  ledger : s.ledger.keys = s.acceptedIds
  chains : s.acceptedChains.keys = s.acceptedIds
  chain : ∀ q ∈ s.acceptedTransfers, s.acceptedChains.get? q.2.tokenId = some q.1.chainKey
  hashes : ∀ id, id ∈ s.transferHashes.keys ↔ ∃ q ∈ s.acceptedTransfers, q.1.transferId = id
  times : ∀ id, id ∈ s.acceptedTransferTimes.keys ↔
    ∃ q ∈ s.acceptedTransfers, q.1.transferId = id

lemma tablesAgree_new (issuer : Issuer) (policy : PolicyConfig) :
    (new issuer policy).TablesAgree := by
  constructor <;> simp [new, acceptedIds]

lemma TablesAgree.of_tables_eq {s s' : ReconciliationServer} (htables : s'.tables = s.tables)
    (h : s.TablesAgree) : s'.TablesAgree := by
  simp only [tables, Prod.mk.injEq] at htables
  obtain ⟨hledger, hchains, hhashes, haccepted, htimes⟩ := htables
  have hids : s'.acceptedIds = s.acceptedIds := by rw [acceptedIds, haccepted]; rfl
  constructor
  · rw [hids]
    exact h.once
  · rw [hids, hledger]
    exact h.ledger
  · rw [hids, hchains]
    exact h.chains
  · rw [haccepted, hchains]
    exact h.chain
  · rw [haccepted, hhashes]
    exact h.hashes
  · rw [haccepted, htimes]
    exact h.times

/-- An accepted transfer is the first of its token, and is written to each table. -/
lemma TablesAgree.accept {c : Crypto} {s : ReconciliationServer} {transfer : Transfer}
    {token : Token} {now : Int} (h : s.TablesAgree) (haccepts : s.Accepts c transfer token now)
    (settledAt : Int) : (s.accept c transfer token settledAt).TablesAgree := by
  have hnew : token.tokenId ∉ s.ledger.keys := haccepts.unsettled
  have hid : token.tokenId ∉ s.acceptedIds := h.ledger ▸ hnew
  have hids : (s.accept c transfer token settledAt).acceptedIds
      = s.acceptedIds ++ [token.tokenId] := List.map_append
  have hwrite : ∀ id (keys : List String),
      (id ∈ keys ↔ ∃ q ∈ s.acceptedTransfers, q.1.transferId = id) →
        (id = transfer.transferId ∨ id ∈ keys ↔
          ∃ q ∈ s.acceptedTransfers ++ [(transfer, token)], q.1.transferId = id) := by
    intro id keys hkeys
    rw [hkeys, or_comm, eq_comm]
    simp [or_and_right, exists_or]
  refine ⟨?_, ?_, ?_, ?_, ?_, ?_⟩
  · rw [hids, List.nodup_append]
    refine ⟨h.once, List.nodup_singleton _, ?_⟩
    rintro id hmem _ hsame rfl
    exact hid (List.mem_singleton.mp hsame ▸ hmem)
  · rw [hids, ← h.ledger]
    exact Dict.keys_set_of_notMem hnew
  · rw [hids, ← h.chains]
    exact Dict.keys_set_of_notMem (h.chains ▸ hid)
  · simp only [ReconciliationServer.accept, List.forall_mem_append, List.forall_mem_singleton,
      Dict.get?_set]
    refine ⟨?_, if_pos trivial⟩
    intro q hq
    have hother : q.2.tokenId ≠ token.tokenId := fun hsame =>
      hid (hsame ▸ List.mem_map_of_mem (f := fun q => q.2.tokenId) hq)
    rw [if_neg hother]
    exact h.chain q hq
  · intro id
    rw [ReconciliationServer.accept, Dict.mem_keys_set]
    exact hwrite id _ (h.hashes id)
  · intro id
    rw [ReconciliationServer.accept, Dict.mem_keys_set]
    exact hwrite id _ (h.times id)

/-- The loop of `process_bundle` after some rounds. -/
def settling (c : Crypto) (s : ReconciliationServer) (bundle : PaymentBundle)
    (readings : Nat → Reading) (rounds : Nat) : Settling :=
  runFrom (Settling.next c bundle.tokens) ⟨s, .ok []⟩ ((bundle.handled readings).take rounds)

end ReconciliationServer

open ReconciliationServer

/-- A round writes the settlement tables only. -/
lemma Settling.next_frame (c : Crypto) (tokens : Dict String Token) (loop : Settling)
    (handled : Transfer × Reading) :
    (loop.next c tokens handled).server.issuer = loop.server.issuer ∧
      (loop.next c tokens handled).server.policy = loop.server.policy ∧
      (loop.next c tokens handled).server.recoveryEngine = loop.server.recoveryEngine := by
  have htrivial : OnToken (fun _ _ _ => True) tokens loop handled := fun _ _ _ => trivial
  rcases Settling.next_server (c := c) htrivial with hsame | ⟨token, -, -, haccept⟩
  · rw [hsame]
    exact ⟨rfl, rfl, rfl⟩
  · rw [haccept]
    exact ⟨rfl, rfl, rfl⟩

/-- Some rounds write the settlement tables only. -/
lemma ReconciliationServer.settling_frame (c : Crypto) (s : ReconciliationServer)
    (bundle : PaymentBundle) (readings : Nat → Reading) (rounds : Nat) :
    (s.settling c bundle readings rounds).server.issuer = s.issuer ∧
      (s.settling c bundle readings rounds).server.policy = s.policy ∧
      (s.settling c bundle readings rounds).server.recoveryEngine = s.recoveryEngine := by
  refine runFrom_invariant (I := fun loop : Settling => loop.server.issuer = s.issuer ∧
    loop.server.policy = s.policy ∧ loop.server.recoveryEngine = s.recoveryEngine) ?_
    ⟨rfl, rfl, rfl⟩ _
  intro loop handled hloop
  obtain ⟨hissuer, hpolicy, hengine⟩ := loop.next_frame c bundle.tokens handled
  exact ⟨hissuer.trans hloop.1, hpolicy.trans hloop.2.1, hengine.trans hloop.2.2⟩

/-- A round keeps the agreement of the tables. -/
lemma Settling.tablesAgree_next {c : Crypto} {tokens : Dict String Token} {loop : Settling}
    (h : loop.server.TablesAgree) (handled : Transfer × Reading) :
    (loop.next c tokens handled).server.TablesAgree := by
  have htrivial : OnToken (fun _ _ _ => True) tokens loop handled := fun _ _ _ => trivial
  rcases Settling.next_server (c := c) htrivial with hsame | ⟨token, -, haccepts, haccept⟩
  · rwa [hsame]
  · rw [haccept]
    exact h.accept haccepts _

/-- A round that answers has settled the token of the bundle. -/
lemma Settling.exists_settle {c : Crypto} {tokens : Dict String Token} {loop : Settling}
    {handled : Transfer × Reading} {results : List SettlementRecord} {record : SettlementRecord}
    (hresults : loop.results = .ok results)
    (hnext : (loop.next c tokens handled).results = .ok (results ++ [record])) :
    ∃ token, loop.server.settle c handled.1 token handled.2
      = .ok ((loop.next c tokens handled).server, record) := by
  simp only [Settling.next, hresults] at hnext ⊢
  split at hnext
  · cases hnext
  · rename_i token htoken
    split at hnext
    · cases hnext
    · rename_i server record' hsettle
      obtain rfl : record' = record := by simpa using hnext
      exact ⟨token, hsettle⟩

/-- A round that answers with another status than `ACCEPTED` changes nothing. -/
lemma Settling.next_of_refused {c : Crypto} {tokens : Dict String Token} {loop : Settling}
    {handled : Transfer × Reading} {results : List SettlementRecord} {record : SettlementRecord}
    (hresults : loop.results = .ok results)
    (hnext : (loop.next c tokens handled).results = .ok (results ++ [record]))
    (hrefused : record.status ≠ .accepted) : (loop.next c tokens handled).server = loop.server := by
  obtain ⟨token, hsettle⟩ := exists_settle hresults hnext
  rcases settle_cases hsettle with ⟨hsame, -⟩ | ⟨-, -, haccepted⟩
  · exact hsame
  · exact absurd (congrArg SettlementRecord.status haccepted) hrefused

/-- The loop keeps the agreement of the tables. -/
lemma ReconciliationServer.TablesAgree.runFrom_next {c : Crypto} {s : ReconciliationServer}
    (h : s.TablesAgree) (tokens : Dict String Token) (l : List (Transfer × Reading)) :
    (runFrom (Settling.next c tokens) ⟨s, .ok []⟩ l).server.TablesAgree :=
  runFrom_invariant (I := fun loop : Settling => loop.server.TablesAgree)
    (fun _ handled h => Settling.tablesAgree_next h handled) h l

namespace ServerRun

lemma tablesAgree_step {c : Crypto} {run : ServerRun} (h : run.server.TablesAgree)
    (e : ServerEvent) : (run.step c e).server.TablesAgree := by
  rcases run.step_tables c e with hsame | ⟨bundle, readings, rfl, hbundle⟩
  · exact h.of_tables_eq hsame
  · rw [hbundle]
    exact h.runFrom_next _ _

lemma tablesAgree_runFrom (c : Crypto) (issuer : Issuer) (policy : PolicyConfig) (time : Int)
    (es : List ServerEvent) :
    (runFrom (step c) (start issuer policy time) es).server.TablesAgree :=
  runFrom_invariant (I := fun run : ServerRun => run.server.TablesAgree)
    (fun _ e h => tablesAgree_step h e) (tablesAgree_new issuer policy) es

/-- In every state that a run reaches, also in the middle of a bundle, the settlement tables agree,
and a refused transfer changes none of them. -/
theorem tables_agree (c : Crypto) (issuer : Issuer) (policy : PolicyConfig) (time : Int)
    (es : List ServerEvent) (bundle : PaymentBundle) (readings : Nat → Reading) (rounds : Nat) :
    let s := (runFrom (step c) (start issuer policy time) es).server
    let loop := s.settling c bundle readings rounds
    s.TablesAgree ∧ loop.server.TablesAgree ∧
      ∀ handled results record, loop.results = .ok results →
        (loop.next c bundle.tokens handled).results = .ok (results ++ [record]) →
          record.status = .doubleSpend ∨ record.status = .policyViolation →
            (loop.next c bundle.tokens handled).server.tables = loop.server.tables := by
  intro s loop
  have hagree : s.TablesAgree := tablesAgree_runFrom c issuer policy time es
  refine ⟨hagree, hagree.runFrom_next bundle.tokens _, ?_⟩
  intro handled results record hresults hnext hrefused
  have hstatus : record.status ≠ .accepted := by
    rcases hrefused with hstatus | hstatus <;> simp [hstatus]
  exact congrArg tables (Settling.next_of_refused hresults hnext hstatus)

end ServerRun

/-- Of two transfers of one token in one bundle, the first one settles. -/
example : ((new (plainIssuer.mintToken plainCrypto "alice" 100 ⟨"t1", 1000000000, 1000000000⟩).1
    .default).processBundle plainCrypto
      (plainBundle [plainTransfer "x1" "t1" "alice" "bob", plainTransfer "x2" "t1" "alice" "carol"]
        [plainToken "t1" "alice"]) fun _ => ⟨1001000000, 1001000000⟩).server.acceptedTransfers.map
          (fun q => q.1.transferId) = ["x1"] := by
  decide

end PocketCash.Offline
