import PocketCash.Offline.Run

/-!
# One settlement per minted token

A token resolves to the issued token its `origin_token_id` names, while the tables that detect
double spends are keyed by its `token_id`. So two transfers of one minted token are both accepted
if the submitted tokens carry two ids, and at most one is accepted if they do not.
-/

namespace PocketCash.Offline

namespace ReconciliationServer

/-- The accepted transfers whose token resolves to the issued token `root`. -/
def acceptedFor (s : ReconciliationServer) (root : String) : List (Transfer × Token) :=
  s.acceptedTransfers.filter fun q => q.2.origin = root

/-- No accepted token resolves to the same issued token under another id. -/
def OneIdPerRoot (s : ReconciliationServer) (_ : Transfer) (token : Token) : Prop :=
  ∀ q ∈ s.acceptedTransfers, q.2.origin = token.origin → q.2.tokenId = token.tokenId
  deriving Decidable

/-- What a run keeps: the accepted tokens are in the ledger, and resolve to different roots. -/
structure OneSettlement (s : ReconciliationServer) : Prop where
  recorded : ∀ q ∈ s.acceptedTransfers, q.2.tokenId ∈ s.ledger.keys
  roots : (s.acceptedTransfers.map fun q => q.2.origin).Nodup

lemma oneSettlement_new (issuer : Issuer) (policy : PolicyConfig) :
    (new issuer policy).OneSettlement := ⟨by simp [new], by simp [new]⟩

/-- Minting and recovery do not touch the tables. -/
lemma OneSettlement.of_tables_eq {s s' : ReconciliationServer} (htables : s'.tables = s.tables)
    (h : s.OneSettlement) : s'.OneSettlement := by
  simp only [tables, Prod.mk.injEq] at htables
  obtain ⟨hledger, -, -, haccepted, -⟩ := htables
  exact ⟨by rw [haccepted, hledger]; exact h.recorded, by rw [haccepted]; exact h.roots⟩

lemma OneSettlement.accept {c : Crypto} {s : ReconciliationServer} {transfer : Transfer}
    {token : Token} {now : Int} (h : s.OneSettlement) (hid : s.OneIdPerRoot transfer token)
    (haccepts : s.Accepts c transfer token now) (settledAt : Int) :
    (s.accept c transfer token settledAt).OneSettlement where
  recorded := by
    simp only [ReconciliationServer.accept, List.forall_mem_append, List.forall_mem_singleton,
      Dict.mem_keys_set]
    exact ⟨fun q hq => .inr (h.recorded q hq), .inl trivial⟩
  roots := by
    rw [ReconciliationServer.accept, List.map_append, List.nodup_append]
    refine ⟨h.roots, List.nodup_singleton _, ?_⟩
    -- an accepted token with this root has this id, which is then settled already
    rintro root hroot _ hsame rfl
    obtain ⟨q, hq, rfl⟩ := List.mem_map.mp hroot
    have horigin : q.2.origin = token.origin := List.mem_singleton.mp hsame
    exact haccepts.unsettled (hid q hq horigin ▸ h.recorded q hq)

end ReconciliationServer

namespace ServerRun

open ReconciliationServer

/-- If no two accepted tokens claim one root under different ids, at most one transfer is accepted
for each minted token. -/
theorem accepted_once_per_root {c : Crypto} {issuer : Issuer} {policy : PolicyConfig} {time : Int}
    {es : List ServerEvent}
    (hrun : Along (step c) (OnTokens c OneIdPerRoot) (start issuer policy time) es) (root : String) :
    ((runFrom (step c) (start issuer policy time) es).server.acceptedFor root).length ≤ 1 := by
  have hinv := tables_invariant hrun (oneSettlement_new issuer policy)
    (fun _ _ => OneSettlement.of_tables_eq)
    fun _ _ _ reading hs hid haccepts => hs.accept hid haccepts reading.settledAt
  exact length_filter_key_le_one hinv.roots root

/-- Alice pays Bob with the minted token, which he deposits twice. -/
def plainDeposits : List ServerEvent :=
  [.mint "alice" 100 ⟨"t1", 1000000000, 1000000000⟩,
    .bundle (plainBundle [plainTransfer "x1" "t1" "alice" "bob"] [plainToken "t1" "alice"])
      fun _ => ⟨1001000000, 1001000000⟩,
    .bundle (plainBundle [plainTransfer "x1" "t1" "alice" "bob"] [plainToken "t1" "alice"])
      fun _ => ⟨1002000000, 1002000000⟩]

theorem accepted_once_plainDeposits :
    ((runFrom (step plainCrypto) (start plainIssuer .default 0) plainDeposits).server.acceptedFor
      "t1").length ≤ 1 :=
  accepted_once_per_root (by decide +kernel) "t1"

/-- The same with a copy of the token under another id. -/
def copiedDeposits : List ServerEvent :=
  [.mint "alice" 100 ⟨"t1", 1000000000, 1000000000⟩,
    .bundle (plainBundle [plainTransfer "x1" "t1" "alice" "bob"] [plainToken "t1" "alice"])
      fun _ => ⟨1001000000, 1001000000⟩,
    .bundle (plainBundle [plainTransfer "x2" "copy" "alice" "carol"]
        [{ plainToken "t1" "alice" with tokenId := "copy" }])
      fun _ => ⟨1002000000, 1002000000⟩]

/-- The server accepts both transfers of the one minted token. -/
theorem accepted_twice_copiedDeposits :
    ((runFrom (step plainCrypto) (start plainIssuer .default 0) copiedDeposits).server.acceptedFor
      "t1").map (fun q => q.1.receiverPk) = ["bob", "carol"] := by
  decide +kernel

end ServerRun

end PocketCash.Offline
