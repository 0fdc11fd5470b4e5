import PocketCash.Offline.Network
import PocketCash.Offline.Tables

/-!
# Settlement of honest circulation

Honest wallets circulate tokens, and their bundles are submitted for settlement in the order in
which they were made, each at most once. The ledger has one entry for a token, so a second hop of a
token is reported as a double spend, also if it continues the hop that was settled.
-/

namespace PocketCash.Offline

namespace ReconciliationServer

/-! ### When a transfer is a double spend -/

/-- What a transfer passed before the server looks for double spends. -/
structure Screened (c : Crypto) (s : ReconciliationServer) (transfer : Transfer) (token : Token) :
    Prop where
  signed : verifyTransfer c transfer = true
  root : s.verifyIssuerRoot c token = true
  hops : transfer.hopCount ≤ s.policy.maxHops
  nonce : transfer.nonce ≤ s.policy.maxHops
  parent : transfer.parentTransferId = token.lastTransferId
  parentHash : transfer.parentTransferHash = token.lastTransferHash
  prevHash : transfer.prevTransferHash = token.lastTransferHash

section judge

variable {c : Crypto} {s : ReconciliationServer} {transfer : Transfer} {token : Token}

lemma exists_reason_of_ite {p : Prop} [Decidable p] {reason : Reason}
    {k : Except PyError (Status × Reason)}
    (h : ¬ p → ∃ reason, k = .ok (.policyViolation, reason)) :
    ∃ reason', (if p then .ok (.policyViolation, reason) else k) = .ok (.policyViolation, reason') := by
  by_cases hp : p
  · exact ⟨reason, if_pos hp⟩
  · rw [if_neg hp]
    exact h hp

lemma judge_of_not_screened (h : ¬ s.Screened c transfer token) (now : Int) :
    ∃ reason, s.judge c transfer token now = .ok (.policyViolation, reason) := by
  simp only [judge, pure_eq_ok]
  apply exists_reason_of_ite
  intro hsigned
  apply exists_reason_of_ite
  intro hroot
  apply exists_reason_of_ite
  intro hhops
  apply exists_reason_of_ite
  intro hnonce
  apply exists_reason_of_ite
  intro hparent
  apply exists_reason_of_ite
  intro hparentHash
  apply exists_reason_of_ite
  intro hprevHash
  exact absurd ⟨by simpa using hsigned, by simpa using hroot, Int.not_lt.mp hhops,
    Int.not_lt.mp hnonce, not_not.mp hparent, not_not.mp hparentHash, not_not.mp hprevHash⟩ h

/-- What is left to decide about a screened transfer. -/
lemma judge_of_screened (h : s.Screened c transfer token) (now : Int) :
    s.judge c transfer token now =
      if (s.acceptedChains.get? token.tokenId).any fun chain => chain ≠ transfer.chainKey then
        .ok (.doubleSpend, .conflictingChain)
      else if token.tokenId ∈ s.ledger.keys then .ok (.doubleSpend, .tokenAlreadySettled)
      else (transfer.sentSince (s.recoveryEngine.revokedWallets.get? transfer.senderPk)) >>=
        fun sentRevoked =>
          if sentRevoked then .ok (.policyViolation, .revokedSender)
          else if wholeSeconds now - token.issueTimestamp > s.policy.tokenExpirySeconds then
            .ok (.policyViolation, .tokenExpired)
          else .ok (.accepted, .ok) := by
  simp only [judge, pure_eq_ok]
  rw [if_neg (by simp [h.signed]), if_neg (by simp [h.root]), if_neg (Int.not_lt.mpr h.hops),
    if_neg (Int.not_lt.mpr h.nonce), if_neg (not_not.mpr h.parent), if_neg (not_not.mpr h.parentHash),
    if_neg (not_not.mpr h.prevHash)]
  rfl

/-- A screened transfer of a settled token is a double spend, with one reason or the other. -/
lemma judge_of_settled (h : s.Screened c transfer token) (hsettled : token.tokenId ∈ s.ledger.keys)
    (now : Int) : ∃ reason, s.judge c transfer token now = .ok (.doubleSpend, reason) := by
  rw [judge_of_screened h, if_pos hsettled]
  split_ifs with hconflict
  · exact ⟨_, rfl⟩
  · exact ⟨_, rfl⟩

/-- A transfer of a token that is not settled is never a double spend. -/
lemma judge_of_unsettled (hagree : s.TablesAgree) (hunsettled : token.tokenId ∉ s.ledger.keys)
    (haware : transfer.timestamp.utcOffset.isSome = true) (h : s.Screened c transfer token)
    (now : Int) : ∃ status reason, s.judge c transfer token now = .ok (status, reason) ∧
      status ≠ .doubleSpend := by
  have hchain : s.acceptedChains.get? token.tokenId = none := by
    rw [Dict.get?_eq_none_iff, hagree.chains, ← hagree.ledger]
    exact hunsettled
  obtain ⟨sentRevoked, hsent⟩ : ∃ b, transfer.sentSince
      (s.recoveryEngine.revokedWallets.get? transfer.senderPk) = .ok b := by
    obtain ⟨offset, hoffset⟩ := Option.isSome_iff_exists.mp haware
    cases s.recoveryEngine.revokedWallets.get? transfer.senderPk with
    | none => exact ⟨_, rfl⟩
    | some revokedAt => exact ⟨_, by rw [Transfer.sentSince, Datetime.notBefore, hoffset]⟩
  rw [judge_of_screened h, hchain, Option.any_none, if_neg Bool.false_ne_true, if_neg hunsettled,
    hsent, ok_bind]
  split_ifs <;> exact ⟨_, _, rfl, by decide⟩

/-- A round answers `DOUBLE_SPEND` exactly if the transfer is screened and its token settled. -/
lemma exists_settle_doubleSpend_iff {reading : Reading} (hagree : s.TablesAgree)
    (haware : transfer.timestamp.utcOffset.isSome = true) :
    ∃ s' record, s.settle c transfer token reading = .ok (s', record) ∧
      (record.status = .doubleSpend ↔
        s.Screened c transfer token ∧ token.tokenId ∈ s.ledger.keys) := by
  by_cases hdouble : s.Screened c transfer token ∧ token.tokenId ∈ s.ledger.keys
  · obtain ⟨reason, hjudge⟩ := judge_of_settled hdouble.1 hdouble.2 reading.now
    exact ⟨_, _, by rw [settle, hjudge]; rfl, by simp [hdouble]⟩
  · obtain ⟨status, reason, hjudge, hstatus⟩ : ∃ status reason,
        s.judge c transfer token reading.now = .ok (status, reason) ∧ status ≠ .doubleSpend := by
      by_cases hscreened : s.Screened c transfer token
      · exact judge_of_unsettled hagree (fun hsettled => hdouble ⟨hscreened, hsettled⟩) haware
          hscreened reading.now
      · obtain ⟨reason, hjudge⟩ := judge_of_not_screened hscreened reading.now
        exact ⟨_, _, hjudge, by decide⟩
    cases status with
    | accepted => exact ⟨_, _, by rw [settle, hjudge]; rfl, by simp [hdouble]⟩
    | policyViolation => exact ⟨_, _, by rw [settle, hjudge]; rfl, by simp [hdouble]⟩
    | doubleSpend => exact absurd rfl hstatus

end judge

/-- The transfer passes the screening, and its token is settled already. -/
def Resubmits (c : Crypto) (s : ReconciliationServer) (tokens : Dict String Token)
    (transfer : Transfer) : Prop :=
  ∃ token, tokens.get? transfer.tokenId = some token ∧ s.Screened c transfer token ∧
    token.tokenId ∈ s.ledger.keys

/-- Accepting a token does not matter for transfers of other tokens. -/
lemma resubmits_accept_iff {c : Crypto} {s : ReconciliationServer} {tokens : Dict String Token}
    {transfer other : Transfer} {token token' : Token} {settledAt : Int}
    (htoken : tokens.get? other.tokenId = some token') (hne : token'.tokenId ≠ token.tokenId) :
    (s.accept c transfer token settledAt).Resubmits c tokens other ↔ s.Resubmits c tokens other := by
  have hscreened : (s.accept c transfer token settledAt).Screened c other token' ↔
      s.Screened c other token' := ⟨fun h => { h with }, fun h => { h with }⟩
  have hledger : token'.tokenId ∈ (s.accept c transfer token settledAt).ledger.keys ↔
      token'.tokenId ∈ s.ledger.keys := by
    rw [accept, Dict.mem_keys_set]
    exact or_iff_right hne
  simp only [Resubmits, htoken, Option.some.injEq, exists_eq_left', hscreened, hledger]

/-- The loop reports a double spend exactly if some transfer resubmits a token that was settled
before the loop, provided each token occurs once. -/
lemma exists_results_doubleSpend_iff {c : Crypto} {tokens : Dict String Token} {loop : Settling}
    {results : List SettlementRecord} {l : List (Transfer × Reading)}
    (hresults : loop.results = .ok results) (hagree : loop.server.TablesAgree)
    (htokens : ∀ handled ∈ l, ∃ token, tokens.get? handled.1.tokenId = some token ∧
      token.tokenId = handled.1.tokenId)
    (haware : ∀ handled ∈ l, handled.1.timestamp.utcOffset.isSome = true)
    (hnodup : (l.map fun handled => handled.1.tokenId).Nodup) :
    ∃ more, (runFrom (Settling.next c tokens) loop l).results = .ok (results ++ more) ∧
      ((∃ record ∈ more, record.status = .doubleSpend) ↔
        ∃ handled ∈ l, loop.server.Resubmits c tokens handled.1) := by
  induction l generalizing loop results with
  | nil => exact ⟨[], by simp [hresults], by simp⟩
  | cons handled l ih =>
    rw [List.forall_mem_cons] at htokens haware
    rw [List.map_cons, List.nodup_cons] at hnodup
    obtain ⟨token, htoken, hid⟩ := htokens.1
    obtain ⟨s', record, hsettle, hstatus⟩ :=
      @exists_settle_doubleSpend_iff c loop.server handled.1 token handled.2 hagree haware.1
    have hnext : loop.next c tokens handled = ⟨s', .ok (results ++ [record])⟩ := by
      simp only [Settling.next, hresults, htoken, hsettle]
    have hrest : s'.TablesAgree ∧ ∀ other ∈ l,
        (s'.Resubmits c tokens other.1 ↔ loop.server.Resubmits c tokens other.1) := by
      rcases settle_cases hsettle with ⟨rfl, -⟩ | ⟨haccepts, rfl, -⟩
      · exact ⟨hagree, fun _ _ => Iff.rfl⟩
      · refine ⟨hagree.accept haccepts _, ?_⟩
        intro other hother
        obtain ⟨token', htoken', hid'⟩ := htokens.2 other hother
        apply resubmits_accept_iff htoken'
        intro hsame
        apply hnodup.1
        rw [← hid, ← hsame, hid']
        exact List.mem_map_of_mem hother
    have hresults' : (⟨s', .ok (results ++ [record])⟩ : Settling).results
        = .ok (results ++ [record]) := rfl
    obtain ⟨more, hmore, hiff⟩ := ih hresults' hrest.1 htokens.2 haware.2 hnodup.2
    refine ⟨record :: more, by rw [runFrom_cons, hnext, hmore, List.append_assoc]; rfl, ?_⟩
    simp only [List.exists_mem_cons_iff, hiff, hstatus]
    refine or_congr ?_ (exists_congr fun other => and_congr_right (hrest.2 other))
    simp only [Resubmits, htoken, Option.some.injEq, exists_eq_left']

/-- An honest bundle raises nothing. -/
lemma exists_processBundle_doubleSpend_iff {c : Crypto} {s : ReconciliationServer}
    {bundle : PaymentBundle} (hagree : s.TablesAgree) (hhonest : bundle.Honest)
    (readings : Nat → Reading) :
    ∃ records, (s.processBundle c bundle readings).results = .ok records ∧
      ((∃ record ∈ records, record.status = .doubleSpend) ↔
        ∃ t ∈ bundle.transfers, s.Resubmits c bundle.tokens t) := by
  have hmap : (bundle.handled readings).map Prod.fst = bundle.transfers := by
    rw [PaymentBundle.handled, map_mapIdx]
    exact (mapIdx_eq_map id bundle.transfers).trans (List.map_id _)
  have hmem : ∀ handled ∈ bundle.handled readings, handled.1 ∈ bundle.transfers := fun _ h =>
    hmap ▸ List.mem_map_of_mem h
  have hnodup : ((bundle.handled readings).map fun handled => handled.1.tokenId).Nodup := by
    have hids := hhonest.nodup
    rwa [← hmap, List.map_map] at hids
  have hstart : (⟨s, .ok []⟩ : Settling).results = .ok [] := rfl
  obtain ⟨records, hrecords, hiff⟩ := exists_results_doubleSpend_iff (c := c) hstart hagree
    (fun _ h => hhonest.tokens _ (hmem _ h)) (fun _ h => hhonest.aware _ (hmem _ h)) hnodup
  refine ⟨records, hrecords, hiff.trans ?_⟩
  constructor
  · rintro ⟨handled, hhandled, hresubmits⟩
    exact ⟨handled.1, hmem _ hhandled, hresubmits⟩
  · rintro ⟨t, ht, hresubmits⟩
    obtain ⟨handled, hhandled, rfl⟩ := List.mem_map.mp (hmap ▸ ht)
    exact ⟨handled, hhandled, hresubmits⟩

end ReconciliationServer

/-! ### Circulation and settlement -/

/-- A network of wallets and the server that settles their bundles. The bundles from `cursor` on are
not submitted yet. -/
structure Circulation where
  network : Network
  server : ReconciliationServer
  cursor : Nat
  records : List SettlementRecord

/-- A call in the network, or the submission of the next bundle after `skipped` ones that are never
submitted. -/
inductive CirculationEvent
  | network (e : NetworkEvent)
  | submit (skipped : Nat) (readings : Nat → Reading)

namespace Circulation

open ReconciliationServer

def start (issuer : Issuer) (policy : PolicyConfig)
    (members : Dict String (String × PolicyConfig)) : Circulation :=
  ⟨.start issuer members, .new issuer policy, 0, []⟩

/-- The bundle that the event submits. -/
def submitted (s : Circulation) : CirculationEvent → Option PaymentBundle
  | .network _ => none
  | .submit skipped _ => s.network.emitted[s.cursor + skipped]?

/-- The issuer of the network is the server's. -/
def step (c : Crypto) (s : Circulation) : CirculationEvent → Circulation
  | .network e =>
    let network := s.network.step c e
    { s with network := network, server := { s.server with issuer := network.issuer } }
  | .submit skipped readings =>
    match s.network.emitted[s.cursor + skipped]? with
    | none => s
    | some bundle =>
      let loop := s.server.processBundle c bundle readings
      { s with
        server := loop.server
        cursor := s.cursor + skipped + 1
        records := s.records ++
          match loop.results with
          | .ok records => records
          | .error _ => [] }

/-- No settlement record reports a double spend. -/
def NoDoubleSpend (s : Circulation) : Prop := ∀ record ∈ s.records, record.status ≠ .doubleSpend

/-- No transfer of a submitted bundle passes the screening while its token has an accepted hop. -/
def Unsettled (c : Crypto) (s : Circulation) (e : CirculationEvent) : Prop :=
  ∀ bundle ∈ s.submitted e, ∀ t ∈ bundle.transfers, ¬ s.server.Resubmits c bundle.tokens t

/-- What a run keeps. -/
structure Inv (s : Circulation) : Prop where
  agree : s.server.TablesAgree
  honest : ∀ bundle ∈ s.network.emitted, bundle.Honest

variable {c : Crypto} {s : Circulation}

lemma Inv.step (h : s.Inv) (e : CirculationEvent) : (s.step c e).Inv := by
  cases e with
  | network e =>
    have htables : (s.step c (.network e)).server.tables = s.server.tables := rfl
    exact ⟨h.agree.of_tables_eq htables, Network.honest_step h.honest e⟩
  | submit skipped readings =>
    rw [Circulation.step]
    split
    · exact h
    · exact ⟨h.agree.runFrom_next _ _, h.honest⟩

/-- A submission is answered with a double spend exactly if it resubmits a settled token. -/
lemma noDoubleSpend_step_iff (h : s.Inv) (e : CirculationEvent) :
    (s.step c e).NoDoubleSpend ↔ s.NoDoubleSpend ∧ s.Unsettled c e := by
  cases e with
  | network e => simp [NoDoubleSpend, Unsettled, submitted, step]
  | submit skipped readings =>
    rw [NoDoubleSpend, step, Unsettled, submitted]
    split
    · rename_i hnone
      simp [hnone, NoDoubleSpend]
    · rename_i bundle hbundle
      obtain ⟨records, hrecords, hiff⟩ := exists_processBundle_doubleSpend_iff (c := c) h.agree
        (h.honest bundle (List.mem_of_getElem? hbundle)) readings
      simp only [hrecords, hbundle, List.forall_mem_append, Option.mem_some_iff, forall_eq',
        NoDoubleSpend]
      apply and_congr_right
      intro _
      simpa only [not_exists, not_and] using not_congr hiff

lemma noDoubleSpend_runFrom_iff (h : s.Inv) (es : List CirculationEvent) :
    (runFrom (step c) s es).NoDoubleSpend ↔
      s.NoDoubleSpend ∧ Along (step c) (Unsettled c) s es := by
  induction es generalizing s with
  | nil => simp
  | cons e es ih =>
    rw [runFrom_cons, ih (h.step e), noDoubleSpend_step_iff h, Along.cons_iff, and_assoc]

/-- Honest circulation is reported as a double spend exactly if some hop of a token is submitted
after another hop of it was settled. -/
theorem no_double_spend_iff (c : Crypto) (issuer : Issuer) (policy : PolicyConfig)
    (members : Dict String (String × PolicyConfig)) (es : List CirculationEvent) :
    (runFrom (step c) (start issuer policy members) es).NoDoubleSpend ↔
      Along (step c) (Unsettled c) (start issuer policy members) es := by
  have hstart : (start issuer policy members).Inv :=
    ⟨tablesAgree_new issuer policy, by simp [start, Network.start]⟩
  rw [noDoubleSpend_runFrom_iff hstart]
  exact and_iff_right (by simp [start, NoDoubleSpend])

/-- Alice pays Bob, who pays Carol; each payment is submitted when it is made. -/
def twoHops : List CirculationEvent :=
  [.network (.mint "alice" 100 ⟨"t1", 1000000000, 1000000000⟩), .network (.hand "t1"),
    .network (Network.plainPayment "alice" "bob" "x1"), .network (Network.plainDelivery 0 "bob"),
    .submit 0 fun _ => ⟨1003000000, 1003000000⟩,
    .network (Network.plainPayment "bob" "carol" "x2"), .network (Network.plainDelivery 1 "carol"),
    .submit 0 fun _ => ⟨1004000000, 1004000000⟩]

/-- The second hop is reported as a double spend. -/
theorem double_spend_twoHops :
    (runFrom (step plainCrypto) (start plainIssuer .default Network.plainMembers) twoHops).records
      = [⟨"t1", "x1", .accepted, .ok⟩, ⟨"t1", "x2", .doubleSpend, .conflictingChain⟩] ∧
    ¬ (runFrom (step plainCrypto) (start plainIssuer .default Network.plainMembers)
      twoHops).NoDoubleSpend := by
  have hrecords : (runFrom (step plainCrypto) (start plainIssuer .default Network.plainMembers)
      twoHops).records
        = [⟨"t1", "x1", .accepted, .ok⟩, ⟨"t1", "x2", .doubleSpend, .conflictingChain⟩] := by
    decide +kernel
  refine ⟨hrecords, ?_⟩
  intro h
  rw [NoDoubleSpend, hrecords] at h
  exact absurd h (by decide)

end Circulation

end PocketCash.Offline
