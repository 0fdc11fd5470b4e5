import PocketCash.Dpc.LedgerStorage

/-!
# Settlements and conflicts

Whatever is minted, claimed, claimed in batches, saved and loaded, the four tables of the issuer
ledger agree: settled ids were minted, a settlement stays as it is, and the blacklist and the pending
claims record exactly the claims that came after somebody else's. A ledger loaded from an old file
continues the run of the ledger that was saved there.
-/

namespace PocketCash.Dpc

namespace IssuerLedger

/-- The tables agree. -/
structure Consistent (ledger : IssuerLedger) : Prop where
  settled_minted : ∀ k ∈ ledger.settled.keys, k ∈ ledger.minted.keys
  blacklist_iff : ∀ pubkey, pubkey ∈ ledger.blacklist ↔
    ∃ k claims, ledger.pending.get? k = some claims ∧ ∃ p ∈ claims, p.claimerPubkey = pubkey
  pending_conflict : ∀ k claims, ledger.pending.get? k = some claims →
    ∃ settlement, ledger.settled.get? k = some settlement ∧
      ∀ p ∈ claims, p.claimerPubkey ≠ settlement.claimerPubkey

/-- No settlement is lost or changed. -/
def Keeps (ledger ledger' : IssuerLedger) : Prop :=
  ∀ k settlement, ledger.settled.get? k = some settlement →
    ledger'.settled.get? k = some settlement

lemma consistent_new : new.Consistent where
  settled_minted := by simp [new]
  blacklist_iff := by simp [new]
  pending_conflict := by simp [new]

/-! ### Calls -/

/-- All a call of `settle_token` can do. -/
lemma settleToken_cases (c : Crypto) (ledger : IssuerLedger) (claimerPubkeyHex : String)
    (token : Token) (chain : List TransferRecord) (now : Int) :
    (∃ e, ledger.settleToken c claimerPubkeyHex token chain now = (ledger, .error e)) ∨
    (∃ existing, ledger.settled.get? token.tokenId = some existing ∧
      existing.claimerPubkey = claimerPubkeyHex ∧
      ledger.settleToken c claimerPubkeyHex token chain now = (ledger, .ok existing)) ∨
    (∃ existing, ledger.settled.get? token.tokenId = some existing ∧
      existing.claimerPubkey ≠ claimerPubkeyHex ∧
      ledger.settleToken c claimerPubkeyHex token chain now
        = ({ ledger with
              blacklist := insert claimerPubkeyHex ledger.blacklist
              pending := ledger.pending.set token.tokenId
                ((ledger.pending.get? token.tokenId).getD [] ++
                  [⟨claimerPubkeyHex, chain.length, now⟩]) },
            .error (.dpc .firstClaimConflict "First valid claim already settled this token"))) ∨
    (token.tokenId ∈ ledger.minted.keys ∧ ledger.settled.get? token.tokenId = none ∧
      ledger.settleToken c claimerPubkeyHex token chain now
        = ({ ledger with
              settled := ledger.settled.set token.tokenId
                ⟨token.tokenId, claimerPubkeyHex, chain.length, now⟩ },
            .ok ⟨token.tokenId, claimerPubkeyHex, chain.length, now⟩)) := by
  rw [settleToken]
  by_cases hminted : token.tokenId ∈ ledger.minted.keys
  swap
  · exact .inl ⟨_, if_pos hminted⟩
  rw [if_neg (not_not.mpr hminted)]
  cases validateIntegrity c token chain with
  | error e => exact .inl ⟨e, rfl⟩
  | ok u =>
    cases chain.getLast? with
    | none => exact .inl ⟨_, rfl⟩
    | some tip =>
      by_cases hclaimer : tip.receiverPubkeyHex = claimerPubkeyHex
      swap
      · exact .inl ⟨_, if_pos hclaimer⟩
      dsimp only
      rw [if_neg (not_not.mpr hclaimer)]
      cases hsettled : ledger.settled.get? token.tokenId with
      | none => exact .inr (.inr (.inr ⟨hminted, rfl, rfl⟩))
      | some existing =>
        by_cases hsame : existing.claimerPubkey = claimerPubkeyHex
        · exact .inr (.inl ⟨existing, rfl, hsame, if_pos hsame⟩)
        · exact .inr (.inr (.inl ⟨existing, rfl, hsame, if_neg hsame⟩))

/-- A repeated claim that passes the checks is answered with the settlement. -/
lemma settleToken_repeat {c : Crypto} {ledger : IssuerLedger} {token : Token}
    {chain : List TransferRecord} {now : Int} {settlement : Settlement} {tip : TransferRecord}
    (hminted : token.tokenId ∈ ledger.minted.keys) (hvalid : ChainValid c token chain)
    (htip : chain.getLast? = some tip) (hclaimer : tip.receiverPubkeyHex = settlement.claimerPubkey)
    (hsettled : ledger.settled.get? token.tokenId = some settlement) :
    ledger.settleToken c settlement.claimerPubkey token chain now = (ledger, .ok settlement) := by
  rw [settleToken, if_neg (not_not.mpr hminted), validateIntegrity_eq_ok_iff.mpr hvalid, htip]
  simp [hclaimer, hsettled]

lemma keeps_settleToken (c : Crypto) (ledger : IssuerLedger) (claimerPubkeyHex : String)
    (token : Token) (chain : List TransferRecord) (now : Int) :
    ledger.Keeps (ledger.settleToken c claimerPubkeyHex token chain now).1 := by
  intro k settlement hk
  rcases ledger.settleToken_cases c claimerPubkeyHex token chain now with
    ⟨e, h⟩ | ⟨existing, -, -, h⟩ | ⟨existing, -, -, h⟩ | ⟨-, hnew, h⟩ <;> rw [h]
  · exact hk
  · exact hk
  · exact hk
  · rw [Dict.get?_set, if_neg, hk]
    rintro rfl
    rw [hnew] at hk
    cases hk

/-- A later claim of somebody else is pending, and its claimer on the blacklist. -/
lemma Consistent.flag {ledger : IssuerLedger} (h : ledger.Consistent) {k : String}
    {settlement : Settlement} (hsettled : ledger.settled.get? k = some settlement)
    {claim : PendingClaim} (hother : claim.claimerPubkey ≠ settlement.claimerPubkey) :
    Consistent { ledger with
      blacklist := insert claim.claimerPubkey ledger.blacklist
      pending := ledger.pending.set k ((ledger.pending.get? k).getD [] ++ [claim]) } := by
  refine ⟨h.settled_minted, ?_, ?_⟩
  · intro pubkey
    rw [Finset.mem_insert, h.blacklist_iff]
    constructor
    · rintro (rfl | ⟨k', claims, hk', p, hp, rfl⟩)
      · obtain ⟨claims, hclaims, hclaim⟩ :=
          (Dict.exists_mem_set_append (d := ledger.pending)).mpr (.inr ⟨rfl, rfl⟩)
        exact ⟨k, claims, hclaims, claim, hclaim, rfl⟩
      · obtain ⟨claims', hclaims', hp'⟩ := Dict.exists_mem_set_append.mpr (.inl ⟨claims, hk', hp⟩)
        exact ⟨k', claims', hclaims', p, hp', rfl⟩
    · rintro ⟨k', claims, hk', p, hp, rfl⟩
      rcases Dict.exists_mem_set_append.mp ⟨claims, hk', hp⟩ with ⟨claims', hclaims', hp'⟩ | ⟨-, rfl⟩
      · exact .inr ⟨k', claims', hclaims', p, hp', rfl⟩
      · exact .inl rfl
  · intro k' claims hk'
    by_cases hk : k' = k
    · subst hk
      refine ⟨settlement, hsettled, ?_⟩
      intro p hp
      rcases Dict.exists_mem_set_append.mp ⟨claims, hk', hp⟩ with ⟨claims', hclaims', hp'⟩ | ⟨-, rfl⟩
      · obtain ⟨settlement', hsettled', hconflict⟩ := h.pending_conflict _ _ hclaims'
        obtain rfl := Option.some.inj (hsettled.symm.trans hsettled')
        exact hconflict p hp'
      · exact hother
    · rw [Dict.get?_set, if_neg hk] at hk'
      exact h.pending_conflict k' claims hk'

/-- The first claim to a minted id is settled. -/
lemma Consistent.settle {ledger : IssuerLedger} (h : ledger.Consistent) {k : String}
    (hminted : k ∈ ledger.minted.keys) (hnew : ledger.settled.get? k = none)
    (settlement : Settlement) :
    Consistent { ledger with settled := ledger.settled.set k settlement } := by
  refine ⟨?_, h.blacklist_iff, ?_⟩
  · intro k' hk'
    rcases Dict.mem_keys_set.mp hk' with rfl | hk'
    · exact hminted
    · exact h.settled_minted k' hk'
  · intro k' claims hk'
    obtain ⟨settlement', hsettled', hconflict⟩ := h.pending_conflict k' claims hk'
    refine ⟨settlement', ?_, hconflict⟩
    rw [Dict.get?_set, if_neg, hsettled']
    rintro rfl
    rw [hnew] at hsettled'
    cases hsettled'

lemma Consistent.settleToken {ledger : IssuerLedger} (h : ledger.Consistent) (c : Crypto)
    (claimerPubkeyHex : String) (token : Token) (chain : List TransferRecord) (now : Int) :
    (ledger.settleToken c claimerPubkeyHex token chain now).1.Consistent := by
  rcases ledger.settleToken_cases c claimerPubkeyHex token chain now with
    ⟨e, hcall⟩ | ⟨existing, -, -, hcall⟩ | ⟨existing, hsettled, hother, hcall⟩ |
      ⟨hminted, hnew, hcall⟩ <;> rw [hcall]
  · exact h
  · exact h
  · have hlater : (PendingClaim.mk claimerPubkeyHex chain.length now).claimerPubkey
        ≠ existing.claimerPubkey := hother.symm
    exact h.flag hsettled hlater
  · exact h.settle hminted hnew _

/-- What every call of `settle_token` keeps, `proxy_sync` keeps, also if it raises half-way. -/
lemma proxySync_invariant {c : Crypto} {I : IssuerLedger → Prop}
    (hsettle : ∀ ledger claimer token chain now, I ledger →
      I (settleToken c ledger claimer token chain now).1)
    {ledger : IssuerLedger} (h : I ledger) (proxyPubkeyHex : String)
    (submissions : List Submission) : I (proxySync c proxyPubkeyHex ledger submissions).1 := by
  obtain ⟨settled, -, hproxy⟩ := exists_settleAll_proxySync c proxyPubkeyHex ledger submissions
  rw [hproxy]
  exact runFrom_invariant (fun ledger s h => hsettle ledger _ _ _ _ h) h settled

lemma Consistent.mint {ledger : IssuerLedger} (h : ledger.Consistent) (k : String)
    (record : MintRecord) :
    Consistent { ledger with minted := ledger.minted.set k record } where
  settled_minted := fun k' hk' => Dict.mem_keys_set.mpr (.inr (h.settled_minted k' hk'))
  blacklist_iff := h.blacklist_iff
  pending_conflict := h.pending_conflict

lemma Consistent.of_same {ledger ledger' : IssuerLedger} (h : ledger.Consistent)
    (hsame : ledger.Same ledger') : ledger'.Consistent where
  settled_minted := by
    intro k
    rw [Dict.mem_keys_iff_get?, Dict.mem_keys_iff_get?, hsame.settled, hsame.minted,
      ← Dict.mem_keys_iff_get?, ← Dict.mem_keys_iff_get?]
    exact h.settled_minted k
  blacklist_iff := by
    intro pubkey
    simp only [hsame.blacklist, hsame.pending]
    exact h.blacklist_iff pubkey
  pending_conflict := by
    intro k claims
    rw [hsame.pending, hsame.settled]
    exact h.pending_conflict k claims

/-! ### Runs -/

/-- A call, or saving the ledger and loading it again. -/
inductive Call
  | mint (issuerKeypair : DPCKeyPair) (receiverPubkeyHex : String) (amountSubunits : Int)
      (draw : MintDraw)
  | settle (submission : Submission)
  | proxySync (proxyPubkeyHex : String) (submissions : List Submission)
  | reload (savedAt : String)

/-- The ledger after a call, which may have raised. -/
def call (c : Crypto) (ledger : IssuerLedger) : Call → IssuerLedger
  | .mint issuerKeypair receiverPubkeyHex amountSubunits draw =>
    (ledger.mintToken c issuerKeypair receiverPubkeyHex amountSubunits draw).1
  | .settle s => (ledger.settleToken c s.claimerPubkeyHex s.token s.chain s.now).1
  | .proxySync proxyPubkeyHex submissions => (ledger.proxySync c proxyPubkeyHex submissions).1
  | .reload savedAt =>
    match load (ledger.save savedAt) with
    | .ok ledger' => ledger'
    | .error _ => ledger

lemma Consistent.call {ledger : IssuerLedger} (h : ledger.Consistent) (c : Crypto) (e : Call) :
    (ledger.call c e).Consistent := by
  cases e with
  | mint issuerKeypair receiverPubkeyHex amountSubunits draw =>
    rw [IssuerLedger.call]
    rcases ledger.mintToken_cases c issuerKeypair receiverPubkeyHex amountSubunits draw with
      ⟨e, hmint⟩ | ⟨genesis, -, hmint⟩
    · rw [hmint]
      exact h
    · rw [hmint]
      exact h.mint _ _
  | settle s => exact h.settleToken ..
  | proxySync proxyPubkeyHex submissions =>
    exact proxySync_invariant (fun _ _ _ _ _ h => h.settleToken ..) h _ _
  | reload savedAt =>
    obtain ⟨ledger', hload, hsame⟩ := ledger.exists_load_save savedAt
    rw [IssuerLedger.call, hload]
    exact h.of_same hsame

lemma keeps_call (c : Crypto) (ledger : IssuerLedger) (e : Call) :
    ledger.Keeps (ledger.call c e) := by
  cases e with
  | mint issuerKeypair receiverPubkeyHex amountSubunits draw =>
    rw [call]
    rcases ledger.mintToken_cases c issuerKeypair receiverPubkeyHex amountSubunits draw with
      ⟨e, hmint⟩ | ⟨genesis, -, hmint⟩ <;> rw [hmint] <;> exact fun _ _ => id
  | settle s => exact keeps_settleToken c ledger _ _ _ _
  | proxySync proxyPubkeyHex submissions =>
    refine proxySync_invariant (I := fun ledger' => ledger.Keeps ledger') ?_ (fun _ _ => id) _ _
    intro ledger' claimer token chain now h k settlement hk
    exact keeps_settleToken c ledger' claimer token chain now k settlement (h k settlement hk)
  | reload savedAt =>
    obtain ⟨ledger', hload, hsame⟩ := ledger.exists_load_save savedAt
    rw [call, hload]
    exact fun k settlement hk => (hsame.settled k).trans hk

/-- The ledger after a run. -/
def afterCalls (c : Crypto) (es : List Call) : IssuerLedger := runFrom (call c) new es

lemma consistent_afterCalls (c : Crypto) (es : List Call) : (afterCalls c es).Consistent :=
  runFrom_invariant (I := Consistent) (fun _ e h => h.call c e) consistent_new es

lemma keeps_afterCalls (c : Crypto) (es later : List Call) :
    (afterCalls c es).Keeps (afterCalls c (es ++ later)) := by
  rw [afterCalls, afterCalls, runFrom_append]
  refine runFrom_invariant (I := fun ledger => Keeps (runFrom (call c) new es) ledger) ?_
    (fun _ _ => id) later
  intro ledger e h k settlement hk
  exact keeps_call c ledger e k settlement (h k settlement hk)

/-- In every reachable state the tables agree, and a settlement is never changed: a later claim for
the id by the same key that passes the checks is answered with it, and no other answer than it is
ever returned. -/
theorem first_claim_stands (c : Crypto) (es later : List Call) :
    (afterCalls c es).Consistent ∧
    ∀ k settlement, (afterCalls c es).settled.get? k = some settlement →
      (afterCalls c (es ++ later)).settled.get? k = some settlement ∧
      ∀ token chain now, token.tokenId = k →
        (ChainValid c token chain →
          (∃ tip, chain.getLast? = some tip ∧ tip.receiverPubkeyHex = settlement.claimerPubkey) →
          (afterCalls c (es ++ later)).settleToken c settlement.claimerPubkey token chain now
            = (afterCalls c (es ++ later), .ok settlement)) ∧
        ∀ claimerPubkeyHex result,
          ((afterCalls c (es ++ later)).settleToken c claimerPubkeyHex token chain now).2
            = .ok result → result = settlement ∧ claimerPubkeyHex = settlement.claimerPubkey := by
  refine ⟨consistent_afterCalls c es, ?_⟩
  intro k settlement hk
  have hlater := keeps_afterCalls c es later k settlement hk
  refine ⟨hlater, ?_⟩
  rintro token chain now rfl
  constructor
  · rintro hvalid ⟨tip, htip, hclaimer⟩
    have hminted := (consistent_afterCalls c (es ++ later)).settled_minted token.tokenId
      (Dict.mem_keys_iff_get?.mpr ⟨settlement, hlater⟩)
    exact settleToken_repeat hminted hvalid htip hclaimer hlater
  · intro claimerPubkeyHex result hresult
    rcases settleToken_cases c (afterCalls c (es ++ later)) claimerPubkeyHex token chain now with
      ⟨e, h⟩ | ⟨existing, hexisting, hclaimer, h⟩ | ⟨existing, -, -, h⟩ | ⟨-, hnew, -⟩
    · rw [h] at hresult
      cases hresult
    · obtain rfl := Option.some.inj (hlater.symm.trans hexisting)
      rw [h] at hresult
      exact ⟨(Except.ok.inj hresult).symm, hclaimer.symm⟩
    · rw [h] at hresult
      cases hresult
    · rw [hlater] at hnew
      cases hnew

end IssuerLedger

end PocketCash.Dpc
