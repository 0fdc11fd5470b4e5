import Mathlib.Data.Finset.Basic
import PocketCash.Library.KeyedList
import PocketCash.Library.Run
import PocketCash.Dpc.Chain

/-!
# The issuer ledger

`dpc/reconciliation_engine.py`: the ledger remembers what it minted and settles the first valid
claim for each token id.

`settle_token` looks the id up among the minted ids and then verifies the submitted token against
the issuer key the token itself carries. The recorded amount, signature and times are not compared.
So what is settled is what was minted exactly if the token names the key that minted its id, up to
the spelling of its signature.
-/

namespace PocketCash.Dpc

/-! ### The ledger -/

/-- An entry of `_minted`. -/
structure MintRecord where
  amount : Int
  issuerSig : String
  issuedAt : Int
  ttl : Int
  deriving DecidableEq, Repr

/-- An entry of `_settled`. -/
structure Settlement where
  tokenId : String
  claimerPubkey : String
  chainDepth : Nat
  settledAt : Int
  deriving DecidableEq, Repr

/-- An entry of `_pending`. -/
structure PendingClaim where
  claimerPubkey : String
  chainDepth : Nat
  submittedAt : Int
  deriving DecidableEq, Repr

/-- Central issuer simulator with first-valid-claim reconciliation. -/
structure IssuerLedger where
  minted : Dict String MintRecord
  settled : Dict String Settlement
  blacklist : Finset String
  pending : Dict String (List PendingClaim)

namespace IssuerLedger

/-- The ledger before its first call. -/
def new : IssuerLedger := ⟨.empty, .empty, ∅, .empty⟩

/-- What `mint_token` draws: `secrets.token_hex`, twice, and the time. -/
structure MintDraw where
  tokenId : String
  issuedAt : Int
  nonce : String
  deriving DecidableEq, Repr

/-- The token signed by `issuerKeypair`. -/
def mintedToken (c : Crypto) (issuerKeypair : DPCKeyPair) (amountSubunits : Int)
    (draw : MintDraw) : Token :=
  let token := Token.mintUnsigned (issuerKeypair.publicKeyHex c) amountSubunits draw.tokenId
    draw.issuedAt
  { token with
    issuerSignature := c.ed25519Sign issuerKeypair.privateKeyBytes (.genesis token.genesisPayload) }

/-- What the ledger remembers about a token it minted. -/
def mintRecord (token : Token) : MintRecord :=
  ⟨token.amountSubunits, token.issuerSignature, token.issuedAt, token.ttlExpiry⟩

/-- The genesis record that hands `token` to its first receiver. -/
def genesisRecord (c : Crypto) (issuerKeypair : DPCKeyPair) (receiverPubkeyHex : String)
    (token : Token) (nonce : String) : Except Raised TransferRecord := do
  let genesis ← TransferRecord.new c ⟨token.tokenId, 0, issuerKeypair.publicKeyHex c,
    receiverPubkeyHex, token.amountSubunits, nonce⟩ genesisHash
  genesis.sign c issuerKeypair.privateKeyBytes

/-- Mint a new issuer-signed token and genesis transfer. -/
def mintToken (c : Crypto) (ledger : IssuerLedger) (issuerKeypair : DPCKeyPair)
    (receiverPubkeyHex : String) (amountSubunits : Int) (draw : MintDraw) :
    IssuerLedger × Except Raised (Token × List TransferRecord) :=
  if amountSubunits ≤ 0 ∨ amountSubunits > maxSingleTxSubunits then
    (ledger, .error (.dpc .transactionValueCap "Mint amount exceeds transaction value cap"))
  else
    let token := mintedToken c issuerKeypair amountSubunits draw
    match genesisRecord c issuerKeypair receiverPubkeyHex token draw.nonce with
    | .error e => (ledger, .error e)
    | .ok genesis =>
      ({ ledger with minted := ledger.minted.set token.tokenId (mintRecord token) },
        .ok (token, [genesis]))

/-- Settle a submitted token using first-valid-claim conflict handling. -/
def settleToken (c : Crypto) (ledger : IssuerLedger) (claimerPubkeyHex : String) (token : Token)
    (chain : List TransferRecord) (now : Int) : IssuerLedger × Except Raised Settlement :=
  if token.tokenId ∉ ledger.minted.keys then
    (ledger, .error (.dpc .reconciliation "Token was not minted by this issuer"))
  else
    match validateIntegrity c token chain with
    | .error e => (ledger, .error e)
    | .ok () =>
      match chain.getLast? with
      | none => (ledger, .error (.py .indexError))
      | some tip =>
        if tip.receiverPubkeyHex ≠ claimerPubkeyHex then
          (ledger, .error (.dpc .walletState "Settlement claimer is not final receiver"))
        else
          match ledger.settled.get? token.tokenId with
          | some existing =>
            if existing.claimerPubkey = claimerPubkeyHex then (ledger, .ok existing)
            else
              let claims := (ledger.pending.get? token.tokenId).getD []
              ({ ledger with
                  blacklist := insert claimerPubkeyHex ledger.blacklist
                  pending := ledger.pending.set token.tokenId
                    (claims ++ [⟨claimerPubkeyHex, chain.length, now⟩]) },
                .error (.dpc .firstClaimConflict "First valid claim already settled this token"))
          | none =>
            let settlement : Settlement := ⟨token.tokenId, claimerPubkeyHex, chain.length, now⟩
            ({ ledger with settled := ledger.settled.set token.tokenId settlement }, .ok settlement)

/-- A submission to `proxy_sync`, with the time at which it is settled. -/
structure Submission where
  claimerPubkeyHex : String
  token : Token
  chain : List TransferRecord
  now : Int

/-- Settle multiple wallet submissions through a connected proxy. -/
def proxySync (c : Crypto) (proxyPubkeyHex : String) :
    IssuerLedger → List Submission → IssuerLedger × Except Raised (List (Settlement × String))
  | ledger, [] => (ledger, .ok [])
  | ledger, s :: rest =>
    match ledger.settleToken c s.claimerPubkeyHex s.token s.chain s.now with
    | (ledger', .error e) => (ledger', .error e)
    | (ledger', .ok result) =>
      match proxySync c proxyPubkeyHex ledger' rest with
      | (ledger'', .error e) => (ledger'', .error e)
      | (ledger'', .ok results) => (ledger'', .ok ((result, proxyPubkeyHex) :: results))

/-! ### What the calls do -/

/-- `mint_token` raises and changes nothing, or returns what it minted and records it. -/
lemma mintToken_cases (c : Crypto) (ledger : IssuerLedger) (issuerKeypair : DPCKeyPair)
    (receiverPubkeyHex : String) (amountSubunits : Int) (draw : MintDraw) :
    (∃ e, ledger.mintToken c issuerKeypair receiverPubkeyHex amountSubunits draw
      = (ledger, .error e)) ∨
    ∃ genesis, TransferRecord.MadeFrom c genesis ⟨draw.tokenId, 0, issuerKeypair.publicKeyHex c,
        receiverPubkeyHex, amountSubunits, draw.nonce⟩ genesisHash issuerKeypair.privateKeyBytes ∧
      ledger.mintToken c issuerKeypair receiverPubkeyHex amountSubunits draw
        = ({ ledger with
              minted := ledger.minted.set draw.tokenId
                (mintRecord (mintedToken c issuerKeypair amountSubunits draw)) },
            .ok (mintedToken c issuerKeypair amountSubunits draw, [genesis])) := by
  rw [mintToken]
  split_ifs with hcap
  · exact .inl ⟨_, rfl⟩
  · cases hgenesis : genesisRecord c issuerKeypair receiverPubkeyHex
        (mintedToken c issuerKeypair amountSubunits draw) draw.nonce with
    | error e => exact .inl ⟨e, by simp only [hgenesis]⟩
    | ok genesis =>
      refine .inr ⟨genesis, ?_, by simp only [hgenesis]; rfl⟩
      obtain ⟨unsigned, hnew, hsign⟩ := bind_eq_ok_iff.mp hgenesis
      exact TransferRecord.madeFrom_of_sign hnew hsign

/-- A `settle_token` that returns has found the id among the minted ids and accepted
the chain. -/
lemma valid_of_settleToken {c : Crypto} {ledger ledger' : IssuerLedger} {claimerPubkeyHex : String}
    {token : Token} {chain : List TransferRecord} {now : Int} {settlement : Settlement}
    (h : ledger.settleToken c claimerPubkeyHex token chain now = (ledger', .ok settlement)) :
    token.tokenId ∈ ledger.minted.keys ∧ ChainValid c token chain := by
  rw [settleToken] at h
  by_cases hminted : token.tokenId ∈ ledger.minted.keys
  swap
  · rw [if_pos hminted] at h
    cases h
  rw [if_neg (not_not.mpr hminted)] at h
  cases hvalid : validateIntegrity c token chain with
  | error e => simp [hvalid] at h
  | ok u => exact ⟨hminted, validateIntegrity_eq_ok_iff.mp hvalid⟩

/-- What a holder submits settles if nothing was settled on its id. -/
lemma settleToken_of_valid {c : Crypto} {ledger : IssuerLedger} {token : Token} {chain : List TransferRecord}
    {claimerPubkeyHex : String} (hminted : token.tokenId ∈ ledger.minted.keys)
    (hvalid : ChainValid c token chain) {tip : TransferRecord} (htip : chain.getLast? = some tip)
    (howner : tip.receiverPubkeyHex = claimerPubkeyHex)
    (hunsettled : ledger.settled.get? token.tokenId = none) (now : Int) :
    (ledger.settleToken c claimerPubkeyHex token chain now).2
      = .ok ⟨token.tokenId, claimerPubkeyHex, chain.length, now⟩ := by
  rw [settleToken, if_neg (not_not.mpr hminted),
    validateIntegrity_eq_ok_iff.mpr hvalid, htip]
  dsimp only
  rw [if_neg (not_not.mpr howner), hunsettled]

/-- No settlement changes what was minted. -/
@[simp] lemma minted_settleToken (c : Crypto) (ledger : IssuerLedger) (claimerPubkeyHex : String)
    (token : Token) (chain : List TransferRecord) (now : Int) :
    (ledger.settleToken c claimerPubkeyHex token chain now).1.minted = ledger.minted := by
  rw [settleToken]
  repeat' split
  all_goals rfl

/-- The submissions settled one after the other, whatever each call returns. -/
def settleAll (c : Crypto) (ledger : IssuerLedger) (submissions : List Submission) :
    IssuerLedger :=
  runFrom (fun l s => (l.settleToken c s.claimerPubkeyHex s.token s.chain s.now).1) ledger
    submissions

/-- `proxy_sync` settles its submissions in order, up to the first that raises. -/
lemma exists_settleAll_proxySync (c : Crypto) (proxyPubkeyHex : String) (ledger : IssuerLedger)
    (submissions : List Submission) :
    ∃ settled, settled <+: submissions ∧
      (proxySync c proxyPubkeyHex ledger submissions).1 = settleAll c ledger settled := by
  induction submissions generalizing ledger with
  | nil => exact ⟨[], List.prefix_rfl, rfl⟩
  | cons s rest ih =>
    rw [proxySync]
    split
    · rename_i ledger' e hsettle
      exact ⟨[s], by simp, by simp [settleAll, hsettle]⟩
    · rename_i ledger' result hsettle
      obtain ⟨settled, hprefix, hrest⟩ := ih ledger'
      refine ⟨s :: settled, (List.prefix_cons_inj s).mpr hprefix, ?_⟩
      have hall : settleAll c ledger (s :: settled) = settleAll c ledger' settled := by
        simp [settleAll, hsettle]
      split <;> rename_i hproxy <;> rw [hproxy] at hrest <;> exact hrest.trans hall.symm

lemma minted_proxySync (c : Crypto) (proxyPubkeyHex : String) (ledger : IssuerLedger)
    (submissions : List Submission) :
    (proxySync c proxyPubkeyHex ledger submissions).1.minted = ledger.minted := by
  obtain ⟨settled, -, hproxy⟩ := exists_settleAll_proxySync c proxyPubkeyHex ledger submissions
  rw [hproxy]
  clear hproxy
  induction settled generalizing ledger with
  | nil => rfl
  | cons s settled ih => exact (ih _).trans (minted_settleToken ..)

end IssuerLedger

/-! ### Runs of the ledger -/

/-- A ledger with the tokens it minted so far and the keys that signed them. -/
structure LedgerRun where
  ledger : IssuerLedger
  mints : List (DPCKeyPair × Token)

namespace LedgerRun

inductive Event
  | mint (issuerKeypair : DPCKeyPair) (receiverPubkeyHex : String) (amountSubunits : Int)
      (draw : IssuerLedger.MintDraw)
  | settle (submission : IssuerLedger.Submission)
  | proxySync (proxyPubkeyHex : String) (submissions : List IssuerLedger.Submission)

def start : LedgerRun := ⟨.new, []⟩

def step (c : Crypto) (n : LedgerRun) : Event → LedgerRun
  | .mint issuerKeypair receiverPubkeyHex amountSubunits draw =>
    match n.ledger.mintToken c issuerKeypair receiverPubkeyHex amountSubunits draw with
    | (ledger, .error _) => { n with ledger := ledger }
    | (ledger, .ok (token, _)) => ⟨ledger, (issuerKeypair, token) :: n.mints⟩
  | .settle s =>
    { n with ledger := (n.ledger.settleToken c s.claimerPubkeyHex s.token s.chain s.now).1 }
  | .proxySync proxyPubkeyHex submissions =>
    { n with ledger := (n.ledger.proxySync c proxyPubkeyHex submissions).1 }

/-- `secrets.token_hex` draws an id that was not drawn before. -/
def Legal (n : LedgerRun) : Event → Prop
  | .mint _ _ _ draw => draw.tokenId ∉ n.ledger.minted.keys
  | _ => True

/-- `_minted` lists the mints, each signed by its key pair. -/
structure Inv (c : Crypto) (n : LedgerRun) : Prop where
  signed : ∀ m ∈ n.mints, ∃ amount draw, m.2 = IssuerLedger.mintedToken c m.1 amount draw
  recorded : ∀ m ∈ n.mints,
    n.ledger.minted.get? m.2.tokenId = some (IssuerLedger.mintRecord m.2)
  minted : ∀ k ∈ n.ledger.minted.keys, ∃ m ∈ n.mints, m.2.tokenId = k

lemma inv_start (c : Crypto) : start.Inv c where
  signed := by simp [start]
  recorded := by simp [start]
  minted := by simp [start, IssuerLedger.new]

lemma Inv.of_minted_eq {c : Crypto} {n : LedgerRun} (h : n.Inv c) {ledger : IssuerLedger}
    (hminted : ledger.minted = n.ledger.minted) : Inv c { n with ledger := ledger } where
  signed := h.signed
  recorded := hminted ▸ h.recorded
  minted := hminted ▸ h.minted

lemma Inv.step {c : Crypto} {n : LedgerRun} {e : Event} (hlegal : n.Legal e) (h : n.Inv c) :
    (n.step c e).Inv c := by
  cases e with
  | mint issuerKeypair receiverPubkeyHex amountSubunits draw =>
    rw [LedgerRun.step]
    rcases n.ledger.mintToken_cases c issuerKeypair receiverPubkeyHex amountSubunits draw with
      ⟨e, hmint⟩ | ⟨genesis, -, hmint⟩
    · rw [hmint]
      exact h
    · rw [hmint]
      refine ⟨?_, ?_, ?_⟩
      · rintro m (_ | ⟨_, hm⟩)
        · exact ⟨amountSubunits, draw, rfl⟩
        · exact h.signed m hm
      · rintro m (_ | ⟨_, hm⟩)
        · exact Dict.get?_set.trans (if_pos rfl)
        · have hold := h.recorded m hm
          have hne : m.2.tokenId ≠ draw.tokenId := by
            rintro heq
            rw [heq, Dict.get?_eq_none_iff.mpr hlegal] at hold
            cases hold
          rw [Dict.get?_set, if_neg hne, hold]
      · intro k hk
        rcases Dict.mem_keys_set.mp hk with rfl | hk
        · exact ⟨_, List.mem_cons_self, rfl⟩
        · obtain ⟨m, hm, hmk⟩ := h.minted k hk
          exact ⟨m, List.mem_cons_of_mem _ hm, hmk⟩
  | settle s => exact h.of_minted_eq (IssuerLedger.minted_settleToken ..)
  | proxySync proxyPubkeyHex submissions => exact h.of_minted_eq (IssuerLedger.minted_proxySync ..)

/-! ### Settling what was minted -/

/-- The token agrees with what the ledger recorded when it minted its id. -/
def Matches (ledger : IssuerLedger) (token : Token) : Prop :=
  ledger.minted.get? token.tokenId = some (IssuerLedger.mintRecord token)

/-- The token names the key that minted its id, and its signature is in the hexadecimal form that
minting gives it. -/
def NamesMinter (c : Crypto) (n : LedgerRun) (token : Token) : Prop :=
  (∃ m ∈ n.mints, m.2.tokenId = token.tokenId ∧ token.issuerPubkeyHex = m.1.publicKeyHex c) ∧
    Hex.Canonical token.issuerSignature

/-- Nobody but `mint_token` signs with a minting key: a signature that verifies under one on the
fields of `token` is the signature of a mint of these fields. -/
def Unforged (c : Crypto) (n : LedgerRun) (token : Token) : Prop :=
  ∀ m ∈ n.mints, ∀ signature, Hex.decode token.issuerSignature = some signature →
    c.verify (c.publicKey m.1.privateKeyBytes) (.genesis token.genesisPayload) signature = true →
      ∃ m' ∈ n.mints, m'.2.genesisPayload = token.genesisPayload ∧
        Hex.decode m'.2.issuerSignature = some signature

lemma mintedToken_issuerPubkeyHex (c : Crypto) (kp : DPCKeyPair) (amount : Int)
    (draw : IssuerLedger.MintDraw) :
    (IssuerLedger.mintedToken c kp amount draw).issuerPubkeyHex = kp.publicKeyHex c := rfl

lemma mintedToken_issuerSignature (c : Crypto) (kp : DPCKeyPair) (amount : Int)
    (draw : IssuerLedger.MintDraw) :
    (IssuerLedger.mintedToken c kp amount draw).issuerSignature
      = Hex.encode (c.sign kp.privateKeyBytes
          (.genesis (IssuerLedger.mintedToken c kp amount draw).genesisPayload)) := rfl

/-- A token whose fields were minted with its signature matches the record. -/
lemma Inv.matches_of_mint {c : Crypto} {n : LedgerRun} (h : n.Inv c)
    {m : DPCKeyPair × Token} (hm : m ∈ n.mints) {token : Token}
    (hpayload : m.2.genesisPayload = token.genesisPayload)
    (hsignature : m.2.issuerSignature = token.issuerSignature) : Matches n.ledger token := by
  obtain ⟨id, issuer, amount, issuedAt, ttl, signature⟩ := token
  obtain ⟨kp, ⟨id', issuer', amount', issuedAt', ttl', signature'⟩⟩ := m
  have hrecorded := h.recorded _ hm
  simp only [Token.genesisPayload, GenesisPayload.mk.injEq] at hpayload hsignature
  obtain ⟨rfl, rfl, rfl, rfl, rfl⟩ := hpayload
  subst hsignature
  exact hrecorded

/-- In every reachable state, a token for which `settle_token` returns a settlement is the
minted one exactly if it names the key that minted its id. -/
theorem settleToken_matches_iff {c : Crypto} (hcorrect : c.Correct) (hexclusive : c.Exclusive)
    {es : List Event} (hrun : Along (step c) Legal start es) {claimerPubkeyHex : String}
    {token : Token} {chain : List TransferRecord} {now : Int} {ledger' : IssuerLedger}
    {settlement : Settlement} (hunforged : (runFrom (step c) start es).Unforged c token)
    (hsettle : (runFrom (step c) start es).ledger.settleToken c claimerPubkeyHex token chain now
      = (ledger', .ok settlement)) :
    Matches (runFrom (step c) start es).ledger token ↔
      (runFrom (step c) start es).NamesMinter c token := by
  have hinv := Along.invariant (fun _ _ hl h => Inv.step hl h) hrun (inv_start c)
  generalize runFrom (step c) start es = n at *
  obtain ⟨hminted, hvalid⟩ := IssuerLedger.valid_of_settleToken hsettle
  obtain ⟨pk, signature, hpk, hsignature, hverify⟩ :=
    Crypto.ed25519Verify_eq_ok_iff.mp hvalid.issuer
  constructor
  · -- the recorded signature was made by the minting key, so it verifies under no other
    intro hmatches
    obtain ⟨m, hm, hid⟩ := hinv.minted _ hminted
    have hrecord := hinv.recorded m hm
    rw [hid, show n.ledger.minted.get? token.tokenId = _ from hmatches] at hrecord
    have hsame : token.issuerSignature = m.2.issuerSignature :=
      congrArg MintRecord.issuerSig (Option.some.inj hrecord)
    obtain ⟨amount, draw, htoken⟩ := hinv.signed m hm
    rw [htoken, mintedToken_issuerSignature] at hsame
    rw [hsame, Hex.decode_encode] at hsignature
    obtain rfl := Option.some.inj hsignature
    obtain rfl := hexclusive _ _ _ _ _ hverify (hcorrect m.1.privateKeyBytes _)
    obtain ⟨m', hm', hpayload, -⟩ := hunforged m hm _ (by rw [hsame, Hex.decode_encode]) hverify
    obtain ⟨amount', draw', htoken'⟩ := hinv.signed m' hm'
    refine ⟨⟨m', hm', congrArg GenesisPayload.tokenId hpayload, ?_⟩, _, hsame⟩
    rw [← mintedToken_issuerPubkeyHex c m'.1 amount' draw', ← htoken']
    exact (congrArg GenesisPayload.issuerPubkeyHex hpayload).symm
  · -- a signature under the minting key is that of a mint, and ids are minted once
    rintro ⟨⟨m, hm, -, hissuer⟩, hcanonical⟩
    rw [hissuer, DPCKeyPair.publicKeyHex, Hex.decode_encode] at hpk
    obtain rfl := Option.some.inj hpk
    obtain ⟨m', hm', hpayload, hdecode⟩ := hunforged m hm _ hsignature hverify
    obtain ⟨amount', draw', htoken'⟩ := hinv.signed m' hm'
    refine hinv.matches_of_mint hm' hpayload (Hex.Canonical.eq_of_decode ?_ hcanonical
      (hdecode.trans hsignature.symm))
    rw [htoken', mintedToken_issuerSignature]
    exact ⟨_, rfl⟩

/-- The issuer mints 500 to Alice. -/
def plainMint : List Event :=
  [.mint Custody.issuer (Custody.alice.publicKeyHex plainCrypto) 500 ⟨"t1", 1000, "n0"⟩]

lemma legal_plainMint : Along (step plainCrypto) Legal start plainMint :=
  ⟨List.not_mem_nil, trivial⟩

theorem settleToken_matches_minted :
    Matches (runFrom (step plainCrypto) start plainMint).ledger Custody.token := by
  obtain ⟨settlement, hsettle⟩ := exists_eq_ok
    (r := (runFrom (step plainCrypto) start plainMint).ledger.settleToken plainCrypto
      (Custody.alice.publicKeyHex plainCrypto) Custody.token [Custody.genesis] 2000)
    (by decide +kernel)
  have hminter : ∃ m ∈ (runFrom (step plainCrypto) start plainMint).mints,
      m.2.tokenId = Custody.token.tokenId ∧
        Custody.token.issuerPubkeyHex = m.1.publicKeyHex plainCrypto := by decide +kernel
  have hmint : ∀ m ∈ (runFrom (step plainCrypto) start plainMint).mints,
      m.2.genesisPayload = Custody.token.genesisPayload ∧
        m.2.issuerSignature = Custody.token.issuerSignature := by decide +kernel
  refine (settleToken_matches_iff plainCrypto_correct plainCrypto_exclusive legal_plainMint ?_
    hsettle).mpr ⟨hminter, _, rfl⟩
  intro m hm signature hdecode _
  exact ⟨m, hm, (hmint m hm).1, (hmint m hm).2 ▸ hdecode⟩

/-- Mallory's token with the id of Alice's: signed by Mallory, and worth 200 times as much. -/
def forgedToken : Token := Custody.plainToken Custody.mallory "t1" 100000 1000

def forgedGenesis : TransferRecord :=
  Custody.plainRecord Custody.mallory Custody.mallory forgedToken 0 "n1" genesisHash

/-- The ledger settles 100000 for Mallory on an id for which it minted 500 to Alice. -/
theorem settleToken_forged :
    Along (step plainCrypto) Legal start plainMint ∧
    (runFrom (step plainCrypto) start plainMint).Unforged plainCrypto forgedToken ∧
    ∃ ledger' settlement, (runFrom (step plainCrypto) start plainMint).ledger.settleToken plainCrypto
        (Custody.mallory.publicKeyHex plainCrypto) forgedToken [forgedGenesis] 2000
        = (ledger', .ok settlement) ∧
      ledger'.settled.get? forgedToken.tokenId = some settlement ∧
      ¬ Matches (runFrom (step plainCrypto) start plainMint).ledger forgedToken := by
  have hrecorded : ((runFrom (step plainCrypto) start plainMint).ledger.settleToken plainCrypto
      (Custody.mallory.publicKeyHex plainCrypto) forgedToken [forgedGenesis] 2000).2
      = .ok ⟨"t1", Custody.mallory.publicKeyHex plainCrypto, 1, 2000⟩ := by decide +kernel
  refine ⟨legal_plainMint, ?_, _, _, eq_mk_ok hrecorded, by decide +kernel, ?_⟩
  · have hother : ∀ m ∈ (runFrom (step plainCrypto) start plainMint).mints,
        (Hex.decode forgedToken.issuerSignature).all fun signature =>
          !plainCrypto.verify (plainCrypto.publicKey m.1.privateKeyBytes)
            (.genesis forgedToken.genesisPayload) signature := by decide +kernel
    intro m hm signature hdecode hverify
    have hfails := hother m hm
    rw [hdecode, Option.all_some, hverify] at hfails
    cases hfails
  · rw [Matches]
    decide +kernel

end LedgerRun

end PocketCash.Dpc
