import PocketCash.Offline.Run

/-!
# Recovery of a lost wallet

The tokens of a revoked wallet are replaced once for each new key they are reissued to: the guard of
`reissue_recovered_balance` is a set of pairs of keys. Reissued to one new key only, each token has
at most one replacement and the replacements are worth the safe balance.
-/

namespace PocketCash.Offline

/-! ### Replacements -/

/-- A reissue replaces each token once, by tokens worth the safe balance. -/
structure Reissue.Exact (r : Reissue) : Prop where
  ids : (r.replaced.map fun p => p.1.tokenId).Nodup
  value : ReconciliationServer.totalValue (r.replaced.map Prod.snd) = r.safeBalance

namespace ServerRun

open ReconciliationServer

/-- The reissues for a revoked key. -/
def reissuesOf (run : ServerRun) (publicKey : String) : List Reissue :=
  run.reissues.filter fun r => r.revokedPublicKey = publicKey

/-- The replacements of the token `tokenId` of a revoked key. -/
def replacementsOf (run : ServerRun) (publicKey tokenId : String) : List Token :=
  (run.reissuesOf publicKey).flatMap fun r =>
    (r.replaced.filter fun p => p.1.tokenId = tokenId).map Prod.snd

/-- The total value reissued for a revoked key. -/
def reissuedValue (run : ServerRun) (publicKey : String) : Int :=
  totalValue
    ((run.reissuesOf publicKey).flatMap fun r => r.replaced.map Prod.snd)

/-- Each token of the key has at most one replacement, and no snapshot's safe balance is
exceeded. -/
def ReissuedOnce (run : ServerRun) (publicKey : String) : Prop :=
  (∀ tokenId, (run.replacementsOf publicKey tokenId).length ≤ 1) ∧
    ∀ r ∈ run.reissuesOf publicKey, run.reissuedValue publicKey ≤ r.safeBalance

/-- A wallet is reissued to one new key only. -/
def OneNewKey (run : ServerRun) : ServerEvent → Prop
  | .reissue revokedPublicKey newPublicKey _ _ _ =>
    ∀ p ∈ run.server.recoveryEngine.recoveryReissued, p.1 = revokedPublicKey → p.2 = newPublicKey
  | _ => True

instance (run : ServerRun) : DecidablePred run.OneNewKey
  | .reissue revokedPublicKey newPublicKey _ _ _ =>
    inferInstanceAs (Decidable (∀ p ∈ run.server.recoveryEngine.recoveryReissued,
      p.1 = revokedPublicKey → p.2 = newPublicKey))
  | .mint .. => .isTrue trivial
  | .bundle .. => .isTrue trivial
  | .revoke .. => .isTrue trivial

/-- What a run keeps: reissues are exact, recorded, and for different keys. -/
structure ReissuedInv (run : ServerRun) : Prop where
  exact : ∀ r ∈ run.reissues, r.Exact
  recorded : ∀ r ∈ run.reissues,
    (r.revokedPublicKey, r.newPublicKey) ∈ run.server.recoveryEngine.recoveryReissued
  keys : (run.reissues.map Reissue.revokedPublicKey).Nodup

/-- The record of a reissue is exact. -/
lemma exact_reissueRecord (c : Crypto) (s : ReconciliationServer)
    (revokedPublicKey newPublicKey : String) (now : Int) (draws : Nat → MintDraw) :
    (reissueRecord s revokedPublicKey newPublicKey now
      (s.mintSafeTokens c revokedPublicKey newPublicKey now draws).2).Exact := by
  have hlength := s.length_mintSafeTokens c revokedPublicKey newPublicKey now draws
  constructor
  · have hids := s.recoverable_nodup revokedPublicKey now
    rwa [← List.map_fst_zip hlength.ge, List.map_map] at hids
  · rw [reissueRecord, List.map_snd_zip hlength.le]
    exact s.totalValue_mintSafeTokens c revokedPublicKey newPublicKey now draws

lemma ReissuedInv.of_eq {run run' : ServerRun} (h : run.ReissuedInv)
    (hreissues : run'.reissues = run.reissues)
    (hengine : run'.server.recoveryEngine.recoveryReissued
      = run.server.recoveryEngine.recoveryReissued) : run'.ReissuedInv :=
  ⟨hreissues ▸ h.exact, by rw [hreissues, hengine]; exact h.recorded, hreissues ▸ h.keys⟩

lemma reissuedInv_step {c : Crypto} {run : ServerRun} {e : ServerEvent} (hg : run.OneNewKey e)
    (h : run.ReissuedInv) : (run.step c e).ReissuedInv := by
  cases e with
  | mint ownerPk value draw => exact h.of_eq rfl rfl
  | revoke publicKey now => exact h.of_eq rfl rfl
  | bundle bundle readings =>
    exact h.of_eq rfl (congrArg RecoveryEngine.recoveryReissued
      (run.server.processBundle_frame c bundle readings).2.2)
  | reissue revokedPublicKey newPublicKey atTime clock draws =>
    rcases run.serve_reissue_cases c revokedPublicKey newPublicKey atTime clock draws with
      hserve | ⟨minted, rfl, -, hnew, hserve⟩
    · exact h.of_eq (congrArg Prod.snd hserve) (by rw [step, hserve])
    · rw [step, hserve]
      constructor
      · simp only [List.forall_mem_append, List.forall_mem_singleton]
        exact ⟨h.exact, exact_reissueRecord ..⟩
      · simp only [List.forall_mem_append, List.forall_mem_singleton]
        exact ⟨fun r hr => Finset.mem_insert_of_mem (h.recorded r hr), Finset.mem_insert_self _ _⟩
      · rw [List.map_append, List.nodup_append]
        refine ⟨h.keys, List.nodup_singleton _, ?_⟩
        -- an earlier reissue for this key went to this new key, so the pair is not new
        rintro key hkey _ hsame rfl
        obtain ⟨r, hr, rfl⟩ := List.mem_map.mp hkey
        have hrevoked : r.revokedPublicKey = revokedPublicKey := List.mem_singleton.mp hsame
        have hsecond : r.newPublicKey = newPublicKey := hg _ (h.recorded r hr) hrevoked
        exact hnew (hrevoked ▸ hsecond ▸ h.recorded r hr)

/-- The reissues for one key are one or none. -/
lemma ReissuedInv.reissuesOf_cases {run : ServerRun} (h : run.ReissuedInv) (publicKey : String) :
    run.reissuesOf publicKey = [] ∨ ∃ r ∈ run.reissues, run.reissuesOf publicKey = [r] := by
  have hcount : (run.reissuesOf publicKey).length ≤ 1 := length_filter_key_le_one h.keys publicKey
  cases hof : run.reissuesOf publicKey with
  | nil => exact .inl rfl
  | cons r rest =>
    rw [hof, List.length_cons, Nat.add_le_add_iff_right, Nat.le_zero, List.length_eq_zero_iff]
      at hcount
    have hr : r ∈ run.reissuesOf publicKey := by simp [hof]
    exact .inr ⟨r, List.mem_of_mem_filter hr, by rw [hcount]⟩

/-- If each wallet is reissued to one new key only, recovered value is reissued at most once. -/
theorem reissued_once {c : Crypto} {issuer : Issuer} {policy : PolicyConfig} {time : Int}
    {es : List ServerEvent}
    (hrun : Along (step c) OneNewKey (start issuer policy time) es) (publicKey : String) :
    (runFrom (step c) (start issuer policy time) es).ReissuedOnce publicKey := by
  have hinv := Along.invariant (fun _ _ => reissuedInv_step) hrun
    (⟨by simp [start], by simp [start], by simp [start]⟩ : (start issuer policy time).ReissuedInv)
  generalize runFrom (step c) (start issuer policy time) es = run at hinv
  rcases hinv.reissuesOf_cases publicKey with hof | ⟨r, hr, hof⟩
  · exact ⟨by simp [replacementsOf, hof], by simp [hof]⟩
  · obtain ⟨hids, hvalue⟩ := hinv.exact r hr
    constructor
    · intro tokenId
      simpa [replacementsOf, hof] using length_filter_key_le_one hids tokenId
    · simp [reissuedValue, hof, hvalue]

/-- Alice loses the wallet with her token, and asks for a replacement a week later. -/
def plainLoss (newPublicKeys : List String) : List ServerEvent :=
  [.mint "alice" 100 ⟨"t1", 1000000000, 1000000000⟩, .revoke "alice" 2000000000] ++
    newPublicKeys.map fun newPublicKey => .reissue "alice" newPublicKey none
      ⟨606801000000, 606801000000⟩ fun _ => ⟨newPublicKey ++ "1", 606801000000, 606801000000⟩

theorem reissued_once_plainLoss :
    (runFrom (step plainCrypto) (start plainIssuer .default 0)
      (plainLoss ["alice2", "alice2"])).ReissuedOnce "alice" :=
  reissued_once (by decide +kernel) "alice"

/-- Asking with two new keys, she gets two replacements of her one token. -/
theorem reissued_twice :
    let run := runFrom (step plainCrypto) (start plainIssuer .default 0)
      (plainLoss ["alice2", "alice3"])
    (run.replacementsOf "alice" "t1").map Token.currentOwner = ["alice2", "alice3"] ∧
      run.reissuedValue "alice" = 200 ∧
      (run.reissuesOf "alice").map Reissue.safeBalance = [100, 100] := by
  decide +kernel

end ServerRun

end PocketCash.Offline
