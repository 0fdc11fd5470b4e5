import PocketCash.Offline.Heartbeat

/-!
# Relayed heartbeats

`relay_heartbeat` of `protocol/proxy_sync.py`. The relay looks at the age of a heartbeat, and the
server does so again when it applies it. What it records is its own time and not the signed one, so
that a heartbeat that is still young enough does its work each time it is relayed.
-/

namespace PocketCash.Offline

/-- `status` of `relay_heartbeat`. -/
inductive RelayStatus
  | ok
  | invalidSignature
  | expiredHeartbeat
  deriving DecidableEq, Repr

/-- The clock readings of `relay_heartbeat` and of `apply_sync_heartbeat`. -/
structure RelayClock where
  relayed : Int
  applied : Int
  deriving DecidableEq, Repr

namespace SyncedServer

/-- Verify and relay a heartbeat to the reconciliation server. -/
def relayHeartbeat (ops : HeartbeatOps) (s : SyncedServer) (hb : SyncHeartbeat)
    (clock : RelayClock) : SyncedServer × RelayStatus × List String :=
  if !verifyHeartbeat ops hb then (s, .invalidSignature, [])
  else if hb.timestamp.olderThan ops clock.relayed s.run.server.policy.tokenExpirySeconds then
    (s, .expiredHeartbeat, [])
  else
    let (s', refreshed) := s.applySyncHeartbeat ops hb clock.applied
    (s', .ok, refreshed)

/-- The heartbeat is too old at one of the two readings. -/
def TooOld (ops : HeartbeatOps) (s : SyncedServer) (hb : SyncHeartbeat) (clock : RelayClock) :
    Prop :=
  hb.timestamp.olderThan ops clock.relayed s.run.server.policy.tokenExpirySeconds = true ∨
    hb.timestamp.olderThan ops clock.applied s.run.server.policy.tokenExpirySeconds = true
  deriving Decidable

/-- The issuer minted the token to the key. -/
def IssuedTo (s : SyncedServer) (tokenId publicKey : String) : Prop :=
  ∃ token, s.run.server.issuer.issuedTokens.find? tokenId = some token ∧
    token.currentOwner = publicKey

/-- The listed tokens that were minted to the key of the heartbeat. -/
def refreshable (s : SyncedServer) (hb : SyncHeartbeat) : List String :=
  hb.tokenIds.filter fun tokenId =>
    (s.run.server.issuer.issuedTokens.find? tokenId).any fun token =>
      token.currentOwner = Hex.encode hb.walletPk

/-- Those tokens are synced at time `now`. -/
def refresh (s : SyncedServer) (hb : SyncHeartbeat) (now : Int) : SyncedServer :=
  { s with lastSync := (s.refreshable hb).foldl (fun d tokenId => d.set tokenId now) s.lastSync }

variable {ops : HeartbeatOps} {c : Crypto} {s : SyncedServer} {hb : SyncHeartbeat}
  {clock : RelayClock}

lemma mem_refreshable {tokenId : String} : tokenId ∈ s.refreshable hb ↔
    tokenId ∈ hb.tokenIds ∧ s.IssuedTo tokenId (Hex.encode hb.walletPk) := by
  simp [refreshable, IssuedTo, Option.any_eq_true]

/-- Only a verified heartbeat is relayed. -/
lemma verified_of_ok (h : (s.relayHeartbeat ops hb clock).2.1 = .ok) :
    verifyHeartbeat ops hb = true := by
  by_contra hverify
  rw [relayHeartbeat, if_pos (by simpa using hverify)] at h
  cases h

/-- What becomes of a verified heartbeat. -/
lemma relayHeartbeat_of_verified (hverify : verifyHeartbeat ops hb = true) :
    s.relayHeartbeat ops hb clock =
      if hb.timestamp.olderThan ops clock.relayed s.run.server.policy.tokenExpirySeconds then
        (s, .expiredHeartbeat, [])
      else if hb.timestamp.olderThan ops clock.applied s.run.server.policy.tokenExpirySeconds then
        (s, .ok, [])
      else (s.refresh hb clock.applied, .ok, s.refreshable hb) := by
  have hsigned : ¬((!verifyHeartbeat ops hb) = true) := by simp [hverify]
  rw [relayHeartbeat, if_neg hsigned, applySyncHeartbeat, if_neg hsigned]
  split_ifs <;> rfl

/-- The server is left as it is, or the tokens are synced. -/
lemma relayHeartbeat_fst (hverify : verifyHeartbeat ops hb = true) :
    (s.relayHeartbeat ops hb clock).1
      = if s.TooOld ops hb clock then s else s.refresh hb clock.applied := by
  rw [relayHeartbeat_of_verified hverify]
  by_cases hrelayed :
      hb.timestamp.olderThan ops clock.relayed s.run.server.policy.tokenExpirySeconds = true
  · rw [if_pos hrelayed, if_pos (show s.TooOld ops hb clock from .inl hrelayed)]
  · by_cases happlied :
        hb.timestamp.olderThan ops clock.applied s.run.server.policy.tokenExpirySeconds = true
    · rw [if_neg hrelayed, if_pos happlied, if_pos (show s.TooOld ops hb clock from .inr happlied)]
    · have hyoung : ¬s.TooOld ops hb clock := not_or_intro hrelayed happlied
      rw [if_neg hrelayed, if_neg happlied, if_neg hyoung]

lemma refresh_eq_iff {now : Int} : (s.refresh hb now).lastSync = s.lastSync ↔
    ∀ tokenId ∈ hb.tokenIds, s.IssuedTo tokenId (Hex.encode hb.walletPk) →
      s.lastSync.get? tokenId = some now := by
  rw [refresh, Dict.foldl_set_eq_iff]
  simp only [mem_refreshable, and_imp]

lemma isTokenExpired_of_unknown {tokenId : String}
    (h : s.run.server.issuer.issuedTokens.find? tokenId = none) {now : Int} :
    s.isTokenExpired tokenId now = true := by
  rw [isTokenExpired, h]

lemma isTokenExpired_iff {token : Token}
    (htoken : s.run.server.issuer.issuedTokens.find? token.tokenId = some token) {now : Int} :
    s.isTokenExpired token.tokenId now = true ↔
      wholeSeconds now - s.lastSyncTs token > s.run.server.policy.tokenExpirySeconds := by
  rw [isTokenExpired, htoken]
  exact decide_eq_true_iff

lemma lastSyncTs_refresh {now : Int} {token : Token} :
    (s.refresh hb now).lastSyncTs token
      = if token.tokenId ∈ s.refreshable hb then wholeSeconds now else s.lastSyncTs token := by
  rw [lastSyncTs, refresh, Dict.get?_foldl_set, lastSyncTs]
  split_ifs <;> rfl

/-- An age is too high whenever another one is, exactly if it is counted from no later second. -/
lemma forall_expired_iff {expiry a b : Int} :
    (∀ now, wholeSeconds now - a > expiry → wholeSeconds now - b > expiry) ↔ b ≤ a := by
  constructor
  · intro h
    have hnow := h ((a + expiry + 1) * 1000000)
    rw [wholeSeconds, Int.mul_tdiv_cancel _ (by decide)] at hnow
    omega
  · intro h now
    omega

/-- Syncing the tokens postpones no expiry exactly if it moves no last sync forward. -/
lemma refresh_postpones_iff {now : Int} :
    (∀ tokenId time, s.isTokenExpired tokenId time = true →
      (s.refresh hb now).isTokenExpired tokenId time = true) ↔
    ∀ token ∈ s.run.server.issuer.issuedTokens.items, token.tokenId ∈ s.refreshable hb →
      wholeSeconds now ≤ s.lastSyncTs token := by
  constructor
  · intro h token hmem hrefreshable
    have htoken := KeyedList.find?_of_mem hmem
    have hstays : ∀ time,
        wholeSeconds time - s.lastSyncTs token > s.run.server.policy.tokenExpirySeconds →
          wholeSeconds time - wholeSeconds now > s.run.server.policy.tokenExpirySeconds := by
      intro time
      have hexpired := h token.tokenId time
      rwa [isTokenExpired_iff htoken, isTokenExpired_iff (s := s.refresh hb now) htoken,
        lastSyncTs_refresh, if_pos hrefreshable] at hexpired
    exact forall_expired_iff.mp hstays
  · intro h tokenId time hexpired
    cases hfind : s.run.server.issuer.issuedTokens.find? tokenId with
    | none => exact isTokenExpired_of_unknown (s := s.refresh hb now) hfind
    | some token =>
      obtain ⟨hmem, rfl⟩ := KeyedList.find?_eq_some_iff.mp hfind
      rw [isTokenExpired_iff hfind] at hexpired
      rw [isTokenExpired_iff (s := s.refresh hb now) hfind, lastSyncTs_refresh]
      split_ifs with hrefreshable
      · exact forall_expired_iff.mpr (h token hmem hrefreshable) time hexpired
      · exact hexpired

/-- A heartbeat that was relayed is relayed again, after any other calls. It leaves every `last_sync`
as it is exactly if it is too old by then, or every listed token that was minted to its key was
synced at this very time; it postpones no expiry exactly if it is too old, or moves no last sync to a
later second. -/
theorem relay_again_iff {first again : RelayClock} {es : List SyncEvent}
    (hfirst : (s.relayHeartbeat ops hb first).2.1 = .ok) :
    let before := runFrom (step ops c) (s.relayHeartbeat ops hb first).1 es
    let after := (before.relayHeartbeat ops hb again).1
    (after.lastSync = before.lastSync ↔
      before.TooOld ops hb again ∨ ∀ tokenId ∈ hb.tokenIds,
        before.IssuedTo tokenId (Hex.encode hb.walletPk) →
          before.lastSync.get? tokenId = some again.applied) ∧
    ((∀ tokenId now, before.isTokenExpired tokenId now = true →
        after.isTokenExpired tokenId now = true) ↔
      before.TooOld ops hb again ∨ ∀ token ∈ before.run.server.issuer.issuedTokens.items,
        token.tokenId ∈ before.refreshable hb →
          wholeSeconds again.applied ≤ before.lastSyncTs token) := by
  intro before after
  have hafter : after
      = if before.TooOld ops hb again then before else before.refresh hb again.applied :=
    relayHeartbeat_fst (verified_of_ok hfirst)
  rw [hafter]
  by_cases hold : before.TooOld ops hb again
  · simp [hold]
  · simp only [hold, if_false, false_or]
    exact ⟨refresh_eq_iff, refresh_postpones_iff⟩

/-- The wallet `a1` has a token, and a relay has its heartbeat of day six and a half. -/
def walletWithToken : SyncedServer :=
  runFrom (step plainOps plainCrypto) (start plainIssuer .default 0)
    [.call (.mint "a1" 100 ⟨"t1", 1000000000, 1000000000⟩)]

/-- The heartbeat is relayed at this time. -/
def relayAt (s : SyncedServer) (now : Int) : SyncedServer × RelayStatus × List String :=
  s.relayHeartbeat plainOps plainHeartbeat ⟨now, now⟩

theorem relay_again_iff_walletWithToken :
    let before := (walletWithToken.relayAt 562600000000).1
    let after := (before.relayAt 1167300000000).1
    (after.lastSync = before.lastSync ↔
      before.TooOld plainOps plainHeartbeat ⟨1167300000000, 1167300000000⟩ ∨
        ∀ tokenId ∈ plainHeartbeat.tokenIds,
          before.IssuedTo tokenId (Hex.encode plainHeartbeat.walletPk) →
            before.lastSync.get? tokenId = some 1167300000000) ∧
    ((∀ tokenId now, before.isTokenExpired tokenId now = true →
        after.isTokenExpired tokenId now = true) ↔
      before.TooOld plainOps plainHeartbeat ⟨1167300000000, 1167300000000⟩ ∨
        ∀ token ∈ before.run.server.issuer.issuedTokens.items,
          token.tokenId ∈ before.refreshable plainHeartbeat →
            wholeSeconds 1167300000000 ≤ before.lastSyncTs token) :=
  @relay_again_iff plainOps plainCrypto walletWithToken plainHeartbeat ⟨562600000000, 562600000000⟩
    ⟨1167300000000, 1167300000000⟩ [] (by decide +kernel)

/-- The relay keeps the heartbeat and relays it once more just before it is too old, and the token is
good for another week. -/
theorem relayed_twice_walletWithToken :
    let once := walletWithToken.relayAt 562600000000
    let twice := once.1.relayAt 1167300000000
    once.2 = (.ok, ["t1"]) ∧ twice.2 = (.ok, ["t1"]) ∧
      once.1.lastSync.get? "t1" = some 562600000000 ∧
      twice.1.lastSync.get? "t1" = some 1167300000000 ∧
      once.1.isTokenExpired "t1" 1168000000000 = true ∧
      twice.1.isTokenExpired "t1" 1168000000000 = false := by
  decide +kernel

end SyncedServer

end PocketCash.Offline
