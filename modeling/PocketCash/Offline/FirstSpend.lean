import PocketCash.Library.Hex
import PocketCash.Offline.Payout

/-!
# Whose first transfer settles

A transfer is verified under the key it names itself, and the token it spends by the signature of
the issuer on the token's root. Nothing compares the sender of a transfer without a parent with the
key to which the root was minted, so anybody can settle the first transfer of a token. It is the
owner's if it is signed with the owner's key.
-/

namespace PocketCash.Offline

/-- A signature on a message verifies under one public key only, whose text `bytes.fromhex` reads. -/
def Crypto.Exclusive (c : Crypto) : Prop :=
  ∀ m signature pk pk', c.verify m signature pk = true → c.verify m signature pk' = true →
    Hex.decode pk = Hex.decode pk'

namespace ReconciliationServer

/-- The sender of a transfer without a parent is the key to which the token's root was minted. -/
def FromOwner (s : ReconciliationServer) (transfer : Transfer) (token : Token) : Prop :=
  transfer.parentTransferId = none →
    (s.issuer.issuedTokens.find? token.origin).map Token.currentOwner = some transfer.senderPk
  deriving Decidable

/-- Every accepted transfer without a parent was sent by the owner of the token's root. -/
def FirstSpentByOwner (s : ReconciliationServer) : Prop :=
  ∀ q ∈ s.acceptedTransfers, s.FromOwner q.1 q.2
  deriving Decidable

/-- A transfer without a parent, if it is signed at all, is signed with the key to which the token's
root was minted, and does not spell this key in another way. -/
def OwnerSigned (c : Crypto) (s : ReconciliationServer) (transfer : Transfer) (token : Token) :
    Prop :=
  transfer.parentTransferId = none → verifyTransfer c transfer = true →
    ∀ root ∈ s.issuer.issuedTokens.find? token.origin,
      c.verify (.transfer transfer.signingPayload) transfer.signature root.currentOwner = true ∧
        (Hex.decode transfer.senderPk = Hex.decode root.currentOwner →
          transfer.senderPk = root.currentOwner)
  deriving Decidable

/-- What passes the checks of the server was sent by the owner exactly if the owner signed it. -/
lemma fromOwner_iff_ownerSigned {c : Crypto} (hc : c.Exclusive) {s : ReconciliationServer}
    {transfer : Transfer} {token : Token} {now : Int} (h : s.Accepts c transfer token now) :
    s.FromOwner transfer token ↔ s.OwnerSigned c transfer token := by
  obtain ⟨root, hroot⟩ := exists_root_of_verify h.root
  simp only [FromOwner, OwnerSigned, hroot, Option.map_some, Option.some.injEq, Option.mem_some_iff]
  apply imp_congr_right
  intro _
  constructor
  · rintro howner - _ rfl
    rw [howner]
    exact ⟨h.signed, fun _ => rfl⟩
  · intro hsigned
    obtain ⟨hverify, hspelling⟩ := hsigned h.signed root rfl
    exact (hspelling (hc _ _ _ _ h.signed hverify)).symm

lemma FirstSpentByOwner.accept {c : Crypto} (hc : c.Exclusive) {s : ReconciliationServer}
    {transfer : Transfer} {token : Token} {now : Int} (h : s.FirstSpentByOwner)
    (hsigned : s.OwnerSigned c transfer token) (haccepts : s.Accepts c transfer token now)
    (settledAt : Int) : (s.accept c transfer token settledAt).FirstSpentByOwner := by
  have hfirst : s.FromOwner transfer token := (fromOwner_iff_ownerSigned hc haccepts).mpr hsigned
  simp only [FirstSpentByOwner, ReconciliationServer.accept, List.forall_mem_append,
    List.forall_mem_singleton]
  exact ⟨h, hfirst⟩

/-- Issuing more tokens does not change whose transfers were accepted. -/
lemma FirstSpentByOwner.of_issued {s s' : ReconciliationServer} (htables : s'.tables = s.tables)
    (hroots : ∀ id root, s.issuer.issuedTokens.find? id = some root →
      s'.issuer.issuedTokens.find? id = some root)
    (h : s.FirstSpentByOwner) : s'.FirstSpentByOwner := by
  simp only [tables, Prod.mk.injEq] at htables
  obtain ⟨-, -, -, haccepted, -⟩ := htables
  intro q hq hparent
  rw [haccepted] at hq
  obtain ⟨root, hroot, howner⟩ := Option.map_eq_some_iff.mp (h q hq hparent)
  rw [hroots _ _ hroot, Option.map_some, howner]

end ReconciliationServer

namespace ServerRun

open ReconciliationServer

lemma firstSpentByOwner_step {c : Crypto} (hc : c.Exclusive) {run : ServerRun} {e : ServerEvent}
    (hfresh : run.FreshIds e) (hsigned : run.OnTokens c (OwnerSigned c) e)
    (h : run.server.FirstSpentByOwner) : (run.step c e).server.FirstSpentByOwner := by
  rcases run.step_tables c e with hsame | ⟨bundle, readings, rfl, hbundle⟩
  · exact h.of_issued hsame fun _ _ => find?_step hfresh
  · rw [hbundle]
    exact processBundle_invariant hsigned h fun s handled _ token hs hsigned haccepts =>
      hs.accept hc hsigned haccepts _

/-- In every run whose first transfers are signed by the owners of the tokens' roots, only the
owners' first transfers settle. And a transfer that passes the checks of the server in whatever state
was sent by the owner exactly if it was so signed. -/
theorem first_spent_by_owner {c : Crypto} (hc : c.Exclusive) (issuer : Issuer)
    (policy : PolicyConfig) (time : Int) :
    (∀ es, Along (step c) (fun run e => run.FreshIds e ∧ run.OnTokens c (OwnerSigned c) e)
        (start issuer policy time) es →
      (runFrom (step c) (start issuer policy time) es).server.FirstSpentByOwner) ∧
    ∀ (s : ReconciliationServer) transfer token now, s.Accepts c transfer token now →
      (s.FromOwner transfer token ↔ s.OwnerSigned c transfer token) := by
  constructor
  · intro es hrun
    exact Along.invariant (I := fun run => run.server.FirstSpentByOwner)
      (fun _ _ hg => firstSpentByOwner_step hc hg.1 hg.2) hrun fun _ hq => by cases hq
  · exact fun _ _ _ _ => fromOwner_iff_ownerSigned hc

end ServerRun

lemma plainCrypto_exclusive : plainCrypto.Exclusive := by
  intro m signature pk pk' h h'
  rw [beq_iff_eq.mp h] at h'
  have htext := beq_iff_eq.mp h'
  simp only [String.append_right_inj, String.append_left_inj] at htext
  rw [htext]

namespace ServerRun

open ReconciliationServer

theorem first_spent_by_owner_plainDeposits :
    (runFrom (step plainCrypto) (start plainIssuer .default 0)
      [.mint "alice" 100 ⟨"t1", 1000000000, 1000000000⟩,
        .bundle (plainBundle [plainTransfer "x1" "t1" "alice" "bob"] [plainToken "t1" "alice"])
          fun _ => ⟨1001000000, 1001000000⟩]).server.FirstSpentByOwner :=
  (first_spent_by_owner plainCrypto_exclusive plainIssuer .default 0).1 _ (by decide +kernel)

/-- Mallory signs a first transfer of Alice's token to herself. -/
def stolenDeposit : List ServerEvent :=
  [.mint "alice" 100 ⟨"t1", 1000000000, 1000000000⟩,
    .bundle (plainBundle [plainTransfer "x1" "t1" "mallory" "mallory"] [plainToken "t1" "alice"])
      fun _ => ⟨1001000000, 1001000000⟩]

/-- The server accepts it. -/
theorem not_first_spent_by_owner :
    plainCrypto.Exclusive ∧
      (runFrom (step plainCrypto) (start plainIssuer .default 0)
        stolenDeposit).server.acceptedTransfers.map (fun q => (q.1.parentTransferId, q.1.senderPk))
          = [(none, "mallory")] ∧
      ¬ (runFrom (step plainCrypto) (start plainIssuer .default 0)
        stolenDeposit).server.FirstSpentByOwner :=
  ⟨plainCrypto_exclusive, by decide +kernel, by decide +kernel⟩

end ServerRun

end PocketCash.Offline
