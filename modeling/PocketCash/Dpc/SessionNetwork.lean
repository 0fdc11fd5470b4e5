import PocketCash.Dpc.BleSession
import PocketCash.Dpc.Network

/-!
# Payments over BLE sessions

A network of `dpc` wallets whose parcels travel as encrypted bytes over numbered sessions. Whoever
carries the bytes may drop, replay, reorder and redirect them, and may hand over any bytes of its own
as long as it does not forge a ciphertext.

Such a network behaves like the one that delivers the parcels themselves. The constructors of a
record and of its successors have all read the previous hash, so every record that was ever produced
survives its JSON text.
-/

namespace PocketCash.Dpc

/-- A session and the bytes sent over it under its present key, with the parcel in them. -/
structure Link where
  session : BLESession
  frames : List (Bytes × Parcel)

/-- The bytes that were sent under the present key. -/
def Link.Sent (l : Link) (encryptedBytes : Bytes) : Prop := encryptedBytes ∈ l.frames.map Prod.fst

instance (l : Link) (encryptedBytes : Bytes) : Decidable (l.Sent encryptedBytes) :=
  inferInstanceAs (Decidable (_ ∈ _))

structure SessionNetwork (c : Crypto) where
  network : Network c
  links : ℕ → Link

namespace SessionNetwork

variable {c : Crypto}

inductive Event
  | network (e : Network.Event)
  | handshake (i : ℕ) (draw : HandshakeDraw)
  | transmit (i : ℕ) (parcel : Parcel) (nonce : Bytes)
  | receive (i : ℕ) (owner : String) (encryptedBytes : Bytes) (now receivedAt : Int)

variable (s : SessionCrypto)

/-- One event. Bytes that the session refuses are dropped. -/
def step (n : SessionNetwork c) : Event → SessionNetwork c
  | .network e => { n with network := n.network.step e }
  | .handshake i draw =>
    match (n.links i).session.handshake s draw with
    | (_, .error _) => n
    | (session, .ok _) => { n with links := Function.update n.links i ⟨session, []⟩ }
  | .transmit i (token, chain) nonce =>
    match (n.links i).session.encryptPayload s token chain nonce with
    | .error _ => n
    | .ok encryptedBytes =>
      { n with
        links := Function.update n.links i
          ⟨(n.links i).session, (encryptedBytes, token, chain) :: (n.links i).frames⟩ }
  | .receive i owner encryptedBytes now receivedAt =>
    match (n.links i).session.decryptPayload c s encryptedBytes with
    | .error _ => n
    | .ok parcel => { n with network := n.network.step (.deliver owner parcel now receivedAt) }

/-- A new network and no bytes on any link. -/
structure Start (n : SessionNetwork c) : Prop where
  network : n.network.Start
  links : ∀ i, (n.links i).frames = []

/-- Only produced parcels are sent, each under a nonce of 12 bytes, and bytes that open under the key
of a session were sent under this key. -/
def Legal (n : SessionNetwork c) : Event → Prop
  | .network e => n.network.Legal e
  | .handshake .. => True
  | .transmit _ parcel nonce => parcel ∈ n.network.produced ∧ nonce.length = 12
  | .receive i _ encryptedBytes _ _ =>
    ((n.links i).session.decryptPayload c s encryptedBytes).isOk = true →
      (n.links i).Sent encryptedBytes

instance (n : SessionNetwork c) : DecidablePred (n.Legal s)
  | .network e => inferInstanceAs (Decidable (n.network.Legal e))
  | .handshake .. => .isTrue trivial
  | .transmit .. => inferInstanceAs (Decidable (_ ∧ _))
  | .receive .. => inferInstanceAs (Decidable (_ → _))

/-- What an event does to the wallets: the bytes of a parcel deliver the parcel, and others nothing. -/
def asPlain (n : SessionNetwork c) : Event → List Network.Event
  | .network e => [e]
  | .receive i owner encryptedBytes now receivedAt =>
    match (n.links i).frames.lookup encryptedBytes with
    | none => []
    | some parcel => [.deliver owner parcel now receivedAt]
  | _ => []

/-! ### The invariant -/

/-- The previous hashes of the parcel are hexadecimal. -/
def Linked (p : Parcel) : Prop := ∀ r ∈ p.2, r.HexLinked

/-- The bytes of a frame are its parcel, sealed under the key of the session. -/
def Frames (n : SessionNetwork c) (l : Link) : Prop :=
  ∀ frame ∈ l.frames, frame.2 ∈ n.network.produced ∧ ∃ key nonce : Bytes,
    l.session.sessionKey = some key ∧ nonce.length = 12 ∧
      frame.1 = BLESession.sealed s key frame.2.1 frame.2.2 nonce

structure Inv (n : SessionNetwork c) : Prop where
  linked : ∀ p ∈ n.network.produced, Linked p
  frames : ∀ i, n.Frames s (n.links i)

variable {s}

lemma Start.inv {n : SessionNetwork c} (h : n.Start) : n.Inv s where
  linked := by simp [h.network.produced]
  frames := by simp [Frames, h.links]

lemma hexLinked_of_computeChainHash {r : TransferRecord} {chainHash : String}
    (h : r.computeChainHash c = .ok chainHash) : r.HexLinked := by
  obtain ⟨prev, hprev, -⟩ := bind_eq_ok_iff.mp h
  exact ⟨prev, fromhex_eq_ok_iff.mp hprev⟩

lemma hexLinked_of_recordsValid {token : Token} {records : List TransferRecord} {position : Nat}
    {previousHash : String} {previousHop : Int}
    (h : RecordsValid c token position previousHash previousHop records) :
    ∀ r ∈ records, r.HexLinked := by
  induction records generalizing position previousHash previousHop with
  | nil => simp
  | cons r records ih =>
    exact List.forall_mem_cons.mpr ⟨hexLinked_of_computeChainHash h.1.chainHash, ih h.2⟩

/-- Every produced record was constructed, or was in a chain that has been validated. -/
lemma linked_effect {n n' : Network c} {e : Network.Event} (h : ∀ p ∈ n.produced, Linked p)
    (heffect : n.Effect e n') : ∀ p ∈ n'.produced, Linked p := by
  cases heffect with
  | refused | gaveUp | accepted | reloaded => exact h
  | @minted issuerKeypair receiverPubkeyHex amountSubunits draw genesis hmade =>
    refine List.forall_mem_cons.mpr ⟨?_, h⟩
    exact List.forall_mem_singleton.mpr (hexLinked_of_computeChainHash hmade.chainHash)
  | sent hw hspend htransfer =>
    refine List.forall_mem_cons.mpr ⟨?_, h⟩
    obtain ⟨-, hvalid, tip, record, hop, -, hchain, -, -, hmade⟩ :=
      DPCWallet.transfer_eq_ok htransfer
    rw [Linked, hchain]
    refine List.forall_mem_append.mpr ⟨hexLinked_of_recordsValid hvalid.records, ?_⟩
    exact List.forall_mem_singleton.mpr (hexLinked_of_computeChainHash hmade.chainHash)

/-- No event takes a parcel back. -/
lemma produced_subset_effect {n n' : Network c} {e : Network.Event} (heffect : n.Effect e n') :
    n.produced ⊆ n'.produced := by
  cases heffect with
  | refused | gaveUp | accepted | reloaded => exact List.Subset.refl _
  | minted | sent => exact List.subset_cons_self _ _

lemma Inv.network {n : SessionNetwork c} (h : n.Inv s) (e : Network.Event) :
    Inv s { n with network := n.network.step e } where
  linked := linked_effect h.linked (n.network.effect_step e)
  frames := by
    intro i frame hframe
    obtain ⟨hproduced, hsealed⟩ := h.frames i frame hframe
    exact ⟨produced_subset_effect (n.network.effect_step e) hproduced, hsealed⟩

lemma Inv.update {n : SessionNetwork c} (h : n.Inv s) {i : ℕ} {l : Link} (hl : n.Frames s l) :
    Inv s { n with links := Function.update n.links i l } where
  linked := h.linked
  frames := by
    intro j
    dsimp only
    by_cases hj : j = i
    · subst hj
      rw [Function.update_self]
      exact hl
    · rw [Function.update_of_ne hj]
      exact h.frames j

lemma step_transmit {n : SessionNetwork c} {i : ℕ} {key : Bytes}
    (hkey : (n.links i).session.sessionKey = some key) (parcel : Parcel) (nonce : Bytes) :
    n.step s (.transmit i parcel nonce) = { n with
      links := Function.update n.links i ⟨(n.links i).session,
        (BLESession.sealed s key parcel.1 parcel.2 nonce, parcel) :: (n.links i).frames⟩ } := by
  obtain ⟨token, chain⟩ := parcel
  rw [SessionNetwork.step, BLESession.encryptPayload_eq hkey]

lemma links_receive (n : SessionNetwork c) (i : ℕ) (owner : String) (encryptedBytes : Bytes)
    (now receivedAt : Int) :
    (n.step s (.receive i owner encryptedBytes now receivedAt)).links = n.links := by
  rw [SessionNetwork.step]
  split <;> rfl

lemma Inv.step {n : SessionNetwork c} {e : Event} (hlegal : n.Legal s e) (h : n.Inv s) :
    (n.step s e).Inv s := by
  cases e with
  | network e => exact h.network e
  | handshake i draw =>
    rw [SessionNetwork.step]
    split
    · exact h
    · exact h.update (by simp [Frames])
  | transmit i parcel nonce =>
    obtain ⟨hproduced, hnonce⟩ := hlegal
    cases hkey : (n.links i).session.sessionKey with
    | none =>
      rw [SessionNetwork.step, BLESession.encryptPayload, hkey]
      exact h
    | some key =>
      rw [step_transmit hkey]
      apply h.update
      exact List.forall_mem_cons.mpr ⟨⟨hproduced, key, nonce, hkey, hnonce, rfl⟩, h.frames i⟩
  | receive i owner encryptedBytes now receivedAt =>
    rw [SessionNetwork.step]
    split
    · exact h
    · exact h.network _

/-! ### Bytes and parcels -/

/-- A session opens what was sent over it as the parcel that was sent. -/
lemma Inv.decryptPayload (hinverse : s.Inverse) (htagged : s.Tagged) {n : SessionNetwork c}
    (h : n.Inv s) {i : ℕ} {encryptedBytes : Bytes} {parcel : Parcel}
    (hframe : (encryptedBytes, parcel) ∈ (n.links i).frames) :
    (n.links i).session.decryptPayload c s encryptedBytes = .ok parcel := by
  obtain ⟨hproduced, key, nonce, hkey, hnonce, hbytes⟩ := h.frames i _ hframe
  dsimp only at hbytes
  rw [hbytes, BLESession.decryptPayload_sealed hinverse htagged hnonce hkey]
  exact if_pos (h.linked _ hproduced)

/-- What is handed to a session is the parcel in a frame, or is refused. -/
lemma Inv.receive (hinverse : s.Inverse) (htagged : s.Tagged) {n : SessionNetwork c} (h : n.Inv s)
    {i : ℕ} {owner : String} {encryptedBytes : Bytes} {now receivedAt : Int}
    (hlegal : n.Legal s (.receive i owner encryptedBytes now receivedAt)) :
    (∃ parcel ∈ n.network.produced,
      n.asPlain (.receive i owner encryptedBytes now receivedAt)
        = [.deliver owner parcel now receivedAt] ∧
      (n.links i).session.decryptPayload c s encryptedBytes = .ok parcel) ∨
    ∃ e, n.asPlain (.receive i owner encryptedBytes now receivedAt) = [] ∧
      (n.links i).session.decryptPayload c s encryptedBytes = .error e := by
  rw [asPlain]
  cases hlookup : (n.links i).frames.lookup encryptedBytes with
  | some parcel =>
    have hframe : (encryptedBytes, parcel) ∈ (n.links i).frames := by
      obtain ⟨before, after, hframes, -⟩ := List.lookup_eq_some_iff.mp hlookup
      rw [hframes]
      exact List.mem_append_right _ List.mem_cons_self
    exact .inl ⟨parcel, (h.frames i _ hframe).1, rfl, h.decryptPayload hinverse htagged hframe⟩
  | none =>
    right
    cases hdecrypt : (n.links i).session.decryptPayload c s encryptedBytes with
    | error e => exact ⟨e, rfl, rfl⟩
    | ok received =>
      obtain ⟨frame, hframe, rfl⟩ := List.mem_map.mp (hlegal (by rw [hdecrypt]; rfl))
      have hnot := List.lookup_eq_none_iff.mp hlookup frame hframe
      simp at hnot

/-- Over sessions the wallets do what they would do with the parcels themselves. -/
lemma implements_plain (hinverse : s.Inverse) (htagged : s.Tagged) :
    Implements (SessionNetwork.step (c := c) s) (Legal s) Network.step Network.Legal
      SessionNetwork.network asPlain (Inv s) where
  keeps _ _ hlegal h := h.step hlegal
  simulates n e hlegal h := by
    cases e with
    | network e => rfl
    | handshake i draw =>
      rw [SessionNetwork.step]
      split <;> rfl
    | transmit i parcel nonce =>
      rw [SessionNetwork.step]
      split <;> rfl
    | receive i owner encryptedBytes now receivedAt =>
      rw [SessionNetwork.step]
      rcases h.receive hinverse htagged hlegal with
        ⟨parcel, -, hplain, hdecrypt⟩ | ⟨e, hplain, hdecrypt⟩
      · rw [hplain, hdecrypt]
        rfl
      · rw [hplain, hdecrypt]
        rfl
  admissible n e hlegal h := by
    cases e with
    | network e => exact ⟨hlegal, trivial⟩
    | handshake | transmit => trivial
    | receive i owner encryptedBytes now receivedAt =>
      rcases h.receive hinverse htagged hlegal with
        ⟨parcel, hproduced, hplain, -⟩ | ⟨e, hplain, -⟩
      · rw [hplain]
        exact ⟨hproduced, trivial⟩
      · rw [hplain]
        trivial

/-- In every run over sessions the wallets and the ledger are as in the run in which the parcels are
delivered themselves. So no token is an entry of two wallets. -/
theorem network_eq_plain (hinverse : s.Inverse) (htagged : s.Tagged) {n : SessionNetwork c}
    {es : List Event} (hstart : n.Start) (hrun : Along (step s) (Legal s) n es) :
    (runFrom (step s) n es).network
      = runFrom Network.step n.network (eventsAlong (step s) asPlain n es) ∧
    Along Network.step Network.Legal n.network (eventsAlong (step s) asPlain n es) ∧
    (runFrom (step s) n es).network.OnePurse := by
  obtain ⟨hview, hplain⟩ := (implements_plain hinverse htagged).run hstart.inv hrun
  refine ⟨hview, hplain, ?_⟩
  rw [hview]
  exact (Along.invariant (fun _ _ hlegal h => Network.Inv.step hlegal h) hplain
    hstart.network.inv).onePurse

/-- Alice is sent a minted token, after bytes that nobody sealed. -/
def plainLinks : SessionNetwork plainCrypto where
  network := Network.plainNetwork
  links _ := ⟨.new Custody.issuer Custody.alice, []⟩

namespace OverSession

def nonce : Bytes := List.replicate 12 7
def key : Bytes :=
  plainSession.hkdf ([3] ++ [4]) (utf8 "DPC-ChaCha20-Session-v1") (List.zipWith (· ^^^ ·) [1] [2])
def frame : Bytes := BLESession.sealed plainSession key Custody.token [Custody.genesis] nonce

def opening : List Event := [
  .network (.mint Custody.issuer Network.RoundTrip.aliceKey 500 ⟨"t1", 1000, "n0"⟩),
  .handshake 0 ⟨[1], [2], [3], [4]⟩]

def events : List Event := opening ++ [
  .transmit 0 Network.RoundTrip.minted nonce,
  .receive 0 Network.RoundTrip.aliceKey [0] 1001 1001,
  .receive 0 Network.RoundTrip.aliceKey frame 1001 1001]

lemma sessionKey_opening :
    ((runFrom (step plainSession) plainLinks opening).links 0).session.sessionKey = some key := by
  decide

lemma along_events : Along (step plainSession) (Legal plainSession) plainLinks events := by
  refine Along.append_iff.mpr ⟨⟨by decide, trivial, trivial⟩, ?_⟩
  refine ⟨⟨by decide +kernel, rfl⟩, ?_⟩
  rw [step_transmit sessionKey_opening]
  refine ⟨fun hopens => absurd hopens (by decide), ?_, trivial⟩
  intro _
  rw [links_receive, Link.Sent]
  dsimp only
  rw [Function.update_self]
  exact List.mem_cons_self

end OverSession

theorem network_eq_plain_overSession :
    (runFrom (step plainSession) plainLinks OverSession.events).network
      = runFrom Network.step plainLinks.network
        (eventsAlong (step plainSession) asPlain plainLinks OverSession.events) ∧
    Along Network.step Network.Legal plainLinks.network
      (eventsAlong (step plainSession) asPlain plainLinks OverSession.events) ∧
    (runFrom (step plainSession) plainLinks OverSession.events).network.OnePurse :=
  network_eq_plain plainSession_inverse plainSession_tagged
    ⟨⟨by decide, rfl, rfl⟩, fun _ => rfl⟩ OverSession.along_events

end SessionNetwork

end PocketCash.Dpc
