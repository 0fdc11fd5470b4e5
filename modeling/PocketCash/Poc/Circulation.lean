import PocketCash.Library.Transit
import PocketCash.Poc.FirstClaim
import PocketCash.Poc.RefusedSend
import PocketCash.Poc.Route
import PocketCash.Poc.Settlement

/-!
# Circulation of `dpc_poc` tokens

Wallets issue tokens, send them and receive what was sent, in any order, late, repeatedly, at the
wrong wallet or never, and take tokens out to submit them to the ledger. What the issuers have signed
is conserved: each issued token is in one register, on its way to one wallet, lost in a transfer of a
wallet to itself, or deposited.
-/

namespace PocketCash.Poc

/-- What the issuer signs of a token, and the signature. -/
structure Face where
  tokenId : String
  denomination : PyFloat
  issuerPubkeyHex : String
  issuedAt : PyFloat
  issuerSignatureHex : String
  deriving DecidableEq

/-- No transfer changes the face of a token. -/
def Token.face (t : Token) : Face :=
  ⟨t.tokenId, t.denomination, t.issuerPubkeyHex, t.issuedAt, t.issuerSignatureHex⟩

lemma Token.validIssuerSignature_of_face_eq {t t' : Token} (h : t.face = t'.face) (c : Crypto) :
    t.validIssuerSignature c = t'.validIssuerSignature c := by
  simp only [Token.face, Face.mk.injEq] at h
  obtain ⟨hid, hdenomination, hissuer, hissued, hsignature⟩ := h
  simp only [validIssuerSignature, signatureMessage, hid, hdenomination, hissuer, hissued,
    hsignature]

@[simp] lemma checkLifecycleReset_face (token : Token) (walletPubkeyHex : String) :
    (checkLifecycleReset token walletPubkeyHex).face = token.face := by
  rw [checkLifecycleReset]
  split_ifs <;> rfl

@[simp] lemma Token.face_passedTo (t : Token) (recipientPubkeyHex chainHash : String) :
    (t.passedTo recipientPubkeyHex chainHash).face = t.face := rfl

namespace Wallet

/-- The faces of the held tokens. -/
def faces (w : Wallet) : List Face := w.state.unspentTokens.items.map fun entry => entry.2.face

variable {w : Wallet} {tokenId : String} {token : Token}

/-- A token that is taken out leaves the others. -/
lemma perm_faces_of_pop {w' : Wallet} (hget : w.state.unspentTokens.get? tokenId = some token)
    (hpop : w'.state.unspentTokens = w.state.unspentTokens.pop tokenId) :
    w.faces.Perm (token.face :: w'.faces) := by
  have hfind : w.state.unspentTokens.find? tokenId = some (tokenId, token) :=
    KeyedList.find?_eq_some_iff.mpr ⟨Dict.get?_eq_some_iff.mp hget, rfl⟩
  rw [faces, faces, hpop]
  exact (KeyedList.perm_pop hfind).map fun entry => entry.2.face

/-- A token under a new id joins the others. -/
lemma perm_faces_of_set {w' : Wallet} (hnew : tokenId ∉ w.state.unspentTokens.keys)
    (hset : w'.state.unspentTokens = w.state.unspentTokens.set tokenId token) :
    w'.faces.Perm (token.face :: w.faces) := by
  rw [faces, faces, hset, Dict.set, KeyedList.items_put_of_notMem hnew, List.map_append]
  exact List.perm_append_singleton _ _

lemma perm_faces_issueToken {c : Crypto} {denomination : PyFloat} {draw : IssueDraw}
    (hnew : draw.tokenId ∉ w.state.unspentTokens.keys) :
    (w.issueToken c denomination draw).1.faces.Perm
      ((w.issueToken c denomination draw).2.face :: w.faces) :=
  perm_faces_of_set hnew rfl

lemma perm_faces_takeToken (hnew : token.tokenId ∉ w.state.unspentTokens.keys) (nonceHex : String) :
    (w.takeToken token nonceHex).faces.Perm (token.face :: w.faces) := by
  rw [← checkLifecycleReset_face token w.pubkeyHex]
  exact perm_faces_of_set hnew rfl

lemma perm_faces_dropToken (hget : w.state.unspentTokens.get? tokenId = some token)
    (nonceHex : String) : w.faces.Perm (token.face :: (w.dropToken tokenId nonceHex).faces) :=
  perm_faces_of_pop hget rfl

/-- What is left in the wallet after a deposit. -/
lemma depositToIssuer_of_get? (hget : w.state.unspentTokens.get? tokenId = some token) :
    w.depositToIssuer tokenId = ({ w with
      state := { w.state with unspentTokens := w.state.unspentTokens.pop tokenId } }, .ok token) := by
  rw [depositToIssuer, hget]

lemma perm_faces_depositToIssuer (hget : w.state.unspentTokens.get? tokenId = some token) :
    w.faces.Perm (token.face :: (w.depositToIssuer tokenId).1.faces) := by
  rw [depositToIssuer_of_get? hget]
  exact perm_faces_of_pop hget rfl

lemma FiledByIds.tokenId_mem_faces (h : w.FiledByIds) (hmem : tokenId ∈ w.state.unspentTokens.keys) :
    tokenId ∈ w.faces.map Face.tokenId := by
  obtain ⟨token, hget⟩ := Dict.mem_keys_iff_get?.mp hmem
  obtain rfl := h tokenId token hget
  exact List.mem_map.mpr ⟨_, List.mem_map.mpr ⟨_, Dict.get?_eq_some_iff.mp hget, rfl⟩, rfl⟩

lemma FiledByIds.set {w' : Wallet} (h : w.FiledByIds) (htoken : token.tokenId = tokenId)
    (hset : w'.state.unspentTokens = w.state.unspentTokens.set tokenId token) : w'.FiledByIds := by
  intro id t hget
  rw [hset, Dict.get?_set] at hget
  split_ifs at hget with hid
  · rw [← Option.some.inj hget, htoken, hid]
  · exact h id t hget

lemma FiledByIds.pop {w' : Wallet} (h : w.FiledByIds)
    (hpop : w'.state.unspentTokens = KeyedList.pop w.state.unspentTokens tokenId) :
    w'.FiledByIds := by
  intro id t hget
  rw [hpop, Dict.get?_pop] at hget
  split_ifs at hget
  exact h id t hget

end Wallet

/-! ### Transfers on their way -/

/-- What the registers of spent nonces remember of a transfer. -/
def nonceTag (transfer : TransferRecord × Token) : String × String :=
  (transfer.2.tokenId, transfer.1.nonceHex)

namespace Network

/-- The addressee has noted the nonce of the transfer. -/
def Seen (n : Network) (transfer : TransferRecord × Token) : Prop :=
  ∃ w ∈ n.wallets.items, w.pubkeyHex = transfer.2.ownerPubkeyHex ∧
    nonceTag transfer ∈ w.state.spentNonces

instance (n : Network) : DecidablePred n.Seen := fun transfer =>
  inferInstanceAs (Decidable (∃ w ∈ n.wallets.items, w.pubkeyHex = transfer.2.ownerPubkeyHex ∧
    nonceTag transfer ∈ w.state.spentNonces))

/-- The transfers that can still be received. -/
def inFlight (n : Network) : List (TransferRecord × Token) := inTransit n.transfers n.Seen

/-- The transfers of a wallet to itself. It has noted their nonces when it sent them. -/
def lost (n : Network) : List (TransferRecord × Token) :=
  n.transfers.filter fun transfer =>
    transfer.1.prevOwnerPubkeyHex = transfer.2.ownerPubkeyHex

/-- The faces of all held tokens. -/
def held (n : Network) : List Face := n.wallets.items.flatMap Wallet.faces

section

variable {n : Network} {w w' : Wallet} {transfers : List (TransferRecord × Token)}
  {transfer : TransferRecord × Token}

lemma seen_iff_of_owner (hw : n.wallets.find? w'.pubkeyHex = some w)
    (howner : w'.pubkeyHex = transfer.2.ownerPubkeyHex) :
    n.Seen transfer ↔ nonceTag transfer ∈ w.state.spentNonces := by
  obtain ⟨hmem, hkey⟩ := KeyedList.find?_eq_some_iff.mp hw
  constructor
  · rintro ⟨v, hv, hvkey, hseen⟩
    rwa [← KeyedList.eq_of_key_eq hv hmem (hvkey.trans (howner.symm.trans hkey.symm))]
  · intro hseen
    exact ⟨w, hmem, hkey.trans howner, hseen⟩

lemma seen_put_iff : Seen ⟨n.wallets.put w', transfers⟩ transfer ↔
    if w'.pubkeyHex = transfer.2.ownerPubkeyHex then nonceTag transfer ∈ w'.state.spentNonces
    else n.Seen transfer := by
  split_ifs with howner
  · exact seen_iff_of_owner KeyedList.find?_put_self howner
  · constructor
    · rintro ⟨v, hv, hkey, hseen⟩
      rcases KeyedList.mem_put.mp hv with rfl | ⟨hv, -⟩
      · exact absurd hkey howner
      · exact ⟨v, hv, hkey, hseen⟩
    · rintro ⟨v, hv, hkey, hseen⟩
      exact ⟨v, KeyedList.mem_put.mpr (.inr ⟨hv, fun h => howner (h.symm.trans hkey)⟩), hkey, hseen⟩

/-- A wallet notes a nonce. -/
lemma seen_put_insert_iff (hw : n.wallets.find? w'.pubkeyHex = some w) {tag : String × String}
    (hnonces : w'.state.spentNonces = insert tag w.state.spentNonces) :
    Seen ⟨n.wallets.put w', transfers⟩ transfer ↔
      (w'.pubkeyHex = transfer.2.ownerPubkeyHex ∧ nonceTag transfer = tag) ∨ n.Seen transfer := by
  rw [seen_put_iff]
  split_ifs with howner
  · rw [hnonces, Finset.mem_insert, seen_iff_of_owner hw howner, and_iff_right howner]
  · rw [or_iff_right fun h => howner h.1]

/-- A wallet keeps its nonces. -/
lemma seen_put_same_iff (hw : n.wallets.find? w'.pubkeyHex = some w)
    (hnonces : w'.state.spentNonces = w.state.spentNonces) :
    Seen ⟨n.wallets.put w', transfers⟩ transfer ↔ n.Seen transfer := by
  rw [seen_put_iff, hnonces]
  split_ifs with howner
  · exact (seen_iff_of_owner hw howner).symm
  · rfl

end

end Network

/-! ### Runs with deposits -/

/-- The network and the ledger of the issuer, the tokens that were issued, and the deposits. -/
structure Circulation where
  network : Network
  ledger : IssuerLedger
  issued : List Token
  deposits : List Claim

namespace Circulation

/-- An event of the network, or a wallet takes out a token and submits it under its key. -/
inductive Event
  | network (e : Network.Event)
  | deposit (pubkeyHex tokenId : String)

/-- The token that an event issues. -/
def issuedBy (c : Crypto) (n : Network) : Network.Event → List Token
  | .issue pubkeyHex denomination draw =>
    match n.wallets.find? pubkeyHex with
    | none => []
    | some w => [(w.issueToken c denomination draw).2]
  | _ => []

/-- One event. -/
def step (c : Crypto) (s : Circulation) : Event → Circulation
  | .network e =>
    { s with network := s.network.step c e, issued := s.issued ++ issuedBy c s.network e }
  | .deposit pubkeyHex tokenId =>
    match s.network.wallets.find? pubkeyHex with
    | none => s
    | some w =>
      match w.depositToIssuer tokenId with
      | (w', .error _) =>
        { s with network := { s.network with wallets := s.network.wallets.put w' } }
      | (w', .ok token) =>
        let network := { s.network with wallets := s.network.wallets.put w' }
        match s.ledger.submitToken c token w.pubkeyHex with
        | .error _ => { s with network := network }
        | .ok (ledger, _) =>
          { s with
            network := network
            ledger := ledger
            deposits := s.deposits ++ [⟨token, w.pubkeyHex⟩] }

/-- New wallets under one policy, and a new ledger. -/
structure Start (c : Crypto) (policy : PolicyConfig) (s : Circulation) : Prop where
  network : s.network.Start c policy
  unspent : ∀ w ∈ s.network.wallets.items, w.state.spentNonces = ∅
  ledger : s.ledger = .new
  issued : s.issued = []
  deposits : s.deposits = []

/-- Token ids are drawn once, and so are the nonces for a token. -/
def Legal (s : Circulation) : Event → Prop
  | .network (.issue _ _ draw) => draw.tokenId ∉ s.issued.map Token.tokenId
  | .network (.send _ tokenId _ _ draw) =>
    (tokenId, draw.nonceHex) ∉ s.network.transfers.map nonceTag
  | _ => True

/-- The faces of the tokens that are in no register. -/
def elsewhere (s : Circulation) : List Face :=
  (s.network.inFlight.map fun transfer => transfer.2.face)
    ++ (s.network.lost.map fun transfer => transfer.2.face)
    ++ s.deposits.map fun claim => claim.token.face

/-- The faces of all tokens, wherever they are. -/
def places (s : Circulation) : List Face := s.network.held ++ s.elsewhere

/-- What an event does. -/
inductive Effect (c : Crypto) (s : Circulation) : Event → Circulation → Prop
  | refused (e : Event) : Effect c s e s
  | issued {w : Wallet} (hw : w ∈ s.network.wallets.items) {denomination : PyFloat}
      {draw : Wallet.IssueDraw} :
      Effect c s (.network (.issue w.pubkeyHex denomination draw))
        { s with
          network := { s.network with
            wallets := s.network.wallets.put (w.issueToken c denomination draw).1 }
          issued := s.issued ++ [(w.issueToken c denomination draw).2] }
  | sent {w : Wallet} (hw : w ∈ s.network.wallets.items) {tokenId recipientPubkeyHex : String}
      {amount : PyFloat} {draw : TransferDraw} {token : Token}
      (hget : w.state.unspentTokens.get? tokenId = some token) (digest : Bytes) :
      Effect c s (.network (.send w.pubkeyHex tokenId recipientPubkeyHex amount draw))
        { s with network :=
          { wallets := s.network.wallets.put (w.dropToken tokenId draw.nonceHex)
            transfers := s.network.transfers ++
              [(token.recordOf c w.privateKeyBytes w.pubkeyHex recipientPubkeyHex amount draw digest,
                token.passedTo recipientPubkeyHex (Hex.encode digest))] } }
  | received {w : Wallet} (hw : w ∈ s.network.wallets.items) (i : ℕ)
      {transfer : TransferRecord × Token} (htransfer : transfer ∈ s.network.transfers)
      (howner : transfer.2.ownerPubkeyHex = w.pubkeyHex)
      (hnew : nonceTag transfer ∉ w.state.spentNonces) :
      Effect c s (.network (.deliver w.pubkeyHex i))
        { s with network := { s.network with
          wallets := s.network.wallets.put (w.takeToken transfer.2 transfer.1.nonceHex) } }
  | deposited {w : Wallet} (hw : w ∈ s.network.wallets.items) {tokenId : String} {token : Token}
      (hget : w.state.unspentTokens.get? tokenId = some token) {ledger : IssuerLedger}
      {result : Submission}
      (hsubmit : s.ledger.submitToken c token w.pubkeyHex = .ok (ledger, result)) :
      Effect c s (.deposit w.pubkeyHex tokenId)
        { s with
          network := { s.network with
            wallets := s.network.wallets.put (w.depositToIssuer tokenId).1 }
          ledger := ledger
          deposits := s.deposits ++ [⟨token, w.pubkeyHex⟩] }
  | raised {w : Wallet} (hw : w ∈ s.network.wallets.items) {tokenId : String} {token : Token}
      (hget : w.state.unspentTokens.get? tokenId = some token) {e : PyError}
      (hsubmit : s.ledger.submitToken c token w.pubkeyHex = .error e) :
      Effect c s (.deposit w.pubkeyHex tokenId)
        { s with network := { s.network with
          wallets := s.network.wallets.put (w.depositToIssuer tokenId).1 } }

lemma effect_step {c : Crypto} {s : Circulation}
    (hreset : ∀ w ∈ s.network.wallets.items, w.ResetDone) (e : Event) :
    s.Effect c e (s.step c e) := by
  have hrefused : ∀ e, s.issued ++ issuedBy c s.network e = s.issued →
      s.network.step c e = s.network → s.Effect c (.network e) (s.step c (.network e)) := by
    intro e hissued hnetwork
    rw [step, hissued, hnetwork]
    exact .refused _
  cases e with
  | network e =>
    cases e with
    | issue pubkeyHex denomination draw =>
      cases hfind : s.network.wallets.find? pubkeyHex with
      | none => exact hrefused _ (by simp [issuedBy, hfind]) (by simp [Network.step, hfind])
      | some w =>
        obtain ⟨hw, rfl⟩ := KeyedList.find?_eq_some_iff.mp hfind
        rw [step, Network.step, issuedBy, hfind]
        exact .issued hw
    | send pubkeyHex tokenId recipientPubkeyHex amount draw =>
      have hissued : s.issued ++ issuedBy c s.network
          (.send pubkeyHex tokenId recipientPubkeyHex amount draw) = s.issued := List.append_nil _
      cases hfind : s.network.wallets.find? pubkeyHex with
      | none => exact hrefused _ hissued (by simp [Network.step, hfind])
      | some w =>
        obtain ⟨hw, rfl⟩ := KeyedList.find?_eq_some_iff.mp hfind
        rcases (hreset w hw).sendToken_cases c tokenId recipientPubkeyHex amount draw with
          ⟨e, hsend⟩ | ⟨record, newToken, hsend⟩
        · apply hrefused _ hissued
          simp [Network.step, hfind, hsend, KeyedList.put_of_find? hfind]
        · obtain ⟨token, digest, hget, -, -, rfl, rfl⟩ := Wallet.sendToken_eq_ok hsend
          rw [step, hissued, Network.step, hfind]
          simp only [hsend]
          rw [hreset w hw tokenId token hget]
          exact .sent hw hget digest
    | deliver pubkeyHex i =>
      have hissued : s.issued ++ issuedBy c s.network (.deliver pubkeyHex i) = s.issued :=
        List.append_nil _
      cases hfind : s.network.wallets.find? pubkeyHex with
      | none => exact hrefused _ hissued (by simp [Network.step, hfind])
      | some w =>
        obtain ⟨hw, rfl⟩ := KeyedList.find?_eq_some_iff.mp hfind
        cases htransfer : s.network.transfers[i]? with
        | none => exact hrefused _ hissued (by simp [Network.step, hfind, htransfer])
        | some transfer =>
          cases hreceive : w.receiveToken c transfer.2 transfer.1 with
          | error e => exact hrefused _ hissued (by simp [Network.step, hfind, htransfer, hreceive])
          | ok w' =>
            obtain ⟨⟨-, -, hnew, -, howner⟩, rfl⟩ := Wallet.receiveToken_eq_ok_iff.mp hreceive
            rw [step, hissued, Network.step, hfind, htransfer]
            simp only [hreceive]
            exact .received hw i (List.mem_of_getElem? htransfer) howner hnew
  | deposit pubkeyHex tokenId =>
    rw [step]
    cases hfind : s.network.wallets.find? pubkeyHex with
    | none => exact .refused _
    | some w =>
      obtain ⟨hw, rfl⟩ := KeyedList.find?_eq_some_iff.mp hfind
      cases hget : w.state.unspentTokens.get? tokenId with
      | none =>
        simp only [Wallet.depositToIssuer, hget, KeyedList.put_of_find? hfind]
        exact .refused _
      | some token =>
        have hdeposit : w.depositToIssuer tokenId = ((w.depositToIssuer tokenId).1, .ok token) := by
          simp only [Wallet.depositToIssuer, hget]
        dsimp only
        rw [hdeposit]
        dsimp only
        split
        · rename_i e hsubmit
          exact .raised hw hget hsubmit
        · rename_i ledger result hsubmit
          exact .deposited hw hget hsubmit

/-- What a run keeps of a wallet. -/
structure Sound (c : Crypto) (s : Circulation) (w : Wallet) : Prop where
  keys : w.HasKeyPair c
  reset : w.ResetDone
  filed : w.FiledByIds
  noted : ∀ tag ∈ w.state.spentNonces, tag ∈ s.network.transfers.map nonceTag

/-- What a run keeps. -/
structure Conserves (c : Crypto) (s : Circulation) : Prop where
  wallets : ∀ w ∈ s.network.wallets.items, s.Sound c w
  tags : (s.network.transfers.map nonceTag).Nodup
  kept : ∀ transfer ∈ s.network.lost, s.network.Seen transfer
  authentic : ∀ t ∈ s.issued, t.validIssuerSignature c = .ok true
  distinct : (s.issued.map Token.tokenId).Nodup
  conserved : s.places.Perm (s.issued.map Token.face)
  ledger : ∃ standing, standing.items = s.deposits ∧ s.ledger.Refines standing
  depositors : ∀ claim ∈ s.deposits, claim.submitterPubkeyHex ∈ s.network.wallets.keys
  unflagged : s.ledger.suspiciousKeys = ∅
  accepted : ∀ result ∈ s.ledger.submissionLog, result.accepted = true

variable {c : Crypto} {policy : PolicyConfig} {s : Circulation}

lemma Start.conserves (h : s.Start c policy) : s.Conserves c := by
  have hheld : s.network.held = [] := by
    apply List.flatMap_eq_nil_iff.mpr
    intro w hw
    rw [Wallet.faces, h.network.empty w hw]
    rfl
  refine ⟨?_, ?_, ?_, ?_, ?_, ?_, ⟨.empty, ?_⟩, ?_, ?_, ?_⟩
  · intro w hw
    refine ⟨h.network.keys w hw, ?_, ?_, ?_⟩
    · intro tokenId token hget
      rw [h.network.empty w hw] at hget
      cases hget
    · intro tokenId token hget
      rw [h.network.empty w hw] at hget
      cases hget
    · rw [h.unspent w hw]
      simp
  · simp [h.network.transfers]
  · simp [Network.lost, h.network.transfers]
  · simp [h.issued]
  · simp [h.issued]
  · simp [places, elsewhere, hheld, Network.inFlight, inTransit, Network.lost, h.network.transfers,
      h.deposits, h.issued]
  · rw [h.ledger, h.deposits]
    exact ⟨rfl, rfl, rfl, rfl⟩
  · simp [h.deposits]
  · rw [h.ledger]
    rfl
  · rw [h.ledger]
    simp [IssuerLedger.new]

namespace Conserves

/-- No token is in two places. -/
lemma nodup_places (h : s.Conserves c) : (s.places.map Face.tokenId).Nodup := by
  have hids : (s.issued.map Token.face).map Face.tokenId = s.issued.map Token.tokenId := by
    rw [List.map_map]
    rfl
  rw [(h.conserved.map Face.tokenId).nodup_iff, hids]
  exact h.distinct

lemma exists_issued (h : s.Conserves c) {face : Face} (hface : face ∈ s.places) :
    ∃ t ∈ s.issued, t.face = face :=
  List.mem_map.mp (h.conserved.mem_iff.mp hface)

/-- What is in any place is authentic. -/
lemma validIssuerSignature (h : s.Conserves c) {t : Token} (ht : t.face ∈ s.places) :
    t.validIssuerSignature c = .ok true := by
  obtain ⟨t', ht', hface⟩ := h.exists_issued ht
  rw [← Token.validIssuerSignature_of_face_eq hface]
  exact h.authentic t' ht'

lemma mem_places_of_get? {w : Wallet} (hw : w ∈ s.network.wallets.items) {tokenId : String}
    {token : Token} (hget : w.state.unspentTokens.get? tokenId = some token) :
    token.face ∈ s.places := by
  apply List.mem_append_left
  exact List.mem_flatMap.mpr ⟨w, hw, List.mem_map.mpr ⟨_, Dict.get?_eq_some_iff.mp hget, rfl⟩⟩

end Conserves

/-- What is conserved when a wallet is exchanged is what its register and the places outside the
registers hold together. -/
lemma perm_places_of_put {s' : Circulation} {w : Wallet} (w' : Wallet)
    (hw : w ∈ s.network.wallets.items) (hkey : w'.pubkeyHex = w.pubkeyHex)
    (hwallets : s'.network.wallets = s.network.wallets.put w') {new : List Face}
    (hmoved : (w'.faces ++ s'.elsewhere).Perm (new ++ (w.faces ++ s.elsewhere))) :
    s'.places.Perm (new ++ s.places) := by
  have hfind : s.network.wallets.find? w'.pubkeyHex = some w := hkey ▸ KeyedList.find?_of_mem hw
  rw [places, Network.held, hwallets]
  exact KeyedList.perm_flatMap_put_append hfind hmoved

/-- The other wallets are not affected when a wallet is exchanged and transfers are added. -/
lemma Conserves.wallets_put (h : s.Conserves c) {s' : Circulation} {w' : Wallet}
    (hwallets : s'.network.wallets = s.network.wallets.put w')
    (htransfers : s.network.transfers ⊆ s'.network.transfers) (hw' : s'.Sound c w') :
    ∀ w ∈ s'.network.wallets.items, s'.Sound c w := by
  rw [hwallets]
  apply KeyedList.forall_mem_put _ hw'
  intro w hw
  obtain ⟨hkeys, hreset, hfiled, hnoted⟩ := h.wallets w hw
  refine ⟨hkeys, hreset, hfiled, fun tag htag => ?_⟩
  obtain ⟨transfer, htransfer, rfl⟩ := List.mem_map.mp (hnoted tag htag)
  exact List.mem_map_of_mem (htransfers htransfer)

/-- A token outside the registers is in no register. -/
lemma Conserves.notMem_keys (h : s.Conserves c) {w : Wallet} (hw : w ∈ s.network.wallets.items)
    {face : Face} (hface : face ∈ s.elsewhere) : face.tokenId ∉ w.state.unspentTokens.keys := by
  intro hmem
  have hnodup := h.nodup_places
  rw [places, List.map_append] at hnodup
  refine (List.nodup_append.mp hnodup).2.2 _ ?_ _ (List.mem_map_of_mem hface) rfl
  obtain ⟨held, hheld, hid⟩ := List.mem_map.mp ((h.wallets w hw).filed.tokenId_mem_faces hmem)
  exact List.mem_map.mpr ⟨held, List.mem_flatMap.mpr ⟨w, hw, hheld⟩, hid⟩

/-! ### What a step keeps -/

/-- A new token goes to the register of its issuer. -/
lemma Conserves.issue (h : s.Conserves c) {w : Wallet} (hw : w ∈ s.network.wallets.items)
    (denomination : PyFloat) {draw : Wallet.IssueDraw}
    (hfresh : draw.tokenId ∉ s.issued.map Token.tokenId) :
    Conserves c { s with
      network := { s.network with
        wallets := s.network.wallets.put (w.issueToken c denomination draw).1 }
      issued := s.issued ++ [(w.issueToken c denomination draw).2] } := by
  obtain ⟨hkeys, hreset, hfiled, hnoted⟩ := h.wallets w hw
  have hfind : s.network.wallets.find? (w.issueToken c denomination draw).1.pubkeyHex = some w :=
    KeyedList.find?_of_mem hw
  have hseen : ∀ transfer, Network.Seen ⟨s.network.wallets.put (w.issueToken c denomination draw).1,
      s.network.transfers⟩ transfer ↔ s.network.Seen transfer := fun transfer =>
    Network.seen_put_same_iff hfind rfl
  have hnew : draw.tokenId ∉ w.state.unspentTokens.keys := by
    intro hmem
    obtain ⟨token, hget⟩ := Dict.mem_keys_iff_get?.mp hmem
    obtain ⟨t, ht, hface⟩ := h.exists_issued (mem_places_of_get? hw hget)
    have hid : t.tokenId = token.tokenId := congrArg Face.tokenId hface
    rw [← hfiled _ _ hget, ← hid] at hfresh
    exact hfresh (List.mem_map_of_mem ht)
  refine ⟨h.wallets_put rfl (List.Subset.refl _) ⟨hkeys, ?_, ?_, hnoted⟩, h.tags, ?_, ?_, ?_, ?_,
    h.ledger,
    fun claim hclaim => KeyedList.mem_keys_put.mpr (.inr (h.depositors claim hclaim)), h.unflagged,
    h.accepted⟩
  · exact hreset.step c (.issue denomination draw)
  · exact hfiled.set (rfl : (w.issueToken c denomination draw).2.tokenId = draw.tokenId) rfl
  · exact fun transfer htransfer => (hseen transfer).mpr (h.kept transfer htransfer)
  · rw [List.forall_mem_append, List.forall_mem_singleton]
    exact ⟨h.authentic, Wallet.validIssuerSignature_issueToken hkeys denomination draw⟩
  · rw [List.map_append, List.nodup_append]
    refine ⟨h.distinct, List.nodup_singleton _, ?_⟩
    rintro id hid _ hsame rfl
    obtain rfl : id = draw.tokenId := List.mem_singleton.mp hsame
    exact hfresh hid
  · rw [List.map_append]
    refine (perm_places_of_put (w.issueToken c denomination draw).1 hw rfl rfl ?_).trans
      ((h.conserved.append_left _).trans List.perm_append_comm)
    have helsewhere : (elsewhere { s with network := { s.network with
        wallets := s.network.wallets.put (w.issueToken c denomination draw).1 } }) = s.elsewhere := by
      rw [elsewhere, Network.inFlight, inTransit_congr fun transfer _ => hseen transfer]
      rfl
    exact helsewhere ▸ (Wallet.perm_faces_issueToken hnew).append_right _

/-- A sent token leaves the register of its holder, and is on its way or lost. -/
lemma Conserves.send (h : s.Conserves c) {w : Wallet} (hw : w ∈ s.network.wallets.items)
    {tokenId : String} {token : Token} (hget : w.state.unspentTokens.get? tokenId = some token)
    {record : TransferRecord} {newToken : Token} (hface : newToken.face = token.face)
    (hprev : record.prevOwnerPubkeyHex = w.pubkeyHex)
    (hfresh : (tokenId, record.nonceHex) ∉ s.network.transfers.map nonceTag) :
    Conserves c { s with network :=
      { wallets := s.network.wallets.put (w.dropToken tokenId record.nonceHex)
        transfers := s.network.transfers ++ [(record, newToken)] } } := by
  obtain ⟨hkeys, hreset, hfiled, hnoted⟩ := h.wallets w hw
  have hid : newToken.tokenId = tokenId := (congrArg Face.tokenId hface).trans (hfiled _ _ hget)
  have hfind : s.network.wallets.find? (w.dropToken tokenId record.nonceHex).pubkeyHex = some w :=
    KeyedList.find?_of_mem hw
  have htag : nonceTag (record, newToken) ∉ s.network.transfers.map nonceTag := by
    rw [nonceTag, hid]
    exact hfresh
  have hseen : ∀ transfer, Network.Seen
      ⟨s.network.wallets.put (w.dropToken tokenId record.nonceHex),
        s.network.transfers ++ [(record, newToken)]⟩ transfer ↔
      (w.pubkeyHex = transfer.2.ownerPubkeyHex ∧ nonceTag transfer = (tokenId, record.nonceHex)) ∨
        s.network.Seen transfer := fun transfer => Network.seen_put_insert_iff hfind rfl
  have hold : ∀ transfer ∈ s.network.transfers, Network.Seen
      ⟨s.network.wallets.put (w.dropToken tokenId record.nonceHex),
        s.network.transfers ++ [(record, newToken)]⟩ transfer ↔ s.network.Seen transfer := by
    intro transfer htransfer
    rw [hseen]
    exact or_iff_right fun hsame => hfresh (hsame.2 ▸ List.mem_map_of_mem htransfer)
  have hunseen : ¬ s.network.Seen (record, newToken) := by
    rintro ⟨v, hv, -, hmem⟩
    exact htag ((h.wallets v hv).noted _ hmem)
  have hself : Network.Seen ⟨s.network.wallets.put (w.dropToken tokenId record.nonceHex),
      s.network.transfers ++ [(record, newToken)]⟩ (record, newToken) ↔
      record.prevOwnerPubkeyHex = newToken.ownerPubkeyHex := by
    rw [hseen, or_iff_left hunseen, hprev, nonceTag, hid]
    exact and_iff_left rfl
  refine ⟨h.wallets_put rfl (List.subset_append_left _ _) ⟨hkeys, ?_, hfiled.pop rfl, ?_⟩, ?_, ?_,
    h.authentic, h.distinct, ?_, h.ledger,
    fun claim hclaim => KeyedList.mem_keys_put.mpr (.inr (h.depositors claim hclaim)), h.unflagged,
    h.accepted⟩
  · exact hreset.pop rfl rfl
  · intro tag htag
    rw [List.map_append, List.mem_append]
    rcases Finset.mem_insert.mp htag with rfl | htag
    · right
      rw [List.map_singleton, List.mem_singleton, nonceTag, hid]
    · exact .inl (hnoted tag htag)
  · rw [List.map_append, List.nodup_append]
    refine ⟨h.tags, List.nodup_singleton _, ?_⟩
    rintro tag hmem _ hsame rfl
    rw [List.map_singleton, List.mem_singleton] at hsame
    exact htag (hsame ▸ hmem)
  · intro transfer htransfer
    rw [Network.lost, List.filter_append, List.mem_append] at htransfer
    rcases htransfer with hmem | hmem
    · exact (hold transfer (List.mem_filter.mp hmem).1).mpr (h.kept transfer hmem)
    · obtain ⟨hmem, hlost⟩ := List.mem_filter.mp hmem
      obtain rfl := List.mem_singleton.mp hmem
      exact hself.mpr (of_decide_eq_true hlost)
  · refine (@perm_places_of_put s _ w (w.dropToken tokenId record.nonceHex) hw rfl rfl [] ?_).trans
      h.conserved
    have helsewhere : (elsewhere { s with network :=
        { wallets := s.network.wallets.put (w.dropToken tokenId record.nonceHex)
          transfers := s.network.transfers ++ [(record, newToken)] } }).Perm
        (token.face :: s.elsewhere) := by
      rw [List.perm_iff_count]
      intro face
      simp only [elsewhere, Network.inFlight, inTransit_append, inTransit_congr hold, Network.lost,
        List.filter_append, List.map_append, List.count_append, List.count_cons, ← hface]
      by_cases hlost : record.prevOwnerPubkeyHex = newToken.ownerPubkeyHex
      · simp [inTransit, hself.mpr hlost, hlost, List.count_singleton]
        omega
      · simp [inTransit, mt hself.mp hlost, hlost, List.count_singleton]
        omega
    refine (helsewhere.append_left _).trans (List.perm_middle.trans ?_)
    exact ((Wallet.perm_faces_dropToken hget _).append_right _).symm

/-- A received token goes to the register of its owner. -/
lemma Conserves.receive (h : s.Conserves c) {w : Wallet} (hw : w ∈ s.network.wallets.items)
    {transfer : TransferRecord × Token} (htransfer : transfer ∈ s.network.transfers)
    (howner : transfer.2.ownerPubkeyHex = w.pubkeyHex)
    (hnew : nonceTag transfer ∉ w.state.spentNonces) :
    Conserves c { s with network := { s.network with
      wallets := s.network.wallets.put (w.takeToken transfer.2 transfer.1.nonceHex) } } := by
  obtain ⟨hkeys, hreset, hfiled, hnoted⟩ := h.wallets w hw
  have hfind : s.network.wallets.find? (w.takeToken transfer.2 transfer.1.nonceHex).pubkeyHex
      = some w := KeyedList.find?_of_mem hw
  have hunseen : ¬ s.network.Seen transfer := by
    rwa [Network.seen_iff_of_owner hfind howner.symm]
  have hseen : ∀ transfer' ∈ s.network.transfers, Network.Seen
      ⟨s.network.wallets.put (w.takeToken transfer.2 transfer.1.nonceHex), s.network.transfers⟩
        transfer' ↔ transfer' = transfer ∨ s.network.Seen transfer' := by
    intro transfer' htransfer'
    rw [@Network.seen_put_insert_iff _ _ _ _ _ hfind (nonceTag transfer) rfl]
    apply or_congr_left
    constructor
    · rintro ⟨-, htag⟩
      exact List.inj_on_of_nodup_map h.tags htransfer' htransfer htag
    · rintro rfl
      exact ⟨howner.symm, rfl⟩
  have hflight := perm_inTransit (List.Nodup.of_map _ h.tags) htransfer hunseen hseen
  have hface : transfer.2.face ∈ s.elsewhere := by
    apply List.mem_append_left
    apply List.mem_append_left
    exact List.mem_map_of_mem (mem_inTransit.mpr ⟨htransfer, hunseen⟩)
  refine ⟨h.wallets_put rfl (List.Subset.refl _) ⟨hkeys, ?_, ?_, ?_⟩, h.tags, ?_, h.authentic,
    h.distinct, ?_, h.ledger,
    fun claim hclaim => KeyedList.mem_keys_put.mpr (.inr (h.depositors claim hclaim)), h.unflagged,
    h.accepted⟩
  · exact hreset.set (checkLifecycleReset_idem transfer.2 w.pubkeyHex) rfl rfl
  · exact hfiled.set (checkLifecycleReset_tokenId transfer.2 w.pubkeyHex) rfl
  · intro tag htag
    rcases Finset.mem_insert.mp htag with rfl | htag
    · exact List.mem_map_of_mem htransfer
    · exact hnoted tag htag
  · intro transfer' hlost
    exact (hseen _ (List.mem_filter.mp hlost).1).mpr (.inr (h.kept transfer' hlost))
  · refine (@perm_places_of_put s _ w (w.takeToken transfer.2 transfer.1.nonceHex) hw rfl rfl []
      ?_).trans h.conserved
    have helsewhere : s.elsewhere.Perm (transfer.2.face :: elsewhere { s with network :=
        { s.network with
          wallets := s.network.wallets.put (w.takeToken transfer.2 transfer.1.nonceHex) } }) :=
      ((hflight.map fun transfer => transfer.2.face).append_right _).append_right _
    have htaken := Wallet.perm_faces_takeToken (h.notMem_keys hw hface) transfer.1.nonceHex
    refine (htaken.append_right _).trans (List.perm_middle.symm.trans ?_)
    exact helsewhere.symm.append_left _

/-- The ledger has no owner for a held token. -/
lemma Conserves.owner_eq_none (h : s.Conserves c) {w : Wallet} (hw : w ∈ s.network.wallets.items)
    {tokenId : String} {token : Token} (hget : w.state.unspentTokens.get? tokenId = some token) :
    s.ledger.registry.get? token.tokenId = none := by
  obtain ⟨standing, hstanding, hrefines⟩ := h.ledger
  rw [hrefines.owner_eq_none_iff]
  intro hmem
  obtain ⟨claim, hclaim, hid⟩ := KeyedList.mem_keys.mp hmem
  have hface : claim.token.face ∈ s.elsewhere :=
    List.mem_append_right _ (List.mem_map.mpr ⟨claim, hstanding ▸ hclaim, rfl⟩)
  apply h.notMem_keys hw hface
  have hfiled := (h.wallets w hw).filed tokenId token hget
  rw [show claim.token.face.tokenId = tokenId from hid.trans hfiled]
  exact Dict.mem_keys_iff_get?.mpr ⟨token, hget⟩

/-- The ledger accepts a held token. -/
lemma Conserves.submitToken (h : s.Conserves c) {w : Wallet} (hw : w ∈ s.network.wallets.items)
    {tokenId : String} {token : Token} (hget : w.state.unspentTokens.get? tokenId = some token) :
    ∃ ledger, s.ledger.submitToken c token w.pubkeyHex
        = .ok (ledger, ⟨token.tokenId, true, some w.pubkeyHex, "accepted"⟩) ∧
      (∃ standing, standing.items = s.deposits ++ [⟨token, w.pubkeyHex⟩] ∧
        ledger.Refines standing) ∧
      ledger.suspiciousKeys = ∅ ∧ ∀ result ∈ ledger.submissionLog, result.accepted = true := by
  have hvalid := h.validIssuerSignature (mem_places_of_get? hw hget)
  have hnew := h.owner_eq_none hw hget
  have hsubmit := IssuerLedger.submitToken_of_new hvalid hnew w.pubkeyHex
  obtain ⟨standing, hstanding, hrefines⟩ := h.ledger
  have hwell : Claim.WellFormed ⟨token, w.pubkeyHex⟩ := Claim.Valid.wellFormed hvalid
  obtain ⟨ledger, result, hfiled, hrefines', -⟩ := hrefines.submitToken (c := c) hwell
  rw [hsubmit] at hfiled
  cases hfiled
  have hitems : (fileClaim (Claim.Valid c) standing ⟨token, w.pubkeyHex⟩).items
      = standing.items ++ [⟨token, w.pubkeyHex⟩] :=
    fileClaim_of_stands ⟨hvalid, hrefines.owner_eq_none_iff.mp hnew⟩
  refine ⟨_, hsubmit, ⟨_, hstanding ▸ hitems, hrefines'⟩, h.unflagged, ?_⟩
  intro result hresult
  rcases List.mem_append.mp hresult with hmem | hmem
  · exact h.accepted result hmem
  · rw [List.mem_singleton.mp hmem]

/-- A deposited token leaves the register of its holder. -/
lemma Conserves.deposit (h : s.Conserves c) {w : Wallet} (hw : w ∈ s.network.wallets.items)
    {tokenId : String} {token : Token} (hget : w.state.unspentTokens.get? tokenId = some token)
    {ledger : IssuerLedger}
    (hrefines : ∃ standing, standing.items = s.deposits ++ [⟨token, w.pubkeyHex⟩] ∧
      ledger.Refines standing)
    (hunflagged : ledger.suspiciousKeys = ∅)
    (haccepted : ∀ result ∈ ledger.submissionLog, result.accepted = true) :
    Conserves c { s with
      network := { s.network with wallets := s.network.wallets.put (w.depositToIssuer tokenId).1 }
      ledger := ledger
      deposits := s.deposits ++ [⟨token, w.pubkeyHex⟩] } := by
  obtain ⟨hkeys, hreset, hfiled, hnoted⟩ := h.wallets w hw
  have hregister := Wallet.perm_faces_depositToIssuer hget
  have hleft := congrArg Prod.fst (Wallet.depositToIssuer_of_get? hget)
  generalize (w.depositToIssuer tokenId).1 = w' at hregister hleft ⊢
  have hkey : w'.pubkeyHex = w.pubkeyHex := by rw [hleft]
  have hpop : w'.state.unspentTokens = w.state.unspentTokens.pop tokenId := by rw [hleft]
  have hnonces : w'.state.spentNonces = w.state.spentNonces := by rw [hleft]
  have hfind : s.network.wallets.find? w'.pubkeyHex = some w := hkey ▸ KeyedList.find?_of_mem hw
  have hseen : ∀ transfer, Network.Seen ⟨s.network.wallets.put w', s.network.transfers⟩ transfer ↔
      s.network.Seen transfer := fun transfer => Network.seen_put_same_iff hfind hnonces
  refine ⟨h.wallets_put rfl (List.Subset.refl _) ⟨?_, hreset.pop hkey hpop, hfiled.pop hpop, ?_⟩,
    h.tags, ?_, h.authentic, h.distinct, ?_, hrefines, ?_, hunflagged, haccepted⟩
  · rw [hleft]
    exact hkeys
  · rw [hnonces]
    exact hnoted
  · exact fun transfer hlost => (hseen transfer).mpr (h.kept transfer hlost)
  · refine (@perm_places_of_put s _ w w' hw hkey rfl [] ?_).trans h.conserved
    have helsewhere : (elsewhere { s with
        network := { s.network with wallets := s.network.wallets.put w' }
        ledger := ledger
        deposits := s.deposits ++ [⟨token, w.pubkeyHex⟩] }).Perm (token.face :: s.elsewhere) := by
      rw [elsewhere, Network.inFlight, inTransit_congr fun transfer _ => hseen transfer,
        List.map_append, ← List.append_assoc]
      exact List.perm_append_singleton _ _
    refine (helsewhere.append_left _).trans (List.perm_middle.trans ?_)
    exact (hregister.append_right _).symm
  · rw [List.forall_mem_append, List.forall_mem_singleton]
    exact ⟨fun claim hclaim => KeyedList.mem_keys_put.mpr (.inr (h.depositors claim hclaim)),
      KeyedList.mem_keys_put.mpr (.inl hkey.symm)⟩

/-- The step lemma. -/
lemma Conserves.step (h : s.Conserves c) {e : Event} (hlegal : s.Legal e) :
    (s.step c e).Conserves c := by
  have heffect : s.Effect c e (s.step c e) := effect_step (fun w hw => (h.wallets w hw).reset) e
  generalize s.step c e = s' at heffect ⊢
  cases heffect with
  | refused => exact h
  | issued hw => exact h.issue hw _ hlegal
  | @sent w hw tokenId recipientPubkeyHex amount draw token hget digest =>
    exact @send c s h w hw tokenId token hget
      (token.recordOf c w.privateKeyBytes w.pubkeyHex recipientPubkeyHex amount draw digest)
      (token.passedTo recipientPubkeyHex (Hex.encode digest)) rfl rfl hlegal
  | received hw i htransfer howner hnew => exact h.receive hw htransfer howner hnew
  | deposited hw hget hsubmit =>
    obtain ⟨ledger, haccepts, hrefines, hunflagged, haccepted⟩ := h.submitToken hw hget
    cases hsubmit.symm.trans haccepts
    exact h.deposit hw hget hrefines hunflagged haccepted
  | raised hw hget hsubmit =>
    obtain ⟨ledger, haccepts, -⟩ := h.submitToken hw hget
    cases hsubmit.symm.trans haccepts

/-! ### A payment and a deposit -/

/-- The new wallets of an issuer and of Bob, and a new ledger. -/
def plainCirculation : Circulation := ⟨Network.plainNetwork .default, .new, [], []⟩

lemma start_plainCirculation : plainCirculation.Start plainCrypto .default where
  network := Network.start_plainNetwork .default
  unspent := KeyedList.forall_mem_put
    (KeyedList.forall_mem_put (by simp [KeyedList.empty]) rfl) rfl
  ledger := rfl
  issued := rfl
  deposits := rfl

/-- The issuer pays Bob, the payment arrives twice, and Bob deposits it. -/
def paidAndDeposited : List Event :=
  Network.plainPayment.map .network ++ [
    .network (.deliver (Wallet.plainKey 9) 0),
    .deposit (Wallet.plainKey 9) "00112233445566778899aabbccddeeff"]

/-- Issuing sends nothing. -/
lemma transfers_step_issue (c : Crypto) (n : Network) (pubkeyHex : String) (denomination : PyFloat)
    (draw : Wallet.IssueDraw) :
    (n.step c (.issue pubkeyHex denomination draw)).transfers = n.transfers := by
  rw [Network.step]
  split <;> rfl

lemma legal_paidAndDeposited : Along (step plainCrypto) Legal plainCirculation paidAndDeposited := by
  refine ⟨List.not_mem_nil, ?_, trivial, trivial, trivial, trivial⟩
  have hnone : (step plainCrypto plainCirculation (.network Network.plainIssue)).network.transfers
      = [] := transfers_step_issue ..
  show _ ∉ List.map nonceTag _
  rw [hnone]
  exact List.not_mem_nil

end Circulation

end PocketCash.Poc
