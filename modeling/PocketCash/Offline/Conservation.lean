import PocketCash.Library.KeyedTotal
import PocketCash.Library.Transit
import PocketCash.Offline.Network

/-!
# Conservation of cash in the offline system

What the issuer has minted is conserved in every run of a network of offline wallets: each token is
with the issuer, in the unspent register of one wallet, or on its way in one transfer, and it has the
value and the signature with which it was minted. So the balances, what is on its way and what was
not handed out add up to what was minted.
-/

namespace PocketCash.Offline

/-- What no wallet changes about a token. -/
structure Face where
  tokenId : String
  value : Int
  issuerPk : String
  issuerSignature : String
  issueTimestamp : Int
  createdAt : Datetime
  originTokenId : Option String
  deriving DecidableEq

def Token.face (t : Token) : Face :=
  ⟨t.tokenId, t.value, t.issuerPk, t.issuerSignature, t.issueTimestamp, t.createdAt, t.originTokenId⟩

namespace Wallet

/-- The faces of the tokens in the unspent register. -/
def faces (w : Wallet) : List Face := w.utr.items.map Token.face

lemma face_outboundToken (receiverPk : String) (token : Token) :
    (outboundToken receiverPk token).face = token.face := rfl

lemma face_receivedToken (c : Crypto) (w : Wallet) (transfer : Transfer) (token : Token) :
    (w.receivedToken c transfer token).face = token.face := rfl

lemma perm_faces_put {w w' : Wallet} {token : Token} (hnew : token.tokenId ∉ w.utr.keys)
    (hput : w'.utr = w.utr.put token) : w'.faces.Perm (token.face :: w.faces) := by
  rw [faces, faces, hput, KeyedList.items_put_of_notMem hnew, List.map_append]
  exact List.perm_append_singleton _ _

end Wallet

/-! ### Parcels -/

/-- The transfers of a bundle, each with its token. -/
def PaymentBundle.parcels (bundle : PaymentBundle) : List (Transfer × Token) :=
  bundle.transfers.filterMap fun t => (bundle.tokens.get? t.tokenId).map fun token => (t, token)

lemma PaymentBundle.mem_parcels {bundle : PaymentBundle} {t : Transfer} {token : Token} :
    (t, token) ∈ bundle.parcels ↔ t ∈ bundle.transfers ∧ bundle.tokens.get? t.tokenId = some token := by
  simp only [parcels, List.mem_filterMap, Option.map_eq_some_iff, Prod.mk.injEq]
  constructor
  · rintro ⟨t', ht, token', htoken, rfl, rfl⟩
    exact ⟨ht, htoken⟩
  · rintro ⟨ht, htoken⟩
    exact ⟨t, ht, token, htoken, rfl, rfl⟩

/-- Each transfer of an honest bundle has its token. -/
lemma PaymentBundle.Honest.map_fst_parcels {bundle : PaymentBundle} (h : bundle.Honest) :
    bundle.parcels.map Prod.fst = bundle.transfers := by
  have hall : ∀ transfers : List Transfer,
      (∀ t ∈ transfers, ∃ token, bundle.tokens.get? t.tokenId = some token) →
      (transfers.filterMap fun t => (bundle.tokens.get? t.tokenId).map fun token =>
        (t, token)).map Prod.fst = transfers := by
    intro transfers htokens
    induction transfers with
    | nil => rfl
    | cons t transfers ih =>
      rw [List.forall_mem_cons] at htokens
      obtain ⟨⟨token, htoken⟩, hrest⟩ := htokens
      rw [List.filterMap_cons, htoken, Option.map_some, List.map_cons, ih hrest]
  apply hall
  intro t ht
  obtain ⟨token, htoken, -⟩ := h.tokens t ht
  exact ⟨token, htoken⟩

/-- A payment sends what it has chosen. -/
lemma Wallet.Pays.map_face_parcels {c : Crypto} {w w' : Wallet} {receiverPk : String}
    {draw : PaymentDraw} {bundle : PaymentBundle} {selected : List Token}
    (h : w.Pays c w' receiverPk draw bundle selected) :
    (bundle.parcels.map fun p => p.2.face) = selected.map Token.face := by
  have hlookup : (bundle.parcels.map fun p => p.2.face)
      = (bundle.transfers.map Transfer.tokenId).filterMap fun id =>
        (bundle.tokens.get? id).map Token.face := by
    rw [PaymentBundle.parcels, List.map_filterMap, List.filterMap_map]
    apply List.filterMap_congr
    intro t _
    rw [Option.map_map]
    rfl
  rw [hlookup, h.map_tokenId, List.filterMap_map, ← List.filterMap_eq_map]
  apply List.filterMap_congr
  intro token htoken
  rw [Function.comp_apply, h.get?_tokens htoken]
  rfl

/-! ### Places -/

namespace Network

/-- All transfers that were made, each with its token. -/
def parcels (n : Network) : List (Transfer × Token) := n.emitted.flatMap PaymentBundle.parcels

/-- The parcels that nobody has accepted. -/
def undelivered (n : Network) : List (Transfer × Token) :=
  inTransit n.parcels fun p => p.1.transferId ∈ n.acceptedIds

/-- The faces of the tokens in no wallet. -/
def elsewhere (n : Network) : List Face :=
  n.unhanded.items.map Token.face ++ n.undelivered.map fun p => p.2.face

/-- The faces of all tokens, wherever they are. -/
def places (n : Network) : List Face := n.wallets.items.flatMap Wallet.faces ++ n.elsewhere

/-- The tokens in all places are those that were minted after the given ones. -/
def Conserves (old : KeyedList Token.tokenId) (n : Network) : Prop :=
  (n.issuer.issuedTokens.items.map Token.face).Perm (n.places ++ old.items.map Token.face)

variable {c : Crypto} {n : Network} {old : KeyedList Token.tokenId}

lemma Inv.map_fst_parcels (h : n.Inv) : n.parcels.map Prod.fst = n.transfers := by
  have hall : ∀ bundles : List PaymentBundle, (∀ bundle ∈ bundles, bundle.Honest) →
      (bundles.flatMap PaymentBundle.parcels).map Prod.fst
        = bundles.flatMap PaymentBundle.transfers := by
    intro bundles hhonest
    rw [List.map_flatMap]
    exact List.flatMap_congr fun bundle hbundle => (hhonest bundle hbundle).map_fst_parcels
  exact hall n.emitted h.honest

lemma conserves_start (issuer : Issuer) (members : Dict String (String × PolicyConfig)) :
    (start issuer members).Conserves issuer.issuedTokens := by
  have hheld : (start issuer members).wallets.items.flatMap Wallet.faces = [] := by
    rw [start, List.flatMap_map]
    exact List.flatMap_eq_nil_iff.mpr fun _ _ => rfl
  rw [Conserves, places, hheld]
  exact .refl _

namespace Conserves

/-- No token is in two places. -/
lemma nodup_places (h : n.Conserves old) : (n.places.map Face.tokenId).Nodup := by
  have hids : (n.issuer.issuedTokens.items.map Token.face).map Face.tokenId
      = n.issuer.issuedTokens.keys := by
    rw [List.map_map]
    rfl
  have hnodup := (h.map Face.tokenId).nodup_iff.mp (hids ▸ n.issuer.issuedTokens.keys_nodup)
  rw [List.map_append] at hnodup
  exact (List.nodup_append.mp hnodup).1

lemma tokenId_mem_keys (h : n.Conserves old) {face : Face} (hface : face ∈ n.places) :
    face.tokenId ∈ n.issuer.issuedTokens.keys := by
  obtain ⟨token, htoken, rfl⟩ :=
    List.mem_map.mp (h.mem_iff.mpr (List.mem_append_left _ hface))
  exact KeyedList.key_mem_keys htoken

/-- A token in no wallet is in no unspent register. -/
lemma notMem_keys (h : n.Conserves old) {w : Wallet} (hw : w ∈ n.wallets.items) {face : Face}
    (hface : face ∈ n.elsewhere) : face.tokenId ∉ w.utr.keys := by
  intro hmem
  have hnodup := h.nodup_places
  rw [places, List.map_append] at hnodup
  refine (List.nodup_append.mp hnodup).2.2 _ ?_ _ (List.mem_map_of_mem hface) rfl
  obtain ⟨token, htoken, hid⟩ := KeyedList.mem_keys.mp hmem
  exact List.mem_map.mpr ⟨token.face,
    List.mem_flatMap.mpr ⟨w, hw, List.mem_map_of_mem htoken⟩, hid⟩

/-- An exchange of a wallet that moves tokens from or to the places outside the wallets. -/
lemma of_put (h : n.Conserves old) {n' : Network} {w w' : Wallet}
    (hw : n.wallets.find? w'.publicKeyHex = some w) (hwallets : n'.wallets = n.wallets.put w')
    (hissued : n'.issuer = n.issuer)
    (hmoved : (w'.faces ++ n'.elsewhere).Perm (w.faces ++ n.elsewhere)) : n'.Conserves old := by
  rw [Conserves, hissued]
  refine h.trans (List.Perm.append_right _ ?_)
  rw [places, places, hwallets]
  exact (@KeyedList.perm_flatMap_put_append _ _ _ _ _ _ _ _ _ hw [] _ _ hmoved).symm

/-! ### What a step keeps -/

/-- A new token stays with the issuer at first. -/
lemma mint (h : n.Conserves old) (ownerPk : String) (value : Int) {draw : MintDraw}
    (hnew : draw.tokenId ∉ n.issuer.issuedTokens.keys) :
    (n.step c (.mint ownerPk value draw)).Conserves old := by
  have hunhanded : (n.issuer.mintedToken c ownerPk value draw).tokenId ∉ n.unhanded.keys := by
    intro hmem
    obtain ⟨token, htoken, hid⟩ := KeyedList.mem_keys.mp hmem
    have hface : token.face ∈ n.places :=
      List.mem_append_right _ (List.mem_append_left _ (List.mem_map_of_mem htoken))
    have hdrawn : token.tokenId = draw.tokenId := hid
    exact hnew (hdrawn ▸ h.tokenId_mem_keys hface)
  have helsewhere : (n.step c (.mint ownerPk value draw)).elsewhere.Perm
      ((n.issuer.mintedToken c ownerPk value draw).face :: n.elsewhere) := by
    have hitems := KeyedList.items_put_of_notMem hunhanded
    show (List.map Token.face (n.unhanded.put _).items ++ _).Perm _
    rw [hitems, List.map_append]
    exact (List.perm_append_singleton _ _).append_right _
  rw [Conserves]
  show (List.map Token.face (n.issuer.mintToken c ownerPk value draw).1.issuedTokens.items).Perm _
  rw [Issuer.items_mintToken hnew, List.map_append]
  refine (List.perm_append_singleton _ _).trans ((h.cons _).trans ?_)
  exact (List.perm_middle.symm.trans (helsewhere.symm.append_left _)).append_right _

/-- A token goes from the issuer to its owner. -/
lemma hand (h : n.Conserves old) (tokenId : String) : (n.step c (.hand tokenId)).Conserves old := by
  rcases n.step_hand_cases c tokenId with hsame | ⟨token, w, w', htoken, hw, hw', hstep⟩
  · rwa [hsame]
  rw [hstep]
  have hface : token.face ∈ n.elsewhere :=
    List.mem_append_left _ (List.mem_map_of_mem (KeyedList.find?_eq_some_iff.mp htoken).1)
  have hnew := h.notMem_keys (KeyedList.find?_eq_some_iff.mp hw).1 hface
  have htaken : w'.faces.Perm (token.face :: w.faces) := Wallet.perm_faces_put hnew (by rw [hw'])
  have hleft : n.elsewhere.Perm (token.face ::
      elsewhere { n with wallets := n.wallets.put w', unhanded := n.unhanded.pop token.tokenId }) :=
    ((KeyedList.perm_pop htoken).map Token.face).append_right _
  refine h.of_put hw rfl rfl ?_
  exact (htaken.append_right _).trans (List.perm_middle.symm.trans (hleft.symm.append_left _))

/-- Paid tokens go from the sender's unspent register on their way. -/
lemma pay (h : n.Conserves old) (hinv : n.Inv) {senderPk receiverPk : String} {amount : Int}
    {draw : PaymentDraw}
    (hids : ((n.step c (.pay senderPk receiverPk amount draw)).transfers.map
      Transfer.transferId).Nodup) :
    (n.step c (.pay senderPk receiverPk amount draw)).Conserves old := by
  rcases n.step_pay_cases c senderPk receiverPk amount draw with
    hsame | ⟨w, w', hw, ⟨syncRequired, rfl, hstep⟩ | ⟨bundle, selected, hpays, hstep⟩⟩
  · rwa [hsame]
  · rw [hstep]
    exact h.of_put hw rfl rfl (.refl _)
  · rw [hstep, transfers_emit] at hids
    rw [hstep]
    have hnew : ∀ p ∈ bundle.parcels, p.1.transferId ∉ n.acceptedIds := fun p hp =>
      hinv.notMem_acceptedIds_of_new hids (PaymentBundle.mem_parcels.mp hp).1
    have hparcels : n.parcels ++ bundle.parcels
        = parcels { n with wallets := n.wallets.put w', emitted := n.emitted ++ [bundle] } := by
      rw [parcels, parcels, List.flatMap_append, List.flatMap_singleton]
    have hsent : elsewhere { n with
        wallets := n.wallets.put w', emitted := n.emitted ++ [bundle] }
        = n.elsewhere ++ selected.map Token.face := by
      rw [elsewhere, undelivered, ← hparcels, inTransit_append, List.map_append,
        ← List.append_assoc, ← hpays.map_face_parcels]
      congr 2
      exact inTransit_of_new hnew
    have hspent : w.faces.Perm (selected.map Token.face ++ w'.faces) := by
      rw [Wallet.faces, Wallet.faces, ← List.map_append]
      exact hpays.perm.map Token.face
    refine h.of_put hw rfl rfl ?_
    rw [hsent, ← List.append_assoc]
    refine List.perm_append_comm.trans ?_
    rw [← List.append_assoc]
    exact hspent.symm.append_right _

/-- An accepted token goes to the receiver's unspent register. -/
lemma accept (h : n.Conserves old) (hinv : n.Inv) {w : Wallet}
    (hw : n.wallets.find? w.publicKeyHex = some w) {t : Transfer} {token : Token}
    {reading : ReceiptReading} (hparcel : (t, token) ∈ n.parcels)
    (hreceives : w.Receives c t token reading) :
    Conserves old { n with
      wallets := n.wallets.put (w.receive c t token)
      acceptances := n.acceptances ++ [(t.transferId, w.publicKeyHex)] } := by
  have ht : t ∈ n.transfers := hinv.map_fst_parcels ▸ List.mem_map_of_mem hparcel
  have hnew := hinv.notMem_acceptedIds hw ht hreceives.receiver hreceives.unprocessed
  have hids : (n.parcels.map fun p => p.1.transferId).Nodup := by
    have hids := hinv.transferIds
    rwa [← hinv.map_fst_parcels, List.map_map] at hids
  have hflight : n.undelivered.Perm ((t, token) :: undelivered { n with
      wallets := n.wallets.put (w.receive c t token)
      acceptances := n.acceptances ++ [(t.transferId, w.publicKeyHex)] }) := by
    apply perm_inTransit (List.Nodup.of_map _ hids) hparcel hnew
    intro p hp
    rw [Network.acceptedIds, List.map_append, List.mem_append, or_comm]
    apply or_congr_left
    rw [List.map_singleton, List.mem_singleton]
    exact ⟨fun hid => List.inj_on_of_nodup_map hids hp hparcel hid, fun hp => by rw [hp]⟩
  have hface : token.face ∈ n.elsewhere := by
    apply List.mem_append_right
    exact List.mem_map.mpr ⟨(t, token), mem_inTransit.mpr ⟨hparcel, hnew⟩, rfl⟩
  have hfree : token.face.tokenId ∉ w.utr.keys :=
    h.notMem_keys (KeyedList.find?_eq_some_iff.mp hw).1 hface
  have htaken : (w.receive c t token).faces.Perm (token.face :: w.faces) := by
    rw [← Wallet.face_receivedToken c w t token]
    exact Wallet.perm_faces_put hfree rfl
  have hreceiver : n.wallets.find? (w.receive c t token).publicKeyHex = some w := hw
  refine h.of_put hreceiver rfl rfl ?_
  refine (htaken.append_right _).trans (List.perm_middle.symm.trans (List.Perm.append_left _ ?_))
  refine List.Perm.symm (((hflight.map fun p => p.2.face).append_left _).trans ?_)
  exact List.perm_middle

/-- A delivery keeps both invariants. -/
lemma deliver (h : n.Inv ∧ n.Conserves old) (index : Nat) (receiverPk : String)
    (readings : Nat → ReceiptReading) :
    (n.step c (.deliver index receiverPk readings)).Conserves old := by
  refine (deliver_invariant (I := fun n : Network => n.Inv ∧ n.Conserves old) h ?_ ?_ index receiverPk
    readings).2
  · intro w hw
    exact ⟨h.1.exchange hw rfl rfl, h.2.of_put hw rfl rfl (.refl _)⟩
  · intro n' w bundle t token reading h hw hbundle ht htoken hreceives
    obtain ⟨token', htoken', hid⟩ := (h.1.honest bundle hbundle).tokens t ht
    rw [htoken] at htoken'
    cases htoken'
    refine ⟨h.1.accept hw (List.mem_flatMap.mpr ⟨bundle, hbundle, ht⟩) hid hreceives,
      h.2.accept h.1 hw ?_ hreceives⟩
    exact List.mem_flatMap.mpr ⟨bundle, hbundle, PaymentBundle.mem_parcels.mpr ⟨ht, htoken⟩⟩

/-- The step lemma. -/
lemma step (h : n.Inv ∧ n.Conserves old) {e : NetworkEvent} (hids : n.DistinctIds c e) :
    (n.step c e).Inv ∧ (n.step c e).Conserves old := by
  refine ⟨h.1.step hids, ?_⟩
  cases e with
  | mint ownerPk value draw => exact h.2.mint ownerPk value (hids.1 _ List.mem_cons_self)
  | hand tokenId => exact h.2.hand tokenId
  | pay senderPk receiverPk amount draw => exact h.2.pay h.1 hids.2
  | deliver index receiverPk readings => exact deliver h index receiverPk readings

end Conserves

/-! ### Runs -/

/-- What is on its way. -/
def valueUndelivered (n : Network) : Int := (n.undelivered.map fun p => p.2.value).sum

/-- In every run, the tokens in the unspent registers, on their way and not handed out are together
those that were minted, each in one place and as it was minted. The balances, what is on its way and
what is not handed out add up to what was minted. -/
theorem value_conserved {issuer : Issuer} {members : Dict String (String × PolicyConfig)}
    {es : List NetworkEvent} (hrun : Along (Network.step c) (DistinctIds c) (start issuer members) es) :
    let n := runFrom (Network.step c) (start issuer members) es
    (n.issuer.issuedTokens.items.map Token.face).Perm
        (n.places ++ issuer.issuedTokens.items.map Token.face) ∧
      (n.places.map Face.tokenId).Nodup ∧
      (n.wallets.items.map Wallet.balance).sum + n.valueUndelivered + n.unhanded.total Token.value
        = n.issuer.issuedTokens.total Token.value - issuer.issuedTokens.total Token.value := by
  intro n
  have hkept : n.Inv ∧ n.Conserves issuer.issuedTokens :=
    Along.invariant (I := fun n : Network => n.Inv ∧ n.Conserves issuer.issuedTokens)
      (fun _ _ hids h => Conserves.step h hids) hrun
      ⟨inv_start issuer members, conserves_start issuer members⟩
  obtain ⟨-, h⟩ := hkept
  refine ⟨h, h.nodup_places, ?_⟩
  have hsum := (h.map Face.value).sum_eq
  have hvalues : ∀ tokens : List Token, (tokens.map Token.face).map Face.value
      = tokens.map Token.value := fun tokens => by
    rw [List.map_map]
    rfl
  have hheld : ((n.wallets.items.flatMap Wallet.faces).map Face.value).sum
      = (n.wallets.items.map Wallet.balance).sum := by
    rw [List.map_flatMap, List.flatMap_def, List.sum_flatten, List.map_map]
    congr 1
    apply List.map_congr_left
    intro w _
    exact congrArg List.sum (hvalues w.utr.items)
  have hflight : ((n.undelivered.map fun p => p.2.face).map Face.value).sum = n.valueUndelivered := by
    rw [List.map_map]
    rfl
  rw [places, elsewhere] at hsum
  simp only [List.map_append, List.sum_append, hheld, hflight, hvalues] at hsum
  simp only [KeyedList.total]
  omega

/-- A token goes from Alice to Bob and back. -/
theorem value_conserved_roundTrip :
    let n := runFrom (Network.step plainCrypto) (start plainIssuer plainMembers) roundTrip
    (n.places.map Face.tokenId).Nodup ∧
      (n.wallets.items.map Wallet.balance).sum + n.valueUndelivered + n.unhanded.total Token.value
        = n.issuer.issuedTokens.total Token.value - plainIssuer.issuedTokens.total Token.value :=
  (value_conserved (by decide +kernel)).2

end Network

end PocketCash.Offline
