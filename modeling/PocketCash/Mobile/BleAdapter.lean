import PocketCash.Library.KeyedList
import PocketCash.Library.Mailbox
import PocketCash.Library.Python
import PocketCash.Library.Run

/-!
# BLE adapters

`BleAdapterStub` of `mobile/ble_adapter_stub.py`. Adapters are objects that know each other by
reference, here by number; several of them may have one device id. A registered peer stays
registered, or is replaced by another one of its id. So an adapter that has once been connected
always has somebody to send to.
-/

namespace PocketCash.Mobile

/-- In-memory BLE adapter stub with connect/send/receive primitives. -/
structure BleAdapterStub where
  deviceId : String
  peers : Dict String ℕ
  connectedPeer : Option String
  inbox : List String

/-- `BleAdapterStub(device_id)`. -/
def BleAdapterStub.new (deviceId : String) : BleAdapterStub := ⟨deviceId, .empty, none, []⟩

/-- All adapters. -/
abbrev Adapters := ℕ → BleAdapterStub

namespace Adapters

/-- Register a peer adapter so `connect` can discover it. -/
def registerPeer (a : Adapters) (self peer : ℕ) : Adapters :=
  Function.update a self { a self with peers := (a self).peers.set (a peer).deviceId peer }

/-- Connect to a known peer device id. -/
def connect (a : Adapters) (self : ℕ) (peerDeviceId : String) : Adapters × Bool :=
  if peerDeviceId ∉ (a self).peers.keys then (a, false)
  else (Function.update a self { a self with connectedPeer := some peerDeviceId }, true)

/-- Send a payload to the currently connected peer. -/
def send (a : Adapters) (self : ℕ) (payload : String) : Adapters × Except PyError ℕ :=
  match (a self).connectedPeer with
  | none => (a, .error (.valueError "no connected peer"))
  | some peerDeviceId =>
    match (a self).peers.get? peerDeviceId with
    | none => (a, .error (.keyError peerDeviceId))
    | some peer =>
      (Function.update a peer { a peer with inbox := (a peer).inbox ++ [payload] }, .ok peer)

/-- Receive next queued payload, if any. -/
def receive (a : Adapters) (self : ℕ) : Adapters × Option String :=
  match (a self).inbox with
  | [] => (a, none)
  | payload :: rest => (Function.update a self { a self with inbox := rest }, some payload)

end Adapters

/-! ### Runs -/

/-- The adapters, with journals of the payloads that were sent, by their addressee, of those that
were received, and of the connections that were made. -/
structure BleRun where
  adapters : Adapters
  sent : List (ℕ × String)
  received : List (ℕ × String)
  connected : List (ℕ × String)

namespace BleRun

inductive Event
  | registerPeer (self peer : ℕ)
  | connect (self : ℕ) (peerDeviceId : String)
  | send (self : ℕ) (payload : String)
  | receive (self : ℕ)

/-- New adapters. -/
structure Start (r : BleRun) : Prop where
  new : ∀ i, r.adapters i = .new (r.adapters i).deviceId
  sent : r.sent = []
  received : r.received = []
  connected : r.connected = []

def step (r : BleRun) : Event → BleRun
  | .registerPeer self peer => { r with adapters := r.adapters.registerPeer self peer }
  | .connect self peerDeviceId =>
    match r.adapters.connect self peerDeviceId with
    | (_, false) => r
    | (a, true) => { r with adapters := a, connected := r.connected ++ [(self, peerDeviceId)] }
  | .send self payload =>
    match r.adapters.send self payload with
    | (_, .error _) => r
    | (a, .ok peer) => { r with adapters := a, sent := r.sent ++ [(peer, payload)] }
  | .receive self =>
    match r.adapters.receive self with
    | (_, none) => r
    | (a, some payload) => { r with adapters := a, received := r.received ++ [(self, payload)] }

/-- The payloads lying in the inboxes. -/
def inboxes (a : Adapters) : ℕ → List String := fun i => (a i).inbox

/-- An adapter knows its peers by their ids, and is connected to the one that it connected to last. -/
structure Wired (r : BleRun) (i : ℕ) : Prop where
  peers : ∀ id peer, (r.adapters i).peers.get? id = some peer → (r.adapters peer).deviceId = id
  connectedPeer : (r.adapters i).connectedPeer = (itemsFor i r.connected).getLast?
  known : ∀ id, (r.adapters i).connectedPeer = some id → id ∈ (r.adapters i).peers.keys

structure Inv (r : BleRun) : Prop where
  accounts : Accounts (inboxes r.adapters) r.sent r.received
  wired : ∀ i, r.Wired i

lemma inboxes_update (a : Adapters) (i : ℕ) (adapter : BleAdapterStub) :
    inboxes (Function.update a i adapter) = Function.update (inboxes a) i adapter.inbox := by
  funext j
  exact Function.apply_update (fun _ adapter => BleAdapterStub.inbox adapter) a i adapter j

lemma deviceId_update {a : Adapters} {i : ℕ} {adapter : BleAdapterStub}
    (h : adapter.deviceId = (a i).deviceId) (j : ℕ) :
    (Function.update a i adapter j).deviceId = (a j).deviceId := by
  by_cases hj : j = i
  · subst hj
    rw [Function.update_self, h]
  · rw [Function.update_of_ne hj]

lemma inboxes_update_same {a : Adapters} {i : ℕ} {adapter : BleAdapterStub}
    (h : adapter.inbox = (a i).inbox) : inboxes (Function.update a i adapter) = inboxes a := by
  rw [inboxes_update, h]
  exact Function.update_eq_self i (inboxes a)

lemma Start.inv {r : BleRun} (h : r.Start) : r.Inv where
  accounts := by
    intro i
    rw [h.sent, h.received, inboxes, h.new i]
    rfl
  wired i := by
    refine ⟨?_, ?_, ?_⟩
    · rw [h.new i]
      rintro id peer ⟨⟩
    · rw [h.new i, h.connected]
      rfl
    · rw [h.new i]
      rintro id ⟨⟩

/-- Only inboxes change. -/
lemma Wired.of_same {r r' : BleRun} {i : ℕ} (h : r.Wired i)
    (hids : ∀ j, (r'.adapters j).deviceId = (r.adapters j).deviceId)
    (hpeers : (r'.adapters i).peers = (r.adapters i).peers)
    (hpeer : (r'.adapters i).connectedPeer = (r.adapters i).connectedPeer)
    (hconnected : itemsFor i r'.connected = itemsFor i r.connected) : r'.Wired i := by
  refine ⟨fun id peer hget => ?_, ?_, fun id hid => ?_⟩
  · rw [hids]
    exact h.peers id peer (hpeers ▸ hget)
  · rw [hpeer, hconnected]
    exact h.connectedPeer
  · rw [hpeers]
    exact h.known id (hpeer ▸ hid)

lemma Inv.put {r : BleRun} (h : r.Inv) {i : ℕ} {box : List String} {sent received : List (ℕ × String)}
    (haccounts : Accounts (Function.update (inboxes r.adapters) i box) sent received) :
    Inv { r with
      adapters := Function.update r.adapters i { r.adapters i with inbox := box }
      sent := sent
      received := received } where
  accounts := by
    rw [inboxes_update]
    exact haccounts
  wired j := by
    refine (h.wired j).of_same (deviceId_update rfl) ?_ ?_ rfl
    all_goals
      by_cases hj : j = i
      · subst hj
        simp only [Function.update_self]
      · simp only [Function.update_of_ne hj]

lemma Inv.registerPeer {r : BleRun} (h : r.Inv) (self peer : ℕ) :
    Inv { r with adapters := r.adapters.registerPeer self peer } where
  accounts := by
    have hboxes : inboxes (r.adapters.registerPeer self peer) = inboxes r.adapters :=
      inboxes_update_same rfl
    exact hboxes.symm ▸ h.accounts
  wired j := by
    have hids : ∀ k, (r.adapters.registerPeer self peer k).deviceId = (r.adapters k).deviceId :=
      deviceId_update rfl
    by_cases hj : j = self
    · subst hj
      have hpeers : (r.adapters.registerPeer j peer j).peers
          = (r.adapters j).peers.set (r.adapters peer).deviceId peer := by
        rw [Adapters.registerPeer, Function.update_self]
      have hpeer : (r.adapters.registerPeer j peer j).connectedPeer
          = (r.adapters j).connectedPeer := by
        rw [Adapters.registerPeer, Function.update_self]
      refine ⟨fun id k hget => ?_, ?_, fun id hid => ?_⟩
      · rw [hpeers, Dict.get?_set] at hget
        rw [hids]
        split_ifs at hget with hid
        · rw [← Option.some.inj hget, hid]
        · exact (h.wired j).peers id k hget
      · rw [hpeer]
        exact (h.wired j).connectedPeer
      · rw [hpeers, Dict.mem_keys_set]
        exact .inr ((h.wired j).known id (hpeer ▸ hid))
    · have hother : r.adapters.registerPeer self peer j = r.adapters j :=
        Function.update_of_ne hj _ _
      exact (h.wired j).of_same hids (congrArg BleAdapterStub.peers hother)
        (congrArg BleAdapterStub.connectedPeer hother) rfl

lemma Inv.connect {r : BleRun} (h : r.Inv) {self : ℕ} {peerDeviceId : String}
    (hknown : peerDeviceId ∈ (r.adapters self).peers.keys) :
    Inv { r with
      adapters := Function.update r.adapters self
        { r.adapters self with connectedPeer := some peerDeviceId }
      connected := r.connected ++ [(self, peerDeviceId)] } where
  accounts := by
    have hboxes : inboxes (Function.update r.adapters self
        { r.adapters self with connectedPeer := some peerDeviceId }) = inboxes r.adapters :=
      inboxes_update_same rfl
    exact hboxes.symm ▸ h.accounts
  wired j := by
    have hids : ∀ k, (Function.update r.adapters self
        { r.adapters self with connectedPeer := some peerDeviceId } k).deviceId
        = (r.adapters k).deviceId := deviceId_update rfl
    by_cases hj : j = self
    · subst hj
      refine ⟨fun id k hget => ?_, ?_, fun id hid => ?_⟩ <;> dsimp only at *
      · rw [Function.update_self] at hget
        rw [hids]
        exact (h.wired j).peers id k hget
      · rw [Function.update_self, itemsFor_concat, if_pos rfl, List.getLast?_concat]
      · rw [Function.update_self] at hid ⊢
        cases hid
        exact hknown
    · refine (h.wired j).of_same hids ?_ ?_ ?_ <;> dsimp only
      · rw [Function.update_of_ne hj]
      · rw [Function.update_of_ne hj]
      · rw [itemsFor_concat, if_neg (Ne.symm hj), List.append_nil]

lemma Inv.step {r : BleRun} (h : r.Inv) (e : Event) : (r.step e).Inv := by
  cases e with
  | registerPeer self peer => exact h.registerPeer self peer
  | connect self peerDeviceId =>
    rw [BleRun.step, Adapters.connect]
    split_ifs with hknown
    · exact h.connect hknown
    · exact h
  | send self payload =>
    rw [BleRun.step, Adapters.send]
    cases hpeer : (r.adapters self).connectedPeer with
    | none => exact h
    | some peerDeviceId =>
      cases hget : (r.adapters self).peers.get? peerDeviceId with
      | none => simpa only [hget] using h
      | some peer =>
        simp only [hget]
        exact h.put h.accounts.put_concat
  | receive self =>
    rw [BleRun.step, Adapters.receive]
    cases hbox : (r.adapters self).inbox with
    | nil => exact h
    | cons payload rest => exact h.put (h.accounts.take_head hbox)

/-! ### What arrives -/

/-- A `send` goes to an adapter of the device id that the sender has last connected to. It raises
`ValueError` if there was no connection, and no other exception. -/
lemma Inv.send {r : BleRun} (h : r.Inv) (i : ℕ) (payload : String) :
    ((itemsFor i r.connected).getLast? = none ∧
      r.adapters.send i payload = (r.adapters, .error (.valueError "no connected peer"))) ∨
    ∃ peer, (itemsFor i r.connected).getLast? = some (r.adapters peer).deviceId ∧
      (r.adapters.send i payload).2 = .ok peer := by
  rw [Adapters.send, ← (h.wired i).connectedPeer]
  cases hpeer : (r.adapters i).connectedPeer with
  | none => exact .inl ⟨rfl, rfl⟩
  | some peerDeviceId =>
    obtain ⟨peer, hget⟩ := Dict.mem_keys_iff_get?.mp ((h.wired i).known peerDeviceId hpeer)
    refine .inr ⟨peer, ?_, ?_⟩
    · rw [(h.wired i).peers peerDeviceId peer hget]
    · simp only [hget]

/-- In every run, what an adapter has received and what waits in its inbox is what was sent to it, in
order, each payload once. A `send` goes to an adapter of the device id that the sender has last
connected to, and raises exactly if the sender has never been connected. -/
theorem delivered_in_order {r : BleRun} (hstart : r.Start) (es : List Event) :
    let r' := runFrom step r es
    ∀ i, itemsFor i r'.received ++ (r'.adapters i).inbox = itemsFor i r'.sent ∧
      ∀ payload,
        ((itemsFor i r'.connected).getLast? = none ∧
          r'.adapters.send i payload
            = (r'.adapters, .error (.valueError "no connected peer"))) ∨
        ∃ peer, (itemsFor i r'.connected).getLast? = some (r'.adapters peer).deviceId ∧
          (r'.adapters.send i payload).2 = .ok peer := by
  intro r' i
  have h : r'.Inv := runFrom_invariant (fun _ e h => h.step e) hstart.inv es
  exact ⟨h.accounts i, h.send i⟩

/-- Two wallets find each other and exchange three messages. -/
def plainAdapters : BleRun where
  adapters i := .new (if i = 0 then "wallet-a" else "wallet-b")
  sent := []
  received := []
  connected := []

def handshake : List Event := [
  .registerPeer 0 1, .registerPeer 1 0, .connect 0 "wallet-b", .connect 1 "wallet-a",
  .send 0 "DISCOVERY", .receive 1, .send 1 "DISCOVERY_ACK", .receive 0, .send 0 "TRANSFER"]

theorem delivered_in_order_handshake :
    let r' := runFrom step plainAdapters handshake
    ∀ i, itemsFor i r'.received ++ (r'.adapters i).inbox = itemsFor i r'.sent ∧
      ∀ payload,
        ((itemsFor i r'.connected).getLast? = none ∧
          r'.adapters.send i payload
            = (r'.adapters, .error (.valueError "no connected peer"))) ∨
        ∃ peer, (itemsFor i r'.connected).getLast? = some (r'.adapters peer).deviceId ∧
          (r'.adapters.send i payload).2 = .ok peer :=
  delivered_in_order ⟨fun _ => rfl, rfl, rfl, rfl⟩ handshake

end BleRun

end PocketCash.Mobile
