import PocketCash.Library.Hex
import PocketCash.Library.Python

/-!
# Ed25519 over raw bytes

Keys are byte strings of one length. The scheme itself is a parameter: what is signed verifies, and
for an honest key nothing verifies but what its holder signed. If messages of some type are signed
as bytes that determine them, an honest holder has signed every message that verifies.
-/

namespace PocketCash

/-- Raw key material. -/
abbrev Key := {bs : Bytes // bs.length = 32}

/-- `from_private_bytes` and `from_public_bytes`, with the text of their refusal. -/
def keyFromBytes (refusal : String) (bs : Bytes) : Except PyError Key :=
  if h : bs.length = 32 then .ok ⟨bs, h⟩ else .error (.valueError refusal)

@[simp] lemma keyFromBytes_val (refusal : String) (key : Key) :
    keyFromBytes refusal key.val = .ok key := dif_pos key.property

lemma keyFromBytes_eq_ok_iff {refusal : String} {bs : Bytes} {key : Key} :
    keyFromBytes refusal bs = .ok key ↔ bs = key.val := by
  constructor
  · intro h
    rw [keyFromBytes] at h
    split_ifs at h with hlength
    cases h
    rfl
  · rintro rfl
    exact keyFromBytes_val refusal key

def privateKeyFromBytes : Bytes → Except PyError Key :=
  keyFromBytes "An Ed25519 private key is 32 bytes long"

def publicKeyFromBytes : Bytes → Except PyError Key :=
  keyFromBytes "An Ed25519 public key is 32 bytes long"

/-- `cryptography`'s Ed25519. `verify` is false where `InvalidSignature` is raised. -/
structure Ed25519 where
  publicKey : Key → Key
  sign : Key → Bytes → Bytes
  verify : Key → Bytes → Bytes → Bool

namespace Ed25519

/-- What is signed with a private key verifies under its public key. -/
def Correct (e : Ed25519) : Prop :=
  ∀ privateKey message, e.verify (e.publicKey privateKey) message (e.sign privateKey message) = true

variable {M : Type*}

/-- Honest holders of a key sign the messages they are asked to, and nobody else signs for them. -/
def Unforgeable (e : Ed25519) (bytes : Key → M → Bytes) (honest : Key → Prop)
    (asked : Key → M → Prop) : Prop :=
  ∀ key message signature, honest key → e.verify key message signature = true →
    ∃ m, asked key m ∧ message = bytes key m

/-- The holder was asked for a message whose bytes are read in one way. -/
lemma Unforgeable.asked {e : Ed25519} {bytes : Key → M → Bytes} {honest : Key → Prop}
    {asked : Key → M → Prop} (he : e.Unforgeable bytes honest asked) {key : Key}
    (hkey : honest key) (hinj : Function.Injective (bytes key)) {m : M} {signature : Bytes}
    (h : e.verify key (bytes key m) signature = true) : asked key m := by
  obtain ⟨m', hasked, hbytes⟩ := he key _ signature hkey h
  rwa [hinj hbytes]

/-! ### Concrete schemes -/

/-- A transparent scheme: the public key is the private key backwards, and a signature is the public
key with the message behind it. -/
def plain : Ed25519 where
  publicKey key := ⟨key.val.reverse, by rw [List.length_reverse, key.property]⟩
  sign key message := key.val.reverse ++ message
  verify key message signature := signature == key.val ++ message

lemma plain_correct : plain.Correct := fun _ _ => beq_self_eq_true _

/-- A scheme that verifies what its table of signed messages says, with the message itself as the
signature. -/
def ofTable (bytes : Key → M → Bytes) (table : List (Key × M)) : Ed25519 where
  publicKey key := key
  sign _ message := message
  verify key message signature :=
    signature == message && table.any fun entry => entry.1 == key && bytes key entry.2 == message

variable {bytes : Key → M → Bytes} {table : List (Key × M)}

lemma ofTable_unforgeable (bytes : Key → M → Bytes) (table : List (Key × M)) :
    (ofTable bytes table).Unforgeable bytes (fun _ => True) fun key m => (key, m) ∈ table := by
  intro key message signature _ h
  simp only [ofTable, Bool.and_eq_true, List.any_eq_true, beq_iff_eq] at h
  obtain ⟨-, ⟨key', m⟩, hmem, rfl, rfl⟩ := h
  exact ⟨m, hmem, rfl⟩

lemma verify_ofTable {key : Key} {m : M} (h : (key, m) ∈ table) :
    (ofTable bytes table).verify key (bytes key m) (bytes key m) = true := by
  simp only [ofTable, beq_self_eq_true, Bool.true_and, List.any_eq_true, Bool.and_eq_true]
  exact ⟨(key, m), h, beq_self_eq_true key, beq_self_eq_true (bytes key m)⟩

end Ed25519

/-- Key material for concrete runs. -/
def rawKey (b : UInt8) : Key := ⟨b :: List.replicate 31 0, by simp⟩

end PocketCash
