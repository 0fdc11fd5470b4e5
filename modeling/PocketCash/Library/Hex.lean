import Mathlib.Data.Finset.Lattice.Fold
import Mathlib.Tactic.Common

/-!
# Byte strings and their hexadecimal texts

`bytes.hex()` and `bytes.fromhex()`. Writing uses lower-case digits only. Reading also accepts
upper-case digits and skips white space before a pair of digits, so that a byte string has one
written form and many that are read as it.
-/

namespace PocketCash

abbrev Bytes := List UInt8

/-- `s.encode("utf-8")`. -/
def utf8 (s : String) : Bytes := s.toUTF8.data.toList

lemma utf8_injective : Function.Injective utf8 := fun _ _ h =>
  String.toByteArray_inj.mp (ByteArray.ext (Array.toList_inj.mp h))

lemma utf8_append (s t : String) : utf8 (s ++ t) = utf8 s ++ utf8 t := by
  simp [utf8, String.toByteArray_append]

namespace Hex

/-- The lower-case digit of a number below 16. -/
def digit (n : Nat) : Char := "0123456789abcdef".toList.getD n '0'

/-- The value of a hexadecimal digit. -/
def digitValue (c : Char) : Option Nat :=
  if '0' ≤ c ∧ c ≤ '9' then some (c.toNat - '0'.toNat)
  else if 'a' ≤ c ∧ c ≤ 'f' then some (c.toNat - 'a'.toNat + 10)
  else if 'A' ≤ c ∧ c ≤ 'F' then some (c.toNat - 'A'.toNat + 10)
  else none

/-- ASCII white space. -/
def isSpace (c : Char) : Bool := c = ' ' || '\t' ≤ c && c ≤ '\r'

def encodeByte (b : UInt8) : List Char := [digit (b.toNat / 16), digit (b.toNat % 16)]

/-- `bytes.hex`. -/
def encode (bs : Bytes) : String := String.ofList (bs.flatMap encodeByte)

def decodeChars : List Char → Option Bytes
  | [] => some []
  | [c] => if isSpace c then some [] else none
  | c :: d :: rest =>
    if isSpace c then decodeChars (d :: rest)
    else
      match digitValue c, digitValue d with
      | some high, some low => (decodeChars rest).map (UInt8.ofNat (16 * high + low) :: ·)
      | _, _ => none

/-- `bytes.fromhex`; `none` stands for `ValueError`. -/
def decode (s : String) : Option Bytes := decodeChars s.toList

lemma digitValue_digit {n : Nat} (h : n < 16) : digitValue (digit n) = some n := by
  have hall : ∀ i : Fin 16, digitValue (digit i) = some i := by decide
  exact hall ⟨n, h⟩

lemma isSpace_digit {n : Nat} (h : n < 16) : isSpace (digit n) = false := by
  have hall : ∀ i : Fin 16, isSpace (digit i) = false := by decide
  exact hall ⟨n, h⟩

lemma decodeChars_encodeByte (b : UInt8) (rest : List Char) :
    decodeChars (encodeByte b ++ rest) = (decodeChars rest).map (b :: ·) := by
  have hb := b.toNat_lt
  have hbyte : UInt8.ofNat (16 * (b.toNat / 16) + b.toNat % 16) = b := by
    rw [Nat.div_add_mod]
    exact UInt8.ofNat_toNat
  simp [encodeByte, decodeChars, isSpace_digit (n := b.toNat / 16) (by omega),
    digitValue_digit (n := b.toNat / 16) (by omega),
    digitValue_digit (n := b.toNat % 16) (by omega), hbyte]

/-- What is written is read back. -/
@[simp] theorem decode_encode (bs : Bytes) : decode (encode bs) = some bs := by
  rw [decode, encode, String.toList_ofList]
  induction bs with
  | nil => rfl
  | cons b bs ih => rw [List.flatMap_cons, decodeChars_encodeByte, ih, Option.map_some]

lemma encode_injective : Function.Injective encode := fun bs bs' h =>
  Option.some.inj ((decode_encode bs).symm.trans (h ▸ decode_encode bs'))

/-- Nothing but digits and white space is read. -/
lemma isSpace_or_digit_of_decodeChars {cs : List Char} {bs : Bytes} (h : decodeChars cs = some bs) :
    ∀ c ∈ cs, isSpace c = true ∨ (digitValue c).isSome = true := by
  induction cs using decodeChars.induct generalizing bs with
  | case1 => simp
  | case2 c hspace => exact List.forall_mem_singleton.mpr (.inl hspace)
  | case3 c hspace =>
    rw [decodeChars, if_neg hspace] at h
    cases h
  | case4 c d rest hspace ih =>
    rw [decodeChars, if_pos hspace] at h
    exact List.forall_mem_cons.mpr ⟨.inl hspace, ih h⟩
  | case5 c d rest hspace high low hlow hhigh ih =>
    rw [decodeChars, if_neg hspace, hhigh, hlow] at h
    obtain ⟨bs', hrest, -⟩ := Option.map_eq_some_iff.mp h
    refine List.forall_mem_cons.mpr ⟨.inr ?_, List.forall_mem_cons.mpr ⟨.inr ?_, ih hrest⟩⟩
    · rw [hhigh, Option.isSome_some]
    · rw [hlow, Option.isSome_some]
  | case6 c d rest hspace hnone =>
    rw [decodeChars, if_neg hspace] at h
    split at h
    · exact absurd ‹_› (hnone _ _ ‹_›)
    · cases h

/-- The text is the one `bytes.hex` writes for the bytes it is read as. -/
def Canonical (s : String) : Prop := ∃ bs, s = encode bs

lemma Canonical.eq_of_decode {s s' : String} (h : Canonical s) (h' : Canonical s')
    (hdecode : decode s = decode s') : s = s' := by
  obtain ⟨bs, rfl⟩ := h
  obtain ⟨bs', rfl⟩ := h'
  rw [decode_encode, decode_encode] at hdecode
  rw [Option.some.inj hdecode]

/-! ### Respelling -/

/-- The text behind `count` blanks. -/
def indented (count : Nat) (s : String) : String := String.ofList (List.replicate count ' ') ++ s

lemma decode_indented (count : Nat) (s : String) : decode (indented count s) = decode s := by
  rw [decode, decode, indented, String.toList_append, String.toList_ofList]
  induction count with
  | zero => rfl
  | succ count ih =>
    rw [List.replicate_succ, List.cons_append, ← ih]
    cases List.replicate count ' ' ++ s.toList with
    | nil => rfl
    | cons d rest => rfl

/-- Some number of blanks leads out of every finite set of texts. -/
lemma exists_indented_notMem (s : String) (avoid : Finset String) :
    ∃ count, indented count s ∉ avoid := by
  refine ⟨avoid.sup String.length + 1, ?_⟩
  intro hmem
  have hlength := Finset.le_sup (f := String.length) hmem
  rw [indented, String.length_append, String.length_ofList, List.length_replicate] at hlength
  omega

/-- A text is read in infinitely many spellings. -/
lemma exists_respelling (s : String) (avoid : Finset String) :
    ∃ s', decode s' = decode s ∧ s' ∉ avoid := by
  obtain ⟨count, hnew⟩ := exists_indented_notMem s avoid
  exact ⟨indented count s, decode_indented count s, hnew⟩

end Hex

/-! ### Codes for concrete runs -/

/-- A prefix code for byte strings. -/
def delimited (bs : Bytes) : Bytes := bs.flatMap (fun b => [1, b]) ++ [0]

lemma delimited_append_inj {bs bs' rest rest' : Bytes}
    (h : delimited bs ++ rest = delimited bs' ++ rest') : bs = bs' ∧ rest = rest' := by
  induction bs generalizing bs' with
  | nil =>
    cases bs' with
    | nil => exact ⟨rfl, by simpa [delimited] using h⟩
    | cons b' bs' => simp [delimited] at h
  | cons b bs ih =>
    cases bs' with
    | nil => simp [delimited] at h
    | cons b' bs' =>
      simp only [delimited, List.flatMap_cons, List.append_assoc, List.cons_append, List.nil_append,
        List.cons.injEq, true_and] at h
      obtain ⟨rfl, h⟩ := h
      obtain ⟨rfl, rfl⟩ := ih (by simpa [delimited] using h)
      exact ⟨rfl, rfl⟩

/-- A checksum of four bytes in place of SHA-256. -/
def checksum (bs : Bytes) : Bytes :=
  let h := bs.foldl (fun h b => (257 * h + b.toNat + 1) % 4294967291) 7
  [UInt8.ofNat (h / 16777216), UInt8.ofNat (h / 65536), UInt8.ofNat (h / 256), UInt8.ofNat h]

end PocketCash
