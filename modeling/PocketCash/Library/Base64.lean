import PocketCash.Library.Hex
import PocketCash.Library.Python

/-!
# Byte strings and their base64 texts

`base64.b64encode` and `base64.b64decode` without `validate`. Reading skips characters that are no
symbols, and stops at the padding that completes a quad, so that a byte string has one written form
and many that are read as it.
-/

namespace PocketCash

namespace Base64

/-! ### Writing -/

/-- The symbol of a number below 64. -/
def symbol (n : Nat) : Char :=
  "ABCDEFGHIJKLMNOPQRSTUVWXYZabcdefghijklmnopqrstuvwxyz0123456789+/".toList.getD n 'A'

def encodeChars : Bytes → List Char
  | a :: b :: c :: rest =>
    symbol (a.toNat / 4) :: symbol (a.toNat % 4 * 16 + b.toNat / 16) ::
      symbol (b.toNat % 16 * 4 + c.toNat / 64) :: symbol (c.toNat % 64) :: encodeChars rest
  | [a, b] =>
    [symbol (a.toNat / 4), symbol (a.toNat % 4 * 16 + b.toNat / 16), symbol (b.toNat % 16 * 4), '=']
  | [a] => [symbol (a.toNat / 4), symbol (a.toNat % 4 * 16), '=', '=']
  | [] => []

/-- `base64.b64encode(bs).decode("ascii")`. -/
def encode (bs : Bytes) : String := String.ofList (encodeChars bs)

/-! ### Reading -/

/-- The number of a symbol. -/
def symbolValue (c : Char) : Option Nat :=
  if 'A' ≤ c ∧ c ≤ 'Z' then some (c.toNat - 'A'.toNat)
  else if 'a' ≤ c ∧ c ≤ 'z' then some (c.toNat - 'a'.toNat + 26)
  else if '0' ≤ c ∧ c ≤ '9' then some (c.toNat - '0'.toNat + 52)
  else if c = '+' then some 62
  else if c = '/' then some 63
  else none

/-- The bytes that end a quad which `seen` symbols have begun. -/
def closeQuad (seen : Nat) : Except PyError Bytes :=
  match seen % 4 with
  | 0 => .ok []
  | 1 => .error (.valueError ("Invalid base64-encoded string: number of data characters (" ++
      toString seen ++ ") cannot be 1 more than a multiple of 4"))
  | _ => .error (.valueError "Incorrect padding")

/-- `binascii.a2b_base64` behind `seen` symbols: `left` holds the bits of the last one that belong
to the next byte, and `pads` counts the padding characters since. -/
def readSymbols (seen left pads : Nat) : List Char → Except PyError Bytes
  | [] => closeQuad seen
  | c :: rest =>
    if c = '=' then
      if 2 ≤ seen % 4 then
        -- a padded quad is the last one
        if 4 ≤ seen % 4 + (pads + 1) then .ok []
        else readSymbols seen left (pads + 1) rest
      else readSymbols seen left pads rest
    else
      match symbolValue c with
      | none => readSymbols seen left pads rest
      | some v =>
        match seen % 4 with
        | 0 => readSymbols (seen + 1) v 0 rest
        | 1 => (readSymbols (seen + 1) (v % 16) 0 rest).map (UInt8.ofNat (left * 4 + v / 16) :: ·)
        | 2 => (readSymbols (seen + 1) (v % 4) 0 rest).map (UInt8.ofNat (left * 16 + v / 4) :: ·)
        | _ => (readSymbols (seen + 1) 0 0 rest).map (UInt8.ofNat (left * 64 + v) :: ·)

def isAscii (s : String) : Bool := s.toList.all fun c => c.toNat < 128

/-- `base64.b64decode`. -/
def decode (s : String) : Except PyError Bytes :=
  if isAscii s then readSymbols 0 0 0 s.toList
  else .error (.valueError "string argument should contain only ASCII characters")

/-! ### What is written is read back -/

lemma symbolValue_symbol {n : Nat} (h : n < 64) : symbolValue (symbol n) = some n := by
  have hlow : ∀ i < 32, symbolValue (symbol i) = some i := by decide
  have hhigh : ∀ i < 32, symbolValue (symbol (32 + i)) = some (32 + i) := by decide
  rcases Nat.lt_or_ge n 32 with hn | hn
  · exact hlow n hn
  · have hvalue := hhigh (n - 32) (by omega)
    rwa [Nat.add_sub_cancel' hn] at hvalue

lemma symbolValue_pad : symbolValue '=' = none := by decide

lemma symbol_ne_pad {n : Nat} (h : n < 64) : symbol n ≠ '=' := by
  intro hpad
  have hvalue := symbolValue_symbol h
  rw [hpad, symbolValue_pad] at hvalue
  cases hvalue

/-- The symbols are ASCII characters. -/
lemma toNat_lt_of_symbolValue {c : Char} {v : Nat} (h : symbolValue c = some v) :
    c.toNat < 128 := by
  by_contra hlarge
  have hle {d : Char} (hd : d.toNat < 128) : ¬ c ≤ d := by
    intro hcd
    exact hlarge (lt_of_le_of_lt (UInt32.le_iff_toNat_le.mp hcd) hd)
  have hne {d : Char} (hd : d.toNat < 128) : c ≠ d := by
    rintro rfl
    exact hlarge hd
  rw [symbolValue, if_neg fun hc => hle (by decide) hc.2, if_neg fun hc => hle (by decide) hc.2,
    if_neg fun hc => hle (by decide) hc.2, if_neg (hne (by decide)), if_neg (hne (by decide))] at h
  cases h

lemma toNat_symbol_lt {n : Nat} (h : n < 64) : (symbol n).toNat < 128 :=
  toNat_lt_of_symbolValue (symbolValue_symbol h)

variable {seen left pads : Nat} {rest : List Char}

lemma readSymbols_nil : readSymbols seen left pads [] = closeQuad seen := rfl

/-- What one character does. -/
lemma readSymbols_cons (c : Char) (rest : List Char) :
    readSymbols seen left pads (c :: rest) =
      if c = '=' then
        if 2 ≤ seen % 4 then
          if 4 ≤ seen % 4 + (pads + 1) then .ok []
          else readSymbols seen left (pads + 1) rest
        else readSymbols seen left pads rest
      else
        match symbolValue c with
        | none => readSymbols seen left pads rest
        | some v =>
          match seen % 4 with
          | 0 => readSymbols (seen + 1) v 0 rest
          | 1 => (readSymbols (seen + 1) (v % 16) 0 rest).map (UInt8.ofNat (left * 4 + v / 16) :: ·)
          | 2 => (readSymbols (seen + 1) (v % 4) 0 rest).map (UInt8.ofNat (left * 16 + v / 4) :: ·)
          | _ => (readSymbols (seen + 1) 0 0 rest).map (UInt8.ofNat (left * 64 + v) :: ·) := rfl

/-- The first symbol of a quad. -/
lemma readSymbols_first (hseen : seen % 4 = 0) {v : Nat} (hv : v < 64) :
    readSymbols seen left pads (symbol v :: rest) = readSymbols (seen + 1) v 0 rest := by
  simp only [readSymbols_cons, if_neg (symbol_ne_pad hv), symbolValue_symbol hv, hseen]

lemma readSymbols_second (hseen : seen % 4 = 1) {v : Nat} (hv : v < 64) :
    readSymbols seen left pads (symbol v :: rest)
      = (readSymbols (seen + 1) (v % 16) 0 rest).map (UInt8.ofNat (left * 4 + v / 16) :: ·) := by
  simp only [readSymbols_cons, if_neg (symbol_ne_pad hv), symbolValue_symbol hv, hseen]

lemma readSymbols_third (hseen : seen % 4 = 2) {v : Nat} (hv : v < 64) :
    readSymbols seen left pads (symbol v :: rest)
      = (readSymbols (seen + 1) (v % 4) 0 rest).map (UInt8.ofNat (left * 16 + v / 4) :: ·) := by
  simp only [readSymbols_cons, if_neg (symbol_ne_pad hv), symbolValue_symbol hv, hseen]

lemma readSymbols_fourth (hseen : seen % 4 = 3) {v : Nat} (hv : v < 64) :
    readSymbols seen left pads (symbol v :: rest)
      = (readSymbols (seen + 1) 0 0 rest).map (UInt8.ofNat (left * 64 + v) :: ·) := by
  simp only [readSymbols_cons, if_neg (symbol_ne_pad hv), symbolValue_symbol hv, hseen]

/-- One padding character closes a quad of three symbols. -/
lemma readSymbols_pad (hseen : seen % 4 = 3) :
    readSymbols seen left pads ('=' :: rest) = .ok [] := by
  rw [readSymbols_cons, if_pos rfl, if_pos (by omega), if_pos (by omega)]

/-- Two of them close a quad of two symbols. -/
lemma readSymbols_pad_pad (hseen : seen % 4 = 2) :
    readSymbols seen left 0 ('=' :: '=' :: rest) = .ok [] := by
  rw [readSymbols_cons, if_pos rfl, if_pos (by omega), if_neg (by omega), readSymbols_cons,
    if_pos rfl, if_pos (by omega), if_pos (by omega)]

/-- The first byte of a quad. -/
lemma byte_first (a : UInt8) {n : Nat} (hn : n < 16) :
    UInt8.ofNat (a.toNat / 4 * 4 + (a.toNat % 4 * 16 + n) / 16) = a := by
  have hnat : a.toNat / 4 * 4 + (a.toNat % 4 * 16 + n) / 16 = a.toNat := by omega
  rw [hnat, UInt8.ofNat_toNat]

lemma byte_second (b : UInt8) {m n : Nat} (hn : n < 4) :
    UInt8.ofNat ((m * 16 + b.toNat / 16) % 16 * 16 + (b.toNat % 16 * 4 + n) / 4) = b := by
  have hb := b.toNat_lt
  have hnat : (m * 16 + b.toNat / 16) % 16 * 16 + (b.toNat % 16 * 4 + n) / 4 = b.toNat := by omega
  rw [hnat, UInt8.ofNat_toNat]

lemma byte_third (c : UInt8) {m : Nat} :
    UInt8.ofNat ((m * 4 + c.toNat / 64) % 4 * 64 + c.toNat % 64) = c := by
  have hc := c.toNat_lt
  have hnat : (m * 4 + c.toNat / 64) % 4 * 64 + c.toNat % 64 = c.toNat := by omega
  rw [hnat, UInt8.ofNat_toNat]

lemma readSymbols_encodeChars (bs : Bytes) (hseen : seen % 4 = 0) :
    readSymbols seen left pads (encodeChars bs) = .ok bs := by
  induction bs using encodeChars.induct generalizing seen left pads with
  | case1 a b c rest ih =>
    have ha := a.toNat_lt
    have hb := b.toNat_lt
    have hc := c.toNat_lt
    rw [encodeChars, readSymbols_first hseen (by omega), readSymbols_second (by omega) (by omega),
      readSymbols_third (by omega) (by omega), readSymbols_fourth (by omega) (by omega),
      byte_first a (by omega), byte_second b (by omega), byte_third c, ih (by omega)]
    rfl
  | case2 a b =>
    have ha := a.toNat_lt
    have hb := b.toNat_lt
    have hsecond := byte_second b (m := a.toNat % 4) (n := 0) (by omega)
    rw [Nat.add_zero] at hsecond
    rw [encodeChars, readSymbols_first hseen (by omega), readSymbols_second (by omega) (by omega),
      readSymbols_third (by omega) (by omega), readSymbols_pad (by omega),
      byte_first a (by omega), hsecond]
    rfl
  | case3 a =>
    have ha := a.toNat_lt
    have hfirst := byte_first a (n := 0) (by omega)
    rw [Nat.add_zero] at hfirst
    rw [encodeChars, readSymbols_first hseen (by omega), readSymbols_second (by omega) (by omega),
      readSymbols_pad_pad (by omega), hfirst]
    rfl
  | case4 =>
    simp only [encodeChars, readSymbols_nil, closeQuad, hseen]

lemma all_encodeChars (bs : Bytes) : ∀ c ∈ encodeChars bs, c.toNat < 128 := by
  induction bs using encodeChars.induct with
  | case1 a b c rest ih =>
    have ha := a.toNat_lt
    have hb := b.toNat_lt
    have hc := c.toNat_lt
    simp only [encodeChars, List.forall_mem_cons]
    exact ⟨toNat_symbol_lt (by omega), toNat_symbol_lt (by omega), toNat_symbol_lt (by omega),
      toNat_symbol_lt (by omega), ih⟩
  | case2 a b =>
    have ha := a.toNat_lt
    have hb := b.toNat_lt
    simp only [encodeChars, List.forall_mem_cons]
    exact ⟨toNat_symbol_lt (by omega), toNat_symbol_lt (by omega), toNat_symbol_lt (by omega),
      by decide, by simp⟩
  | case3 a =>
    have ha := a.toNat_lt
    simp only [encodeChars, List.forall_mem_cons]
    exact ⟨toNat_symbol_lt (by omega), toNat_symbol_lt (by omega), by decide, by decide, by simp⟩
  | case4 => simp [encodeChars]

lemma isAscii_encode (bs : Bytes) : isAscii (encode bs) = true := by
  rw [isAscii, encode, String.toList_ofList, List.all_eq_true]
  intro c hc
  simpa using all_encodeChars bs c hc

@[simp] theorem decode_encode (bs : Bytes) : decode (encode bs) = .ok bs := by
  rw [decode, if_pos (isAscii_encode bs), encode, String.toList_ofList]
  exact readSymbols_encodeChars bs rfl

lemma encode_injective : Function.Injective encode := by
  intro bs bs' h
  have hdecode := congrArg decode h
  rw [decode_encode, decode_encode] at hdecode
  exact Except.ok.inj hdecode

/-! ### Respelling -/

/-- A symbol or a padding character. -/
def isKept (c : Char) : Bool := c = '=' || (symbolValue c).isSome

/-- The other characters are skipped. -/
lemma readSymbols_filter (cs : List Char) :
    readSymbols seen left pads (cs.filter isKept) = readSymbols seen left pads cs := by
  induction cs generalizing seen left pads with
  | nil => rfl
  | cons c rest ih =>
    by_cases hkept : isKept c = true
    · rw [List.filter_cons_of_pos hkept, readSymbols_cons, readSymbols_cons]
      simp only [ih]
    · rw [List.filter_cons_of_neg hkept, ih, readSymbols_cons]
      obtain ⟨hpad, hvalue⟩ : c ≠ '=' ∧ symbolValue c = none := by simpa [isKept] using hkept
      rw [if_neg hpad, hvalue]

/-- ASCII texts with the same symbols and padding characters, in the same order, are read as the
same bytes. -/
lemma decode_eq_of_filter {s s' : String} (h : isAscii s = true) (h' : isAscii s' = true)
    (hfilter : s.toList.filter isKept = s'.toList.filter isKept) : decode s = decode s' := by
  rw [decode, decode, if_pos h, if_pos h', ← readSymbols_filter s.toList, hfilter,
    readSymbols_filter]

lemma decode_indented (count : Nat) (s : String) : decode (Hex.indented count s) = decode s := by
  have hchars : (Hex.indented count s).toList = List.replicate count ' ' ++ s.toList := by
    rw [Hex.indented, String.toList_append, String.toList_ofList]
  have hascii : isAscii (Hex.indented count s) = isAscii s := by
    rw [isAscii, hchars, List.all_append, List.all_replicate]
    simp [isAscii]
  have hkept : (List.replicate count ' ').filter isKept = [] := by
    rw [List.filter_eq_nil_iff]
    intro c hc
    rw [List.eq_of_mem_replicate hc]
    decide
  by_cases h : isAscii s = true
  · apply decode_eq_of_filter (hascii.trans h) h
    rw [hchars, List.filter_append, hkept, List.nil_append]
  · rw [decode, decode, hascii, if_neg h, if_neg h]

/-- A text is read in infinitely many spellings. -/
lemma exists_respelling (s : String) (avoid : Finset String) :
    ∃ s', decode s' = decode s ∧ s' ∉ avoid := by
  obtain ⟨count, hnew⟩ := Hex.exists_indented_notMem s avoid
  exact ⟨Hex.indented count s, decode_indented count s, hnew⟩

end Base64

end PocketCash
