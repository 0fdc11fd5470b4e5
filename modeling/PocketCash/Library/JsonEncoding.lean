import PocketCash.Library.Hex

/-!
# The written form of flat JSON dictionaries

`json.dumps(fields, separators=(",", ":"))` for a dictionary whose values are strings, integers and
`None`. Characters outside the printable ASCII range are escaped, so the text is ASCII.

The text is self-delimiting: whatever follows it, there is only one place at which it can end, and
it determines the dictionary.
-/

namespace PocketCash

namespace JsonEncoding

/-! ### Characters -/

/-- `\uXXXX` for a UTF-16 code unit. -/
def escapeUnit (unit : Nat) : List Char :=
  ['\\', 'u', Hex.digit (unit / 4096), Hex.digit (unit / 256 % 16), Hex.digit (unit / 16 % 16),
    Hex.digit (unit % 16)]

/-- A character as `json.dumps` writes it with `ensure_ascii`. -/
def escapeChar (c : Char) : List Char :=
  if c = '"' then ['\\', '"']
  else if c = '\\' then ['\\', '\\']
  else if c = '\n' then ['\\', 'n']
  else if c = '\r' then ['\\', 'r']
  else if c = '\t' then ['\\', 't']
  else if c = '\x08' then ['\\', 'b']
  else if c = '\x0c' then ['\\', 'f']
  else if ' ' ≤ c ∧ c ≤ '~' then [c]
  else if c.toNat < 0x10000 then escapeUnit c.toNat
  else escapeUnit (0xd800 + (c.toNat - 0x10000) / 0x400) ++
    escapeUnit (0xdc00 + (c.toNat - 0x10000) % 0x400)

/-- The number that four hexadecimal digits spell. -/
def readUnit (a b c d : Char) : Option Nat := do
  return 4096 * (← Hex.digitValue a) + 256 * (← Hex.digitValue b) + 16 * (← Hex.digitValue c)
    + (← Hex.digitValue d)

/-- Reads a character of a string literal, and fails at its end. -/
def readChar : List Char → Option (Char × List Char)
  | '\\' :: 'u' :: a :: b :: c :: d :: rest =>
    match readUnit a b c d with
    | none => none
    | some unit =>
      if unit < 0xd800 ∨ 0xdc00 ≤ unit then some (Char.ofNat unit, rest)
      else
        match rest with
        | '\\' :: 'u' :: a :: b :: c :: d :: rest =>
          (readUnit a b c d).map fun low =>
            (Char.ofNat (0x10000 + 0x400 * (unit - 0xd800) + (low - 0xdc00)), rest)
        | _ => none
  | '\\' :: 'n' :: rest => some ('\n', rest)
  | '\\' :: 'r' :: rest => some ('\r', rest)
  | '\\' :: 't' :: rest => some ('\t', rest)
  | '\\' :: 'b' :: rest => some ('\x08', rest)
  | '\\' :: 'f' :: rest => some ('\x0c', rest)
  | '\\' :: c :: rest => some (c, rest)
  | '"' :: _ => none
  | c :: rest => some (c, rest)
  | [] => none

lemma readUnit_digits {unit : Nat} (h : unit < 0x10000) :
    readUnit (Hex.digit (unit / 4096)) (Hex.digit (unit / 256 % 16)) (Hex.digit (unit / 16 % 16))
      (Hex.digit (unit % 16)) = some unit := by
  have hunit : 4096 * (unit / 4096) + 256 * (unit / 256 % 16) + 16 * (unit / 16 % 16) + unit % 16
      = unit := by omega
  simp [readUnit, Hex.digitValue_digit (n := unit / 4096) (by omega),
    Hex.digitValue_digit (n := unit / 256 % 16) (by omega),
    Hex.digitValue_digit (n := unit / 16 % 16) (by omega),
    Hex.digitValue_digit (n := unit % 16) (by omega), hunit]

lemma readChar_unit (a b c d : Char) (rest : List Char) :
    readChar ('\\' :: 'u' :: a :: b :: c :: d :: rest) =
      match readUnit a b c d with
      | none => none
      | some unit =>
        if unit < 0xd800 ∨ 0xdc00 ≤ unit then some (Char.ofNat unit, rest)
        else
          match rest with
          | '\\' :: 'u' :: a :: b :: c :: d :: rest =>
            (readUnit a b c d).map fun low =>
              (Char.ofNat (0x10000 + 0x400 * (unit - 0xd800) + (low - 0xdc00)), rest)
          | _ => none := rfl

lemma readChar_escapeUnit {unit : Nat} (h : unit < 0x10000) (hunit : unit < 0xd800 ∨ 0xdc00 ≤ unit)
    (rest : List Char) : readChar (escapeUnit unit ++ rest) = some (Char.ofNat unit, rest) := by
  rw [escapeUnit]
  simp only [List.cons_append, List.nil_append, readChar_unit, readUnit_digits h]
  rw [if_pos hunit]

lemma readChar_surrogates {high low : Nat} (h : 0xd800 ≤ high) (h' : high < 0xdc00)
    (hlow : low < 0x10000) (rest : List Char) :
    readChar (escapeUnit high ++ escapeUnit low ++ rest)
      = some (Char.ofNat (0x10000 + 0x400 * (high - 0xd800) + (low - 0xdc00)), rest) := by
  have hhigh : high < 0x10000 := by omega
  rw [escapeUnit, escapeUnit]
  simp only [List.cons_append, List.nil_append, readChar_unit, readUnit_digits hhigh]
  rw [if_neg (by omega), readUnit_digits hlow]
  rfl

/-- The characters written with a backslash and a letter. -/
def shortEscapes : List (Char × Char) :=
  [('"', '"'), ('\\', '\\'), ('\n', 'n'), ('\r', 'r'), ('\t', 't'), ('\x08', 'b'), ('\x0c', 'f')]

lemma escapeChar_short :
    ∀ escape ∈ shortEscapes, escapeChar escape.1 = ['\\', escape.2] := by decide

lemma readChar_short (rest : List Char) :
    ∀ escape ∈ shortEscapes, readChar ('\\' :: escape.2 :: rest) = some (escape.1, rest) := by
  simp only [shortEscapes, List.forall_mem_cons]
  exact ⟨rfl, rfl, rfl, rfl, rfl, rfl, rfl, nofun⟩

/-- The ways in which a character is written. -/
lemma escapeChar_cases (c : Char) :
    (∃ letter, (c, letter) ∈ shortEscapes ∧ escapeChar c = ['\\', letter]) ∨
    ((c ≠ '"' ∧ c ≠ '\\') ∧ c ≤ '~' ∧ escapeChar c = [c]) ∨
    (c.toNat < 0x10000 ∧ escapeChar c = escapeUnit c.toNat) ∨
    (0x10000 ≤ c.toNat ∧ escapeChar c = escapeUnit (0xd800 + (c.toNat - 0x10000) / 0x400) ++
      escapeUnit (0xdc00 + (c.toNat - 0x10000) % 0x400)) := by
  by_cases hshort : ∃ letter, (c, letter) ∈ shortEscapes
  · obtain ⟨letter, hletter⟩ := hshort
    exact .inl ⟨letter, hletter, escapeChar_short _ hletter⟩
  · right
    have hne : ∀ escape ∈ shortEscapes, c ≠ escape.1 := by
      rintro ⟨d, letter⟩ hletter rfl
      exact hshort ⟨letter, hletter⟩
    simp only [shortEscapes, List.forall_mem_cons] at hne
    obtain ⟨hquote, hback, hn, hr, ht, hb, hf, -⟩ := hne
    rw [escapeChar, if_neg hquote, if_neg hback, if_neg hn, if_neg hr, if_neg ht, if_neg hb,
      if_neg hf]
    by_cases hliteral : ' ' ≤ c ∧ c ≤ '~'
    · exact .inl ⟨⟨hquote, hback⟩, hliteral.2, if_pos hliteral⟩
    · rw [if_neg hliteral]
      by_cases hunit : c.toNat < 0x10000
      · exact .inr (.inl ⟨hunit, if_pos hunit⟩)
      · exact .inr (.inr ⟨by omega, if_neg hunit⟩)

lemma readChar_literal {c : Char} (hquote : c ≠ '"') (hback : c ≠ '\\') (rest : List Char) :
    readChar (c :: rest) = some (c, rest) := by
  rw [readChar.eq_def]
  split <;> simp_all

/-- What is written is read back. -/
lemma readChar_escapeChar (c : Char) (rest : List Char) :
    readChar (escapeChar c ++ rest) = some (c, rest) := by
  have hvalid : c.toNat < 0xd800 ∨ 0xdfff < c.toNat ∧ c.toNat < 0x110000 := c.valid
  rcases escapeChar_cases c with ⟨letter, hletter, hc⟩ | ⟨⟨hquote, hback⟩, -, hc⟩ | ⟨hunit, hc⟩ |
    ⟨hunit, hc⟩
  · rw [hc]
    exact readChar_short rest _ hletter
  · rw [hc, List.singleton_append, readChar_literal hquote hback]
  · rw [hc, readChar_escapeUnit hunit (by omega), Char.ofNat_toNat]
  · rw [hc, readChar_surrogates (by omega) (by omega) (by omega)]
    have hnat : 0x10000 + 0x400 * (0xd800 + (c.toNat - 0x10000) / 0x400 - 0xd800)
        + (0xdc00 + (c.toNat - 0x10000) % 0x400 - 0xdc00) = c.toNat := by omega
    rw [hnat, Char.ofNat_toNat]

/-! ### Strings -/

/-- A string literal without its opening quote. -/
def literalTail (cs : List Char) : List Char := cs.flatMap escapeChar ++ ['"']

/-- A string literal. -/
def quoted (s : String) : List Char := '"' :: literalTail s.toList

lemma readChar_literalTail_nil (rest : List Char) : readChar (literalTail [] ++ rest) = none := rfl

lemma readChar_literalTail_cons (c : Char) (cs rest : List Char) :
    readChar (literalTail (c :: cs) ++ rest) = some (c, literalTail cs ++ rest) := by
  rw [literalTail, List.flatMap_cons, List.append_assoc, List.append_assoc, readChar_escapeChar,
    ← List.append_assoc, ← literalTail]

lemma literalTail_append_inj {cs cs' rest rest' : List Char}
    (h : literalTail cs ++ rest = literalTail cs' ++ rest') : cs = cs' ∧ rest = rest' := by
  have hread := congrArg readChar h
  induction cs generalizing cs' with
  | nil =>
    cases cs' with
    | nil => exact ⟨rfl, List.append_cancel_left h⟩
    | cons c' cs' =>
      rw [readChar_literalTail_nil, readChar_literalTail_cons] at hread
      cases hread
  | cons c cs ih =>
    rw [readChar_literalTail_cons] at hread
    cases cs' with
    | nil => cases hread
    | cons c' cs' =>
      rw [readChar_literalTail_cons] at hread
      obtain ⟨rfl, htail⟩ := Prod.mk.inj (Option.some.inj hread)
      obtain ⟨rfl, rfl⟩ := ih htail (congrArg readChar htail)
      exact ⟨rfl, rfl⟩

lemma quoted_append_inj {s s' : String} {rest rest' : List Char}
    (h : quoted s ++ rest = quoted s' ++ rest') : s = s' ∧ rest = rest' := by
  obtain ⟨hs, hrest⟩ := literalTail_append_inj (List.cons.inj h).2
  exact ⟨String.toList_injective hs, hrest⟩

/-! ### Values -/

/-- A value that is not a collection. -/
inductive Scalar
  | null
  | int (n : Int)
  | str (s : String)
  deriving DecidableEq, Repr

/-- A string or `None`. -/
def Scalar.ofOptStr : Option String → Scalar
  | none => .null
  | some s => .str s

lemma Scalar.ofOptStr_injective : Function.Injective ofOptStr := by
  rintro (_ | s) (_ | s') h <;> simp_all [ofOptStr]

/-- The decimal digits of an integer. -/
def intText : Int → List Char
  | .ofNat n => Nat.toDigits 10 n
  | .negSucc n => '-' :: Nat.toDigits 10 (n + 1)

def Scalar.text : Scalar → List Char
  | .null => ['n', 'u', 'l', 'l']
  | .int n => intText n
  | .str s => quoted s

/-- What can stand behind a value. -/
def IsMark (c : Char) : Prop := c = ',' ∨ c = '}'

lemma isDigit_of_mem_toDigits {n : Nat} {c : Char} (h : c ∈ Nat.toDigits 10 n) :
    c.isDigit = true :=
  Nat.isDigit_of_mem_toDigits (by decide) (by decide) h

lemma toDigits_injective : Function.Injective (Nat.toDigits 10) := by
  intro m n h
  rw [← Nat.ofDigitChars_ten_toDigits (n := m), h, Nat.ofDigitChars_ten_toDigits]

lemma intText_injective : Function.Injective intText := by
  have hsign : ∀ m n, intText (.ofNat m) ≠ intText (.negSucc n) := by
    intro m n h
    have hminus : '-' ∈ Nat.toDigits 10 m := by
      change '-' ∈ intText (.ofNat m)
      rw [h]
      exact List.mem_cons_self
    exact absurd (isDigit_of_mem_toDigits hminus) (by decide)
  rintro (m | m) (n | n) h
  · rw [toDigits_injective h]
  · exact absurd h (hsign m n)
  · exact absurd h.symm (hsign n m)
  · have hsucc := toDigits_injective (List.cons.inj h).2
    rw [Nat.succ.inj hsucc]

/-- A text without marks ends at the first mark. -/
lemma append_mark_inj {text text' tail tail' : List Char} {c c' : Char}
    (htext : ∀ d ∈ text, ¬ IsMark d) (htext' : ∀ d ∈ text', ¬ IsMark d) (hc : IsMark c)
    (hc' : IsMark c') (h : text ++ c :: tail = text' ++ c' :: tail') :
    text = text' ∧ c :: tail = c' :: tail' := by
  induction text generalizing text' with
  | nil =>
    cases text' with
    | nil => exact ⟨rfl, h⟩
    | cons d' text' => exact absurd ((List.cons.inj h).1 ▸ hc) (htext' d' List.mem_cons_self)
  | cons d text ih =>
    cases text' with
    | nil => exact absurd ((List.cons.inj h).1 ▸ hc') (htext d List.mem_cons_self)
    | cons d' text' =>
      obtain ⟨rfl, htail⟩ := List.cons.inj h
      obtain ⟨rfl, hrest⟩ := ih (fun e he => htext e (List.mem_cons_of_mem _ he))
        (fun e he => htext' e (List.mem_cons_of_mem _ he)) htail
      exact ⟨rfl, hrest⟩

lemma intText_ne_nil (n : Int) : intText n ≠ [] := by
  cases n with
  | ofNat n => exact Nat.toDigits_ne_nil
  | negSucc n => exact List.cons_ne_nil _ _

/-- The characters of an integer. -/
lemma mem_intText {n : Int} {c : Char} (h : c ∈ intText n) : c.isDigit = true ∨ c = '-' := by
  cases n with
  | ofNat n => exact .inl (isDigit_of_mem_toDigits h)
  | negSucc n =>
    rcases List.mem_cons.mp h with rfl | h
    · exact .inr rfl
    · exact .inl (isDigit_of_mem_toDigits h)

namespace Scalar

/-- A value that is not a string. -/
def IsPlain (v : Scalar) : Prop := ∀ s, v ≠ .str s

variable {v v' : Scalar}

/-- A plain value has no mark in it and does not start as a string does. -/
lemma IsPlain.text (hv : v.IsPlain) : (∀ d ∈ v.text, ¬ IsMark d ∧ d ≠ '"') ∧ v.text ≠ [] := by
  cases v with
  | null =>
    refine ⟨?_, by simp [Scalar.text]⟩
    intro d hd
    simp only [Scalar.text, List.mem_cons, List.not_mem_nil, or_false] at hd
    rcases hd with rfl | rfl | rfl | rfl <;> simp [IsMark]
  | int n =>
    refine ⟨?_, intText_ne_nil n⟩
    intro d hd
    rcases mem_intText hd with hdigit | rfl
    · constructor
      · rintro (rfl | rfl) <;> exact absurd hdigit (by decide)
      · rintro rfl
        exact absurd hdigit (by decide)
    · simp [IsMark]
  | str s => exact absurd rfl (hv s)

lemma IsPlain.text_append_ne (hv : v.IsPlain) (s : String) (tail tail' : List Char) :
    v.text ++ tail ≠ quoted s ++ tail' := by
  obtain ⟨hchars, hne⟩ := hv.text
  intro h
  cases htext : v.text with
  | nil => exact hne htext
  | cons d rest =>
    rw [htext] at h
    exact (hchars d (htext ▸ List.mem_cons_self)).2 (List.cons.inj h).1

lemma IsPlain.eq_of_text (hv : v.IsPlain) (hv' : v'.IsPlain) (h : v.text = v'.text) : v = v' := by
  have hnull : ∀ n, Scalar.null.text ≠ intText n := by
    intro n h
    have hn : 'n' ∈ intText n := h ▸ List.mem_cons_self
    rcases mem_intText hn with hdigit | hminus
    · exact absurd hdigit (by decide)
    · exact absurd hminus (by decide)
  cases v with
  | null =>
    cases v' with
    | null => rfl
    | int n => exact absurd h (hnull n)
    | str s => exact absurd rfl (hv' s)
  | int m =>
    cases v' with
    | null => exact absurd h.symm (hnull m)
    | int n => rw [intText_injective h]
    | str s => exact absurd rfl (hv' s)
  | str s => exact absurd rfl (hv s)

lemma isPlain_or_str (v : Scalar) : v.IsPlain ∨ ∃ s, v = .str s := by
  cases v <;> simp [IsPlain]

/-- A value ends at the mark that stands behind it. -/
lemma text_mark_inj {c c' : Char} {tail tail' : List Char} (hc : IsMark c) (hc' : IsMark c')
    (h : v.text ++ c :: tail = v'.text ++ c' :: tail') : v = v' ∧ c :: tail = c' :: tail' := by
  rcases v.isPlain_or_str with hv | ⟨s, rfl⟩ <;> rcases v'.isPlain_or_str with hv' | ⟨s', rfl⟩
  · obtain ⟨htext, htail⟩ := append_mark_inj (fun d hd => (hv.text.1 d hd).1)
      (fun d hd => (hv'.text.1 d hd).1) hc hc' h
    exact ⟨hv.eq_of_text hv' htext, htail⟩
  · exact absurd h (hv.text_append_ne s' _ _)
  · exact absurd h.symm (hv'.text_append_ne s _ _)
  · obtain ⟨rfl, htail⟩ := quoted_append_inj h
    exact ⟨rfl, htail⟩

end Scalar

/-! ### Dictionaries -/

/-- A key with its value. -/
def memberText (member : String × Scalar) : List Char :=
  quoted member.1 ++ ':' :: member.2.text

/-- The members that follow another one, and the closing brace. -/
def membersTail : List (String × Scalar) → List Char
  | [] => ['}']
  | member :: rest => ',' :: (memberText member ++ membersTail rest)

/-- The text of a dictionary. -/
def objectText : List (String × Scalar) → List Char
  | [] => ['{', '}']
  | member :: rest => '{' :: (memberText member ++ membersTail rest)

lemma exists_mark_membersTail (members : List (String × Scalar)) :
    ∃ c tail, IsMark c ∧ membersTail members = c :: tail := by
  cases members with
  | nil => exact ⟨'}', [], .inr rfl, rfl⟩
  | cons member rest => exact ⟨',', _, .inl rfl, rfl⟩

/-- A member ends where the next one, or the closing brace, follows it. -/
lemma memberText_append_inj {member member' : String × Scalar}
    {members members' : List (String × Scalar)} {rest rest' : List Char}
    (h : memberText member ++ membersTail members ++ rest
      = memberText member' ++ membersTail members' ++ rest') :
    member = member' ∧ membersTail members ++ rest = membersTail members' ++ rest' := by
  obtain ⟨key, v⟩ := member
  obtain ⟨key', v'⟩ := member'
  obtain ⟨c, tail, hc, htail⟩ := exists_mark_membersTail members
  obtain ⟨c', tail', hc', htail'⟩ := exists_mark_membersTail members'
  simp only [memberText, List.append_assoc, List.cons_append] at h
  obtain ⟨rfl, hvalue⟩ := quoted_append_inj h
  rw [htail, htail'] at hvalue ⊢
  obtain ⟨rfl, hmembers⟩ := Scalar.text_mark_inj hc hc' (List.cons.inj hvalue).2
  exact ⟨rfl, hmembers⟩

lemma membersTail_append_inj {members members' : List (String × Scalar)} {rest rest' : List Char}
    (h : membersTail members ++ rest = membersTail members' ++ rest') :
    members = members' ∧ rest = rest' := by
  induction members generalizing members' with
  | nil =>
    cases members' with
    | nil => exact ⟨rfl, (List.cons.inj h).2⟩
    | cons member' members' => exact absurd (List.cons.inj h).1 (by decide)
  | cons member members ih =>
    cases members' with
    | nil => exact absurd (List.cons.inj h).1 (by decide)
    | cons member' members' =>
      obtain ⟨rfl, htail⟩ := memberText_append_inj (List.cons.inj h).2
      obtain ⟨rfl, rfl⟩ := ih htail
      exact ⟨rfl, rfl⟩

/-- The text of a dictionary is self-delimiting. -/
theorem objectText_append_inj {members members' : List (String × Scalar)} {rest rest' : List Char}
    (h : objectText members ++ rest = objectText members' ++ rest') :
    members = members' ∧ rest = rest' := by
  cases members with
  | nil =>
    cases members' with
    | nil => exact ⟨rfl, List.append_cancel_left h⟩
    | cons member' members' =>
      have hfirst := (List.cons.inj (List.cons.inj h).2).1
      exact absurd hfirst (by decide)
  | cons member members =>
    cases members' with
    | nil =>
      have hfirst := (List.cons.inj (List.cons.inj h).2).1
      exact absurd hfirst (by decide)
    | cons member' members' =>
      obtain ⟨rfl, htail⟩ := memberText_append_inj (List.cons.inj h).2
      obtain ⟨rfl, rfl⟩ := membersTail_append_inj htail
      exact ⟨rfl, rfl⟩

/-! ### Bytes -/

/-- The characters of a text are ASCII. -/
def IsAscii (cs : List Char) : Prop := ∀ c ∈ cs, c.toNat < 128

lemma IsAscii.append {cs cs' : List Char} (h : IsAscii cs) (h' : IsAscii cs') :
    IsAscii (cs ++ cs') := by
  intro c hc
  rcases List.mem_append.mp hc with hc | hc
  · exact h c hc
  · exact h' c hc

lemma IsAscii.cons {c : Char} {cs : List Char} (hc : c.toNat < 128) (h : IsAscii cs) :
    IsAscii (c :: cs) := List.forall_mem_cons.mpr ⟨hc, h⟩

lemma toNat_digit_lt (n : Nat) : (Hex.digit n).toNat < 128 := by
  by_cases hn : n < 16
  · have hall : ∀ i : Fin 16, (Hex.digit i).toNat < 128 := by decide
    exact hall ⟨n, hn⟩
  · rw [Hex.digit, List.getD_eq_getElem?_getD, List.getElem?_eq_none (by simpa using hn)]
    decide

lemma isAscii_escapeUnit (unit : Nat) : IsAscii (escapeUnit unit) := by
  simp [IsAscii, escapeUnit, toNat_digit_lt]

lemma isAscii_escapeChar (c : Char) : IsAscii (escapeChar c) := by
  rcases escapeChar_cases c with ⟨letter, hletter, hc⟩ | ⟨-, hle, hc⟩ | ⟨-, hc⟩ | ⟨-, hc⟩
  · have hascii : ∀ escape ∈ shortEscapes, escape.2.toNat < 128 := by decide
    rw [hc]
    simpa [IsAscii] using hascii (c, letter) hletter
  · have htilde : c.toNat ≤ 126 := hle
    rw [hc]
    simp only [IsAscii, List.mem_singleton, forall_eq]
    omega
  · rw [hc]
    exact isAscii_escapeUnit _
  · rw [hc]
    exact (isAscii_escapeUnit _).append (isAscii_escapeUnit _)

lemma isAscii_quoted (s : String) : IsAscii (quoted s) := by
  apply IsAscii.cons (by decide)
  apply IsAscii.append
  · intro c hc
    obtain ⟨d, -, hd⟩ := List.mem_flatMap.mp hc
    exact isAscii_escapeChar d c hd
  · simp [IsAscii]

lemma isAscii_text (v : Scalar) : IsAscii v.text := by
  cases v with
  | null => simp [IsAscii, Scalar.text]
  | int n =>
    intro c hc
    rcases mem_intText hc with hdigit | rfl
    · have hnine := (Char.isDigit_iff_toNat.mp hdigit).2
      exact lt_of_le_of_lt hnine (by decide)
    · decide
  | str s => exact isAscii_quoted s

lemma isAscii_memberText (member : String × Scalar) : IsAscii (memberText member) :=
  (isAscii_quoted _).append ((isAscii_text _).cons (by decide))

lemma isAscii_membersTail (members : List (String × Scalar)) : IsAscii (membersTail members) := by
  induction members with
  | nil => simp [IsAscii, membersTail]
  | cons member members ih => exact ((isAscii_memberText member).append ih).cons (by decide)

lemma isAscii_objectText (members : List (String × Scalar)) : IsAscii (objectText members) := by
  cases members with
  | nil => simp [IsAscii, objectText]
  | cons member members =>
    exact ((isAscii_memberText member).append (isAscii_membersTail members)).cons (by decide)

/-- The character with the number of a byte. -/
def byteChar (b : UInt8) : Char := Char.ofNat b.toNat

lemma toNat_byteChar (b : UInt8) : (byteChar b).toNat = b.toNat := by
  have hb := b.toNat_lt
  rw [byteChar, Char.ofNat, dif_pos (.inl (by omega))]
  rfl

lemma byteChar_injective : Function.Injective byteChar := by
  intro b b' h
  rw [← UInt8.toNat_inj, ← toNat_byteChar, ← toNat_byteChar, h]

lemma utf8EncodeChar_of_lt {c : Char} (h : c.toNat < 128) :
    String.utf8EncodeChar c = [UInt8.ofNat c.toNat] := by
  have hle : c.val ≤ UInt32.ofNatLT 127 (by decide) := by
    rw [UInt32.le_iff_toNat_le]
    exact Nat.le_of_lt_succ h
  have hsize : c.utf8Size = 1 := if_pos hle
  rw [String.utf8EncodeChar_eq_singleton hsize]
  rfl

lemma byteChar_ofNat {c : Char} (h : c.toNat < 128) : byteChar (UInt8.ofNat c.toNat) = c := by
  rw [byteChar, UInt8.toNat_ofNat', Nat.mod_eq_of_lt (by omega), Char.ofNat_toNat]

/-- The bytes of an ASCII text are the numbers of its characters. -/
lemma map_byteChar_utf8 {cs : List Char} (h : IsAscii cs) :
    (utf8 (String.ofList cs)).map byteChar = cs := by
  have hbytes : utf8 (String.ofList cs) = cs.flatMap String.utf8EncodeChar := by
    simp [utf8, List.utf8Encode]
  rw [hbytes]
  clear hbytes
  induction cs with
  | nil => rfl
  | cons c cs ih =>
    obtain ⟨hc, hcs⟩ := List.forall_mem_cons.mp h
    rw [List.flatMap_cons, List.map_append, ih hcs, utf8EncodeChar_of_lt hc, List.map_singleton,
      byteChar_ofNat hc, List.singleton_append]

/-- The bytes of a dictionary. -/
def objectBytes (members : List (String × Scalar)) : Bytes :=
  utf8 (String.ofList (objectText members))

/-- The bytes of a dictionary are self-delimiting. -/
theorem objectBytes_append_inj {members members' : List (String × Scalar)} {rest rest' : Bytes}
    (h : objectBytes members ++ rest = objectBytes members' ++ rest') :
    members = members' ∧ rest = rest' := by
  have hchars := congrArg (List.map byteChar) h
  rw [List.map_append, List.map_append, objectBytes, objectBytes,
    map_byteChar_utf8 (isAscii_objectText members),
    map_byteChar_utf8 (isAscii_objectText members')] at hchars
  obtain ⟨rfl, hrest⟩ := objectText_append_inj hchars
  exact ⟨rfl, byteChar_injective.list_map hrest⟩

end JsonEncoding

end PocketCash
