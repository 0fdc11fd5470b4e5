import PocketCash.Library.FloatText
import PocketCash.Library.JsonEncoding
import PocketCash.Library.Python

/-!
# The text of JSON documents

`json.dumps(j, separators=(",", ":"))` for documents of any depth, and a reader. What is written is
read back, if the keys of its dictionaries are distinct and its floats have the text of a float.
-/

namespace PocketCash

namespace JsonEncoding

/-! ### Writing -/

mutual

/-- The text of a document. -/
def documentText : Json → List Char
  | .null => ['n', 'u', 'l', 'l']
  | .bool true => ['t', 'r', 'u', 'e']
  | .bool false => ['f', 'a', 'l', 's', 'e']
  | .int n => intText n
  | .float text => text.toList
  | .str s => quoted s
  | .list [] => ['[', ']']
  | .list (item :: rest) => '[' :: (documentText item ++ itemsTail rest)
  | .dict [] => ['{', '}']
  | .dict ((key, value) :: rest) =>
    '{' :: (quoted key ++ ':' :: (documentText value ++ fieldsTail rest))

/-- The items that follow another one, and the closing bracket. -/
def itemsTail : List Json → List Char
  | [] => [']']
  | item :: rest => ',' :: (documentText item ++ itemsTail rest)

/-- The fields that follow another one, and the closing brace. -/
def fieldsTail : List (String × Json) → List Char
  | [] => ['}']
  | (key, value) :: rest =>
    ',' :: (quoted key ++ ':' :: (documentText value ++ fieldsTail rest))

end

/-! ### Reading -/

/-- The characters up to the closing quote of a string literal. -/
def readLiteral : ℕ → List Char → Option (List Char × List Char)
  | 0, _ => none
  | _ + 1, '"' :: rest => some ([], rest)
  | fuel + 1, cs => do
    let (c, rest) ← readChar cs
    let (literal, rest) ← readLiteral fuel rest
    return (c :: literal, rest)

/-- A string literal without its opening quote. -/
def readString (cs : List Char) : Option (String × List Char) :=
  (readLiteral (cs.length + 1) cs).map fun (literal, rest) => (String.ofList literal, rest)

/-- The characters of numbers. -/
def isNumberChar (c : Char) : Bool := c.isDigit || c = '-' || c = '+' || c = '.' || c = 'e'

/-- The text of a number that is not an integer. -/
def isFloatText (cs : List Char) : Bool :=
  cs.all isNumberChar && (cs.contains '.' || cs.contains 'e')

def readInt : List Char → Option Int
  | '-' :: digits => if digits ≠ [] ∧ digits.all Char.isDigit then
      some (-(Nat.ofDigitChars 10 digits 0 : Int)) else none
  | digits => if digits ≠ [] ∧ digits.all Char.isDigit then
      some (Nat.ofDigitChars 10 digits 0) else none

def readNumber (cs : List Char) : Option (Json × List Char) :=
  let text := cs.takeWhile isNumberChar
  let rest := cs.dropWhile isNumberChar
  if isFloatText text then some (.float (String.ofList text), rest)
  else (readInt text).map fun n => (.int n, rest)

mutual

def readDocument : ℕ → List Char → Option (Json × List Char)
  | 0, _ => none
  | fuel + 1, cs =>
    match cs with
    | 'n' :: 'u' :: 'l' :: 'l' :: rest => some (.null, rest)
    | 't' :: 'r' :: 'u' :: 'e' :: rest => some (.bool true, rest)
    | 'f' :: 'a' :: 'l' :: 's' :: 'e' :: rest => some (.bool false, rest)
    | '"' :: rest => (readString rest).map fun (s, rest) => (.str s, rest)
    | '[' :: ']' :: rest => some (.list [], rest)
    | '[' :: rest => (readItems fuel rest).map fun (items, rest) => (.list items, rest)
    | '{' :: '}' :: rest => some (.dict [], rest)
    | '{' :: rest => (readFields fuel rest).map fun (fields, rest) => (.dict fields, rest)
    | _ => readNumber cs

/-- Items up to the closing bracket. -/
def readItems : ℕ → List Char → Option (List Json × List Char)
  | 0, _ => none
  | fuel + 1, cs => do
    match ← readDocument fuel cs with
    | (item, ',' :: rest) =>
      let (items, rest) ← readItems fuel rest
      return (item :: items, rest)
    | (item, ']' :: rest) => return ([item], rest)
    | _ => none

/-- Fields up to the closing brace. -/
def readFields : ℕ → List Char → Option (List (String × Json) × List Char)
  | 0, _ => none
  | fuel + 1, '"' :: cs => do
    match ← readString cs with
    | (key, ':' :: rest) =>
      match ← readDocument fuel rest with
      | (value, ',' :: rest) =>
        let (fields, rest) ← readFields fuel rest
        return ((key, value) :: fields, rest)
      | (value, '}' :: rest) => return ([(key, value)], rest)
      | _ => none
    | _ => none
  | _ + 1, _ => none

end

/-! ### Reading what is written: strings and numbers -/

lemma readLiteral_literalTail {cs : List Char} {fuel : ℕ} (hfuel : cs.length < fuel)
    (rest : List Char) : readLiteral fuel (literalTail cs ++ rest) = some (cs, rest) := by
  induction cs generalizing fuel with
  | nil =>
    obtain ⟨fuel, rfl⟩ := Nat.exists_eq_add_of_lt hfuel
    rfl
  | cons c cs ih =>
    rw [List.length_cons] at hfuel
    obtain ⟨fuel, rfl⟩ : ∃ n, fuel = n + 1 := ⟨fuel - 1, by omega⟩
    have hread := readChar_literalTail_cons c cs rest
    rw [readLiteral]
    · rw [hread]
      simp only [Option.bind_eq_bind, Option.bind_some, ih (show cs.length < fuel by omega)]
      rfl
    · -- a character never starts with the closing quote
      intro tail hquote
      rw [hquote] at hread
      cases hread

lemma length_le_literalTail (cs : List Char) : cs.length < (literalTail cs).length := by
  have hpos : ∀ c, 1 ≤ (escapeChar c).length := by
    intro c
    rcases escapeChar_cases c with ⟨letter, -, hc⟩ | ⟨-, -, hc⟩ | ⟨-, hc⟩ | ⟨-, hc⟩
    all_goals
      rw [hc]
      simp [escapeUnit]
  rw [literalTail, List.length_append, List.length_singleton]
  induction cs with
  | nil => simp
  | cons c cs ih =>
    have hc := hpos c
    rw [List.flatMap_cons, List.length_append, List.length_cons]
    omega

lemma readString_literalTail (s : String) (rest : List Char) :
    readString (literalTail s.toList ++ rest) = some (s, rest) := by
  have hlength := length_le_literalTail s.toList
  rw [readString, readLiteral_literalTail, Option.map_some]
  · exact congrArg (fun t => some (t, rest)) String.ofList_toList
  · rw [List.length_append]
    omega

/-- The text does not go on with a number. -/
def Ends (rest : List Char) : Prop := ∀ c ∈ rest.head?, isNumberChar c = false

lemma Ends.cons {c : Char} (hc : isNumberChar c = false) (rest : List Char) : Ends (c :: rest) := by
  intro d hd
  obtain rfl := Option.some.inj hd
  exact hc

section

variable {text rest : List Char}

lemma takeWhile_number (htext : ∀ c ∈ text, isNumberChar c) (hrest : Ends rest) :
    (text ++ rest).takeWhile isNumberChar = text ∧
      (text ++ rest).dropWhile isNumberChar = rest := by
  rw [List.takeWhile_append_of_pos htext, List.dropWhile_append_of_pos htext]
  cases rest with
  | nil => simp
  | cons c rest => simp [hrest c rfl]

end

lemma isNumberChar_of_mem_intText {n : Int} {c : Char} (h : c ∈ intText n) : isNumberChar c := by
  rcases mem_intText h with hdigit | rfl
  · simp [isNumberChar, hdigit]
  · rfl

lemma isFloatText_intText (n : Int) : isFloatText (intText n) = false := by
  have hnot : ∀ c, c.isDigit = false → c ≠ '-' → c ∉ intText n := by
    intro c hdigit hminus h
    rcases mem_intText h with h | h
    · rw [hdigit] at h
      cases h
    · exact hminus h
  simp [isFloatText, hnot '.' (by decide) (by decide), hnot 'e' (by decide) (by decide)]

lemma readInt_intText (n : Int) : readInt (intText n) = some n := by
  have hdigits : ∀ m : ℕ, Nat.toDigits 10 m ≠ [] ∧ (Nat.toDigits 10 m).all Char.isDigit :=
    fun m => ⟨Nat.toDigits_ne_nil, List.all_eq_true.mpr fun c hc => isDigit_of_mem_toDigits hc⟩
  cases n with
  | ofNat m =>
    rw [intText, readInt]
    · rw [if_pos (hdigits m), Nat.ofDigitChars_ten_toDigits]
      rfl
    · intro digits hminus
      have hmem : '-' ∈ Nat.toDigits 10 m := hminus ▸ List.mem_cons_self
      exact absurd (isDigit_of_mem_toDigits hmem) (by decide)
  | negSucc m =>
    rw [intText, readInt, if_pos (hdigits (m + 1)), Nat.ofDigitChars_ten_toDigits]
    rfl

lemma readNumber_intText (n : Int) {rest : List Char} (hrest : Ends rest) :
    readNumber (intText n ++ rest) = some (.int n, rest) := by
  obtain ⟨htake, hdrop⟩ := takeWhile_number (fun c => isNumberChar_of_mem_intText (n := n)) hrest
  simp only [readNumber, htake, hdrop, isFloatText_intText, readInt_intText]
  rfl

lemma readNumber_float {text : String} (htext : isFloatText text.toList) {rest : List Char}
    (hrest : Ends rest) : readNumber (text.toList ++ rest) = some (.float text, rest) := by
  have hchars : ∀ c ∈ text.toList, isNumberChar c := by
    rw [isFloatText, Bool.and_eq_true, List.all_eq_true] at htext
    exact htext.1
  obtain ⟨htake, hdrop⟩ := takeWhile_number hchars hrest
  simp only [readNumber, htake, hdrop, htext, if_true, String.ofList_toList]

/-- A text that starts with a character of a number is read as a number. -/
lemma readDocument_number {c : Char} (hc : isNumberChar c) (fuel : ℕ) (rest : List Char) :
    readDocument (fuel + 1) (c :: rest) = readNumber (c :: rest) := by
  rw [readDocument]
  all_goals
    intro _ h
    rw [(List.cons.inj h).1] at hc
    exact absurd hc (by decide)

/-! ### Reading what is written: documents -/

/-- A document whose floats are read as floats, with distinct keys in each dictionary. -/
inductive WellFormed : Json → Prop
  | null : WellFormed .null
  | bool (b : Bool) : WellFormed (.bool b)
  | int (n : Int) : WellFormed (.int n)
  | float {text : String} : isFloatText text.toList → WellFormed (.float text)
  | str (s : String) : WellFormed (.str s)
  | list {items : List Json} : (∀ item ∈ items, WellFormed item) → WellFormed (.list items)
  | dict {fields : List (String × Json)} : (∀ field ∈ fields, WellFormed field.2) →
      (fields.map Prod.fst).Nodup → WellFormed (.dict fields)

/-- The document is read in front of whatever does not continue a number. -/
def ReadsBack (j : Json) : Prop :=
  ∀ fuel rest, (documentText j).length ≤ fuel → Ends rest →
    readDocument fuel (documentText j ++ rest) = some (j, rest)

/-- A text of number characters starts with one. -/
lemma exists_cons_number {text : List Char} (htext : ∀ c ∈ text, isNumberChar c)
    (hne : text ≠ []) : ∃ c rest, text = c :: rest ∧ isNumberChar c := by
  obtain ⟨c, rest, rfl⟩ := List.exists_cons_of_ne_nil hne
  exact ⟨c, rest, rfl, htext c List.mem_cons_self⟩

lemma exists_cons_intText (n : Int) : ∃ c rest, intText n = c :: rest ∧ isNumberChar c :=
  exists_cons_number (fun _ => isNumberChar_of_mem_intText) (intText_ne_nil n)

lemma exists_cons_float {text : List Char} (htext : isFloatText text) :
    ∃ c rest, text = c :: rest ∧ isNumberChar c := by
  rw [isFloatText, Bool.and_eq_true, List.all_eq_true] at htext
  apply exists_cons_number htext.1
  rintro rfl
  exact absurd htext.2 (by decide)

/-- No document starts with a closing bracket. -/
lemma exists_cons_documentText {j : Json} (h : WellFormed j) :
    ∃ c rest, documentText j = c :: rest ∧ c ≠ ']' := by
  have hnumber : ∀ {c}, isNumberChar c → c ≠ ']' := by
    rintro c hc rfl
    exact absurd hc (by decide)
  cases h with
  | null => exact ⟨_, _, by rw [documentText], by decide⟩
  | bool b => cases b <;> exact ⟨_, _, by rw [documentText], by decide⟩
  | int n =>
    obtain ⟨c, rest, htext, hc⟩ := exists_cons_intText n
    exact ⟨c, rest, by rw [documentText, htext], hnumber hc⟩
  | float htext =>
    obtain ⟨c, rest, htext, hc⟩ := exists_cons_float htext
    exact ⟨c, rest, by rw [documentText, htext], hnumber hc⟩
  | str s => exact ⟨_, _, by rw [documentText, quoted], by decide⟩
  | @list items _ => cases items <;> exact ⟨_, _, by rw [documentText], by decide⟩
  | @dict fields _ _ => cases fields <;> exact ⟨_, _, by rw [documentText], by decide⟩

lemma exists_fuel {c : Char} {text : List Char} {fuel : ℕ} (h : (c :: text).length ≤ fuel) :
    ∃ n, fuel = n + 1 ∧ text.length ≤ n := by
  rw [List.length_cons] at h
  exact ⟨fuel - 1, by omega, by omega⟩

lemma readItems_itemsTail {item : Json} {items : List Json} (hitem : ReadsBack item)
    (hitems : ∀ item ∈ items, ReadsBack item) {fuel : ℕ}
    (hfuel : (documentText item ++ itemsTail items).length ≤ fuel) (rest : List Char) :
    readItems fuel (documentText item ++ (itemsTail items ++ rest)) = some (item :: items, rest) := by
  induction items generalizing item fuel with
  | nil =>
    rw [itemsTail, List.length_append, List.length_singleton] at hfuel
    obtain ⟨fuel, rfl⟩ : ∃ n, fuel = n + 1 := ⟨fuel - 1, by omega⟩
    have hread := hitem fuel (']' :: rest) (by omega) (.cons (by decide) rest)
    rw [itemsTail, readItems, List.singleton_append, hread]
    rfl
  | cons next items ih =>
    obtain ⟨hnext, hitems⟩ := List.forall_mem_cons.mp hitems
    rw [itemsTail, List.length_append, List.length_cons] at hfuel
    obtain ⟨fuel, rfl⟩ : ∃ n, fuel = n + 1 := ⟨fuel - 1, by omega⟩
    have hread := hitem fuel (',' :: (documentText next ++ (itemsTail items ++ rest))) (by omega)
      (.cons (by decide) _)
    have hrest := ih hnext hitems (show _ ≤ fuel by omega)
    rw [itemsTail, readItems, List.cons_append, List.append_assoc, hread]
    simp only [Option.bind_eq_bind, Option.bind_some, hrest]
    rfl

lemma readFields_fieldsTail {key : String} {value : Json} {fields : List (String × Json)}
    (hvalue : ReadsBack value) (hfields : ∀ field ∈ fields, ReadsBack field.2) {fuel : ℕ}
    (hfuel : (quoted key ++ ':' :: (documentText value ++ fieldsTail fields)).length ≤ fuel)
    (rest : List Char) :
    readFields fuel (quoted key ++ ':' :: (documentText value ++ (fieldsTail fields ++ rest)))
      = some ((key, value) :: fields, rest) := by
  induction fields generalizing key value fuel with
  | nil =>
    rw [fieldsTail, List.length_append, List.length_cons, List.length_append,
      List.length_singleton] at hfuel
    obtain ⟨fuel, rfl⟩ : ∃ n, fuel = n + 1 := ⟨fuel - 1, by omega⟩
    have hread := hvalue fuel ('}' :: rest) (by omega) (.cons (by decide) rest)
    rw [fieldsTail, quoted, List.cons_append, readFields, readString_literalTail,
      List.singleton_append]
    simp only [Option.bind_eq_bind, Option.bind_some, hread]
    rfl
  | cons field fields ih =>
    obtain ⟨nextKey, next⟩ := field
    obtain ⟨hnext, hfields⟩ := List.forall_mem_cons.mp hfields
    rw [fieldsTail, List.length_append, List.length_cons, List.length_append,
      List.length_cons] at hfuel
    obtain ⟨fuel, rfl⟩ : ∃ n, fuel = n + 1 := ⟨fuel - 1, by omega⟩
    have hread := hvalue fuel (',' :: (quoted nextKey ++
      ':' :: (documentText next ++ (fieldsTail fields ++ rest)))) (by omega) (.cons (by decide) _)
    have hlength : (quoted nextKey ++ ':' :: (documentText next ++ fieldsTail fields)).length
        ≤ fuel := by omega
    have hrest := ih hnext hfields hlength
    rw [fieldsTail, quoted, List.cons_append, readFields, readString_literalTail]
    simp only [Option.bind_eq_bind, Option.bind_some, List.cons_append, List.append_assoc, hread,
      hrest]
    rfl

/-- A document whose text starts with a character of a number. -/
lemma readsBack_of_number {j : Json} (hstart : ∃ c rest, documentText j = c :: rest ∧ isNumberChar c)
    (hnumber : ∀ rest, Ends rest → readNumber (documentText j ++ rest) = some (j, rest)) :
    ReadsBack j := by
  intro fuel rest hfuel hrest
  obtain ⟨c, text, htext, hc⟩ := hstart
  have hread := hnumber rest hrest
  rw [htext] at hfuel hread ⊢
  obtain ⟨fuel, rfl, -⟩ := exists_fuel hfuel
  rw [List.cons_append, readDocument_number hc]
  exact hread

theorem readsBack_of_wellFormed {j : Json} (h : WellFormed j) : ReadsBack j := by
  induction h with
  | null =>
    intro fuel rest hfuel _
    rw [documentText] at hfuel ⊢
    obtain ⟨fuel, rfl, -⟩ := exists_fuel hfuel
    rfl
  | bool b =>
    intro fuel rest hfuel _
    cases b <;> rw [documentText] at hfuel ⊢ <;>
      obtain ⟨fuel, rfl, -⟩ := exists_fuel hfuel <;> rfl
  | int n =>
    apply readsBack_of_number
    · rw [documentText]
      exact exists_cons_intText n
    · rw [documentText]
      exact fun rest => readNumber_intText n
  | float htext =>
    apply readsBack_of_number
    · rw [documentText]
      exact exists_cons_float htext
    · rw [documentText]
      exact fun rest => readNumber_float htext
  | str s =>
    intro fuel rest hfuel _
    rw [documentText] at hfuel
    obtain ⟨fuel, rfl, -⟩ := exists_fuel hfuel
    rw [documentText, quoted, List.cons_append, readDocument, readString_literalTail]
    rfl
  | @list items hitems ih =>
    intro fuel rest hfuel _
    cases items with
    | nil =>
      rw [documentText] at hfuel ⊢
      obtain ⟨fuel, rfl, -⟩ := exists_fuel hfuel
      rfl
    | cons item items =>
      obtain ⟨hitem, hrest⟩ := List.forall_mem_cons.mp ih
      rw [documentText] at hfuel
      obtain ⟨fuel, rfl, hlength⟩ := exists_fuel hfuel
      rw [documentText, List.cons_append, List.append_assoc, readDocument,
        readItems_itemsTail hitem hrest hlength]
      · rfl
      · obtain ⟨c, text, htext, hc⟩ := exists_cons_documentText (hitems item List.mem_cons_self)
        intro tail hbracket
        rw [htext] at hbracket
        exact hc (List.cons.inj hbracket).1
  | @dict fields hfields hnodup ih =>
    intro fuel rest hfuel _
    cases fields with
    | nil =>
      rw [documentText] at hfuel ⊢
      obtain ⟨fuel, rfl, -⟩ := exists_fuel hfuel
      rfl
    | cons field fields =>
      obtain ⟨key, value⟩ := field
      obtain ⟨hvalue, hrest⟩ := List.forall_mem_cons.mp ih
      rw [documentText] at hfuel
      obtain ⟨fuel, rfl, hlength⟩ := exists_fuel hfuel
      have hread := readFields_fieldsTail hvalue hrest hlength rest
      rw [documentText, List.cons_append, List.append_assoc, List.cons_append, List.append_assoc,
        readDocument, hread]
      · rfl
      · intro tail hbrace
        exact absurd (List.cons.inj hbrace).1 (by decide)

/-! ### Floats -/

lemma isNumberChar_of_mem_digits {ds : List Digit} {c : Char} (h : c ∈ Digit.text ds) :
    isNumberChar c := by
  have hall : ∀ d : Digit, isNumberChar d.char := by decide
  obtain ⟨d, -, rfl⟩ := List.mem_map.mp h
  exact hall d

lemma isFloatText_numberText (t : NumberText) : isFloatText t.text := by
  have hsign : ∀ negative, isNumberChar (NumberText.sign negative) := by decide
  have hmark : t.mark = '.' ∨ t.mark = 'e' := by
    cases t with
    | positional => exact .inl rfl
    | scientific lead rest => cases rest <;> simp [NumberText.mark]
  have htail : ∀ c ∈ t.tail, isNumberChar c := by
    intro c hc
    cases t with
    | positional int frac => exact isNumberChar_of_mem_digits hc
    | scientific lead rest negative exponent =>
      rcases List.mem_append.mp hc with hrest | hexponent
      · split_ifs at hrest
        · cases hrest
        · rcases List.mem_append.mp hrest with hdigit | he
          · exact isNumberChar_of_mem_digits hdigit
          · rw [List.mem_singleton.mp he]
            rfl
      · rcases List.mem_cons.mp hexponent with rfl | hdigit
        · exact hsign negative
        · exact isNumberChar_of_mem_digits hdigit
  have hmem : t.mark ∈ t.text := List.mem_append_right _ List.mem_cons_self
  rw [isFloatText, Bool.and_eq_true, List.all_eq_true]
  constructor
  · intro c hc
    rcases List.mem_append.mp hc with hdigit | hrest
    · exact isNumberChar_of_mem_digits hdigit
    · rcases List.mem_cons.mp hrest with rfl | hc
      · rcases hmark with heq | heq <;> rw [heq] <;> rfl
      · exact htail c hc
  · rw [Bool.or_eq_true, List.contains_iff_mem, List.contains_iff_mem]
    rcases hmark with heq | heq
    · exact .inl (heq ▸ hmem)
    · exact .inr (heq ▸ hmem)

/-- A minus sign does not matter. -/
lemma isFloatText_cons_minus {cs : List Char} (h : isFloatText cs) : isFloatText ('-' :: cs) := by
  rw [isFloatText, Bool.and_eq_true] at h ⊢
  exact ⟨by simpa [isNumberChar] using h.1, by simpa using h.2⟩

/-- `repr` writes floats as the reader expects them. -/
lemma wellFormed_float (x : PyFloat) : WellFormed (.float x.text) := by
  apply WellFormed.float
  cases x with
  | zero negative => cases negative <;> decide
  | finite negative magnitude =>
    have htext : isFloatText magnitude.text := isFloatText_numberText magnitude.printed
    cases negative with
    | true => simpa [PyFloat.text] using isFloatText_cons_minus htext
    | false => simpa [PyFloat.text] using htext

/-! ### Bytes -/

/-- `bs.decode("utf-8")`. -/
def decodeUtf8 (bs : Bytes) : Except PyError String :=
  match String.fromUTF8? ⟨bs.toArray⟩ with
  | some text => .ok text
  | none => .error (.valueError "UnicodeDecodeError")

lemma decodeUtf8_utf8 (text : String) : decodeUtf8 (utf8 text) = .ok text := by
  have hbytes : (⟨(utf8 text).toArray⟩ : ByteArray) = text.toByteArray := rfl
  have hread : String.fromUTF8? text.toByteArray = some text := dif_pos text.isValidUTF8
  rw [decodeUtf8, hbytes, hread]

/-- `json.dumps(j, separators=(",", ":")).encode("utf-8")`. -/
def documentBytes (j : Json) : Bytes := utf8 (String.ofList (documentText j))

/-- `json.loads(bs.decode("utf-8"))` for bytes that `documentBytes` returns. -/
def loadDocument (bs : Bytes) : Except PyError Json := do
  let text ← decodeUtf8 bs
  match readDocument text.toList.length text.toList with
  | some (j, []) => return j
  | _ => throw (.valueError "JSONDecodeError")

/-- What is written is read back. -/
theorem loadDocument_documentBytes {j : Json} (h : WellFormed j) :
    loadDocument (documentBytes j) = .ok j := by
  have hends : Ends [] := by
    intro c hc
    cases hc
  have hread := readsBack_of_wellFormed h (documentText j).length [] le_rfl hends
  rw [List.append_nil] at hread
  rw [loadDocument, documentBytes, decodeUtf8_utf8, ok_bind, String.toList_ofList, hread]
  rfl

lemma documentBytes_inj {j j' : Json} (hj : WellFormed j) (hj' : WellFormed j')
    (h : documentBytes j = documentBytes j') : j = j' := by
  have hload := congrArg loadDocument h
  rw [loadDocument_documentBytes hj, loadDocument_documentBytes hj'] at hload
  exact Except.ok.inj hload

end JsonEncoding

end PocketCash
