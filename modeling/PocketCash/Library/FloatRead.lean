import Mathlib.Data.List.DropRight
import PocketCash.Library.FloatText

/-!
# Reading floating-point numbers

`float(text)` for the texts that `repr` writes.
-/

namespace PocketCash

open Digit

namespace Digit

/-- The digit with a character. -/
def ofChar? (c : Char) : Option Digit :=
  if '0' ≤ c ∧ c ≤ '9' then some (Fin.ofNat 10 (c.toNat - '0'.toNat)) else none

/-- The digits at the front of a text, and the rest. -/
def read : List Char → List Digit × List Char
  | [] => ([], [])
  | c :: rest =>
    match ofChar? c with
    | none => ([], c :: rest)
    | some d => (d :: (read rest).1, (read rest).2)

lemma ofChar?_char (d : Digit) : ofChar? d.char = some d := by
  revert d
  decide

/-- No digit stands at the front. -/
def Ends (rest : List Char) : Prop := ∀ c ∈ rest.head?, ofChar? c = none

lemma ends_nil : Ends [] := by
  simp [Ends]

lemma read_text (ds : List Digit) {rest : List Char} (hrest : Ends rest) :
    read (text ds ++ rest) = (ds, rest) := by
  induction ds with
  | nil =>
    cases rest with
    | nil => rfl
    | cons c rest => simp [read, hrest c rfl]
  | cons d ds ih => simp [read, ofChar?_char, ih]

/-- The number with the given digits. -/
def natOf (ds : List Digit) : ℕ := Nat.ofDigits 10 (ds.reverse.map Fin.val)

end Digit

namespace NumberText

/-- The exponent behind its `e`. -/
def readExponent (lead : Digit) (rest : List Digit) : List Char → Option NumberText
  | '-' :: cs =>
    match Digit.read cs with
    | (exponent, []) => some (.scientific lead rest true exponent)
    | _ => none
  | '+' :: cs =>
    match Digit.read cs with
    | (exponent, []) => some (.scientific lead rest false exponent)
    | _ => none
  | _ => none

def read (cs : List Char) : Option NumberText :=
  match Digit.read cs with
  | (whole, '.' :: cs) =>
    match whole, Digit.read cs with
    | whole, (frac, []) => some (.positional whole frac)
    | [lead], (rest, 'e' :: cs) => readExponent lead rest cs
    | _, _ => none
  | ([lead], 'e' :: cs) => readExponent lead [] cs
  | _ => none

lemma readExponent_text (lead : Digit) (rest : List Digit) (negative : Bool)
    (exponent : List Digit) :
    readExponent lead rest (sign negative :: Digit.text exponent)
      = some (.scientific lead rest negative exponent) := by
  have hread := read_text exponent ends_nil
  rw [List.append_nil] at hread
  cases negative <;> simp [readExponent, sign, hread]

/-- What is written is read back. -/
lemma read_text (t : NumberText) : read t.text = some t := by
  have hends : ∀ (c : Char) (rest : List Char), ofChar? c = none → Ends (c :: rest) := by
    intro c rest hc d hd
    obtain rfl := Option.some.inj hd
    exact hc
  match t with
  | positional int frac =>
    have hfrac := Digit.read_text frac ends_nil
    rw [List.append_nil] at hfrac
    have hint := Digit.read_text int (hends '.' (Digit.text frac) (by decide))
    simp [read, text, whole, mark, tail, hint, hfrac]
  | scientific lead [] negative exponent =>
    have hlead := Digit.read_text [lead]
      (hends 'e' (sign negative :: Digit.text exponent) (by decide))
    simp only [text, whole, mark, tail, if_true, List.nil_append, read, hlead, readExponent_text]
  | scientific lead (d :: ds) negative exponent =>
    have hrest := Digit.read_text (d :: ds)
      (hends 'e' (sign negative :: Digit.text exponent) (by decide))
    have hlead := Digit.read_text [lead] (hends '.' (Digit.text (d :: ds) ++
      'e' :: sign negative :: Digit.text exponent) (by decide))
    simp only [text, whole, mark, tail_scientific_cons, read, reduceCtorEq, if_false, hlead, hrest,
      readExponent_text]

end NumberText

namespace Decimal

/-- The digits without leading zeros. -/
def significant (ds : List Digit) : List Digit := ds.dropWhile (· = 0)

/-- The digits without leading and trailing zeros. -/
def shortest (ds : List Digit) : List Digit := (significant ds).rdropWhile (· = 0)

lemma head?_shortest_ne {ds : List Digit} (hne : shortest ds ≠ []) :
    (shortest ds).head? ≠ some 0 := by
  intro hzero
  obtain ⟨rest, hrest⟩ : shortest ds <+: significant ds := List.rdropWhile_prefix _ _
  have hhead := List.head?_dropWhile_not (· = 0) ds
  have hfirst : (significant ds).head? = some 0 := by
    rw [← hrest, List.head?_append_of_ne_nil _ hne, hzero]
  rw [significant] at hfirst
  simp [hfirst] at hhead

lemma getLast?_shortest_ne (ds : List Digit) : (shortest ds).getLast? ≠ some 0 := by
  intro hzero
  have hne : shortest ds ≠ [] := by
    intro hnil
    rw [hnil] at hzero
    cases hzero
  have hlast := List.rdropWhile_last_not (fun d : Digit => decide (d = 0)) (significant ds) hne
  rw [List.getLast?_eq_some_getLast hne, Option.some.injEq] at hzero
  exact hlast (by simpa [shortest] using hzero)

/-- The number `0.ds × 10 ^ point`, unless it is zero. -/
def ofDigits (ds : List Digit) (point : Int) : Option Decimal :=
  if h : shortest ds = [] then none
  else some ⟨shortest ds, point - (ds.length - (significant ds).length), h, head?_shortest_ne h,
    getLast?_shortest_ne ds⟩

/-- The number with the given text. -/
def ofNumber : NumberText → Option Decimal
  | .positional int frac => ofDigits (int ++ frac) int.length
  | .scientific lead rest negative exponent =>
    ofDigits (lead :: rest) (1 + if negative then -(natOf exponent : Int) else natOf exponent)

section

variable {x : Decimal}

lemma significant_append (m n : ℕ) :
    significant (List.replicate m 0 ++ x.digits ++ List.replicate n 0)
      = x.digits ++ List.replicate n 0 := by
  have hzeros : ∀ d ∈ List.replicate m (0 : Digit), decide (d = 0) = true := by
    intro d hd
    exact decide_eq_true (List.eq_of_mem_replicate hd)
  rw [significant, List.append_assoc, List.dropWhile_append_of_pos hzeros]
  have hhead := x.head_ne
  cases hdigits : x.digits with
  | nil => exact absurd hdigits x.nonempty
  | cons d ds =>
    rw [hdigits] at hhead
    have hd : d ≠ 0 := fun hzero => hhead (congrArg some hzero)
    simp [hd]

lemma shortest_append (m n : ℕ) :
    shortest (List.replicate m 0 ++ x.digits ++ List.replicate n 0) = x.digits := by
  rw [shortest, significant_append]
  induction n with
  | zero =>
    rw [List.replicate_zero, List.append_nil, List.rdropWhile_eq_self_iff]
    intro hne hzero
    have hlast := x.last_ne
    rw [List.getLast?_eq_some_getLast hne] at hlast
    exact hlast (congrArg some (of_decide_eq_true hzero))
  | succ n ih =>
    rw [List.replicate_succ', ← List.append_assoc, List.rdropWhile_concat_pos _ _ _ rfl]
    exact ih

/-- The digits of a number, filled up with zeros. -/
lemma ofDigits_append (m n : ℕ) {point : Int} (hpoint : point = x.point + m) :
    ofDigits (List.replicate m 0 ++ x.digits ++ List.replicate n 0) point = some x := by
  have hdigits := shortest_append (x := x) m n
  have hlength := congrArg List.length (significant_append (x := x) m n)
  rw [ofDigits, dif_neg (by rw [hdigits]; exact x.nonempty)]
  obtain ⟨digits, point', nonempty, head_ne, last_ne⟩ := x
  simp only [Option.some.injEq, Decimal.mk.injEq]
  refine ⟨hdigits, ?_⟩
  simp only [List.length_append, List.length_replicate] at hlength hpoint ⊢
  omega

lemma natOf_exponentDigits (n : ℕ) : natOf (exponentDigits n) = n := ofDigits_exponentDigits n

lemma ofNumber_printed (x : Decimal) : ofNumber x.printed = some x := by
  rw [printed]
  split_ifs with hscientific
  · have hdigits : x.digits.headD 0 :: x.digits.tail = x.digits := by
      cases hdigits : x.digits with
      | nil => exact absurd hdigits x.nonempty
      | cons => rfl
    have hread := ofDigits_append (x := x) 0 0 (show x.point = x.point + (0 : ℕ) by simp)
    have hpoint : 1 + (if x.point - 1 < 0 then -((x.point - 1).natAbs : Int)
        else ((x.point - 1).natAbs : Int)) = x.point := by
      split_ifs <;> omega
    simp only [ofNumber, natOf_exponentDigits, hdigits, decide_eq_true_eq, hpoint]
    simpa using hread
  · rw [ofNumber]
    rcases Int.lt_or_le 0 x.point with hpos | hneg
    · rw [length_intDigits hpos, intDigits, fracDigits, if_neg (by omega), if_neg (by omega)]
      have hpoint : (x.point.toNat : Int) = x.point + (0 : ℕ) := by omega
      split_ifs with hshort
      · have hread := ofDigits_append 0 (x.point.toNat - x.digits.length + 1) hpoint
        rw [List.take_of_length_le hshort, List.append_assoc, ← List.replicate_succ']
        simpa using hread
      · have hread := ofDigits_append 0 0 hpoint
        rw [Nat.sub_eq_zero_of_le (by omega)]
        simpa using hread
    · have hread := ofDigits_append (1 + (-x.point).toNat) 0
        (show (1 : Int) = x.point + ((1 + (-x.point).toNat : ℕ) : Int) by omega)
      rw [intDigits, fracDigits, if_pos hneg, if_pos hneg]
      rw [List.replicate_add] at hread
      simpa using hread

end

end Decimal

namespace PyFloat

/-- `float(text)` for a text that `repr` writes. -/
def read (text : String) : Option PyFloat :=
  let negative := text.toList.head? = some '-'
  let magnitude := if negative then text.toList.tail else text.toList
  (NumberText.read magnitude).map fun t =>
    match Decimal.ofNumber t with
    | none => .zero negative
    | some x => .finite negative x

/-- The text of a positive number has no sign. -/
lemma head?_text_ne (x : Decimal) : x.text.head? ≠ some '-' := by
  have hminus : ∀ d : Digit, d.char ≠ '-' := by decide
  have hmark : x.printed.mark ≠ '-' := by
    cases x.printed with
    | positional => simp [NumberText.mark]
    | scientific lead rest => cases rest <;> simp [NumberText.mark]
  rw [Decimal.text, NumberText.text]
  cases x.printed.whole with
  | nil => simpa using hmark
  | cons d ds => simpa using hminus d

/-- What is written is read back. -/
theorem read_text (x : PyFloat) : read x.text = some x := by
  cases x with
  | zero negative => cases negative <;> decide
  | finite negative magnitude =>
    have hread : NumberText.read magnitude.text = some magnitude.printed :=
      NumberText.read_text _
    cases negative with
    | true => simp [read, text, hread, Decimal.ofNumber_printed]
    | false => simp [read, text, head?_text_ne, hread, Decimal.ofNumber_printed]

end PyFloat

end PocketCash
