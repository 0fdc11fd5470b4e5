import Mathlib.Data.List.Basic
import Mathlib.Data.Nat.Digits.Lemmas
import Mathlib.Data.Rat.Defs
import Mathlib.Tactic.Common

/-!
# Texts of floating-point numbers

`repr` writes a positive float with the shortest digits that are read back as it: as
`digits.digits`, or as `d.digitse±digits` if the decimal point is more than 16 digits to the right
or more than 3 to the left of the first digit. A `NumberText` is such a text by its parts, and a
`Decimal` the number by its shortest digits.

Texts without a delimiter between them can be split in several ways. `append_text_eq_iff` says in
which.
-/

namespace PocketCash

abbrev Digit := Fin 10

namespace Digit

def char (d : Digit) : Char := Nat.digitChar d

lemma char_injective : Function.Injective char := by
  rw [Function.Injective]
  decide

/-- The text of a list of digits. -/
def text (ds : List Digit) : List Char := ds.map char

@[simp] lemma text_nil : text [] = [] := rfl

@[simp] lemma text_cons (d : Digit) (ds : List Digit) : text (d :: ds) = d.char :: text ds := rfl

@[simp] lemma text_append (ds es : List Digit) : text (ds ++ es) = text ds ++ text es :=
  List.map_append

lemma text_injective : Function.Injective text := char_injective.list_map

instance neZero_ten : NeZero 10 := ⟨by decide⟩

/-- The digits of a number. -/
def natDigits (n : ℕ) : List Digit := (Nat.digits 10 n).reverse.map (Fin.ofNat 10)

lemma map_val_natDigits (n : ℕ) : (natDigits n).reverse.map Fin.val = Nat.digits 10 n := by
  rw [natDigits, ← List.map_reverse, List.reverse_reverse, List.map_map]
  calc (Nat.digits 10 n).map (Fin.val ∘ Fin.ofNat 10) = (Nat.digits 10 n).map id :=
        List.map_congr_left fun d hd => Nat.mod_eq_of_lt (Nat.digits_lt_base (by decide) hd)
    _ = Nat.digits 10 n := List.map_id _

lemma length_natDigits (n : ℕ) : (natDigits n).length = (Nat.digits 10 n).length := by
  rw [natDigits, List.length_map, List.length_reverse]

lemma natDigits_ne_nil {n : ℕ} (hn : n ≠ 0) : natDigits n ≠ [] := by
  simpa [natDigits, Nat.digits_eq_nil_iff_eq_zero] using hn

lemma head?_natDigits_ne {n : ℕ} (hn : n ≠ 0) : (natDigits n).head? ≠ some 0 := by
  have hdigits : Nat.digits 10 n ≠ [] := Nat.digits_ne_nil_iff_ne_zero.mpr hn
  have hlt := Nat.digits_lt_base (by decide : 1 < 10) (List.getLast_mem hdigits)
  have hne := Nat.getLast_digit_ne_zero 10 hn
  rw [natDigits, List.head?_map, List.head?_reverse, List.getLast?_eq_some_getLast hdigits,
    Option.map_some, ne_eq, Option.some.injEq, Fin.ext_iff]
  exact fun hzero => hne ((Nat.mod_eq_of_lt hlt).symm.trans hzero)

lemma getLast?_natDigits_ne {n : ℕ} (hn : n % 10 ≠ 0) : (natDigits n).getLast? ≠ some 0 := by
  have hpos : 0 < n := Nat.pos_of_ne_zero (by rintro rfl; exact hn rfl)
  rw [natDigits, List.getLast?_map, List.getLast?_reverse, Nat.digits_def' (by decide) hpos,
    List.head?_cons, Option.map_some, ne_eq, Option.some.injEq, Fin.ext_iff]
  exact fun hzero => hn ((Nat.mod_mod n 10).symm.trans hzero)

/-- The characters of number texts that are no digits. -/
def IsMark (c : Char) : Prop := ∀ d : Digit, d.char ≠ c
  deriving Decidable

/-- Up to its first mark, a text is read as digits in one way. -/
lemma text_append_eq_mark {ds es : List Digit} {c : Char} {rest tail : List Char} (hc : IsMark c)
    (h : text ds ++ rest = text es ++ c :: tail) :
    ∃ fs, es = ds ++ fs ∧ rest = text fs ++ c :: tail := by
  induction ds generalizing es with
  | nil => exact ⟨es, rfl, h⟩
  | cons d ds ih =>
    cases es with
    | nil =>
      rw [text_cons, text_nil, List.cons_append, List.nil_append, List.cons.injEq] at h
      exact absurd h.1 (hc d)
    | cons e es =>
      rw [text_cons, text_cons, List.cons_append, List.cons_append, List.cons.injEq] at h
      obtain ⟨fs, rfl, hrest⟩ := ih h.2
      exact ⟨fs, by rw [char_injective h.1, List.cons_append], hrest⟩

lemma text_mark_inj {ds es : List Digit} {c c' : Char} {tail tail' : List Char} (hc : IsMark c)
    (hc' : IsMark c') : text ds ++ c :: tail = text es ++ c' :: tail' ↔
      ds = es ∧ c = c' ∧ tail = tail' := by
  constructor
  · intro h
    obtain ⟨fs, rfl, hrest⟩ := text_append_eq_mark hc' h
    cases fs with
    | nil => exact ⟨by simp, List.cons.inj hrest⟩
    | cons f fs => exact absurd (List.cons.inj hrest).1.symm (hc f)
  · rintro ⟨rfl, rfl, rfl⟩
    rfl

/-- No mark stands in a list of digits. -/
lemma text_ne_mark {ds es : List Digit} {c : Char} {tail : List Char} (hc : IsMark c) :
    text ds ≠ text es ++ c :: tail := by
  intro h
  obtain ⟨fs, -, hrest⟩ := text_append_eq_mark hc ((List.append_nil _).trans h)
  cases fs <;> cases hrest

/-- A part of a list of digits is one. -/
lemma text_eq_text_append {ds es : List Digit} {rest : List Char}
    (h : text es = text ds ++ rest) : ∃ fs, es = ds ++ fs ∧ rest = text fs := by
  obtain ⟨ds', fs, rfl, hds, hfs⟩ := List.map_eq_append_iff.mp h
  exact ⟨fs, by rw [text_injective hds], hfs.symm⟩

end Digit

open Digit

/-! ### The grammar -/

/-- A number text by its parts: `int.frac`, or `lead.restE` with the exponent `E`, where `.rest` is
left out if there are no further digits. -/
inductive NumberText
  | positional (int frac : List Digit)
  | scientific (lead : Digit) (rest : List Digit) (negative : Bool) (exponent : List Digit)
  deriving DecidableEq, Repr

namespace NumberText

def sign (negative : Bool) : Char := if negative then '-' else '+'

/-- The digits before the first mark. -/
def whole : NumberText → List Digit
  | positional int _ => int
  | scientific lead .. => [lead]

/-- The first mark. -/
def mark : NumberText → Char
  | positional .. => '.'
  | scientific _ rest .. => if rest = [] then 'e' else '.'

/-- What follows the first mark. -/
def tail : NumberText → List Char
  | positional _ frac => Digit.text frac
  | scientific _ rest negative exponent =>
    (if rest = [] then [] else Digit.text rest ++ ['e']) ++ sign negative :: Digit.text exponent

def text (t : NumberText) : List Char := Digit.text t.whole ++ t.mark :: t.tail

/-- `t` goes on with the digits `ds` at its end. -/
def snoc : NumberText → List Digit → NumberText
  | positional int frac, ds => positional int (frac ++ ds)
  | scientific lead rest negative exponent, ds => scientific lead rest negative (exponent ++ ds)

/-- The digits `ds` stand before the positional text. -/
def cons? (ds : List Digit) : NumberText → Option NumberText
  | positional int frac => some (positional (ds ++ int) frac)
  | scientific .. => none

lemma sign_inj {b b' : Bool} : sign b = sign b' ↔ b = b' := by cases b <;> cases b' <;> decide

lemma isMark_dot : IsMark '.' := by decide

lemma isMark_e : IsMark 'e' := by decide

lemma isMark_mark (t : NumberText) : IsMark t.mark := by
  cases t with
  | positional => exact isMark_dot
  | scientific lead rest =>
    cases rest with
    | nil => exact isMark_e
    | cons => exact isMark_dot

@[simp] lemma text_snoc (t : NumberText) (ds : List Digit) :
    (t.snoc ds).text = t.text ++ Digit.text ds := by
  cases t <;> simp [snoc, text, whole, mark, tail]

lemma snoc_ne {t : NumberText} {ds : List Digit} (hds : ds ≠ []) : t.snoc ds ≠ t := by
  cases t <;> simp [snoc, hds]

lemma text_cons? {ds : List Digit} {t t' : NumberText} (h : cons? ds t = some t') :
    t'.text = Digit.text ds ++ t.text := by
  cases t with
  | positional int frac =>
    obtain rfl := Option.some.inj h
    simp [text, whole, mark, tail]
  | scientific => cases h

/-- A number text is not a list of digits. -/
lemma text_ne_digits (t : NumberText) (ds : List Digit) : t.text ≠ Digit.text ds :=
  (text_ne_mark t.isMark_mark).symm

lemma text_append_inj {t t' : NumberText} {rest : List Char} :
    t'.text = t.text ++ rest ↔ t'.whole = t.whole ∧ t'.mark = t.mark ∧ t'.tail = t.tail ++ rest := by
  rw [text, text, List.append_assoc, List.cons_append,
    text_mark_inj t'.isMark_mark t.isMark_mark]

@[simp] lemma tail_scientific_cons (lead d : Digit) (ds : List Digit) (negative : Bool)
    (exponent : List Digit) : (scientific lead (d :: ds) negative exponent).tail
      = Digit.text (d :: ds) ++ 'e' :: sign negative :: Digit.text exponent := by
  simp [tail]

/-- A text that begins with a text goes on with digits, or with an exponent. -/
lemma eq_snoc_of_text {t t' : NumberText} {rest : List Char} (h : t'.text = t.text ++ rest) :
    (∃ ds, rest = Digit.text ds ∧ t' = t.snoc ds) ∨
      ∃ ds negative exponent, rest = Digit.text ds ++ 'e' :: sign negative :: Digit.text exponent := by
  obtain ⟨hwhole, hmark, htail⟩ := text_append_inj.mp h
  match t, t' with
  | positional int frac, positional int' frac' =>
    obtain ⟨ds, rfl, hrest⟩ := text_eq_text_append htail
    exact .inl ⟨ds, hrest, by rw [snoc, show int' = int from hwhole]⟩
  | positional int frac, scientific lead' [] negative' exponent' => cases hmark
  | positional int frac, scientific lead' (d' :: ds') negative' exponent' =>
    rw [tail_scientific_cons] at htail
    obtain ⟨ds, -, hrest⟩ := text_append_eq_mark isMark_e htail.symm
    exact .inr ⟨ds, negative', exponent', hrest⟩
  | scientific lead [] negative exponent, positional int' frac' => cases hmark
  | scientific lead (d :: ds) negative exponent, positional int' frac' =>
    rw [tail_scientific_cons, List.append_assoc] at htail
    exact absurd htail (text_ne_mark isMark_e)
  | scientific lead [] negative exponent, scientific lead' (d' :: ds') negative' exponent' =>
    cases hmark
  | scientific lead (d :: ds) negative exponent, scientific lead' [] negative' exponent' =>
    cases hmark
  | scientific lead [] negative exponent, scientific lead' [] negative' exponent' =>
    obtain rfl := List.singleton_inj.mp hwhole
    obtain ⟨hsign, hexponent⟩ := List.cons.inj htail
    obtain ⟨es, rfl, hrest⟩ := text_eq_text_append hexponent
    exact .inl ⟨es, hrest, by rw [snoc, sign_inj.mp hsign]⟩
  | scientific lead (d :: ds) negative exponent, scientific lead' (d' :: ds') negative' exponent' =>
    obtain rfl := List.singleton_inj.mp hwhole
    rw [tail_scientific_cons, tail_scientific_cons, List.append_assoc, List.cons_append,
      text_mark_inj isMark_e isMark_e] at htail
    obtain ⟨hsign, hexponent⟩ := List.cons.inj htail.2.2
    obtain ⟨es, rfl, hrest⟩ := text_eq_text_append hexponent
    exact .inl ⟨es, hrest, by rw [snoc, sign_inj.mp hsign, htail.1]⟩

/-- Nothing but digits follows an exponent. -/
lemma eq_digits_of_exponent {t : NumberText} {ds exponent : List Digit} {negative : Bool}
    {rest : List Char}
    (h : t.text = Digit.text ds ++ 'e' :: sign negative :: Digit.text exponent ++ rest) :
    ∃ es, rest = Digit.text es := by
  rw [text, List.append_assoc, List.cons_append, text_mark_inj t.isMark_mark isMark_e] at h
  obtain ⟨-, hmark, htail⟩ := h
  match t with
  | positional int frac => cases hmark
  | scientific lead (d :: ds) negative' exponent' => cases hmark
  | scientific lead [] negative' exponent' =>
    obtain ⟨es, -, hrest⟩ := text_eq_text_append (List.cons.inj htail).2
    exact ⟨es, hrest⟩

/-- A text that ends with a text and begins with digits is positional, and so is its end. -/
lemma cons?_of_text {t t' : NumberText} {ds : List Digit} (hds : ds ≠ [])
    (h : t'.text = Digit.text ds ++ t.text) : cons? ds t = some t' := by
  rw [text, text, ← List.append_assoc, ← text_append,
    text_mark_inj t'.isMark_mark t.isMark_mark] at h
  obtain ⟨hwhole, hmark, htail⟩ := h
  match t, t' with
  | positional int frac, positional int' frac' =>
    rw [cons?, ← show int' = ds ++ int from hwhole, text_injective htail]
  | positional int frac, scientific lead' [] negative' exponent' => cases hmark
  | positional int frac, scientific lead' (d' :: ds') negative' exponent' =>
    rw [tail_scientific_cons] at htail
    exact absurd htail.symm (text_ne_mark isMark_e)
  | scientific lead [] negative exponent, positional int' frac' => cases hmark
  | scientific lead (d :: ds) negative exponent, positional int' frac' =>
    rw [tail_scientific_cons] at htail
    exact absurd htail (text_ne_mark isMark_e)
  | scientific lead es negative exponent, scientific lead' es' negative' exponent' =>
    have hlength := congrArg List.length hwhole
    simp only [whole, List.length_append, List.length_singleton] at hlength
    exact absurd (List.length_eq_zero_iff.mp (by omega)) hds

lemma text_injective : Function.Injective text := by
  intro t t' h
  have hnil : t'.text = t.text ++ [] := by rw [h, List.append_nil]
  rcases eq_snoc_of_text hnil with ⟨ds, hds, rfl⟩ | ⟨ds, negative, exponent, hds⟩
  · obtain rfl : ds = [] := Digit.text_injective hds.symm
    cases t <;> simp [snoc]
  · exact absurd ((text_nil).trans hds) (text_ne_mark isMark_e)

/-- The digits at the front of the second text belong to the first one. -/
def Moved (t d t' d' : NumberText) : Prop := ∃ ds ≠ [], t' = t.snoc ds ∧ cons? ds d' = some d

/-- If a text of the first pair goes further, its additional part consists of digits. -/
lemma moved_of_text {t d t' d' : NumberText} {rest : List Char} (hrest : rest ≠ [])
    (ht : t'.text = t.text ++ rest) (hd : d.text = rest ++ d'.text) : Moved t d t' d' := by
  rcases eq_snoc_of_text ht with ⟨ds, rfl, hsnoc⟩ | ⟨ds, negative, exponent, rfl⟩
  · have hds : ds ≠ [] := by
      rintro rfl
      exact hrest rfl
    exact ⟨ds, hds, hsnoc, cons?_of_text hds hd⟩
  · obtain ⟨es, hes⟩ := eq_digits_of_exponent hd
    exact absurd hes (d'.text_ne_digits es)

/-- Two pairs of number texts are the same text exactly if they are equal or differ by digits moved
from one text to the other. -/
theorem append_text_eq_iff {t d t' d' : NumberText} :
    t.text ++ d.text = t'.text ++ d'.text ↔
      (t = t' ∧ d = d') ∨ Moved t d t' d' ∨ Moved t' d' t d := by
  constructor
  · intro h
    rcases List.append_eq_append_iff.mp h with ⟨rest, ht, hd⟩ | ⟨rest, ht, hd⟩ <;>
      by_cases hrest : rest = []
    · subst hrest
      exact .inl ⟨text_injective (by simpa using ht.symm), text_injective (by simpa using hd)⟩
    · exact .inr (.inl (moved_of_text hrest ht hd))
    · subst hrest
      exact .inl ⟨text_injective (by simpa using ht), text_injective (by simpa using hd.symm)⟩
    · exact .inr (.inr (moved_of_text hrest ht hd))
  · rintro (⟨rfl, rfl⟩ | ⟨ds, -, rfl, hcons⟩ | ⟨ds, -, rfl, hcons⟩)
    · rfl
    · rw [text_snoc, text_cons? hcons, List.append_assoc]
    · rw [text_snoc, text_cons? hcons, List.append_assoc]

end NumberText

/-! ### Shortest decimals -/

/-- The positive number `0.digits × 10 ^ point`, with no superfluous digits. -/
structure Decimal where
  digits : List Digit
  point : Int
  nonempty : digits ≠ []
  head_ne : digits.head? ≠ some 0
  last_ne : digits.getLast? ≠ some 0
  deriving DecidableEq

namespace Decimal

/-- The number `0.n × 10 ^ point`. -/
def ofNat (n : ℕ) (point : Int) (hn : n % 10 ≠ 0) : Decimal where
  digits := natDigits n
  point := point
  nonempty := natDigits_ne_nil (by rintro rfl; exact hn rfl)
  head_ne := head?_natDigits_ne (by rintro rfl; exact hn rfl)
  last_ne := getLast?_natDigits_ne hn

/-- The digits before the point. -/
def intDigits (x : Decimal) : List Digit :=
  if x.point ≤ 0 then [0]
  else x.digits.take x.point.toNat ++ List.replicate (x.point.toNat - x.digits.length) 0

/-- The digits after the point. -/
def fracDigits (x : Decimal) : List Digit :=
  if x.point ≤ 0 then List.replicate (-x.point).toNat 0 ++ x.digits
  else if x.digits.length ≤ x.point.toNat then [0]
  else x.digits.drop x.point.toNat

/-- At least two digits. -/
def exponentDigits (n : ℕ) : List Digit :=
  List.replicate (2 - (natDigits n).length) 0 ++ natDigits n

/-- The parts of `repr(x)`. -/
def printed (x : Decimal) : NumberText :=
  if x.point ≤ -4 ∨ 16 < x.point then
    .scientific (x.digits.headD 0) x.digits.tail (x.point - 1 < 0)
      (exponentDigits (x.point - 1).natAbs)
  else .positional x.intDigits x.fracDigits

/-- `repr(x)`. -/
def text (x : Decimal) : List Char := x.printed.text

/-- The value of the digits of an exponent. -/
lemma ofDigits_exponentDigits (n : ℕ) :
    Nat.ofDigits 10 ((exponentDigits n).reverse.map Fin.val) = n := by
  rw [exponentDigits, List.reverse_append, List.map_append, map_val_natDigits,
    List.reverse_replicate, List.map_replicate, Fin.val_zero, Nat.ofDigits_append_replicate_zero,
    Nat.ofDigits_digits]

lemma exponentDigits_injective : Function.Injective exponentDigits := by
  intro m n h
  rw [← ofDigits_exponentDigits m, h, ofDigits_exponentDigits n]

/-- Leading zeros are told apart from the digits. -/
lemma replicate_append_inj {m n : ℕ} {ds es : List Digit} (hds : ds.head? ≠ some 0)
    (hes : es.head? ≠ some 0) (h : List.replicate m 0 ++ ds = List.replicate n 0 ++ es) :
    m = n ∧ ds = es := by
  induction m generalizing n with
  | zero =>
    cases n with
    | zero => exact ⟨rfl, h⟩
    | succ n => exact absurd (by rw [show ds = _ from h]; rfl) hds
  | succ m ih =>
    cases n with
    | zero => exact absurd (by rw [show es = _ from h.symm]; rfl) hes
    | succ n =>
      obtain ⟨rfl, rfl⟩ := ih (List.cons.inj h).2
      exact ⟨rfl, rfl⟩

lemma append_replicate_inj {m n : ℕ} {ds es : List Digit} (hds : ds.getLast? ≠ some 0)
    (hes : es.getLast? ≠ some 0) (h : ds ++ List.replicate m 0 = es ++ List.replicate n 0) :
    ds = es := by
  have hreverse := congrArg List.reverse h
  rw [List.reverse_append, List.reverse_append, List.reverse_replicate, List.reverse_replicate]
    at hreverse
  exact List.reverse_injective (replicate_append_inj (by simpa using hds) (by simpa using hes)
    hreverse).2

lemma length_intDigits {x : Decimal} (h : 0 < x.point) : x.intDigits.length = x.point.toNat := by
  rw [intDigits, if_neg (by omega), List.length_append, List.length_take, List.length_replicate]
  omega

lemma head?_intDigits {x : Decimal} (h : 0 < x.point) : x.intDigits.head? ≠ some 0 := by
  have hhead := x.head_ne
  rw [intDigits, if_neg (by omega)]
  obtain ⟨n, hn⟩ : ∃ n, x.point.toNat = n + 1 := ⟨x.point.toNat - 1, by omega⟩
  cases hdigits : x.digits with
  | nil => exact absurd hdigits x.nonempty
  | cons d ds =>
    rw [hdigits] at hhead
    simpa [hn] using hhead

/-- The fraction is a lone zero exactly if no digit is left for it. -/
lemma fracDigits_eq_zero_iff {x : Decimal} (h : 0 < x.point) :
    x.fracDigits = [0] ↔ x.digits.length ≤ x.point.toNat := by
  rw [fracDigits, if_neg (by omega)]
  refine ⟨?_, fun hle => if_pos hle⟩
  intro hzero
  by_contra hlt
  rw [if_neg hlt] at hzero
  have hlast := congrArg List.getLast? hzero
  rw [List.getLast?_drop, if_neg hlt] at hlast
  exact x.last_ne hlast

/-- The printed digits determine the number. -/
lemma eq_of_positional {x y : Decimal} (hint : x.intDigits = y.intDigits)
    (hfrac : x.fracDigits = y.fracDigits) : x.point = y.point ∧ x.digits = y.digits := by
  have hzero : ∀ x : Decimal, x.point ≤ 0 → x.intDigits = [0] := fun x hx => if_pos hx
  rcases Int.lt_or_le 0 x.point with hx | hx <;> rcases Int.lt_or_le 0 y.point with hy | hy
  · have hpoint : x.point.toNat = y.point.toNat := by
      rw [← length_intDigits hx, hint, length_intDigits hy]
    refine ⟨by omega, ?_⟩
    have hsame : x.digits.length ≤ x.point.toNat ↔ y.digits.length ≤ y.point.toNat := by
      rw [← fracDigits_eq_zero_iff hx, hfrac, fracDigits_eq_zero_iff hy]
    by_cases hshort : x.digits.length ≤ x.point.toNat
    · -- all digits stand before the point, filled up with zeros
      rw [intDigits, intDigits, if_neg (by omega), if_neg (by omega),
        List.take_of_length_le hshort, List.take_of_length_le (hsame.mp hshort)] at hint
      exact append_replicate_inj x.last_ne y.last_ne hint
    · rw [intDigits, intDigits, if_neg (by omega), if_neg (by omega),
        Nat.sub_eq_zero_of_le (by omega), Nat.sub_eq_zero_of_le (by omega)] at hint
      rw [fracDigits, if_neg (Int.not_le.mpr hx), if_neg hshort, fracDigits,
        if_neg (Int.not_le.mpr hy), if_neg (mt hsame.mpr hshort)] at hfrac
      have htake : x.digits.take x.point.toNat = y.digits.take y.point.toNat := by simpa using hint
      calc x.digits = x.digits.take x.point.toNat ++ x.digits.drop x.point.toNat :=
            (List.take_append_drop _ _).symm
        _ = y.digits.take y.point.toNat ++ y.digits.drop y.point.toNat := by rw [htake, hfrac]
        _ = y.digits := List.take_append_drop _ _
  · exact absurd (by rw [hint, hzero y hy]; rfl) (head?_intDigits hx)
  · exact absurd (by rw [← hint, hzero x hx]; rfl) (head?_intDigits hy)
  · rw [fracDigits, fracDigits, if_pos hx, if_pos hy] at hfrac
    obtain ⟨hpoint, hdigits⟩ := replicate_append_inj x.head_ne y.head_ne hfrac
    exact ⟨by omega, hdigits⟩

/-- Numbers with the same text are the same. -/
theorem printed_injective : Function.Injective printed := by
  intro x y h
  have heq : x.point = y.point ∧ x.digits = y.digits := by
    simp only [printed] at h
    split_ifs at h
    · obtain ⟨hlead, htail, hsign, hexponent⟩ := NumberText.scientific.inj h
      have hcons : ∀ x : Decimal, x.digits = x.digits.headD 0 :: x.digits.tail := by
        intro x
        cases hdigits : x.digits with
        | nil => exact absurd hdigits x.nonempty
        | cons => rfl
      have habs := exponentDigits_injective hexponent
      have hneg : x.point - 1 < 0 ↔ y.point - 1 < 0 := decide_eq_decide.mp hsign
      exact ⟨by omega, by rw [hcons x, hcons y, hlead, htail]⟩
    · obtain ⟨hint, hfrac⟩ := NumberText.positional.inj h
      exact eq_of_positional hint hfrac
  cases x
  cases y
  simp only at heq
  obtain ⟨rfl, rfl⟩ := heq
  rfl

/-- The number as a fraction. -/
def toRat (x : Decimal) : ℚ :=
  Nat.ofDigits 10 (x.digits.reverse.map Fin.val) * 10 ^ (x.point - x.digits.length)

lemma toRat_ofNat (n : ℕ) (point : Int) (hn : n % 10 ≠ 0) :
    (ofNat n point hn).toRat = n * 10 ^ (point - (Nat.digits 10 n).length) := by
  have hvalue : Nat.ofDigits (10 : ℚ) (Nat.digits 10 n) = n := by
    have hcast := Nat.coe_ofDigits ℚ 10 (Nat.digits 10 n)
    rw [Nat.ofDigits_digits] at hcast
    exact hcast.symm
  rw [toRat, ofNat, map_val_natDigits, hvalue]
  dsimp only
  rw [length_natDigits]

end Decimal

/-- A finite `float`. -/
inductive PyFloat
  | zero (negative : Bool)
  | finite (negative : Bool) (magnitude : Decimal)
  deriving DecidableEq

namespace PyFloat

/-- `repr(x)`, `str(x)` and `f"{x}"`. -/
def text : PyFloat → String
  | zero negative => if negative then "-0.0" else "0.0"
  | finite negative magnitude =>
    (if negative then "-" else "") ++ String.ofList magnitude.text

def toRat : PyFloat → ℚ
  | zero _ => 0
  | finite negative magnitude => if negative then -magnitude.toRat else magnitude.toRat

/-- The number above zero with the given decimal. -/
def positive (magnitude : Decimal) : PyFloat := finite false magnitude

@[simp] lemma toRat_positive (x : Decimal) : (positive x).toRat = x.toRat := rfl

@[simp] lemma text_positive (x : Decimal) : (positive x).text = String.ofList x.text := by
  simp [positive, text]

end PyFloat

end PocketCash
