import Mathlib.Algebra.BigOperators.Group.List.Basic
import Mathlib.Tactic.Abel
import PocketCash.Library.KeyedList

/-!
# Totals of keyed collections

The total of a quantity over all items. Storing an item adds what it counts and takes away what the
item that it replaces counts, so a sequence of writes adds the total of the written items less the
total of all that was replaced, held before or written earlier.
-/

namespace PocketCash

namespace KeyedList

variable {κ α M : Type*} {key : α → κ} [AddCommGroup M] {f : α → M}

/-- The sum of `f` over all items. -/
def total (f : α → M) (d : KeyedList key) : M := (d.items.map f).sum

lemma total_perm {d e : KeyedList key} (h : d.items.Perm e.items) : d.total f = e.total f :=
  (h.map f).sum_eq

variable [DecidableEq κ]

/-- What the item under `k` counts, if there is one. -/
def totalAt (f : α → M) (d : KeyedList key) (k : κ) : M := ((d.find? k).map f).getD 0

lemma totalAt_of_find? {d : KeyedList key} {k : κ} {a : α} (h : d.find? k = some a) :
    d.totalAt f k = f a := by
  rw [totalAt, h]
  rfl

lemma totalAt_of_notMem {d : KeyedList key} {k : κ} (h : k ∉ d.keys) : d.totalAt f k = 0 := by
  rw [totalAt, find?_eq_none_iff.mpr h]
  rfl

/-- Removing an item takes away what it counts. -/
lemma total_pop (d : KeyedList key) (k : κ) : (d.pop k).total f = d.total f - d.totalAt f k := by
  cases hfind : d.find? k with
  | none =>
    have hnone := find?_eq_none_iff.mp hfind
    have hall : ∀ a ∈ d.items, decide (key a ≠ k) = true := fun a ha =>
      decide_eq_true fun hkey : key a = k => hnone (hkey ▸ key_mem_keys ha)
    rw [totalAt_of_notMem hnone, sub_zero, total, total]
    exact congrArg (fun l => (List.map f l).sum) (List.filter_eq_self.mpr hall)
  | some a =>
    have hperm := ((perm_pop hfind).map f).sum_eq
    rw [List.map_cons, List.sum_cons] at hperm
    rw [totalAt_of_find? hfind, total, total, hperm, add_sub_cancel_left]

/-- Storing an item adds what it counts and takes away what the item it replaces counts. -/
lemma total_put (d : KeyedList key) (a : α) :
    (d.put a).total f = d.total f + f a - d.totalAt f (key a) := by
  have hperm := ((d.perm_put a).map f).sum_eq
  rw [List.map_cons, List.sum_cons] at hperm
  have hpop : ((d.pop (key a)).items.map f).sum = d.total f - d.totalAt f (key a) := total_pop d _
  rw [total, hperm, hpop]
  abel

lemma total_put_of_notMem {d : KeyedList key} {a : α} (h : key a ∉ d.keys) :
    (d.put a).total f = d.total f + f a := by
  rw [total_put, totalAt_of_notMem h, sub_zero]

end KeyedList

end PocketCash
