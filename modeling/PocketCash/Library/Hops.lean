import Mathlib.Data.List.Induction
import Mathlib.Data.List.Nodup
import Mathlib.Tactic.Common

/-!
# Hops along a route

A route is the list of the holders of an object, the first of them its maker. Its hops are counted
from the last holder who had held the object before: such a holder sets the count to zero, and any
other adds one. So a bound on the count at every point of a route bounds the number of new holders
in a row.
-/

namespace PocketCash

variable {α : Type*} [DecidableEq α]

/-- The count after the holders of a list, from `count` and the holders `seen` before them. -/
def hopsFrom (count : ℕ) (seen : List α) : List α → ℕ
  | [] => count
  | holder :: rest => hopsFrom (if holder ∈ seen then 0 else count + 1) (seen ++ [holder]) rest

/-- The hops of a route. -/
def hops : List α → ℕ
  | [] => 0
  | maker :: rest => hopsFrom 0 [maker] rest

lemma hopsFrom_append (count : ℕ) (seen route rest : List α) :
    hopsFrom count seen (route ++ rest) = hopsFrom (hopsFrom count seen route) (seen ++ route) rest := by
  induction route generalizing count seen with
  | nil => simp [hopsFrom]
  | cons holder route ih => simp [hopsFrom, ih]

@[simp] lemma hops_singleton (maker : α) : hops [maker] = 0 := rfl

/-- One more holder. -/
lemma hops_concat {route : List α} (hroute : route ≠ []) (holder : α) :
    hops (route ++ [holder]) = if holder ∈ route then 0 else hops route + 1 := by
  cases route with
  | nil => exact absurd rfl hroute
  | cons maker rest => simp [hops, hopsFrom_append, hopsFrom]

lemma hops_concat_le {route : List α} (hroute : route ≠ []) (holder : α) :
    hops (route ++ [holder]) ≤ hops route + 1 := by
  rw [hops_concat hroute]
  split_ifs <;> omega

/-- Each of the holders is new to an object with the given route. -/
def AllNew (route holders : List α) : Prop := holders.Nodup ∧ holders.Disjoint route

/-- New holders are counted. -/
lemma hops_append_of_allNew {route holders : List α} (hroute : route ≠ [])
    (hnew : AllNew route holders) : hops (route ++ holders) = hops route + holders.length := by
  obtain ⟨hnodup, hdisjoint⟩ := hnew
  induction holders using List.reverseRecOn with
  | nil => simp
  | append_singleton holders holder ih =>
    rw [List.nodup_append'] at hnodup
    rw [List.disjoint_append_left] at hdisjoint
    have hfirst : holder ∉ route ++ holders := by
      rw [List.mem_append, not_or]
      exact ⟨fun hmem => hdisjoint.2 List.mem_cons_self hmem,
        fun hmem => hnodup.2.2 hmem List.mem_cons_self⟩
    rw [← List.append_assoc, hops_concat (by simp [hroute]), if_neg hfirst,
      ih hnodup.1 hdisjoint.1, List.length_append, List.length_singleton, Nat.add_assoc]

/-- The count is within the limit at every point of the route. -/
def HopsWithin (limit : ℕ) (route : List α) : Prop :=
  ∀ before, before <+: route → hops before ≤ limit

namespace HopsWithin

variable {limit : ℕ} {route : List α}

lemma singleton (maker : α) : HopsWithin limit [maker] := by
  intro before hbefore
  cases before with
  | nil => exact Nat.zero_le limit
  | cons holder rest =>
    obtain ⟨-, hrest⟩ := List.cons_prefix_cons.mp hbefore
    rw [List.prefix_nil.mp hrest]
    exact Nat.zero_le limit

lemma concat (h : HopsWithin limit route) {holder : α} (hlast : hops (route ++ [holder]) ≤ limit) :
    HopsWithin limit (route ++ [holder]) := by
  intro before hbefore
  rcases List.prefix_concat_iff.mp hbefore with rfl | hinside
  · exact hlast
  · exact h before hinside

/-- No more than `limit` new holders follow each other. -/
lemma length_le {before holders after : List α} (h : HopsWithin limit (before ++ holders ++ after))
    (hbefore : before ≠ []) (hnew : AllNew before holders) : holders.length ≤ limit := by
  have hcount := h (before ++ holders) (List.prefix_append _ _)
  rw [hops_append_of_allNew hbefore hnew] at hcount
  omega

end HopsWithin

end PocketCash
