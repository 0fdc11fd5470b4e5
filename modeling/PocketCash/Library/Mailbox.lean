import Mathlib.Data.List.Basic
import Mathlib.Logic.Function.Basic

/-!
# Mailboxes

Items are put at the end of the box of their addressee and taken from its front. What an addressee
has taken, followed by what lies in its box, is what was put there, in order.
-/

namespace PocketCash

variable {ι α : Type*} [DecidableEq ι]

/-- The items of a journal that concern `i`. -/
def itemsFor (i : ι) (journal : List (ι × α)) : List α :=
  journal.filterMap fun entry => if entry.1 = i then some entry.2 else none

lemma itemsFor_concat (i j : ι) (a : α) (journal : List (ι × α)) :
    itemsFor i (journal ++ [(j, a)]) = itemsFor i journal ++ if j = i then [a] else [] := by
  rw [itemsFor, List.filterMap_append, ← itemsFor]
  by_cases hj : j = i <;> simp [hj]

/-- What was taken and what is left account for what was put. -/
def Accounts (boxes : ι → List α) (put taken : List (ι × α)) : Prop :=
  ∀ i, itemsFor i taken ++ boxes i = itemsFor i put

namespace Accounts

variable {boxes : ι → List α} {put taken : List (ι × α)} {i : ι} {a : α}

lemma empty : Accounts (fun _ : ι => ([] : List α)) [] [] := fun _ => rfl

/-- An item is put at the end of a box. -/
lemma put_concat (h : Accounts boxes put taken) :
    Accounts (Function.update boxes i (boxes i ++ [a])) (put ++ [(i, a)]) taken := by
  intro j
  rw [itemsFor_concat]
  by_cases hj : j = i
  · subst hj
    rw [Function.update_self, if_pos rfl, ← h j, List.append_assoc]
  · rw [Function.update_of_ne hj, if_neg (Ne.symm hj), List.append_nil]
    exact h j

/-- The first item of a box is taken. -/
lemma take_head {rest : List α} (h : Accounts boxes put taken) (hbox : boxes i = a :: rest) :
    Accounts (Function.update boxes i rest) put (taken ++ [(i, a)]) := by
  intro j
  rw [itemsFor_concat]
  by_cases hj : j = i
  · subst hj
    rw [Function.update_self, if_pos rfl, ← h j, hbox, List.append_assoc]
    rfl
  · rw [Function.update_of_ne hj, if_neg (Ne.symm hj), List.append_nil]
    exact h j

end Accounts

end PocketCash
