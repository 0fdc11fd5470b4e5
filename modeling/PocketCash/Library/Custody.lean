import Mathlib.Data.List.Nodup
import Mathlib.Tactic.Common

/-!
# Custody logs

A custody log is the list of all messages ever issued about a set of objects, newest first. Each
message names an object and hands it to somebody, so the custodian of an object is whoever the
newest message about it was issued to. Older messages about the object are superseded.
-/

namespace PocketCash

variable {ι μ : Type*} [DecidableEq ι]

/-- The newest message about the object `i`. -/
def newest (object : μ → ι) (log : List μ) (i : ι) : Option μ := log.find? fun m => object m = i

section newest

variable {object : μ → ι} {log log' : List μ} {m m' : μ} {i : ι}

lemma newest_cons : newest object (m :: log) i = if object m = i then some m else newest object log i := by
  by_cases h : object m = i <;> simp [newest, h]

lemma newest_append :
    newest object (log ++ log') i = (newest object log i).or (newest object log' i) :=
  List.find?_append

lemma newest_eq_none_iff : newest object log i = none ↔ i ∉ log.map object := by
  simp [newest]

lemma mem_of_newest (h : newest object log i = some m) : m ∈ log ∧ object m = i :=
  ⟨List.mem_of_find?_eq_some h, by simpa using List.find?_some h⟩

/-- An object some message is about has a newest message. -/
lemma exists_newest (object : μ → ι) (h : m ∈ log) : ∃ m', newest object log (object m) = some m' := by
  rw [← Option.ne_none_iff_exists', Ne, newest_eq_none_iff, not_not]
  exact List.mem_map_of_mem h

/-- A message is the newest about its object or stands behind the newest. -/
lemma eq_or_of_newest {R : μ → μ → Prop} (hlog : log.Pairwise R) (h : m ∈ log)
    (hm' : newest object log (object m) = some m') : m' = m ∨ R m' m := by
  induction log with
  | nil => cases h
  | cons a log ih =>
    rw [newest_cons] at hm'
    obtain ⟨hhead, htail⟩ := List.pairwise_cons.mp hlog
    rcases List.mem_cons.mp h with rfl | hmem
    · rw [if_pos rfl] at hm'
      exact .inl (Option.some.inj hm').symm
    · split_ifs at hm' with ha
      · obtain rfl := Option.some.inj hm'
        exact .inr (hhead m hmem)
      · exact ih htail hmem hm'

end newest

end PocketCash
