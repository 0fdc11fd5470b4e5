import Mathlib.Data.List.Nodup
import Mathlib.Data.List.Perm.Basic
import Mathlib.Tactic.Common

/-!
# Messages in transit

A log of messages that are never taken back, and a predicate that tells which of them have been
received. A message that is sent is in transit. One that is received leaves the transit, once, and
the others stay in it.
-/

namespace PocketCash

variable {μ : Type*} {log : List μ} {received received' : μ → Prop} [DecidablePred received]
  [DecidablePred received'] {m : μ}

/-- The messages that are sent and not received. -/
def inTransit (log : List μ) (received : μ → Prop) [DecidablePred received] : List μ :=
  log.filter fun m => ¬ received m

lemma mem_inTransit : m ∈ inTransit log received ↔ m ∈ log ∧ ¬ received m := by
  simp [inTransit]

/-- Nothing is received. -/
lemma inTransit_congr (h : ∀ m ∈ log, received' m ↔ received m) :
    inTransit log received' = inTransit log received := by
  apply List.filter_congr
  intro m hm
  rw [decide_eq_decide, h m hm]

/-- Messages are sent. -/
lemma inTransit_append (log log' : List μ) :
    inTransit (log ++ log') received = inTransit log received ++ inTransit log' received :=
  List.filter_append ..

/-- New messages are not received yet. -/
lemma inTransit_of_new (h : ∀ m ∈ log, ¬ received m) : inTransit log received = log :=
  List.filter_eq_self.mpr fun m hm => decide_eq_true (h m hm)

/-- A message is received. -/
lemma perm_inTransit (hlog : log.Nodup) (hm : m ∈ log) (hnew : ¬ received m)
    (h : ∀ m' ∈ log, received' m' ↔ m' = m ∨ received m') :
    (inTransit log received).Perm (m :: inTransit log received') := by
  have hnot : m ∉ inTransit log received' := fun hmem =>
    (mem_inTransit.mp hmem).2 ((h m hm).mpr (.inl rfl))
  have hbefore : (inTransit log received).Nodup := hlog.filter _
  have hafter : (inTransit log received').Nodup := hlog.filter _
  rw [List.perm_ext_iff_of_nodup hbefore (List.nodup_cons.mpr ⟨hnot, hafter⟩)]
  intro m'
  rw [mem_inTransit, List.mem_cons, mem_inTransit]
  constructor
  · rintro ⟨hm', hnew'⟩
    by_cases heq : m' = m
    · exact .inl heq
    · exact .inr ⟨hm', fun hreceived => ((h m' hm').mp hreceived).elim heq hnew'⟩
  · rintro (rfl | ⟨hm', hnew'⟩)
    · exact ⟨hm, hnew⟩
    · exact ⟨hm', fun hreceived => hnew' ((h m' hm').mpr (.inr hreceived))⟩

end PocketCash
