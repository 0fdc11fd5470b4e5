import Mathlib.Data.List.Basic
import Mathlib.Tactic.Common

/-!
# Runs of an event-driven system

A system is a function `step` that handles one event in one state. A run is the list of its
events; everything the environment chooses (the order of calls, clock readings, random
identifiers) is part of the events, so a statement about all lists of events is a statement about
all runs. `Along` restricts the runs to those whose every event meets a condition in the state in
which it is handled.
-/

namespace PocketCash

variable {σ ε : Type*}

/-- The state reached from `s` by handling `es` one after the other. -/
def runFrom (step : σ → ε → σ) (s : σ) (es : List ε) : σ := es.foldl step s

section runFrom

variable (step : σ → ε → σ)

@[simp] lemma runFrom_nil (s : σ) : runFrom step s [] = s := rfl

@[simp] lemma runFrom_cons (s : σ) (e : ε) (es : List ε) :
    runFrom step s (e :: es) = runFrom step (step s e) es := rfl

lemma runFrom_append (s : σ) (es es' : List ε) :
    runFrom step s (es ++ es') = runFrom step (runFrom step s es) es' :=
  List.foldl_append

/-- What every event preserves holds at the end of every run. -/
theorem runFrom_invariant {step : σ → ε → σ} {I : σ → Prop} (hstep : ∀ s e, I s → I (step s e))
    {s : σ} (hs : I s) (es : List ε) : I (runFrom step s es) := by
  induction es generalizing s with
  | nil => exact hs
  | cons e es ih => exact ih (hstep s e hs)

/-- The simulation rule: two systems whose states stay related by every event of a run are related
at its end. -/
theorem runFrom_simulates {step : σ → ε → σ} {τ : Type*} {step' : τ → ε → τ} {R : σ → τ → Prop}
    {es : List ε} (hstep : ∀ e ∈ es, ∀ s t, R s t → R (step s e) (step' t e)) {s : σ} {t : τ}
    (hst : R s t) : R (runFrom step s es) (runFrom step' t es) := by
  induction es generalizing s t with
  | nil => exact hst
  | cons e es ih =>
    rw [List.forall_mem_cons] at hstep
    exact ih hstep.2 (hstep.1 s t hst)

/-- A property of each entry of a journal and the entries before it is kept when an entry with the
property is added. -/
lemma forall_split_concat {P : List ε → ε → Prop} {l : List ε} {x : ε}
    (h : ∀ before e after, l = before ++ e :: after → P before e) (hx : P l x) :
    ∀ before e after, l ++ [x] = before ++ e :: after → P before e := by
  intro before e after heq
  rcases List.eq_nil_or_concat after with rfl | ⟨rest, last, rfl⟩
  · obtain ⟨rfl, hlast⟩ := List.append_inj' heq rfl
    obtain rfl := (List.cons.inj hlast).1
    exact hx
  · rw [List.concat_eq_append, ← List.cons_append, ← List.append_assoc] at heq
    exact h before e rest (List.append_inj' heq rfl).1

end runFrom

/-! Events numbered by their place in a list. -/

lemma map_mapIdx {α β γ : Type*} (g : β → γ) (f : ℕ → α → β) (l : List α) :
    (l.mapIdx f).map g = l.mapIdx fun i a => g (f i a) := by
  induction l generalizing f with
  | nil => rfl
  | cons a l ih => rw [List.mapIdx_cons, List.mapIdx_cons, List.map_cons, ih]

lemma mapIdx_eq_map {α β : Type*} (f : α → β) (l : List α) :
    (l.mapIdx fun _ a => f a) = l.map f := by
  induction l with
  | nil => rfl
  | cons a l ih => rw [List.mapIdx_cons, List.map_cons, ih]

/-- Every event of the run `es` from `s` meets `g` in the state in which it is handled. -/
def Along (step : σ → ε → σ) (g : σ → ε → Prop) : σ → List ε → Prop
  | _, [] => True
  | s, e :: es => g s e ∧ Along step g (step s e) es

namespace Along

instance decidable (step : σ → ε → σ) (g : σ → ε → Prop) [∀ s e, Decidable (g s e)] :
    ∀ s es, Decidable (Along step g s es)
  | _, [] => .isTrue trivial
  | s, e :: es =>
    have := decidable step g (step s e) es
    inferInstanceAs (Decidable (_ ∧ _))

variable {step : σ → ε → σ} {g : σ → ε → Prop} {s : σ}

@[simp] lemma nil : Along step g s [] := trivial

@[simp] lemma cons_iff {e : ε} {es : List ε} :
    Along step g s (e :: es) ↔ g s e ∧ Along step g (step s e) es := Iff.rfl

lemma append_iff {es es' : List ε} :
    Along step g s (es ++ es') ↔ Along step g s es ∧ Along step g (runFrom step s es) es' := by
  induction es generalizing s with
  | nil => simp
  | cons e es ih => simp [ih, and_assoc]

lemma and {g' : σ → ε → Prop} {es : List ε} (h : Along step g s es) (h' : Along step g' s es) :
    Along step (fun s e => g s e ∧ g' s e) s es := by
  induction es generalizing s with
  | nil => trivial
  | cons e es ih => exact ⟨⟨h.1, h'.1⟩, ih h.2 h'.2⟩

lemma of_forall (h : ∀ s e, g s e) {es : List ε} : Along step g s es := by
  induction es generalizing s with
  | nil => trivial
  | cons e es ih => exact ⟨h s e, ih⟩

/-- A condition on the events alone holds along a run exactly if all its events meet it. -/
lemma iff_forall_mem {p : ε → Prop} {es : List ε} :
    Along step (fun _ e => p e) s es ↔ ∀ e ∈ es, p e := by
  induction es generalizing s with
  | nil => simp
  | cons e es ih => rw [cons_iff, ih, List.forall_mem_cons]

/-- A condition that each event of the run meets on its own. -/
lemma of_forall_mem {p : ε → Prop} {es : List ε} (h : ∀ e ∈ es, p e) :
    Along step (fun _ e => p e) s es :=
  iff_forall_mem.mpr h

/-- The invariant rule: what every admissible step preserves holds at the end of every
admissible run. -/
theorem invariant {I : σ → Prop} (hstep : ∀ s e, g s e → I s → I (step s e)) {es : List ε}
    (hrun : Along step g s es) (hs : I s) : I (runFrom step s es) := by
  induction es generalizing s with
  | nil => exact hs
  | cons e es ih => exact ih hrun.2 (hstep s e hrun.1 hs)

/-- The exact-condition rule with a condition on the steps themselves: if each step keeps `I` and
meets `g` exactly when it meets `g'`, so does a run. -/
theorem iff_forall_prefix_and {g' : σ → ε → Prop} {I : σ → Prop}
    (hstep : ∀ s e, I s → (I (step s e) ∧ g s e ↔ g' s e)) (hs : I s) {es : List ε} :
    Along step g' s es ↔
      (∀ before, before <+: es → I (runFrom step s before)) ∧ Along step g s es := by
  induction es generalizing s with
  | nil =>
    refine iff_of_true trivial ⟨?_, trivial⟩
    intro before hbefore
    rw [List.prefix_nil.mp hbefore]
    exact hs
  | cons e es ih =>
    rw [cons_iff, cons_iff]
    constructor
    · rintro ⟨hg', hrest⟩
      obtain ⟨hnext, hg⟩ := (hstep s e hs).mpr hg'
      obtain ⟨hall, hrest'⟩ := (ih hnext).mp hrest
      refine ⟨?_, hg, hrest'⟩
      intro before hbefore
      cases before with
      | nil => exact hs
      | cons e' before =>
        obtain ⟨rfl, hrestBefore⟩ := List.cons_prefix_cons.mp hbefore
        exact hall before hrestBefore
    · rintro ⟨hall, hg, hrest⟩
      have hnext : I (step s e) := hall [e] (List.cons_prefix_cons.mpr ⟨rfl, List.nil_prefix⟩)
      refine ⟨(hstep s e hs).mp ⟨hnext, hg⟩, (ih hnext).mpr ⟨?_, hrest⟩⟩
      intro before hbefore
      exact hall (e :: before) (List.cons_prefix_cons.mpr ⟨rfl, hbefore⟩)

/-- The exact-condition rule: if each step keeps `I` exactly when it meets `g`, a run stays within
`I` exactly if all its steps meet `g`. -/
theorem iff_forall_prefix {I : σ → Prop} (hstep : ∀ s e, I s → (I (step s e) ↔ g s e))
    (hs : I s) {es : List ε} :
    Along step g s es ↔ ∀ before, before <+: es → I (runFrom step s before) := by
  have hboth : Along step g s es ↔
      (∀ before, before <+: es → I (runFrom step s before)) ∧ Along step (fun _ _ => True) s es :=
    iff_forall_prefix_and (fun s e h => by rw [and_true, hstep s e h]) hs
  rw [hboth, and_iff_left (of_forall fun _ _ => trivial)]

end Along

/-! ### Refinement -/

section Implements

variable {τ ε' : Type*}

/-- The events of `step'` that the events of a run amount to. -/
def eventsAlong (step : σ → ε → σ) (events : σ → ε → List ε') : σ → List ε → List ε'
  | _, [] => []
  | s, e :: es => events s e ++ eventsAlong step events (step s e) es

/-- Within the invariant `I`, each admissible event of `step` amounts to admissible events of
`step'` in the state seen through `view`, possibly to none. -/
structure Implements (step : σ → ε → σ) (g : σ → ε → Prop) (step' : τ → ε' → τ)
    (g' : τ → ε' → Prop) (view : σ → τ) (events : σ → ε → List ε') (I : σ → Prop) : Prop where
  keeps : ∀ s e, g s e → I s → I (step s e)
  simulates : ∀ s e, g s e → I s → view (step s e) = runFrom step' (view s) (events s e)
  admissible : ∀ s e, g s e → I s → Along step' g' (view s) (events s e)

variable {step : σ → ε → σ} {g : σ → ε → Prop} {step' : τ → ε' → τ} {g' : τ → ε' → Prop}
  {view : σ → τ} {events : σ → ε → List ε'} {I : σ → Prop}

/-- The refinement rule: what is seen of an admissible run is an admissible run. -/
theorem Implements.run (h : Implements step g step' g' view events I) {s : σ} (hs : I s)
    {es : List ε} (hrun : Along step g s es) :
    view (runFrom step s es) = runFrom step' (view s) (eventsAlong step events s es) ∧
      Along step' g' (view s) (eventsAlong step events s es) := by
  induction es generalizing s with
  | nil => exact ⟨rfl, trivial⟩
  | cons e es ih =>
    have hsimulates := h.simulates s e hrun.1 hs
    obtain ⟨hview, hlegal⟩ := ih (h.keeps s e hrun.1 hs) hrun.2
    rw [hsimulates] at hview hlegal
    rw [eventsAlong, runFrom_append, Along.append_iff]
    exact ⟨hview, h.admissible s e hrun.1 hs, hlegal⟩

end Implements

end PocketCash
