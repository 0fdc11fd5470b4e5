import PocketCash.Library.FirstClaim
import PocketCash.Canonical.Reconciliation

/-!
# Runs of the reconciliation engine

A list of submissions is answered one after the other. The engine settles the first valid claim for
each token id: its table holds exactly the claims that stand, and the submissions it answers with
`ACCEPTED` are exactly these.
-/

namespace PocketCash.Canonical

/-- Submitted token plus submission timestamp. -/
structure Submission where
  source : String
  token : Token
  submittedAt : Int
  deriving DecidableEq

namespace Submission

/-- The token id a submission is about. -/
def object (s : Submission) : String := s.token.tokenId

/-- The submission passes all checks but the one for duplicates. -/
def Valid (c : Crypto) (fromIsoformat : IsoReader) (s : Submission) : Prop :=
  ReconciliationEngine.Valid c fromIsoformat s.token s.submittedAt

instance (c : Crypto) (fromIsoformat : IsoReader) : DecidablePred (Valid c fromIsoformat) :=
  fun s => inferInstanceAs
    (Decidable (ReconciliationEngine.Valid c fromIsoformat s.token s.submittedAt))

end Submission

/-- An answered submission. -/
abbrev Answered := Submission × Except PyError ReconciliationResult

/-- The answer of an answered submission is `ACCEPTED`. -/
abbrev Answered.accepted (a : Answered) : Bool := ReconciliationEngine.accepted a.2

/-- The engine, and its answers to the submissions so far. -/
structure ReconciliationRun where
  engine : ReconciliationEngine
  answers : List Answered

namespace ReconciliationRun

/-- Answer one submission. -/
def handle (c : Crypto) (fromIsoformat : IsoReader) (run : ReconciliationRun) (s : Submission) :
    ReconciliationRun :=
  let (engine, answer) := run.engine.submit c fromIsoformat s.source s.token s.submittedAt
  ⟨engine, run.answers ++ [(s, answer)]⟩

/-- Answer the submissions in order. -/
def reconcile (c : Crypto) (fromIsoformat : IsoReader) (submissions : List Submission) :
    ReconciliationRun :=
  runFrom (handle c fromIsoformat) ⟨.new, []⟩ submissions

/-- The ids of the accepted submissions, in order. -/
def acceptedIds (run : ReconciliationRun) : List String :=
  (run.answers.filter Answered.accepted).map fun a => a.1.object

/-- The run against the claims that stand: the table of the engine lists them with their times, and
they are what was accepted. -/
structure Refines (run : ReconciliationRun) (standing : KeyedList Submission.object) : Prop where
  table : run.engine.acceptedByTokenId.items
    = standing.items.map fun s => (s.object, s.submittedAt)
  accepted : (run.answers.filter Answered.accepted).map Prod.fst = standing.items

variable {c : Crypto} {fromIsoformat : IsoReader}

lemma Refines.keys {run : ReconciliationRun} {standing : KeyedList Submission.object}
    (h : run.Refines standing) : run.engine.acceptedByTokenId.keys = standing.keys := by
  rw [KeyedList.keys, h.table, List.map_map]
  rfl

/-- Answering a submission is filing a claim. -/
lemma Refines.handle {run : ReconciliationRun} {standing : KeyedList Submission.object}
    (h : run.Refines standing) (s : Submission) :
    (run.handle c fromIsoformat s).Refines (fileClaim (Submission.Valid c fromIsoformat) standing s) ∧
      (ReconciliationEngine.accepted
          (run.engine.submit c fromIsoformat s.source s.token s.submittedAt).2 = true ↔
        s.Valid c fromIsoformat ∧ s.object ∉ standing.keys) := by
  rw [ReconciliationRun.handle]
  rcases ReconciliationEngine.submit_cases c fromIsoformat run.engine s.source s.token
    s.submittedAt with ⟨hsettles, hsubmit⟩ | ⟨hnot, answer, hanswer, hsubmit⟩
  · rw [hsubmit]
    have hstands : s.Valid c fromIsoformat ∧ s.object ∉ standing.keys := by
      rw [← h.keys]
      exact hsettles
    have hitems := fileClaim_of_stands hstands
    refine ⟨⟨?_, ?_⟩, iff_of_true rfl hstands⟩
    · rw [hitems, List.map_append, ← h.table]
      exact KeyedList.items_put_of_notMem hsettles.2
    · rw [hitems, ← h.accepted, List.filter_append, List.map_append]
      rfl
  · rw [hsubmit]
    rw [h.keys] at hnot
    have hsame : fileClaim (Submission.Valid c fromIsoformat) standing s = standing :=
      fileClaim_of_turnedDown hnot
    refine ⟨⟨?_, ?_⟩, iff_of_false (by simp [hanswer]) hnot⟩
    · rw [hsame, h.table]
    · have hlast : [(s, answer)].filter Answered.accepted = [] := by simp [hanswer]
      rw [hsame, ← h.accepted, List.filter_append, hlast, List.append_nil]

/-- The engine accepts the first valid claims. -/
theorem refines_standing (c : Crypto) (fromIsoformat : IsoReader) (submissions : List Submission) :
    (reconcile c fromIsoformat submissions).Refines
      (standing Submission.object (Submission.Valid c fromIsoformat) submissions) :=
  runFrom_simulates (R := Refines) (fun s _ _ _ h => (h.handle s).1) ⟨rfl, rfl⟩

/-! ### The answers -/

/-- The answers do not depend on the answers given before. -/
lemma answers_runFrom (engine : ReconciliationEngine) (answers : List Answered)
    (submissions : List Submission) :
    (runFrom (handle c fromIsoformat) ⟨engine, answers⟩ submissions).answers
      = answers ++ (runFrom (handle c fromIsoformat) ⟨engine, []⟩ submissions).answers := by
  induction submissions generalizing engine answers with
  | nil => simp
  | cons s submissions ih =>
    rw [runFrom_cons, runFrom_cons, handle, handle, ih, ih _ ([] ++ _), List.append_assoc]
    rfl

/-- Every submission is answered, in order. -/
lemma map_fst_runFrom (run : ReconciliationRun) (submissions : List Submission) :
    (runFrom (handle c fromIsoformat) run submissions).answers.map Prod.fst
      = run.answers.map Prod.fst ++ submissions := by
  induction submissions generalizing run with
  | nil => simp
  | cons s submissions ih =>
    rw [runFrom_cons, ih, handle, List.map_append, List.append_assoc]
    rfl

/-- The answers after `s` was submitted in state `run`, and then `later`. -/
def laterAnswers (c : Crypto) (fromIsoformat : IsoReader) (run : ReconciliationRun) (s : Submission)
    (later : List Submission) : List Answered :=
  (runFrom (handle c fromIsoformat)
    ⟨(run.engine.submit c fromIsoformat s.source s.token s.submittedAt).1, []⟩ later).answers

/-- What the answers around a submission are. -/
lemma answers_split {submissions : List Submission} {before after : List Answered}
    {s : Submission} {answer : Except PyError ReconciliationResult}
    (h : (reconcile c fromIsoformat submissions).answers = before ++ (s, answer) :: after) :
    before = (reconcile c fromIsoformat (before.map Prod.fst)).answers ∧
      answer = ((reconcile c fromIsoformat (before.map Prod.fst)).engine.submit c fromIsoformat
        s.source s.token s.submittedAt).2 ∧
      after = laterAnswers c fromIsoformat (reconcile c fromIsoformat (before.map Prod.fst)) s
        (after.map Prod.fst) := by
  have hsubmissions : submissions = before.map Prod.fst ++ s :: after.map Prod.fst := by
    have hall := @map_fst_runFrom c fromIsoformat ⟨.new, []⟩ submissions
    rw [← reconcile, h] at hall
    simpa using hall.symm
  have hrun : (reconcile c fromIsoformat submissions).answers
      = (reconcile c fromIsoformat (before.map Prod.fst)).answers ++
        (s, ((reconcile c fromIsoformat (before.map Prod.fst)).engine.submit c fromIsoformat
          s.source s.token s.submittedAt).2) ::
        laterAnswers c fromIsoformat (reconcile c fromIsoformat (before.map Prod.fst)) s
          (after.map Prod.fst) := by
    rw [hsubmissions, reconcile, runFrom_append, runFrom_cons, handle, answers_runFrom,
      List.append_assoc]
    rfl
  have hlength : before.length
      = (reconcile c fromIsoformat (before.map Prod.fst)).answers.length := by
    have hmap := congrArg List.length
      (@map_fst_runFrom c fromIsoformat ⟨.new, []⟩ (before.map Prod.fst))
    simpa [reconcile] using hmap.symm
  obtain ⟨hbefore, hrest⟩ := List.append_inj (h.symm.trans hrun) hlength
  obtain ⟨hhead, hafter⟩ := List.cons.inj hrest
  exact ⟨hbefore, congrArg Prod.snd hhead, hafter⟩

/-- A submission is accepted exactly if it is valid and no earlier one with its token id was
accepted. -/
lemma accepted_iff {submissions : List Submission} {before after : List Answered} {s : Submission}
    {answer : Except PyError ReconciliationResult}
    (h : (reconcile c fromIsoformat submissions).answers = before ++ (s, answer) :: after) :
    ReconciliationEngine.accepted answer = true ↔
      s.Valid c fromIsoformat ∧
        ∀ a ∈ before, a.1.token.tokenId = s.token.tokenId → a.accepted = false := by
  obtain ⟨hbefore, rfl, -⟩ := answers_split h
  have hrefines := refines_standing c fromIsoformat (before.map Prod.fst)
  rw [(hrefines.handle s).2]
  apply and_congr_right
  intro _
  rw [KeyedList.keys, ← hrefines.accepted, ← hbefore, List.map_map]
  constructor
  · intro hnot a ha hid
    rw [← Bool.not_eq_true]
    intro haccepted
    exact hnot (List.mem_map.mpr ⟨a, List.mem_filter.mpr ⟨ha, haccepted⟩, hid⟩)
  · intro hfirst hmem
    obtain ⟨a, ha, hid⟩ := List.mem_map.mp hmem
    obtain ⟨ha, haccepted⟩ := List.mem_filter.mp ha
    rw [hfirst a ha hid] at haccepted
    cases haccepted

/-- A submission that is not accepted could as well not have been made. -/
lemma answers_of_not_accepted {submissions : List Submission} {before after : List Answered}
    {s : Submission} {answer : Except PyError ReconciliationResult}
    (h : (reconcile c fromIsoformat submissions).answers = before ++ (s, answer) :: after)
    (hrejected : ReconciliationEngine.accepted answer = false) :
    (reconcile c fromIsoformat (before.map Prod.fst ++ after.map Prod.fst)).answers
      = before ++ after := by
  obtain ⟨hbefore, hanswer, hafter⟩ := answers_split h
  rw [reconcile, runFrom_append, ← reconcile]
  generalize reconcile c fromIsoformat (before.map Prod.fst) = run at *
  obtain ⟨engine, answers⟩ := run
  rcases ReconciliationEngine.submit_cases c fromIsoformat engine s.source s.token
    s.submittedAt with ⟨-, hsubmit⟩ | ⟨-, answer', -, hsubmit⟩
  · rw [hanswer, hsubmit] at hrejected
    cases hrejected
  · rw [laterAnswers, hsubmit] at hafter
    rw [answers_runFrom, ← hafter]
    exact congrArg (· ++ after) hbefore.symm

lemma acceptedIds_eq (c : Crypto) (fromIsoformat : IsoReader) (submissions : List Submission) :
    (reconcile c fromIsoformat submissions).acceptedIds
      = (standing Submission.object (Submission.Valid c fromIsoformat) submissions).keys := by
  rw [KeyedList.keys, ← (refines_standing c fromIsoformat submissions).accepted, List.map_map]
  rfl

/-- Reconciliation accepts exactly the first valid claim for each token id, the claims it turns down
leave no trace, and which ids get settled does not depend on the order. -/
theorem accepts_first_valid {c : Crypto} {fromIsoformat : IsoReader} {submissions : List Submission}
    (hread : ∀ s ∈ submissions, ∃ expiry, fromIsoformat s.token.expiry = .ok expiry) :
    (reconcile c fromIsoformat submissions).answers.map Prod.fst = submissions ∧
    (∀ (before : List Answered) s answer after,
      (reconcile c fromIsoformat submissions).answers = before ++ (s, answer) :: after →
      ∃ result, answer = .ok result ∧
        (result.status = .accepted ↔
          s.token.validateChain c s.token.issuerPk = true ∧
          (∃ expiry, fromIsoformat s.token.expiry = .ok expiry ∧ s.submittedAt ≤ expiry) ∧
          s.token.transferChain.length ≤ 7 ∧
          ∀ a ∈ before, a.1.token.tokenId = s.token.tokenId → a.accepted = false) ∧
        (result.status ≠ .accepted →
          (reconcile c fromIsoformat (before.map Prod.fst ++ after.map Prod.fst)).answers
            = before ++ after)) ∧
    (reconcile c fromIsoformat submissions).acceptedIds.Nodup ∧
    ∀ submissions', submissions.Perm submissions' →
      (reconcile c fromIsoformat submissions).acceptedIds.Perm
        (reconcile c fromIsoformat submissions').acceptedIds := by
  have hall : (reconcile c fromIsoformat submissions).answers.map Prod.fst = submissions := by
    rw [reconcile, map_fst_runFrom]
    rfl
  refine ⟨hall, ?_, ?_, ?_⟩
  · intro before s answer after h
    have hs : s ∈ submissions := by
      rw [← hall, h]
      simp
    obtain ⟨expiry, hexpiry⟩ := hread s hs
    obtain ⟨-, hanswer, -⟩ := answers_split h
    obtain ⟨result, hresult⟩ := ReconciliationEngine.exists_submit_eq_ok (c := c)
      (reconcile c fromIsoformat (before.map Prod.fst)).engine s.source hexpiry s.submittedAt
    rw [hresult] at hanswer
    subst hanswer
    have hstatus : ReconciliationEngine.accepted (.ok result) = true ↔ result.status = .accepted :=
      decide_eq_true_iff
    refine ⟨result, rfl, ?_, fun hrejected => answers_of_not_accepted h ?_⟩
    · rw [← hstatus, accepted_iff h, ← isNotExpired_eq_true_iff]
      constructor
      · rintro ⟨hvalid, hfirst⟩
        exact ⟨hvalid.chain, hvalid.notExpired, hvalid.hops, hfirst⟩
      · rintro ⟨hchain, hnotExpired, hhops, hfirst⟩
        exact ⟨⟨hchain, hnotExpired, hhops⟩, hfirst⟩
    · rw [← Bool.not_eq_true, hstatus]
      exact hrejected
  · rw [acceptedIds_eq]
    exact KeyedList.keys_nodup _
  · intro submissions' hperm
    rw [acceptedIds_eq, acceptedIds_eq]
    exact keys_standing_perm hperm

/-- Two forks of one note: paid to Bob, and to Carol. -/
def plainForks : List Submission :=
  [⟨"bob", plainTransfer (plainToken "tok-w1" 50 "alice") "alice" "bob", 1772355600000000⟩,
    ⟨"carol", plainTransfer (plainToken "tok-w1" 50 "alice") "alice" "carol", 1772355600000001⟩]

theorem accepts_first_of_plainForks :
    (reconcile plainCrypto (fun _ => .ok 1893456000000000) plainForks).acceptedIds.Nodup :=
  (accepts_first_valid (c := plainCrypto) fun _ _ => ⟨1893456000000000, rfl⟩).2.2.1

end ReconciliationRun

end PocketCash.Canonical
